namespace ShaderCompiler

structure Settings where
  defaultVersion : String := "430"
  extensions : List String := []
  indent : String := "    "
  debug : Bool := false
  requireLocations : Bool := true
  deriving DecidableEq, Repr

end ShaderCompiler
