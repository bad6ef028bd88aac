namespace ShaderCompiler.CommandLine.Path

def isAbsolute (path : String) : Bool := path.toList.head? == some '/'

def parts (path : String) : List String := path.splitOn "/"

def steps (path : String) : List String := (parts path).filter fun p => p ≠ "" ∧ p ≠ "."

def fileName (path : String) : String := ((steps path).getLast?).getD ""

def join (dir file : String) : String :=
  if dir.toList.getLast? == some '/' then dir ++ file else dir ++ "/" ++ file

def ancestors (path : String) : List String :=
  let names := steps path
  let root := if isAbsolute path then "/" else ""
  ((List.range names.length).drop 1).reverse.map fun n =>
    root ++ String.intercalate "/" (names.take n)

end ShaderCompiler.CommandLine.Path
