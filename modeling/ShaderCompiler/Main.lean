import ShaderCompiler.CommandLine.Run

namespace ShaderCompiler.CommandLine

/-- The code stands for an error of this number; some calls report the number negated. -/
def hasNumber (number code : UInt32) : Bool := code == number || code == -number

def FileFault.ofError : IO.Error → FileFault
  | .noFileOrDirectory _ _ _ | .noSuchThing _ _ _ => .missing
  | .alreadyExists _ _ _ => .alreadyExists
  | .inappropriateType _ code _ => if hasNumber 21 code then .isDirectory else .notDirectory
  | e@(.invalidArgument _ code _) => if hasNumber 36 code then .longName else .other (toString e)
  | e => .other (toString e)

def attempt {α : Type} (action : IO α) : IO (Except FileFault α) := do
  try return .ok (← action) catch e => return .error (.ofError e)

def ensureDirectory (path : String) : IO (Except FileFault Unit) := do
  match ← attempt (IO.FS.createDir path) with
  | .error .alreadyExists =>
      match ← attempt (IO.FS.createDirAll path) with
      | .ok () => return .ok ()
      | .error _ => return .error .alreadyExists
  | result => return result

def fileSystem : Host IO where
  readFile path := attempt (IO.FS.readFile path)
  ensureDirectory := ensureDirectory
  writeFile path text := attempt (IO.FS.writeFile path text)
  print := IO.print

end ShaderCompiler.CommandLine

open ShaderCompiler.CommandLine in
def main (args : List String) : IO UInt32 := do
  let outcome ← run fileSystem args
  IO.eprint outcome.report
  return outcome.exitCode.toUInt32
