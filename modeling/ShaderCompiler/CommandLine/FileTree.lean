import ShaderCompiler.CommandLine.Path

namespace ShaderCompiler.CommandLine

inductive FileFault where
  | missing
  | alreadyExists
  | notDirectory
  | isDirectory
  | longName
  | other (reason : String)
  deriving DecidableEq, Repr

def FileFault.message : FileFault → String
  | missing => "No such file or directory (os error 2)"
  | alreadyExists => "File exists (os error 17)"
  | notDirectory => "Not a directory (os error 20)"
  | isDirectory => "Is a directory (os error 21)"
  | longName => "File name too long (os error 36)"
  | other reason => reason

abbrev Place := List String

/-- Texts by their places. A directory is there if it was made or if something lies in it, and so is
the working directory. -/
structure FileTree where
  files : List (Place × String) := []
  directories : List Place := []
  workingDirectory : Place := ["work"]
  deriving Repr

namespace FileTree

inductive Entry where
  | file (text : String)
  | directory

def entry? (t : FileTree) (place : Place) : Option Entry :=
  match t.files.lookup place with
  | some text => some (.file text)
  | none =>
      if place.isPrefixOf t.workingDirectory || t.directories.contains place ||
          t.files.any (place.isPrefixOf ·.1) then
        some .directory
      else none

def step (dir : Place) (part : String) : Except FileFault Place :=
  if part == "" || part == "." then .ok dir
  else if part == ".." then .ok dir.dropLast
  else if 255 < part.utf8ByteSize then .error .longName
  else .ok (dir ++ [part])

/-- The place that the parts of a path lead to. All before the last one lead through directories. -/
def walk (t : FileTree) : (here : Place) → (parts : List String) → Except FileFault Place
  | here, [] => .ok here
  | here, part :: rest =>
      match t.entry? here with
      | none => .error .missing
      | some (.file _) => .error .notDirectory
      | some .directory => do t.walk (← step here part) rest

def start (t : FileTree) (path : String) : Place :=
  if Path.isAbsolute path then [] else t.workingDirectory

def locate (t : FileTree) (path : String) : Except FileFault Place :=
  t.walk (t.start path) (Path.parts path)

def readFile (t : FileTree) (path : String) : Except FileFault String := do
  match t.entry? (← t.locate path) with
  | some (.file text) => return text
  | some .directory => throw .isDirectory
  | none => throw .missing

def replaceFile (place : Place) (text : String) : List (Place × String) → List (Place × String)
  | [] => [(place, text)]
  | (p, old) :: rest =>
      if p = place then (p, text) :: rest else (p, old) :: replaceFile place text rest

def writeFile (t : FileTree) (path text : String) : Except FileFault FileTree := do
  let place ← t.locate path
  match t.entry? place with
  | some .directory => throw .isDirectory
  | _ => return { t with files := replaceFile place text t.files }

/-- Makes a directory unless it is there. All before the last part of the path has to be there;
slashes after that part do not count. -/
def ensureDirectory (t : FileTree) (path : String) : Except FileFault FileTree := do
  let place ← t.walk (t.start path) ((Path.parts path).filter (· ≠ ""))
  match t.entry? place with
  | some .directory => return t
  | some (.file _) => throw .alreadyExists
  | none => return { t with directories := place :: t.directories }

def ofFiles (files : List (String × String)) : FileTree :=
  let t : FileTree := {}
  { t with files := files.map fun (path, text) => (t.workingDirectory ++ Path.steps path, text) }

def filesHere (t : FileTree) : List (String × String) :=
  (t.files.filter (t.workingDirectory.isPrefixOf ·.1)).map fun (place, text) =>
    (String.intercalate "/" (place.drop t.workingDirectory.length), text)

end FileTree

end ShaderCompiler.CommandLine
