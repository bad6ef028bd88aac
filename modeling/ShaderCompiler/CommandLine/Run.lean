import ShaderCompiler.CommandLine.Arguments
import ShaderCompiler.CommandLine.Failure
import ShaderCompiler.CommandLine.FileTree
import ShaderCompiler.Linker.Link
import ShaderCompiler.Settings.Text
import ShaderCompiler.Shader.Source

namespace ShaderCompiler.CommandLine

/-- What a command may do to the world around it. -/
structure Host (m : Type → Type) where
  readFile : String → m (Except FileFault String)
  ensureDirectory : String → m (Except FileFault Unit)
  writeFile : (path text : String) → m (Except FileFault Unit)
  print : String → m Unit

section

variable {m : Type → Type} [Monad m]

/-- A step that can fail. What was printed and written before stays. -/
abbrev Task (m : Type → Type) := ExceptT Failure m

def say (host : Host m) (text : String) : Task m Unit := host.print text

def orFail {ε α : Type} (text : String) (message : ε → String) : Except ε α → Task m α
  | .ok a => return a
  | .error e => throw ⟨text, [message e]⟩

def loadSettings (host : Host m) : Option String → Task m Settings
  | none => return {}
  | some path => do
      let context := "failed to load config: " ++ path
      match ← host.readFile path with
      | .error fault => throw ⟨context, ["IO error: " ++ fault.message, fault.message]⟩
      | .ok text => orFail context Diagnostic.message (Settings.read text)

def readClassesOf (host : Host m) (path : String) : Task m (List ClassDecl) := do
  let text ← orFail ("failed to read file: " ++ path) FileFault.message (← host.readFile path)
  orFail ("failed to parse " ++ path) Diagnostic.message (readSource text (Path.fileName path))

def selectShaders (classes : List ClassDecl) : Option String → Except Failure (List ClassDecl)
  | none => .ok (classes.filter (·.isShader))
  | some name =>
      match findClass? classes name with
      | none => .error { text := "no class named '" ++ name ++ "'" }
      | some c =>
          if c.isShader then .ok [c]
          else
            .error ⟨"'" ++ name ++
              "' is a library class; compile a shader that uses it with --link", []⟩

/-- The names are plain words, so nothing in them needs an escape. -/
def quoted (name : String) : String := "\"" ++ name ++ "\""

def margin (depth : Nat) : String := String.ofList (List.replicate (2 * depth) ' ')

def bracketed (opening closing : String) (depth : Nat) (items : List String) : String :=
  if items.isEmpty then opening ++ closing
  else
    opening ++ "\n" ++
      String.intercalate ",\n" (items.map fun item => margin (depth + 1) ++ item) ++
      "\n" ++ margin depth ++ closing

def record (depth : Nat) (fields : List (String × String)) : String :=
  bracketed "\x7b" "\x7d" depth (fields.map fun (key, value) => quoted key ++ ": " ++ value)

def dependencyRecord (depth : Nat) (d : Dependency) : String :=
  record depth [("qualified_name", quoted d.qualifiedName), ("name", quoted d.name),
    ("arity", toString d.arity)]

def shaderRecord (depth : Nat) (s : CompiledShader) : String :=
  record depth [("shader", quoted s.name), ("file", quoted s.fileName),
    ("dependencies",
      bracketed "[" "]" (depth + 1) (s.dependencies.map (dependencyRecord (depth + 2))))]

def dependencyReport (shaders : List CompiledShader) : String :=
  bracketed "[" "]" 0 (shaders.map (shaderRecord 1))

def render (settings : Settings) (linker : Option Linker) (s : CompiledShader) :
    Task m String :=
  match linker with
  | none => return s.source
  | some l => orFail ("failed to link '" ++ s.name ++ "'") Diagnostic.message (l.link settings s)

/-- Makes the first directory. Where something on the way to it is missing, the others are made
before. -/
def ensureDirectories (host : Host m) : List String → m (Except FileFault Unit)
  | [] => return .ok ()
  | path :: nearer => do
      match ← host.ensureDirectory path with
      | .error .missing =>
          match ← ensureDirectories host nearer with
          | .ok () => host.ensureDirectory path
          | fault => return fault
      | result => return result

def createDirectories (host : Host m) (path : String) : m (Except FileFault Unit) :=
  ensureDirectories host (path :: Path.ancestors path)

def deliver (host : Host m) (out : Option String) (s : CompiledShader) (text : String) :
    Task m Unit := do
  match out with
  | none => say host ("// " ++ s.fileName ++ "\n" ++ text)
  | some dir =>
      let path := Path.join dir s.fileName
      orFail ("failed to write " ++ path) FileFault.message (← host.writeFile path text)

def runCompile (host : Host m) (r : CompileRequest) : Task m Unit := do
  let settings ← loadSettings host r.config
  let settings := { settings with debug := settings.debug || r.debug }
  let classes ← readClassesOf host r.file
  let selected ← (selectShaders classes r.className : Except Failure _)
  if selected.isEmpty then throw { text := r.file ++ " contains no shader classes" }
  let linker ←
    if r.link then
      some <$> orFail "failed to register library classes" Diagnostic.message
        (Linker.ofClasses classes)
    else pure none
  let shaders ← selected.mapM fun c =>
    orFail ("failed to compile '" ++ c.name ++ "'") Diagnostic.message (compile settings c)
  if r.deps then say host (dependencyReport shaders ++ "\n")
  else
    if let some dir := r.out then
      orFail ("failed to create output directory: " ++ dir) FileFault.message
        (← (createDirectories host dir : m _))
    shaders.forM fun s => do deliver host r.out s (← render settings linker s)

def checkShader (settings : Settings) (linker : Except Diagnostic Linker) (c : ClassDecl) :
    Except Diagnostic CompiledShader := do
  let s ← compile settings c
  match linker with
  | .ok l => let _ ← l.link settings s
  | .error _ => pure ()
  return s

def passed (text : String) : String := "   ✓ " ++ text ++ "\n"

def failed (text : String) : String := "   ✗ " ++ text ++ "\n"

def checkLine (name : String) : Except Diagnostic CompiledShader → String
  | .ok s => passed (name ++ " -> " ++ s.fileName)
  | .error d => failed (name ++ ": " ++ d.message)

def libraryLine : Except Diagnostic Linker → String
  | .ok _ => ""
  | .error d => failed ("libraries: " ++ d.message)

def failures (results : List (String × Except Diagnostic CompiledShader))
    (linker : Except Diagnostic Linker) : List String :=
  (results.filter fun r => !r.2.isOk).map (·.1) ++ if linker.isOk then [] else ["libraries"]

def runCheck (host : Host m) (file : String) (config : Option String) : Task m Unit := do
  let settings ← loadSettings host config
  say host ("Checking " ++ file ++ "\n")
  let classes ← readClassesOf host file
  say host (passed ("Parse OK (" ++ toString classes.length ++ " classes)"))
  let linker := Linker.ofClasses classes
  let results := (classes.filter (·.isShader)).map fun c => (c.name, checkShader settings linker c)
  say host (String.join (results.map fun (name, r) => checkLine name r) ++ libraryLine linker)
  let names := failures results linker
  if names.isEmpty then say host (passed "All shader classes compile")
  else throw ⟨toString names.length ++ " class(es) failed: " ++ String.intercalate ", " names, []⟩

def shapeText : ShaderCompiler.Shape → String
  | .void => "void"
  | .scalar => "scalar"
  | .vector n => "vector of " ++ toString n
  | .matrix columns rows => "matrix " ++ toString columns ++ "x" ++ toString rows
  | .sampler => "sampler"

def column (width : Nat) (text : String) : String :=
  text ++ String.ofList (List.replicate (width - text.length) ' ')

def typeLine (t : BuiltinType) : String :=
  column 18 t.name ++ " " ++
    (match t.kind with
    | some kind => column 14 (shapeText t.shape) ++ " " ++ kind.name
    | none => shapeText t.shape) ++ "\n"

def usage : String :=
  "Usage: aslc <COMMAND>\n\nCommands:\n" ++
    "  compile  Compile the shader classes of a file to GLSL\n" ++
    "  check    Parse and compile every shader class, reporting errors\n" ++
    "  types    List the type vocabulary\n" ++
    "  config   Print the default configuration as TOML\n"

def runCommand (host : Host m) : Command → Task m Unit
  | .compile request => runCompile host request
  | .check file config => runCheck host file config
  | .types => say host (String.join (Vocabulary.all.map typeLine))
  | .defaults => say host ({} : Settings).write
  | .version => say host "aslc 0.1.5\n"
  | .help => say host usage

inductive Outcome where
  | done
  | failed (f : Failure)
  | misused
  deriving DecidableEq, Repr

namespace Outcome

def exitCode : Outcome → Nat
  | done => 0
  | failed _ => 1
  | misused => 2

def report : Outcome → String
  | failed f => f.report
  | done | misused => ""

end Outcome

def run (host : Host m) (args : List String) : m Outcome := do
  match Command.ofArgs? args with
  | none => return .misused
  | some command =>
      match ← (runCommand host command).run with
      | .ok () => return .done
      | .error f => return .failed f

end

structure World where
  tree : FileTree := {}
  printed : String := ""

namespace World

def change (f : FileTree → Except FileFault FileTree) : StateM World (Except FileFault Unit) :=
  modifyGet fun w =>
    match f w.tree with
    | .ok tree => (.ok (), { w with tree })
    | .error fault => (.error fault, w)

def host : Host (StateM World) where
  readFile path := return (← get).tree.readFile path
  ensureDirectory path := change (·.ensureDirectory path)
  writeFile path text := change (·.writeFile path text)
  print text := modify fun w => { w with printed := w.printed ++ text }

end World

end ShaderCompiler.CommandLine
