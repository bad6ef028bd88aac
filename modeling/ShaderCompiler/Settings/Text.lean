import ShaderCompiler.Diagnostic
import ShaderCompiler.Settings.Basic
import ShaderCompiler.Toml.Reader
import ShaderCompiler.Toml.Writer

namespace ShaderCompiler

namespace Settings

/-- The entries of a table. An array stands for the table with its items under the known keys in
order, whatever comes after them, and a date for a table with no known key. -/
def entries? (keys : List String) : Toml.Value → Option (List (String × Toml.Value))
  | .table entries => if Toml.usableEntries entries then some entries else none
  | .array items => some (keys.zip items)
  | .moment _ => some []
  | _ => none

def field {α : Type} (entries : List (String × Toml.Value)) (key : String)
    (decode : Toml.Value → Option α) (default : α) : Option α :=
  match entries.lookup key with
  | some v => decode v
  | none => some default

def string? : Toml.Value → Option String
  | .string text => some text
  | _ => none

def boolean? : Toml.Value → Option Bool
  | .boolean b => some b
  | _ => none

def strings? : Toml.Value → Option (List String)
  | .array items => items.mapM string?
  | _ => none

def table? (root : List (String × Toml.Value)) (name : String) (keys : List String) :
    Option (List (String × Toml.Value)) :=
  match root.lookup name with
  | some v => entries? keys v
  | none => some []

def tableNames : List String := ["glsl", "compile"]

/-- What is not given has its default; keys that are not known do not count, but their values have
to be usable. -/
def ofTable? (root : List (String × Toml.Value)) : Option Settings := do
  if !Toml.usableEntries (root.filter (·.1 ∉ tableNames)) then failure
  let d : Settings := {}
  let glsl ← table? root "glsl" ["default_version", "extensions", "indent"]
  let defaultVersion ← field glsl "default_version" string? d.defaultVersion
  let extensions ← field glsl "extensions" strings? d.extensions
  let indent ← field glsl "indent" string? d.indent
  let compile ← table? root "compile" ["debug", "require_locations"]
  let debug ← field compile "debug" boolean? d.debug
  let requireLocations ← field compile "require_locations" boolean? d.requireLocations
  return { defaultVersion, extensions, indent, debug, requireLocations }

def read (text : String) : Except Diagnostic Settings :=
  match (Toml.read? text).bind ofTable? with
  | some settings => .ok settings
  | none => .error .settings

def write (s : Settings) : String :=
  "[glsl]\ndefault_version = " ++ Toml.stringText s.defaultVersion ++
    "\nextensions = " ++ Toml.listText s.extensions ++
    "\nindent = " ++ Toml.stringText s.indent ++
    "\n\n[compile]\ndebug = " ++ Toml.booleanText s.debug ++
    "\nrequire_locations = " ++ Toml.booleanText s.requireLocations ++ "\n"

end Settings

end ShaderCompiler
