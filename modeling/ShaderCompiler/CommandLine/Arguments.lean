namespace ShaderCompiler.CommandLine

structure CompileRequest where
  file : String
  className : Option String := none
  out : Option String := none
  config : Option String := none
  debug : Bool := false
  link : Bool := false
  deps : Bool := false
  deriving DecidableEq, Repr

inductive Command where
  | compile (request : CompileRequest)
  | check (file : String) (config : Option String)
  | types
  | defaults
  | version
  | help
  deriving DecidableEq, Repr

inductive Flag where
  | debug | link | deps
  deriving DecidableEq, Repr

inductive Setting where
  | className | out | config
  deriving DecidableEq, Repr

namespace Flag

def long : Flag → String
  | debug => "debug"
  | link => "link"
  | deps => "deps"

end Flag

namespace Setting

def long : Setting → String
  | className => "class"
  | out => "out"
  | config => "config"

def short? : Setting → Option Char
  | className => some 'c'
  | out => some 'o'
  | config => none

def isPath : Setting → Bool
  | className => false
  | out | config => true

end Setting

structure Shape where
  takesFile : Bool := false
  settings : List Setting := []
  flags : List Flag := []

inductive Word where
  | file (path : String)
  | flag (f : Flag)
  | setting (s : Setting) (attached : Option String)
  | separator
  | help

/-- Arguments that cannot be the value of an option: all that start with a dash and go on. -/
def isOption (text : String) : Bool :=
  match text.toList with
  | '-' :: _ :: _ => true
  | _ => false

namespace Shape

def longWord? (shape : Shape) (body : List Char) : Option Word :=
  let name := String.ofList (body.takeWhile (· ≠ '='))
  let attached := match body.dropWhile (· ≠ '=') with
    | [] => none
    | _ :: value => some (String.ofList value)
  match shape.settings.find? (·.long == name) with
  | some s => some (.setting s attached)
  | none =>
      if attached.isSome then none
      else if name == "help" then some .help
      else (shape.flags.find? (·.long == name)).map .flag

def shortWord? (shape : Shape) (c : Char) (rest : List Char) : Option Word :=
  match shape.settings.find? (·.short? == some c) with
  | some s =>
      some (.setting s (match rest with
        | [] => none
        | '=' :: value => some (String.ofList value)
        | value => some (String.ofList value)))
  | none => if c == 'h' then some .help else none

def word? (shape : Shape) (text : String) : Option Word :=
  match text.toList with
  | ['-', '-'] => some .separator
  | '-' :: '-' :: body => shape.longWord? body
  | '-' :: c :: rest => shape.shortWord? c rest
  | _ => some (.file text)

end Shape

structure Given where
  file : Option String := none
  settings : List (Setting × String) := []
  flags : List Flag := []
  help : Bool := false

namespace Given

def addFile? (shape : Shape) (g : Given) (path : String) : Option Given :=
  if shape.takesFile && !path.isEmpty && g.file.isNone then some { g with file := some path }
  else none

def addFlag? (g : Given) (f : Flag) : Option Given :=
  if f ∈ g.flags then none else some { g with flags := f :: g.flags }

def addSetting? (g : Given) (s : Setting) (value : String) : Option Given :=
  if (g.settings.lookup s).isSome || (s.isPath && value.isEmpty) then none
  else some { g with settings := (s, value) :: g.settings }

/-- Takes the arguments in turn, up to a call for help. -/
def add? (shape : Shape) : List String → Given → Option Given
  | [], g => some g
  | text :: rest, g =>
      match shape.word? text with
      | none => none
      | some .help => some { g with help := true }
      | some .separator => rest.foldlM (addFile? shape) g
      | some (.file path) => (g.addFile? shape path).bind (add? shape rest)
      | some (.flag f) => (g.addFlag? f).bind (add? shape rest)
      | some (.setting s (some value)) => (g.addSetting? s value).bind (add? shape rest)
      | some (.setting s none) =>
          match rest with
          | [] => none
          | value :: rest =>
              if isOption value then none else (g.addSetting? s value).bind (add? shape rest)

end Given

namespace Command

def compileShape : Shape where
  takesFile := true
  settings := [.className, .out, .config]
  flags := [.debug, .link, .deps]

def checkShape : Shape where
  takesFile := true
  settings := [.config]

/-- A call for help goes before what is missing. -/
def ofGiven? (shape : Shape) (args : List String) (make : Given → Option Command) :
    Option Command :=
  (Given.add? shape args {}).bind fun g => if g.help then some .help else make g

def names : List String := ["compile", "check", "types", "config", "help"]

def ofArgs? : List String → Option Command
  | "compile" :: args =>
      ofGiven? compileShape args fun g => g.file.map fun file => .compile {
        file
        className := g.settings.lookup .className
        out := g.settings.lookup .out
        config := g.settings.lookup .config
        debug := .debug ∈ g.flags
        link := .link ∈ g.flags
        deps := .deps ∈ g.flags }
  | "check" :: args =>
      ofGiven? checkShape args fun g => g.file.map fun file =>
        .check file (g.settings.lookup .config)
  | "types" :: args => ofGiven? {} args fun _ => some .types
  | "config" :: args => ofGiven? {} args fun _ => some .defaults
  | ["help"] => some .help
  | ["help", name] => if name ∈ names then some .help else none
  | "--version" :: _ => some .version
  | "--help" :: _ => some .help
  | text :: _ =>
      match text.toList with
      | '-' :: 'V' :: _ => some .version
      | '-' :: 'h' :: _ => some .help
      | _ => none
  | [] => none

end Command

end ShaderCompiler.CommandLine
