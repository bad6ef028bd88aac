import ShaderCompiler.Toml.Scalar
import ShaderCompiler.Toml.Text
import ShaderCompiler.Toml.Tree

namespace ShaderCompiler.Toml

def isBareKey (c : Char) : Bool := c.isAlphanum || c == '_' || c == '-'

def blanks : Scan Unit := do
  let _ ← Scan.while_ isBlank

def comment : Scan Unit := do
  if ← Scan.tryWord "#" then
    let _ ← Scan.while_ isPlain

def spacing : (fuel : Nat) → Scan Unit
  | 0 => return
  | fuel + 1 => do
      blanks
      comment
      match ← lineBreak with
      | [] => return
      | _ => spacing fuel

def gap : Scan Unit := do spacing ((← get).length + 1)

def simpleKey : Scan String := do
  match ← shortString? with
  | some text => return text
  | none =>
      let key ← Scan.while_ isBareKey
      if key.isEmpty then failure
      return String.ofList key

def dottedKey : (fuel : Nat) → Scan (List String)
  | 0 => failure
  | fuel + 1 => do
      blanks
      let key ← simpleKey
      blanks
      if ← Scan.tryWord "." then return key :: (← dottedKey fuel) else return [key]

def keyPath : Scan (List String) := do dottedKey ((← get).length + 1)

def isWordChar (c : Char) : Bool :=
  c.isAlphanum || c == '_' || c == '-' || c == '+' || c == '.' || c == ':'

def bareWord : Scan (List Char) := do
  let first ← Scan.while_ isWordChar
  match ← get with
  | ' ' :: d :: rest =>
      if d.isDigit && first.length == 10 && first.getD 4 ' ' == '-' then
        set (d :: rest)
        return first ++ ' ' :: (← Scan.while_ isWordChar)
      else return first
  | _ => return first

def maxNesting : Nat := 80

mutual

/-- A value that opens at most so many arrays and tables inside each other. -/
def value : (fuel nesting : Nat) → Scan Value
  | 0, _ => failure
  | fuel + 1, nesting => do
      match ← string? with
      | some text => return .string text
      | none =>
          if ← Scan.tryWord "[" then
            check (nesting != 0)
            gap
            return .array (← arrayItems fuel (nesting - 1))
          else if ← Scan.tryWord "\x7b" then
            check (nesting != 0)
            gap
            return .table (entryValues (← inlineEntries fuel (nesting - 1) []))
          else
            match scalar? (← bareWord) with
            | some v => return v
            | none => failure

def arrayItems : (fuel nesting : Nat) → Scan (List Value)
  | 0, _ => failure
  | fuel + 1, nesting => do
      if ← Scan.tryWord "]" then return []
      let v ← value fuel nesting
      gap
      if ← Scan.tryWord "," then
        gap
        return v :: (← arrayItems fuel nesting)
      else
        Scan.word "]"
        return [v]

/-- Keys and values up to the closing brace; a comma may stand after the last one. Lines may end
anywhere but inside a path of keys. -/
def inlineEntries : (fuel nesting : Nat) → Entries → Scan Entries
  | 0, _, _ => failure
  | fuel + 1, nesting, entries => do
      if ← Scan.tryWord "\x7d" then return entries
      let path ← keyPath
      gap
      Scan.word "="
      gap
      let v ← value fuel nesting
      match insertKey v path entries with
      | none => failure
      | some entries =>
          gap
          if ← Scan.tryWord "," then
            gap
            inlineEntries fuel nesting entries
          else
            Scan.word "\x7d"
            return entries

end

structure Document where
  root : Entries := []
  path : List String := []

def atParent (change : String → Entries → Option Entries) (path : List String) (root : Entries) :
    Option Entries :=
  match path.getLast? with
  | some key => atPath (change key) path.dropLast root
  | none => none

def header (d : Document) : Scan Document := do
  let path ← keyPath
  Scan.word "]"
  match atParent openTable path d.root with
  | some root => return ⟨root, path⟩
  | none => failure

def repeatedHeader (d : Document) : Scan Document := do
  let path ← keyPath
  Scan.word "]]"
  match atParent openRepeated path d.root with
  | some root => return ⟨root, path⟩
  | none => failure

def assignment (d : Document) : Scan Document := do
  let path ← keyPath
  Scan.word "="
  blanks
  let v ← value ((← get).length + 1) maxNesting
  match atPath (insertKey v path) d.path d.root with
  | some root => return { d with root }
  | none => failure

def statement (d : Document) : Scan Document := do
  match ← get with
  | [] => return d
  | c :: _ =>
      if c == '#' || c == '\n' || c == '\r' then return d
      else if ← Scan.tryWord "[[" then repeatedHeader d
      else if ← Scan.tryWord "[" then header d
      else assignment d

def lines : (fuel : Nat) → Document → Scan Document
  | 0, _ => failure
  | fuel + 1, d => do
      blanks
      let d ← statement d
      blanks
      comment
      if (← get).isEmpty then return d
      match ← lineBreak with
      | [] => failure
      | _ => lines fuel d

/-- The table of a text. A byte order mark at its start does not count. -/
def read? (text : String) : Option (List (String × Value)) :=
  let cs := match text.toList with
    | '\ufeff' :: rest => rest
    | cs => cs
  ((lines (cs.length + 1) {}).run cs).map fun (d, _) => entryValues d.root

end ShaderCompiler.Toml
