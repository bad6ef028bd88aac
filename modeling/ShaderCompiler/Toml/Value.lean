namespace ShaderCompiler.Toml

inductive Value where
  | string (text : String)
  | integer (value : Int)
  | float (value : Float)
  | boolean (value : Bool)
  /-- A number beyond the range of its kind. It may be written, but not be used. -/
  | oversized
  | moment (text : String)
  | array (items : List Value)
  | table (entries : List (String × Value))

mutual

/-- No number in the value is beyond its range. -/
def Value.isUsable : Value → Bool
  | .oversized => false
  | .array items => usableItems items
  | .table entries => usableEntries entries
  | _ => true

def usableItems : List Value → Bool
  | [] => true
  | v :: rest => v.isUsable && usableItems rest

def usableEntries : List (String × Value) → Bool
  | [] => true
  | (_, v) :: rest => v.isUsable && usableEntries rest

end

/-- A step of reading: it takes a front part of the text and leaves the rest. -/
abbrev Scan := StateT (List Char) Option

namespace Scan

def peek : Scan (Option Char) := return (← get).head?

def one (test : Char → Bool) : Scan Char := do
  match ← get with
  | c :: rest => if test c then set rest; return c else failure
  | [] => failure

def word (w : String) : Scan Unit := do
  let cs ← get
  if w.toList.isPrefixOf cs then set (cs.drop w.length) else failure

def tryWord (w : String) : Scan Bool := do
  let cs ← get
  if w.toList.isPrefixOf cs then set (cs.drop w.length); return true else return false

def while_ (test : Char → Bool) : Scan (List Char) := do
  let cs ← get
  set (cs.dropWhile test)
  return cs.takeWhile test

end Scan

def isBlank (c : Char) : Bool := c == ' ' || c == '\t'

def isPlain (c : Char) : Bool := c == '\t' || (0x20 ≤ c.toNat && c.toNat != 0x7F)

def hexValue? (c : Char) : Option Nat :=
  if c.isDigit then some (c.toNat - '0'.toNat)
  else if 'a' ≤ c ∧ c ≤ 'f' then some (c.toNat - 'a'.toNat + 10)
  else if 'A' ≤ c ∧ c ≤ 'F' then some (c.toNat - 'A'.toNat + 10)
  else none

end ShaderCompiler.Toml
