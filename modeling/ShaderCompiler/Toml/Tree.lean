import ShaderCompiler.Toml.Value

namespace ShaderCompiler.Toml

/-- How a table came to be. -/
inductive Origin where
  | implied
  | dotted
  | opened
  deriving DecidableEq, Repr

inductive Node where
  | value (v : Value)
  | table (origin : Origin) (entries : List (String × Node))
  | tables (items : List (List (String × Node)))

abbrev Entries := List (String × Node)

def replace (key : String) (n : Node) : Entries → Entries
  | [] => [(key, n)]
  | (k, m) :: rest => if k = key then (k, n) :: rest else (k, m) :: replace key n rest

/-- Puts a value under a path of keys. A table that takes the value is the open one or has no header
of its own, and then it is one that keys have made from now on. On the way there, keys also pass
through the latest table under a repeated header. -/
def insertKey (v : Value) : (path : List String) → Entries → Option Entries
  | [], _ => none
  | [key], entries =>
      match entries.lookup key with
      | some _ => none
      | none => some (entries ++ [(key, .value v)])
  | key :: next :: rest, entries =>
      match entries.lookup key with
      | none =>
          (insertKey v (next :: rest) []).map fun inner => entries ++ [(key, .table .dotted inner)]
      | some (.table .dotted inner) =>
          (insertKey v (next :: rest) inner).map fun inner =>
            replace key (.table .dotted inner) entries
      | some (.table .implied inner) =>
          (insertKey v (next :: rest) inner).map fun inner =>
            replace key (.table (if rest.isEmpty then .dotted else .implied) inner) entries
      | some (.tables (latest :: earlier)) =>
          if rest.isEmpty then none
          else (insertKey v (next :: rest) latest).map fun latest =>
            replace key (.tables (latest :: earlier)) entries
      | some _ => none

/-- Changes the table under the path of a header. Tables on the way may be of any origin, and of
tables under a repeated header the latest is meant. -/
def atPath (change : Entries → Option Entries) : (path : List String) → Entries → Option Entries
  | [], entries => change entries
  | key :: rest, entries =>
      match entries.lookup key with
      | none =>
          (atPath change rest []).map fun inner => entries ++ [(key, .table .implied inner)]
      | some (.table origin inner) =>
          (atPath change rest inner).map fun inner => replace key (.table origin inner) entries
      | some (.tables (latest :: earlier)) =>
          (atPath change rest latest).map fun latest =>
            replace key (.tables (latest :: earlier)) entries
      | some _ => none

def openTable (key : String) (entries : Entries) : Option Entries :=
  match entries.lookup key with
  | none => some (entries ++ [(key, .table .opened [])])
  | some (.table .implied inner) => some (replace key (.table .opened inner) entries)
  | some _ => none

def openRepeated (key : String) (entries : Entries) : Option Entries :=
  match entries.lookup key with
  | none => some (entries ++ [(key, .tables [[]])])
  | some (.tables items) => some (replace key (.tables ([] :: items)) entries)
  | some _ => none

mutual

def Node.toValue : Node → Value
  | .value v => v
  | .table _ entries => .table (entryValues entries)
  | .tables items => .array (tableValues items).reverse

def entryValues : List (String × Node) → List (String × Value)
  | [] => []
  | (key, n) :: rest => (key, n.toValue) :: entryValues rest

def tableValues : List (List (String × Node)) → List Value
  | [] => []
  | entries :: rest => .table (entryValues entries) :: tableValues rest

end

end ShaderCompiler.Toml
