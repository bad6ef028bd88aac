namespace ShaderCompiler

inductive CacheState where
  | absent
  | compiling
  | cached
  deriving DecidableEq, Repr

abbrev Tally := List (String × Nat)

def Tally.set (t : Tally) (name : String) (n : Nat) : Tally :=
  let rest := t.filter (·.1 != name)
  if n = 0 then rest else (name, n) :: rest

structure Cache (α : Type) where
  entries : List (String × α) := []
  inFlight : Tally := []

namespace Cache

variable {α ε : Type}

def get? (c : Cache α) (name : String) : Option α := c.entries.lookup name

def size (c : Cache α) : Nat := c.entries.length

def isEmpty (c : Cache α) : Bool := c.size == 0

def state (c : Cache α) (name : String) : CacheState :=
  if (c.get? name).isSome then .cached
  else if (c.inFlight.lookup name).isSome then .compiling
  else .absent

/-- The result if it is there; otherwise the client goes on to make it. -/
def start (c : Cache α) (name : String) : Option α × Cache α :=
  match c.get? name with
  | some a => (some a, c)
  | none =>
      let count := (c.inFlight.lookup name).getD 0
      (none, { c with inFlight := c.inFlight.set name (count + 1) })

/-- A client is done. The first success of a name is kept, and later ones receive it. -/
def finish (c : Cache α) (name : String) (result : Except ε α) : Except ε α × Cache α :=
  let inFlight :=
    match c.inFlight.lookup name with
    | some count => c.inFlight.set name (count - 1)
    | none => c.inFlight
  match result with
  | .error e => (.error e, { c with inFlight })
  | .ok a =>
      match c.get? name with
      | some first => (.ok first, { c with inFlight })
      | none => (.ok a, ⟨c.entries ++ [(name, a)], inFlight⟩)

end Cache

inductive LookupSource where
  | memory
  | compiled
  deriving DecidableEq, Repr

def Cache.getOrMake {α ε : Type} (c : Cache α) (name : String) (make : Unit → Except ε α) :
    Except ε (LookupSource × α) × Cache α :=
  match c.start name with
  | (some a, c) => (.ok (.memory, a), c)
  | (none, c) =>
      let (result, c) := c.finish name (make ())
      (result.map (.compiled, ·), c)

end ShaderCompiler
