namespace ShaderCompiler

structure Effort where
  reflections : Nat := 0
  recoveries : Nat := 0
  generations : Nat := 0
  deriving DecidableEq, Repr

namespace Effort

def add (a b : Effort) : Effort :=
  ⟨a.reflections + b.reflections, a.recoveries + b.recoveries, a.generations + b.generations⟩

instance : Add Effort := ⟨add⟩

def sum (efforts : List Effort) : Effort := efforts.foldl add {}

end Effort

/-- The steps that a run over a list takes when it stops at the first failure. -/
def attempts {α β ε : Type} (step : α → Except ε β) : List α → Nat
  | [] => 0
  | a :: rest =>
      match step a with
      | .ok _ => attempts step rest + 1
      | .error _ => 1

end ShaderCompiler
