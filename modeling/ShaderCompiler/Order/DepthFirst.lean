namespace ShaderCompiler

structure NeedGraph (κ ε : Type) where
  needs : κ → Except ε (List (Except ε κ))
  cycle : κ → ε

/-- The nodes that were entered, latest first, and those that are finished, in order. -/
structure Progress (κ : Type) where
  entered : List κ := []
  order : List κ := []
  deriving DecidableEq, Repr

/-- A walk that may fail and still leaves its progress. -/
abbrev Walk (κ ε : Type) := ExceptT ε (StateM (Progress κ))

variable {κ ε : Type} [DecidableEq κ]

namespace Progress

def enter (p : Progress κ) (k : κ) : Progress κ := { p with entered := k :: p.entered }

def finish (p : Progress κ) (k : κ) : Progress κ := { p with order := p.order ++ [k] }

end Progress

/-- Visits a node after all that it needs. An entered node that is not finished needs itself. The
nodes on the way down are distinct, so the fuel lasts if it exceeds the count of nodes. -/
def NeedGraph.visit (g : NeedGraph κ ε) : (fuel : Nat) → κ → Walk κ ε Unit
  | 0, k => throw (g.cycle k)
  | fuel + 1, k => do
      let p ← get
      if k ∈ p.order then return
      else if k ∈ p.entered then throw (g.cycle k)
      else
        modify (·.enter k)
        let needed ← g.needs k
        needed.forM fun n => do g.visit fuel (← n)
        modify (·.finish k)

def NeedGraph.walk (g : NeedGraph κ ε) (fuel : Nat) (roots : List (Except ε κ)) :
    Except ε Unit × Progress κ :=
  (roots.forM fun n => do g.visit fuel (← n) : Walk κ ε Unit).run.run {}

end ShaderCompiler
