import ShaderCompiler.Proofs.Order.Walking

namespace ShaderCompiler

variable {κ κ' ε : Type}

def Progress.map (φ : κ → κ') (p : Progress κ) : Progress κ' := ⟨p.entered.map φ, p.order.map φ⟩

namespace NeedGraph

/-- The same graph under other names. -/
structure Renames (φ : κ → κ') (g : NeedGraph κ ε) (g' : NeedGraph κ' ε) : Prop where
  injective : Function.Injective φ
  needs : ∀ k, g'.needs (φ k) = (g.needs k).map (List.map (Except.map φ))
  cycle : ∀ k, g'.cycle (φ k) = g.cycle k

variable [DecidableEq κ] [DecidableEq κ'] {φ : κ → κ'} {g : NeedGraph κ ε} {g' : NeedGraph κ' ε}

/-- Whatever the nodes are called, a walk ends alike and has come to the same nodes. -/
theorem Renames.visitAll_of {fuel : Nat}
    (hvisit : ∀ k p, g'.visit fuel (φ k) (p.map φ) = (g.visit fuel k p).map id (Progress.map φ))
    (ns : List (Except ε κ)) (p : Progress κ) :
    g'.visitAll fuel (ns.map (Except.map φ)) (p.map φ) =
      (g.visitAll fuel ns p).map id (Progress.map φ) := by
  induction ns generalizing p with
  | nil => rfl
  | cons n ns ih =>
      cases n with
      | error e => rfl
      | ok k =>
          have hk := hvisit k p
          rw [List.map_cons]
          match hrun : g.visit fuel k p with
          | (.error e, q) =>
              rw [hrun] at hk
              rw [visitAll_cons_error g hrun]
              exact visitAll_cons_error g' hk _
          | (.ok (), q) =>
              rw [hrun] at hk
              rw [visitAll_cons_ok g hrun, ← ih q]
              exact visitAll_cons_ok g' hk _

theorem Renames.visit (h : g.Renames φ g') (fuel : Nat) (k : κ) (p : Progress κ) :
    g'.visit fuel (φ k) (p.map φ) = (g.visit fuel k p).map id (Progress.map φ) := by
  induction fuel generalizing k p with
  | zero =>
      show (Except.error (g'.cycle (φ k)), p.map φ) = (Except.error (g.cycle k), p.map φ)
      rw [h.cycle]
  | succ fuel ih =>
      have hmem (ks : List κ) : φ k ∈ ks.map φ ↔ k ∈ ks := List.mem_map_of_injective h.injective
      by_cases ho : k ∈ p.order
      · rw [visit_finished g ho, visit_finished g' ((hmem _).mpr ho)]
        rfl
      have ho' : φ k ∉ (p.map φ).order := fun hk => ho ((hmem _).mp hk)
      by_cases he : k ∈ p.entered
      · rw [visit_entered g ho he, visit_entered g' ho' ((hmem _).mpr he), h.cycle]
        rfl
      have he' : φ k ∉ (p.map φ).entered := fun hk => he ((hmem _).mp hk)
      have hneeds := h.needs k
      cases hn : g.needs k with
      | error e =>
          rw [hn] at hneeds
          rw [visit_unknown g ho he hn, visit_unknown g' ho' he' hneeds]
          rfl
      | ok ns =>
          rw [hn] at hneeds
          rw [visit_fresh g ho he hn, visit_fresh g' ho' he' hneeds]
          have hall := Renames.visitAll_of ih ns (p.enter k)
          match hrun : g.visitAll fuel ns (p.enter k) with
          | (.error e, q) =>
              rw [hrun] at hall
              rw [walk_bind_error hrun]
              exact walk_bind_error hall
          | (.ok (), q) =>
              rw [hrun] at hall
              rw [walk_bind_ok hrun]
              refine (walk_bind_ok hall).trans ?_
              show (Except.ok (), (q.map φ).finish (φ k)) = (Except.ok (), (q.finish k).map φ)
              simp [Progress.finish, Progress.map]

theorem Renames.walk (h : g.Renames φ g') (fuel : Nat) (roots : List (Except ε κ)) :
    g'.walk fuel (roots.map (Except.map φ)) = (g.walk fuel roots).map id (Progress.map φ) :=
  Renames.visitAll_of (h.visit fuel) roots {}

end NeedGraph

end ShaderCompiler
