import Mathlib.Data.List.Nodup
import Mathlib.Logic.Relation
import Mathlib.Tactic.Common
import ShaderCompiler.Order.DepthFirst

namespace ShaderCompiler

open Relation

variable {κ ε : Type}

theorem walk_bind_ok {α β : Type} {x : Walk κ ε α} {f : α → Walk κ ε β} {p q : Progress κ} {a : α}
    (h : x p = (.ok a, q)) : (x >>= f) p = f a q := by
  simp only [bind, ExceptT.bind, ExceptT.mk, StateT.bind, h]
  rfl

theorem walk_bind_error {α β : Type} {x : Walk κ ε α} {f : α → Walk κ ε β} {p q : Progress κ}
    {e : ε} (h : x p = (.error e, q)) : (x >>= f) p = (.error e, q) := by
  simp only [bind, ExceptT.bind, ExceptT.mk, StateT.bind, h]
  rfl

namespace NeedGraph

def Needs (g : NeedGraph κ ε) (k n : κ) : Prop := ∃ ns, g.needs k = .ok ns ∧ .ok n ∈ ns

/-- All that a node needs is known and stands before it, and no node stands twice. -/
inductive Sorted (g : NeedGraph κ ε) : List κ → Prop
  | nil : Sorted g []
  | snoc {order : List κ} {k : κ} {ns : List (Except ε κ)} (ho : Sorted g order) (hk : k ∉ order)
      (hn : g.needs k = .ok ns) (hns : ∀ n ∈ ns, ∃ m ∈ order, n = .ok m) : Sorted g (order ++ [k])

namespace Sorted

variable {g : NeedGraph κ ε} {order : List κ}

theorem nodup (h : g.Sorted order) : order.Nodup := by
  induction h with
  | nil => exact List.nodup_nil
  | snoc _ hk _ _ ih =>
      rw [← List.concat_eq_append]
      exact List.Nodup.concat hk ih

theorem split (h : g.Sorted order) : ∀ {before after : List κ} {k : κ},
    order = before ++ k :: after → ∃ ns, g.needs k = .ok ns ∧ ∀ n ∈ ns, ∃ m ∈ before, n = .ok m := by
  induction h with
  | nil => simp
  | snoc _ _ hn hns ih =>
      intro before after k he
      rcases List.eq_nil_or_concat after with rfl | ⟨after, last, rfl⟩
      · obtain ⟨rfl, hk⟩ := List.append_inj' he rfl
        obtain rfl := List.singleton_inj.mp hk
        exact ⟨_, hn, hns⟩
      · rw [List.concat_eq_append, ← List.cons_append, ← List.append_assoc] at he
        exact ih (List.append_inj' he rfl).1

theorem mem_of_needs (h : g.Sorted order) {k n : κ} (hk : k ∈ order) (hn : g.Needs k n) :
    n ∈ order := by
  obtain ⟨before, after, rfl⟩ := List.append_of_mem hk
  obtain ⟨ns, hns, hbefore⟩ := h.split rfl
  obtain ⟨ns', hns', hmem⟩ := hn
  obtain rfl := Except.ok.inj (hns.symm.trans hns')
  obtain ⟨m, hm, he⟩ := hbefore _ hmem
  obtain rfl := Except.ok.inj he
  exact List.mem_append_left _ hm

theorem mem_of_reaches (h : g.Sorted order) {k n : κ} (hk : k ∈ order)
    (hn : ReflTransGen g.Needs k n) : n ∈ order := by
  induction hn with
  | refl => exact hk
  | tail _ hstep ih => exact h.mem_of_needs ih hstep

theorem acyclic (h : g.Sorted order) : ∀ k ∈ order, ¬ TransGen g.Needs k k := by
  induction h with
  | nil => simp
  | @snoc order k ns ho hk hn hns ih =>
      intro x hx hcycle
      rcases List.mem_append.mp hx with hx | hx
      · exact ih x hx hcycle
      · obtain rfl := List.mem_singleton.mp hx
        obtain ⟨m, hstep, hback⟩ := TransGen.head'_iff.mp hcycle
        obtain ⟨ns', hns', hmem⟩ := hstep
        obtain rfl := Except.ok.inj (hn.symm.trans hns')
        obtain ⟨m', hm, he⟩ := hns _ hmem
        obtain rfl := Except.ok.inj he
        exact hk (ho.mem_of_reaches hm hback)

end Sorted

variable [DecidableEq κ] (g : NeedGraph κ ε)

def visitAll (fuel : Nat) (ns : List (Except ε κ)) : Walk κ ε Unit :=
  ns.forM fun n => do g.visit fuel (← n)

theorem visitAll_cons_ok {fuel : Nat} {n : κ} {p q : Progress κ}
    (h : g.visit fuel n p = (.ok (), q)) (ns : List (Except ε κ)) :
    g.visitAll fuel (.ok n :: ns) p = g.visitAll fuel ns q :=
  walk_bind_ok h

theorem visitAll_cons_error {fuel : Nat} {n : κ} {p q : Progress κ} {e : ε}
    (h : g.visit fuel n p = (.error e, q)) (ns : List (Except ε κ)) :
    g.visitAll fuel (.ok n :: ns) p = (.error e, q) :=
  walk_bind_error h

theorem visit_finished {fuel : Nat} {k : κ} {p : Progress κ} (h : k ∈ p.order) :
    g.visit (fuel + 1) k p = (.ok (), p) := by
  rw [visit]
  show (if k ∈ p.order then _ else _ : Walk κ ε Unit) p = _
  rw [if_pos h]
  rfl

theorem visit_entered {fuel : Nat} {k : κ} {p : Progress κ} (ho : k ∉ p.order)
    (he : k ∈ p.entered) : g.visit (fuel + 1) k p = (.error (g.cycle k), p) := by
  rw [visit]
  show (if k ∈ p.order then _ else if k ∈ p.entered then _ else _ : Walk κ ε Unit) p = _
  rw [if_neg ho, if_pos he]
  rfl

theorem visit_fresh {fuel : Nat} {k : κ} {p : Progress κ} (ho : k ∉ p.order)
    (he : k ∉ p.entered) {ns : List (Except ε κ)} (hn : g.needs k = .ok ns) :
    g.visit (fuel + 1) k p =
      (g.visitAll fuel ns >>= fun _ => modify (·.finish k) : Walk κ ε Unit) (p.enter k) := by
  rw [visit]
  show (if k ∈ p.order then _ else if k ∈ p.entered then _ else _ : Walk κ ε Unit) p = _
  rw [if_neg ho, if_neg he, hn]
  rfl

theorem visit_unknown {fuel : Nat} {k : κ} {p : Progress κ} (ho : k ∉ p.order)
    (he : k ∉ p.entered) {e : ε} (hn : g.needs k = .error e) :
    g.visit (fuel + 1) k p = (.error e, p.enter k) := by
  rw [visit]
  show (if k ∈ p.order then _ else if k ∈ p.entered then _ else _ : Walk κ ε Unit) p = _
  rw [if_neg ho, if_neg he, hn]
  rfl

variable {g}

theorem visitAll_cons_cases {fuel : Nat} {n : Except ε κ} {ns : List (Except ε κ)}
    {p q : Progress κ} (h : g.visitAll fuel (n :: ns) p = (.ok (), q)) :
    ∃ m r, n = .ok m ∧ g.visit fuel m p = (.ok (), r) ∧ g.visitAll fuel ns r = (.ok (), q) := by
  cases n with
  | error e => cases h
  | ok m =>
      match hm : g.visit fuel m p with
      | (.error e, r) =>
          rw [visitAll_cons_error g hm] at h
          cases h
      | (.ok _, r) =>
          rw [visitAll_cons_ok g hm] at h
          exact ⟨m, r, rfl, hm, h⟩

theorem visitAll_append_cases {fuel : Nat} {ns ms : List (Except ε κ)} {p q : Progress κ}
    (h : g.visitAll fuel (ns ++ ms) p = (.ok (), q)) :
    ∃ r, g.visitAll fuel ns p = (.ok (), r) ∧ g.visitAll fuel ms r = (.ok (), q) := by
  induction ns generalizing p with
  | nil => exact ⟨p, rfl, h⟩
  | cons n ns ih =>
      obtain ⟨m, r, rfl, hm, hrest⟩ := visitAll_cons_cases h
      rw [visitAll_cons_ok g hm]
      exact ih hrest

theorem visitAll_cons_error_cases {fuel : Nat} {n : Except ε κ} {ns : List (Except ε κ)}
    {p q : Progress κ} {e : ε} (h : g.visitAll fuel (n :: ns) p = (.error e, q)) :
    n = .error e ∨ ∃ m, n = .ok m ∧ (g.visit fuel m p = (.error e, q) ∨
      ∃ r, g.visit fuel m p = (.ok (), r) ∧ g.visitAll fuel ns r = (.error e, q)) := by
  cases n with
  | error e =>
      cases h
      exact Or.inl rfl
  | ok m =>
      refine Or.inr ⟨m, rfl, ?_⟩
      match hm : g.visit fuel m p with
      | (.error e, r) =>
          rw [visitAll_cons_error g hm] at h
          exact Or.inl h
      | (.ok _, r) =>
          rw [visitAll_cons_ok g hm] at h
          exact Or.inr ⟨r, rfl, h⟩

theorem visit_ok_cases {fuel : Nat} {k : κ} {p q : Progress κ}
    (h : g.visit fuel k p = (.ok (), q)) :
    (k ∈ p.order ∧ q = p) ∨
      (k ∉ p.order ∧ k ∉ p.entered ∧ ∃ fuel' ns r, fuel = fuel' + 1 ∧ g.needs k = .ok ns ∧
        g.visitAll fuel' ns (p.enter k) = (.ok (), r) ∧ q = r.finish k) := by
  cases fuel with
  | zero => cases h
  | succ fuel =>
      by_cases ho : k ∈ p.order
      · rw [visit_finished g ho] at h
        cases h
        exact Or.inl ⟨ho, rfl⟩
      · by_cases he : k ∈ p.entered
        · rw [visit_entered g ho he] at h
          cases h
        · cases hn : g.needs k with
          | error e =>
              rw [visit_unknown g ho he hn] at h
              cases h
          | ok ns =>
              rw [visit_fresh g ho he hn] at h
              match ha : g.visitAll fuel ns (p.enter k) with
              | (.error e, r) =>
                  rw [walk_bind_error ha] at h
                  cases h
              | (.ok _, r) =>
                  rw [walk_bind_ok ha] at h
                  cases h
                  exact Or.inr ⟨ho, he, fuel, ns, r, rfl, rfl, ha, rfl⟩

theorem visit_error_cases {fuel : Nat} {k : κ} {p q : Progress κ} {e : ε}
    (h : g.visit (fuel + 1) k p = (.error e, q)) :
    k ∉ p.order ∧ ((k ∈ p.entered ∧ e = g.cycle k) ∨
      k ∉ p.entered ∧ (g.needs k = .error e ∨
        ∃ ns, g.needs k = .ok ns ∧ g.visitAll fuel ns (p.enter k) = (.error e, q))) := by
  by_cases ho : k ∈ p.order
  · rw [visit_finished g ho] at h
    cases h
  · refine ⟨ho, ?_⟩
    by_cases he : k ∈ p.entered
    · rw [visit_entered g ho he] at h
      cases h
      exact Or.inl ⟨he, rfl⟩
    · refine Or.inr ⟨he, ?_⟩
      cases hn : g.needs k with
      | error e =>
          rw [visit_unknown g ho he hn] at h
          cases h
          exact Or.inl rfl
      | ok ns =>
          refine Or.inr ⟨ns, rfl, ?_⟩
          rw [visit_fresh g ho he hn] at h
          match ha : g.visitAll fuel ns (p.enter k) with
          | (.error e, r) =>
              rw [walk_bind_error ha] at h
              exact h
          | (.ok _, r) =>
              rw [walk_bind_ok ha] at h
              cases h

/-- What entering a new node of some set and finishing a node keep, where the set holds all that its
nodes need. -/
structure Keeps (g : NeedGraph κ ε) (nodes : κ → Prop) (P : Progress κ → Prop) : Prop where
  closed : ∀ k n, nodes k → g.Needs k n → nodes n
  enter : ∀ p k, P p → nodes k → k ∉ p.entered → P (p.enter k)
  finish : ∀ p k, P p → P (p.finish k)

variable {nodes : κ → Prop} {P : Progress κ → Prop}

theorem Keeps.visitAll_of {fuel : Nat}
    (hvisit : ∀ {k p q r}, nodes k → P p → g.visit fuel k p = (r, q) → P q)
    {ns : List (Except ε κ)} (hns : ∀ k, .ok k ∈ ns → nodes k) {p q : Progress κ}
    {r : Except ε Unit} (hp : P p) (h : g.visitAll fuel ns p = (r, q)) : P q := by
  induction ns generalizing p with
  | nil =>
      cases h
      exact hp
  | cons n ns ih =>
      cases n with
      | error e =>
          cases h
          exact hp
      | ok m =>
          have hm := hns m List.mem_cons_self
          match hv : g.visit fuel m p with
          | (.error e, q') =>
              rw [visitAll_cons_error g hv] at h
              cases h
              exact hvisit hm hp hv
          | (.ok _, q') =>
              rw [visitAll_cons_ok g hv] at h
              exact ih (fun k hk => hns k (List.mem_cons_of_mem _ hk)) (hvisit hm hp hv) h

theorem Keeps.visit (hP : g.Keeps nodes P) {fuel : Nat} : ∀ {k : κ} {p q : Progress κ}
    {r : Except ε Unit}, nodes k → P p → g.visit fuel k p = (r, q) → P q := by
  induction fuel with
  | zero =>
      intro k p q r _ hp h
      cases h
      exact hp
  | succ fuel ih =>
      intro k p q r hk hp h
      by_cases ho : k ∈ p.order
      · rw [visit_finished g ho] at h
        cases h
        exact hp
      · by_cases he : k ∈ p.entered
        · rw [visit_entered g ho he] at h
          cases h
          exact hp
        · have henter := hP.enter p k hp hk he
          cases hn : g.needs k with
          | error e =>
              rw [visit_unknown g ho he hn] at h
              cases h
              exact henter
          | ok ns =>
              rw [visit_fresh g ho he hn] at h
              have hns : ∀ n, .ok n ∈ ns → nodes n :=
                fun n hmem => hP.closed k n hk ⟨ns, hn, hmem⟩
              match ha : g.visitAll fuel ns (p.enter k) with
              | (.error e, q') =>
                  rw [walk_bind_error ha] at h
                  cases h
                  exact Keeps.visitAll_of ih hns henter ha
              | (.ok _, q') =>
                  rw [walk_bind_ok ha] at h
                  cases h
                  exact hP.finish q' k (Keeps.visitAll_of ih hns henter ha)

/-- What every step of a walk keeps holds at its end, whether it fails or not. -/
theorem Keeps.walk (hP : g.Keeps nodes P) {fuel : Nat} {roots : List (Except ε κ)}
    (hroots : ∀ k, .ok k ∈ roots → nodes k) (hstart : P {}) : P (g.walk fuel roots).2 :=
  Keeps.visitAll_of hP.visit hroots hstart rfl

theorem entered_of_walk {fuel : Nat} {roots : List (Except ε κ)}
    (hclosed : ∀ k n, nodes k → g.Needs k n → nodes n) (hroots : ∀ k, .ok k ∈ roots → nodes k) :
    ∀ k ∈ (g.walk fuel roots).2.entered, nodes k := by
  have hkeeps : g.Keeps nodes fun p => ∀ k ∈ p.entered, nodes k := {
    closed := hclosed
    enter := fun p k hp hk _ => List.forall_mem_cons.mpr ⟨hk, hp⟩
    finish := fun p k hp => hp }
  exact hkeeps.walk hroots nofun

theorem nodup_entered_of_walk (fuel : Nat) (roots : List (Except ε κ)) :
    (g.walk fuel roots).2.entered.Nodup := by
  have hkeeps : g.Keeps (fun _ => True) fun p => p.entered.Nodup := {
    closed := fun _ _ _ _ => trivial
    enter := fun p k hp _ hk => List.nodup_cons.mpr ⟨hk, hp⟩
    finish := fun p k hp => hp }
  exact hkeeps.walk (fun _ _ => trivial) List.nodup_nil

theorem order_prefix_of_visitAll {fuel : Nat} {ns : List (Except ε κ)} {p q : Progress κ}
    {r : Except ε Unit} (h : g.visitAll fuel ns p = (r, q)) : p.order <+: q.order := by
  have hkeeps : g.Keeps (fun _ => True) fun q => p.order <+: q.order := {
    closed := fun _ _ _ _ => trivial
    enter := fun q k hq _ _ => hq
    finish := fun q k hq => hq.trans (List.prefix_append _ _) }
  exact Keeps.visitAll_of hkeeps.visit (fun _ _ => trivial) (List.prefix_refl _) h

end NeedGraph

end ShaderCompiler
