import Mathlib.Data.List.Perm.Subperm
import ShaderCompiler.Proofs.Order.Walking

namespace ShaderCompiler

open Relation

namespace NeedGraph

variable {κ ε : Type} {g : NeedGraph κ ε}

/-- The nodes on the way down are those that were entered and are not finished. -/
structure Visiting (g : NeedGraph κ ε) (path : List κ) (p : Progress κ) : Prop where
  sorted : g.Sorted p.order
  nodup : path.Nodup
  entered : ∀ x, x ∈ p.entered ↔ x ∈ path ∨ x ∈ p.order
  unfinished : ∀ x ∈ path, x ∉ p.order

/-- From one state of a walk to a later one, in which the sources are finished. -/
structure Advances (g : NeedGraph κ ε) (path sources : List κ) (p q : Progress κ) : Prop where
  visiting : g.Visiting path q
  grows : p.order ⊆ q.order
  finished : ∀ n ∈ sources, n ∈ q.order
  reached : ∀ x ∈ q.order, x ∈ p.order ∨ ∃ n ∈ sources, ReflTransGen g.Needs n x

variable {path : List κ} {p q r : Progress κ}

theorem Visiting.enter (h : g.Visiting path p) {k : κ} (he : k ∉ p.entered) :
    g.Visiting (k :: path) (p.enter k) where
  sorted := h.sorted
  nodup := List.nodup_cons.mpr ⟨fun hk => he ((h.entered k).mpr (Or.inl hk)), h.nodup⟩
  entered x := by
    show x ∈ k :: p.entered ↔ x ∈ k :: path ∨ x ∈ p.order
    rw [List.mem_cons, List.mem_cons, h.entered, or_assoc]
  unfinished := by
    intro x hx
    rcases List.mem_cons.mp hx with rfl | hx
    · exact fun ho => he ((h.entered x).mpr (Or.inr ho))
    · exact h.unfinished x hx

theorem Visiting.finish {k : κ} {ns : List (Except ε κ)} (h : g.Visiting (k :: path) q)
    (hn : g.needs k = .ok ns) (hns : ∀ n ∈ ns, ∃ m ∈ q.order, n = .ok m) :
    g.Visiting path (q.finish k) where
  sorted := h.sorted.snoc (h.unfinished k List.mem_cons_self) hn hns
  nodup := (List.nodup_cons.mp h.nodup).2
  entered x := by
    show x ∈ q.entered ↔ x ∈ path ∨ x ∈ q.order ++ [k]
    rw [h.entered, List.mem_cons, List.mem_append, List.mem_singleton]
    tauto
  unfinished := by
    intro x hx ho
    rcases List.mem_append.mp ho with ho | ho
    · exact h.unfinished x (List.mem_cons_of_mem _ hx) ho
    · obtain rfl := List.mem_singleton.mp ho
      exact (List.nodup_cons.mp h.nodup).1 hx

theorem Advances.cons {k : κ} {ms : List κ} (h : g.Advances path [k] p q)
    (hs : g.Advances path ms q r) : g.Advances path (k :: ms) p r where
  visiting := hs.visiting
  grows := List.Subset.trans h.grows hs.grows
  finished := by
    intro n hn
    rcases List.mem_cons.mp hn with rfl | hn
    · exact hs.grows (h.finished n (List.mem_singleton_self n))
    · exact hs.finished n hn
  reached := by
    intro x hx
    rcases hs.reached x hx with hx | ⟨n, hn, hreach⟩
    · rcases h.reached x hx with hx | ⟨n, hn, hreach⟩
      · exact Or.inl hx
      · obtain rfl := List.mem_singleton.mp hn
        exact Or.inr ⟨n, List.mem_cons_self, hreach⟩
    · exact Or.inr ⟨n, List.mem_cons_of_mem _ hn, hreach⟩

theorem visiting_start : g.Visiting [] {} where
  sorted := .nil
  nodup := List.nodup_nil
  entered x := by simp
  unfinished := by simp

def Breaks (g : NeedGraph κ ε) (k : κ) (e : ε) : Prop :=
  g.needs k = .error e ∨ ∃ ns, g.needs k = .ok ns ∧ .error e ∈ ns

/-- An error that a node leads to: something unknown, or a node that needs itself. -/
def Blames (g : NeedGraph κ ε) (k : κ) (e : ε) : Prop :=
  ∃ x, ReflTransGen g.Needs k x ∧ (g.Breaks x e ∨ TransGen g.Needs x x ∧ e = g.cycle x)

theorem Blames.head {k m : κ} {e : ε} (hk : g.Needs k m) (h : g.Blames m e) : g.Blames k e := by
  obtain ⟨x, hreach, hx⟩ := h
  exact ⟨x, hreach.head hk, hx⟩

/-- A way down without repeats through as many nodes as there are has passed every node. -/
theorem mem_of_length_le {nodes : List κ} (hp : path.Nodup) (hsub : path ⊆ nodes)
    (hlen : nodes.length ≤ path.length) {k : κ} (hk : k ∈ nodes) : k ∈ path := by
  by_contra hnot
  have hnodup : (k :: path).Nodup := List.nodup_cons.mpr ⟨hnot, hp⟩
  have hle := (hnodup.subperm (List.cons_subset.mpr ⟨hk, hsub⟩)).length_le
  rw [List.length_cons] at hle
  omega

variable [DecidableEq κ]

theorem visitAll_ok_of {fuel : Nat}
    (hvisit : ∀ {k p q}, g.visit fuel k p = (.ok (), q) → g.Visiting path p →
      g.Advances path [k] p q) {ns : List (Except ε κ)}
    (h : g.visitAll fuel ns p = (.ok (), q)) (hp : g.Visiting path p) :
    ∃ ms : List κ, ns = ms.map .ok ∧ g.Advances path ms p q := by
  induction ns generalizing p with
  | nil =>
      cases h
      exact ⟨[], rfl, hp, List.Subset.refl _, by simp, fun x hx => Or.inl hx⟩
  | cons n ns ih =>
      obtain ⟨m, r, rfl, hm, hrest⟩ := visitAll_cons_cases h
      have hstep := hvisit hm hp
      obtain ⟨ms, rfl, hms⟩ := ih hrest hstep.visiting
      exact ⟨m :: ms, rfl, hstep.cons hms⟩

/-- A node that is visited to its end stands finished after all that it needs, and nothing else
was finished than what it reaches. -/
theorem visit_ok {fuel : Nat} : ∀ {path : List κ} {k : κ} {p q : Progress κ},
    g.visit fuel k p = (.ok (), q) → g.Visiting path p → g.Advances path [k] p q := by
  induction fuel with
  | zero => exact fun h => nomatch h
  | succ fuel ih =>
      intro path k p q h hp
      obtain ⟨ho, rfl⟩ | ⟨ho, he, fuel', ns, r, hf, hn, hns, rfl⟩ := visit_ok_cases h
      · exact ⟨hp, List.Subset.refl _, by simpa using ho, fun x hx => Or.inl hx⟩
      · cases hf
        obtain ⟨ms, rfl, hms⟩ := visitAll_ok_of ih hns (hp.enter he)
        refine ⟨hms.visiting.finish hn ?_, ?_, ?_, ?_⟩
        · intro n hmem
          obtain ⟨m, hm, rfl⟩ := List.mem_map.mp hmem
          exact ⟨m, hms.finished m hm, rfl⟩
        · exact List.Subset.trans hms.grows (List.subset_append_left _ _)
        · simp [Progress.finish]
        · intro x hx
          rcases List.mem_append.mp hx with hx | hx
          · refine (hms.reached x hx).imp id ?_
            rintro ⟨m, hm, hreach⟩
            exact ⟨k, List.mem_singleton_self k,
              hreach.head ⟨_, hn, List.mem_map_of_mem hm⟩⟩
          · obtain rfl := List.mem_singleton.mp hx
            exact Or.inr ⟨x, List.mem_singleton_self x, .refl⟩

theorem walk_ok {fuel : Nat} {roots : List (Except ε κ)}
    (h : g.walk fuel roots = (.ok (), p)) :
    ∃ ms : List κ, roots = ms.map .ok ∧ g.Advances [] ms {} p :=
  visitAll_ok_of visit_ok h visiting_start

theorem visitAll_error_of {fuel : Nat} {ns : List (Except ε κ)} {e : ε}
    (hvisit : ∀ {m p q}, .ok m ∈ ns → g.visit fuel m p = (.error e, q) → g.Visiting path p →
      g.Blames m e) (h : g.visitAll fuel ns p = (.error e, q)) (hp : g.Visiting path p) :
    .error e ∈ ns ∨ ∃ m, .ok m ∈ ns ∧ g.Blames m e := by
  induction ns generalizing p with
  | nil => cases h
  | cons n ns ih =>
      obtain rfl | ⟨m, rfl, hm | ⟨r, hm, hrest⟩⟩ := visitAll_cons_error_cases h
      · exact Or.inl List.mem_cons_self
      · exact Or.inr ⟨m, List.mem_cons_self, hvisit List.mem_cons_self hm hp⟩
      · have hr := (visit_ok hm hp).visiting
        rcases ih (fun hmem => hvisit (List.mem_cons_of_mem _ hmem)) hrest hr with
          he | ⟨m', hm', hb⟩
        · exact Or.inl (List.mem_cons_of_mem _ he)
        · exact Or.inr ⟨m', List.mem_cons_of_mem _ hm', hb⟩

/-- Every error of a visit has its reason, while each node on the way down leads to the visited
one and the fuel lasts for the nodes that are not on it. -/
theorem visit_error {nodes : List κ} (hnodes : ∀ x ∈ nodes, ∀ n, g.Needs x n → n ∈ nodes)
    {e : ε} {fuel : Nat} : ∀ {path : List κ} {k : κ} {p q : Progress κ},
    g.visit fuel k p = (.error e, q) → g.Visiting path p → path ⊆ nodes → k ∈ nodes →
    (∀ x ∈ path, TransGen g.Needs x k) → nodes.length ≤ fuel + path.length →
    g.Blames k e := by
  induction fuel with
  | zero =>
      intro path k p q h hp hsub hk hpath hlen
      cases h
      have hmem := mem_of_length_le hp.nodup hsub (by omega) hk
      exact ⟨k, .refl, Or.inr ⟨hpath k hmem, rfl⟩⟩
  | succ fuel ih =>
      intro path k p q h hp hsub hk hpath hlen
      obtain ⟨ho, ⟨he, rfl⟩ | ⟨he, hn | ⟨ns, hn, hns⟩⟩⟩ := visit_error_cases h
      · have hmem := ((hp.entered k).mp he).resolve_right ho
        exact ⟨k, .refl, Or.inr ⟨hpath k hmem, rfl⟩⟩
      · exact ⟨k, .refl, Or.inl (Or.inl hn)⟩
      · have hvisit : ∀ {m p q}, .ok m ∈ ns → g.visit fuel m p = (.error e, q) →
            g.Visiting (k :: path) p → g.Blames m e := by
          intro m p q hm hvisit hp'
          have hneeds : g.Needs k m := ⟨ns, hn, hm⟩
          refine ih hvisit hp' (List.cons_subset.mpr ⟨hk, hsub⟩) (hnodes k hk m hneeds) ?_ ?_
          · intro x hx
            rcases List.mem_cons.mp hx with rfl | hx
            · exact .single hneeds
            · exact (hpath x hx).tail hneeds
          · rw [List.length_cons]
            omega
        rcases visitAll_error_of hvisit hns (hp.enter he) with hbad | ⟨m, hm, hb⟩
        · exact ⟨k, .refl, Or.inl (Or.inr ⟨ns, hn, hbad⟩)⟩
        · exact hb.head ⟨ns, hn, hm⟩

theorem walk_error {nodes : List κ} (hnodes : ∀ x ∈ nodes, ∀ n, g.Needs x n → n ∈ nodes)
    {fuel : Nat} {roots : List (Except ε κ)} (hroots : ∀ k, .ok k ∈ roots → k ∈ nodes)
    (hfuel : nodes.length ≤ fuel) {e : ε} (h : g.walk fuel roots = (.error e, q)) :
    .error e ∈ roots ∨ ∃ k, .ok k ∈ roots ∧ g.Blames k e :=
  visitAll_error_of (fun hm hvisit hp => visit_error hnodes hvisit hp (List.nil_subset _)
    (hroots _ hm) (by simp) (by simpa using hfuel)) h visiting_start

end NeedGraph

end ShaderCompiler
