import Mathlib.Data.List.Pairwise
import ShaderCompiler.Proofs.Normal.Numbering

namespace ShaderCompiler

/-- The search for a number from `n` on, which goes on as long as the name is taken. -/
inductive Search (taken : List String) : (n found : Nat) → Prop
  | free {n : Nat} : localName n ∉ taken → Search taken n n
  | next {n found : Nat} : localName n ∈ taken → Search taken (n + 1) found →
      Search taken n found

/-- The numbers are in order, their names are free, and no smaller number is left out of which the
name is free. -/
structure SmallestFree (reserved : String → Prop) (indices : List Nat) : Prop where
  ascending : indices.Pairwise (· < ·)
  free : ∀ i ∈ indices, ¬ reserved (localName i)
  smallest : ∀ i ∈ indices, ∀ n < i, ¬ reserved (localName n) → n ∈ indices

section Searching

variable {taken : List String} {n found : Nat}

theorem search_of_forall_mem (hle : n ≤ found) (hfound : localName found ∉ taken)
    (h : ∀ k, n ≤ k → k < found → localName k ∈ taken) : Search taken n found := by
  obtain ⟨d, rfl⟩ := Nat.exists_eq_add_of_le hle
  induction d generalizing n with
  | zero => exact .free hfound
  | succ d ih =>
      have hshift : n + (d + 1) = n + 1 + d := by omega
      rw [hshift] at hfound h ⊢
      refine .next (h n (Nat.le_refl n) (by omega)) (ih (by omega) hfound ?_)
      intro k hk hlt
      exact h k (by omega) hlt

theorem search_freeIndex (taken : List String) (n : Nat) :
    Search taken n (freeIndex taken taken.length n) :=
  search_of_forall_mem (le_freeIndex taken taken.length n) (localName_freeIndex_notMem taken n)
    fun _ hk hlt => mem_of_freeIndex taken hk hlt

theorem Search.unique {found' : Nat} (h : Search taken n found) (h' : Search taken n found') :
    found = found' := by
  induction h with
  | free hfree =>
      cases h' with
      | free => rfl
      | next hmem => exact absurd hmem hfree
  | next hmem _ ih =>
      cases h' with
      | free hfree => exact absurd hmem hfree
      | next _ hrest => exact ih hrest

theorem freeIndex_le (taken : List String) (fuel n : Nat) :
    freeIndex taken fuel n ≤ n + fuel := by
  induction fuel generalizing n with
  | zero => exact Nat.le_refl n
  | succ fuel ih =>
      rw [freeIndex]
      split
      · have := ih (n + 1)
        omega
      · omega

end Searching

section Numbers

variable (taken : List String)

theorem exists_freshIndex_eq {k n : Nat} (hlt : n < freshIndex taken k)
    (hfree : localName n ∉ taken) : ∃ j < k, freshIndex taken j = n := by
  induction k with
  | zero => exact absurd (mem_of_freeIndex taken (Nat.zero_le n) hlt) hfree
  | succ k ih =>
      -- the search for this number began right behind the one before it
      have hn : n < freshIndex taken k + 1 := by
        by_contra hle
        exact hfree (mem_of_freeIndex taken (Nat.le_of_not_lt hle) hlt)
      rcases Nat.eq_or_lt_of_le (Nat.le_of_lt_succ hn) with he | hlt
      · exact ⟨k, Nat.lt_succ_self k, he.symm⟩
      · obtain ⟨j, hj, he⟩ := ih hlt
        exact ⟨j, Nat.lt_succ_of_lt hj, he⟩

theorem smallestFree_freshIndex (count : Nat) :
    SmallestFree (· ∈ taken) ((List.range count).map (freshIndex taken)) where
  ascending := by
    rw [List.pairwise_map]
    exact List.pairwise_lt_range.imp fun h => freshIndex_strictMono taken h
  free := by
    intro i hi
    obtain ⟨k, -, rfl⟩ := List.mem_map.mp hi
    exact localName_freeIndex_notMem taken _
  smallest := by
    intro i hi n hn hfree
    obtain ⟨k, hk, rfl⟩ := List.mem_map.mp hi
    obtain ⟨j, hj, rfl⟩ := exists_freshIndex_eq taken hn hfree
    have hk := List.mem_range.mp hk
    exact List.mem_map_of_mem (List.mem_range.mpr (hj.trans hk))

end Numbers

namespace MethodBody

/-- The name is that of a parameter, or a visited expression mentions it as a value or calls it as a
function, and no visited statement declares it. -/
def Reserves (m : MethodBody) (name : String) : Prop :=
  (name ∈ m.params.map (·.name) ∨ ∃ e ∈ exprsOf m.body, ∃ x ∈ e.visited,
    x = .ident name ∨ ∃ args, x = .call none name args) ∧ name ∉ m.declared

end MethodBody

theorem Expr.mention?_eq_some {e : Expr} {name : String} :
    e.mention? = some name ↔ e = .ident name ∨ ∃ args, e = .call none name args := by
  constructor
  · intro h
    unfold Expr.mention? at h
    split at h
    · cases h
      exact Or.inl rfl
    · cases h
      exact Or.inr ⟨_, rfl⟩
    · cases h
  · rintro (rfl | ⟨args, rfl⟩) <;> rfl

namespace MethodBody

theorem mem_taken_iff {m : MethodBody} {name : String} : name ∈ m.taken ↔ m.Reserves name := by
  have hmentions : name ∈ m.mentions ↔ ∃ e ∈ exprsOf m.body, ∃ x ∈ e.visited,
      x = .ident name ∨ ∃ args, x = .call none name args := by
    simp only [mentions, List.mem_flatMap, List.mem_filterMap, Expr.mention?_eq_some]
  rw [taken, List.mem_filter, List.mem_append, hmentions, Reserves]
  simp

theorem declared_withLocals_eq_map (m : MethodBody) : m.withLocals.declared =
    ((List.range m.declared.length).map (freshIndex m.taken)).map localName := by
  rw [declared_withLocals, numbered, List.range_eq_range', List.map_map]
  rfl

theorem declare_of_search {m : MethodBody} {r : Renaming} {found : Nat}
    (h : Search m.taken r.next found) (name : String) : r.declare m.taken name =
      (localName found, ⟨(name, localName found) :: r.scope, found + 1⟩) := by
  rw [h.unique (search_freeIndex m.taken r.next)]
  rfl

/-- The search for a number ends, and the locals are numbered in order of declaration by the
smallest numbers of which the names are not reserved. -/
theorem locals_smallest_free (m : MethodBody) :
    (∀ n, ∃ found ≤ n + m.taken.length, Search m.taken n found) ∧
    (∀ (r : Renaming) (found : Nat) (name : String), Search m.taken r.next found →
      r.declare m.taken name =
        (localName found, ⟨(name, localName found) :: r.scope, found + 1⟩)) ∧
    (∀ name, name ∈ m.taken ↔ m.Reserves name) ∧
    (∃ indices, SmallestFree m.Reserves indices ∧ indices.length = m.declared.length ∧
      m.withLocals.declared = indices.map localName) ∧
    m.withLocals.declared.Nodup ∧ ∀ name ∈ m.withLocals.declared, ¬ m.Reserves name := by
  have hreserves : (· ∈ m.taken) = m.Reserves := funext fun name => propext mem_taken_iff
  have hsmallest := smallestFree_freshIndex m.taken m.declared.length
  rw [hreserves] at hsmallest
  have hnames := m.declared_withLocals_eq_map
  refine ⟨fun n => ?_, fun r found name h => declare_of_search h name, fun name => mem_taken_iff,
    ⟨_, hsmallest, by simp, hnames⟩, ?_, ?_⟩
  · exact ⟨_, freeIndex_le m.taken m.taken.length n, search_freeIndex m.taken n⟩
  · rw [hnames]
    have hnodup := hsmallest.ascending.imp Nat.ne_of_lt
    exact List.Nodup.map localName_injective hnodup
  · intro name hname
    rw [hnames] at hname
    obtain ⟨i, hi, rfl⟩ := List.mem_map.mp hname
    exact hsmallest.free i hi

end MethodBody

end ShaderCompiler
