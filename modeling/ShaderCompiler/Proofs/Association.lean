import Mathlib.Tactic.Common

namespace ShaderCompiler

theorem head?_eq_getLast?_iff {α : Type} (l : List α) (default : α) :
    l.head?.getD default = l.getLast?.getD default ↔ l.head? = l.getLast? := by
  cases l with
  | nil => simp
  | cons a l => simp [List.getLast?_cons]

theorem eq_toList_head? {α : Type} {l : List α} (h : ¬1 < l.length) : l = l.head?.toList := by
  rw [← List.take_one, List.take_of_length_le (Nat.not_lt.mp h)]

variable {κ α : Type} [BEq κ] [LawfulBEq κ] {l : List (κ × α)} {name : κ} {a : α}

theorem mem_of_lookup (h : l.lookup name = some a) : (name, a) ∈ l := by
  obtain ⟨l₁, l₂, rfl, -⟩ := List.lookup_eq_some_iff.mp h
  exact List.mem_append_right l₁ List.mem_cons_self

theorem lookup_ne_none_of_mem {b : κ × α} (hb : b ∈ l) : l.lookup b.1 ≠ none := by
  intro hn
  simpa using List.lookup_eq_none_iff.mp hn b hb

theorem lookup_of_nodup (h : (l.map (·.1)).Nodup) {b : κ × α} (hb : b ∈ l) :
    l.lookup b.1 = some b.2 := by
  obtain ⟨l₁, l₂, rfl⟩ := List.append_of_mem hb
  apply List.lookup_eq_some_iff.mpr
  refine ⟨l₁, l₂, rfl, fun p hp => ?_⟩
  rw [List.map_append, List.nodup_append] at h
  have hne : p.1 ≠ b.1 := by
    apply h.2.2 p.1 (List.mem_map_of_mem hp) b.1
    exact List.mem_cons_self
  simpa using hne.symm

theorem exists_of_lookup_map {f : κ × α → κ}
    (h : (l.map fun b => (f b, b.2)).lookup name = some a) : ∃ b ∈ l, f b = name ∧ b.2 = a := by
  obtain ⟨b, hb, he⟩ := List.mem_map.mp (mem_of_lookup h)
  obtain ⟨hn, ha⟩ := Prod.mk.inj he
  exact ⟨b, hb, hn, ha⟩

theorem lookup_map_ne_none {f : κ × α → κ} {b : κ × α} (hb : b ∈ l) :
    (l.map fun b => (f b, b.2)).lookup (f b) ≠ none := by
  have hm : (f b, b.2) ∈ l.map fun b => (f b, b.2) := List.mem_map.mpr ⟨b, hb, rfl⟩
  exact lookup_ne_none_of_mem hm

theorem lookup_map_of_injective {κ' : Type} [BEq κ'] [LawfulBEq κ'] {φ : κ → κ'}
    (hφ : Function.Injective φ) (l : List (κ × α)) (name : κ) :
    (l.map (Prod.map φ id)).lookup (φ name) = l.lookup name := by
  induction l with
  | nil => rfl
  | cons b l ih =>
      obtain ⟨x, a⟩ := b
      have hbeq : (φ name == φ x) = (name == x) := by
        rw [Bool.eq_iff_iff, beq_iff_eq, beq_iff_eq, hφ.eq_iff]
      rw [List.map_cons, Prod.map_apply, List.lookup_cons, List.lookup_cons, hbeq, ih]
      rfl

theorem lookup_cons_of_ne {other : κ} (h : name ≠ other) :
    ((other, a) :: l).lookup name = l.lookup name := by
  rw [List.lookup_cons, beq_eq_false_iff_ne.mpr h]

theorem lookup_filter_self (l : List (κ × α)) (name : κ) :
    (l.filter (·.1 != name)).lookup name = none := by
  apply List.lookup_eq_none_iff.mpr
  intro b hb
  have hne : b.1 ≠ name := by simpa using (List.mem_filter.mp hb).2
  simpa using hne.symm

theorem lookup_filter_of_ne {other : κ} (h : name ≠ other) :
    (l.filter (·.1 != other)).lookup name = l.lookup name := by
  induction l with
  | nil => rfl
  | cons b l ih =>
      obtain ⟨x, c⟩ := b
      by_cases hx : x = other
      · rw [List.filter_cons_of_neg (by simpa using hx), ih, hx, lookup_cons_of_ne h]
      · rw [List.filter_cons_of_pos (by simpa using hx), List.lookup_cons, List.lookup_cons, ih]

theorem lookup_filterMap (keys : List κ) (make : κ → Option α) :
    (keys.filterMap fun key => (make key).map (key, ·)).lookup name =
      if name ∈ keys then make name else none := by
  induction keys with
  | nil => rfl
  | cons key keys ih =>
      by_cases hkey : name = key
      · subst hkey
        rw [if_pos List.mem_cons_self]
        cases hmade : make name with
        | none =>
            rw [List.filterMap_cons_none (by simp [hmade]), ih]
            simp [hmade]
        | some a =>
            rw [List.filterMap_cons_some (by simp [hmade]; rfl), List.lookup_cons_self]
      · have hmem : name ∈ key :: keys ↔ name ∈ keys := by simp [hkey]
        simp only [hmem, ← ih]
        cases hmade : make key with
        | none => rw [List.filterMap_cons_none (by simp [hmade])]
        | some a =>
            rw [List.filterMap_cons_some (by simp [hmade]; rfl), lookup_cons_of_ne hkey]

end ShaderCompiler
