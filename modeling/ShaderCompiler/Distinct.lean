namespace ShaderCompiler

variable {α : Type} [BEq α]

def addNew (xs : List α) (a : α) : List α := if xs.contains a then xs else xs ++ [a]

def distinct (xs : List α) : List α := xs.foldl addNew []

theorem mem_addNew [LawfulBEq α] {xs : List α} {a b : α} : b ∈ addNew xs a ↔ b ∈ xs ∨ b = a := by
  unfold addNew
  split <;> simp_all

theorem mem_foldl_addNew [LawfulBEq α] {xs ys : List α} {b : α} :
    b ∈ xs.foldl addNew ys ↔ b ∈ ys ∨ b ∈ xs := by
  induction xs generalizing ys with
  | nil => simp
  | cons x xs ih => simp [ih, mem_addNew, or_assoc]

theorem mem_distinct [LawfulBEq α] {xs : List α} {b : α} : b ∈ distinct xs ↔ b ∈ xs := by
  simp [distinct, mem_foldl_addNew]

/-- What is added only where it is new makes no difference to the first occurrences. -/
theorem distinct_foldl_addNew [LawfulBEq α] (xs ys : List α) :
    distinct (ys.foldl addNew xs) = distinct (xs ++ ys) := by
  induction ys generalizing xs with
  | nil => rw [List.foldl_nil, List.append_nil]
  | cons y ys ih =>
      rw [List.foldl_cons, ih, addNew]
      split
      · next hy =>
          have hkept : addNew (distinct xs) y = distinct xs := by
            rw [addNew, if_pos]
            rw [List.contains_iff_mem] at hy ⊢
            exact mem_distinct.mpr hy
          rw [distinct, distinct, List.foldl_append, List.foldl_append, List.foldl_cons,
            ← distinct, hkept]
      · rw [List.append_assoc, List.singleton_append]

theorem distinct_map {β : Type} [BEq β] [LawfulBEq α] [LawfulBEq β] {φ : α → β}
    (hφ : ∀ a b, φ a = φ b → a = b) (xs : List α) :
    distinct (xs.map φ) = (distinct xs).map φ := by
  have hadd (ys : List α) (a : α) : addNew (ys.map φ) (φ a) = (addNew ys a).map φ := by
    have hmem : (ys.map φ).contains (φ a) = ys.contains a := by
      rw [Bool.eq_iff_iff, List.contains_iff_mem, List.contains_iff_mem, List.mem_map]
      constructor
      · rintro ⟨b, hb, he⟩
        exact hφ b a he ▸ hb
      · exact fun ha => ⟨a, ha, rfl⟩
    rw [addNew, addNew, hmem, apply_ite (List.map φ), List.map_append, List.map_singleton]
  have hfoldl (ys : List α) : (xs.map φ).foldl addNew (ys.map φ) = (xs.foldl addNew ys).map φ := by
    induction xs generalizing ys with
    | nil => rfl
    | cons x xs ih => rw [List.map_cons, List.foldl_cons, List.foldl_cons, hadd, ih]
  exact hfoldl []

theorem nodup_addNew [LawfulBEq α] {xs : List α} (h : xs.Nodup) (a : α) : (addNew xs a).Nodup := by
  unfold addNew
  split
  · exact h
  · next ha =>
      rw [List.nodup_append]
      refine ⟨h, by simp, ?_⟩
      intro x hx y hy hxy
      rw [List.mem_singleton] at hy
      rw [hxy, hy] at hx
      exact ha (List.contains_iff_mem.mpr hx)

theorem nodup_foldl_addNew [LawfulBEq α] {xs ys : List α} (h : ys.Nodup) :
    (xs.foldl addNew ys).Nodup := by
  induction xs generalizing ys with
  | nil => exact h
  | cons x xs ih => exact ih (nodup_addNew h x)

theorem nodup_distinct [LawfulBEq α] (xs : List α) : (distinct xs).Nodup :=
  nodup_foldl_addNew List.nodup_nil

end ShaderCompiler
