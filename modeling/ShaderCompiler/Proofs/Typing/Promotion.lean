import Mathlib.Tactic.Common
import ShaderCompiler.Typing.Infer

namespace ShaderCompiler

namespace ValueType

def IsScalar (t : ValueType) : Prop := t.shape? = some .scalar

def isVector (t : ValueType) : Bool :=
  match t.shape? with
  | some (.vector _) => true
  | _ => false

/-- The place of the components' kind among the kinds of numbers. -/
def rank (t : ValueType) : Nat := (t.kind?.map ScalarKind.rank).getD 0

def IsFloating (t : ValueType) : Prop := t.kind? = some .float ∨ t.kind? = some .double

structure IsNumeric (t : ValueType) : Prop where
  shape : t.IsScalar ∨ t.isVector = true
  kind : ∃ k, t.kind? = some k ∧ k ≠ .bool

variable {t u : ValueType}

theorem exists_of_isVector (h : t.isVector = true) : ∃ n, t.shape? = some (.vector n) := by
  unfold isVector at h
  split at h
  · next n hs => exact ⟨n, hs⟩
  · cases h

theorem not_isScalar_of_isVector (h : t.isVector = true) : ¬ t.IsScalar := by
  obtain ⟨n, hs⟩ := exists_of_isVector h
  simp [IsScalar, hs]

theorem IsNumeric.isScalar_of_not_isVector (h : t.IsNumeric) (hv : t.isVector = false) :
    t.IsScalar := by
  rcases h.shape with hs | hv'
  · exact hs
  · rw [hv] at hv'
    cases hv'

theorem IsNumeric.isIntegral_iff (h : t.IsNumeric) : t.isIntegral = true ↔ ¬ t.IsFloating := by
  obtain ⟨k, hk, hb⟩ := h.kind
  rw [isIntegral, IsFloating, hk]
  cases k <;> simp [ScalarKind.isIntegral] at hb ⊢

theorem IsNumeric.isFloating_iff (h : t.IsNumeric) : t.IsFloating ↔ 3 ≤ t.rank := by
  obtain ⟨k, hk, hb⟩ := h.kind
  rw [IsFloating, rank, hk]
  cases k <;> simp [ScalarKind.rank] at hb ⊢

theorem combine_of_isVector (h : t.isVector = true) (u : ValueType) : t.combine u = t := by
  obtain ⟨n, hs⟩ := exists_of_isVector h
  rw [combine, hs]
  by_cases he : t = u
  · exact if_pos he
  · rw [if_neg he]
    cases u.shape? with
    | none => rfl
    | some s => cases s <;> rfl

theorem combine_isScalar_isVector (ht : t.IsScalar) (hu : u.isVector = true) :
    t.combine u = u := by
  obtain ⟨n, hs⟩ := exists_of_isVector hu
  have hne : t ≠ u := by
    rintro rfl
    exact not_isScalar_of_isVector hu ht
  rw [combine, if_neg hne, ht, hs]

theorem combine_isScalar (ht : t.IsScalar) (hu : u.IsScalar) (hnt : t.IsNumeric)
    (hnu : u.IsNumeric) :
    t.combine u = t ∧ u.rank ≤ t.rank ∨ t.combine u = u ∧ t.rank ≤ u.rank := by
  obtain ⟨k, hk, -⟩ := hnt.kind
  obtain ⟨k', hk', -⟩ := hnu.kind
  rw [combine, rank, rank, ht, hu, hk, hk']
  by_cases he : t = u
  · subst he
    obtain rfl := Option.some.inj (hk.symm.trans hk')
    left
    exact ⟨if_pos rfl, Nat.le_refl _⟩
  · rw [if_neg he]
    by_cases hlt : k.rank < k'.rank
    · right
      exact ⟨if_pos hlt, Nat.le_of_lt hlt⟩
    · left
      exact ⟨if_neg hlt, Nat.le_of_not_lt hlt⟩

end ValueType

def BinaryOp.isArithmetic : BinaryOp → Bool
  | add | sub | mul | div => true
  | _ => false

def Literal.isNumber : Literal → Bool
  | int _ | uint _ | float _ | double _ => true
  | bool _ | str _ => false

/-- Expressions of numbers, with names of scalars and vectors of numbers. -/
inductive Arithmetic (env : TypeEnv) : Expr → Prop
  | literal (l : Literal) (hl : l.isNumber = true) : Arithmetic env (.literal l)
  | name (x : String) {t : ValueType} (hx : env.lookup? x = some t) (ht : t.IsNumeric) :
      Arithmetic env (.ident x)
  | sign (op : UnaryOp) (hop : op = .neg ∨ op = .plus) {e : Expr} (he : Arithmetic env e) :
      Arithmetic env (.unary op e)
  | binary (op : BinaryOp) (hop : op.isArithmetic = true) {l r : Expr} (hl : Arithmetic env l)
      (hr : Arithmetic env r) : Arithmetic env (.binary op l r)

def leafTypes (env : TypeEnv) : Expr → List ValueType
  | .unary _ operand => leafTypes env operand
  | .binary _ lhs rhs => leafTypes env lhs ++ leafTypes env rhs
  | e => (infer env e).toList

theorem leafTypes_literal (env : TypeEnv) (l : Literal) :
    leafTypes env (.literal l) = l.type?.toList := rfl

theorem leafTypes_ident (env : TypeEnv) (x : String) :
    leafTypes env (.ident x) = (env.lookup? x).toList := rfl

def Highest (ts : List ValueType) (t : ValueType) : Prop := t ∈ ts ∧ ∀ u ∈ ts, u.rank ≤ t.rank

/-- The type that arithmetic on leaves of these types comes to. -/
inductive Decides (ts : List ValueType) : ValueType → Prop
  | vector {v : ValueType} (hv : ts.find? (·.isVector) = some v) : Decides ts v
  | scalar {t : ValueType} (hs : ∀ u ∈ ts, u.IsScalar) (ht : Highest ts t) : Decides ts t

namespace Decides

variable {ts us : List ValueType} {t u : ValueType}

theorem find?_eq_none (h : ∀ u ∈ ts, u.IsScalar) : ts.find? (·.isVector) = none := by
  apply List.find?_eq_none.mpr
  intro u hu hv
  exact ValueType.not_isScalar_of_isVector hv (h u hu)

theorem mem (h : Decides ts t) : t ∈ ts := by
  cases h with
  | vector hv => exact List.mem_of_find?_eq_some hv
  | scalar _ ht => exact ht.1

theorem singleton (h : t.IsNumeric) : Decides [t] t := by
  cases hv : t.isVector with
  | true => exact .vector (by simp [hv])
  | false =>
      refine .scalar ?_ ⟨List.mem_singleton_self t, by simp⟩
      exact List.forall_mem_singleton.mpr (h.isScalar_of_not_isVector hv)

/-- The step: the first vector of the left side decides, then that of the right side, and scalars
only among themselves. -/
theorem append (hts : ∀ t ∈ ts, t.IsNumeric) (hus : ∀ u ∈ us, u.IsNumeric) (h : Decides ts t)
    (h' : Decides us u) : Decides (ts ++ us) (t.combine u) := by
  cases h with
  | vector hv =>
      rw [ValueType.combine_of_isVector (List.find?_some hv)]
      exact .vector (by rw [List.find?_append, hv]; rfl)
  | scalar hs ht =>
      cases h' with
      | vector hv =>
          rw [ValueType.combine_isScalar_isVector (hs t ht.1) (List.find?_some hv)]
          exact .vector (by rw [List.find?_append, find?_eq_none hs, hv]; rfl)
      | scalar hs' hu =>
          refine .scalar (List.forall_mem_append.mpr ⟨hs, hs'⟩) ?_
          rcases ValueType.combine_isScalar (hs t ht.1) (hs' u hu.1) (hts t ht.1) (hus u hu.1) with
            ⟨he, hle⟩ | ⟨he, hle⟩ <;> rw [he]
          · refine ⟨List.mem_append_left us ht.1, List.forall_mem_append.mpr ⟨ht.2, ?_⟩⟩
            exact fun w hw => Nat.le_trans (hu.2 w hw) hle
          · refine ⟨List.mem_append_right ts hu.1, List.forall_mem_append.mpr ⟨?_, hu.2⟩⟩
            exact fun w hw => Nat.le_trans (ht.2 w hw) hle

/-- The kind is the highest exactly if no vector of a lower kind comes first. -/
theorem highest_iff (h : Decides ts t) :
    Highest ts t ↔ ∀ v, ts.find? (·.isVector) = some v → Highest ts v := by
  cases h with
  | vector hv =>
      constructor
      · intro ht w hw
        rwa [← Option.some.inj (hv.symm.trans hw)]
      · exact fun hall => hall t hv
  | scalar hs ht =>
      refine iff_of_true ht ?_
      rw [find?_eq_none hs]
      exact nofun

theorem isFloating_iff (hts : ∀ t ∈ ts, t.IsNumeric) (h : Decides ts t) :
    t.IsFloating ↔ (∃ u ∈ ts, u.IsFloating) ∧
      ∀ v, ts.find? (·.isVector) = some v → v.IsFloating := by
  cases h with
  | vector hv =>
      constructor
      · intro ht
        refine ⟨⟨t, List.mem_of_find?_eq_some hv, ht⟩, fun w hw => ?_⟩
        rwa [← Option.some.inj (hv.symm.trans hw)]
      · exact fun hall => hall.2 t hv
  | scalar hs ht =>
      constructor
      · intro hf
        refine ⟨⟨t, ht.1, hf⟩, ?_⟩
        rw [find?_eq_none hs]
        exact nofun
      · rintro ⟨⟨u, hu, hf⟩, -⟩
        rw [(hts u hu).isFloating_iff] at hf
        exact (hts t ht.1).isFloating_iff.mpr (Nat.le_trans hf (ht.2 u hu))

end Decides

theorem infer_sign (env : TypeEnv) {op : UnaryOp} (hop : op = .neg ∨ op = .plus) (e : Expr) :
    infer env (.unary op e) = infer env e := by
  rcases hop with rfl | rfl <;> rw [infer] <;> rfl

theorem infer_arithmetic (env : TypeEnv) {op : BinaryOp} (hop : op.isArithmetic = true)
    {l r : Expr} {t u : ValueType} (hl : infer env l = some t) (hr : infer env r = some u) :
    infer env (.binary op l r) = some (t.combine u) := by
  have hcompare : op.isComparison = false := by
    cases op <;> first | rfl | cases hop
  rw [infer, hcompare, hl, hr]
  rfl

theorem isNumeric_literal {l : Literal} (h : l.isNumber = true) :
    ∃ t, l.type? = some t ∧ t.IsNumeric := by
  have hkind (k : ScalarKind) (hk : k ≠ .bool) : (ValueType.ofKind k).IsNumeric := by
    refine ⟨Or.inl ?_, k, ?_, hk⟩ <;> cases k <;> rfl
  cases l with
  | int | uint | float | double => exact ⟨_, rfl, hkind _ (by decide)⟩
  | bool | str => cases h

theorem Arithmetic.isNumeric_leaf {env : TypeEnv} {e : Expr} (h : Arithmetic env e) :
    ∀ t ∈ leafTypes env e, t.IsNumeric := by
  induction h with
  | literal l hl =>
      obtain ⟨t, ht, hn⟩ := isNumeric_literal hl
      rw [leafTypes_literal, ht]
      exact List.forall_mem_singleton.mpr hn
  | name x hx ht =>
      rw [leafTypes_ident, hx]
      exact List.forall_mem_singleton.mpr ht
  | sign op hop he ih => exact ih
  | binary op hop hl hr ihl ihr => exact List.forall_mem_append.mpr ⟨ihl, ihr⟩

theorem Arithmetic.exists_infer {env : TypeEnv} {e : Expr} (h : Arithmetic env e) :
    ∃ t, infer env e = some t ∧ Decides (leafTypes env e) t := by
  induction h with
  | literal l hl =>
      obtain ⟨t, ht, hn⟩ := isNumeric_literal hl
      refine ⟨t, ht, ?_⟩
      rw [leafTypes_literal, ht]
      exact .singleton hn
  | @name x t hx ht =>
      refine ⟨t, hx, ?_⟩
      rw [leafTypes_ident, hx]
      exact .singleton ht
  | sign op hop he ih =>
      obtain ⟨t, ht, hd⟩ := ih
      exact ⟨t, (infer_sign env hop _).trans ht, hd⟩
  | binary op hop hl hr ihl ihr =>
      obtain ⟨t, ht, hdt⟩ := ihl
      obtain ⟨u, hu, hdu⟩ := ihr
      exact ⟨t.combine u, infer_arithmetic env hop ht hu,
        hdt.append hl.isNumeric_leaf hr.isNumeric_leaf hdu⟩

end ShaderCompiler
