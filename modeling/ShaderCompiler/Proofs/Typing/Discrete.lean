import ShaderCompiler.Emission.Uses
import ShaderCompiler.Proofs.Association

namespace ShaderCompiler

def ScalarKind.isDiscrete : ScalarKind → Bool
  | bool | int | uint => true
  | float | double => false

/-- No array, and no components that are floats. -/
def ValueType.isDiscrete (t : ValueType) : Bool := !t.array && t.kind?.all ScalarKind.isDiscrete

structure TypeEnv.Discrete (env : TypeEnv) : Prop where
  locals : ∀ b ∈ env.locals, b.2.isDiscrete = true
  globals : ∀ b ∈ env.context.globals, b.2.isDiscrete = true
  members : ∀ s ∈ env.context.structs, ∀ b ∈ s.2, b.2.isDiscrete = true
  returns : ∀ m ∈ env.context.methods, m.2.returns.all ValueType.isDiscrete = true
  params : ∀ m ∈ env.context.methods, m.2.params.all ValueType.isDiscrete = true

namespace Vocabulary

theorem lookup?_name {t : BuiltinType} (h : t ∈ all) : lookup? t.name = some t := by
  revert t
  decide +kernel

theorem mem_all_of_lookup? {name : String} {t : BuiltinType} (h : lookup? name = some t) :
    t ∈ all := by
  unfold lookup? find? at h
  exact List.mem_of_find?_eq_some h

theorem lookup?_target (name : String) :
    lookup? ((toTarget? name).getD name) = lookup? name := by
  cases h : lookup? name with
  | none => simp [toTarget?, h]
  | some t => simp [toTarget?, h, lookup?_name (mem_all_of_lookup? h)]

end Vocabulary

namespace ValueType

theorem kind?_named (name : String) : (named name).kind? = (⟨name, false⟩ : ValueType).kind? := by
  simp [kind?, shape?, named, Vocabulary.scalarKind?, Vocabulary.lookup?_target]

theorem isDiscrete_named (name : String) :
    (named name).isDiscrete = (⟨name, false⟩ : ValueType).isDiscrete := by
  rw [isDiscrete, isDiscrete, kind?_named]
  rfl

theorem isDiscrete_ofKind {k : ScalarKind} (h : k.isDiscrete = true) :
    (ofKind k).isDiscrete = true := by
  cases k <;> first | decide +kernel | cases h

theorem isDiscrete_vectorOf? {k : ScalarKind} (h : k.isDiscrete = true) {n : Nat} {name : String}
    (hv : Vocabulary.vectorOf? k n = some name) : (named name).isDiscrete = true := by
  unfold Vocabulary.vectorOf? at hv
  split at hv
  · obtain rfl := Option.some.inj hv
    exact isDiscrete_ofKind h
  · obtain ⟨t, ht, rfl⟩ := Option.map_eq_some_iff.mp hv
    have hm := Vocabulary.lookup?_name (List.mem_of_find?_eq_some ht)
    have hk : t.kind = some k := by
      have := List.find?_some ht
      simp_all
    rw [isDiscrete_named]
    cases hs : t.shape <;> simp [isDiscrete, kind?, shape?, Vocabulary.scalarKind?, hm, hk, hs, h]

theorem isDiscrete_element? {t t' : ValueType} (h : t.isDiscrete = true)
    (he : t.element? = some t') : t'.isDiscrete = true := by
  obtain ⟨ha, hk⟩ : t.array = false ∧ t.kind?.all ScalarKind.isDiscrete = true := by
    simpa [isDiscrete] using h
  simp only [element?, ha, Bool.false_eq_true, if_false] at he
  split at he
  · next k _ hs hv =>
      obtain rfl := Option.some.inj he
      apply isDiscrete_ofKind
      simpa [kind?, hs, hv] using hk
  · next k _ rows hs hv =>
      obtain ⟨name, hn, rfl⟩ := Option.map_eq_some_iff.mp he
      refine isDiscrete_vectorOf? ?_ hn
      simpa [kind?, hs, hv] using hk
  · cases he

theorem combine_eq (l r : ValueType) : l.combine r = l ∨ l.combine r = r := by
  unfold combine
  repeat' split
  all_goals simp

end ValueType

/-- The hints that a bare integer may get where there are no floats. -/
def UnsignedHint (hint : Option ScalarKind) : Prop := hint = none ∨ hint = some .uint

theorem UnsignedHint.or {a b : Option ScalarKind} (ha : UnsignedHint a) (hb : UnsignedHint b) :
    UnsignedHint (a.or b) := by
  rcases ha with rfl | rfl
  · exact hb
  · exact Or.inr rfl

theorem unsignedHint_literalHint {t : Option ValueType}
    (h : ∀ t' ∈ t, t'.isDiscrete = true) : UnsignedHint (literalHint t) := by
  cases t with
  | none => exact Or.inl rfl
  | some t =>
      obtain ⟨ha, hk⟩ : t.array = false ∧ t.kind?.all ScalarKind.isDiscrete = true := by
        simpa [ValueType.isDiscrete] using h t rfl
      have he : literalHint (some t) = t.kind?.bind ScalarKind.hint? := by
        rw [literalHint, Option.bind_some, ValueType.elementKind?, ValueType.kind?_named, ← ha]
      rw [he]
      cases hc : t.kind? with
      | none => exact Or.inl rfl
      | some k =>
          rw [hc] at hk
          cases k with
          | bool | int => exact Or.inl rfl
          | uint => exact Or.inr rfl
          | float | double => cases hk

theorem ClassContext.mem_of_selectOverload {ctx : ClassContext} {name : String}
    {args : List (Option ValueType)} {sig : MethodSig}
    (h : ctx.selectOverload name args = some sig) : (name, sig) ∈ ctx.methods := by
  have hm : sig ∈ ctx.overloads name := by
    unfold selectOverload at h
    split at h
    · next only hf =>
        obtain rfl := Option.some.inj h
        exact (List.mem_filter.mp (hf ▸ List.mem_cons_self)).1
    · split at h
      · next only hf =>
          obtain rfl := Option.some.inj h
          exact (List.mem_filter.mp (List.mem_filter.mp (hf ▸ List.mem_cons_self)).1).1
      · cases h
  obtain ⟨⟨n, sig'⟩, hf, rfl⟩ := List.mem_map.mp hm
  obtain ⟨hin, hn⟩ := List.mem_filter.mp hf
  obtain rfl : n = name := by simpa using hn
  exact hin

namespace TypeEnv.Discrete

variable {env : TypeEnv} (h : env.Discrete)

include h

theorem global? {name : String} {t : ValueType} (ht : env.context.global? name = some t) :
    t.isDiscrete = true :=
  h.globals (name, t) (mem_of_lookup ht)

theorem lookup? {name : String} {t : ValueType} (ht : env.lookup? name = some t) :
    t.isDiscrete = true := by
  unfold TypeEnv.lookup? at ht
  rcases Option.or_eq_some_iff.mp ht with hl | ⟨-, hg⟩
  · exact h.locals (name, t) (mem_of_lookup hl)
  · exact h.global? hg

theorem memberType? {t t' : ValueType} (hd : t.isDiscrete = true) {name : String}
    (ht : ShaderCompiler.memberType? env.context t name = some t') : t'.isDiscrete = true := by
  obtain ⟨ha, hk⟩ : t.array = false ∧ t.kind?.all ScalarKind.isDiscrete = true := by
    simpa [ValueType.isDiscrete] using hd
  simp only [ShaderCompiler.memberType?, ha, Bool.false_eq_true, if_false] at ht
  split at ht
  · next members hs =>
      exact h.members (t.name, members) (mem_of_lookup hs) (name, t')
        (mem_of_lookup ht)
  · split at ht
    · next k n hc hn =>
        obtain ⟨v, hv, rfl⟩ := Option.map_eq_some_iff.mp ht
        rw [hc] at hk
        exact ValueType.isDiscrete_vectorOf? hk hv
    · cases ht

theorem callType? {name : String} (hb : Vocabulary.isBuiltin name = false)
    (hs : env.context.isStruct name = false) (hr : Intrinsic.returnRule name = .unknown)
    {args : List (Option ValueType)} {t : ValueType}
    (ht : ShaderCompiler.callType? env.context name args = some t) : t.isDiscrete = true := by
  unfold ShaderCompiler.callType? at ht
  split at ht
  · obtain ⟨sig, hsig, hret⟩ := Option.bind_eq_some_iff.mp ht
    have ha := h.returns _ (ClassContext.mem_of_selectOverload hsig)
    rw [hret] at ha
    exact ha
  · simp [hb, hs, hr] at ht

end TypeEnv.Discrete

end ShaderCompiler
