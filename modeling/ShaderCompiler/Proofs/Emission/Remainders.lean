import ShaderCompiler.Emission.Expr
import ShaderCompiler.Proofs.Typing.Promotion

namespace ShaderCompiler

/-- The remainder is a call of `mod`, and its assignment one of such a call. -/
structure WrittenAsMod (f : Frame) (a b : Expr) : Prop where
  binary (hint : Option ScalarKind) : render f hint (.binary .rem a b) = do
    let l ← render f (f.hintOf b) a
    let r ← render f (f.hintOf a) b
    return applied "mod" [l.text, r.text]
  assign (hint : Option ScalarKind) : render f hint (.assign .rem a b) = do
    let l ← render f none a
    let r ← render f (f.hintOf a) b
    let target := l.fit Precedence.unary
    return ⟨target ++ " = mod(" ++ target ++ ", " ++ r.text ++ ")", Precedence.assign⟩

structure WrittenNatively (f : Frame) (a b : Expr) : Prop where
  binary (hint : Option ScalarKind) : render f hint (.binary .rem a b) = do
    let l ← render f (f.hintOf b) a
    let r ← render f (f.hintOf a) b
    let p := BinaryOp.rem.precedence
    return ⟨l.fit p ++ " " ++ BinaryOp.rem.symbol ++ " " ++ r.fit (p + 1), p⟩
  assign (hint : Option ScalarKind) : render f hint (.assign .rem a b) = do
    let l ← render f none a
    let r ← render f (f.hintOf a) b
    return ⟨l.fit Precedence.unary ++ " " ++ AssignOp.rem.symbol ++ " " ++
      r.fit Precedence.assign, Precedence.assign⟩

theorem writtenAsMod_of_not_integralPair {f : Frame} {a b : Expr}
    (h : f.integralPair a b = false) : WrittenAsMod f a b where
  binary hint := by
    rw [render]
    simp only [h, Bool.not_false, and_self, if_true]
    rfl
  assign hint := by
    rw [render]
    simp only [h, Bool.not_false, and_self, if_true]

theorem writtenNatively_of_integralPair {f : Frame} {a b : Expr}
    (h : f.integralPair a b = true) : WrittenNatively f a b where
  binary hint := by
    rw [render]
    simp only [h, Bool.not_true, Bool.false_eq_true, and_false, if_false]
    rfl
  assign hint := by
    rw [render]
    simp only [h, Bool.not_true, Bool.false_eq_true, and_false, if_false]

def KeepsFloat (env : TypeEnv) (e : Expr) : Prop :=
  (∃ t ∈ leafTypes env e, t.IsFloating) ∧
    ∀ v, (leafTypes env e).find? (·.isVector) = some v → v.IsFloating

theorem Arithmetic.isIntegral_iff {env : TypeEnv} {e : Expr} (h : Arithmetic env e) :
    (infer env e).any (·.isIntegral) = true ↔ ¬ KeepsFloat env e := by
  obtain ⟨t, ht, hd⟩ := h.exists_infer
  rw [ht, Option.any_some, (h.isNumeric_leaf t hd.mem).isIntegral_iff,
    hd.isFloating_iff h.isNumeric_leaf, KeepsFloat]

theorem Arithmetic.integralPair_iff {f : Frame} {a b : Expr} (ha : Arithmetic f.env a)
    (hb : Arithmetic f.env b) :
    f.integralPair a b = true ↔ ¬ (KeepsFloat f.env a ∨ KeepsFloat f.env b) := by
  rw [Frame.integralPair, Bool.and_eq_true, ha.isIntegral_iff, hb.isIntegral_iff, not_or]

/-- The leaves of arithmetic decide its type, whose kind is the highest among them exactly if no
vector of a lower kind comes first. A remainder of arithmetic is written as a call of `mod` if a
floating leaf of one operand has no vector of integers as the first vector beside it, and with its
own operator otherwise. -/
theorem remainder_of_arithmetic (f : Frame) :
    (∀ e, Arithmetic f.env e → ∃ t, infer f.env e = some t ∧ Decides (leafTypes f.env e) t ∧
      (Highest (leafTypes f.env e) t ↔
        ∀ v, (leafTypes f.env e).find? (·.isVector) = some v → Highest (leafTypes f.env e) v)) ∧
    ∀ a b, Arithmetic f.env a → Arithmetic f.env b →
      (KeepsFloat f.env a ∨ KeepsFloat f.env b → WrittenAsMod f a b) ∧
        (¬ (KeepsFloat f.env a ∨ KeepsFloat f.env b) → WrittenNatively f a b) := by
  constructor
  · intro e he
    obtain ⟨t, ht, hd⟩ := he.exists_infer
    exact ⟨t, ht, hd, hd.highest_iff⟩
  · intro a b ha hb
    constructor
    · intro hfloat
      apply writtenAsMod_of_not_integralPair
      rw [Bool.eq_false_iff]
      intro hpair
      exact (ha.integralPair_iff hb).mp hpair hfloat
    · intro hfloat
      exact writtenNatively_of_integralPair ((ha.integralPair_iff hb).mpr hfloat)

def mixedFrame : Frame where
  env := { context := { className := "T" }
           locals := [("v", .named "ivec2"), ("x", .named "float")] }
  member := "main"

/-- The float behind the vector of integers is lost, and the remainder keeps its operator; without
the vector it is a call of `mod`. -/
theorem remainder_mixedFrame :
    (∃ t ∈ leafTypes mixedFrame.env (.binary .mul (.ident "v") (.ident "x")), t.IsFloating) ∧
    WrittenNatively mixedFrame (.binary .mul (.ident "v") (.ident "x")) (.ident "v") ∧
    WrittenAsMod mixedFrame (.binary .mul (.literal (.int 2)) (.ident "x")) (.ident "v") ∧
    (render mixedFrame none (.binary .rem (.binary .mul (.ident "v") (.ident "x"))
      (.ident "v")) {}).map (·.1.text) = .ok "v * x % v" := by
  have hv : Arithmetic mixedFrame.env (.ident "v") :=
    .name "v" rfl ⟨Or.inr (by decide), .int, by decide, by decide⟩
  have hx : Arithmetic mixedFrame.env (.ident "x") :=
    .name "x" rfl ⟨Or.inl (by unfold ValueType.IsScalar; decide), .float, by decide, by decide⟩
  have hvx : Arithmetic mixedFrame.env (.binary .mul (.ident "v") (.ident "x")) :=
    .binary .mul rfl hv hx
  have h2x : Arithmetic mixedFrame.env (.binary .mul (.literal (.int 2)) (.ident "x")) :=
    .binary .mul rfl (.literal _ rfl) hx
  have hfloat : (ValueType.named "float").IsFloating := Or.inl (by decide)
  have hinteger : ¬ (ValueType.named "ivec2").IsFloating := by
    rintro (h | h) <;> revert h <;> decide
  refine ⟨⟨.named "float", by decide, hfloat⟩, ?_, ?_, by decide⟩
  · apply ((remainder_of_arithmetic mixedFrame).2 _ _ hvx hv).2
    rintro (⟨-, h⟩ | ⟨-, h⟩)
    · exact hinteger (h _ (by decide))
    · exact hinteger (h _ (by decide))
  · apply ((remainder_of_arithmetic mixedFrame).2 _ _ h2x hv).1
    refine Or.inl ⟨⟨.named "float", by decide, hfloat⟩, ?_⟩
    have hnone : (leafTypes mixedFrame.env (.binary .mul (.literal (.int 2)) (.ident "x"))).find?
        (·.isVector) = none := by decide
    rw [hnone]
    exact nofun

end ShaderCompiler
