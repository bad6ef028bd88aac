import ShaderCompiler.Proofs.Emission.Receivers
import ShaderCompiler.Proofs.Token.Scanning
import ShaderCompiler.Proofs.Typing.Discrete

namespace ShaderCompiler

open Token

/-- The name of a function that is defined in some class: nothing that GLSL or the class's structs
give a meaning to. -/
structure IsFunctionName (ctx : ClassContext) (name : String) : Prop where
  plain : isPlainName name = true
  not_verbatim : name ≠ Intrinsic.verbatim
  not_intrinsic : Intrinsic.isIntrinsic name = false
  not_builtin : Vocabulary.isBuiltin name = false
  not_struct : ctx.isStruct name = false
  unknown : Intrinsic.returnRule name = .unknown

inductive PlainExpr (ctx : ClassContext) : Expr → Prop
  | bool (value : Bool) : PlainExpr ctx (.literal (.bool value))
  | int (value : UInt64) : PlainExpr ctx (.literal (.int value))
  | uint (value : UInt64) : PlainExpr ctx (.literal (.uint value))
  | ident {name : String} (hn : isPlainName name = true) : PlainExpr ctx (.ident name)
  | assign {op : AssignOp} (hop : op ≠ .rem) {target value : Expr} (ht : PlainExpr ctx target)
      (hv : PlainExpr ctx value) : PlainExpr ctx (.assign op target value)
  | binary {op : BinaryOp} (hop : op ≠ .rem) {lhs rhs : Expr} (hl : PlainExpr ctx lhs)
      (hr : PlainExpr ctx rhs) : PlainExpr ctx (.binary op lhs rhs)
  | unary (op : UnaryOp) {operand : Expr} (ho : PlainExpr ctx operand) :
      PlainExpr ctx (.unary op operand)
  | conditional {test yes no : Expr} (ht : PlainExpr ctx test) (hy : PlainExpr ctx yes)
      (hn : PlainExpr ctx no) : PlainExpr ctx (.conditional test yes no)
  | index {target index : Expr} (ht : PlainExpr ctx target) (hi : PlainExpr ctx index) :
      PlainExpr ctx (.index target index)
  | member {target : Expr} {name : String} (ht : PlainExpr ctx target)
      (hn : isPlainName name = true) : PlainExpr ctx (.member target name)
  | call {name : String} (hn : IsFunctionName ctx name) (args : List Expr)
      (ha : ∀ a ∈ args, PlainExpr ctx a) : PlainExpr ctx (.call none name (args.map (⟨none, ·⟩)))

/-- The same expression, except that integers may have become unsigned. -/
inductive Retagged : Expr → Expr → Prop
  | unsigned (value : UInt64) : Retagged (.literal (.int value)) (.literal (.uint value))
  | literal (l : Literal) : Retagged (.literal l) (.literal l)
  | ident (name : String) : Retagged (.ident name) (.ident name)
  | assign (op : AssignOp) {t t' v v' : Expr} (ht : Retagged t t') (hv : Retagged v v') :
      Retagged (.assign op t v) (.assign op t' v')
  | binary (op : BinaryOp) {l l' r r' : Expr} (hl : Retagged l l') (hr : Retagged r r') :
      Retagged (.binary op l r) (.binary op l' r')
  | unary (op : UnaryOp) {o o' : Expr} (ho : Retagged o o') :
      Retagged (.unary op o) (.unary op o')
  | conditional {c c' a a' b b' : Expr} (hc : Retagged c c') (ha : Retagged a a')
      (hb : Retagged b b') : Retagged (.conditional c a b) (.conditional c' a' b')
  | index {t t' i i' : Expr} (ht : Retagged t t') (hi : Retagged i i') :
      Retagged (.index t i) (.index t' i')
  | member {t t' : Expr} (name : String) (ht : Retagged t t') :
      Retagged (.member t name) (.member t' name)
  | call (name : String) (args : List (Expr × Expr)) (ha : ∀ a ∈ args, Retagged a.1 a.2) :
      Retagged (.call none name (args.map fun a => ⟨none, a.1⟩))
        (.call none name (args.map fun a => ⟨none, a.2⟩))

theorem PlainExpr.ne_self {ctx : ClassContext} {e : Expr} (h : PlainExpr ctx e) : e ≠ .self := by
  rintro rfl
  cases h

theorem infer_isDiscrete {env : TypeEnv} (h : env.Discrete) {e : Expr}
    (he : PlainExpr env.context e) {t : ValueType} (ht : infer env e = some t) :
    t.isDiscrete = true := by
  induction he generalizing t with
  | bool | int | uint =>
      obtain rfl := Option.some.inj ht
      exact ValueType.isDiscrete_ofKind rfl
  | ident => exact h.lookup? ht
  | assign _ _ _ iht _ => exact iht ht
  | @binary op _ lhs rhs _ _ ihl ihr =>
      rw [infer] at ht
      split at ht
      · obtain rfl := Option.some.inj ht
        exact ValueType.isDiscrete_ofKind rfl
      · split at ht
        · next l r hl hr =>
            obtain rfl := Option.some.inj ht
            rcases ValueType.combine_eq l r with hc | hc <;> rw [hc]
            · exact ihl hl
            · exact ihr hr
        · cases ht
  | unary op _ ih =>
      rw [infer] at ht
      split at ht
      · obtain rfl := Option.some.inj ht
        exact ValueType.isDiscrete_ofKind rfl
      · exact ih ht
  | conditional _ _ _ _ ihy ihn =>
      rw [infer] at ht
      rcases Option.or_eq_some_iff.mp ht with hy | ⟨-, hn⟩
      · exact ihy hy
      · exact ihn hn
  | index _ _ iht _ =>
      rw [infer] at ht
      obtain ⟨t', ht', he⟩ := Option.bind_eq_some_iff.mp ht
      exact ValueType.isDiscrete_element? (iht ht') he
  | member hp _ ih =>
      rw [infer_member hp.ne_self] at ht
      obtain ⟨t', ht', hm⟩ := Option.bind_eq_some_iff.mp ht
      exact h.memberType? (ih ht') hm
  | call hn _ _ _ =>
      rw [infer] at ht
      exact h.callType? hn.not_builtin hn.not_struct hn.unknown ht

theorem unsignedHint_hintOf {f : Frame} (h : f.env.Discrete) {e : Expr}
    (he : PlainExpr f.context e) : UnsignedHint (f.hintOf e) :=
  unsignedHint_literalHint fun _ ht => infer_isDiscrete h he ht

theorem unsignedHint_ownHints {f : Frame} (h : f.env.Discrete) (name : String)
    (args : List (Arg Expr)) : ∀ hint ∈ ownHints f name args, UnsignedHint hint := by
  intro hint hm
  unfold ownHints at hm
  split at hm
  · next sig hs =>
      obtain ⟨t, ht, rfl⟩ := List.mem_map.mp hm
      have hp := h.params _ (ClassContext.mem_of_selectOverload hs)
      apply unsignedHint_literalHint
      intro t' ht'
      obtain rfl := Option.some.inj ht'
      exact List.all_eq_true.mp hp t ht
  · cases hm

end ShaderCompiler
