import Mathlib.Data.List.Basic
import ShaderCompiler.Normal.Operators
import ShaderCompiler.Proofs.Tree.Visiting

namespace ShaderCompiler

/-- A call with one or two unlabelled arguments on a vocabulary type, of a method that names an
operator of as many operands. -/
def Expr.isOperatorCall : Expr → Bool
  | .call (some (.ident owner)) method args =>
      Vocabulary.isBuiltin owner && args.all (·.label.isNone) &&
        (args.length == 1 && (UnaryOp.ofMethod? method).isSome ||
          args.length == 2 && (BinaryOp.ofMethod? method).isSome)
  | _ => false

def Expr.IsCanonical (e : Expr) : Prop := ∀ x ∈ e.visited, x.isOperatorCall = false

theorem operatorForm?_eq_none {owner method : String} {args : List (Arg Expr)}
    (h : (Expr.call (some (.ident owner)) method args).isOperatorCall = false) :
    operatorForm? owner method args = none := by
  unfold operatorForm?
  by_cases hb : Vocabulary.isBuiltin owner = true
  · rw [if_pos hb]
    split
    · simpa [Expr.isOperatorCall, hb] using h
    · simpa [Expr.isOperatorCall, hb] using h
    · rfl
  · rw [if_neg hb]

section

variable {owner method : String}

theorem operatorCall_cases {args : List (Arg Expr)}
    (h : (Expr.call (some (.ident owner)) method args).isOperatorCall = true) :
    Vocabulary.isBuiltin owner = true ∧
      ((∃ op e, args = [⟨none, e⟩] ∧ UnaryOp.ofMethod? method = some op) ∨
        ∃ op lhs rhs, args = [⟨none, lhs⟩, ⟨none, rhs⟩] ∧ BinaryOp.ofMethod? method = some op) := by
  simp only [Expr.isOperatorCall, Bool.and_eq_true, Bool.or_eq_true, beq_iff_eq,
    List.all_eq_true] at h
  obtain ⟨⟨hb, hlabels⟩, ⟨hlen, hop⟩ | ⟨hlen, hop⟩⟩ := h
  · obtain ⟨⟨label, e⟩, rfl⟩ := List.length_eq_one_iff.mp hlen
    obtain rfl : label = none := by simpa using hlabels
    obtain ⟨op, hop⟩ := Option.isSome_iff_exists.mp hop
    exact ⟨hb, Or.inl ⟨op, e, rfl, hop⟩⟩
  · obtain ⟨⟨label, lhs⟩, ⟨label', rhs⟩, rfl⟩ := List.length_eq_two.mp hlen
    obtain ⟨rfl, rfl⟩ : label = none ∧ label' = none := by simpa using hlabels
    obtain ⟨op, hop⟩ := Option.isSome_iff_exists.mp hop
    exact ⟨hb, Or.inr ⟨op, lhs, rhs, rfl, hop⟩⟩

theorem toOperator_unary {op : UnaryOp} (hb : Vocabulary.isBuiltin owner = true)
    (hop : UnaryOp.ofMethod? method = some op) (e : Expr) :
    toOperator (.call (some (.ident owner)) method [⟨none, e⟩]) = .unary op e := by
  simp [toOperator, operatorForm?, hb, hop]

theorem toOperator_binary {op : BinaryOp} (hb : Vocabulary.isBuiltin owner = true)
    (hop : BinaryOp.ofMethod? method = some op) (lhs rhs : Expr) :
    toOperator (.call (some (.ident owner)) method [⟨none, lhs⟩, ⟨none, rhs⟩]) =
      .binary op lhs rhs := by
  simp [toOperator, operatorForm?, hb, hop]

end

theorem toOperator_of_not_isOperatorCall {e : Expr} (h : e.isOperatorCall = false) :
    toOperator e = e := by
  unfold toOperator
  split
  · rw [operatorForm?_eq_none h, Option.getD_none]
  · rfl

theorem exists_ident_of_isOperatorCall {receiver : Expr} {name : String}
    {args : List (Arg Expr)}
    (h : (Expr.call (some receiver) name args).isOperatorCall = true) :
    ∃ owner, receiver = .ident owner := by
  cases receiver with
  | ident owner => exact ⟨owner, rfl⟩
  | _ => cases h

theorem isCanonical_toOperator_call {receiver : Expr} {name : String} {args : List (Arg Expr)}
    (hr : receiver.IsCanonical) (ha : ∀ x ∈ visitedArgs args, x.isOperatorCall = false) :
    (toOperator (.call (some receiver) name args)).IsCanonical := by
  cases hc : (Expr.call (some receiver) name args).isOperatorCall with
  | false =>
      rw [toOperator_of_not_isOperatorCall hc, Expr.IsCanonical, Expr.visited]
      exact List.forall_mem_append.mpr
        ⟨List.forall_mem_append.mpr ⟨hr, ha⟩, List.forall_mem_singleton.mpr hc⟩
  | true =>
      obtain ⟨owner, rfl⟩ := exists_ident_of_isOperatorCall hc
      obtain ⟨hb, ⟨op, e, rfl, hop⟩ | ⟨op, lhs, rhs, rfl, hop⟩⟩ := operatorCall_cases hc
      · simp only [visitedArgs, List.append_nil] at ha
        rw [toOperator_unary hb hop, Expr.IsCanonical, Expr.visited]
        exact List.forall_mem_append.mpr ⟨ha, List.forall_mem_singleton.mpr rfl⟩
      · simp only [visitedArgs, List.append_nil] at ha
        rw [toOperator_binary hb hop, Expr.IsCanonical, Expr.visited]
        exact List.forall_mem_append.mpr ⟨ha, List.forall_mem_singleton.mpr rfl⟩

theorem Expr.IsCanonical.node {e : Expr} {inner : List Expr} (hv : e.visited = inner ++ [e])
    (hi : ∀ x ∈ inner, x.isOperatorCall = false) (he : e.isOperatorCall = false) :
    e.IsCanonical := by
  rw [IsCanonical, hv]
  exact List.forall_mem_append.mpr ⟨hi, List.forall_mem_singleton.mpr he⟩

mutual

theorem isCanonical_mapPost : (e : Expr) → (e.mapPost toOperator).IsCanonical
  | .assign op target value =>
      .node rfl (List.forall_mem_append.mpr
        ⟨isCanonical_mapPost target, isCanonical_mapPost value⟩) rfl
  | .binary op lhs rhs =>
      .node rfl (List.forall_mem_append.mpr
        ⟨isCanonical_mapPost lhs, isCanonical_mapPost rhs⟩) rfl
  | .unary op operand => .node rfl (isCanonical_mapPost operand) rfl
  | .call none name args => .node rfl (isCanonical_mapArgs args) rfl
  | .call (some receiver) name args => by
      rw [Expr.mapPost]
      exact isCanonical_toOperator_call (isCanonical_mapPost receiver) (isCanonical_mapArgs args)
  | .member target name => .node rfl (isCanonical_mapPost target) rfl
  | .construct type args => .node rfl (isCanonical_mapArgs args) rfl
  | .newArray element none none => List.forall_mem_singleton.mpr rfl
  | .newArray element (some size) none => .node rfl (isCanonical_mapPost size) rfl
  | .newArray element none (some items) => .node rfl (isCanonical_mapItems items) rfl
  | .newArray element (some size) (some items) =>
      .node rfl (List.forall_mem_append.mpr
        ⟨isCanonical_mapPost size, isCanonical_mapItems items⟩) rfl
  | .arrayInit items => .node rfl (isCanonical_mapItems items) rfl
  | .index target index =>
      .node rfl (List.forall_mem_append.mpr
        ⟨isCanonical_mapPost target, isCanonical_mapPost index⟩) rfl
  | .cast type operand => .node rfl (isCanonical_mapPost operand) rfl
  | .conditional test yes no =>
      .node rfl (List.forall_mem_append.mpr ⟨List.forall_mem_append.mpr
        ⟨isCanonical_mapPost test, isCanonical_mapPost yes⟩, isCanonical_mapPost no⟩) rfl
  | .lambda params (.expr e) span => .node rfl (isCanonical_mapPost e) rfl
  | .lambda _ (.block _) _ | .ident _ | .self | .literal _ | .base _ | .null _ | .query _
  | .typeTest _ _ _ _ | .typeOf _ _ | .sizeOf _ _ | .deref _ _ | .addressOf _ _ | .arrow _ _ _
  | .stackAlloc _ _ _ | .anonymous _ _ => List.forall_mem_singleton.mpr rfl

theorem isCanonical_mapArgs : (args : List (Arg Expr)) →
    ∀ x ∈ visitedArgs (mapArgs toOperator args), x.isOperatorCall = false
  | [] => fun _ hx => absurd hx List.not_mem_nil
  | ⟨_, e⟩ :: rest => by
      rw [mapArgs, visitedArgs]
      exact List.forall_mem_append.mpr ⟨isCanonical_mapPost e, isCanonical_mapArgs rest⟩

theorem isCanonical_mapItems : (items : List Expr) →
    ∀ x ∈ visitedItems (mapItems toOperator items), x.isOperatorCall = false
  | [] => fun _ hx => absurd hx List.not_mem_nil
  | e :: rest => by
      rw [mapItems, visitedItems]
      exact List.forall_mem_append.mpr ⟨isCanonical_mapPost e, isCanonical_mapItems rest⟩

end

namespace MethodBody

/-- No visited expression is a call of an operator method. -/
def IsCanonical (m : MethodBody) : Prop := ∀ e ∈ exprsOf m.body, e.IsCanonical

theorem isCanonical_withOperators (m : MethodBody) : m.withOperators.IsCanonical := by
  intro e he
  rw [withOperators, exprsOf_mapStmts] at he
  obtain ⟨e₀, -, rfl⟩ := List.mem_map.mp he
  exact isCanonical_mapPost e₀

theorem withOperators_of_isCanonical {m : MethodBody} (h : m.IsCanonical) :
    m.withOperators = m := by
  have hbody : mapStmts (Expr.mapPost toOperator) m.body = m.body := by
    apply mapStmts_of_fixed
    intro e he
    apply mapPost_of_fixed
    intro x hx
    exact toOperator_of_not_isOperatorCall (h e he x hx)
  rw [withOperators, hbody]

end MethodBody

end ShaderCompiler
