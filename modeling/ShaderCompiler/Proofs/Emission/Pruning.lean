import ShaderCompiler.Proofs.Emission.Receivers
import ShaderCompiler.Proofs.Emission.Rejections

namespace ShaderCompiler

abbrev prunedArgs : List (Arg Expr) → List (Arg Expr) := mapArgs Expr.prunedNode

abbrev prunedItems : List Expr → List Expr := mapItems Expr.prunedNode

namespace Expr

@[simp] theorem pruned_assign (op : AssignOp) (t v : Expr) :
    (assign op t v).pruned = .assign op t.pruned v.pruned := rfl

@[simp] theorem pruned_binary (op : BinaryOp) (l r : Expr) :
    (binary op l r).pruned = .binary op l.pruned r.pruned := rfl

@[simp] theorem pruned_unary (op : UnaryOp) (o : Expr) :
    (unary op o).pruned = .unary op o.pruned := rfl

@[simp] theorem pruned_call (receiver : Option Expr) (name : String) (args : List (Arg Expr)) :
    (call receiver name args).pruned = .call (receiver.map pruned) name (prunedArgs args) := by
  cases receiver <;> rfl

@[simp] theorem pruned_member (t : Expr) (name : String) :
    (member t name).pruned = .member t.pruned name := rfl

@[simp] theorem pruned_construct (type : TypeRef) (args : List (Arg Expr)) :
    (construct type args).pruned = .construct type.pruned (prunedArgs args) := rfl

@[simp] theorem pruned_newArray_items (element : TypeRef) (size : Option Expr)
    (items : List Expr) : (newArray element size (some items)).pruned =
      .newArray element.pruned none (some (prunedItems items)) := by
  cases size <;> rfl

@[simp] theorem pruned_newArray_none (element : TypeRef) (size : Option Expr) :
    (newArray element size none).pruned = .newArray element.pruned (size.map pruned) none := by
  cases size <;> rfl

@[simp] theorem pruned_arrayInit (items : List Expr) :
    (arrayInit items).pruned = .arrayInit (prunedItems items) := rfl

@[simp] theorem pruned_index (t i : Expr) : (index t i).pruned = .index t.pruned i.pruned := rfl

@[simp] theorem pruned_cast (type : TypeRef) (o : Expr) :
    (cast type o).pruned = .cast type o.pruned := rfl

@[simp] theorem pruned_conditional (c a b : Expr) :
    (conditional c a b).pruned = .conditional c.pruned a.pruned b.pruned := rfl

@[simp] theorem pruned_lambda_expr (params : List String) (e : Expr) (span : Span) :
    (lambda params (.expr e) span).pruned = .lambda params (.expr e.pruned) span := rfl

theorem keepsLeaves_pruned : KeepsLeaves pruned := by
  intro e leaf h
  constructor
  · rintro rfl
    cases e with
    | newArray element size items => cases items <;> simp [isLeaf] at h
    | lambda params body span =>
        cases body with
        | expr e => simp [isLeaf] at h
        | block body => cases h
    | assign | binary | unary | call | member | construct | arrayInit | index | cast
    | conditional => simp [isLeaf] at h
    | _ => rfl
  · rintro rfl
    cases e <;> first | rfl | cases h

end Expr

@[simp] theorem prunedArgs_nil : prunedArgs [] = [] := rfl

@[simp] theorem prunedArgs_cons (a : Arg Expr) (args : List (Arg Expr)) :
    prunedArgs (a :: args) = ⟨a.label, a.value.pruned⟩ :: prunedArgs args := rfl

@[simp] theorem prunedItems_nil : prunedItems [] = [] := rfl

@[simp] theorem prunedItems_cons (e : Expr) (items : List Expr) :
    prunedItems (e :: items) = e.pruned :: prunedItems items := rfl

theorem prunedArgs_eq_map (args : List (Arg Expr)) :
    prunedArgs args = args.map fun a => ⟨a.label, a.value.pruned⟩ := by
  induction args with
  | nil => rfl
  | cons a args ih => rw [prunedArgs_cons, ih, List.map_cons]

theorem prunedItems_eq_map (items : List Expr) : prunedItems items = items.map Expr.pruned := by
  induction items with
  | nil => rfl
  | cons e items ih => rw [prunedItems_cons, ih, List.map_cons]

@[simp] theorem length_prunedItems (items : List Expr) :
    (prunedItems items).length = items.length := by
  rw [prunedItems_eq_map, List.length_map]

@[simp] theorem hasLabel_prunedArgs (args : List (Arg Expr)) :
    hasLabel (prunedArgs args) = hasLabel args := by
  rw [prunedArgs_eq_map]
  exact hasLabel_mapValues Expr.pruned args

mutual

theorem infer_pruned (env : TypeEnv) : (e : Expr) → infer env e.pruned = infer env e
  | .assign _ target _ => by simp only [Expr.pruned_assign, infer, infer_pruned env target]
  | .binary _ lhs rhs => by
      simp only [Expr.pruned_binary, infer, infer_pruned env lhs, infer_pruned env rhs]
  | .unary _ operand => by simp only [Expr.pruned_unary, infer, infer_pruned env operand]
  | .call none name args => by
      simp only [Expr.pruned_call, Option.map_none, infer, inferArgs_pruned env args]
  | .call (some receiver) name args => by
      by_cases h : receiver = .self
      · subst h
        rw [Expr.pruned_call, Option.map_some, (Expr.keepsLeaves_pruned rfl).mpr rfl, infer, infer,
          inferArgs_pruned env args]
      · rw [Expr.pruned_call, Option.map_some, infer_call_receiver h,
          infer_call_receiver (Expr.keepsLeaves_pruned.ne_self h)]
  | .member target name => by
      by_cases h : target = .self
      · subst h
        rfl
      · rw [Expr.pruned_member, infer_member h, infer_member (Expr.keepsLeaves_pruned.ne_self h),
          infer_pruned env target]
  | .construct type args => by
      rw [Expr.pruned_construct, infer, infer]
      rfl
  | .newArray element size none => by
      rw [Expr.pruned_newArray_none, infer, infer]
      rfl
  | .newArray element size (some items) => by
      rw [Expr.pruned_newArray_items, infer, infer]
      rfl
  | .arrayInit items => by rw [Expr.pruned_arrayInit, infer, infer] <;> exact nofun
  | .index target _ => by simp only [Expr.pruned_index, infer, infer_pruned env target]
  | .cast type operand => by rw [Expr.pruned_cast, infer, infer]
  | .conditional _ yes no => by
      simp only [Expr.pruned_conditional, infer, infer_pruned env yes, infer_pruned env no]
  | .lambda params (.expr e) span => by
      rw [Expr.pruned_lambda_expr, infer, infer] <;> exact nofun
  | .lambda _ (.block _) _ | .ident _ | .self | .literal _ | .base _ | .null _ | .query _
  | .typeTest _ _ _ _ | .typeOf _ _ | .sizeOf _ _ | .deref _ _ | .addressOf _ _ | .arrow _ _ _
  | .stackAlloc _ _ _ | .anonymous _ _ => rfl

theorem inferArgs_pruned (env : TypeEnv) : (args : List (Arg Expr)) →
    inferArgs env (prunedArgs args) = inferArgs env args
  | [] => rfl
  | ⟨label, e⟩ :: rest => by
      rw [prunedArgs_cons, inferArgs, inferArgs, infer_pruned env e, inferArgs_pruned env rest]

end

end ShaderCompiler
