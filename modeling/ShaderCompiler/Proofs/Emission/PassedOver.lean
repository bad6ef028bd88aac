import Mathlib.Tactic.Tauto
import ShaderCompiler.Proofs.Emission.PrunedText
import ShaderCompiler.Proofs.Tree.Visiting

namespace ShaderCompiler

theorem droppedNode_verbatim (ctx : ClassContext) {receiver : Option Expr} {name : String}
    {args : List (Arg Expr)} (h : isVerbatimCall ctx receiver name args = true) :
    (visitedArgs args).flatMap (Expr.droppedNode ctx) = [] := by
  obtain ⟨label, text, rfl⟩ := exists_of_isVerbatimCall h
  rfl

theorem callArgs_rejections_iff (ctx : ClassContext) {args : List (Arg Expr)}
    (h : rejectionsOfArgs ctx args = [] ↔ rejectionsOfArgs ctx (prunedArgs args) = [] ∧
      (visitedArgs args).flatMap (Expr.droppedNode ctx) = []) (receiver : Option Expr)
    (name : String) :
    (if isVerbatimCall ctx receiver name args then [] else rejectionsOfArgs ctx args) = [] ↔
      (if isVerbatimCall ctx (receiver.map Expr.pruned) name (prunedArgs args) then []
        else rejectionsOfArgs ctx (prunedArgs args)) = [] ∧
      (visitedArgs args).flatMap (Expr.droppedNode ctx) = [] := by
  rw [isVerbatimCall_pruned]
  by_cases hv : isVerbatimCall ctx receiver name args = true
  · simp [hv, droppedNode_verbatim ctx hv]
  · simpa [hv] using h

theorem labelRejections_prunedArgs (args : List (Arg Expr)) :
    labelRejections (prunedArgs args) = labelRejections args := by
  rw [labelRejections, labelRejections, hasLabel_prunedArgs]

mutual

theorem rejections_eq_nil_iff (ctx : ClassContext) : (e : Expr) →
    (e.rejections ctx = [] ↔ e.pruned.rejections ctx = [] ∧ e.passedOver ctx = [])
  | .assign op target value => by
      simp only [Expr.pruned_assign, Expr.passedOver, Expr.rejections, Expr.visited,
        List.append_eq_nil_iff, List.flatMap_append, List.flatMap_singleton, Expr.droppedNode,
        rejections_eq_nil_iff ctx target, rejections_eq_nil_iff ctx value]
      tauto
  | .binary op lhs rhs => by
      simp only [Expr.pruned_binary, Expr.passedOver, Expr.rejections, Expr.visited,
        List.append_eq_nil_iff, List.flatMap_append, List.flatMap_singleton, Expr.droppedNode,
        rejections_eq_nil_iff ctx lhs, rejections_eq_nil_iff ctx rhs]
      tauto
  | .unary op operand => by
      simp only [Expr.pruned_unary, Expr.passedOver, Expr.rejections, Expr.visited,
        List.append_eq_nil_iff, List.flatMap_append, List.flatMap_singleton, Expr.droppedNode,
        rejections_eq_nil_iff ctx operand]
      tauto
  | .call none name args => by
      simp only [Expr.pruned_call, Expr.passedOver, Option.map_none, Expr.rejections, Expr.visited,
        List.append_eq_nil_iff, List.flatMap_append, List.flatMap_singleton, Expr.droppedNode,
        labelRejections_prunedArgs,
        callArgs_rejections_iff ctx (rejectionsOfArgs_eq_nil_iff ctx args)]
      tauto
  | .call (some receiver) name args => by
      simp only [Expr.pruned_call, Expr.passedOver, Option.map_some, Expr.rejections, Expr.visited,
        List.append_eq_nil_iff, List.flatMap_append, List.flatMap_singleton, Expr.droppedNode,
        labelRejections_prunedArgs, rejections_eq_nil_iff ctx receiver,
        callArgs_rejections_iff ctx (rejectionsOfArgs_eq_nil_iff ctx args)]
      tauto
  | .member target name => by
      simp only [Expr.pruned_member, Expr.passedOver, Expr.rejections, Expr.visited,
        List.append_eq_nil_iff, List.flatMap_append, List.flatMap_singleton, Expr.droppedNode,
        rejections_eq_nil_iff ctx target]
      tauto
  | .construct type args => by
      simp only [Expr.pruned_construct, Expr.passedOver, Expr.rejections, Expr.visited,
        List.append_eq_nil_iff, List.flatMap_append, List.flatMap_singleton, Expr.droppedNode,
        labelRejections_prunedArgs, rejectionsOfArgs_eq_nil_iff ctx args]
      have htype : type.pruned.rejections = [] := rfl
      tauto
  | .newArray element none none => by
      have htype : element.pruned.rejections = [] := rfl
      simp only [Expr.pruned_newArray_none, Expr.passedOver, Option.map_none, Expr.rejections,
        Expr.visited, List.flatMap_singleton, Expr.droppedNode, htype]
      tauto
  | .newArray element (some size) none => by
      have htype : element.pruned.rejections = [] := rfl
      simp only [Expr.pruned_newArray_none, Expr.passedOver, Option.map_some, Expr.rejections,
        Expr.visited, List.append_eq_nil_iff, List.flatMap_append, List.flatMap_singleton,
        Expr.droppedNode, htype, rejections_eq_nil_iff ctx size]
      tauto
  | .newArray element none (some items) => by
      have htype : element.pruned.rejections = [] := rfl
      simp only [Expr.pruned_newArray_items, Expr.passedOver, Expr.rejections, Expr.visited,
        List.append_eq_nil_iff, List.flatMap_append, List.flatMap_singleton, Expr.droppedNode,
        htype, rejectionsOfItems_eq_nil_iff ctx items]
      tauto
  | .newArray element (some size) (some items) => by
      have htype : element.pruned.rejections = [] := rfl
      simp only [Expr.pruned_newArray_items, Expr.passedOver, Expr.rejections, Expr.visited,
        List.append_eq_nil_iff, List.flatMap_append, List.flatMap_singleton, Expr.droppedNode,
        htype, rejections_eq_nil_iff ctx size, rejectionsOfItems_eq_nil_iff ctx items]
      tauto
  | .arrayInit items => by
      simp only [Expr.pruned_arrayInit, Expr.passedOver, Expr.rejections, Expr.visited,
        List.append_eq_nil_iff, List.flatMap_append, List.flatMap_singleton, Expr.droppedNode,
        rejectionsOfItems_eq_nil_iff ctx items]
      tauto
  | .index target index => by
      simp only [Expr.pruned_index, Expr.passedOver, Expr.rejections, Expr.visited,
        List.append_eq_nil_iff, List.flatMap_append, List.flatMap_singleton, Expr.droppedNode,
        rejections_eq_nil_iff ctx target, rejections_eq_nil_iff ctx index]
      tauto
  | .cast type operand => by
      simp only [Expr.pruned_cast, Expr.passedOver, Expr.rejections, Expr.visited,
        List.append_eq_nil_iff, List.flatMap_append, List.flatMap_singleton, Expr.droppedNode,
        rejections_eq_nil_iff ctx operand]
      tauto
  | .conditional test yes no => by
      simp only [Expr.pruned_conditional, Expr.passedOver, Expr.rejections, Expr.visited,
        List.append_eq_nil_iff, List.flatMap_append, List.flatMap_singleton, Expr.droppedNode,
        rejections_eq_nil_iff ctx test, rejections_eq_nil_iff ctx yes, rejections_eq_nil_iff ctx no]
      tauto
  | .lambda params (.expr e) span => by simp [Expr.rejections]
  | .literal (.str _) | .lambda _ (.block _) _ | .base _ | .null _ | .query _
  | .typeTest _ _ _ _ | .typeOf _ _ | .sizeOf _ _ | .deref _ _ | .addressOf _ _ | .arrow _ _ _
  | .stackAlloc _ _ _ | .anonymous _ _ => iff_of_false nofun (nofun ∘ And.left)
  | .literal (.bool _) | .literal (.int _) | .literal (.uint _) | .literal (.float _)
  | .literal (.double _) | .ident _ | .self => iff_of_true rfl ⟨rfl, rfl⟩

theorem rejectionsOfArgs_eq_nil_iff (ctx : ClassContext) : (args : List (Arg Expr)) →
    (rejectionsOfArgs ctx args = [] ↔ rejectionsOfArgs ctx (prunedArgs args) = [] ∧
      (visitedArgs args).flatMap (Expr.droppedNode ctx) = [])
  | [] => iff_of_true rfl ⟨rfl, rfl⟩
  | ⟨label, e⟩ :: rest => by
      simp only [prunedArgs_cons, Expr.passedOver, rejectionsOfArgs, visitedArgs,
        List.append_eq_nil_iff, List.flatMap_append, rejections_eq_nil_iff ctx e,
        rejectionsOfArgs_eq_nil_iff ctx rest]
      tauto

theorem rejectionsOfItems_eq_nil_iff (ctx : ClassContext) : (items : List Expr) →
    (rejectionsOfItems ctx items = [] ↔ rejectionsOfItems ctx (prunedItems items) = [] ∧
      (visitedItems items).flatMap (Expr.droppedNode ctx) = [])
  | [] => iff_of_true rfl ⟨rfl, rfl⟩
  | e :: rest => by
      simp only [prunedItems_cons, Expr.passedOver, rejectionsOfItems, visitedItems,
        List.append_eq_nil_iff, List.flatMap_append, rejections_eq_nil_iff ctx e,
        rejectionsOfItems_eq_nil_iff ctx rest]
      tauto

end

theorem flatMap_rejections_eq_nil_iff (ctx : ClassContext) (es : List Expr) :
    es.flatMap (Expr.rejections ctx) = [] ↔
      (es.map Expr.pruned).flatMap (Expr.rejections ctx) = [] ∧
        es.flatMap (Expr.passedOver ctx) = [] := by
  simp only [List.flatMap_eq_nil_iff, List.forall_mem_map, ← forall_and]
  exact forall_congr' fun e => by rw [rejections_eq_nil_iff ctx e, imp_and]

theorem rejectionsOfItems_eq_flatMap (ctx : ClassContext) (items : List Expr) :
    rejectionsOfItems ctx items = items.flatMap (Expr.rejections ctx) := by
  induction items with
  | nil => rfl
  | cons e items ih => rw [rejectionsOfItems, ih, List.flatMap_cons]

mutual

theorem rejections_stmt_iff (ctx : ClassContext) : (s : Stmt) →
    (s.rejections ctx = [] ↔ (s.mapExprs Expr.pruned).rejections ctx = [] ∧
      s.exprs.flatMap (Expr.passedOver ctx) = [])
  | .block body => by
      simp only [Stmt.mapExprs, Stmt.rejections, Stmt.exprs, rejectionsIn_eq_nil_iff ctx body]
  | .ifElse test yes none => by
      simp only [Stmt.mapExprs, Stmt.rejections, Stmt.exprs, List.append_eq_nil_iff,
        List.flatMap_cons, rejections_eq_nil_iff ctx test, rejections_stmt_iff ctx yes]
      tauto
  | .ifElse test yes (some no) => by
      simp only [Stmt.mapExprs, Stmt.rejections, Stmt.exprs, List.append_eq_nil_iff,
        List.flatMap_append, List.flatMap_cons, rejections_eq_nil_iff ctx test,
        rejections_stmt_iff ctx yes, rejections_stmt_iff ctx no]
      tauto
  | .whileLoop test body => by
      simp only [Stmt.mapExprs, Stmt.rejections, Stmt.exprs, List.append_eq_nil_iff,
        List.flatMap_cons, rejections_eq_nil_iff ctx test, rejections_stmt_iff ctx body]
      tauto
  | .doWhile body test => by
      simp only [Stmt.mapExprs, Stmt.rejections, Stmt.exprs, List.append_eq_nil_iff,
        List.flatMap_cons, rejections_eq_nil_iff ctx test, rejections_stmt_iff ctx body]
      tauto
  | .forLoop init test step body => by
      simp only [Stmt.mapExprs, Stmt.rejections, Stmt.exprs, List.append_eq_nil_iff,
        List.flatMap_append, rejectionsOfItems_eq_flatMap, Option.toList_map,
        flatMap_rejections_eq_nil_iff ctx test.toList, flatMap_rejections_eq_nil_iff ctx step,
        rejectionsIn_eq_nil_iff ctx init, rejections_stmt_iff ctx body]
      tauto
  | .switch scrutinee sections => by
      simp only [Stmt.mapExprs, Stmt.rejections, Stmt.exprs, List.append_eq_nil_iff,
        List.flatMap_cons, rejections_eq_nil_iff ctx scrutinee,
        rejectionsInSections_eq_nil_iff ctx sections]
      tauto
  | .ret value => by
      rw [Stmt.mapExprs, Stmt.rejections, Stmt.rejections, Stmt.exprs, Option.toList_map]
      exact flatMap_rejections_eq_nil_iff ctx value.toList
  | .declare isConst type ds => by
      simp only [Stmt.mapExprs, Stmt.rejections, Stmt.exprs, List.append_eq_nil_iff,
        rejectionsOfDeclarators, filterMap_init_map,
        flatMap_rejections_eq_nil_iff ctx (ds.filterMap (·.init))]
      tauto
  | .eval e => by
      simp only [Stmt.mapExprs, Stmt.rejections, Stmt.exprs, List.flatMap_singleton,
        rejections_eq_nil_iff ctx e]
  | .empty | .brk | .cont | .discard => iff_of_true rfl ⟨rfl, rfl⟩
  | .tryCatch _ _ _ _ | .throw _ _ | .foreach _ _ _ _ _ | .lock _ _ _ | .using _ _ _
  | .goto _ _ | .labeled _ _ _ | .yield _ _ | .unmanaged _ _ | .fixed _ _ _
  | .attributed _ _ _ => iff_of_false nofun (nofun ∘ And.left)

theorem rejectionsIn_eq_nil_iff (ctx : ClassContext) : (body : List Stmt) →
    (rejectionsIn ctx body = [] ↔ rejectionsIn ctx (mapStmts Expr.pruned body) = [] ∧
      (exprsOf body).flatMap (Expr.passedOver ctx) = [])
  | [] => iff_of_true rfl ⟨rfl, rfl⟩
  | s :: rest => by
      simp only [mapStmts, rejectionsIn, exprsOf, List.append_eq_nil_iff, List.flatMap_append,
        rejections_stmt_iff ctx s, rejectionsIn_eq_nil_iff ctx rest]
      tauto

theorem rejectionsInSections_eq_nil_iff (ctx : ClassContext) :
    (sections : List (SwitchSection Expr Stmt)) →
    (rejectionsInSections ctx sections = [] ↔
      rejectionsInSections ctx (mapSections Expr.pruned sections) = [] ∧
        (exprsOfSections sections).flatMap (Expr.passedOver ctx) = [])
  | [] => iff_of_true rfl ⟨rfl, rfl⟩
  | ⟨labels, body⟩ :: rest => by
      simp only [mapSections, rejectionsInSections, exprsOfSections, List.append_eq_nil_iff,
        List.flatMap_append, filterMap_value_map,
        flatMap_rejections_eq_nil_iff ctx (labels.filterMap CaseLabel.value?),
        rejectionsIn_eq_nil_iff ctx body, rejectionsInSections_eq_nil_iff ctx rest]
      tauto

end

theorem MethodBody.rejections_eq_nil_iff (ctx : ClassContext) (m : MethodBody) :
    m.rejections ctx = [] ↔ m.pruned.rejections ctx = [] ∧ m.passedOver ctx = [] := by
  simp only [rejections, pruned, passedOver, List.append_eq_nil_iff,
    rejectionsIn_eq_nil_iff ctx m.body]
  tauto

end ShaderCompiler
