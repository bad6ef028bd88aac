import Mathlib.Tactic.Common
import ShaderCompiler.Normal.Form
import ShaderCompiler.Proofs.Position.Trees
import ShaderCompiler.Proofs.Tree.Visiting

namespace ShaderCompiler

section Maps

variable {f : Expr → Expr}

theorem CaseLabel.map_unplaced (hf : ∀ e, (f e).unplaced = f e.unplaced)
    (label : CaseLabel Expr) :
    (label.map f).map Expr.unplaced = (label.map Expr.unplaced).map f := by
  cases label with
  | value e => simp only [CaseLabel.map, hf]
  | default => rfl

mutual

theorem mapPost_unplaced (hf : ∀ e, (f e).unplaced = f e.unplaced) : (e : Expr) →
    (e.mapPost f).unplaced = e.unplaced.mapPost f
  | .assign op target value => by
      simp only [Expr.mapPost, Expr.unplaced, hf, mapPost_unplaced hf target,
        mapPost_unplaced hf value]
  | .binary op lhs rhs => by
      simp only [Expr.mapPost, Expr.unplaced, hf, mapPost_unplaced hf lhs, mapPost_unplaced hf rhs]
  | .unary op operand => by
      simp only [Expr.mapPost, Expr.unplaced, hf, mapPost_unplaced hf operand]
  | .call none name args => by
      simp only [Expr.mapPost, Expr.unplaced, unplacedExpr?, hf, mapArgs_unplaced hf args]
  | .call (some receiver) name args => by
      simp only [Expr.mapPost, Expr.unplaced, unplacedExpr?, hf, mapPost_unplaced hf receiver,
        mapArgs_unplaced hf args]
  | .member target name => by
      simp only [Expr.mapPost, Expr.unplaced, hf, mapPost_unplaced hf target]
  | .construct type args => by
      simp only [Expr.mapPost, Expr.unplaced, hf, mapArgs_unplaced hf args]
  | .newArray element none none => by
      simp only [Expr.mapPost, Expr.unplaced, unplacedExpr?, hf]
  | .newArray element (some size) none => by
      simp only [Expr.mapPost, Expr.unplaced, unplacedExpr?, hf, mapPost_unplaced hf size]
  | .newArray element none (some items) => by
      simp only [Expr.mapPost, Expr.unplaced, unplacedExpr?, hf, mapItems_unplaced hf items]
  | .newArray element (some size) (some items) => by
      simp only [Expr.mapPost, Expr.unplaced, unplacedExpr?, hf, mapPost_unplaced hf size,
        mapItems_unplaced hf items]
  | .arrayInit items => by simp only [Expr.mapPost, Expr.unplaced, hf, mapItems_unplaced hf items]
  | .index target index => by
      simp only [Expr.mapPost, Expr.unplaced, hf, mapPost_unplaced hf target,
        mapPost_unplaced hf index]
  | .cast type operand => by
      simp only [Expr.mapPost, Expr.unplaced, hf, mapPost_unplaced hf operand]
  | .conditional test yes no => by
      simp only [Expr.mapPost, Expr.unplaced, hf, mapPost_unplaced hf test, mapPost_unplaced hf yes,
        mapPost_unplaced hf no]
  | .lambda params (.expr e) span => by
      simp only [Expr.mapPost, Expr.unplaced, hf, mapPost_unplaced hf e]
  | .lambda _ (.block _) _ | .ident _ | .self | .literal _ | .base _ | .null _ | .query _
  | .typeTest _ _ _ _ | .typeOf _ _ | .sizeOf _ _ | .deref _ _ | .addressOf _ _ | .arrow _ _ _
  | .stackAlloc _ _ _ | .anonymous _ _ => hf _

theorem mapArgs_unplaced (hf : ∀ e, (f e).unplaced = f e.unplaced) : (args : List (Arg Expr)) →
    unplacedArgs (mapArgs f args) = mapArgs f (unplacedArgs args)
  | [] => rfl
  | ⟨label, e⟩ :: rest => by
      simp only [mapArgs, unplacedArgs, mapPost_unplaced hf e, mapArgs_unplaced hf rest]

theorem mapItems_unplaced (hf : ∀ e, (f e).unplaced = f e.unplaced) : (items : List Expr) →
    unplacedExprs (mapItems f items) = mapItems f (unplacedExprs items)
  | [] => rfl
  | e :: rest => by
      simp only [mapItems, unplacedExprs, mapPost_unplaced hf e, mapItems_unplaced hf rest]

end

mutual

theorem mapExprs_unplaced (hf : ∀ e, (f e).unplaced = f e.unplaced) : (s : Stmt) →
    (s.mapExprs f).unplaced = s.unplaced.mapExprs f
  | .block body => by simp only [Stmt.mapExprs, Stmt.unplaced, mapStmts_unplaced hf body]
  | .ifElse test yes none => by
      simp only [Stmt.mapExprs, Stmt.unplaced, unplacedStmt?, hf, mapExprs_unplaced hf yes]
  | .ifElse test yes (some no) => by
      simp only [Stmt.mapExprs, Stmt.unplaced, unplacedStmt?, hf, mapExprs_unplaced hf yes,
        mapExprs_unplaced hf no]
  | .whileLoop test body | .doWhile body test => by
      simp only [Stmt.mapExprs, Stmt.unplaced, hf, mapExprs_unplaced hf body]
  | .forLoop init test step body => by
      simp only [Stmt.mapExprs, Stmt.unplaced, mapStmts_unplaced hf init,
        mapExprs_unplaced hf body, unplacedExpr?_eq, unplacedExprs_eq, Option.map_map,
        List.map_map, Function.comp_def, hf]
  | .switch scrutinee sections => by
      simp only [Stmt.mapExprs, Stmt.unplaced, hf, mapSections_unplaced hf sections]
  | .ret value => by
      simp only [Stmt.mapExprs, Stmt.unplaced, unplacedExpr?_eq, Option.map_map,
        Function.comp_def, hf]
  | .declare isConst type ds => by
      simp only [Stmt.mapExprs, Stmt.unplaced, unplacedDeclarators_eq, List.map_map,
        Function.comp_def, Declarator.map, Option.map_map, hf]
  | .eval e => by simp only [Stmt.mapExprs, Stmt.unplaced, hf]
  | .empty | .brk | .cont | .discard | .tryCatch _ _ none _ | .tryCatch _ _ (some _) _
  | .throw _ _ | .foreach _ _ _ _ _ | .lock _ _ _ | .using _ _ _ | .goto (.label _) _
  | .goto (.value _) _ | .goto .default _ | .labeled _ _ _ | .yield _ _ | .unmanaged _ _
  | .fixed _ _ _ | .attributed _ _ _ => rfl

theorem mapStmts_unplaced (hf : ∀ e, (f e).unplaced = f e.unplaced) : (body : List Stmt) →
    unplacedStmts (mapStmts f body) = mapStmts f (unplacedStmts body)
  | [] => rfl
  | s :: rest => by
      simp only [mapStmts, unplacedStmts, mapExprs_unplaced hf s, mapStmts_unplaced hf rest]

theorem mapSections_unplaced (hf : ∀ e, (f e).unplaced = f e.unplaced) :
    (sections : List (SwitchSection Expr Stmt)) →
    unplacedSections (mapSections f sections) = mapSections f (unplacedSections sections)
  | [] => rfl
  | ⟨labels, body⟩ :: rest => by
      simp only [mapSections, unplacedSections, mapStmts_unplaced hf body,
        mapSections_unplaced hf rest, unplacedLabels_eq, List.map_map, Function.comp_def,
        CaseLabel.map_unplaced hf]

end

end Maps

theorem operatorForm?_unplaced (owner method : String) (args : List (Arg Expr)) :
    operatorForm? owner method (unplacedArgs args) =
      (operatorForm? owner method args).map Expr.unplaced := by
  by_cases h : Vocabulary.isBuiltin owner = true
  · match args with
    | [] | [⟨some _, _⟩] | [⟨some _, _⟩, _] | [⟨none, _⟩, ⟨some _, _⟩] | _ :: _ :: _ :: _ =>
        simp [operatorForm?, unplacedArgs]
    | [⟨none, operand⟩] => simp [operatorForm?, h, unplacedArgs, Function.comp_def]
    | [⟨none, lhs⟩, ⟨none, rhs⟩] => simp [operatorForm?, h, unplacedArgs, Function.comp_def]
  · simp [operatorForm?, h]

theorem toOperator_unplaced (e : Expr) : (toOperator e).unplaced = toOperator e.unplaced := by
  cases e with
  | call receiver name args =>
      cases receiver with
      | none => rfl
      | some r =>
          cases r with
          | ident owner =>
              simp only [toOperator, Expr.unplaced, unplacedExpr?, operatorForm?_unplaced]
              cases operatorForm? owner name args <;> rfl
          | newArray element size items => cases items <;> rfl
          | lambda params body span => cases body <;> rfl
          | _ => rfl
  | newArray element size items => cases items <;> rfl
  | lambda params body span => cases body <;> rfl
  | _ => rfl

theorem renameIdent_unplaced (r : Renaming) (e : Expr) :
    (renameIdent r e).unplaced = renameIdent r e.unplaced := by
  cases e with
  | ident name => simp [renameIdent]
  | newArray element size items => cases items <;> rfl
  | lambda params body span => cases body <;> rfl
  | _ => rfl

theorem renameExpr_unplaced (r : Renaming) (e : Expr) :
    (renameExpr r e).unplaced = renameExpr r e.unplaced :=
  mapPost_unplaced (renameIdent_unplaced r) e

mutual

theorem visited_unplaced : (e : Expr) → e.unplaced.visited = e.visited.map Expr.unplaced
  | .assign op target value => by
      simp only [Expr.unplaced, Expr.visited, visited_unplaced target, visited_unplaced value,
        List.map_append, List.map_cons, List.map_nil]
  | .binary op lhs rhs => by
      simp only [Expr.unplaced, Expr.visited, visited_unplaced lhs, visited_unplaced rhs,
        List.map_append, List.map_cons, List.map_nil]
  | .unary op operand => by
      simp only [Expr.unplaced, Expr.visited, visited_unplaced operand, List.map_append,
        List.map_cons, List.map_nil]
  | .call none name args => by
      simp only [Expr.unplaced, unplacedExpr?, Expr.visited, visitedArgs_unplaced args,
        List.map_append, List.map_cons, List.map_nil]
  | .call (some receiver) name args => by
      simp only [Expr.unplaced, unplacedExpr?, Expr.visited, visited_unplaced receiver,
        visitedArgs_unplaced args, List.map_append, List.map_cons, List.map_nil]
  | .member target name => by
      simp only [Expr.unplaced, Expr.visited, visited_unplaced target, List.map_append,
        List.map_cons, List.map_nil]
  | .construct type args => by
      simp only [Expr.unplaced, Expr.visited, visitedArgs_unplaced args, List.map_append,
        List.map_cons, List.map_nil]
  | .newArray element none none => rfl
  | .newArray element (some size) none => by
      simp only [Expr.unplaced, unplacedExpr?, Expr.visited, visited_unplaced size,
        List.map_append, List.map_cons, List.map_nil]
  | .newArray element none (some items) => by
      simp only [Expr.unplaced, unplacedExpr?, Expr.visited, visitedItems_unplaced items,
        List.map_append, List.map_cons, List.map_nil]
  | .newArray element (some size) (some items) => by
      simp only [Expr.unplaced, unplacedExpr?, Expr.visited, visited_unplaced size,
        visitedItems_unplaced items, List.map_append, List.map_cons, List.map_nil]
  | .arrayInit items => by
      simp only [Expr.unplaced, Expr.visited, visitedItems_unplaced items, List.map_append,
        List.map_cons, List.map_nil]
  | .index target index => by
      simp only [Expr.unplaced, Expr.visited, visited_unplaced target, visited_unplaced index,
        List.map_append, List.map_cons, List.map_nil]
  | .cast type operand => by
      simp only [Expr.unplaced, Expr.visited, visited_unplaced operand, List.map_append,
        List.map_cons, List.map_nil]
  | .conditional test yes no => by
      simp only [Expr.unplaced, Expr.visited, visited_unplaced test, visited_unplaced yes,
        visited_unplaced no, List.map_append, List.map_cons, List.map_nil]
  | .lambda params (.expr e) span => by
      simp only [Expr.unplaced, Expr.visited, visited_unplaced e, List.map_append,
        List.map_cons, List.map_nil]
  | .lambda _ (.block _) _ | .ident _ | .self | .literal _ | .base _ | .null _ | .query _
  | .typeTest _ _ _ _ | .typeOf _ _ | .sizeOf _ _ | .deref _ _ | .addressOf _ _ | .arrow _ _ _
  | .stackAlloc _ _ _ | .anonymous _ _ => rfl

theorem visitedArgs_unplaced : (args : List (Arg Expr)) →
    visitedArgs (unplacedArgs args) = (visitedArgs args).map Expr.unplaced
  | [] => rfl
  | ⟨label, e⟩ :: rest => by
      simp only [unplacedArgs, visitedArgs, visited_unplaced e, visitedArgs_unplaced rest,
        List.map_append]

theorem visitedItems_unplaced : (items : List Expr) →
    visitedItems (unplacedExprs items) = (visitedItems items).map Expr.unplaced
  | [] => rfl
  | e :: rest => by
      simp only [unplacedExprs, visitedItems, visited_unplaced e, visitedItems_unplaced rest,
        List.map_append]

end

mutual

theorem exprs_unplaced : (s : Stmt) → s.unplaced.exprs = s.exprs.map Expr.unplaced
  | .block body => by simp only [Stmt.unplaced, Stmt.exprs, exprsOf_unplaced body]
  | .ifElse test yes none => by
      simp only [Stmt.unplaced, unplacedStmt?, Stmt.exprs, exprs_unplaced yes, List.map_cons]
  | .ifElse test yes (some no) => by
      simp only [Stmt.unplaced, unplacedStmt?, Stmt.exprs, exprs_unplaced yes, exprs_unplaced no,
        List.map_append, List.map_cons]
  | .whileLoop test body | .doWhile body test => by
      simp only [Stmt.unplaced, Stmt.exprs, exprs_unplaced body, List.map_cons]
  | .forLoop init test step body => by
      simp only [Stmt.unplaced, Stmt.exprs, exprsOf_unplaced init, exprs_unplaced body,
        unplacedExpr?_eq, unplacedExprs_eq, Option.toList_map, List.map_append]
  | .switch scrutinee sections => by
      simp only [Stmt.unplaced, Stmt.exprs, exprsOfSections_unplaced sections, List.map_cons]
  | .ret value => by simp only [Stmt.unplaced, Stmt.exprs, unplacedExpr?_eq, Option.toList_map]
  | .declare _ _ ds => by
      simp only [Stmt.unplaced, Stmt.exprs, unplacedDeclarators_eq, filterMap_init_map]
  | .eval e => rfl
  | .empty | .brk | .cont | .discard | .tryCatch _ _ none _ | .tryCatch _ _ (some _) _
  | .throw _ _ | .foreach _ _ _ _ _ | .lock _ _ _ | .using _ _ _ | .goto (.label _) _
  | .goto (.value _) _ | .goto .default _ | .labeled _ _ _ | .yield _ _ | .unmanaged _ _
  | .fixed _ _ _ | .attributed _ _ _ => rfl

theorem exprsOf_unplaced : (body : List Stmt) →
    exprsOf (unplacedStmts body) = (exprsOf body).map Expr.unplaced
  | [] => rfl
  | s :: rest => by
      simp only [unplacedStmts, exprsOf, exprs_unplaced s, exprsOf_unplaced rest, List.map_append]

theorem exprsOfSections_unplaced : (sections : List (SwitchSection Expr Stmt)) →
    exprsOfSections (unplacedSections sections) = (exprsOfSections sections).map Expr.unplaced
  | [] => rfl
  | ⟨labels, body⟩ :: rest => by
      simp only [unplacedSections, exprsOfSections, unplacedLabels_eq, filterMap_value_map,
        exprsOf_unplaced body, exprsOfSections_unplaced rest, List.map_append]

end

mutual

theorem declared_unplaced : (s : Stmt) → s.unplaced.declared = s.declared
  | .block body => by simp only [Stmt.unplaced, Stmt.declared, declaredIn_unplaced body]
  | .ifElse _ yes none => by
      simp only [Stmt.unplaced, unplacedStmt?, Stmt.declared, declared_unplaced yes]
  | .ifElse _ yes (some no) => by
      simp only [Stmt.unplaced, unplacedStmt?, Stmt.declared, declared_unplaced yes,
        declared_unplaced no]
  | .whileLoop _ body | .doWhile body _ => by
      simp only [Stmt.unplaced, Stmt.declared, declared_unplaced body]
  | .forLoop init _ _ body => by
      simp only [Stmt.unplaced, Stmt.declared, declaredIn_unplaced init, declared_unplaced body]
  | .switch _ sections => by
      simp only [Stmt.unplaced, Stmt.declared, declaredInSections_unplaced sections]
  | .declare _ _ ds => by
      simp only [Stmt.unplaced, Stmt.declared, unplacedDeclarators_eq, List.map_map]
      rfl
  | .ret _ | .eval _ | .empty | .brk | .cont | .discard | .tryCatch _ _ none _
  | .tryCatch _ _ (some _) _ | .throw _ _ | .foreach _ _ _ _ _ | .lock _ _ _ | .using _ _ _
  | .goto (.label _) _ | .goto (.value _) _ | .goto .default _ | .labeled _ _ _ | .yield _ _
  | .unmanaged _ _ | .fixed _ _ _ | .attributed _ _ _ => rfl

theorem declaredIn_unplaced : (body : List Stmt) →
    declaredIn (unplacedStmts body) = declaredIn body
  | [] => rfl
  | s :: rest => by
      simp only [unplacedStmts, declaredIn, declared_unplaced s, declaredIn_unplaced rest]

theorem declaredInSections_unplaced : (sections : List (SwitchSection Expr Stmt)) →
    declaredInSections (unplacedSections sections) = declaredInSections sections
  | [] => rfl
  | ⟨labels, body⟩ :: rest => by
      simp only [unplacedSections, declaredInSections, declaredIn_unplaced body,
        declaredInSections_unplaced rest]

end

theorem renameDeclarators_unplaced (taken : List String) (r : Renaming)
    (ds : List (Declarator Expr)) :
    renameDeclarators taken r (unplacedDeclarators ds) =
      (unplacedDeclarators (renameDeclarators taken r ds).1, (renameDeclarators taken r ds).2) := by
  induction ds generalizing r with
  | nil => rfl
  | cons d ds ih =>
      simp only [unplacedDeclarators, renameDeclarators, ih, unplacedExpr?_eq, Option.map_map,
        Function.comp_def, renameExpr_unplaced]

mutual

theorem renameStmt_unplaced (taken : List String) (r : Renaming) : (s : Stmt) →
    renameStmt taken r s.unplaced =
      ((renameStmt taken r s).1.unplaced, (renameStmt taken r s).2)
  | .block body => by
      simp only [Stmt.unplaced, renameStmt, renameStmts_unplaced taken r body]
  | .ifElse test yes none => by
      simp only [Stmt.unplaced, unplacedStmt?, renameStmt, renameStmt_unplaced taken r yes,
        renameExpr_unplaced]
  | .ifElse test yes (some no) => by
      simp only [Stmt.unplaced, unplacedStmt?, renameStmt, renameStmt_unplaced taken _ yes,
        renameStmt_unplaced taken _ no, renameExpr_unplaced]
  | .whileLoop test body | .doWhile body test => by
      simp only [Stmt.unplaced, renameStmt, renameStmt_unplaced taken r body, renameExpr_unplaced]
  | .forLoop init test step body => by
      simp only [Stmt.unplaced, renameStmt, renameStmts_unplaced taken r init,
        renameStmt_unplaced taken _ body, unplacedExpr?_eq, unplacedExprs_eq, Option.map_map,
        List.map_map, Function.comp_def, renameExpr_unplaced]
  | .switch scrutinee sections => by
      simp only [Stmt.unplaced, renameStmt, renameSections_unplaced taken r sections,
        renameExpr_unplaced]
  | .ret value => by
      simp only [Stmt.unplaced, renameStmt, unplacedExpr?_eq, Option.map_map, Function.comp_def,
        renameExpr_unplaced]
  | .declare isConst type ds => by
      simp only [Stmt.unplaced, renameStmt, renameDeclarators_unplaced]
  | .eval e => by simp only [Stmt.unplaced, renameStmt, renameExpr_unplaced]
  | .empty | .brk | .cont | .discard | .tryCatch _ _ none _ | .tryCatch _ _ (some _) _
  | .throw _ _ | .foreach _ _ _ _ _ | .lock _ _ _ | .using _ _ _ | .goto (.label _) _
  | .goto (.value _) _ | .goto .default _ | .labeled _ _ _ | .yield _ _ | .unmanaged _ _
  | .fixed _ _ _ | .attributed _ _ _ => rfl

theorem renameStmts_unplaced (taken : List String) (r : Renaming) : (body : List Stmt) →
    renameStmts taken r (unplacedStmts body) =
      (unplacedStmts (renameStmts taken r body).1, (renameStmts taken r body).2)
  | [] => rfl
  | s :: rest => by
      simp only [unplacedStmts, renameStmts, renameStmt_unplaced taken r s,
        renameStmts_unplaced taken _ rest]

theorem renameSections_unplaced (taken : List String) (r : Renaming) :
    (sections : List (SwitchSection Expr Stmt)) →
    renameSections taken r (unplacedSections sections) =
      (unplacedSections (renameSections taken r sections).1, (renameSections taken r sections).2)
  | [] => rfl
  | ⟨labels, body⟩ :: rest => by
      simp only [unplacedSections, renameSections, renameStmts_unplaced taken r body,
        renameSections_unplaced taken _ rest, unplacedLabels_eq, List.map_map, Function.comp_def,
        CaseLabel.map_unplaced (renameExpr_unplaced r)]

end

theorem Expr.mention?_unplaced (e : Expr) : e.unplaced.mention? = e.mention? := by
  cases e with
  | call receiver name args => cases receiver <;> rfl
  | newArray element size items => cases items <;> rfl
  | lambda params body span => cases body <;> rfl
  | _ => rfl

namespace MethodBody

theorem withOperators_unplaced (m : MethodBody) :
    m.unplaced.withOperators = m.withOperators.unplaced := by
  simp only [withOperators, unplaced, ← unplacedStmts_eq,
    mapStmts_unplaced (mapPost_unplaced toOperator_unplaced)]

theorem taken_unplaced (m : MethodBody) : m.unplaced.taken = m.taken := by
  have hmentions : m.unplaced.mentions = m.mentions := by
    simp only [mentions, unplaced, ← unplacedStmts_eq, exprsOf_unplaced, List.flatMap_map,
      visited_unplaced, List.filterMap_map, Function.comp_def, Expr.mention?_unplaced]
  have hdeclared : m.unplaced.declared = m.declared := by
    simp only [declared, unplaced, ← unplacedStmts_eq, declaredIn_unplaced]
  rw [taken, taken, hmentions, hdeclared, unplaced, List.map_map]
  rfl

theorem withLocals_unplaced (m : MethodBody) : m.unplaced.withLocals = m.withLocals.unplaced := by
  have hinitial : m.unplaced.initialRenaming = m.initialRenaming := by
    simp only [initialRenaming, unplaced, List.map_map]
    rfl
  rw [withLocals, withLocals, taken_unplaced, hinitial]
  simp only [unplaced, ← unplacedStmts_eq, renameStmts_unplaced]

theorem normalize_unplaced (m : MethodBody) : m.unplaced.normalize = m.normalize.unplaced := by
  rw [normalize, normalize, withOperators_unplaced, withLocals_unplaced]

end MethodBody

end ShaderCompiler
