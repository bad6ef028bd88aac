import Mathlib.Tactic.Common
import ShaderCompiler.Tree.Visit

namespace ShaderCompiler

section

variable {f : Expr → Expr}

mutual

theorem mapPost_of_fixed : (e : Expr) → (∀ x ∈ e.visited, f x = x) → e.mapPost f = e
  | .assign op target value, h => by
      simp only [Expr.visited, List.forall_mem_append, List.forall_mem_singleton] at h
      rw [Expr.mapPost, mapPost_of_fixed target h.1.1, mapPost_of_fixed value h.1.2, h.2]
  | .binary op lhs rhs, h => by
      simp only [Expr.visited, List.forall_mem_append, List.forall_mem_singleton] at h
      rw [Expr.mapPost, mapPost_of_fixed lhs h.1.1, mapPost_of_fixed rhs h.1.2, h.2]
  | .unary op operand, h => by
      simp only [Expr.visited, List.forall_mem_append, List.forall_mem_singleton] at h
      rw [Expr.mapPost, mapPost_of_fixed operand h.1, h.2]
  | .call none name args, h => by
      simp only [Expr.visited, List.forall_mem_append, List.forall_mem_singleton] at h
      rw [Expr.mapPost, mapArgs_of_fixed args h.1, h.2]
  | .call (some receiver) name args, h => by
      simp only [Expr.visited, List.forall_mem_append, List.forall_mem_singleton] at h
      rw [Expr.mapPost, mapPost_of_fixed receiver h.1.1, mapArgs_of_fixed args h.1.2, h.2]
  | .member target name, h => by
      simp only [Expr.visited, List.forall_mem_append, List.forall_mem_singleton] at h
      rw [Expr.mapPost, mapPost_of_fixed target h.1, h.2]
  | .construct type args, h => by
      simp only [Expr.visited, List.forall_mem_append, List.forall_mem_singleton] at h
      rw [Expr.mapPost, mapArgs_of_fixed args h.1, h.2]
  | .newArray element none none, h => by
      simp only [Expr.visited, List.forall_mem_singleton] at h
      rw [Expr.mapPost, h]
  | .newArray element (some size) none, h => by
      simp only [Expr.visited, List.forall_mem_append, List.forall_mem_singleton] at h
      rw [Expr.mapPost, mapPost_of_fixed size h.1, h.2]
  | .newArray element none (some items), h => by
      simp only [Expr.visited, List.forall_mem_append, List.forall_mem_singleton] at h
      rw [Expr.mapPost, mapItems_of_fixed items h.1, h.2]
  | .newArray element (some size) (some items), h => by
      simp only [Expr.visited, List.forall_mem_append, List.forall_mem_singleton] at h
      rw [Expr.mapPost, mapPost_of_fixed size h.1.1, mapItems_of_fixed items h.1.2, h.2]
  | .arrayInit items, h => by
      simp only [Expr.visited, List.forall_mem_append, List.forall_mem_singleton] at h
      rw [Expr.mapPost, mapItems_of_fixed items h.1, h.2]
  | .index target index, h => by
      simp only [Expr.visited, List.forall_mem_append, List.forall_mem_singleton] at h
      rw [Expr.mapPost, mapPost_of_fixed target h.1.1, mapPost_of_fixed index h.1.2, h.2]
  | .cast type operand, h => by
      simp only [Expr.visited, List.forall_mem_append, List.forall_mem_singleton] at h
      rw [Expr.mapPost, mapPost_of_fixed operand h.1, h.2]
  | .conditional test yes no, h => by
      simp only [Expr.visited, List.forall_mem_append, List.forall_mem_singleton] at h
      rw [Expr.mapPost, mapPost_of_fixed test h.1.1.1, mapPost_of_fixed yes h.1.1.2,
        mapPost_of_fixed no h.1.2, h.2]
  | .lambda params (.expr e) span, h => by
      simp only [Expr.visited, List.forall_mem_append, List.forall_mem_singleton] at h
      rw [Expr.mapPost, mapPost_of_fixed e h.1, h.2]
  | .lambda _ (.block _) _, h | .ident _, h | .self, h | .literal _, h | .base _, h | .null _, h
  | .query _, h | .typeTest _ _ _ _, h | .typeOf _ _, h | .sizeOf _ _, h | .deref _ _, h
  | .addressOf _ _, h | .arrow _ _ _, h | .stackAlloc _ _ _, h | .anonymous _ _, h =>
      h _ (List.mem_singleton_self _)

theorem mapArgs_of_fixed : (args : List (Arg Expr)) → (∀ x ∈ visitedArgs args, f x = x) →
    mapArgs f args = args
  | [], _ => rfl
  | ⟨label, e⟩ :: rest, h => by
      simp only [visitedArgs, List.forall_mem_append] at h
      rw [mapArgs, mapPost_of_fixed e h.1, mapArgs_of_fixed rest h.2]

theorem mapItems_of_fixed : (items : List Expr) → (∀ x ∈ visitedItems items, f x = x) →
    mapItems f items = items
  | [], _ => rfl
  | e :: rest, h => by
      simp only [visitedItems, List.forall_mem_append] at h
      rw [mapItems, mapPost_of_fixed e h.1, mapItems_of_fixed rest h.2]

end

theorem mapArgs_eq_map (f : Expr → Expr) (args : List (Arg Expr)) :
    mapArgs f args = args.map fun a => ⟨a.label, a.value.mapPost f⟩ := by
  induction args with
  | nil => rfl
  | cons a args ih => rw [mapArgs, ih, List.map_cons]

theorem filterMap_init_map (f : Expr → Expr) (ds : List (Declarator Expr)) :
    (ds.map (Declarator.map f)).filterMap (·.init) = (ds.filterMap (·.init)).map f := by
  rw [List.filterMap_map, List.map_filterMap]
  rfl

theorem filterMap_value_map (f : Expr → Expr) (labels : List (CaseLabel Expr)) :
    (labels.map (CaseLabel.map f)).filterMap CaseLabel.value? =
      (labels.filterMap CaseLabel.value?).map f := by
  rw [List.filterMap_map, List.map_filterMap]
  congr 1
  funext label
  cases label <;> rfl

mutual

theorem exprs_mapExprs (f : Expr → Expr) : (s : Stmt) → (s.mapExprs f).exprs = s.exprs.map f
  | .block body => exprsOf_mapStmts f body
  | .ifElse test yes none => by
      simp only [Stmt.mapExprs, Stmt.exprs, exprs_mapExprs f yes, List.map_cons]
  | .ifElse test yes (some no) => by
      simp only [Stmt.mapExprs, Stmt.exprs, exprs_mapExprs f yes, exprs_mapExprs f no,
        List.map_append, List.map_cons]
  | .whileLoop test body | .doWhile body test => by
      simp only [Stmt.mapExprs, Stmt.exprs, exprs_mapExprs f body, List.map_cons]
  | .forLoop init test step body => by
      simp only [Stmt.mapExprs, Stmt.exprs, exprsOf_mapStmts f init, exprs_mapExprs f body,
        Option.toList_map, List.map_append]
  | .switch scrutinee sections => by
      simp only [Stmt.mapExprs, Stmt.exprs, exprsOfSections_map f sections, List.map_cons]
  | .ret value => Option.toList_map
  | .declare _ _ declarators => filterMap_init_map f declarators
  | .eval e => rfl
  | .empty | .brk | .cont | .discard | .tryCatch _ _ _ _ | .throw _ _ | .foreach _ _ _ _ _
  | .lock _ _ _ | .using _ _ _ | .goto _ _ | .labeled _ _ _ | .yield _ _ | .unmanaged _ _
  | .fixed _ _ _ | .attributed _ _ _ => rfl

theorem exprsOf_mapStmts (f : Expr → Expr) : (body : List Stmt) →
    exprsOf (mapStmts f body) = (exprsOf body).map f
  | [] => rfl
  | s :: rest => by
      simp only [mapStmts, exprsOf, exprs_mapExprs f s, exprsOf_mapStmts f rest, List.map_append]

theorem exprsOfSections_map (f : Expr → Expr) : (sections : List (SwitchSection Expr Stmt)) →
    exprsOfSections (mapSections f sections) = (exprsOfSections sections).map f
  | [] => rfl
  | ⟨labels, body⟩ :: rest => by
      simp only [mapSections, exprsOfSections, filterMap_value_map, exprsOf_mapStmts f body,
        exprsOfSections_map f rest, List.map_append]

end

theorem option_map_of_fixed {e : Option Expr} (h : ∀ x ∈ e.toList, f x = x) : e.map f = e := by
  cases e with
  | none => rfl
  | some e => rw [Option.map_some, h e (List.mem_singleton_self e)]

theorem list_map_of_fixed {α : Type} {g : α → α} {l : List α} (h : ∀ x ∈ l, g x = x) :
    l.map g = l := by
  rw [List.map_congr_left h, List.map_id']

theorem declarators_map_of_fixed {ds : List (Declarator Expr)}
    (h : ∀ x ∈ ds.filterMap (·.init), f x = x) : ds.map (Declarator.map f) = ds := by
  apply list_map_of_fixed
  intro d hd
  have hinit : d.init.map f = d.init := by
    apply option_map_of_fixed
    intro x hx
    exact h x (List.mem_filterMap.mpr ⟨d, hd, Option.mem_toList.mp hx⟩)
  rw [Declarator.map, hinit]

theorem labels_map_of_fixed {labels : List (CaseLabel Expr)}
    (h : ∀ x ∈ labels.filterMap CaseLabel.value?, f x = x) :
    labels.map (CaseLabel.map f) = labels := by
  apply list_map_of_fixed
  intro label hlabel
  cases label with
  | value e => rw [CaseLabel.map, h e (List.mem_filterMap.mpr ⟨_, hlabel, rfl⟩)]
  | default => rfl

mutual

theorem mapExprs_of_fixed : (s : Stmt) → (∀ x ∈ s.exprs, f x = x) → s.mapExprs f = s
  | .block body, h => by rw [Stmt.mapExprs, mapStmts_of_fixed body h]
  | .ifElse test yes none, h => by
      rw [Stmt.exprs, List.forall_mem_cons] at h
      rw [Stmt.mapExprs, h.1, mapExprs_of_fixed yes h.2]
  | .ifElse test yes (some no), h => by
      rw [Stmt.exprs, List.forall_mem_append, List.forall_mem_cons] at h
      rw [Stmt.mapExprs, h.1.1, mapExprs_of_fixed yes h.1.2, mapExprs_of_fixed no h.2]
  | .whileLoop test body, h | .doWhile body test, h => by
      rw [Stmt.exprs, List.forall_mem_cons] at h
      rw [Stmt.mapExprs, h.1, mapExprs_of_fixed body h.2]
  | .forLoop init test step body, h => by
      rw [Stmt.exprs, List.forall_mem_append, List.forall_mem_append, List.forall_mem_append] at h
      rw [Stmt.mapExprs, mapStmts_of_fixed init h.1.1.1, option_map_of_fixed h.1.1.2,
        list_map_of_fixed h.1.2, mapExprs_of_fixed body h.2]
  | .switch scrutinee sections, h => by
      rw [Stmt.exprs, List.forall_mem_cons] at h
      rw [Stmt.mapExprs, h.1, mapSections_of_fixed sections h.2]
  | .ret value, h => by rw [Stmt.mapExprs, option_map_of_fixed h]
  | .declare _ _ declarators, h => by rw [Stmt.mapExprs, declarators_map_of_fixed h]
  | .eval e, h => by rw [Stmt.mapExprs, h e (List.mem_singleton_self e)]
  | .empty, _ | .brk, _ | .cont, _ | .discard, _ | .tryCatch _ _ _ _, _ | .throw _ _, _
  | .foreach _ _ _ _ _, _ | .lock _ _ _, _ | .using _ _ _, _ | .goto _ _, _ | .labeled _ _ _, _
  | .yield _ _, _ | .unmanaged _ _, _ | .fixed _ _ _, _ | .attributed _ _ _, _ => rfl

theorem mapStmts_of_fixed : (body : List Stmt) → (∀ x ∈ exprsOf body, f x = x) →
    mapStmts f body = body
  | [], _ => rfl
  | s :: rest, h => by
      simp only [exprsOf, List.forall_mem_append] at h
      rw [mapStmts, mapExprs_of_fixed s h.1, mapStmts_of_fixed rest h.2]

theorem mapSections_of_fixed : (sections : List (SwitchSection Expr Stmt)) →
    (∀ x ∈ exprsOfSections sections, f x = x) → mapSections f sections = sections
  | [], _ => rfl
  | ⟨labels, body⟩ :: rest, h => by
      simp only [exprsOfSections, List.forall_mem_append] at h
      rw [mapSections, labels_map_of_fixed h.1.1, mapStmts_of_fixed body h.1.2,
        mapSections_of_fixed rest h.2]

end

end

section

variable (f : Expr → Expr)

mutual

theorem declared_mapExprs : (s : Stmt) → (s.mapExprs f).declared = s.declared
  | .block body => declaredIn_mapStmts body
  | .ifElse _ yes none => declared_mapExprs yes
  | .ifElse _ yes (some no) => by
      rw [Stmt.mapExprs, Stmt.declared, Stmt.declared, declared_mapExprs yes,
        declared_mapExprs no]
  | .whileLoop _ body | .doWhile body _ => declared_mapExprs body
  | .forLoop init _ _ body => by
      rw [Stmt.mapExprs, Stmt.declared, Stmt.declared, declaredIn_mapStmts init,
        declared_mapExprs body]
  | .switch _ sections => declaredInSections_map sections
  | .declare _ _ declarators => List.map_map
  | .ret _ | .eval _ | .empty | .brk | .cont | .discard | .tryCatch _ _ _ _ | .throw _ _
  | .foreach _ _ _ _ _ | .lock _ _ _ | .using _ _ _ | .goto _ _ | .labeled _ _ _ | .yield _ _
  | .unmanaged _ _ | .fixed _ _ _ | .attributed _ _ _ => rfl

theorem declaredIn_mapStmts : (body : List Stmt) → declaredIn (mapStmts f body) = declaredIn body
  | [] => rfl
  | s :: rest => by
      rw [mapStmts, declaredIn, declaredIn, declared_mapExprs s, declaredIn_mapStmts rest]

theorem declaredInSections_map : (sections : List (SwitchSection Expr Stmt)) →
    declaredInSections (mapSections f sections) = declaredInSections sections
  | [] => rfl
  | ⟨_, body⟩ :: rest => by
      rw [mapSections, declaredInSections, declaredInSections, declaredIn_mapStmts body,
        declaredInSections_map rest]

end

end

end ShaderCompiler
