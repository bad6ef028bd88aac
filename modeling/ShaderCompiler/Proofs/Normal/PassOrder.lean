import ShaderCompiler.Proofs.Normal.Commuting

namespace ShaderCompiler

def Stmt.namesAfter (locals : List String) : Stmt → List String
  | .declare _ _ declarators => declarators.foldl (fun locals d => d.name :: locals) locals
  | _ => locals

def namesAfter (locals : List String) (body : List Stmt) : List String :=
  body.foldl Stmt.namesAfter locals

def scopedDeclarators (locals : List String) :
    List (Declarator Expr) → List (List String × Expr)
  | [] => []
  | d :: rest => d.init.toList.map (locals, ·) ++ scopedDeclarators (d.name :: locals) rest

mutual

/-- The expressions of visited statements, each with the locals in scope. -/
def Stmt.scoped (locals : List String) : Stmt → List (List String × Expr)
  | .block body => scopedIn locals body
  | .ifElse test yes none => (locals, test) :: yes.scoped locals
  | .ifElse test yes (some no) => (locals, test) :: yes.scoped locals ++ no.scoped locals
  | .whileLoop test body => (locals, test) :: body.scoped locals
  | .doWhile body test => (locals, test) :: body.scoped locals
  | .forLoop init test step body =>
      scopedIn locals init ++ test.toList.map (namesAfter locals init, ·) ++
        step.map (namesAfter locals init, ·) ++ body.scoped (namesAfter locals init)
  | .switch scrutinee sections => (locals, scrutinee) :: scopedInSections locals sections
  | .ret value => value.toList.map (locals, ·)
  | .declare _ _ declarators => scopedDeclarators locals declarators
  | .eval e => [(locals, e)]
  | _ => []

def scopedIn (locals : List String) : List Stmt → List (List String × Expr)
  | [] => []
  | s :: rest => s.scoped locals ++ scopedIn (s.namesAfter locals) rest

def scopedInSections (locals : List String) :
    List (SwitchSection Expr Stmt) → List (List String × Expr)
  | [] => []
  | ⟨labels, body⟩ :: rest =>
      (labels.filterMap CaseLabel.value?).map (locals, ·) ++ scopedIn locals body ++
        scopedInSections (namesAfter locals body) rest

end

/-- No operator method is called where a local hides its type. -/
def AllUnshadowed (es : List (List String × Expr)) : Prop := ∀ p ∈ es, Unshadowed p.1 p.2.visited

theorem allUnshadowed_append {es es' : List (List String × Expr)} :
    AllUnshadowed (es ++ es') ↔ AllUnshadowed es ∧ AllUnshadowed es' :=
  List.forall_mem_append

theorem allUnshadowed_cons {p : List String × Expr} {es : List (List String × Expr)} :
    AllUnshadowed (p :: es) ↔ Unshadowed p.1 p.2.visited ∧ AllUnshadowed es :=
  List.forall_mem_cons

section

variable {taken taken' : List String} {r : Renaming} {locals : List String}

theorem hides_declarators (h : r.Hides locals) (ds : List (Declarator Expr)) :
    (renameDeclarators taken r ds).2.Hides
      (ds.foldl (fun locals d => d.name :: locals) locals) := by
  induction ds generalizing r locals with
  | nil => exact h
  | cons d ds ih => exact ih (h.declare taken d.name)

theorem hides_stmt (taken : List String) (h : r.Hides locals) (s : Stmt) :
    (renameStmt taken r s).2.Hides (s.namesAfter locals) := by
  cases s with
  | declare isConst type declarators => exact hides_declarators h declarators
  | ifElse test yes no => cases no <;> exact ⟨h.numbered, h.kept⟩
  | _ => exact ⟨h.numbered, h.kept⟩

theorem hides_stmts (taken : List String) (h : r.Hides locals) (stmts : List Stmt) :
    (renameStmts taken r stmts).2.Hides (namesAfter locals stmts) := by
  induction stmts generalizing r locals with
  | nil => exact h
  | cons s stmts ih => exact ih (hides_stmt taken h s)

def SameFree (taken' taken : List String) : Prop :=
  ∀ n, freeIndex taken' taken'.length n = freeIndex taken taken.length n

theorem sameFree_of_mem_iff (h : ∀ n, localName n ∈ taken' ↔ localName n ∈ taken) :
    SameFree taken' taken := by
  intro n
  apply freeIndex_eq_of (le_freeIndex taken _ n)
  · rw [h]
    exact localName_freeIndex_notMem taken n
  · intro j hj hlt
    exact (h j).mpr (mem_of_freeIndex taken hj hlt)

theorem map_commutes_iff (h : r.Hides locals) (es : List Expr) :
    (es.map (Expr.mapPost toOperator)).map (renameExpr r) =
        (es.map (renameExpr r)).map (Expr.mapPost toOperator) ↔
      AllUnshadowed (es.map (locals, ·)) := by
  induction es with
  | nil => exact iff_of_true rfl nofun
  | cons e es ih =>
      simp only [List.map_cons, List.cons.injEq]
      rw [allUnshadowed_cons, ← ih]
      exact and_congr_left fun _ => commutes_iff h e

theorem option_commutes_iff (h : r.Hides locals) (e : Option Expr) :
    (e.map (Expr.mapPost toOperator)).map (renameExpr r) =
        (e.map (renameExpr r)).map (Expr.mapPost toOperator) ↔
      AllUnshadowed (e.toList.map (locals, ·)) := by
  rw [← map_commutes_iff h]
  cases e <;> simp

theorem labels_commute_iff (h : r.Hides locals) (labels : List (CaseLabel Expr)) :
    (labels.map (CaseLabel.map (Expr.mapPost toOperator))).map (CaseLabel.map (renameExpr r)) =
        (labels.map (CaseLabel.map (renameExpr r))).map
          (CaseLabel.map (Expr.mapPost toOperator)) ↔
      AllUnshadowed ((labels.filterMap CaseLabel.value?).map (locals, ·)) := by
  rw [← map_commutes_iff h]
  induction labels with
  | nil => exact iff_of_true rfl rfl
  | cons label labels ih =>
      cases label with
      | value e =>
          simp only [List.map_cons, CaseLabel.map, List.filterMap_cons, CaseLabel.value?,
            List.cons.injEq, CaseLabel.value.injEq, ih]
      | default =>
          simp only [List.map_cons, CaseLabel.map, List.filterMap_cons, CaseLabel.value?,
            List.cons.injEq, true_and, ih]

/-- In either order of the passes the same names are in force behind a part, and the part is the
same exactly if no type is hidden in it. -/
structure Swaps {α : Type} (operators : α → α) (es : List (List String × Expr))
    (before after : α × Renaming) : Prop where
  state : before.2 = after.2
  same_iff : before.1 = operators after.1 ↔ AllUnshadowed es

theorem swaps_declarators (hfree : SameFree taken' taken) (h : r.Hides locals)
    (ds : List (Declarator Expr)) :
    Swaps (List.map (Declarator.map (Expr.mapPost toOperator))) (scopedDeclarators locals ds)
      (renameDeclarators taken' r (ds.map (Declarator.map (Expr.mapPost toOperator))))
      (renameDeclarators taken r ds) := by
  induction ds generalizing r locals with
  | nil => exact ⟨rfl, iff_of_true rfl nofun⟩
  | cons d ds ih =>
      have hdeclare : r.declare taken' d.name = r.declare taken d.name := by
        rw [Renaming.declare, hfree]
        rfl
      obtain ⟨hstate, hsame⟩ := ih (h.declare taken d.name)
      rw [List.map_cons]
      refine ⟨?_, ?_⟩
      · rw [renameDeclarators, renameDeclarators, Declarator.map, hdeclare]
        exact hstate
      · rw [renameDeclarators, renameDeclarators, scopedDeclarators, allUnshadowed_append,
          ← option_commutes_iff h, ← hsame, Declarator.map, hdeclare]
        simp [Declarator.map]

mutual

theorem swaps_stmt (hfree : SameFree taken' taken) {r : Renaming} {locals : List String}
    (h : r.Hides locals) : (s : Stmt) →
    Swaps (Stmt.mapExprs (Expr.mapPost toOperator)) (s.scoped locals)
      (renameStmt taken' r (s.mapExprs (Expr.mapPost toOperator))) (renameStmt taken r s)
  | .block body => by
      obtain ⟨hstate, hsame⟩ := swaps_stmts hfree h body
      refine ⟨congrArg r.leave hstate, ?_⟩
      rw [Stmt.scoped, ← hsame]
      exact ⟨Stmt.block.inj, congrArg Stmt.block⟩
  | .ifElse test yes none => by
      obtain ⟨hstate, hsame⟩ := swaps_stmt hfree h yes
      refine ⟨congrArg r.leave hstate, ?_⟩
      rw [Stmt.scoped, allUnshadowed_cons, ← hsame, ← commutes_iff h test]
      simp [renameStmt, Stmt.mapExprs, Commutes]
  | .ifElse test yes (some no) => by
      obtain ⟨hstate, hsame⟩ := swaps_stmt hfree h yes
      have hleft : (r.leave (renameStmt taken r yes).2).Hides locals := ⟨h.numbered, h.kept⟩
      obtain ⟨hstate', hsame'⟩ := swaps_stmt hfree hleft no
      refine ⟨?_, ?_⟩
      · rw [Stmt.mapExprs, renameStmt, renameStmt, hstate]
        exact congrArg r.leave hstate'
      · rw [Stmt.scoped, allUnshadowed_append, allUnshadowed_cons, ← hsame, ← hsame',
          ← commutes_iff h test]
        simp [renameStmt, Stmt.mapExprs, Commutes, hstate, and_assoc]
  | .whileLoop test body => by
      obtain ⟨hstate, hsame⟩ := swaps_stmt hfree h body
      refine ⟨congrArg r.leave hstate, ?_⟩
      rw [Stmt.scoped, allUnshadowed_cons, ← hsame, ← commutes_iff h test]
      simp [renameStmt, Stmt.mapExprs, Commutes]
  | .doWhile body test => by
      obtain ⟨hstate, hsame⟩ := swaps_stmt hfree h body
      refine ⟨congrArg r.leave hstate, ?_⟩
      rw [Stmt.scoped, allUnshadowed_cons, ← hsame, ← commutes_iff h test, and_comm]
      simp [renameStmt, Stmt.mapExprs, Commutes]
  | .forLoop init test step body => by
      have hinner := hides_stmts taken h init
      obtain ⟨hstate, hsame⟩ := swaps_stmts hfree h init
      obtain ⟨hstate', hsame'⟩ := swaps_stmt hfree hinner body
      refine ⟨?_, ?_⟩
      · rw [Stmt.mapExprs, renameStmt, renameStmt, hstate]
        exact congrArg r.leave hstate'
      · rw [Stmt.scoped, allUnshadowed_append, allUnshadowed_append, allUnshadowed_append,
          ← hsame, ← hsame', ← option_commutes_iff hinner, ← map_commutes_iff hinner]
        simp only [renameStmt, Stmt.mapExprs, hstate, Stmt.forLoop.injEq, and_assoc]
  | .switch scrutinee sections => by
      obtain ⟨hstate, hsame⟩ := swaps_sections hfree h sections
      refine ⟨congrArg r.leave hstate, ?_⟩
      rw [Stmt.scoped, allUnshadowed_cons, ← hsame, ← commutes_iff h scrutinee]
      simp [renameStmt, Stmt.mapExprs, Commutes]
  | .ret value => by
      refine ⟨rfl, ?_⟩
      rw [Stmt.scoped, ← option_commutes_iff h]
      exact ⟨Stmt.ret.inj, congrArg Stmt.ret⟩
  | .declare isConst type declarators => by
      obtain ⟨hstate, hsame⟩ := swaps_declarators hfree h declarators
      refine ⟨hstate, ?_⟩
      rw [Stmt.scoped, ← hsame]
      exact ⟨fun he => (Stmt.declare.inj he).2.2, congrArg (Stmt.declare isConst type)⟩
  | .eval e => by
      refine ⟨rfl, ?_⟩
      rw [Stmt.scoped, AllUnshadowed, List.forall_mem_singleton, ← commutes_iff h e]
      exact ⟨Stmt.eval.inj, congrArg Stmt.eval⟩
  | .empty | .brk | .cont | .discard | .tryCatch _ _ _ _ | .throw _ _ | .foreach _ _ _ _ _
  | .lock _ _ _ | .using _ _ _ | .goto _ _ | .labeled _ _ _ | .yield _ _ | .unmanaged _ _
  | .fixed _ _ _ | .attributed _ _ _ => ⟨rfl, iff_of_true rfl nofun⟩

theorem swaps_stmts (hfree : SameFree taken' taken) {r : Renaming} {locals : List String}
    (h : r.Hides locals) : (stmts : List Stmt) →
    Swaps (mapStmts (Expr.mapPost toOperator)) (scopedIn locals stmts)
      (renameStmts taken' r (mapStmts (Expr.mapPost toOperator) stmts))
      (renameStmts taken r stmts)
  | [] => ⟨rfl, iff_of_true rfl nofun⟩
  | s :: rest => by
      obtain ⟨hstate, hsame⟩ := swaps_stmt hfree h s
      obtain ⟨hstate', hsame'⟩ := swaps_stmts hfree (hides_stmt taken h s) rest
      refine ⟨?_, ?_⟩
      · rw [mapStmts, renameStmts, renameStmts, hstate]
        exact hstate'
      · rw [scopedIn, allUnshadowed_append, ← hsame, ← hsame']
        simp only [renameStmts, mapStmts, hstate, List.cons.injEq]

theorem swaps_sections (hfree : SameFree taken' taken) {r : Renaming} {locals : List String}
    (h : r.Hides locals) :
    (sections : List (SwitchSection Expr Stmt)) →
    Swaps (mapSections (Expr.mapPost toOperator)) (scopedInSections locals sections)
      (renameSections taken' r (mapSections (Expr.mapPost toOperator) sections))
      (renameSections taken r sections)
  | [] => ⟨rfl, iff_of_true rfl nofun⟩
  | ⟨labels, body⟩ :: rest => by
      obtain ⟨hstate, hsame⟩ := swaps_stmts hfree h body
      obtain ⟨hstate', hsame'⟩ := swaps_sections hfree (hides_stmts taken h body) rest
      refine ⟨?_, ?_⟩
      · rw [mapSections, renameSections, renameSections, hstate]
        exact hstate'
      · rw [scopedInSections, allUnshadowed_append, allUnshadowed_append, ← hsame, ← hsame',
          ← labels_commute_iff h]
        simp only [renameSections, mapSections, hstate, List.cons.injEq, SwitchSection.mk.injEq]

end

end

def MentionedBy (name : String) (es : List Expr) : Prop := ∃ e ∈ es, e.mention? = some name

section

variable {name : String}

theorem mentionedBy_append {es es' : List Expr} :
    MentionedBy name (es ++ es') ↔ MentionedBy name es ∨ MentionedBy name es' := by
  simp only [MentionedBy, List.mem_append, or_and_right, exists_or]

theorem mentionedBy_node {e : Expr} (h : e.mention? = none) (inner : List Expr) :
    MentionedBy name (inner ++ [e]) ↔ MentionedBy name inner := by
  rw [mentionedBy_append, or_iff_left]
  rintro ⟨x, hx, hm⟩
  rw [List.mem_singleton.mp hx, h] at hm
  cases hm

theorem mentionedBy_toOperator (hname : Vocabulary.isBuiltin name = false) (receiver : Expr)
    (method : String) (args : List (Arg Expr)) :
    MentionedBy name (toOperator (.call (some receiver) method args)).visited ↔
      MentionedBy name receiver.visited ∨ MentionedBy name (visitedArgs args) := by
  cases hc : (Expr.call (some receiver) method args).isOperatorCall with
  | false =>
      rw [toOperator_of_not_isOperatorCall hc, Expr.visited, mentionedBy_node rfl,
        mentionedBy_append]
  | true =>
      obtain ⟨owner, rfl⟩ := exists_ident_of_isOperatorCall hc
      obtain ⟨hb, hcases⟩ := operatorCall_cases hc
      have howner : ¬MentionedBy name (Expr.ident owner).visited := by
        rintro ⟨x, hx, hm⟩
        rw [List.mem_singleton.mp hx] at hm
        cases hm
        rw [hb] at hname
        cases hname
      rw [or_iff_right howner]
      obtain ⟨op, e, rfl, hop⟩ | ⟨op, lhs, rhs, rfl, hop⟩ := hcases
      · rw [toOperator_unary hb hop, Expr.visited, mentionedBy_node rfl]
        simp [visitedArgs]
      · rw [toOperator_binary hb hop, Expr.visited, mentionedBy_node rfl]
        simp [visitedArgs]

theorem mentionedBy_append_congr {es es' fs fs' : List Expr}
    (he : MentionedBy name es ↔ MentionedBy name es')
    (hf : MentionedBy name fs ↔ MentionedBy name fs') :
    MentionedBy name (es ++ fs) ↔ MentionedBy name (es' ++ fs') := by
  rw [mentionedBy_append, mentionedBy_append, he, hf]

theorem mentionedBy_node_congr {e e' : Expr} {inner inner' : List Expr}
    (hv : e.visited = inner ++ [e]) (hv' : e'.visited = inner' ++ [e'])
    (he : e.mention? = e'.mention?) (hi : MentionedBy name inner ↔ MentionedBy name inner') :
    MentionedBy name e.visited ↔ MentionedBy name e'.visited := by
  rw [hv, hv']
  exact mentionedBy_append_congr hi (by simp [MentionedBy, he])

mutual

theorem mentionedBy_mapPost (hname : Vocabulary.isBuiltin name = false) : (e : Expr) →
    (MentionedBy name (e.mapPost toOperator).visited ↔ MentionedBy name e.visited)
  | .assign op target value =>
      mentionedBy_node_congr rfl rfl rfl (mentionedBy_append_congr
        (mentionedBy_mapPost hname target) (mentionedBy_mapPost hname value))
  | .binary op lhs rhs =>
      mentionedBy_node_congr rfl rfl rfl (mentionedBy_append_congr
        (mentionedBy_mapPost hname lhs) (mentionedBy_mapPost hname rhs))
  | .unary op operand =>
      mentionedBy_node_congr rfl rfl rfl (mentionedBy_mapPost hname operand)
  | .call none method args =>
      mentionedBy_node_congr rfl rfl rfl (mentionedBy_mapArgs hname args)
  | .call (some receiver) method args => by
      rw [Expr.mapPost, mentionedBy_toOperator hname, Expr.visited, mentionedBy_node rfl,
        mentionedBy_append, mentionedBy_mapPost hname receiver, mentionedBy_mapArgs hname args]
  | .member target name =>
      mentionedBy_node_congr rfl rfl rfl (mentionedBy_mapPost hname target)
  | .construct type args =>
      mentionedBy_node_congr rfl rfl rfl (mentionedBy_mapArgs hname args)
  | .newArray element (some size) none =>
      mentionedBy_node_congr rfl rfl rfl (mentionedBy_mapPost hname size)
  | .newArray element none (some items) =>
      mentionedBy_node_congr rfl rfl rfl (mentionedBy_mapItems hname items)
  | .newArray element (some size) (some items) =>
      mentionedBy_node_congr rfl rfl rfl (mentionedBy_append_congr
        (mentionedBy_mapPost hname size) (mentionedBy_mapItems hname items))
  | .arrayInit items => mentionedBy_node_congr rfl rfl rfl (mentionedBy_mapItems hname items)
  | .index target index =>
      mentionedBy_node_congr rfl rfl rfl (mentionedBy_append_congr
        (mentionedBy_mapPost hname target) (mentionedBy_mapPost hname index))
  | .cast type operand =>
      mentionedBy_node_congr rfl rfl rfl (mentionedBy_mapPost hname operand)
  | .conditional test yes no =>
      mentionedBy_node_congr rfl rfl rfl (mentionedBy_append_congr (mentionedBy_append_congr
        (mentionedBy_mapPost hname test) (mentionedBy_mapPost hname yes))
        (mentionedBy_mapPost hname no))
  | .lambda params (.expr e) span =>
      mentionedBy_node_congr rfl rfl rfl (mentionedBy_mapPost hname e)
  | .newArray _ none none | .lambda _ (.block _) _ | .ident _ | .self | .literal _ | .base _
  | .null _ | .query _ | .typeTest _ _ _ _ | .typeOf _ _ | .sizeOf _ _ | .deref _ _
  | .addressOf _ _ | .arrow _ _ _ | .stackAlloc _ _ _ | .anonymous _ _ => Iff.rfl

theorem mentionedBy_mapArgs (hname : Vocabulary.isBuiltin name = false) :
    (args : List (Arg Expr)) →
    (MentionedBy name (visitedArgs (mapArgs toOperator args)) ↔
      MentionedBy name (visitedArgs args))
  | [] => Iff.rfl
  | ⟨_, e⟩ :: rest =>
      mentionedBy_append_congr (mentionedBy_mapPost hname e) (mentionedBy_mapArgs hname rest)

theorem mentionedBy_mapItems (hname : Vocabulary.isBuiltin name = false) : (items : List Expr) →
    (MentionedBy name (visitedItems (mapItems toOperator items)) ↔
      MentionedBy name (visitedItems items))
  | [] => Iff.rfl
  | e :: rest =>
      mentionedBy_append_congr (mentionedBy_mapPost hname e) (mentionedBy_mapItems hname rest)

end

end

namespace MethodBody

variable (m : MethodBody)

theorem mem_mentions_iff (name : String) :
    name ∈ m.mentions ↔ ∃ e ∈ exprsOf m.body, MentionedBy name e.visited := by
  simp only [mentions, List.mem_flatMap, List.mem_filterMap, MentionedBy]

theorem mem_mentions_withOperators {name : String} (h : Vocabulary.isBuiltin name = false) :
    name ∈ m.withOperators.mentions ↔ name ∈ m.mentions := by
  rw [mem_mentions_iff, mem_mentions_iff, withOperators, exprsOf_mapStmts]
  simp only [List.mem_map, exists_exists_and_eq_and, mentionedBy_mapPost h]

theorem sameFree_withOperators : SameFree m.withOperators.taken m.taken := by
  apply sameFree_of_mem_iff
  intro n
  have hdeclared : m.withOperators.declared = m.declared := declaredIn_mapStmts _ m.body
  simp only [taken, hdeclared, List.mem_filter, List.mem_append,
    m.mem_mentions_withOperators (isBuiltin_localName n)]
  rfl

theorem hides_initialRenaming : m.initialRenaming.Hides [] where
  numbered := nofun
  kept name _ := (m.settled_initialRenaming m.taken).apply name

def scopedExprs : List (List String × Expr) := scopedIn [] m.body

/-- The passes give the same in either order exactly if no operator method is called on the name
of a type that a local hides there. -/
theorem withLocals_withOperators_iff :
    m.withOperators.withLocals = m.withLocals.withOperators ↔
      ∀ p ∈ m.scopedExprs, ∀ e ∈ p.2.visited, ∀ owner ∈ e.operatorOwner?, owner ∉ p.1 := by
  have h := (swaps_stmts m.sameFree_withOperators m.hides_initialRenaming m.body).same_iff
  exact Iff.trans ⟨congrArg body, congrArg fun body => { m with body }⟩ h

end MethodBody

/-- `float vec3 = 1; c = vec3.op_Addition(c, c);` -/
def hiddenType : MethodBody where
  name := "main"
  body :=
    [.declare false { name := "float" } [⟨"vec3", some (.literal (.int 1))⟩],
     .eval (.assign .assign (.ident "c")
       (.call (some (.ident "vec3")) "op_Addition" [⟨none, .ident "c"⟩, ⟨none, .ident "c"⟩]))]

theorem withLocals_withOperators_hiddenType :
    hiddenType.withOperators.withLocals ≠ hiddenType.withLocals.withOperators := by
  intro h
  have hall := hiddenType.withLocals_withOperators_iff.mp h
  exact absurd (hall _ (List.mem_cons_of_mem _ List.mem_cons_self) _
    (List.mem_append_left _ (List.mem_append_right _ (List.mem_append_right _
      (List.mem_singleton_self _)))) "vec3" rfl) (by decide)

end ShaderCompiler
