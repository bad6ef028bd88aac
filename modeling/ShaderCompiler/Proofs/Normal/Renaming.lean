import ShaderCompiler.Proofs.Normal.FreshNames
import ShaderCompiler.Proofs.Normal.Scoping

namespace ShaderCompiler

section

variable (taken : List String)

/-- The name of a declaration in the renamed body. Only locals get new ones. -/
def newName : String × Referent → String
  | (_, .binder k) => localName (freshIndex taken k)
  | (name, _) => name

def Scope.renamed (scope : Scope) : Scope := scope.map fun b => (newName taken b, b.2)

def Scope.newNames (scope : Scope) : List (String × String) :=
  scope.map fun b => (b.1, newName taken b)

def Scoping.renamed (sc : Scoping) : Scoping := ⟨sc.scope.renamed taken, sc.count⟩

/-- The state in which renaming reaches a scope. -/
def Scoping.renaming (sc : Scoping) : Renaming := ⟨sc.scope.newNames taken, nextIndex taken sc.count⟩

def Mention.renamed (names : List (String × String)) : Mention → Mention
  | .value name => .value ((names.lookup name).getD name)
  | m => m

def Occurrence.renamed (o : Occurrence) : Occurrence :=
  ⟨o.scope.renamed taken, o.mention.renamed (o.scope.newNames taken)⟩

end

theorem mapPost_eq_self {r : Renaming} {e : Expr} (h : e.mapPost (renameIdent r) = .self) :
    e = .self := by
  cases e with
  | self => rfl
  | call receiver => cases receiver <;> simp [Expr.mapPost, renameIdent] at h
  | newArray element size items =>
      cases size <;> cases items <;> simp [Expr.mapPost, renameIdent] at h
  | lambda params body => cases body <;> simp [Expr.mapPost, renameIdent] at h
  | _ => simp [Expr.mapPost, renameIdent] at h

theorem mentioned_member {e : Expr} (h : e ≠ .self) (name : String) :
    (Expr.member e name).mentioned = e.mentioned := by
  rw [Expr.mentioned]
  exact h

mutual

theorem mentioned_mapPost (r : Renaming) : (e : Expr) →
    (e.mapPost (renameIdent r)).mentioned = e.mentioned.map (Mention.renamed r.scope)
  | .assign _ target value => by
      simp [Expr.mapPost, renameIdent, Expr.mentioned, mentioned_mapPost r target,
        mentioned_mapPost r value]
  | .binary _ lhs rhs => by
      simp [Expr.mapPost, renameIdent, Expr.mentioned, mentioned_mapPost r lhs,
        mentioned_mapPost r rhs]
  | .unary _ operand => by
      simp [Expr.mapPost, renameIdent, Expr.mentioned, mentioned_mapPost r operand]
  | .call none name args => by
      simp [Expr.mapPost, renameIdent, Expr.mentioned, mentioned_mapArgs r args, Mention.renamed]
  | .call (some receiver) name args => by
      simp [Expr.mapPost, renameIdent, Expr.mentioned, mentioned_mapPost r receiver,
        mentioned_mapArgs r args, Mention.renamed]
  | .member target name => by
      by_cases h : target = .self
      · subst h
        rfl
      · have hm : target.mapPost (renameIdent r) ≠ .self := fun he => h (mapPost_eq_self he)
        simp only [Expr.mapPost, renameIdent, mentioned_member h, mentioned_member hm,
          mentioned_mapPost r target]
  | .construct _ args => by
      simp [Expr.mapPost, renameIdent, Expr.mentioned, mentioned_mapArgs r args]
  | .newArray _ none none => rfl
  | .newArray _ (some size) none => by
      simp [Expr.mapPost, renameIdent, Expr.mentioned, mentioned_mapPost r size]
  | .newArray _ none (some items) => by
      simp [Expr.mapPost, renameIdent, Expr.mentioned, mentioned_mapItems r items]
  | .newArray _ (some size) (some items) => by
      simp [Expr.mapPost, renameIdent, Expr.mentioned, mentioned_mapPost r size,
        mentioned_mapItems r items]
  | .arrayInit items => by
      simp [Expr.mapPost, renameIdent, Expr.mentioned, mentioned_mapItems r items]
  | .index target index => by
      simp [Expr.mapPost, renameIdent, Expr.mentioned, mentioned_mapPost r target,
        mentioned_mapPost r index]
  | .cast _ operand => by
      simp [Expr.mapPost, renameIdent, Expr.mentioned, mentioned_mapPost r operand]
  | .conditional test yes no => by
      simp [Expr.mapPost, renameIdent, Expr.mentioned, mentioned_mapPost r test,
        mentioned_mapPost r yes, mentioned_mapPost r no]
  | .ident name => rfl
  | .lambda _ (.expr _) _ => rfl
  | .lambda _ (.block _) _ => rfl
  | .self | .literal _ | .base _ | .null _ | .query _ | .typeTest _ _ _ _ | .typeOf _ _
  | .sizeOf _ _ | .deref _ _ | .addressOf _ _ | .arrow _ _ _ | .stackAlloc _ _ _
  | .anonymous _ _ => rfl

theorem mentioned_mapArgs (r : Renaming) : (args : List (Arg Expr)) →
    mentionedArgs (mapArgs (renameIdent r) args) =
      (mentionedArgs args).map (Mention.renamed r.scope)
  | [] => rfl
  | ⟨_, e⟩ :: rest => by
      simp [mapArgs, mentionedArgs, mentioned_mapPost r e, mentioned_mapArgs r rest]

theorem mentioned_mapItems (r : Renaming) : (items : List Expr) →
    mentionedItems (mapItems (renameIdent r) items) =
      (mentionedItems items).map (Mention.renamed r.scope)
  | [] => rfl
  | e :: rest => by
      simp [mapItems, mentionedItems, mentioned_mapPost r e, mentioned_mapItems r rest]

end

section

variable (taken : List String)

theorem occurrencesOf_renameExpr (sc : Scoping) (e : Expr) :
    (sc.renamed taken).occurrencesOf (renameExpr (sc.renaming taken) e) =
      (sc.occurrencesOf e).map (Occurrence.renamed taken) := by
  simp only [Scoping.occurrencesOf, renameExpr, mentioned_mapPost, List.map_map]
  rfl

theorem flatMap_renameExpr (sc : Scoping) (es : List Expr) :
    (es.map (renameExpr (sc.renaming taken))).flatMap (sc.renamed taken).occurrencesOf =
      (es.flatMap sc.occurrencesOf).map (Occurrence.renamed taken) := by
  simp [List.flatMap_map, List.map_flatMap, occurrencesOf_renameExpr]

theorem leave_renaming (outer inner : Scoping) :
    (outer.renaming taken).leave (inner.renaming taken) = (outer.leave inner).renaming taken := rfl

theorem leave_renamed (outer inner : Scoping) :
    (outer.renamed taken).leave (inner.renamed taken) = (outer.leave inner).renamed taken := rfl

theorem declare_renaming (sc : Scoping) (name : String) :
    (sc.renaming taken).declare taken name =
      (localName (freshIndex taken sc.count), (sc.declare name).renaming taken) := rfl

theorem declare_renamed (sc : Scoping) (name : String) :
    (sc.renamed taken).declare (localName (freshIndex taken sc.count)) =
      (sc.declare name).renamed taken := rfl

/-- Going through the renamed part leads to what going through the part itself leads to, renamed. -/
structure Follows (before after : List Occurrence × Scoping) (r : Renaming) : Prop where
  state : r = before.2.renaming taken
  occurrences : after.1 = before.1.map (Occurrence.renamed taken)
  scoping : after.2 = before.2.renamed taken

theorem flatMap_renameExpr_option (sc : Scoping) (e : Option Expr) :
    (e.map (renameExpr (sc.renaming taken))).toList.flatMap (sc.renamed taken).occurrencesOf =
      (e.toList.flatMap sc.occurrencesOf).map (Occurrence.renamed taken) := by
  rw [Option.toList_map, flatMap_renameExpr]

theorem follows_declarators (sc : Scoping) (ds : List (Declarator Expr)) :
    Follows taken (sc.occurrencesOfDeclarators ds)
      ((sc.renamed taken).occurrencesOfDeclarators
        (renameDeclarators taken (sc.renaming taken) ds).1)
      (renameDeclarators taken (sc.renaming taken) ds).2 := by
  induction ds generalizing sc with
  | nil => exact ⟨rfl, rfl, rfl⟩
  | cons d ds ih =>
      obtain ⟨hr, ho, hs⟩ := ih (sc.declare d.name)
      refine ⟨hr, ?_, hs⟩
      simp only [renameDeclarators, declare_renaming, Scoping.occurrencesOfDeclarators,
        declare_renamed taken sc d.name, flatMap_renameExpr_option, ho, List.map_append]

theorem flatMap_labels (sc : Scoping) (labels : List (CaseLabel Expr)) :
    ((labels.map (CaseLabel.map (renameExpr (sc.renaming taken)))).filterMap
        CaseLabel.value?).flatMap (sc.renamed taken).occurrencesOf =
      ((labels.filterMap CaseLabel.value?).flatMap sc.occurrencesOf).map
        (Occurrence.renamed taken) := by
  have hl : (labels.map (CaseLabel.map (renameExpr (sc.renaming taken)))).filterMap
      CaseLabel.value? =
      (labels.filterMap CaseLabel.value?).map (renameExpr (sc.renaming taken)) := by
    rw [List.filterMap_map, List.map_filterMap]
    congr 1
    funext label
    cases label <;> rfl
  rw [hl, flatMap_renameExpr]

mutual

theorem follows_stmt (sc : Scoping) : (s : Stmt) →
    Follows taken (s.occurrences sc)
      ((renameStmt taken (sc.renaming taken) s).1.occurrences (sc.renamed taken))
      (renameStmt taken (sc.renaming taken) s).2
  | .block body => by
      obtain ⟨hr, ho, hs⟩ := follows_stmts sc body
      refine ⟨?_, ?_, ?_⟩
      · simp only [renameStmt, hr, leave_renaming, Stmt.occurrences]
      · simp only [renameStmt, Stmt.occurrences, ho]
      · simp only [renameStmt, Stmt.occurrences, hs, leave_renamed]
  | .ifElse test yes none => by
      obtain ⟨hr, ho, hs⟩ := follows_stmt sc yes
      refine ⟨?_, ?_, ?_⟩
      · simp only [renameStmt, hr, leave_renaming, Stmt.occurrences]
      · simp only [renameStmt, Stmt.occurrences, ho, occurrencesOf_renameExpr, List.map_append]
      · simp only [renameStmt, Stmt.occurrences, hs, leave_renamed]
  | .ifElse test yes (some no) => by
      obtain ⟨hr, ho, hs⟩ := follows_stmt sc yes
      obtain ⟨hr', ho', hs'⟩ := follows_stmt (sc.leave (yes.occurrences sc).2) no
      refine ⟨?_, ?_, ?_⟩
      · simp only [renameStmt, hr, leave_renaming, hr', Stmt.occurrences]
      · simp only [renameStmt, hr, leave_renaming, Stmt.occurrences, ho, hs, leave_renamed, ho',
          occurrencesOf_renameExpr, List.map_append]
      · simp only [renameStmt, hr, leave_renaming, Stmt.occurrences, hs, leave_renamed, hs']
  | .whileLoop test body => by
      obtain ⟨hr, ho, hs⟩ := follows_stmt sc body
      refine ⟨?_, ?_, ?_⟩
      · simp only [renameStmt, hr, leave_renaming, Stmt.occurrences]
      · simp only [renameStmt, Stmt.occurrences, ho, occurrencesOf_renameExpr, List.map_append]
      · simp only [renameStmt, Stmt.occurrences, hs, leave_renamed]
  | .doWhile body test => by
      obtain ⟨hr, ho, hs⟩ := follows_stmt sc body
      refine ⟨?_, ?_, ?_⟩
      · simp only [renameStmt, hr, leave_renaming, Stmt.occurrences]
      · simp only [renameStmt, Stmt.occurrences, ho, occurrencesOf_renameExpr, List.map_append]
      · simp only [renameStmt, Stmt.occurrences, hs, leave_renamed]
  | .forLoop init test step body => by
      obtain ⟨hr, ho, hs⟩ := follows_stmts sc init
      obtain ⟨hr', ho', hs'⟩ := follows_stmt (occurrencesIn sc init).2 body
      refine ⟨?_, ?_, ?_⟩
      · simp only [renameStmt, hr, hr', leave_renaming, Stmt.occurrences]
      · simp only [renameStmt, hr, Stmt.occurrences, ho, hs, ho', flatMap_renameExpr_option,
          flatMap_renameExpr, List.map_append]
      · simp only [renameStmt, hr, Stmt.occurrences, hs, hs', leave_renamed]
  | .switch scrutinee sections => by
      obtain ⟨hr, ho, hs⟩ := follows_sections sc sections
      refine ⟨?_, ?_, ?_⟩
      · simp only [renameStmt, hr, leave_renaming, Stmt.occurrences]
      · simp only [renameStmt, Stmt.occurrences, ho, occurrencesOf_renameExpr, List.map_append]
      · simp only [renameStmt, Stmt.occurrences, hs, leave_renamed]
  | .ret value => ⟨rfl, flatMap_renameExpr_option taken sc value, rfl⟩
  | .declare _ _ declarators => follows_declarators taken sc declarators
  | .eval e => ⟨rfl, occurrencesOf_renameExpr taken sc e, rfl⟩
  | .empty | .brk | .cont | .discard | .tryCatch _ _ _ _ | .throw _ _ | .foreach _ _ _ _ _
  | .lock _ _ _ | .using _ _ _ | .goto _ _ | .labeled _ _ _ | .yield _ _ | .unmanaged _ _
  | .fixed _ _ _ | .attributed _ _ _ => ⟨rfl, rfl, rfl⟩

theorem follows_stmts (sc : Scoping) : (stmts : List Stmt) →
    Follows taken (occurrencesIn sc stmts)
      (occurrencesIn (sc.renamed taken) (renameStmts taken (sc.renaming taken) stmts).1)
      (renameStmts taken (sc.renaming taken) stmts).2
  | [] => ⟨rfl, rfl, rfl⟩
  | s :: rest => by
      obtain ⟨hr, ho, hs⟩ := follows_stmt sc s
      obtain ⟨hr', ho', hs'⟩ := follows_stmts (s.occurrences sc).2 rest
      refine ⟨?_, ?_, ?_⟩
      · simp only [renameStmts, hr, hr', occurrencesIn]
      · simp only [renameStmts, hr, occurrencesIn, ho, hs, ho', List.map_append]
      · simp only [renameStmts, hr, occurrencesIn, hs, hs']

theorem follows_sections (sc : Scoping) : (sections : List (SwitchSection Expr Stmt)) →
    Follows taken (occurrencesInSections sc sections)
      (occurrencesInSections (sc.renamed taken)
        (renameSections taken (sc.renaming taken) sections).1)
      (renameSections taken (sc.renaming taken) sections).2
  | [] => ⟨rfl, rfl, rfl⟩
  | ⟨labels, body⟩ :: rest => by
      obtain ⟨hr, ho, hs⟩ := follows_stmts sc body
      obtain ⟨hr', ho', hs'⟩ := follows_sections (occurrencesIn sc body).2 rest
      refine ⟨?_, ?_, ?_⟩
      · simp only [renameSections, hr, hr', occurrencesInSections]
      · simp only [renameSections, hr, occurrencesInSections, ho, hs, ho', flatMap_labels,
          List.map_append]
      · simp only [renameSections, hr, occurrencesInSections, hs, hs']

end

end

end ShaderCompiler
