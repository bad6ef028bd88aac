import ShaderCompiler.Normal.Form
import ShaderCompiler.Proofs.Emission.Functions

namespace ShaderCompiler

mutual

/-- A `discard` stands in the statement, however deep. -/
def Stmt.discards : Stmt → Bool
  | .discard => true
  | .block body => discardsIn body
  | .ifElse _ yes none => yes.discards
  | .ifElse _ yes (some no) => yes.discards || no.discards
  | .whileLoop _ body => body.discards
  | .doWhile body _ => body.discards
  | .forLoop init _ _ body => discardsIn init || body.discards
  | .switch _ sections => discardsInSections sections
  | .tryCatch body catches none _ => discardsIn body || discardsInCatches catches
  | .tryCatch body catches (some final) _ =>
      discardsIn body || discardsInCatches catches || discardsIn final
  | .foreach _ _ _ body _ => body.discards
  | .lock _ body _ => body.discards
  | .using resource body _ => resource.discards || body.discards
  | .labeled _ s _ => s.discards
  | .unmanaged body _ => discardsIn body
  | .fixed decl body _ => decl.discards || body.discards
  | .attributed _ s _ => s.discards
  | _ => false

def discardsIn : List Stmt → Bool
  | [] => false
  | s :: rest => s.discards || discardsIn rest

def discardsInSections : List (SwitchSection Expr Stmt) → Bool
  | [] => false
  | ⟨_, body⟩ :: rest => discardsIn body || discardsInSections rest

def discardsInCatches : List (CatchClause Stmt) → Bool
  | [] => false
  | ⟨_, _, body⟩ :: rest => discardsIn body || discardsInCatches rest

end

def MethodBody.discards (m : MethodBody) : Bool := discardsIn m.body

def MethodDecl.discards (m : MethodDecl) : Bool := m.body.any discardsIn

theorem discardsIn_eq_any (body : List Stmt) : discardsIn body = body.any Stmt.discards := by
  induction body with
  | nil => rfl
  | cons s rest ih => rw [discardsIn, ih, List.any_cons]

theorem discardsIn_append (first second : List Stmt) :
    discardsIn (first ++ second) = (discardsIn first || discardsIn second) := by
  rw [discardsIn_eq_any, discardsIn_eq_any, discardsIn_eq_any, List.any_append]

theorem discards_ifElse {test : Expr} {yes : Stmt} {no : Option Stmt} :
    (Stmt.ifElse test yes no).discards = true ↔
      yes.discards = true ∨ ∃ s ∈ no, s.discards = true := by
  cases no with
  | none =>
      rw [Stmt.discards]
      simp
  | some s =>
      rw [Stmt.discards, Bool.or_eq_true]
      simp

section Normal

mutual

theorem discards_mapExprs (f : Expr → Expr) : (s : Stmt) → (s.mapExprs f).discards = s.discards
  | .block body => discardsIn_mapStmts f body
  | .ifElse _ yes none => discards_mapExprs f yes
  | .ifElse _ yes (some no) => by
      rw [Stmt.mapExprs, Stmt.discards, discards_mapExprs f yes, discards_mapExprs f no,
        Stmt.discards]
  | .whileLoop _ body | .doWhile body _ => discards_mapExprs f body
  | .forLoop init _ _ body => by
      rw [Stmt.mapExprs, Stmt.discards, discardsIn_mapStmts f init, discards_mapExprs f body,
        Stmt.discards]
  | .switch _ sections => discardsInSections_map f sections
  | .ret _ | .declare _ _ _ | .eval _ | .empty | .brk | .cont | .discard | .tryCatch _ _ _ _
  | .throw _ _ | .foreach _ _ _ _ _ | .lock _ _ _ | .using _ _ _ | .goto _ _ | .labeled _ _ _
  | .yield _ _ | .unmanaged _ _ | .fixed _ _ _ | .attributed _ _ _ => rfl

theorem discardsIn_mapStmts (f : Expr → Expr) : (body : List Stmt) →
    discardsIn (mapStmts f body) = discardsIn body
  | [] => rfl
  | s :: rest => by
      rw [mapStmts, discardsIn, discards_mapExprs f s, discardsIn_mapStmts f rest, discardsIn]

theorem discardsInSections_map (f : Expr → Expr) : (sections : List (SwitchSection Expr Stmt)) →
    discardsInSections (mapSections f sections) = discardsInSections sections
  | [] => rfl
  | ⟨_, body⟩ :: rest => by
      rw [mapSections, discardsInSections, discardsIn_mapStmts f body,
        discardsInSections_map f rest, discardsInSections]

end

variable (taken : List String)

mutual

theorem discards_renameStmt (r : Renaming) : (s : Stmt) →
    (renameStmt taken r s).1.discards = s.discards
  | .block body => discardsIn_renameStmts r body
  | .ifElse _ yes none => discards_renameStmt r yes
  | .ifElse _ yes (some no) => by
      rw [renameStmt, Stmt.discards, discards_renameStmt r yes, discards_renameStmt _ no,
        Stmt.discards]
  | .whileLoop _ body | .doWhile body _ => discards_renameStmt r body
  | .forLoop init _ _ body => by
      rw [renameStmt, Stmt.discards, discardsIn_renameStmts r init, discards_renameStmt _ body,
        Stmt.discards]
  | .switch _ sections => discardsInSections_rename r sections
  | .ret _ | .declare _ _ _ | .eval _ | .empty | .brk | .cont | .discard | .tryCatch _ _ _ _
  | .throw _ _ | .foreach _ _ _ _ _ | .lock _ _ _ | .using _ _ _ | .goto _ _ | .labeled _ _ _
  | .yield _ _ | .unmanaged _ _ | .fixed _ _ _ | .attributed _ _ _ => rfl

theorem discardsIn_renameStmts (r : Renaming) : (body : List Stmt) →
    discardsIn (renameStmts taken r body).1 = discardsIn body
  | [] => rfl
  | s :: rest => by
      rw [renameStmts, discardsIn, discards_renameStmt r s, discardsIn_renameStmts _ rest,
        discardsIn]

theorem discardsInSections_rename (r : Renaming) :
    (sections : List (SwitchSection Expr Stmt)) →
    discardsInSections (renameSections taken r sections).1 = discardsInSections sections
  | [] => rfl
  | ⟨_, body⟩ :: rest => by
      rw [renameSections, discardsInSections, discardsIn_renameStmts r body,
        discardsInSections_rename _ rest, discardsInSections]

end

theorem MethodBody.discards_normalize (m : MethodBody) : m.normalize.discards = m.discards := by
  rw [MethodBody.discards, normalize, withLocals, discardsIn_renameStmts, withOperators,
    discardsIn_mapStmts, MethodBody.discards]

end Normal

def ClassContext.admitsDiscard (ctx : ClassContext) : Bool := !ctx.stage.any (· != .fragment)

theorem EmitsInits.not_discardsIn {f : Frame} {init : List Stmt} {u v : Uses}
    {texts : List String} (h : EmitsInits f init u texts v) : discardsIn init = false := by
  induction h with
  | nil => rfl
  | declare _ _ ih | eval _ _ ih => exact ih

/-- What becomes of a discarding statement: the class admits it, and it has a line. -/
def DiscardsAt (ctx : ClassContext) (lines : List Line) : Prop :=
  ctx.admitsDiscard = true ∧ "discard;" ∈ lines.map (·.text)

theorem DiscardsAt.append_left {ctx : ClassContext} {lines : List Line}
    (h : DiscardsAt ctx lines) (more : List Line) : DiscardsAt ctx (lines ++ more) := by
  refine ⟨h.1, ?_⟩
  rw [List.map_append]
  exact List.mem_append_left _ h.2

theorem DiscardsAt.append_right {ctx : ClassContext} {lines : List Line}
    (h : DiscardsAt ctx lines) (before : List Line) : DiscardsAt ctx (before ++ lines) := by
  refine ⟨h.1, ?_⟩
  rw [List.map_append]
  exact List.mem_append_right _ h.2

theorem DiscardsAt.nest {ctx : ClassContext} {lines : List Line} (h : DiscardsAt ctx lines) :
    DiscardsAt ctx (lines.map Line.nest) := by
  refine ⟨h.1, ?_⟩
  rw [List.map_map]
  exact h.2

theorem DiscardsAt.opened {ctx : ClassContext} {lines : List Line} (h : DiscardsAt ctx lines)
    (opening : String) : DiscardsAt ctx (Line.opened opening lines) :=
  h.nest.append_right [.flat opening]

mutual

theorem Emits.discardsAt {f : Frame} {braced : Bool} {s : Stmt} {u v : Uses} {lines : List Line} :
    Emits f braced s u lines v → s.discards = true → DiscardsAt f.context lines
  | .discard hstage, _ =>
      ⟨by simpa [ClassContext.admitsDiscard] using hstage, List.mem_singleton_self _⟩
  | .block hbody, hd => by
      have hbody := hbody.discardsAt hd
      split
      · exact (hbody.opened _).append_left _
      · exact hbody
  | .ifElse _ hyes hno, hd => by
      rcases discards_ifElse.mp hd with hd | ⟨s, hs, hd⟩
      · exact (((hyes.discardsAt hd).opened _).append_left _).append_left _
      · exact ((hno.discardsAt s hs hd).append_right _).append_left _
  | .whileLoop _ hbody, hd | .doWhile hbody _, hd => ((hbody.discardsAt hd).opened _).append_left _
  | .forLoop hinit _ _ hbody, hd => by
      rw [Stmt.discards, hinit.not_discardsIn, Bool.false_or] at hd
      have hbody := hbody.discardsAt hd
      rw [Frame.context_afterAll] at hbody
      exact (hbody.opened _).append_left _
  | .switch _ hsections, hd => ((hsections.discardsAt hd).append_right [_]).append_left _
  | .empty, hd | .retNone, hd | .ret _, hd | .brk, hd | .cont, hd | .declare _, hd
  | .eval _, hd => absurd hd Bool.false_ne_true

theorem EmitsElse.discardsAt {f : Frame} {no : Option Stmt} {u v : Uses} {lines : List Line} :
    EmitsElse f no u lines v → ∀ s ∈ no, s.discards = true → DiscardsAt f.context lines
  | .none => nofun
  | .elseIf _ hyes hno => by
      rintro s ⟨⟩ hd
      rcases discards_ifElse.mp hd with hd | ⟨s, hs, hd⟩
      · exact ((hyes.discardsAt hd).opened _).append_left _
      · exact (hno.discardsAt s hs hd).append_right _
  | .other _ hbody => by
      rintro s ⟨⟩ hd
      exact (hbody.discardsAt hd).opened _

theorem EmitsAll.discardsAt {f : Frame} {body : List Stmt} {u v : Uses} {lines : List Line} :
    EmitsAll f body u lines v → discardsIn body = true → DiscardsAt f.context lines
  | .nil, hd => absurd hd Bool.false_ne_true
  | .cons hs hrest, hd => by
      rw [discardsIn, Bool.or_eq_true] at hd
      rcases hd with hd | hd
      · exact (hs.discardsAt hd).append_left _
      · have hmore := hrest.discardsAt hd
        rw [Frame.context_after] at hmore
        exact hmore.append_right _

theorem EmitsSections.discardsAt {f : Frame} {sections : List (SwitchSection Expr Stmt)}
    {u v : Uses} {lines : List Line} :
    EmitsSections f sections u lines v → discardsInSections sections = true →
      DiscardsAt f.context lines
  | .nil, hd => absurd hd Bool.false_ne_true
  | .cons _ hbody hrest, hd => by
      rw [discardsInSections, Bool.or_eq_true] at hd
      rcases hd with hd | hd
      · exact ((hbody.discardsAt hd).nest.append_right _).append_left _
      · have hmore := hrest.discardsAt hd
        rw [Frame.context_afterAll] at hmore
        exact hmore.append_right _

end

/-- Of an emitted method that discards, the class admits it and a line says it. -/
theorem discardsAt_of_emitFunction {ctx : ClassContext} {indent : String} {m : MethodBody}
    {f : ShaderFunction} (h : emitFunction ctx indent m = .ok f) (hd : m.discards = true) :
    ∃ lines, f.text = renderLines indent lines ∧ DiscardsAt ctx lines := by
  obtain ⟨lines, htext, ⟨-, -, -, -, hbody⟩⟩ := emitsFunction_of_emitFunction h
  have hbody := hbody.discardsAt hd
  rw [context_bindParams] at hbody
  exact ⟨_, htext, (hbody.opened _).append_left _⟩

end ShaderCompiler
