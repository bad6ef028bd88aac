import ShaderCompiler.Interface.Reflect
import ShaderCompiler.Proofs.Emission.PrunedText

namespace ShaderCompiler

/-- A way to reorder the methods of a class. -/
structure Reordering where
  apply : List (String × MethodSig) → List (String × MethodSig)
  perm (methods : List (String × MethodSig)) : (apply methods).Perm methods

theorem exists_reordering {methods methods' : List (String × MethodSig)}
    (h : methods'.Perm methods) : ∃ r : Reordering, r.apply methods = methods' := by
  refine ⟨⟨fun ms => if ms = methods then methods' else ms, ?_⟩, if_pos rfl⟩
  intro ms
  by_cases hms : ms = methods
  · rw [if_pos hms, hms]
    exact h
  · rw [if_neg hms]

def ClassContext.reorder (ctx : ClassContext) (r : Reordering) : ClassContext :=
  { ctx with methods := r.apply ctx.methods }

def TypeEnv.reorder (env : TypeEnv) (r : Reordering) : TypeEnv :=
  { env with context := env.context.reorder r }

def Frame.reorder (f : Frame) (r : Reordering) : Frame := { f with env := f.env.reorder r }

variable (r : Reordering)

/-- The element of a list that has no other. -/
def only? {α : Type} : List α → Option α
  | [a] => some a
  | _ => none

theorem only?_perm {α : Type} {as bs : List α} (h : as.Perm bs) : only? as = only? bs := by
  match as, bs with
  | [], bs => rw [List.nil_perm.mp h]
  | [a], bs => rw [List.singleton_perm.mp h]
  | _ :: _ :: _, [] | _ :: _ :: _, [_] => exact absurd h.length_eq (by simp)
  | _ :: _ :: _, _ :: _ :: _ => rfl

namespace ClassContext

variable (ctx : ClassContext) (name : String)

theorem hasMethod_reorder : (ctx.reorder r).hasMethod name = ctx.hasMethod name :=
  List.Perm.any_eq (r.perm ctx.methods)

theorem overloads_reorder_perm : ((ctx.reorder r).overloads name).Perm (ctx.overloads name) :=
  ((r.perm ctx.methods).filter _).map _

theorem selectOverload_eq (args : List (Option ValueType)) :
    ctx.selectOverload name args =
      (only? ((ctx.overloads name).filter (·.params.length == args.length))).or
        (only? (((ctx.overloads name).filter (·.params.length == args.length)).filter
          (accepts · args))) := by
  rw [selectOverload]
  generalize (ctx.overloads name).filter (·.params.length == args.length) = fitting
  match fitting with
  | [] | [_] => rfl
  | a :: b :: rest =>
      dsimp only
      generalize (a :: b :: rest).filter (accepts · args) = agreeing
      match agreeing with
      | [] | [_] | _ :: _ :: _ => rfl

theorem selectOverload_reorder (args : List (Option ValueType)) :
    (ctx.reorder r).selectOverload name args = ctx.selectOverload name args := by
  have hfit := (ctx.overloads_reorder_perm r name).filter (·.params.length == args.length)
  rw [selectOverload_eq, selectOverload_eq, only?_perm hfit, only?_perm (hfit.filter _)]

end ClassContext

theorem callType?_reorder (ctx : ClassContext) (name : String) (args : List (Option ValueType)) :
    callType? (ctx.reorder r) name args = callType? ctx name args := by
  rw [callType?, callType?, ctx.hasMethod_reorder, ctx.selectOverload_reorder]
  rfl

mutual

theorem infer_reorder (env : TypeEnv) : (e : Expr) → infer (env.reorder r) e = infer env e
  | .assign _ target _ => by simp only [infer, infer_reorder env target]
  | .binary _ lhs rhs => by simp only [infer, infer_reorder env lhs, infer_reorder env rhs]
  | .unary _ operand => by simp only [infer, infer_reorder env operand]
  | .call none name args => by
      rw [infer, infer, inferArgs_reorder env args]
      exact callType?_reorder r env.context name _
  | .call (some receiver) name args => by
      by_cases h : receiver = .self
      · subst h
        rw [infer, infer, inferArgs_reorder env args]
        exact callType?_reorder r env.context name _
      · rw [infer_call_receiver h, infer_call_receiver h]
  | .member target name => by
      by_cases h : target = .self
      · subst h
        rfl
      · rw [infer_member h, infer_member h, infer_reorder env target]
        rfl
  | .index target _ => by simp only [infer, infer_reorder env target]
  | .conditional _ yes no => by simp only [infer, infer_reorder env yes, infer_reorder env no]
  | .construct _ _ | .newArray _ _ _ | .cast _ _ | .lambda _ _ _ | .arrayInit _ | .ident _ | .self
  | .literal _ | .base _ | .null _ | .query _ | .typeTest _ _ _ _ | .typeOf _ _ | .sizeOf _ _
  | .deref _ _ | .addressOf _ _ | .arrow _ _ _ | .stackAlloc _ _ _ | .anonymous _ _ => rfl

theorem inferArgs_reorder (env : TypeEnv) : (args : List (Arg Expr)) →
    inferArgs (env.reorder r) args = inferArgs env args
  | [] => rfl
  | a :: rest => by
      rw [inferArgs, inferArgs, infer_reorder env a.value, inferArgs_reorder env rest]

end

section Frame

variable (f : Frame)

theorem hintOf_reorder (e : Expr) : (f.reorder r).hintOf e = f.hintOf e :=
  congrArg literalHint (infer_reorder r f.env e)

theorem integralPair_reorder (lhs rhs : Expr) :
    (f.reorder r).integralPair lhs rhs = f.integralPair lhs rhs := by
  show ((infer (f.env.reorder r) lhs).any _ && (infer (f.env.reorder r) rhs).any _) = _
  rw [infer_reorder, infer_reorder]
  rfl

theorem ownHints_reorder (name : String) (args : List (Arg Expr)) :
    ownHints (f.reorder r) name args = ownHints f name args := by
  have hselect : (f.reorder r).context.selectOverload name (inferArgs (f.reorder r).env args) =
      f.context.selectOverload name (inferArgs f.env args) := by
    show (f.context.reorder r).selectOverload name (inferArgs (f.env.reorder r) args) = _
    rw [inferArgs_reorder, ClassContext.selectOverload_reorder]
  rw [ownHints, ownHints, hselect]

theorem intrinsicHints_reorder (name : String) (args : List (Arg Expr)) :
    intrinsicHints (f.reorder r) name args = intrinsicHints f name args := by
  have hargs : inferArgs (f.reorder r).env args = inferArgs f.env args := inferArgs_reorder r _ args
  rw [intrinsicHints, intrinsicHints, hargs]

theorem bareForm_reorder (name : String) (args : List (Arg Expr)) :
    bareForm (f.reorder r) name args = bareForm f name args := by
  have hown : (f.reorder r).context.hasMethod name = f.context.hasMethod name :=
    f.context.hasMethod_reorder r name
  rw [bareForm, bareForm, hown, ownHints_reorder, intrinsicHints_reorder]
  rfl

theorem callForm_reorder (receiver : Option Expr) (name : String) (args : List (Arg Expr)) :
    callForm (f.reorder r) receiver name args = callForm f receiver name args := by
  have hqualified (owner : String) :
      qualifiedForm (f.reorder r) owner name args = qualifiedForm f owner name args := by
    have hown : (f.reorder r).context.hasMethod name = f.context.hasMethod name :=
      f.context.hasMethod_reorder r name
    rw [qualifiedForm, qualifiedForm, hown, bareForm_reorder]
    rfl
  simp only [callForm, hqualified, bareForm_reorder]
  rfl

mutual

theorem render_reorder : (hint : Option ScalarKind) → (e : Expr) →
    render (f.reorder r) hint e = render f hint e
  | hint, .literal l => by
      cases l <;> rfl
  | hint, .assign op target value => by
      simp only [render, render_reorder _ target, render_reorder _ value, hintOf_reorder,
        integralPair_reorder]
  | hint, .binary op lhs rhs => by
      simp only [render, render_reorder _ lhs, render_reorder _ rhs, hintOf_reorder,
        integralPair_reorder]
  | hint, .unary op operand => by simp only [render, render_reorder _ operand]
  | hint, .conditional test yes no => by
      simp only [render, render_reorder _ test, render_reorder _ yes, render_reorder _ no,
        hintOf_reorder]
  | hint, .call receiver name args => by
      simp only [render, callForm_reorder, renderArgs_reorder _ args]
  | hint, .construct type args => by
      simp only [render, renderArgs_reorder _ args]
      rfl
  | hint, .member target name => by
      by_cases h : target = .self
      · subst h
        rfl
      · rw [render_member h, render_member h, render_reorder _ target]
        simp only [show (f.reorder r).env = f.env.reorder r from rfl, infer_reorder]
        rfl
  | hint, .newArray element size none => rfl
  | hint, .newArray element size (some items) => by
      simp only [render, renderItems_reorder _ items]
      rfl
  | hint, .index target index => by
      simp only [render, render_reorder _ target, render_reorder _ index]
  | hint, .cast type operand => by
      simp only [render, render_reorder _ operand]
      rfl
  | _, .lambda _ _ _ | _, .arrayInit _ | _, .ident _ | _, .self
  | _, .base _ | _, .null _ | _, .query _ | _, .typeTest _ _ _ _ | _, .typeOf _ _ | _, .sizeOf _ _
  | _, .deref _ _ | _, .addressOf _ _ | _, .arrow _ _ _ | _, .stackAlloc _ _ _
  | _, .anonymous _ _ => rfl

theorem renderArgs_reorder : (hints : List (Option ScalarKind)) → (args : List (Arg Expr)) →
    renderArgs (f.reorder r) hints args = renderArgs f hints args
  | _, [] => rfl
  | hints, a :: rest => by
      simp only [renderArgs, render_reorder _ a.value, renderArgs_reorder _ rest]

theorem renderItems_reorder : (hint : Option ScalarKind) → (items : List Expr) →
    renderItems (f.reorder r) hint items = renderItems f hint items
  | _, [] => rfl
  | hint, e :: rest => by
      simp only [renderItems, render_reorder _ e, renderItems_reorder _ rest]

end

theorem arrayParts_reorder (element : String) (hint : Option ScalarKind) (name : String)
    (init : Option Expr) :
    arrayParts (f.reorder r) element hint name init = arrayParts f element hint name init := by
  have hlisted (items : List Expr) : listedParts (f.reorder r) element hint name items =
      listedParts f element hint name items := by
    rw [listedParts, listedParts, renderItems_reorder]
    rfl
  cases init with
  | none => rfl
  | some e =>
      by_cases h : e.isArrayValue = false
      · rw [arrayParts_value h, arrayParts_value h, render_reorder]
      · cases e with
        | arrayInit items => exact hlisted items
        | newArray type size items =>
            cases items with
            | some items => exact hlisted items
            | none =>
                cases size with
                | none => rfl
                | some size => rw [arrayParts, arrayParts, render_reorder]
        | _ => exact absurd rfl h

theorem declaredType_reorder (type : TypeRef) (ds : List (Declarator Expr)) :
    declaredType (f.reorder r) type ds = declaredType f type ds := by
  have hinfer (e : Expr) : infer (f.reorder r).env e = infer f.env e := infer_reorder r f.env e
  simp only [declaredType, hinfer, render_reorder]
  rfl

theorem declarator_reorder (type : ValueType) (target : String) (d : Declarator Expr) :
    declarator (f.reorder r) type target d = declarator f type target d := by
  simp only [declarator, arrayParts_reorder, render_reorder]

end Frame

theorem declaratorList_reorder (f : Frame) (type : ValueType) (target : String)
    (ds : List (Declarator Expr)) :
    declaratorList (f.reorder r) type target ds =
      Prod.map id (Frame.reorder · r) <$> declaratorList f type target ds := by
  induction ds generalizing f with
  | nil => rfl
  | cons d ds ih =>
      have hbind (t : ValueType) : (f.reorder r).bind d.name t = (f.bind d.name t).reorder r := rfl
      simp only [declaratorList, declarator_reorder, hbind, ih, map_bind, bind_map_left, map_pure]
      rfl

theorem declaration_reorder (f : Frame) (isConst : Bool) (type : TypeRef)
    (ds : List (Declarator Expr)) :
    declaration (f.reorder r) isConst type ds =
      Prod.map id (Frame.reorder · r) <$> declaration f isConst type ds := by
  rw [declaration, declaration]
  by_cases h : type.pointer = true
  · rw [if_pos h, if_pos h]
    rfl
  · rw [if_neg h, if_neg h]
    simp only [declaredType_reorder, declaratorList_reorder, map_bind, bind_map_left, map_pure]
    rfl

theorem forInits_reorder (f : Frame) (init : List Stmt) :
    forInits (f.reorder r) init = Prod.map id (Frame.reorder · r) <$> forInits f init := by
  induction init generalizing f with
  | nil => rfl
  | cons s rest ih =>
      cases s with
      | declare isConst type ds =>
          simp only [forInits, declaration_reorder, map_bind, bind_map_left, map_pure, Prod.map, ih]
          rfl
      | eval e =>
          simp only [forInits, render_reorder, map_bind, bind_map_left, map_pure, Prod.map, ih]
          rfl
      | _ => rfl

theorem forTest_reorder (f : Frame) (test : Option Expr) :
    forTest (f.reorder r) test = forTest f test := by
  cases test with
  | none => rfl
  | some e => simp only [forTest, render_reorder]

theorem caseLabels_reorder (f : Frame) (labels : List (CaseLabel Expr)) :
    caseLabels (f.reorder r) labels = caseLabels f labels := by
  induction labels with
  | nil => rfl
  | cons label labels ih =>
      cases label with
      | value e => simp only [caseLabels, render_reorder, ih]
      | default => simp only [caseLabels, ih]

mutual

theorem emitStmt_reorder (f : Frame) (braced : Bool) : (s : Stmt) →
    emitStmt (f.reorder r) braced s = Prod.map id (Frame.reorder · r) <$> emitStmt f braced s
  | .block body => by
      simp only [emitStmt, emitStmts_reorder f body, map_bind, bind_map_left, map_pure]
      rfl
  | .ifElse test yes no => by
      simp only [emitStmt, render_reorder, emitStmt_reorder f false yes, emitElse_reorder f no,
        map_bind, bind_map_left, map_pure]
      rfl
  | .whileLoop test body | .doWhile body test => by
      simp only [emitStmt, render_reorder, emitStmt_reorder f false body, map_bind, bind_map_left,
        map_pure]
      rfl
  | .forLoop init test step body => by
      simp only [emitStmt, forInits_reorder, map_bind, bind_map_left, Prod.map, forTest_reorder,
        forSteps, renderItems_reorder, emitStmt_reorder _ false body, map_pure]
      rfl
  | .switch scrutinee sections => by
      simp only [emitStmt, render_reorder, emitSections_reorder f sections, map_bind, map_pure]
      rfl
  | .ret (some e) | .eval e => by
      simp only [emitStmt, render_reorder, map_bind, map_pure]
      rfl
  | .discard => by
      rw [emitStmt, emitStmt]
      by_cases h : f.context.stage.any (· != .fragment) = true
      · rw [if_pos h, if_pos (show (f.reorder r).context.stage.any (· != .fragment) = true from h)]
        rfl
      · rw [if_neg h, if_neg (show ¬(f.reorder r).context.stage.any (· != .fragment) = true from h)]
        rfl
  | .declare isConst type ds => by
      simp only [emitStmt, declaration_reorder, map_bind, bind_map_left, map_pure]
      rfl
  | .ret none | .empty | .brk | .cont | .tryCatch _ _ _ _ | .throw _ _ | .foreach _ _ _ _ _
  | .lock _ _ _ | .using _ _ _ | .goto _ _ | .labeled _ _ _ | .yield _ _ | .unmanaged _ _
  | .fixed _ _ _ | .attributed _ _ _ => rfl

theorem emitElse_reorder (f : Frame) : (no : Option Stmt) →
    emitElse (f.reorder r) no = emitElse f no
  | none => rfl
  | some s => by
      by_cases h : s.isIfElse = false
      · simp only [emitElse_other h, emitStmt_reorder f false s, bind_map_left]
        rfl
      · cases s with
        | ifElse test yes no =>
            simp only [emitElse, render_reorder, emitStmt_reorder f false yes,
              emitElse_reorder f no, bind_map_left]
            rfl
        | _ => exact absurd rfl h

theorem emitStmts_reorder (f : Frame) : (body : List Stmt) →
    emitStmts (f.reorder r) body = Prod.map id (Frame.reorder · r) <$> emitStmts f body
  | [] => rfl
  | s :: rest => by
      simp only [emitStmts, emitStmt_reorder f true s, map_bind, bind_map_left, Prod.map,
        emitStmts_reorder _ rest, map_pure]
      rfl

theorem emitSections_reorder (f : Frame) : (sections : List (SwitchSection Expr Stmt)) →
    emitSections (f.reorder r) sections = emitSections f sections
  | [] => rfl
  | ⟨labels, body⟩ :: rest => by
      simp only [emitSections, caseLabels_reorder, emitStmts_reorder f body, bind_map_left,
        Prod.map, emitSections_reorder _ rest]
      rfl

end

theorem bindParams_reorder (f : Frame) (params : List Param) :
    bindParams (f.reorder r) params = (bindParams f params).reorder r := by
  unfold bindParams
  induction params generalizing f with
  | nil => rfl
  | cons p params ih => exact ih (f.bind p.name (.ofRef p.type))

theorem emitFunction_reorder (ctx : ClassContext) (indent : String) (m : MethodBody) :
    emitFunction (ctx.reorder r) indent m = emitFunction ctx indent m := by
  have hlines : functionLines (ctx.reorder r) m = functionLines ctx m := by
    let f : Frame := { env := { context := ctx }, member := m.name,
                       returns := (m.returnType.filter (·.name != "void")).map .ofRef }
    have hbody : emitStmts (bindParams (f.reorder r) m.params) m.body =
        Prod.map id (Frame.reorder · r) <$> emitStmts (bindParams f m.params) m.body := by
      rw [bindParams_reorder, emitStmts_reorder]
    simp only [functionLines]
    refine bind_congr fun type => bind_congr fun params => ?_
    show (emitStmts (bindParams (f.reorder r) m.params) m.body >>= _) = _
    rw [hbody, bind_map_left]
    rfl
  rw [emitFunction, emitFunction, hlines]

theorem initializer_reorder (ctx : ClassContext) (owner : String) (type : ValueType) (e : Expr) :
    initializer (ctx.reorder r) owner type e = initializer ctx owner type e := by
  let f : Frame := { env := { context := ctx }, member := owner }
  have hframe : { env := { context := ctx.reorder r }, member := owner } = f.reorder r := rfl
  simp only [initializer, hframe, arrayParts_reorder, render_reorder]
  rfl

theorem reflect_reorder (settings : Settings) (ctx : ClassContext) (c : ClassDecl) :
    reflect settings (ctx.reorder r) c = reflect settings ctx c := by
  have hinitialized (stage : Stage) (debug requireLocations : Bool) (field : FieldDecl)
      (notes : Annotations) (owner : String) :
      initializedVariable ⟨ctx.reorder r, stage, debug, requireLocations⟩ field notes owner =
        initializedVariable ⟨ctx, stage, debug, requireLocations⟩ field notes owner := by
    simp only [initializedVariable, initialValue, initializer_reorder]
    rfl
  have hfield (stage : Stage) (debug requireLocations : Bool) :
      fieldEntry ⟨ctx.reorder r, stage, debug, requireLocations⟩ =
        fieldEntry ⟨ctx, stage, debug, requireLocations⟩ := by
    funext field
    simp only [fieldEntry, hinitialized]
    rfl
  unfold reflect
  simp only [hfield]
  rfl

end ShaderCompiler
