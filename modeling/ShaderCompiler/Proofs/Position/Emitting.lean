import ShaderCompiler.Emission.Function
import ShaderCompiler.Proofs.Emission.PrunedText
import ShaderCompiler.Proofs.Position.Trees
import ShaderCompiler.Proofs.Sequencing

namespace ShaderCompiler

def Place.unplaced : Place → Place
  | .line site _ => .line site 0
  | .field owner _ => .field owner 0
  | place => place

def RecoveryFault.unplaced : RecoveryFault → RecoveryFault
  | .noBody method _ => .noBody method 0
  | fault => fault

def AttributeFault.unplaced : AttributeFault → AttributeFault
  | .onDeclaration name _ target => .onDeclaration name 0 target
  | fault => fault

def Diagnostic.unplaced : Diagnostic → Diagnostic
  | .unreadable file error => .unreadable file error.unplaced
  | .recovery fault => .recovery fault.unplaced
  | .unsupported construct place => .unsupported construct place.unplaced
  | .badAttribute fault => .badAttribute fault.unplaced
  | d => d

def Emit.unplaced {α : Type} (x : Emit α) : Emit α := fun uses =>
  (x uses).mapError Diagnostic.unplaced

section Emit

variable {α β : Type}

@[simp] theorem Emit.unplaced_bind (x : Emit α) (k : α → Emit β) :
    Emit.unplaced (x >>= k) = Emit.unplaced x >>= fun a => Emit.unplaced (k a) := by
  funext uses
  show (StateT.bind x k uses).mapError _ = StateT.bind _ _ uses
  unfold StateT.bind
  show _ = ((x uses).mapError _) >>= _
  cases x uses <;> rfl

@[simp] theorem Emit.unplaced_pure (a : α) : Emit.unplaced (pure a) = pure a := rfl

@[simp] theorem Emit.unplaced_throw (d : Diagnostic) :
    Emit.unplaced (throw d : Emit α) = throw d.unplaced := rfl

@[simp] theorem Emit.unplaced_ite (c : Prop) [Decidable c] (x y : Emit α) :
    Emit.unplaced (if c then x else y) = if c then Emit.unplaced x else Emit.unplaced y := by
  split <;> rfl

@[simp] theorem Emit.unplaced_lift (x : Except Diagnostic α) :
    Emit.unplaced (liftM x) = liftM (x.mapError Diagnostic.unplaced) := by
  cases x <;> rfl

theorem Emit.unplaced_mapM (h : α → Emit β) (as : List α) :
    Emit.unplaced (as.mapM h) = as.mapM fun a => Emit.unplaced (h a) := by
  induction as with
  | nil => rfl
  | cons a as ih =>
      simp only [List.mapM_cons, Emit.unplaced_bind, Emit.unplaced_pure, ih]

theorem Emit.mapError_run (x : Emit α) (uses : Uses) :
    (x.run uses).mapError Diagnostic.unplaced = (Emit.unplaced x).run uses := rfl

@[simp] theorem unplaced_reject (f : Frame) (construct : Construct) (span : Span) :
    (f.reject construct span).unplaced = f.reject construct .none := rfl

end Emit

@[simp] theorem ValueType.ofRef_unplaced (t : TypeRef) :
    ValueType.ofRef t.unplaced = ValueType.ofRef t := rfl

theorem Expr.keepsLeaves_unplaced : KeepsLeaves Expr.unplaced := by
  intro e leaf h
  constructor
  · rintro rfl
    cases e with
    | ident | self | literal => simp
    | lambda params body span => cases body <;> simp [isLeaf] at h
    | _ => simp [isLeaf] at h
  · rintro rfl
    cases e with
    | ident | self | literal => simp
    | _ => cases h

mutual

theorem infer_unplaced (env : TypeEnv) : (e : Expr) → infer env e.unplaced = infer env e
  | .assign _ target _ => by simp only [Expr.unplaced, infer, infer_unplaced env target]
  | .binary _ lhs rhs => by
      simp only [Expr.unplaced, infer, infer_unplaced env lhs, infer_unplaced env rhs]
  | .unary _ operand => by simp only [Expr.unplaced, infer, infer_unplaced env operand]
  | .call none name args => by
      simp only [Expr.unplaced, unplacedExpr?, infer, inferArgs_unplaced env args]
  | .call (some receiver) name args => by
      rw [Expr.unplaced, unplacedExpr?]
      by_cases h : receiver = .self
      · subst h
        rw [Expr.unplaced, infer, infer, inferArgs_unplaced env args]
      · rw [infer_call_receiver h, infer_call_receiver (Expr.keepsLeaves_unplaced.ne_self h)]
  | .member target name => by
      rw [Expr.unplaced]
      by_cases h : target = .self
      · subst h
        rw [Expr.unplaced]
      · rw [infer_member h, infer_member (Expr.keepsLeaves_unplaced.ne_self h),
          infer_unplaced env target]
  | .construct type args => by simp only [Expr.unplaced, infer, ValueType.ofRef_unplaced]
  | .newArray element size items => by
      simp only [Expr.unplaced_newArray, infer, TypeRef.name_unplaced]
  | .index target _ => by simp only [Expr.unplaced, infer, infer_unplaced env target]
  | .cast type operand => by simp only [Expr.unplaced, infer, ValueType.ofRef_unplaced]
  | .conditional _ yes no => by
      simp only [Expr.unplaced, infer, infer_unplaced env yes, infer_unplaced env no]
  | .lambda _ (.expr _) _ | .lambda _ (.block _) _ | .arrayInit _ | .ident _ | .self | .literal _
  | .base _ | .null _ | .query _ | .typeTest _ _ _ _ | .typeOf _ _ | .sizeOf _ _ | .deref _ _
  | .addressOf _ _ | .arrow _ _ _ | .stackAlloc _ _ _ | .anonymous _ _ => rfl

theorem inferArgs_unplaced (env : TypeEnv) : (args : List (Arg Expr)) →
    inferArgs env (unplacedArgs args) = inferArgs env args
  | [] => rfl
  | ⟨label, e⟩ :: rest => by
      rw [unplacedArgs, inferArgs, inferArgs, infer_unplaced env e, inferArgs_unplaced env rest]

end

theorem unplacedArgs_eq_mapValues (args : List (Arg Expr)) :
    unplacedArgs args = mapValues Expr.unplaced args := unplacedArgs_eq args

theorem hasLabel_unplaced (args : List (Arg Expr)) :
    hasLabel (unplacedArgs args) = hasLabel args := by
  rw [unplacedArgs_eq_mapValues, hasLabel_mapValues]

theorem constructForm_unplaced (f : Frame) (type : String) (args : List (Arg Expr)) :
    constructForm f type (unplacedArgs args) = constructForm f type args := by
  rw [unplacedArgs_eq_mapValues, constructForm_mapValues]

theorem callForm_unplaced (f : Frame) (receiver : Option Expr) (name : String)
    (args : List (Arg Expr)) :
    callForm f (unplacedExpr? receiver) name (unplacedArgs args) =
      callForm f receiver name args := by
  rw [unplacedExpr?_eq, unplacedArgs_eq_mapValues]
  refine callForm_mapValues Expr.keepsLeaves_unplaced (fun env args => ?_) f receiver name args
  rw [← unplacedArgs_eq_mapValues, inferArgs_unplaced]

theorem hintOf_unplaced (f : Frame) (e : Expr) : f.hintOf e.unplaced = f.hintOf e := by
  rw [Frame.hintOf, Frame.hintOf, infer_unplaced]

theorem integralPair_unplaced (f : Frame) (lhs rhs : Expr) :
    f.integralPair lhs.unplaced rhs.unplaced = f.integralPair lhs rhs := by
  rw [Frame.integralPair, Frame.integralPair, infer_unplaced, infer_unplaced]

mutual

theorem render_unplaced (f : Frame) : (hint : Option ScalarKind) → (e : Expr) →
    (render f hint e.unplaced).unplaced = (render f hint e).unplaced
  | hint, .assign op target value => by
      simp only [Expr.unplaced, render, Emit.unplaced_bind, Emit.unplaced_ite, Emit.unplaced_pure,
        render_unplaced f _ target, render_unplaced f _ value, hintOf_unplaced,
        integralPair_unplaced]
  | hint, .binary op lhs rhs => by
      simp only [Expr.unplaced, render, Emit.unplaced_bind, Emit.unplaced_ite, Emit.unplaced_pure,
        render_unplaced f _ lhs, render_unplaced f _ rhs, hintOf_unplaced, integralPair_unplaced]
  | hint, .unary op operand => by
      simp only [Expr.unplaced, render, Emit.unplaced_bind, render_unplaced f _ operand]
  | hint, .conditional test yes no => by
      simp only [Expr.unplaced, render, Emit.unplaced_bind, render_unplaced f _ test,
        render_unplaced f _ yes, render_unplaced f _ no, hintOf_unplaced]
  | hint, .call receiver name args => by
      simp only [Expr.unplaced, render, Emit.unplaced_bind, callForm_unplaced]
      refine bind_congr fun form => ?_
      cases form with
      | verbatim text => rfl
      | construct form =>
          cases form with
          | zero type zero => rfl
          | ofArgs type hints =>
              simp only [Emit.unplaced_bind, renderArgs_unplaced f _ args]
      | intrinsic name hints => simp only [Emit.unplaced_bind, renderArgs_unplaced f _ args]
      | own name hints => simp only [Emit.unplaced_bind, renderArgs_unplaced f _ args]
      | «foreign» dependency => simp only [Emit.unplaced_bind, renderArgs_unplaced f _ args]
  | hint, .construct type args => by
      simp only [Expr.unplaced, render, hasLabel_unplaced, Emit.unplaced_ite, Emit.unplaced_bind,
        Emit.unplaced_throw, unplaced_reject, TypeRef.name_unplaced, constructForm_unplaced]
      by_cases h : hasLabel args = true
      · rw [if_pos h, if_pos h]
        rfl
      · rw [if_neg h, if_neg h]
        refine bind_congr fun form => ?_
        cases form with
        | zero name zero => rfl
        | ofArgs name hints => simp only [Emit.unplaced_bind, renderArgs_unplaced f _ args]
  | hint, .member target name => by
      rw [Expr.unplaced]
      by_cases h : target = .self
      · subst h
        rw [Expr.unplaced]
      · rw [render_member h, render_member (Expr.keepsLeaves_unplaced.ne_self h)]
        simp only [Emit.unplaced_bind, render_unplaced f _ target, infer_unplaced]
  | hint, .newArray element size none => by simp only [Expr.unplaced, render]
  | hint, .newArray element size (some items) => by
      simp only [Expr.unplaced, render, Emit.unplaced_bind, renderItems_unplaced f _ items,
        TypeRef.name_unplaced]
  | hint, .arrayInit items => by simp only [Expr.unplaced, render]
  | hint, .index target index => by
      simp only [Expr.unplaced, render, Emit.unplaced_bind, render_unplaced f _ target,
        render_unplaced f _ index]
  | hint, .cast type operand => by
      simp only [Expr.unplaced, render, Emit.unplaced_ite, Emit.unplaced_bind,
        Emit.unplaced_throw, unplaced_reject, render_unplaced f _ operand, TypeRef.name_unplaced]
      rfl
  | _, .lambda _ (.expr _) _ | _, .lambda _ (.block _) _ | _, .ident _ | _, .self | _, .literal _
  | _, .base _ | _, .null _ | _, .query _ | _, .typeTest _ _ _ _ | _, .typeOf _ _ | _, .sizeOf _ _
  | _, .deref _ _ | _, .addressOf _ _ | _, .arrow _ _ _ | _, .stackAlloc _ _ _
  | _, .anonymous _ _ => rfl

theorem renderArgs_unplaced (f : Frame) : (hints : List (Option ScalarKind)) →
    (args : List (Arg Expr)) →
    (renderArgs f hints (unplacedArgs args)).unplaced = (renderArgs f hints args).unplaced
  | _, [] => rfl
  | hints, ⟨label, e⟩ :: rest => by
      simp only [unplacedArgs, renderArgs, Emit.unplaced_bind, render_unplaced f _ e,
        renderArgs_unplaced f _ rest]

theorem renderItems_unplaced (f : Frame) : (hint : Option ScalarKind) → (items : List Expr) →
    (renderItems f hint (unplacedExprs items)).unplaced = (renderItems f hint items).unplaced
  | _, [] => rfl
  | hint, e :: rest => by
      simp only [unplacedExprs, renderItems, Emit.unplaced_bind, render_unplaced f _ e,
        renderItems_unplaced f _ rest]

end

theorem listedParts_unplaced (f : Frame) (element : String) (hint : Option ScalarKind)
    (name : String) (items : List Expr) :
    (listedParts f element hint name (unplacedExprs items)).unplaced =
      (listedParts f element hint name items).unplaced := by
  have hlength : (unplacedExprs items).length = items.length := by
    rw [unplacedExprs_eq, List.length_map]
  have hempty : (unplacedExprs items).isEmpty = items.isEmpty := by
    rw [unplacedExprs_eq, List.isEmpty_map]
  simp only [listedParts, hempty, hlength, Emit.unplaced_ite, Emit.unplaced_bind,
    renderItems_unplaced]

theorem Expr.isArrayValue_unplaced (e : Expr) : e.unplaced.isArrayValue = e.isArrayValue := by
  cases e with
  | lambda params body span => cases body <;> simp [isArrayValue]
  | _ => simp [isArrayValue]

theorem Expr.isVerbatim_unplaced (e : Expr) : e.unplaced.isVerbatim = e.isVerbatim := by
  cases e with
  | lambda params body span => cases body <;> simp [isVerbatim]
  | _ => simp [isVerbatim]

theorem arrayParts_unplaced (f : Frame) (element : String) (hint : Option ScalarKind)
    (name : String) (init : Option Expr) :
    (arrayParts f element hint name (init.map Expr.unplaced)).unplaced =
      (arrayParts f element hint name init).unplaced := by
  cases init with
  | none => rfl
  | some e =>
      rw [Option.map_some]
      by_cases h : e.isArrayValue = false
      · rw [arrayParts_value h, arrayParts_value (by rwa [Expr.isArrayValue_unplaced])]
        simp only [Emit.unplaced_bind, render_unplaced]
      · cases e with
        | arrayInit items =>
            rw [Expr.unplaced, arrayParts, arrayParts, listedParts_unplaced]
        | newArray type size items =>
            cases items with
            | some items => rw [Expr.unplaced, arrayParts, arrayParts, listedParts_unplaced]
            | none =>
                rw [Expr.unplaced, unplacedExpr?_eq]
                cases size with
                | none => rfl
                | some size =>
                    simp only [Option.map_some, arrayParts, Emit.unplaced_bind, render_unplaced]
        | _ => exact absurd rfl h

theorem declaredType_unplaced (f : Frame) (type : TypeRef) (ds : List (Declarator Expr)) :
    (declaredType f type.unplaced (ds.map (Declarator.map Expr.unplaced))).unplaced =
      (declaredType f type ds).unplaced := by
  have hinit : (ds.map (Declarator.map Expr.unplaced)).head?.bind (·.init) =
      (ds.head?.bind (·.init)).map Expr.unplaced := by
    cases ds <;> rfl
  rw [declaredType, declaredType, hinit, TypeRef.name_unplaced]
  by_cases hvar : type.name = "var"
  · rw [if_pos hvar, if_pos hvar]
    cases ds.head?.bind (·.init) with
    | none => rfl
    | some init =>
        simp only [Option.map_some, infer_unplaced]
        cases infer f.env init with
        | some t => rfl
        | none => simp only [Emit.unplaced_bind, render_unplaced]
  · rw [if_neg hvar, if_neg hvar, ValueType.ofRef_unplaced]

theorem declarator_unplaced (f : Frame) (type : ValueType) (target : String)
    (d : Declarator Expr) :
    (declarator f type target (d.map Expr.unplaced)).unplaced =
      (declarator f type target d).unplaced := by
  have hany : (d.init.map Expr.unplaced).any Expr.isArrayValue = d.init.any Expr.isArrayValue := by
    cases d.init with
    | none => rfl
    | some e => exact Expr.isArrayValue_unplaced e
  simp only [declarator, Declarator.map, hany, Emit.unplaced_ite, Emit.unplaced_bind,
    arrayParts_unplaced]
  cases d.init with
  | none => rfl
  | some e => simp only [Option.map_some, Emit.unplaced_bind, render_unplaced]

theorem declaratorList_unplaced (f : Frame) (type : ValueType) (target : String)
    (ds : List (Declarator Expr)) :
    (declaratorList f type target (ds.map (Declarator.map Expr.unplaced))).unplaced =
      (declaratorList f type target ds).unplaced := by
  induction ds generalizing f with
  | nil => rfl
  | cons d ds ih =>
      simp only [List.map_cons, declaratorList, Emit.unplaced_bind, declarator_unplaced]
      simp only [Declarator.map, ih]

theorem declaration_unplaced (f : Frame) (isConst : Bool) (type : TypeRef)
    (ds : List (Declarator Expr)) :
    (declaration f isConst type.unplaced (unplacedDeclarators ds)).unplaced =
      (declaration f isConst type ds).unplaced := by
  simp only [unplacedDeclarators_eq, declaration, Emit.unplaced_ite, Emit.unplaced_bind,
    Emit.unplaced_throw, unplaced_reject, declaredType_unplaced, declaratorList_unplaced]
  rfl

theorem evalText_unplaced (e : Expr) (text : String) :
    evalText e.unplaced text = evalText e text := by
  rw [evalText, evalText, Expr.isVerbatim_unplaced]

theorem forInits_unplaced (f : Frame) (init : List Stmt) :
    (forInits f (unplacedStmts init)).unplaced = (forInits f init).unplaced := by
  induction init generalizing f with
  | nil => rfl
  | cons s rest ih =>
      cases s with
      | declare isConst type ds =>
          simp only [unplacedStmts, Stmt.unplaced, forInits, Emit.unplaced_bind,
            declaration_unplaced, ih]
      | eval e =>
          simp only [unplacedStmts, Stmt.unplaced, forInits, Emit.unplaced_bind, render_unplaced,
            ih]
      | goto target span => cases target <;> rfl
      | tryCatch body catches final span => cases final <;> rfl
      | _ => rfl

theorem forTest_unplaced (f : Frame) (test : Option Expr) :
    (forTest f (unplacedExpr? test)).unplaced = (forTest f test).unplaced := by
  cases test with
  | none => rfl
  | some e => simp only [unplacedExpr?, forTest, Emit.unplaced_bind, render_unplaced]

theorem forSteps_unplaced (f : Frame) (steps : List Expr) :
    (forSteps f (unplacedExprs steps)).unplaced = (forSteps f steps).unplaced := by
  simp only [forSteps, Emit.unplaced_bind, renderItems_unplaced]

theorem caseLabels_unplaced (f : Frame) (labels : List (CaseLabel Expr)) :
    (caseLabels f (unplacedLabels labels)).unplaced = (caseLabels f labels).unplaced := by
  induction labels with
  | nil => rfl
  | cons label labels ih =>
      cases label with
      | value e =>
          simp only [unplacedLabels, caseLabels, Emit.unplaced_bind, render_unplaced, ih]
      | default => simp only [unplacedLabels, caseLabels, Emit.unplaced_bind, ih]

theorem Stmt.isIfElse_unplaced (s : Stmt) : s.unplaced.isIfElse = s.isIfElse := by
  cases s with
  | goto target span => cases target <;> rfl
  | tryCatch body catches final span => cases final <;> rfl
  | _ => rfl

mutual

theorem emitStmt_unplaced (f : Frame) (braced : Bool) : (s : Stmt) →
    (emitStmt f braced s.unplaced).unplaced = (emitStmt f braced s).unplaced
  | .block body => by
      simp only [Stmt.unplaced, emitStmt, Emit.unplaced_bind, emitStmts_unplaced f body]
  | .ifElse test yes no => by
      simp only [Stmt.unplaced, emitStmt, Emit.unplaced_bind, render_unplaced,
        emitStmt_unplaced f false yes, emitElse_unplaced f no]
  | .whileLoop test body | .doWhile body test => by
      simp only [Stmt.unplaced, emitStmt, Emit.unplaced_bind, render_unplaced,
        emitStmt_unplaced f false body]
  | .forLoop init test step body => by
      simp only [Stmt.unplaced, emitStmt, Emit.unplaced_bind, forInits_unplaced, forTest_unplaced,
        forSteps_unplaced, emitStmt_unplaced _ false body]
  | .switch scrutinee sections => by
      simp only [Stmt.unplaced, emitStmt, Emit.unplaced_bind, render_unplaced,
        emitSections_unplaced f sections]
  | .ret none => rfl
  | .ret (some value) => by
      simp only [Stmt.unplaced, unplacedExpr?, emitStmt, Emit.unplaced_bind, render_unplaced]
  | .declare isConst type ds => by
      simp only [Stmt.unplaced, emitStmt, Emit.unplaced_bind, declaration_unplaced]
  | .eval e => by
      simp only [Stmt.unplaced, emitStmt, Emit.unplaced_bind, render_unplaced, evalText_unplaced]
  | .empty | .brk | .cont | .discard | .tryCatch _ _ none _ | .tryCatch _ _ (some _) _
  | .throw _ _ | .foreach _ _ _ _ _ | .lock _ _ _ | .using _ _ _ | .goto (.label _) _
  | .goto (.value _) _ | .goto .default _ | .labeled _ _ _ | .yield _ _ | .unmanaged _ _
  | .fixed _ _ _ | .attributed _ _ _ => rfl

theorem emitElse_unplaced (f : Frame) : (no : Option Stmt) →
    (emitElse f (unplacedStmt? no)).unplaced = (emitElse f no).unplaced
  | none => rfl
  | some s => by
      rw [unplacedStmt?]
      by_cases h : s.isIfElse = false
      · rw [emitElse_other h, emitElse_other (by rwa [Stmt.isIfElse_unplaced])]
        simp only [Emit.unplaced_bind, emitStmt_unplaced f false s]
      · cases s with
        | ifElse test yes no =>
            simp only [Stmt.unplaced, emitElse, Emit.unplaced_bind, render_unplaced,
              emitStmt_unplaced f false yes, emitElse_unplaced f no]
        | _ => exact absurd rfl h

theorem emitStmts_unplaced (f : Frame) : (body : List Stmt) →
    (emitStmts f (unplacedStmts body)).unplaced = (emitStmts f body).unplaced
  | [] => rfl
  | s :: rest => by
      simp only [unplacedStmts, emitStmts, Emit.unplaced_bind, emitStmt_unplaced f true s,
        emitStmts_unplaced _ rest]

theorem emitSections_unplaced (f : Frame) : (sections : List (SwitchSection Expr Stmt)) →
    (emitSections f (unplacedSections sections)).unplaced = (emitSections f sections).unplaced
  | [] => rfl
  | ⟨labels, body⟩ :: rest => by
      simp only [unplacedSections, emitSections, Emit.unplaced_bind, caseLabels_unplaced,
        emitStmts_unplaced f body, emitSections_unplaced _ rest]

end

theorem arraySize_unplaced (fault : String → AttributeFault) (attributes : List Attribute) :
    arraySize fault (attributes.map Attribute.unplaced) = arraySize fault attributes := by
  have hfind : (attributes.map Attribute.unplaced).find? (·.name != "ArraySize") =
      (attributes.find? (·.name != "ArraySize")).map Attribute.unplaced := List.find?_map
  have hfirst : (attributes.map Attribute.unplaced).head?.bind (·.firstText?) =
      attributes.head?.bind (·.firstText?) := by
    cases attributes <;> rfl
  rw [arraySize, arraySize, hfind, hfirst]
  cases attributes.find? (·.name != "ArraySize") <;> rfl

theorem returnText_unplaced (f : Frame) (m : MethodBody) :
    (returnText f m.unplaced).mapError Diagnostic.unplaced =
      (returnText f m).mapError Diagnostic.unplaced := by
  simp only [returnText, MethodBody.unplaced, arraySize_unplaced, mapError_bind]
  refine bind_congr fun size => ?_
  cases m.returnType with
  | none => rfl
  | some type =>
      simp only [Option.map_some, mapError_ite, mapError_bind, mapError_throw, unplaced_reject]
      rfl

theorem paramText_unplaced (f : Frame) (p : Param) :
    (paramText f p.unplaced).mapError Diagnostic.unplaced =
      (paramText f p).mapError Diagnostic.unplaced := by
  have hdefault : p.unplaced.default.isSome = p.default.isSome := Option.isSome_map
  have hsize (fault : String → AttributeFault) :
      arraySize fault p.unplaced.attributes = arraySize fault p.attributes :=
    arraySize_unplaced fault p.attributes
  simp only [paramText, mapError_ite, mapError_bind, mapError_throw, unplaced_reject, hdefault,
    hsize]
  rfl

theorem bindParams_unplaced (f : Frame) (params : List Param) :
    bindParams f (params.map Param.unplaced) = bindParams f params := by
  rw [bindParams, bindParams, List.foldl_map]
  rfl

theorem returns_unplaced (type : Option TypeRef) :
    ((type.map TypeRef.unplaced).filter (·.name != "void")).map ValueType.ofRef =
      (type.filter (·.name != "void")).map ValueType.ofRef := by
  cases type with
  | none => rfl
  | some type => simp [Option.filter_some, apply_ite (Option.map _)]

theorem functionLines_unplaced (ctx : ClassContext) (m : MethodBody) :
    (functionLines ctx m.unplaced).unplaced = (functionLines ctx m).unplaced := by
  have hreturns : (m.unplaced.returnType.filter (·.name != "void")).map ValueType.ofRef =
      (m.returnType.filter (·.name != "void")).map .ofRef := returns_unplaced m.returnType
  have hparams (f : Frame) : Emit.unplaced (m.unplaced.params.mapM fun p => paramText f p) =
      Emit.unplaced (m.params.mapM fun p => paramText f p) := by
    simp only [MethodBody.unplaced, List.mapM_map, Emit.unplaced_mapM, Function.comp_apply,
      Emit.unplaced_lift, paramText_unplaced]
  have hbody (f : Frame) :
      (emitStmts f m.unplaced.body).unplaced = (emitStmts f m.body).unplaced := by
    rw [← emitStmts_unplaced f m.body, unplacedStmts_eq]
    rfl
  have hbind (f : Frame) : bindParams f m.unplaced.params = bindParams f m.params :=
    bindParams_unplaced f m.params
  simp only [functionLines, Emit.unplaced_bind, Emit.unplaced_lift, hreturns, returnText_unplaced,
    hparams, hbind, hbody]
  rfl

theorem emitFunction_unplaced (ctx : ClassContext) (indent : String) (m : MethodBody) :
    (emitFunction ctx indent m.unplaced).mapError Diagnostic.unplaced =
      (emitFunction ctx indent m).mapError Diagnostic.unplaced := by
  simp only [emitFunction, mapError_bind, Emit.mapError_run, functionLines_unplaced]
  simp only [MethodBody.unplaced, List.length_map]
  rfl

theorem initializer_unplaced (ctx : ClassContext) (owner : String) (type : ValueType) (e : Expr) :
    (initializer ctx owner type e.unplaced).mapError Diagnostic.unplaced =
      (initializer ctx owner type e).mapError Diagnostic.unplaced := by
  have hparts (f : Frame) (element : String) (hint : Option ScalarKind) :
      (arrayParts f element hint owner (some e.unplaced)).unplaced =
        (arrayParts f element hint owner (some e)).unplaced :=
    arrayParts_unplaced f element hint owner (some e)
  simp only [initializer, mapError_bind, Emit.mapError_run, Emit.unplaced_ite, Emit.unplaced_bind,
    hparts, render_unplaced]

theorem initializerLength?_unplaced (e : Expr) :
    initializerLength? e.unplaced = initializerLength? e := by
  cases e with
  | arrayInit items => simp [initializerLength?]
  | newArray element size items =>
      cases items with
      | some items => simp [initializerLength?]
      | none =>
          cases size with
          | none => rfl
          | some size =>
              cases size with
              | literal value => cases value <;> rfl
              | newArray element size items => cases items <;> rfl
              | lambda params body span => cases body <;> rfl
              | _ => rfl
  | lambda params body span => cases body <;> rfl
  | _ => rfl

end ShaderCompiler
