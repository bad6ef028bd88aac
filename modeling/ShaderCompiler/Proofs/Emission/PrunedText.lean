import ShaderCompiler.Proofs.Emission.Pruning

namespace ShaderCompiler

theorem prunedArgs_eq_text {args : List (Arg Expr)} {label : Option String} {text : String} :
    prunedArgs args = [⟨label, .literal (.str text)⟩] ↔
      args = [⟨label, .literal (.str text)⟩] := by
  rw [prunedArgs_eq_map]
  exact mapValues_eq_text Expr.keepsLeaves_pruned

theorem isVerbatimText_prunedArgs (name : String) (args : List (Arg Expr)) :
    isVerbatimText name (prunedArgs args) = isVerbatimText name args := by
  by_cases h : ∃ label text, args = [⟨label, .literal (.str text)⟩]
  · obtain ⟨label, text, rfl⟩ := h
    rfl
  · rw [isVerbatimText, isVerbatimText]
    · exact fun label text he => h ⟨label, text, he⟩
    · exact fun label text he => h ⟨label, text, prunedArgs_eq_text.mp he⟩

theorem answersBare_pruned (ctx : ClassContext) (receiver : Option Expr) :
    answersBare ctx (receiver.map Expr.pruned) = answersBare ctx receiver := by
  cases receiver with
  | none => rfl
  | some r =>
      rw [Option.map_some]
      by_cases hr : r.isLeaf
      · rw [(Expr.keepsLeaves_pruned hr).mpr rfl]
      · have refused {r : Expr} (hr : ¬ r.isLeaf) : answersBare ctx (some r) = false := by
          cases r <;> first | rfl | exact absurd rfl hr
        rw [refused hr, refused (Expr.keepsLeaves_pruned.not_isLeaf hr)]

theorem isVerbatimCall_pruned (ctx : ClassContext) (receiver : Option Expr) (name : String)
    (args : List (Arg Expr)) :
    isVerbatimCall ctx (receiver.map Expr.pruned) name (prunedArgs args) =
      isVerbatimCall ctx receiver name args := by
  rw [isVerbatimCall, isVerbatimCall, answersBare_pruned, isVerbatimText_prunedArgs]

theorem constructForm_prunedArgs (f : Frame) (type : String) (args : List (Arg Expr)) :
    constructForm f type (prunedArgs args) = constructForm f type args := by
  rw [prunedArgs_eq_map]
  exact constructForm_mapValues Expr.pruned f type args

theorem callForm_pruned (f : Frame) (receiver : Option Expr) (name : String)
    (args : List (Arg Expr)) :
    callForm f (receiver.map Expr.pruned) name (prunedArgs args) =
      callForm f receiver name args := by
  rw [prunedArgs_eq_map]
  refine callForm_mapValues Expr.keepsLeaves_pruned (fun env args => ?_) f receiver name args
  rw [mapValues, ← prunedArgs_eq_map, inferArgs_pruned]

@[simp] theorem hintOf_pruned (f : Frame) (e : Expr) : f.hintOf e.pruned = f.hintOf e := by
  rw [Frame.hintOf, Frame.hintOf, infer_pruned]

@[simp] theorem integralPair_pruned (f : Frame) (lhs rhs : Expr) :
    f.integralPair lhs.pruned rhs.pruned = f.integralPair lhs rhs := by
  rw [Frame.integralPair, Frame.integralPair, infer_pruned, infer_pruned]

mutual

theorem render_pruned (f : Frame) : (hint : Option ScalarKind) → (e : Expr) →
    render f hint e.pruned = render f hint e
  | hint, .assign op target value => by
      simp only [Expr.pruned_assign, render, render_pruned f _ target, render_pruned f _ value,
        hintOf_pruned, integralPair_pruned]
  | hint, .binary op lhs rhs => by
      simp only [Expr.pruned_binary, render, render_pruned f _ lhs, render_pruned f _ rhs,
        hintOf_pruned, integralPair_pruned]
  | hint, .unary op operand => by
      simp only [Expr.pruned_unary, render, render_pruned f _ operand]
  | hint, .conditional test yes no => by
      simp only [Expr.pruned_conditional, render, render_pruned f _ test, render_pruned f _ yes,
        render_pruned f _ no, hintOf_pruned]
  | hint, .call receiver name args => by
      simp only [Expr.pruned_call, render, callForm_pruned, renderArgs_pruned f _ args]
  | hint, .construct type args => by
      simp only [Expr.pruned_construct, render, hasLabel_prunedArgs, constructForm_prunedArgs,
        renderArgs_pruned f _ args]
      rfl
  | hint, .member target name => by
      by_cases h : target = .self
      · subst h
        rfl
      · rw [Expr.pruned_member, render_member h, render_member (Expr.keepsLeaves_pruned.ne_self h),
          render_pruned f _ target, infer_pruned]
  | hint, .newArray element size none => by rw [Expr.pruned_newArray_none, render, render]
  | hint, .newArray element size (some items) => by
      simp only [Expr.pruned_newArray_items, render, renderItems_pruned f _ items]
      rfl
  | hint, .arrayInit items => by rw [Expr.pruned_arrayInit, render, render]
  | hint, .index target index => by
      simp only [Expr.pruned_index, render, render_pruned f _ target, render_pruned f _ index]
  | hint, .cast type operand => by
      simp only [Expr.pruned_cast, render, render_pruned f _ operand]
  | hint, .lambda params (.expr e) span => by rw [Expr.pruned_lambda_expr, render, render]
  | _, .lambda _ (.block _) _ | _, .ident _ | _, .self | _, .literal _ | _, .base _ | _, .null _
  | _, .query _ | _, .typeTest _ _ _ _ | _, .typeOf _ _ | _, .sizeOf _ _ | _, .deref _ _
  | _, .addressOf _ _ | _, .arrow _ _ _ | _, .stackAlloc _ _ _ | _, .anonymous _ _ => rfl

theorem renderArgs_pruned (f : Frame) : (hints : List (Option ScalarKind)) →
    (args : List (Arg Expr)) → renderArgs f hints (prunedArgs args) = renderArgs f hints args
  | _, [] => rfl
  | hints, ⟨label, e⟩ :: rest => by
      simp only [prunedArgs_cons, renderArgs, render_pruned f _ e, renderArgs_pruned f _ rest]

theorem renderItems_pruned (f : Frame) : (hint : Option ScalarKind) → (items : List Expr) →
    renderItems f hint (prunedItems items) = renderItems f hint items
  | _, [] => rfl
  | hint, e :: rest => by
      simp only [prunedItems_cons, renderItems, render_pruned f _ e, renderItems_pruned f _ rest]

end

theorem listedParts_pruned (f : Frame) (element : String) (hint : Option ScalarKind)
    (name : String) (items : List Expr) :
    listedParts f element hint name (prunedItems items) =
      listedParts f element hint name items := by
  have hempty : (prunedItems items).isEmpty = items.isEmpty := by cases items <;> rfl
  rw [listedParts, listedParts, hempty, renderItems_pruned, length_prunedItems]

theorem Expr.isArrayValue_pruned (e : Expr) : e.pruned.isArrayValue = e.isArrayValue := by
  cases e with
  | newArray element size items => cases items <;> simp [isArrayValue]
  | lambda params body span => cases body <;> rfl
  | assign | binary | unary | call | member | construct | arrayInit | index | cast
  | conditional => simp [isArrayValue]
  | _ => rfl

theorem Expr.isVerbatim_pruned (e : Expr) : e.pruned.isVerbatim = e.isVerbatim := by
  cases e with
  | newArray element size items => cases items <;> simp [isVerbatim]
  | lambda params body span => cases body <;> rfl
  | assign | binary | unary | call | member | construct | arrayInit | index | cast
  | conditional => simp [isVerbatim]
  | _ => rfl

theorem arrayParts_value {f : Frame} {element name : String} {hint : Option ScalarKind} {e : Expr}
    (h : e.isArrayValue = false) : arrayParts f element hint name (some e) = (do
      return ⟨"", some ((← render f none e).fit Precedence.assign)⟩) := by
  cases e <;> first | rfl | cases h

theorem arrayParts_pruned (f : Frame) (element : String) (hint : Option ScalarKind)
    (name : String) (init : Option Expr) :
    arrayParts f element hint name (init.map Expr.pruned) = arrayParts f element hint name init := by
  cases init with
  | none => rfl
  | some e =>
      rw [Option.map_some]
      cases e with
      | arrayInit items =>
          rw [Expr.pruned_arrayInit, arrayParts, arrayParts, listedParts_pruned]
      | newArray type size items =>
          cases items with
          | some items =>
              rw [Expr.pruned_newArray_items, arrayParts, arrayParts, listedParts_pruned]
          | none =>
              rw [Expr.pruned_newArray_none]
              cases size with
              | none => rfl
              | some size => rw [Option.map_some, arrayParts, arrayParts, render_pruned]
      | _ =>
          rw [arrayParts_value (by rw [Expr.isArrayValue_pruned]; rfl), render_pruned]
          rfl

abbrev prunedDeclarators : List (Declarator Expr) → List (Declarator Expr) :=
  List.map (Declarator.map Expr.pruned)

theorem declaredType_pruned (f : Frame) (type : TypeRef) (ds : List (Declarator Expr)) :
    declaredType f type (prunedDeclarators ds) = declaredType f type ds := by
  have hinit : (prunedDeclarators ds).head?.bind (·.init) =
      (ds.head?.bind (·.init)).map Expr.pruned := by
    cases ds <;> rfl
  rw [declaredType, declaredType, hinit]
  cases ds.head?.bind (·.init) with
  | none => rfl
  | some init => simp only [Option.map_some, infer_pruned, render_pruned]

theorem declarator_pruned (f : Frame) (type : ValueType) (target : String)
    (d : Declarator Expr) :
    declarator f type target (d.map Expr.pruned) = declarator f type target d := by
  have hany : (d.init.map Expr.pruned).any Expr.isArrayValue = d.init.any Expr.isArrayValue := by
    cases d.init with
    | none => rfl
    | some e => exact Expr.isArrayValue_pruned e
  simp only [declarator, Declarator.map, hany, arrayParts_pruned]
  cases d.init with
  | none => rfl
  | some e => simp only [Option.map_some, render_pruned]

theorem declaratorList_pruned (f : Frame) (type : ValueType) (target : String)
    (ds : List (Declarator Expr)) :
    declaratorList f type target (prunedDeclarators ds) = declaratorList f type target ds := by
  induction ds generalizing f with
  | nil => rfl
  | cons d ds ih =>
      simp only [prunedDeclarators, List.map_cons, declaratorList, declarator_pruned]
      simp only [Declarator.map, ih]

theorem declaration_pruned (f : Frame) (isConst : Bool) (type : TypeRef)
    (ds : List (Declarator Expr)) :
    declaration f isConst type (prunedDeclarators ds) = declaration f isConst type ds := by
  simp only [declaration, declaredType_pruned, declaratorList_pruned]

theorem evalText_pruned (e : Expr) (text : String) : evalText e.pruned text = evalText e text := by
  rw [evalText, evalText, Expr.isVerbatim_pruned]

theorem forInits_pruned (f : Frame) (init : List Stmt) :
    forInits f (mapStmts Expr.pruned init) = forInits f init := by
  induction init generalizing f with
  | nil => rfl
  | cons s rest ih =>
      cases s with
      | declare isConst type ds =>
          simp only [mapStmts, Stmt.mapExprs, forInits, declaration_pruned, ih]
      | eval e => simp only [mapStmts, Stmt.mapExprs, forInits, render_pruned, ih]
      | ifElse test yes no => cases no <;> rfl
      | _ => rfl

theorem forTest_pruned (f : Frame) (test : Option Expr) :
    forTest f (test.map Expr.pruned) = forTest f test := by
  cases test with
  | none => rfl
  | some e => rw [Option.map_some, forTest, forTest, render_pruned]

theorem forSteps_pruned (f : Frame) (steps : List Expr) :
    forSteps f (steps.map Expr.pruned) = forSteps f steps := by
  rw [← prunedItems_eq_map, forSteps, forSteps, renderItems_pruned]

theorem caseLabels_pruned (f : Frame) (labels : List (CaseLabel Expr)) :
    caseLabels f (labels.map (CaseLabel.map Expr.pruned)) = caseLabels f labels := by
  induction labels with
  | nil => rfl
  | cons label labels ih =>
      cases label with
      | value e => simp only [List.map_cons, CaseLabel.map, caseLabels, render_pruned, ih]
      | default => simp only [List.map_cons, CaseLabel.map, caseLabels, ih]

theorem Stmt.mapExprs_ifElse (g : Expr → Expr) (test : Expr) (yes : Stmt) (no : Option Stmt) :
    (ifElse test yes no).mapExprs g = .ifElse (g test) (yes.mapExprs g) (no.map (mapExprs g)) := by
  cases no <;> rfl

def Stmt.isIfElse : Stmt → Bool
  | .ifElse _ _ _ => true
  | _ => false

theorem Stmt.isIfElse_mapExprs (g : Expr → Expr) (s : Stmt) :
    (s.mapExprs g).isIfElse = s.isIfElse := by
  cases s with
  | ifElse test yes no => rw [mapExprs_ifElse]; rfl
  | _ => rfl

theorem emitElse_other {f : Frame} {s : Stmt} (h : s.isIfElse = false) :
    emitElse f (some s) = (do
      let (body, _) ← emitStmt f false s
      return Line.opened "\x7d else \x7b" body) := by
  cases s <;> first | rfl | cases h

mutual

theorem emitStmt_pruned (f : Frame) (braced : Bool) : (s : Stmt) →
    emitStmt f braced (s.mapExprs Expr.pruned) = emitStmt f braced s
  | .block body => by simp only [Stmt.mapExprs, emitStmt, emitStmts_pruned f body]
  | .ifElse test yes no => by
      simp only [Stmt.mapExprs_ifElse, emitStmt, render_pruned, emitStmt_pruned f false yes,
        emitElse_pruned f no]
  | .whileLoop test body => by
      simp only [Stmt.mapExprs, emitStmt, render_pruned, emitStmt_pruned f false body]
  | .doWhile body test => by
      simp only [Stmt.mapExprs, emitStmt, render_pruned, emitStmt_pruned f false body]
  | .forLoop init test step body => by
      simp only [Stmt.mapExprs, emitStmt, forInits_pruned, forTest_pruned, forSteps_pruned,
        emitStmt_pruned _ false body]
  | .switch scrutinee sections => by
      simp only [Stmt.mapExprs, emitStmt, render_pruned, emitSections_pruned f sections]
  | .ret none => rfl
  | .ret (some value) => by simp only [Stmt.mapExprs, Option.map_some, emitStmt, render_pruned]
  | .declare isConst type ds => by simp only [Stmt.mapExprs, emitStmt, declaration_pruned]
  | .eval e => by simp only [Stmt.mapExprs, emitStmt, render_pruned, evalText_pruned]
  | .empty | .brk | .cont | .discard | .tryCatch _ _ _ _ | .throw _ _ | .foreach _ _ _ _ _
  | .lock _ _ _ | .using _ _ _ | .goto _ _ | .labeled _ _ _ | .yield _ _ | .unmanaged _ _
  | .fixed _ _ _ | .attributed _ _ _ => rfl

theorem emitElse_pruned (f : Frame) : (no : Option Stmt) →
    emitElse f (no.map (Stmt.mapExprs Expr.pruned)) = emitElse f no
  | none => rfl
  | some s => by
      rw [Option.map_some]
      by_cases h : s.isIfElse = false
      · have hp : (s.mapExprs Expr.pruned).isIfElse = false := by rw [Stmt.isIfElse_mapExprs, h]
        rw [emitElse_other h, emitElse_other hp, emitStmt_pruned f false s]
      · cases s with
        | ifElse test yes no =>
            simp only [Stmt.mapExprs_ifElse, emitElse, render_pruned,
              emitStmt_pruned f false yes, emitElse_pruned f no]
        | _ => exact absurd rfl h

theorem emitStmts_pruned (f : Frame) : (body : List Stmt) →
    emitStmts f (mapStmts Expr.pruned body) = emitStmts f body
  | [] => rfl
  | s :: rest => by
      simp only [mapStmts, emitStmts, emitStmt_pruned f true s, emitStmts_pruned _ rest]

theorem emitSections_pruned (f : Frame) : (sections : List (SwitchSection Expr Stmt)) →
    emitSections f (mapSections Expr.pruned sections) = emitSections f sections
  | [] => rfl
  | ⟨labels, body⟩ :: rest => by
      simp only [mapSections, emitSections, caseLabels_pruned, emitStmts_pruned f body,
        emitSections_pruned _ rest]

end

end ShaderCompiler
