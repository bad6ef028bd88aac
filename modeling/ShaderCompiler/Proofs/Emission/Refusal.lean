import ShaderCompiler.Proofs.Emission.Acceptance
import ShaderCompiler.Proofs.Emission.Functions
import ShaderCompiler.Proofs.Emission.PassedOver

namespace ShaderCompiler

theorem flatMap_rejections_pruned {ctx : ClassContext} {init : Option Expr}
    (h : ∀ e ∈ init, e.pruned.rejections ctx = []) :
    (init.map Expr.pruned).toList.flatMap (Expr.rejections ctx) = [] := by
  cases init with
  | none => rfl
  | some e => simpa using h e rfl

theorem rejections_pruned_ifElse {ctx : ClassContext} {test : Expr} {yes : Stmt}
    {no : Option Stmt} (ht : test.pruned.rejections ctx = [])
    (hy : (yes.mapExprs Expr.pruned).rejections ctx = [])
    (hn : ∀ s ∈ no, (s.mapExprs Expr.pruned).rejections ctx = []) :
    ((Stmt.ifElse test yes no).mapExprs Expr.pruned).rejections ctx = [] := by
  cases no with
  | none => rw [Stmt.mapExprs, Stmt.rejections, ht, hy]; rfl
  | some s => rw [Stmt.mapExprs, Stmt.rejections, ht, hy, hn s rfl]; rfl

theorem PartsOf.rejections_pruned {f : Frame} {element : String} {hint : Option ScalarKind}
    {init : Option Expr} {u v : Uses} {parts : ArrayParts}
    (h : PartsOf f element hint init u parts v) :
    ∀ e ∈ init, e.pruned.rejections f.context = [] := by
  rintro e ⟨⟩
  cases h with
  | listed _ hitems => rw [Expr.pruned_arrayInit, Expr.rejections, hitems.rejections_pruned]
  | created _ hitems =>
      rw [Expr.pruned_newArray_items, Expr.rejections, hitems.rejections_pruned]
      rfl
  | sized hsize =>
      rw [Expr.pruned_newArray_none, Option.map_some, Expr.rejections, hsize.rejections_pruned]
      rfl
  | value _ hvalue => exact hvalue.rejections_pruned

theorem DeclaresName.rejections_pruned {f : Frame} {type : ValueType} {target text : String}
    {d : Declarator Expr} {u v : Uses} (h : DeclaresName f type target d u text v) :
    ∀ e ∈ d.init, e.pruned.rejections f.context = [] := by
  cases h with
  | array _ hparts | sizedArray _ hparts => exact hparts.rejections_pruned
  | value _ hvalue =>
      rintro e ⟨⟩
      exact hvalue.rejections_pruned
  | bare => exact nofun

theorem DeclaresNames.rejections_pruned {f : Frame} {type : ValueType} {target : String}
    {ds : List (Declarator Expr)} {u v : Uses} {texts : List String}
    (h : DeclaresNames type target f ds u texts v) :
    rejectionsOfDeclarators f.context (prunedDeclarators ds) = [] := by
  induction h with
  | nil => rfl
  | cons hname _ ih =>
      rw [Frame.context_bind] at ih
      rw [prunedDeclarators, List.map_cons, rejectionsOfDeclarators_cons, ih, List.append_nil]
      exact flatMap_rejections_pruned hname.rejections_pruned

theorem DeclaresLocals.rejections_pruned {f : Frame} {isConst : Bool} {type : TypeRef}
    {ds : List (Declarator Expr)} {u v : Uses} {text : String}
    (h : DeclaresLocals f isConst type ds u text v) :
    type.rejections ++ rejectionsOfDeclarators f.context (prunedDeclarators ds) = [] := by
  cases h with
  | intro hpointer _ _ hnames =>
      rw [TypeRef.rejections, if_neg hpointer, hnames.rejections_pruned]
      rfl

theorem EmitsInits.rejections_pruned {f : Frame} {init : List Stmt} {u v : Uses}
    {texts : List String} (h : EmitsInits f init u texts v) :
    rejectionsIn f.context (mapStmts Expr.pruned init) = [] := by
  induction h with
  | nil => rfl
  | declare hdeclared _ ih =>
      rw [Frame.context_after] at ih
      rw [mapStmts, rejectionsIn, ih, Stmt.mapExprs, Stmt.rejections, hdeclared.rejections_pruned]
      rfl
  | eval he _ ih =>
      rw [mapStmts, rejectionsIn, ih, Stmt.mapExprs, Stmt.rejections, he.rejections_pruned]
      rfl

theorem EmitsTest.rejections_pruned {f : Frame} {test : Option Expr} {u v : Uses} {text : String}
    (h : EmitsTest f test u text v) : ∀ e ∈ test, e.pruned.rejections f.context = [] := by
  cases h with
  | none => exact nofun
  | some he =>
      rintro e ⟨⟩
      exact he.rejections_pruned

theorem EmitsSteps.rejections_pruned {f : Frame} {steps : List Expr} {u v : Uses} {text : String}
    (h : EmitsSteps f steps u text v) :
    rejectionsOfItems f.context (steps.map Expr.pruned) = [] := by
  cases h with
  | intro hitems =>
      rw [← prunedItems_eq_map]
      exact hitems.rejections_pruned

theorem EmitsLabels.rejections_pruned {f : Frame} {labels : List (CaseLabel Expr)} {u v : Uses}
    {lines : List Line} (h : EmitsLabels f labels u lines v) :
    ((labels.map (CaseLabel.map Expr.pruned)).filterMap CaseLabel.value?).flatMap
      (Expr.rejections f.context) = [] := by
  induction h with
  | nil => rfl
  | value he _ ih =>
      simp only [List.map_cons, CaseLabel.map, List.filterMap_cons, CaseLabel.value?,
        List.flatMap_cons, he.rejections_pruned, ih]
      rfl
  | default _ ih => exact ih

mutual

theorem Emits.rejections_pruned {f : Frame} {braced : Bool} {s : Stmt} {u v : Uses}
    {lines : List Line} :
    Emits f braced s u lines v → (s.mapExprs Expr.pruned).rejections f.context = []
  | .block hbody => by rw [Stmt.mapExprs, Stmt.rejections, hbody.rejections_pruned]
  | .ifElse htest hyes hno =>
      rejections_pruned_ifElse htest.rejections_pruned hyes.rejections_pruned hno.rejections_pruned
  | .whileLoop htest hbody | .doWhile hbody htest => by
      rw [Stmt.mapExprs, Stmt.rejections, htest.rejections_pruned, hbody.rejections_pruned]
      rfl
  | .forLoop hinit htest hstep hbody => by
      have htest := flatMap_rejections_pruned htest.rejections_pruned
      have hsteps := hstep.rejections_pruned
      have hbody := hbody.rejections_pruned
      rw [Frame.context_afterAll] at htest hsteps hbody
      rw [Stmt.mapExprs, Stmt.rejections, hinit.rejections_pruned, htest, hsteps, hbody]
      rfl
  | .switch hs hsections => by
      rw [Stmt.mapExprs, Stmt.rejections, hs.rejections_pruned, hsections.rejections_pruned]
      rfl
  | .ret hvalue => by
      rw [Stmt.mapExprs, Stmt.rejections]
      exact flatMap_rejections_pruned (by simpa using hvalue.rejections_pruned)
  | .declare hdeclared => hdeclared.rejections_pruned
  | .eval he => he.rejections_pruned
  | .empty | .retNone | .brk | .cont | .discard _ => rfl

theorem EmitsElse.rejections_pruned {f : Frame} {no : Option Stmt} {u v : Uses}
    {lines : List Line} :
    EmitsElse f no u lines v → ∀ s ∈ no, (s.mapExprs Expr.pruned).rejections f.context = []
  | .none => nofun
  | .elseIf htest hyes hno => by
      rintro s ⟨⟩
      exact rejections_pruned_ifElse htest.rejections_pruned hyes.rejections_pruned
        hno.rejections_pruned
  | .other _ hbody => by
      rintro s ⟨⟩
      exact hbody.rejections_pruned

theorem EmitsAll.rejections_pruned {f : Frame} {body : List Stmt} {u v : Uses}
    {lines : List Line} :
    EmitsAll f body u lines v → rejectionsIn f.context (mapStmts Expr.pruned body) = []
  | .nil => rfl
  | .cons hs hrest => by
      have hrest := hrest.rejections_pruned
      rw [Frame.context_after] at hrest
      rw [mapStmts, rejectionsIn, hs.rejections_pruned, hrest]
      rfl

theorem EmitsSections.rejections_pruned {f : Frame} {sections : List (SwitchSection Expr Stmt)}
    {u v : Uses} {lines : List Line} :
    EmitsSections f sections u lines v →
      rejectionsInSections f.context (mapSections Expr.pruned sections) = []
  | .nil => rfl
  | .cons hlabels hbody hrest => by
      have hrest := hrest.rejections_pruned
      rw [Frame.context_afterAll] at hrest
      rw [mapSections, rejectionsInSections, hlabels.rejections_pruned, hbody.rejections_pruned,
        hrest]
      rfl

end

theorem EmitsFunction.rejections_pruned {ctx : ClassContext} {m : MethodBody} {u v : Uses}
    {lines : List Line} (h : EmitsFunction ctx m u lines v) : m.pruned.rejections ctx = [] := by
  cases h with
  | intro hplain _ hplains _ hbody =>
      have hstmts := hbody.rejections_pruned
      rw [context_bindParams] at hstmts
      rw [MethodBody.rejections, MethodBody.pruned, hplain, hplains]
      exact hstmts

theorem functionLines_pruned (ctx : ClassContext) (m : MethodBody) :
    functionLines ctx m.pruned = functionLines ctx m := by
  simp only [functionLines, MethodBody.pruned, emitStmts_pruned]
  rfl

/-- Emission never sees what pruning takes away, and what is left of a method that becomes a
function is free of constructs without a form. So an accepted method is free of them exactly if
none is passed over: in the size beside the items of an array, or as a pointer in the type after
`new`. -/
theorem emitFunction_pruned (ctx : ClassContext) (indent : String) (m : MethodBody) :
    emitFunction ctx indent m.pruned = emitFunction ctx indent m ∧
      ∀ fn, emitFunction ctx indent m = .ok fn →
        m.pruned.rejections ctx = [] ∧ (m.rejections ctx = [] ↔ m.passedOver ctx = []) := by
  constructor
  · rw [emitFunction, emitFunction, functionLines_pruned]
    rfl
  · intro fn h
    obtain ⟨lines, -, hlines⟩ := emitsFunction_of_emitFunction h
    have hpruned := hlines.rejections_pruned
    exact ⟨hpruned, by rw [m.rejections_eq_nil_iff ctx, and_iff_right hpruned]⟩

/-- `int[] a = new int[null] { 1, 2 };` -/
def nullSize : MethodBody where
  name := "main"
  returnType := some ⟨"void", false, false, .none⟩
  body :=
    [.declare false ⟨"int", true, false, .none⟩
      [⟨"a", some (.newArray ⟨"int", false, false, .none⟩ (some (.null .none))
        (some [.literal (.int 1), .literal (.int 2)]))⟩]]

def bareClass : ClassContext := ⟨"T", none, [], [], []⟩

/-- `null` as the size of a listed array is accepted. -/
theorem emitFunction_nullSize :
    nullSize.passedOver bareClass = [.null] ∧ nullSize.pruned.rejections bareClass = [] ∧
      nullSize.rejections bareClass ≠ [] ∧
      (emitFunction bareClass "    " nullSize).map (·.text) =
        .ok "void main() \x7b\n    int a[2] = int[2](1, 2);\n\x7d\n" := by
  have htext : (emitFunction bareClass "    " nullSize).map (·.text) =
      .ok "void main() \x7b\n    int a[2] = int[2](1, 2);\n\x7d\n" := by
    decide +kernel
  cases h : emitFunction bareClass "    " nullSize with
  | error d => simp [h, Except.map] at htext
  | ok fn =>
      obtain ⟨hpruned, hiff⟩ := (emitFunction_pruned _ _ nullSize).2 fn h
      have hne : nullSize.rejections bareClass ≠ [] := by
        intro hr
        cases hiff.mp hr
      exact ⟨rfl, hpruned, hne, h ▸ htext⟩

end ShaderCompiler
