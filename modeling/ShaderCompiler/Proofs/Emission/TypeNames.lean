import ShaderCompiler.Normal.Form
import ShaderCompiler.Proofs.Emission.Functions

namespace ShaderCompiler

/-- A call of the name of a type constructs a value. -/
def constructedBy (f : Frame) (receiver : Option Expr) (name : String) (args : List (Arg Expr)) :
    List String :=
  match callForm f receiver name args with
  | .ok (.construct _) => [name]
  | _ => []

mutual

def Expr.typeNames (f : Frame) : Expr → List String
  | .assign _ target value => target.typeNames f ++ value.typeNames f
  | .binary _ lhs rhs => lhs.typeNames f ++ rhs.typeNames f
  | .unary _ operand => operand.typeNames f
  | .conditional test yes no => test.typeNames f ++ yes.typeNames f ++ no.typeNames f
  | .call receiver name args => constructedBy f receiver name args ++ typeNamesOfArgs f args
  | .construct type args => type.name :: typeNamesOfArgs f args
  | .member target _ => target.typeNames f
  | .newArray element _ (some items) => element.name :: typeNamesOfItems f items
  | .index target index => target.typeNames f ++ index.typeNames f
  | .cast type operand => type.name :: operand.typeNames f
  | _ => []

def typeNamesOfArgs (f : Frame) : List (Arg Expr) → List String
  | [] => []
  | ⟨_, e⟩ :: rest => e.typeNames f ++ typeNamesOfArgs f rest

def typeNamesOfItems (f : Frame) : List Expr → List String
  | [] => []
  | e :: rest => e.typeNames f ++ typeNamesOfItems f rest

end

/-- In the initial value of an array the declared type takes the place of the one after `new`. -/
def arrayTypeNames (f : Frame) : Option Expr → List String
  | none => []
  | some (.arrayInit items) => typeNamesOfItems f items
  | some (.newArray _ _ (some items)) => typeNamesOfItems f items
  | some (.newArray _ (some size) none) => size.typeNames f
  | some e => e.typeNames f

def declaratorTypeNames (f : Frame) (type : ValueType) (d : Declarator Expr) : List String :=
  if type.array || d.init.any Expr.isArrayValue then arrayTypeNames f d.init
  else d.init.toList.flatMap (Expr.typeNames f)

def typeNamesOfDeclarators (f : Frame) (type : ValueType) : List (Declarator Expr) → List String
  | [] => []
  | d :: rest =>
      declaratorTypeNames f type d ++
        typeNamesOfDeclarators (f.bind d.name (boundType type d)) type rest

mutual

def Stmt.typeNames (f : Frame) : Stmt → List String
  | .block body => typeNamesIn f body
  | .ifElse test yes none => test.typeNames f ++ yes.typeNames f
  | .ifElse test yes (some no) => test.typeNames f ++ yes.typeNames f ++ no.typeNames f
  | .whileLoop test body => test.typeNames f ++ body.typeNames f
  | .doWhile body test => body.typeNames f ++ test.typeNames f
  | .forLoop init test step body =>
      typeNamesIn f init ++ test.toList.flatMap (Expr.typeNames (f.afterAll init)) ++
        typeNamesOfItems (f.afterAll init) step ++ body.typeNames (f.afterAll init)
  | .switch scrutinee sections => scrutinee.typeNames f ++ typeNamesInSections f sections
  | .ret value => value.toList.flatMap (Expr.typeNames f)
  | .declare _ type ds =>
      (f.declaredAs type ds).toList.flatMap fun t => t.name :: typeNamesOfDeclarators f t ds
  | .eval e => e.typeNames f
  | _ => []

def typeNamesIn (f : Frame) : List Stmt → List String
  | [] => []
  | s :: rest => s.typeNames f ++ typeNamesIn (f.after s) rest

def typeNamesInSections (f : Frame) : List (SwitchSection Expr Stmt) → List String
  | [] => []
  | ⟨labels, body⟩ :: rest =>
      typeNamesOfItems f (labels.filterMap CaseLabel.value?) ++ typeNamesIn f body ++
        typeNamesInSections (f.afterAll body) rest

end

namespace MethodBody

def typeNames (ctx : ClassContext) (m : MethodBody) : List String :=
  m.returnType.toList.map (·.name) ++ m.params.map (·.type.name) ++
    typeNamesIn (bindParams (m.frame ctx) m.params) m.body

end MethodBody

def ClassContext.knows (ctx : ClassContext) (name : String) : Bool :=
  ctx.isStruct name || Vocabulary.isBuiltin name

def ClassContext.KnowsAll (ctx : ClassContext) (names : List String) : Prop :=
  ∀ name ∈ names, ctx.knows name = true

namespace ClassContext.KnowsAll

variable {ctx : ClassContext} {names more : List String} {name : String}

theorem nil : ctx.KnowsAll [] := List.forall_mem_nil _

theorem append (h : ctx.KnowsAll names) (h' : ctx.KnowsAll more) : ctx.KnowsAll (names ++ more) :=
  List.forall_mem_append.mpr ⟨h, h'⟩

theorem cons (h : ctx.knows name = true) (h' : ctx.KnowsAll names) :
    ctx.KnowsAll (name :: names) :=
  List.forall_mem_cons.mpr ⟨h, h'⟩

end ClassContext.KnowsAll

open ClassContext (KnowsAll)

theorem knows_of_resolveType {ctx : ClassContext} {name target : String}
    (h : ctx.resolveType name = .ok target) : ctx.knows name = true := by
  rw [ClassContext.resolveType] at h
  rw [ClassContext.knows, Bool.or_eq_true]
  split at h
  · next hstruct => exact Or.inl hstruct
  · right
    rw [Vocabulary.toTarget?] at h
    rw [Vocabulary.isBuiltin]
    cases hname : Vocabulary.lookup? name with
    | none =>
        rw [hname] at h
        cases h
    | some t => rfl

theorem ConstructsAs.knows {f : Frame} {type : String} {args : List (Arg Expr)}
    {form : Construction} (h : ConstructsAs f type args form) : f.context.knows type = true := by
  rw [ClassContext.knows, ClassContext.isStruct, Vocabulary.isBuiltin, Bool.or_eq_true]
  cases h with
  | struct hstruct => exact Or.inl (by rw [hstruct]; rfl)
  | zero _ hbuiltin | builtin _ hbuiltin => exact Or.inr (by rw [hbuiltin]; rfl)

theorem knowsAll_constructedBy (f : Frame) (receiver : Option Expr) (name : String)
    (args : List (Arg Expr)) : KnowsAll f.context (constructedBy f receiver name args) := by
  rw [constructedBy]
  split
  · next form h =>
      cases (outcome_callForm f receiver name args).of_ok h with
      | bare _ _ hform =>
          cases hform with
          | construct _ _ _ hform => exact .cons hform.knows .nil
  · exact .nil

mutual

theorem Renders.knowsAll {f : Frame} {hint : Option ScalarKind} {e : Expr} {u v : Uses}
    {r : Rendered} : Renders f hint e u r v → KnowsAll f.context (e.typeNames f)
  | .assign _ hfirst hsecond | .assignMod _ hfirst hsecond | .binary _ hfirst hsecond
  | .binaryMod _ hfirst hsecond | .index hfirst hsecond => hfirst.knowsAll.append hsecond.knowsAll
  | .trailing _ hoperand | .leading _ hoperand => hoperand.knowsAll
  | .conditional htest hyes hno => (htest.knowsAll.append hyes.knowsAll).append hno.knowsAll
  | .verbatim _ | .zeroCall _ => (knowsAll_constructedBy f _ _ _).append .nil
  | .constructCall _ hargs | .intrinsic _ hargs | .own _ hargs | .foreign _ hargs =>
      (knowsAll_constructedBy f _ _ _).append hargs.knowsAll
  | .zero hform => .cons hform.knows .nil
  | .construct _ hform hargs => .cons hform.knows hargs.knowsAll
  | .member _ htarget _ => htarget.knowsAll
  | .newArray htype hitems => .cons (knows_of_resolveType htype) hitems.knowsAll
  | .cast _ htype hoperand => .cons (knows_of_resolveType htype) hoperand.knowsAll
  | .literal _ | .ident | .selfMember => .nil

theorem RendersArgs.knowsAll {f : Frame} {hints : List (Option ScalarKind)}
    {args : List (Arg Expr)} {u v : Uses} {ts : List String} :
    RendersArgs f hints args u ts v → KnowsAll f.context (typeNamesOfArgs f args)
  | .nil => .nil
  | .cons hvalue hrest => hvalue.knowsAll.append hrest.knowsAll

theorem RendersItems.knowsAll {f : Frame} {hint : Option ScalarKind} {items : List Expr}
    {u v : Uses} {ts : List String} :
    RendersItems f hint items u ts v → KnowsAll f.context (typeNamesOfItems f items)
  | .nil => .nil
  | .cons hitem hrest => hitem.knowsAll.append hrest.knowsAll

end

theorem arrayTypeNames_value {f : Frame} {e : Expr} (h : e.isArrayValue = false) :
    arrayTypeNames f (some e) = e.typeNames f := by
  cases e with
  | arrayInit => cases h
  | newArray => cases h
  | _ => rfl

theorem PartsOf.knowsAll {f : Frame} {element : String} {hint : Option ScalarKind}
    {init : Option Expr} {u v : Uses} {parts : ArrayParts}
    (h : PartsOf f element hint init u parts v) :
    KnowsAll f.context (arrayTypeNames f init) := by
  cases h with
  | listed _ hitems | created _ hitems => exact hitems.knowsAll
  | sized hsize => exact hsize.knowsAll
  | value harray hvalue =>
      rw [arrayTypeNames_value harray]
      exact hvalue.knowsAll

theorem DeclaresName.knowsAll {f : Frame} {type : ValueType} {target text : String}
    {d : Declarator Expr} {u v : Uses} (h : DeclaresName f type target d u text v) :
    KnowsAll f.context (declaratorTypeNames f type d) := by
  rw [declaratorTypeNames]
  cases h with
  | array harray hparts | sizedArray harray hparts =>
      rw [if_pos harray]
      exact hparts.knowsAll
  | value harray hvalue =>
      rw [harray]
      simpa using hvalue.knowsAll
  | bare harray =>
      rw [harray]
      exact .nil

theorem DeclaresNames.knowsAll {f : Frame} {type : ValueType} {target : String}
    {ds : List (Declarator Expr)} {u v : Uses} {texts : List String}
    (h : DeclaresNames type target f ds u texts v) :
    KnowsAll f.context (typeNamesOfDeclarators f type ds) := by
  induction h with
  | nil => exact .nil
  | cons hname _ ih => exact hname.knowsAll.append ih

theorem DeclaresLocals.knowsAll {f : Frame} {isConst : Bool} {type : TypeRef}
    {ds : List (Declarator Expr)} {u v : Uses} {text : String}
    (h : DeclaresLocals f isConst type ds u text v) :
    KnowsAll f.context ((Stmt.declare isConst type ds).typeNames f) := by
  cases h with
  | intro _ htype htarget hnames =>
      rw [Stmt.typeNames, htype, Option.toList_some, List.flatMap_singleton]
      exact .cons (knows_of_resolveType htarget) hnames.knowsAll

theorem EmitsInits.knowsAll {f : Frame} {init : List Stmt} {u v : Uses} {texts : List String}
    (h : EmitsInits f init u texts v) : KnowsAll f.context (typeNamesIn f init) := by
  induction h with
  | nil => exact .nil
  | declare hdeclared _ ih =>
      rw [Frame.context_after] at ih
      exact hdeclared.knowsAll.append ih
  | eval he _ ih => exact he.knowsAll.append ih

theorem EmitsTest.knowsAll {f : Frame} {test : Option Expr} {u v : Uses} {text : String}
    (h : EmitsTest f test u text v) :
    KnowsAll f.context (test.toList.flatMap (Expr.typeNames f)) := by
  cases h with
  | none => exact .nil
  | some he => simpa using he.knowsAll

theorem EmitsSteps.knowsAll {f : Frame} {steps : List Expr} {u v : Uses} {text : String}
    (h : EmitsSteps f steps u text v) : KnowsAll f.context (typeNamesOfItems f steps) := by
  cases h with
  | intro hitems => exact hitems.knowsAll

theorem EmitsLabels.knowsAll {f : Frame} {labels : List (CaseLabel Expr)} {u v : Uses}
    {lines : List Line} (h : EmitsLabels f labels u lines v) :
    KnowsAll f.context (typeNamesOfItems f (labels.filterMap CaseLabel.value?)) := by
  induction h with
  | nil => exact .nil
  | value he _ ih => exact he.knowsAll.append ih
  | default _ ih => exact ih

theorem typeNames_ifElse (f : Frame) (test : Expr) (yes : Stmt) (no : Option Stmt) :
    (Stmt.ifElse test yes no).typeNames f =
      test.typeNames f ++ yes.typeNames f ++ no.toList.flatMap (Stmt.typeNames f) := by
  cases no with
  | none => rw [Stmt.typeNames, Option.toList_none, List.flatMap_nil, List.append_nil]
  | some s => rw [Stmt.typeNames, Option.toList_some, List.flatMap_singleton]

mutual

theorem Emits.knowsAll {f : Frame} {braced : Bool} {s : Stmt} {u v : Uses} {lines : List Line} :
    Emits f braced s u lines v → KnowsAll f.context (s.typeNames f)
  | .block hbody => hbody.knowsAll
  | .ifElse htest hyes hno => by
      rw [typeNames_ifElse]
      exact (htest.knowsAll.append hyes.knowsAll).append hno.knowsAll
  | .whileLoop htest hbody => htest.knowsAll.append hbody.knowsAll
  | .doWhile hbody htest => hbody.knowsAll.append htest.knowsAll
  | .forLoop hinit htest hstep hbody => by
      have htest := htest.knowsAll
      have hsteps := hstep.knowsAll
      have hbody := hbody.knowsAll
      rw [Frame.context_afterAll] at htest hsteps hbody
      exact ((hinit.knowsAll.append htest).append hsteps).append hbody
  | .switch hs hsections => hs.knowsAll.append hsections.knowsAll
  | .ret hvalue => by simpa [Stmt.typeNames] using hvalue.knowsAll
  | .declare hdeclared => hdeclared.knowsAll
  | .eval he => he.knowsAll
  | .empty | .retNone | .brk | .cont | .discard _ => .nil

theorem EmitsElse.knowsAll {f : Frame} {no : Option Stmt} {u v : Uses} {lines : List Line} :
    EmitsElse f no u lines v → KnowsAll f.context (no.toList.flatMap (Stmt.typeNames f))
  | .none => .nil
  | .elseIf htest hyes hno => by
      rw [Option.toList_some, List.flatMap_singleton, typeNames_ifElse]
      exact (htest.knowsAll.append hyes.knowsAll).append hno.knowsAll
  | .other _ hbody => by
      rw [Option.toList_some, List.flatMap_singleton]
      exact hbody.knowsAll

theorem EmitsAll.knowsAll {f : Frame} {body : List Stmt} {u v : Uses} {lines : List Line} :
    EmitsAll f body u lines v → KnowsAll f.context (typeNamesIn f body)
  | .nil => .nil
  | .cons hs hrest => by
      have hmore := hrest.knowsAll
      rw [Frame.context_after] at hmore
      exact hs.knowsAll.append hmore

theorem EmitsSections.knowsAll {f : Frame} {sections : List (SwitchSection Expr Stmt)}
    {u v : Uses} {lines : List Line} :
    EmitsSections f sections u lines v → KnowsAll f.context (typeNamesInSections f sections)
  | .nil => .nil
  | .cons hlabels hbody hrest => by
      have hmore := hrest.knowsAll
      rw [Frame.context_afterAll] at hmore
      exact (hlabels.knowsAll.append hbody.knowsAll).append hmore

end

theorem WritesResult.knowsAll {ctx : ClassContext} {type : Option TypeRef} {text : String}
    (h : WritesResult ctx text type) : KnowsAll ctx (type.toList.map (·.name)) := by
  cases type with
  | none => exact .nil
  | some type =>
      obtain ⟨target, suffix, htarget, -⟩ := h
      exact .cons (knows_of_resolveType htarget) .nil

theorem knowsAll_of_writesParams {ctx : ClassContext} {params : List Param} {texts : List String}
    (h : List.Forall₂ (WritesParam ctx) params texts) :
    KnowsAll ctx (params.map (·.type.name)) := by
  induction h with
  | nil => exact .nil
  | cons hparam _ ih =>
      obtain ⟨target, suffix, htarget, -⟩ := hparam
      exact .cons (knows_of_resolveType htarget) ih

/-- Every type that an emitted method names is known to its class. -/
theorem knowsAll_of_emitFunction {ctx : ClassContext} {indent : String} {m : MethodBody}
    {f : ShaderFunction} (h : emitFunction ctx indent m = .ok f) :
    KnowsAll ctx (m.typeNames ctx) := by
  obtain ⟨lines, -, ⟨-, hresult, -, hparams, hbody⟩⟩ := emitsFunction_of_emitFunction h
  have hbody := hbody.knowsAll
  rw [context_bindParams] at hbody
  exact (hresult.knowsAll.append (knowsAll_of_writesParams hparams)).append hbody

end ShaderCompiler
