import ShaderCompiler.Proofs.Emission.Functions

namespace ShaderCompiler

structure CallSite where
  receiver : Option Expr
  name : String
  arity : Nat

mutual

/-- The calls in an expression. The size beside the items of an array is not written out, so its
calls are left out, and constructs without a form are refused with all that they hold. -/
def Expr.callSites : Expr → List CallSite
  | .assign _ target value => target.callSites ++ value.callSites
  | .binary _ lhs rhs => lhs.callSites ++ rhs.callSites
  | .unary _ operand => operand.callSites
  | .call receiver name args =>
      ⟨receiver, name, args.length⟩ :: (callSitesOfExpr? receiver ++ callSitesOfArgs args)
  | .member target _ => target.callSites
  | .construct _ args => callSitesOfArgs args
  | .newArray _ size none => callSitesOfExpr? size
  | .newArray _ _ (some items) => callSitesOfItems items
  | .arrayInit items => callSitesOfItems items
  | .index target index => target.callSites ++ index.callSites
  | .cast _ operand => operand.callSites
  | .conditional test yes no => test.callSites ++ yes.callSites ++ no.callSites
  | _ => []

def callSitesOfExpr? : Option Expr → List CallSite
  | none => []
  | some e => e.callSites

def callSitesOfArgs : List (Arg Expr) → List CallSite
  | [] => []
  | ⟨_, e⟩ :: rest => e.callSites ++ callSitesOfArgs rest

def callSitesOfItems : List Expr → List CallSite
  | [] => []
  | e :: rest => e.callSites ++ callSitesOfItems rest

end

def MethodBody.callSites (m : MethodBody) : List CallSite := callSitesOfItems (exprsOf m.body)

/-- Names that a local call finds in its class or in GLSL. -/
def ClassContext.explains (ctx : ClassContext) (name : String) : Bool :=
  name == Intrinsic.verbatim || ctx.hasMethod name || Vocabulary.isBuiltin name ||
    ctx.isStruct name || Intrinsic.isIntrinsic name

namespace CallSite

def isLocal (ctx : ClassContext) (c : CallSite) : Bool := answersBare ctx c.receiver

def owner? (c : CallSite) : Option String :=
  match c.receiver with
  | some (.ident owner) => some owner
  | _ => none

def ownName? (ctx : ClassContext) (c : CallSite) : Option String :=
  if c.isLocal ctx && c.name != Intrinsic.verbatim && ctx.hasMethod c.name then some c.name
  else none

/-- What the call needs of other classes. -/
def dependency? (ctx : ClassContext) (c : CallSite) : Option Dependency :=
  if c.isLocal ctx then
    if ctx.explains c.name then none else some ⟨c.name, c.name, c.arity⟩
  else c.owner?.map fun owner => ⟨owner ++ "." ++ c.name, c.name, c.arity⟩

end CallSite

namespace CallForm

def ownName? : CallForm → Option String
  | .own name _ => some name
  | _ => none

def dependency? : CallForm → Option Dependency
  | .foreign d => some d
  | _ => none

def note : CallForm → Uses → Uses
  | .own name _, u => u.addCall name
  | .foreign d, u => u.addDependency d
  | _, u => u

end CallForm

/-- A call and the form that it is given mean the same. -/
structure CallSite.Takes (ctx : ClassContext) (c : CallSite) (form : CallForm) : Prop where
  ownName : c.ownName? ctx = form.ownName?
  dependency : c.dependency? ctx = form.dependency?
  owned : c.isLocal ctx = false → c.owner?.isSome

namespace CallSite.Takes

variable {ctx : ClassContext} {c : CallSite} {form : CallForm}

theorem own (hlocal : c.isLocal ctx = true) (hverbatim : c.name ≠ Intrinsic.verbatim)
    (hmethod : ctx.hasMethod c.name = true) (hints : List (Option ScalarKind)) :
    c.Takes ctx (.own c.name hints) where
  ownName := by simp [ownName?, CallForm.ownName?, hlocal, hverbatim, hmethod]
  dependency := by
    simp [dependency?, CallForm.dependency?, ClassContext.explains, hlocal, hmethod]
  owned := by simp [hlocal]

theorem explained (hlocal : c.isLocal ctx = true) (hexplains : ctx.explains c.name = true)
    (hmethod : c.name = Intrinsic.verbatim ∨ ctx.hasMethod c.name = false)
    (hown : form.ownName? = none) (hdependency : form.dependency? = none) :
    c.Takes ctx form where
  ownName := by
    rw [hown, ownName?, if_neg]
    obtain h | h := hmethod <;> simp [h]
  dependency := by rw [hdependency, dependency?, if_pos hlocal, if_pos hexplains]
  owned := by simp [hlocal]

theorem unexplained (hlocal : c.isLocal ctx = true) (hexplains : ctx.explains c.name = false) :
    c.Takes ctx (.foreign ⟨c.name, c.name, c.arity⟩) where
  ownName := by
    have hmethod : ctx.hasMethod c.name = false := by
      simp only [ClassContext.explains, Bool.or_eq_false_iff] at hexplains
      exact hexplains.1.1.1.2
    simp [ownName?, CallForm.ownName?, hmethod]
  dependency := by simp [dependency?, CallForm.dependency?, hlocal, hexplains]
  owned := by simp [hlocal]

theorem qualified {owner : String} (hlocal : c.isLocal ctx = false)
    (howner : c.owner? = some owner) :
    c.Takes ctx (.foreign ⟨owner ++ "." ++ c.name, c.name, c.arity⟩) where
  ownName := by simp [ownName?, CallForm.ownName?, hlocal]
  dependency := by simp [dependency?, CallForm.dependency?, hlocal, howner]
  owned _ := by simp [howner]

end CallSite.Takes

theorem CallsBare.takes {f : Frame} {c : CallSite} {args : List (Arg Expr)} {form : CallForm}
    (hlocal : c.isLocal f.context = true) (harity : args.length = c.arity)
    (h : CallsBare f c.name args form) : c.Takes f.context form := by
  obtain ⟨receiver, name, arity⟩ := c
  cases h with
  | verbatim text =>
      have hexplains : f.context.explains Intrinsic.verbatim = true := by
        simp [ClassContext.explains]
      exact .explained hlocal hexplains (.inl rfl) rfl rfl
  | own hverbatim hmethod => exact .own hlocal hverbatim hmethod _
  | construct _ hmethod htype _ =>
      have hexplains : f.context.explains name = true := by
        rw [ClassContext.explains, Bool.or_assoc _ (Vocabulary.isBuiltin _), htype]
        simp
      exact .explained hlocal hexplains (.inr hmethod) rfl rfl
  | intrinsic _ hmethod _ hintrinsic =>
      have hexplains : f.context.explains name = true := by
        simp [ClassContext.explains, hintrinsic]
      exact .explained hlocal hexplains (.inr hmethod) rfl rfl
  | foreign hverbatim hmethod htype hintrinsic =>
      have hexplains : f.context.explains name = false := by
        rw [ClassContext.explains, Bool.or_assoc _ (Vocabulary.isBuiltin _), htype]
        simp [hverbatim, hmethod, hintrinsic]
      rw [harity]
      exact .unexplained hlocal hexplains

theorem CallsAs.takes {f : Frame} {receiver : Option Expr} {name : String}
    {args : List (Arg Expr)} {form : CallForm} (h : CallsAs f name args receiver form) :
    CallSite.Takes f.context ⟨receiver, name, args.length⟩ form := by
  cases h with
  | bare _ hbare hform => exact hform.takes hbare rfl
  | qualified _ _ hbare _ => exact .qualified hbare rfl

structure Gains {α : Type} (new before after : List α) : Prop where
  mem_iff : ∀ a, a ∈ after ↔ a ∈ before ∨ a ∈ new
  nodup : before.Nodup → after.Nodup

namespace Gains

variable {α : Type} {as bs cs new new' : List α}

theorem nil : Gains [] as as where
  mem_iff _ := ⟨Or.inl, fun h => h.elim id nofun⟩
  nodup := id

theorem addNew [BEq α] [LawfulBEq α] (a : α) (as : List α) : Gains [a] as (addNew as a) where
  mem_iff _ := by rw [mem_addNew, List.mem_singleton]
  nodup h := nodup_addNew h a

theorem append (h : Gains new as bs) (h' : Gains new' bs cs) : Gains (new ++ new') as cs where
  mem_iff a := by rw [h'.mem_iff, h.mem_iff, List.mem_append, or_assoc]
  nodup hnodup := h'.nodup (h.nodup hnodup)

theorem perm (h : Gains new as bs) (hperm : new.Perm new') : Gains new' as bs where
  mem_iff a := by rw [h.mem_iff, hperm.mem_iff]
  nodup := h.nodup

end Gains

/-- What emission notes of calls. -/
structure Notes (ctx : ClassContext) (sites : List CallSite) (before after : Uses) : Prop where
  calls : Gains (sites.filterMap (·.ownName? ctx)) before.calls after.calls
  dependencies :
    Gains (sites.filterMap (·.dependency? ctx)) before.dependencies after.dependencies
  owned : ∀ c ∈ sites, c.isLocal ctx = false → c.owner?.isSome

namespace Notes

variable {ctx : ClassContext} {sites more : List CallSite} {u v w : Uses}

theorem nil : Notes ctx [] u u where
  calls := .nil
  dependencies := .nil
  owned := List.forall_mem_nil _

theorem append (h : Notes ctx sites u v) (h' : Notes ctx more v w) :
    Notes ctx (sites ++ more) u w where
  calls := by
    rw [List.filterMap_append]
    exact h.calls.append h'.calls
  dependencies := by
    rw [List.filterMap_append]
    exact h.dependencies.append h'.dependencies
  owned := List.forall_mem_append.mpr ⟨h.owned, h'.owned⟩

theorem perm (h : Notes ctx sites u v) (hperm : sites.Perm more) : Notes ctx more u v where
  calls := h.calls.perm (hperm.filterMap _)
  dependencies := h.dependencies.perm (hperm.filterMap _)
  owned c hc := h.owned c (hperm.mem_iff.mpr hc)

theorem append_swap (h : Notes ctx sites u v) (h' : Notes ctx more v w) :
    Notes ctx (more ++ sites) u w :=
  (h.append h').perm List.perm_append_comm

theorem of_takes {c : CallSite} {form : CallForm} (h : c.Takes ctx form) (u : Uses) :
    Notes ctx [c] u (form.note u) where
  calls := by
    rw [List.filterMap_cons, h.ownName, List.filterMap_nil]
    cases form with
    | own name hints => exact .addNew name u.calls
    | _ => exact .nil
  dependencies := by
    rw [List.filterMap_cons, h.dependency, List.filterMap_nil]
    cases form with
    | foreign d => exact .addNew d u.dependencies
    | _ => exact .nil
  owned := List.forall_mem_singleton.mpr h.owned

end Notes

theorem callSitesOfExpr?_receiver {receiver : Option Expr}
    (h : receiver = none ∨ receiver = some .self ∨ ∃ owner, receiver = some (.ident owner)) :
    callSitesOfExpr? receiver = [] := by
  obtain rfl | rfl | ⟨owner, rfl⟩ := h <;> rfl

theorem Notes.call {f : Frame} {receiver : Option Expr} {name : String} {args : List (Arg Expr)}
    {form : CallForm} {u v : Uses} (hform : CallsAs f name args receiver form)
    (h : Notes f.context (⟨receiver, name, args.length⟩ :: callSitesOfArgs args) u v) :
    Notes f.context (Expr.call receiver name args).callSites u v := by
  rw [Expr.callSites, callSitesOfExpr?_receiver hform.receiver_eq, List.nil_append]
  exact h

mutual

theorem Renders.notes {f : Frame} {hint : Option ScalarKind} {e : Expr} {u v : Uses}
    {r : Rendered} : Renders f hint e u r v → Notes f.context e.callSites u v
  | .assign _ hfirst hsecond | .assignMod _ hfirst hsecond | .binary _ hfirst hsecond
  | .binaryMod _ hfirst hsecond | .index hfirst hsecond => hfirst.notes.append hsecond.notes
  | .trailing _ hoperand | .leading _ hoperand | .cast _ _ hoperand => hoperand.notes
  | .conditional htest hyes hno => (htest.notes.append hyes.notes).append hno.notes
  | .verbatim hform | .zeroCall hform => .call hform (.of_takes hform.takes _)
  | .constructCall hform hargs | .intrinsic hform hargs | .own hform hargs =>
      .call hform ((Notes.of_takes hform.takes _).append hargs.notes)
  | .foreign hform hargs =>
      -- A call of another class is noted after those in its arguments.
      .call hform (hargs.notes.append_swap (.of_takes hform.takes _))
  | .construct _ _ hargs => hargs.notes
  | .member _ htarget _ => htarget.notes
  | .newArray _ hitems => hitems.notes
  | .literal _ | .ident | .selfMember | .zero _ => .nil

theorem RendersArgs.notes {f : Frame} {hints : List (Option ScalarKind)} {args : List (Arg Expr)}
    {u v : Uses} {ts : List String} :
    RendersArgs f hints args u ts v → Notes f.context (callSitesOfArgs args) u v
  | .nil => .nil
  | .cons hvalue hrest => hvalue.notes.append hrest.notes

theorem RendersItems.notes {f : Frame} {hint : Option ScalarKind} {items : List Expr}
    {u v : Uses} {ts : List String} :
    RendersItems f hint items u ts v → Notes f.context (callSitesOfItems items) u v
  | .nil => .nil
  | .cons hitem hrest => hitem.notes.append hrest.notes

end

theorem callSitesOfItems_append (es es' : List Expr) :
    callSitesOfItems (es ++ es') = callSitesOfItems es ++ callSitesOfItems es' := by
  induction es with
  | nil => rfl
  | cons e es ih => rw [List.cons_append, callSitesOfItems, callSitesOfItems, ih, List.append_assoc]

theorem callSitesOfItems_singleton (e : Expr) : callSitesOfItems [e] = e.callSites :=
  List.append_nil _

theorem callSitesOfItems_toList (e? : Option Expr) :
    callSitesOfItems e?.toList = callSitesOfExpr? e? := by
  cases e? with
  | none => rfl
  | some e => exact callSitesOfItems_singleton e

theorem PartsOf.notes {f : Frame} {element : String} {hint : Option ScalarKind}
    {init : Option Expr} {u v : Uses} {parts : ArrayParts}
    (h : PartsOf f element hint init u parts v) :
    Notes f.context (callSitesOfExpr? init) u v := by
  cases h with
  | listed _ hitems | created _ hitems => exact hitems.notes
  | sized hsize => exact hsize.notes
  | value _ hvalue => exact hvalue.notes

theorem DeclaresName.notes {f : Frame} {type : ValueType} {target text : String}
    {d : Declarator Expr} {u v : Uses} (h : DeclaresName f type target d u text v) :
    Notes f.context (callSitesOfExpr? d.init) u v := by
  cases h with
  | array _ hparts | sizedArray _ hparts => exact hparts.notes
  | value _ hvalue => exact hvalue.notes
  | bare => exact .nil

theorem DeclaresNames.notes {f : Frame} {type : ValueType} {target : String}
    {ds : List (Declarator Expr)} {u v : Uses} {texts : List String}
    (h : DeclaresNames type target f ds u texts v) :
    Notes f.context (callSitesOfItems (ds.filterMap (·.init))) u v := by
  induction h with
  | nil => exact .nil
  | @cons f d ds _ _ _ _ _ hname _ ih =>
      have hsites : callSitesOfItems ((d :: ds).filterMap (·.init)) =
          callSitesOfExpr? d.init ++ callSitesOfItems (ds.filterMap (·.init)) := by
        rw [← callSitesOfItems_toList, ← callSitesOfItems_append]
        cases hinit : d.init <;> simp [hinit]
      rw [hsites]
      exact hname.notes.append ih

theorem DeclaresLocals.notes {f : Frame} {isConst : Bool} {type : TypeRef}
    {ds : List (Declarator Expr)} {u v : Uses} {text : String}
    (h : DeclaresLocals f isConst type ds u text v) :
    Notes f.context (callSitesOfItems (ds.filterMap (·.init))) u v := by
  cases h with
  | intro _ _ _ hnames => exact hnames.notes

theorem EmitsInits.notes {f : Frame} {init : List Stmt} {u v : Uses} {texts : List String}
    (h : EmitsInits f init u texts v) :
    Notes f.context (callSitesOfItems (exprsOf init)) u v := by
  induction h with
  | nil => exact .nil
  | declare hdeclared _ ih =>
      rw [Frame.context_after] at ih
      rw [exprsOf, callSitesOfItems_append]
      exact hdeclared.notes.append ih
  | eval he _ ih =>
      rw [exprsOf, callSitesOfItems_append, Stmt.exprs, callSitesOfItems_singleton]
      exact he.notes.append ih

theorem EmitsTest.notes {f : Frame} {test : Option Expr} {u v : Uses} {text : String}
    (h : EmitsTest f test u text v) : Notes f.context (callSitesOfExpr? test) u v := by
  cases h with
  | none => exact .nil
  | some he => exact he.notes

theorem EmitsSteps.notes {f : Frame} {steps : List Expr} {u v : Uses} {text : String}
    (h : EmitsSteps f steps u text v) : Notes f.context (callSitesOfItems steps) u v := by
  cases h with
  | intro hitems => exact hitems.notes

theorem EmitsLabels.notes {f : Frame} {labels : List (CaseLabel Expr)} {u v : Uses}
    {lines : List Line} (h : EmitsLabels f labels u lines v) :
    Notes f.context (callSitesOfItems (labels.filterMap CaseLabel.value?)) u v := by
  induction h with
  | nil => exact .nil
  | value he _ ih => exact he.notes.append ih
  | default _ ih => exact ih

theorem Notes.ifElse {ctx : ClassContext} {test : Expr} {yes : Stmt} {no : Option Stmt}
    {u u₁ u₂ v : Uses} (htest : Notes ctx test.callSites u u₁)
    (hyes : Notes ctx (callSitesOfItems yes.exprs) u₁ u₂)
    (hno : Notes ctx (callSitesOfItems (no.toList.flatMap Stmt.exprs)) u₂ v) :
    Notes ctx (callSitesOfItems (Stmt.ifElse test yes no).exprs) u v := by
  have hall := htest.append (hyes.append hno)
  rw [← callSitesOfItems_append] at hall
  cases no with
  | none => rwa [Option.toList_none, List.flatMap_nil, List.append_nil] at hall
  | some s => rwa [Option.toList_some, List.flatMap_singleton] at hall

mutual

theorem Emits.notes {f : Frame} {braced : Bool} {s : Stmt} {u v : Uses} {lines : List Line} :
    Emits f braced s u lines v → Notes f.context (callSitesOfItems s.exprs) u v
  | .block hbody => hbody.notes
  | .ifElse htest hyes hno => .ifElse htest.notes hyes.notes hno.notes
  | .whileLoop htest hbody => htest.notes.append hbody.notes
  | .doWhile hbody htest => hbody.notes.append_swap htest.notes
  | .forLoop hinit htest hstep hbody => by
      have htest := htest.notes
      have hsteps := hstep.notes
      have hbody := hbody.notes
      rw [Frame.context_afterAll] at htest hsteps hbody
      rw [Stmt.exprs, callSitesOfItems_append, callSitesOfItems_append, callSitesOfItems_append,
        callSitesOfItems_toList]
      exact ((hinit.notes.append htest).append hsteps).append hbody
  | .switch hs hsections => hs.notes.append hsections.notes
  | .ret hvalue => by
      rw [Stmt.exprs, callSitesOfItems_toList]
      exact hvalue.notes
  | .declare hdeclared => hdeclared.notes
  | .eval he => by
      rw [Stmt.exprs, callSitesOfItems_singleton]
      exact he.notes
  | .empty | .retNone | .brk | .cont | .discard _ => .nil

theorem EmitsElse.notes {f : Frame} {no : Option Stmt} {u v : Uses} {lines : List Line} :
    EmitsElse f no u lines v →
      Notes f.context (callSitesOfItems (no.toList.flatMap Stmt.exprs)) u v
  | .none => .nil
  | .elseIf htest hyes hno => by
      rw [Option.toList_some, List.flatMap_singleton]
      exact .ifElse htest.notes hyes.notes hno.notes
  | .other _ hbody => by
      rw [Option.toList_some, List.flatMap_singleton]
      exact hbody.notes

theorem EmitsAll.notes {f : Frame} {body : List Stmt} {u v : Uses} {lines : List Line} :
    EmitsAll f body u lines v → Notes f.context (callSitesOfItems (exprsOf body)) u v
  | .nil => .nil
  | .cons hs hrest => by
      have hmore := hrest.notes
      rw [Frame.context_after] at hmore
      rw [exprsOf, callSitesOfItems_append]
      exact hs.notes.append hmore

theorem EmitsSections.notes {f : Frame} {sections : List (SwitchSection Expr Stmt)}
    {u v : Uses} {lines : List Line} :
    EmitsSections f sections u lines v →
      Notes f.context (callSitesOfItems (exprsOfSections sections)) u v
  | .nil => .nil
  | .cons hlabels hbody hrest => by
      have hmore := hrest.notes
      rw [Frame.context_afterAll] at hmore
      rw [exprsOfSections, callSitesOfItems_append, callSitesOfItems_append]
      exact (hlabels.notes.append hbody.notes).append hmore

end

/-- What a function names as called is what emission notes of its body. -/
theorem notes_of_emitFunction {ctx : ClassContext} {indent : String} {m : MethodBody}
    {f : ShaderFunction} (h : emitFunction ctx indent m = .ok f) :
    Notes ctx m.callSites {} ⟨f.calls, f.dependencies⟩ := by
  obtain ⟨lines, -, ⟨-, -, -, -, hbody⟩⟩ := emitsFunction_of_emitFunction h
  have hsites := hbody.notes
  rw [context_bindParams] at hsites
  exact hsites

end ShaderCompiler
