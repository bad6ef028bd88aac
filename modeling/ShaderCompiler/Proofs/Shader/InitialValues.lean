import ShaderCompiler.Proofs.Interface.ArrayFields
import ShaderCompiler.Proofs.Linker.Arising
import ShaderCompiler.Proofs.Shader.Dependencies

namespace ShaderCompiler

namespace CallSite

variable {ctx : ClassContext} {c : CallSite}

/-- Answered by GLSL: text that is passed on, a constructor or a built-in function. -/
def isAnswered (ctx : ClassContext) (c : CallSite) : Bool :=
  c.isLocal ctx && (c.name == Intrinsic.verbatim || !ctx.hasMethod c.name &&
    (Vocabulary.isBuiltin c.name || ctx.isStruct c.name || Intrinsic.isIntrinsic c.name))

theorem isAnswered_eq (hlocal : c.isLocal ctx = true) (hexplains : ctx.explains c.name = true) :
    c.isAnswered ctx = (c.ownName? ctx).isNone := by
  rw [isAnswered, ownName?, hlocal, Bool.true_and, Bool.true_and]
  by_cases hverbatim : c.name = Intrinsic.verbatim
  · simp [hverbatim]
  · cases hmethod : ctx.hasMethod c.name with
    | true => simp [hverbatim]
    | false => simpa [ClassContext.explains, hverbatim, hmethod, or_assoc] using hexplains

end CallSite

/-- The text of an initial value, whatever is called in it. -/
def initialText (ctx : ClassContext) (owner : String) (type : ValueType) (e : Expr) :
    Emit String :=
  if type.array then do
    let target ← ctx.resolveType type.name
    return (← arrayParts (fieldFrame ctx owner) target (literalHint (some type)) owner
      (some e)).init.getD ""
  else return (← render (fieldFrame ctx owner) (literalHint (some type)) e).fit Precedence.assign

section

variable {ctx : ClassContext} {owner text : String} {type : ValueType} {e : Expr} {u v : Uses}

theorem notes_of_initialText (h : initialText ctx owner type e u = .ok (text, v)) :
    Notes ctx e.callSites u v := by
  rw [initialText] at h
  split at h
  · obtain ⟨target, -, h⟩ := exists_of_lift_bind_ok h
    obtain ⟨parts, u₁, hparts, h⟩ := exists_of_bind_ok h
    cases h
    exact ((outcome_arrayParts _ _ _ _ _ _).of_ok hparts).notes
  · obtain ⟨r, u₁, hr, h⟩ := exists_of_bind_ok h
    cases h
    exact (renders_of_render hr).notes

/-- The first function of another class that is called refuses the whole. -/
theorem initializer_of_initialText (h : initialText ctx owner type e {} = .ok (text, v)) :
    initializer ctx owner type e = v.dependencies.head?.elim (.ok text) fun d =>
      .error (.invalidUse (.initializerCalls owner d.qualifiedName)) := by
  obtain ⟨calls, dependencies⟩ := v
  show (initialText ctx owner type e {} >>= _) = _
  rw [h]
  cases dependencies <;> rfl

theorem dependencies_eq_nil_iff (h : Notes ctx e.callSites {} v) :
    v.dependencies = [] ↔ ∀ c ∈ e.callSites, c.dependency? ctx = none := by
  rw [List.eq_nil_iff_forall_not_mem]
  constructor
  · intro hnone c hc
    rw [Option.eq_none_iff_forall_not_mem]
    intro d hd
    exact hnone d ((h.dependencies.mem_iff d).mpr (.inr (List.mem_filterMap.mpr ⟨c, hc, hd⟩)))
  · intro hnone d hd
    rcases (h.dependencies.mem_iff d).mp hd with hd | hd
    · cases hd
    · obtain ⟨c, hc, hcd⟩ := List.mem_filterMap.mp hd
      rw [hnone c hc] at hcd
      cases hcd

theorem initializer_eq_ok_iff : initializer ctx owner type e = .ok text ↔
    ∃ uses, initialText ctx owner type e {} = .ok (text, uses) ∧
      ∀ c ∈ e.callSites, c.dependency? ctx = none := by
  constructor
  · intro h
    obtain ⟨⟨text', uses⟩, htext, -⟩ := exists_of_except_bind_ok h
    have htext : initialText ctx owner type e {} = .ok (text', uses) := htext
    rw [initializer_of_initialText htext] at h
    cases hhead : uses.dependencies.head? with
    | none =>
        rw [hhead] at h
        cases h
        have hnil := List.head?_eq_none_iff.mp hhead
        exact ⟨uses, htext, (dependencies_eq_nil_iff (notes_of_initialText htext)).mp hnil⟩
    | some d =>
        rw [hhead] at h
        cases h
  · rintro ⟨uses, htext, hnone⟩
    have hnil := (dependencies_eq_nil_iff (notes_of_initialText htext)).mpr hnone
    rw [initializer_of_initialText htext, hnil]
    rfl

theorem initializer_eq_error (h : initialText ctx owner type e {} = .ok (text, v))
    {c : CallSite} (hc : c ∈ e.callSites) (hneeds : (c.dependency? ctx).isSome = true) :
    ∃ d, (∃ c ∈ e.callSites, c.dependency? ctx = some d) ∧
      initializer ctx owner type e =
        .error (.invalidUse (.initializerCalls owner d.qualifiedName)) := by
  have hnotes := notes_of_initialText h
  rw [initializer_of_initialText h]
  cases hdeps : v.dependencies with
  | nil =>
      rw [(dependencies_eq_nil_iff hnotes).mp hdeps c hc] at hneeds
      cases hneeds
  | cons d rest =>
      refine ⟨d, ?_, rfl⟩
      have hd : d ∈ v.dependencies := hdeps ▸ List.mem_cons_self
      rcases (hnotes.dependencies.mem_iff d).mp hd with hd | hd
      · cases hd
      · exact List.mem_filterMap.mp hd

theorem of_initializer_callSite (h : initializer ctx owner type e = .ok text) {c : CallSite}
    (hc : c ∈ e.callSites) : c.isLocal ctx = true ∧ ctx.explains c.name = true := by
  obtain ⟨uses, htext, hnone⟩ := initializer_eq_ok_iff.mp h
  have hneeds := CallSite.isSome_dependency? ((notes_of_initialText htext).owned c hc)
  rw [hnone c hc] at hneeds
  simpa using hneeds.symm

end

/-- How the calls in an initial value decide on it. -/
structure InitialCalls (ctx : ClassContext) (owner : String) (type : ValueType) (e : Expr) :
    Prop where
  accepted_iff : ∀ text, initializer ctx owner type e = .ok text ↔
    ∃ uses, initialText ctx owner type e {} = .ok (text, uses) ∧
      ∀ c ∈ e.callSites, c.dependency? ctx = none
  refused : ∀ text uses, initialText ctx owner type e {} = .ok (text, uses) →
    ∀ c ∈ e.callSites, (c.dependency? ctx).isSome = true →
      ∃ d, (∃ c ∈ e.callSites, c.dependency? ctx = some d) ∧
        initializer ctx owner type e =
          .error (.invalidUse (.initializerCalls owner d.qualifiedName))
  answered : ∀ text, initializer ctx owner type e = .ok text →
    ∀ c ∈ e.callSites, c.isAnswered ctx = (c.ownName? ctx).isNone

theorem initialCalls (ctx : ClassContext) (owner : String) (type : ValueType) (e : Expr) :
    InitialCalls ctx owner type e where
  accepted_iff _ := initializer_eq_ok_iff
  refused _ _ h _ hc hneeds := initializer_eq_error h hc hneeds
  answered _ h _ hc := by
    obtain ⟨hlocal, hexplains⟩ := of_initializer_callSite h hc
    exact CallSite.isAnswered_eq hlocal hexplains

section

variable {rules : InterfaceRules} {field : FieldDecl} {notes : Annotations} {owner : String}

theorem exists_initializer_of_initialValue {ctx : ClassContext} {init : Option String} {e : Expr}
    (h : initialValue ctx field owner = .ok init) (he : field.init = some e) :
    ∃ text, initializer ctx owner (.ofRef field.type) e = .ok text := by
  rw [initialValue, he] at h
  obtain ⟨text, htext, -⟩ := exists_of_map_ok h
  exact ⟨text, htext⟩

theorem exists_initializer_of_fieldEntry {entry : Option (Section × Variable)}
    (h : fieldEntry rules field = .ok entry) (hrole : .builtIn ∉ rolesOf field.attributes)
    {e : Expr} (he : field.init = some e) :
    ∃ owner text, initializer rules.context owner (.ofRef field.type) e = .ok text := by
  obtain ⟨notes, owner, hnotes, hread⟩ := fieldRead_of_fieldEntry h
  have hbuiltIn : notes.qualifiers ≠ [.builtIn] := by
    intro hr
    rw [hnotes.qualifiers] at hr
    exact hrole (hr ▸ List.mem_singleton_self _)
  refine ⟨owner, ?_⟩
  cases hread with
  | constant _ _ _ _ hinit | global _ _ _ _ hinit | uniform _ _ _ _ hinit =>
      exact exists_initializer_of_initialValue hinit he
  | input _ _ _ _ hinit | output _ _ _ _ hinit =>
      rw [hinit] at he
      cases he
  | builtIn _ hr => exact absurd hr hbuiltIn
  | named _ hr => exact absurd hr hbuiltIn

end

theorem name_of_toBody {m : MethodDecl} {b : MethodBody} (h : m.toBody = .ok b) :
    b.name = m.name := by
  unfold MethodDecl.toBody at h
  split at h <;> cases h
  rfl

theorem exists_body_of_hasMethod {c : ClassDecl} {bodies : List MethodBody}
    (h : functionBodies c = .ok bodies) {name : String}
    (hname : (ClassContext.ofClass c).hasMethod name = true) : ∃ b ∈ bodies, b.name = name := by
  obtain ⟨methods, hmethods, h⟩ := exists_of_except_bind_ok h
  obtain ⟨stmts, -, h⟩ := exists_of_except_bind_ok h
  obtain ⟨-, rfl⟩ := withPrologue_eq_ok_iff.mp h
  have hname : ∃ m ∈ c.methods, m.isConstructor = false ∧ m.name = name := by
    simpa [ClassContext.hasMethod, ClassContext.ofClass, and_assoc] using hname
  obtain ⟨m, hm, hctor, rfl⟩ := hname
  obtain ⟨b, hb, hbody⟩ := exists_of_mem_of_mapM_ok hmethods hm
  have hmem : b ∈ methods.filter (!·.isConstructor) := by
    simp [hb, isConstructor_of_toBody hbody, hctor]
  refine ⟨_, List.mem_map_of_mem hmem, ?_⟩
  rw [apply_ite MethodBody.name]
  show ite _ b.name b.name = m.name
  rw [ite_self]
  exact name_of_toBody hbody

theorem CompilesTo.exists_function {settings : Settings} {c : ClassDecl}
    {bodies : List MethodBody} {emitted : List ShaderFunction} {s : CompiledShader}
    (h : CompilesTo settings c bodies emitted s) {name : String}
    (hname : (ClassContext.ofClass c).hasMethod name = true) :
    ∃ f ∈ s.functions, f.name = name := by
  obtain ⟨b, hb, rfl⟩ := exists_body_of_hasMethod h.recovered hname
  obtain ⟨f, hf, hemit⟩ := exists_of_mem_of_mapM_ok h.generated hb
  exact ⟨f, (orderFunctions_spec h.ordered).1.mem_iff.mpr hf, (entry_of_emitFunction hemit).2⟩

/-- In every linked text the definition of the function stands below the declarations. -/
def CompiledShader.DefinesBelow (settings : Settings) (s : CompiledShader) (f : ShaderFunction) :
    Prop :=
  ∀ (l : Linker) text, l.link settings s = .ok text → ∃ before after,
    text = renderSections (s.declarations :: before ++ f.text :: after)

theorem CompiledShader.definesBelow {settings : Settings} {s : CompiledShader}
    {f : ShaderFunction} (hf : f ∈ s.functions) : s.DefinesBelow settings f := by
  intro l text h
  obtain ⟨fs, constants, -, -, rfl⟩ := Linker.link_eq_ok.mp h
  obtain ⟨first, last, hsplit⟩ := List.append_of_mem hf
  refine ⟨variableLines constants :: fs.map (·.function.text) ++ first.map (·.text),
    last.map (·.text), ?_⟩
  rw [hsplit, List.map_append, List.map_cons]
  simp only [List.cons_append, List.nil_append, List.append_assoc]

theorem CompilesTo.answered_or_below {settings : Settings} {c : ClassDecl}
    {bodies : List MethodBody} {emitted : List ShaderFunction} {s : CompiledShader}
    (h : CompilesTo settings c bodies emitted s) {field : FieldDecl} (hfield : field ∈ c.fields)
    (hrole : .builtIn ∉ rolesOf field.attributes) {site : CallSite}
    (hsite : site ∈ callSitesOfExpr? field.init) : site.isAnswered (.ofClass c) = true ∨
      ∃ f ∈ s.functions, site.ownName? (.ofClass c) = some f.name ∧ s.DefinesBelow settings f := by
  obtain ⟨stage, entries, hreflects⟩ := reflectsTo_of_reflect h.reflected
  obtain ⟨entry, -, hentry⟩ := exists_mem_of_forall₂ hreflects.fields hfield
  cases he : field.init with
  | none =>
      rw [he] at hsite
      cases hsite
  | some e =>
      rw [he] at hsite
      obtain ⟨owner, text, htext⟩ := exists_initializer_of_fieldEntry hentry hrole he
      have hanswered := (initialCalls (.ofClass c) _ _ _).answered text htext site hsite
      cases hown : site.ownName? (.ofClass c) with
      | none =>
          left
          rw [hanswered, hown, Option.isNone_none]
      | some name =>
          right
          obtain ⟨-, -, -, hmethod⟩ := CallSite.ownName?_eq_some.mp hown
          obtain ⟨f, hf, rfl⟩ := h.exists_function hmethod
          exact ⟨f, hf, rfl, CompiledShader.definesBelow hf⟩

/-- An accepted initial value calls no function of another class. It may call a method of its own
class, and then calls what is defined below it. -/
theorem initial_values_call_below (ctx : ClassContext) (owner : String) (type : ValueType)
    (e : Expr) :
    InitialCalls ctx owner type e ∧
    ∀ (settings : Settings) (c : ClassDecl) (s : CompiledShader), compile settings c = .ok s →
      ∀ field ∈ c.fields, .builtIn ∉ rolesOf field.attributes →
        ∀ site ∈ callSitesOfExpr? field.init, site.isAnswered (.ofClass c) = true ∨
          ∃ f ∈ s.functions, site.ownName? (.ofClass c) = some f.name ∧
            s.DefinesBelow settings f := by
  refine ⟨initialCalls ctx owner type e, ?_⟩
  intro settings c s h field hfield hrole site hsite
  obtain ⟨bodies, emitted, h⟩ := compile_eq_ok_iff.mp h
  exact h.answered_or_below hfield hrole hsite

/-- `twice(abs(1))` -/
def seedValue : Expr :=
  .call none "twice" [⟨none, .call none "abs" [⟨none, .literal (.int 1)⟩]⟩]

def seedField : FieldDecl where
  type := { name := "int" }
  name := "seed"
  init := some seedValue

def seededShader : ClassDecl where
  name := "Seeded"
  kind := .shader .fragment
  fields := [seedField]
  methods := [unaryMethod "twice" (.binary .add (.ident "x") (.ident "x")),
    { returnType := none, name := "main", body := some [] }]

/-- The initial value calls a function of GLSL and, before its definition, a method. -/
theorem initial_value_of_seededShader :
    InitialCalls (.ofClass seededShader) "Seeded.seed" (.named "int") seedValue ∧
    ∃ s, compile {} seededShader = .ok s ∧
      s.declarations = "#version 430\n\nint seed = twice(abs(1));\n" ∧
      seedValue.callSites.map (fun site => (site.name, site.isAnswered (.ofClass seededShader))) =
        [("twice", false), ("abs", true)] ∧
      ∀ site ∈ seedValue.callSites, site.isAnswered (.ofClass seededShader) = true ∨
        ∃ f ∈ s.functions, site.ownName? (.ofClass seededShader) = some f.name ∧
          s.DefinesBelow {} f := by
  have hrun : (compile {} seededShader).map (·.declarations) =
      .ok "#version 430\n\nint seed = twice(abs(1));\n" := by
    decide +kernel
  obtain ⟨s, hs, hdeclarations⟩ := exists_of_map_ok hrun
  obtain ⟨hinitial, hbelow⟩ := initial_values_call_below (.ofClass seededShader) "Seeded.seed"
    (.named "int") seedValue
  refine ⟨hinitial, s, hs, hdeclarations, by decide +kernel, ?_⟩
  exact hbelow {} seededShader s hs seedField List.mem_cons_self List.not_mem_nil

end ShaderCompiler
