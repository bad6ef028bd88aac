import ShaderCompiler.Proofs.Emission.Calls
import ShaderCompiler.Proofs.Shader.Reordering

namespace ShaderCompiler

namespace CallSite

variable {ctx : ClassContext} {c : CallSite}

theorem ownName?_eq_some {name : String} :
    c.ownName? ctx = some name ↔
      c.isLocal ctx = true ∧ c.name = name ∧ name ≠ Intrinsic.verbatim ∧
        ctx.hasMethod name = true := by
  rw [ownName?]
  constructor
  · intro h
    split at h
    · next hown =>
        cases h
        simpa [and_assoc] using hown
    · cases h
  · rintro ⟨hlocal, rfl, hverbatim, hmethod⟩
    simp [hlocal, hverbatim, hmethod]

theorem isSome_dependency? (howned : c.isLocal ctx = false → c.owner?.isSome) :
    (c.dependency? ctx).isSome = (!c.isLocal ctx || !ctx.explains c.name) := by
  rw [dependency?]
  cases hlocal : c.isLocal ctx with
  | false => simpa using howned hlocal
  | true => cases ctx.explains c.name <;> rfl

end CallSite

/-- The lists of a function hold what the calls in it ask for, without repeats. -/
structure ShaderFunction.Accounts (f : ShaderFunction) (ctx : ClassContext)
    (sites : List CallSite) : Prop where
  nodup_calls : f.calls.Nodup
  mem_calls : ∀ name, name ∈ f.calls ↔
    name ≠ Intrinsic.verbatim ∧ ctx.hasMethod name = true ∧
      ∃ c ∈ sites, c.isLocal ctx = true ∧ c.name = name
  nodup_dependencies : f.dependencies.Nodup
  mem_dependencies : ∀ d, d ∈ f.dependencies ↔ ∃ c ∈ sites, c.dependency? ctx = some d
  isSome_dependency : ∀ c ∈ sites,
    (c.dependency? ctx).isSome = (!c.isLocal ctx || !ctx.explains c.name)

theorem accounts_of_emitFunction {ctx : ClassContext} {indent : String} {m : MethodBody}
    {f : ShaderFunction} (h : emitFunction ctx indent m = .ok f) :
    f.Accounts ctx m.callSites := by
  have hnotes := notes_of_emitFunction h
  constructor
  · exact hnotes.calls.nodup List.nodup_nil
  · intro name
    rw [hnotes.calls.mem_iff name, List.mem_filterMap]
    constructor
    · rintro (hnil | ⟨c, hc, hname⟩)
      · cases hnil
      · obtain ⟨hlocal, hname, hverbatim, hmethod⟩ := CallSite.ownName?_eq_some.mp hname
        exact ⟨hverbatim, hmethod, c, hc, hlocal, hname⟩
    · rintro ⟨hverbatim, hmethod, c, hc, hlocal, hname⟩
      exact .inr ⟨c, hc, CallSite.ownName?_eq_some.mpr ⟨hlocal, hname, hverbatim, hmethod⟩⟩
  · exact hnotes.dependencies.nodup List.nodup_nil
  · intro d
    rw [hnotes.dependencies.mem_iff d, List.mem_filterMap]
    exact or_iff_right List.not_mem_nil
  · intro c hc
    exact CallSite.isSome_dependency? (hnotes.owned c hc)

section

variable {settings : Settings} {c : ClassDecl} {bodies : List MethodBody}
  {emitted : List ShaderFunction} {s : CompiledShader}

theorem CompilesTo.mem_dependencies (h : CompilesTo settings c bodies emitted s)
    (d : Dependency) : d ∈ s.dependencies ↔ ∃ f ∈ s.functions, d ∈ f.dependencies := by
  rw [h.dependencies, mem_distinct, List.mem_flatMap]

theorem CompilesTo.mem_dependencies_iff_site (h : CompilesTo settings c bodies emitted s)
    (d : Dependency) : d ∈ s.dependencies ↔
      ∃ m ∈ bodies, ∃ site ∈ m.normalize.callSites, site.dependency? (.ofClass c) = some d := by
  have hperm := (orderFunctions_spec h.ordered).1
  have hpairs := (mapM_eq_ok_iff.mp h.generated).flip
  rw [h.mem_dependencies]
  constructor
  · rintro ⟨f, hf, hd⟩
    obtain ⟨m, hm, hemit⟩ := exists_mem_of_forall₂ hpairs (hperm.mem_iff.mp hf)
    exact ⟨m, hm, ((accounts_of_emitFunction hemit).mem_dependencies d).mp hd⟩
  · rintro ⟨m, hm, hsite⟩
    obtain ⟨f, hf, hemit⟩ := exists_of_mem_of_mapM_ok h.generated hm
    exact ⟨f, hperm.mem_iff.mpr hf, ((accounts_of_emitFunction hemit).mem_dependencies d).mpr hsite⟩

end

/-- Every call in an emitted method is accounted for once, and the shader needs exactly what its
functions need. -/
theorem emission_accounts_for_calls :
    (∀ (ctx : ClassContext) (indent : String) (m : MethodBody) (f : ShaderFunction),
      emitFunction ctx indent m = .ok f → f.Accounts ctx m.callSites) ∧
    ∀ (settings : Settings) (c : ClassDecl) (s : CompiledShader), compile settings c = .ok s →
      s.dependencies.Nodup ∧
      (∀ d, d ∈ s.dependencies ↔ ∃ f ∈ s.functions, d ∈ f.dependencies) ∧
      ∃ bodies, functionBodies c = .ok bodies ∧
        ∀ d, d ∈ s.dependencies ↔
          ∃ m ∈ bodies, ∃ site ∈ m.normalize.callSites, site.dependency? (.ofClass c) = some d := by
  refine ⟨fun ctx indent m f h => accounts_of_emitFunction h, fun settings c s h => ?_⟩
  obtain ⟨bodies, emitted, h⟩ := compile_eq_ok_iff.mp h
  refine ⟨?_, h.mem_dependencies, bodies, h.recovered, h.mem_dependencies_iff_site⟩
  rw [h.dependencies]
  exact nodup_distinct _

/-- An own method is called in two ways, a function of another class twice and an unknown one once.
The size of the array calls what is never called. -/
def noisyMain : MethodBody where
  name := "main"
  body :=
    [.declare false ⟨"int", true, false, .none⟩
       [⟨"w", some (.newArray ⟨"int", false, false, .none⟩ (some (.call none "seed" []))
         (some [.call (some (.ident "Noise")) "at" [⟨none, .ident "count"⟩]]))⟩],
     .eval (.assign .assign (.ident "count")
       (.binary .add
         (.call none "half" [⟨none, .call (some (.ident "Noise")) "at"
           [⟨none, .call none "abs" [⟨none, .ident "count"⟩]⟩]⟩])
         (.call (some (.ident "Noisy")) "half" [⟨none, .call none "fade"
           [⟨none, .ident "count"⟩,
            ⟨none, .call (some .self) "ivec2" [⟨none, .ident "count"⟩]⟩]⟩]))),
     .eval (.call none "Glsl" [⟨none, .literal (.str "barrier();")⟩])]

def noisyClass : ClassDecl where
  name := "Noisy"
  kind := .shader .fragment
  fields := [{ type := ⟨"int", false, false, .none⟩, name := "count" }]
  methods :=
    [unaryMethod "half" (.binary .div (.ident "x") (.call (some (.ident "Noise")) "two" [])),
     { returnType := none, name := "main", body := some noisyMain.body }]

theorem emission_accounts_for_noisyClass :
    ∃ main s, emitFunction (.ofClass noisyClass) "  " noisyMain = .ok main ∧
      compile {} noisyClass = .ok s ∧
      noisyMain.callSites.map (fun c => (c.name, c.arity, c.isLocal (.ofClass noisyClass))) =
        [("at", 1, false), ("half", 1, true), ("at", 1, false), ("abs", 1, true),
          ("half", 1, true), ("fade", 2, true), ("ivec2", 1, true), ("Glsl", 1, true)] ∧
      main.calls = ["half"] ∧
      main.dependencies = [⟨"Noise.at", "at", 1⟩, ⟨"fade", "fade", 2⟩] ∧
      s.dependencies = [⟨"Noise.two", "two", 0⟩, ⟨"Noise.at", "at", 1⟩, ⟨"fade", "fade", 2⟩] ∧
      main.Accounts (.ofClass noisyClass) noisyMain.callSites ∧
      s.dependencies.Nodup ∧
      (∀ d, d ∈ s.dependencies ↔ ∃ f ∈ s.functions, d ∈ f.dependencies) ∧
      ∃ bodies, functionBodies noisyClass = .ok bodies ∧
        ∀ d, d ∈ s.dependencies ↔ ∃ m ∈ bodies, ∃ site ∈ m.normalize.callSites,
          site.dependency? (.ofClass noisyClass) = some d := by
  have hrun : (do
      let main ← emitFunction (.ofClass noisyClass) "  " noisyMain
      let s ← compile {} noisyClass
      return (main.calls, main.dependencies, s.dependencies)) =
        (.ok (["half"], [⟨"Noise.at", "at", 1⟩, ⟨"fade", "fade", 2⟩],
          [⟨"Noise.two", "two", 0⟩, ⟨"Noise.at", "at", 1⟩, ⟨"fade", "fade", 2⟩]) :
          Except Diagnostic (List String × List Dependency × List Dependency)) := by
    decide +kernel
  obtain ⟨main, hmain, hrun⟩ := exists_of_except_bind_ok hrun
  obtain ⟨s, hs, hrun⟩ := exists_of_except_bind_ok hrun
  obtain ⟨hcalls, hlists⟩ := Prod.mk.inj (Except.ok.inj hrun)
  obtain ⟨hdependencies, hall⟩ := Prod.mk.inj hlists
  exact ⟨main, s, hmain, hs, by decide +kernel, hcalls, hdependencies, hall,
    emission_accounts_for_calls.1 _ _ _ _ hmain, emission_accounts_for_calls.2 _ _ _ hs⟩

end ShaderCompiler
