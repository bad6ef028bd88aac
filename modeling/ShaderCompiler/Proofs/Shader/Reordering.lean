import Mathlib.Data.List.Perm.Basic
import ShaderCompiler.Proofs.Emission.MethodOrder
import ShaderCompiler.Proofs.Linker.Arising
import ShaderCompiler.Proofs.Order.CalleesFirst
import ShaderCompiler.Proofs.Position.Compiling
import ShaderCompiler.Shader.Compile

namespace ShaderCompiler

section Sequences

variable {ε α β : Type} {h : α → Except ε β}

theorem mapM_ok_perm {as as' : List α} {bs : List β} (hperm : as'.Perm as)
    (hall : as.mapM h = .ok bs) : ∃ bs', as'.mapM h = .ok bs' ∧ bs'.Perm bs := by
  obtain ⟨bs', hall', hbs⟩ := List.perm_comp_forall₂ hperm (mapM_eq_ok_iff.mp hall)
  exact ⟨bs', mapM_eq_ok_iff.mpr hall', hbs⟩

theorem mapM_filter_ok {p : α → Bool} {q : β → Bool} (hpq : ∀ a b, h a = .ok b → q b = p a)
    {as : List α} {bs : List β} (hall : as.mapM h = .ok bs) :
    (as.filter p).mapM h = .ok (bs.filter q) := by
  rw [mapM_eq_ok_iff] at hall ⊢
  induction hall with
  | nil => exact .nil
  | @cons a b as bs hb _ ih =>
      cases hp : p a with
      | true =>
          rw [List.filter_cons_of_pos hp, List.filter_cons_of_pos (by rw [hpq a b hb, hp])]
          exact .cons hb ih
      | false =>
          rw [List.filter_cons_of_neg (by simp [hp]),
            List.filter_cons_of_neg (by simp [hpq a b hb, hp])]
          exact ih

end Sequences

theorem isConstructor_of_toBody {m : MethodDecl} {body : MethodBody} (h : m.toBody = .ok body) :
    body.isConstructor = m.isConstructor := by
  unfold MethodDecl.toBody at h
  split at h <;> cases h
  rfl

theorem withPrologue_eq_ok_iff {className : String} {stmts : List Stmt}
    {methods bodies : List MethodBody} : withPrologue className stmts methods = .ok bodies ↔
      (∃ main, methods.filter (·.isEntryPoint) = [main]) ∧
        (methods.map fun m => if m.isEntryPoint then m.precededBy stmts else m) = bodies := by
  unfold withPrologue
  constructor
  · intro h
    split at h
    · cases h
    · next main hmain => exact ⟨⟨main, hmain⟩, Except.ok.inj h⟩
    · cases h
  · rintro ⟨⟨main, hmain⟩, rfl⟩
    rw [hmain]

theorem withPrologue_perm {className : String} {stmts : List Stmt}
    {methods methods' bodies : List MethodBody} (hperm : methods'.Perm methods)
    (h : withPrologue className stmts methods = .ok bodies) :
    ∃ bodies', withPrologue className stmts methods' = .ok bodies' ∧ bodies'.Perm bodies := by
  obtain ⟨⟨main, hmain⟩, rfl⟩ := withPrologue_eq_ok_iff.mp h
  have hentry := hperm.filter (·.isEntryPoint)
  rw [hmain] at hentry
  exact ⟨_, withPrologue_eq_ok_iff.mpr ⟨⟨main, List.perm_singleton.mp hentry⟩, rfl⟩, hperm.map _⟩

theorem functionBodies_perm {c : ClassDecl} {methods : List MethodDecl} {bodies : List MethodBody}
    (hperm : methods.Perm c.methods)
    (hctors : methods.filter (·.isConstructor) = c.methods.filter (·.isConstructor))
    (h : functionBodies c = .ok bodies) :
    ∃ bodies', functionBodies { c with methods } = .ok bodies' ∧ bodies'.Perm bodies := by
  obtain ⟨all, hall, h⟩ := exists_of_except_bind_ok h
  obtain ⟨stmts, hstmts, h⟩ := exists_of_except_bind_ok h
  obtain ⟨all', hall', hbodies⟩ := mapM_ok_perm hperm hall
  have hkept : all'.filter (·.isConstructor) = all.filter (·.isConstructor) := by
    have hctor := mapM_filter_ok (fun m body => isConstructor_of_toBody) hall
    have hctor' := mapM_filter_ok (fun m body => isConstructor_of_toBody) hall'
    rw [hctors, hctor] at hctor'
    exact (Except.ok.inj hctor').symm
  obtain ⟨bodies', hbodies', hperm'⟩ := withPrologue_perm (hbodies.filter (!·.isConstructor)) h
  refine ⟨bodies', ?_, hperm'⟩
  unfold functionBodies
  show (methods.mapM _ >>= _) = _
  rw [hall']
  show (prologue c.name (all'.filter _) >>= _) = _
  rw [hkept, hstmts]
  exact hbodies'

theorem exists_reorder_ofClass {c : ClassDecl} {methods : List MethodDecl}
    (hperm : methods.Perm c.methods) :
    ∃ r, ClassContext.ofClass { c with methods } = (ClassContext.ofClass c).reorder r := by
  have hsigs : (ClassContext.ofClass { c with methods }).methods.Perm
      (ClassContext.ofClass c).methods :=
    (hperm.filter _).map _
  obtain ⟨r, hr⟩ := exists_reordering hsigs
  refine ⟨r, ?_⟩
  rw [ClassContext.reorder, hr]
  rfl

theorem countP_entry_of_functionBodies {c : ClassDecl} {bodies : List MethodBody}
    (h : functionBodies c = .ok bodies) : bodies.countP (·.isEntryPoint) = 1 := by
  obtain ⟨all, -, h⟩ := exists_of_except_bind_ok h
  obtain ⟨stmts, -, h⟩ := exists_of_except_bind_ok h
  obtain ⟨⟨main, hmain⟩, rfl⟩ := withPrologue_eq_ok_iff.mp h
  have hentry : (·.isEntryPoint) ∘ (fun m : MethodBody =>
      if m.isEntryPoint then m.precededBy stmts else m) = (·.isEntryPoint) := by
    funext m
    show (if m.isEntryPoint then m.precededBy stmts else m).isEntryPoint = m.isEntryPoint
    split <;> rfl
  rw [List.countP_map, hentry, List.countP_eq_length_filter, hmain]
  rfl

theorem entry_of_emitFunction {ctx : ClassContext} {indent : String} {m : MethodBody}
    {f : ShaderFunction} (h : emitFunction ctx indent m = .ok f) :
    f.isEntryPoint = m.isEntryPoint ∧ f.name = m.name := by
  obtain ⟨p, -, h⟩ := exists_of_except_bind_ok h
  cases h
  exact ⟨rfl, rfl⟩

namespace CompiledShader

structure Ordered (s : CompiledShader) : Prop where
  calleesFirst : CalleesFirst s.functions
  entryLast : ∃ others main, s.functions = others ++ [main] ∧ main.isEntryPoint = true ∧
    ∀ f ∈ others, f.isEntryPoint = false

/-- Shaders that differ in the order of their functions. -/
structure SameButOrder (s s' : CompiledShader) : Prop where
  name : s'.name = s.name
  stage : s'.stage = s.stage
  reflection : s'.reflection = s.reflection
  declarations : s'.declarations = s.declarations
  functions : s'.functions.Perm s.functions
  dependencies : s'.dependencies.Perm s.dependencies

end CompiledShader

theorem CompilesTo.shader_ordered {settings : Settings} {c : ClassDecl} {bodies : List MethodBody}
    {emitted : List ShaderFunction} {s : CompiledShader}
    (h : CompilesTo settings c bodies emitted s) : s.Ordered := by
  obtain ⟨hperm, hcallees⟩ := orderFunctions_spec h.ordered
  have hkeys : emitted.map (fun f => (f.isEntryPoint, f.name)) =
      bodies.map (fun m => (m.isEntryPoint, m.name)) := by
    refine map_eq_of_mapM_ok (fun m f hf => ?_) h.generated
    obtain ⟨hentry, hname⟩ := entry_of_emitFunction hf
    rw [hentry, hname]
    rfl
  have hmain : ∀ f ∈ emitted, f.isEntryPoint = true → f.name = "main" := by
    intro f hf hentry
    have hmem : (f.isEntryPoint, f.name) ∈ bodies.map (fun m => (m.isEntryPoint, m.name)) := by
      rw [← hkeys]
      exact List.mem_map_of_mem hf
    obtain ⟨m, -, hm⟩ := List.mem_map.mp hmem
    obtain ⟨hm, hname⟩ := Prod.mk.inj hm
    rw [hentry, MethodBody.isEntryPoint, Bool.and_eq_true, beq_iff_eq] at hm
    rw [← hname, hm.2]
  have hcount : s.functions.countP (·.isEntryPoint) = 1 := by
    calc s.functions.countP (·.isEntryPoint) = emitted.countP (·.isEntryPoint) := hperm.countP_eq _
      _ = (emitted.map fun f => (f.isEntryPoint, f.name)).countP (·.1) := by
          rw [List.countP_map]
          rfl
      _ = bodies.countP (·.isEntryPoint) := by
          rw [hkeys, List.countP_map]
          rfl
      _ = 1 := countP_entry_of_functionBodies h.recovered
  obtain ⟨others, entries, hsplit, hothers, hentries⟩ :=
    entriesLast_of_orderFunctions hmain h.ordered
  have hnone : others.countP (·.isEntryPoint) = 0 :=
    List.countP_eq_zero.mpr fun f hf => by simp [hothers f hf]
  rw [hsplit, List.countP_append, hnone, Nat.zero_add,
    List.countP_eq_length.mpr hentries] at hcount
  obtain ⟨main, rfl⟩ := List.length_eq_one_iff.mp hcount
  exact ⟨hcallees, others, main, hsplit, hentries main (List.mem_singleton_self main), hothers⟩

theorem distinct_flatMap_perm {α β : Type} [BEq β] [LawfulBEq β] {as as' : List α}
    (h : as'.Perm as) (k : α → List β) :
    (distinct (as'.flatMap k)).Perm (distinct (as.flatMap k)) := by
  refine (List.perm_ext_iff_of_nodup (nodup_distinct _) (nodup_distinct _)).mpr fun b => ?_
  rw [mem_distinct, mem_distinct, (h.flatMap_right k).mem_iff]

theorem exists_compile_reordered {settings : Settings} {c : ClassDecl} {s : CompiledShader}
    {methods : List MethodDecl} (hperm : methods.Perm c.methods)
    (hctors : methods.filter (·.isConstructor) = c.methods.filter (·.isConstructor))
    (h : compile settings c = .ok s) :
    ∃ s', compile settings { c with methods } = .ok s' ∧ s.SameButOrder s' := by
  obtain ⟨bodies, emitted, h⟩ := compile_eq_ok_iff.mp h
  obtain ⟨r, hr⟩ := exists_reorder_ofClass hperm
  obtain ⟨bodies', hbodies, hbodiesPerm⟩ := functionBodies_perm hperm hctors h.recovered
  obtain ⟨emitted', hemitted, hemittedPerm⟩ := mapM_ok_perm hbodiesPerm h.generated
  obtain ⟨functions, hfunctions⟩ : ∃ functions, orderFunctions c.name emitted' = .ok functions :=
    orderFunctions_ok_iff.mpr ((orderFunctions_ok_iff.mp ⟨_, h.ordered⟩).perm hemittedPerm)
  have hfunctionsPerm : functions.Perm s.functions :=
    ((orderFunctions_spec hfunctions).1.trans hemittedPerm).trans
      (orderFunctions_spec h.ordered).1.symm
  refine ⟨{ s with functions, dependencies := distinct (functions.flatMap (·.dependencies)) },
    compile_eq_ok_iff.mpr ⟨bodies', emitted', ?_⟩, rfl, rfl, rfl, rfl, hfunctionsPerm, ?_⟩
  · refine { reflected := ?_, recovered := hbodies, generated := ?_, ordered := hfunctions
             declared := h.declared, name := h.name, stage := h.stage, dependencies := rfl }
    · rw [hr, reflect_reorder]
      exact h.reflected
    · simp only [hr, emitFunction_reorder]
      exact hemitted
  · rw [h.dependencies]
    exact distinct_flatMap_perm hfunctionsPerm _

/-- A class compiles in every order of its methods that keeps the constructors in theirs, or in
none. -/
theorem compile_methods_perm (settings : Settings) (c : ClassDecl) (methods : List MethodDecl)
    (hperm : methods.Perm c.methods)
    (hctors : methods.filter (·.isConstructor) = c.methods.filter (·.isConstructor)) :
    Agree (fun _ _ => True) (fun s s' => s.SameButOrder s' ∧ s.Ordered ∧ s'.Ordered)
      (compile settings c) (compile settings { c with methods }) := by
  have hordered {c : ClassDecl} {s : CompiledShader} (h : compile settings c = .ok s) :
      s.Ordered := by
    obtain ⟨bodies, emitted, h⟩ := compile_eq_ok_iff.mp h
    exact h.shader_ordered
  cases h : compile settings c with
  | ok s =>
      obtain ⟨s', h', hsame⟩ := exists_compile_reordered hperm hctors h
      rw [h']
      exact .ok ⟨hsame, hordered h, hordered h'⟩
  | error d =>
      cases h' : compile settings { c with methods } with
      | error d' => exact .error trivial
      | ok s' =>
          -- Back in the first order the class compiles too.
          obtain ⟨s, hs, -⟩ := exists_compile_reordered hperm.symm hctors.symm h'
          cases h.symm.trans hs

/-- The constructor stands behind the entry point, and one function before what it calls. -/
def scatteredClass : ClassDecl where
  name := "Scattered"
  kind := .shader .fragment
  fields := [{ type := ⟨"int", false, false, .none⟩, name := "count" }]
  methods :=
    [{ returnType := none, name := "main",
       body := some [.eval (.assign .assign (.ident "count")
         (.call none "twice" [⟨none, .ident "count"⟩]))] },
     unaryMethod "negated" (.unary .neg (.ident "x")),
     { returnType := none, name := "Scattered", isConstructor := true,
       body := some [.eval (.assign .assign (.ident "count") (.literal (.int 1)))] },
     unaryMethod "twice" (.binary .add (.call none "once" [⟨none, .ident "x"⟩])
       (.call none "once" [⟨none, .ident "x"⟩])),
     unaryMethod "once" (.ident "x")]

theorem compile_scatteredClass :
    ∃ s s', compile {} scatteredClass = .ok s ∧
      compile {} { scatteredClass with methods := scatteredClass.methods.reverse } = .ok s' ∧
      s.functions.map (·.name) = ["negated", "once", "twice", "main"] ∧
      s'.functions.map (·.name) = ["once", "twice", "negated", "main"] ∧
      s.SameButOrder s' ∧ s.Ordered ∧ s'.Ordered := by
  have hrun : (do
      let s ← compile {} scatteredClass
      let s' ← compile {} { scatteredClass with methods := scatteredClass.methods.reverse }
      return (s.functions.map (·.name), s'.functions.map (·.name))) =
        (.ok (["negated", "once", "twice", "main"], ["once", "twice", "negated", "main"]) :
          Except Diagnostic (List String × List String)) := by
    decide +kernel
  obtain ⟨s, hs, hrun⟩ := exists_of_except_bind_ok hrun
  obtain ⟨s', hs', hrun⟩ := exists_of_except_bind_ok hrun
  obtain ⟨hnames, hnames'⟩ := Prod.mk.inj (Except.ok.inj hrun)
  have hagree := compile_methods_perm {} scatteredClass _ (List.reverse_perm _) rfl
  rw [hs, hs'] at hagree
  cases hagree with
  | ok h => exact ⟨s, s', hs, hs', hnames, hnames', h⟩

end ShaderCompiler
