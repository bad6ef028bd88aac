import ShaderCompiler.Proofs.Association
import ShaderCompiler.Proofs.Emission.Reasons
import ShaderCompiler.Proofs.Linker.Walks

namespace ShaderCompiler

open Relation

def ShaderFunction.signature (f : ShaderFunction) : String × Nat := (f.name, f.arity)

theorem checkSignatures_eq_ok_iff {nameAt : Nat → String} {owners : List ((String × Nat) × String)}
    {fs : List LinkedFunction} :
    checkSignatures nameAt owners fs = .ok () ↔
      (fs.map (·.function.signature)).Nodup ∧
        ∀ f ∈ fs, f.function.signature ∉ owners.map (·.1) := by
  induction fs generalizing owners with
  | nil => simp [checkSignatures]
  | cons f fs ih =>
      obtain ⟨key, f⟩ := f
      rw [checkSignatures]
      cases hl : owners.lookup (f.name, f.arity) with
      | some first =>
          refine iff_of_false nofun ?_
          rintro ⟨-, hfresh⟩
          exact hfresh ⟨key, f⟩ List.mem_cons_self
            (List.mem_map.mpr ⟨_, mem_of_lookup hl, rfl⟩)
      | none =>
          have hf : f.signature ∉ owners.map (·.1) := by
            intro hmem
            obtain ⟨⟨sig, owner⟩, hmem, rfl⟩ := List.mem_map.mp hmem
            exact lookup_ne_none_of_mem hmem hl
          rw [ih, List.map_cons, List.map_cons, List.nodup_cons, List.forall_mem_cons]
          constructor
          · rintro ⟨hnodup, hfresh⟩
            refine ⟨⟨?_, hnodup⟩, hf, fun g hg hmem => ?_⟩
            · intro hmem
              obtain ⟨g, hg, he⟩ := List.mem_map.mp hmem
              exact hfresh g hg (he ▸ List.mem_cons_self)
            · exact hfresh g hg (List.mem_cons_of_mem _ hmem)
          · rintro ⟨⟨hnotin, hnodup⟩, -, hfresh⟩
            refine ⟨hnodup, fun g hg hmem => ?_⟩
            rcases List.mem_cons.mp hmem with he | hmem
            · exact hnotin (List.mem_map.mpr ⟨g, hg, he⟩)
            · exact hfresh g hg hmem

theorem construct?_of_checkSignatures {nameAt : Nat → String}
    {owners : List ((String × Nat) × String)} {fs : List LinkedFunction} {d : Diagnostic}
    (h : checkSignatures nameAt owners fs = .error d) : d.construct? = none := by
  induction fs generalizing owners with
  | nil => cases h
  | cons f fs ih =>
      rw [checkSignatures] at h
      split at h
      · cases h
        rfl
      · exact ih h

theorem renderSections_skip (first : String) (rest : List String) :
    renderSections (first :: "" :: rest) = renderSections (first :: rest) := by
  simp [renderSections, List.filter_cons]

namespace Linker

variable {l : Linker} {settings : Settings} {s : CompiledShader}

theorem of_mapM_function {order : List FunctionKey} {fs : List LinkedFunction}
    (h : order.mapM (fun key => do return (⟨key, ← l.function settings key⟩ : LinkedFunction)) =
      .ok fs) :
    fs.map (·.key) = order ∧ ∀ f ∈ fs, l.function settings f.key = .ok f.function := by
  induction order generalizing fs with
  | nil =>
      cases h
      exact ⟨rfl, by simp⟩
  | cons key order ih =>
      rw [List.mapM_cons] at h
      obtain ⟨f, hf, h⟩ := exists_of_except_bind_ok h
      obtain ⟨fs', hfs, h⟩ := exists_of_except_bind_ok h
      cases h
      obtain ⟨g, hg, hf⟩ := exists_of_except_bind_ok hf
      cases hf
      obtain ⟨hkeys, hfunctions⟩ := ih hfs
      exact ⟨by rw [List.map_cons, hkeys], List.forall_mem_cons.mpr ⟨hg, hfunctions⟩⟩

theorem exists_mapM_function {order : List FunctionKey}
    (h : ∀ key ∈ order, ∃ f, l.function settings key = .ok f) :
    ∃ fs, order.mapM (fun key => do
      return (⟨key, ← l.function settings key⟩ : LinkedFunction)) = .ok fs := by
  induction order with
  | nil => exact ⟨[], rfl⟩
  | cons key order ih =>
      obtain ⟨f, hf⟩ := h key List.mem_cons_self
      obtain ⟨fs, hfs⟩ := ih fun k hk => h k (List.mem_cons_of_mem _ hk)
      refine ⟨⟨key, f⟩ :: fs, ?_⟩
      rw [List.mapM_cons, hf, hfs]
      rfl

/-- Linking ends where the walk fails, or with the check of the signatures of all that it
finished. -/
theorem linked_cases (l : Linker) (settings : Settings) (s : CompiledShader) :
    (∃ d p, l.walk settings s = (.error d, p) ∧ l.linked settings s = .error d) ∨
      ∃ p fs, l.walk settings s = (.ok (), p) ∧ fs.map (·.key) = p.order ∧
        (∀ f ∈ fs, l.function settings f.key = .ok f.function) ∧
        l.linked settings s =
          (checkSignatures l.nameAt (s.functions.map fun f => ((f.name, f.arity), s.name)) fs).map
            fun _ => fs := by
  match hwalk : l.walk settings s with
  | (.error d, p) =>
      refine Or.inl ⟨d, p, rfl, ?_⟩
      rw [linked, hwalk]
      rfl
  | (.ok (), p) =>
      have hsorted := (of_walk_ok hwalk).1
      obtain ⟨fs, hfs⟩ := exists_mapM_function (exists_function_of_sorted hsorted)
      obtain ⟨hkeys, hfunctions⟩ := of_mapM_function hfs
      refine Or.inr ⟨p, fs, rfl, hkeys, hfunctions, ?_⟩
      rw [linked, hwalk]
      dsimp only
      rw [hfs]
      rfl

/-- What linking promises of its result. -/
structure IsLinkOrder (l : Linker) (settings : Settings) (s : CompiledShader)
    (fs : List LinkedFunction) : Prop where
  functions : ∀ f ∈ fs, l.function settings f.key = .ok f.function
  nodup : (fs.map (·.key)).Nodup
  least : IsLeast {keys | l.IsClosed settings s keys} {key | key ∈ fs.map (·.key)}
  calleesFirst : ∀ before f after, fs = before ++ f :: after →
    ∀ callee, l.Calls settings f.key callee → callee ∈ before.map (·.key)
  signatures : (fs.map (·.function.signature)).Nodup
  ownSignatures : ∀ f ∈ fs, ∀ g ∈ s.functions, f.function.signature ≠ g.signature

theorem isLinkOrder_of_linked {fs : List LinkedFunction} (h : l.linked settings s = .ok fs) :
    l.IsLinkOrder settings s fs := by
  obtain ⟨d, p, -, he⟩ | ⟨p, fs', hwalk, hkeys, hfunctions, he⟩ := linked_cases l settings s
  · rw [he] at h
    cases h
  · have hsorted := (of_walk_ok hwalk).1
    cases hc : checkSignatures l.nameAt (s.functions.map fun f => ((f.name, f.arity), s.name)) fs' with
    | error d =>
        rw [he, hc] at h
        cases h
    | ok _ =>
        rw [he, hc] at h
        cases h
        obtain ⟨hsigs, hown⟩ := checkSignatures_eq_ok_iff.mp hc
        have hleast := isLeast_of_walk hwalk
        rw [← hkeys] at hsorted hleast
        refine ⟨hfunctions, hsorted.nodup, hleast, ?_, hsigs, ?_⟩
        · rintro before f after rfl callee hcall
          rw [List.map_append, List.map_cons] at hsorted
          obtain ⟨_, -, hcallees, -⟩ := function_of_sorted hsorted rfl
          exact hcallees callee hcall
        · intro f hf g hg hsig
          apply hown f hf
          rw [List.map_map, hsig]
          exact List.mem_map.mpr ⟨g, hg, rfl⟩

theorem construct?_of_resolve {dep : Dependency} {d : Diagnostic}
    (h : l.resolve dep = .error d) : d.construct? = none := by
  rw [resolve] at h
  split at h <;> cases h <;> rfl

theorem construct?_of_function {key : FunctionKey} {d : Diagnostic}
    (h : l.function settings key = .error d) : d.construct? ≠ some .recursion := by
  rw [function] at h
  split at h
  · cases h
  · exact construct_ne_recursion_of_compileMethod h
  · cases h
    exact nofun

theorem hasCycle_of_recursion {d : Diagnostic} (h : l.linked settings s = .error d)
    (hd : d.construct? = some .recursion) : l.HasCycle settings s := by
  obtain ⟨d', p, hwalk, he⟩ | ⟨p, fs, -, -, -, he⟩ := linked_cases l settings s
  · rw [he] at h
    cases h
    rcases of_walk_error hwalk with ⟨dep, -, hr⟩ | ⟨key, hneeded, hf | ⟨f, -, dep, -, hr⟩ | hcycle⟩
    · rw [construct?_of_resolve hr] at hd
      cases hd
    · exact absurd hd (construct?_of_function hf)
    · rw [construct?_of_resolve hr] at hd
      cases hd
    · exact ⟨key, hneeded, hcycle.1⟩
  · cases hc : checkSignatures l.nameAt (s.functions.map fun f => ((f.name, f.arity), s.name)) fs with
    | error d' =>
        rw [he, hc] at h
        cases h
        rw [construct?_of_checkSignatures hc] at hd
        cases hd
    | ok _ =>
        rw [he, hc] at h
        cases h

theorem not_hasCycle_of_linked {fs : List LinkedFunction} (h : l.linked settings s = .ok fs) :
    ¬ l.HasCycle settings s := by
  rintro ⟨key, hneeded, hcycle⟩
  obtain ⟨d, p, -, he⟩ | ⟨p, fs', hwalk, -, -, -⟩ := linked_cases l settings s
  · rw [he] at h
    cases h
  · have hmem := (isLeast_of_walk hwalk).1.mem_of_needed hneeded
    rw [← needs_eq_calls] at hcycle
    exact (of_walk_ok hwalk).1.acyclic key hmem hcycle

/-- Among the functions of a set and those of the shader no two share a signature. -/
structure Distinguishes (l : Linker) (settings : Settings) (s : CompiledShader)
    (keys : Set FunctionKey) : Prop where
  among : ∀ k ∈ keys, ∀ k' ∈ keys, ∀ f f', l.function settings k = .ok f →
    l.function settings k' = .ok f' → f.signature = f'.signature → k = k'
  own : ∀ k ∈ keys, ∀ f, l.function settings k = .ok f →
    ∀ g ∈ s.functions, f.signature ≠ g.signature

theorem IsLinkOrder.distinguishes {fs : List LinkedFunction}
    (h : l.IsLinkOrder settings s fs) :
    l.Distinguishes settings s {key | key ∈ fs.map (·.key)} := by
  have hmember : ∀ k ∈ fs.map (·.key), ∀ f, l.function settings k = .ok f →
      ∃ lf ∈ fs, lf.key = k ∧ lf.function = f := by
    intro k hk f hf
    obtain ⟨lf, hlf, rfl⟩ := List.mem_map.mp hk
    exact ⟨lf, hlf, rfl, Except.ok.inj ((h.functions lf hlf).symm.trans hf)⟩
  constructor
  · intro k hk k' hk' f f' hf hf' hsig
    obtain ⟨lf, hlf, rfl, rfl⟩ := hmember k hk f hf
    obtain ⟨lf', hlf', rfl, rfl⟩ := hmember k' hk' f' hf'
    rw [List.inj_on_of_nodup_map h.signatures hlf hlf' hsig]
  · intro k hk f hf g hg
    obtain ⟨lf, hlf, rfl, rfl⟩ := hmember k hk f hf
    exact h.ownSignatures lf hlf g hg

theorem exists_linked {keys : Set FunctionKey} (hclosed : l.IsClosed settings s keys)
    (hdistinct : l.Distinguishes settings s keys) (hacyclic : ¬ l.HasCycle settings s) :
    ∃ fs, l.linked settings s = .ok fs := by
  obtain ⟨d, p, hwalk, -⟩ | ⟨p, fs, hwalk, hkeys, hfunctions, he⟩ := linked_cases l settings s
  · exfalso
    rcases of_walk_error hwalk with ⟨dep, hdep, hr⟩ | ⟨key, hneeded, hx⟩
    · obtain ⟨key, -, hr'⟩ := hclosed.roots dep hdep
      rw [hr] at hr'
      cases hr'
    · obtain ⟨f, hf, -, hdeps⟩ := hclosed.calls key (hclosed.mem_of_needed hneeded)
      rcases hx with hf' | ⟨f', hf', dep, hdep, hr⟩ | hcycle
      · rw [hf] at hf'
        cases hf'
      · obtain rfl := Except.ok.inj (hf.symm.trans hf')
        obtain ⟨callee, -, hr'⟩ := hdeps dep hdep
        rw [hr] at hr'
        cases hr'
      · exact hacyclic ⟨key, hneeded, hcycle.1⟩
  · have hmem : ∀ f ∈ fs, f.key ∈ keys := by
      intro f hf
      have hkey : f.key ∈ p.order := hkeys ▸ List.mem_map_of_mem hf
      exact hclosed.mem_of_needed ((of_walk_ok hwalk).2.2 f.key hkey)
    have hnodup := (of_walk_ok hwalk).1.nodup
    rw [← hkeys] at hnodup
    have hsigs : (fs.map (·.function.signature)).Nodup := by
      refine List.Nodup.map_on ?_ hnodup.of_map
      intro f hf g hg hsig
      have hkey := hdistinct.among f.key (hmem f hf) g.key (hmem g hg) f.function g.function
        (hfunctions f hf) (hfunctions g hg) hsig
      exact List.inj_on_of_nodup_map hnodup hf hg hkey
    have hfresh : ∀ f ∈ fs, f.function.signature ∉
        (s.functions.map fun f => ((f.name, f.arity), s.name)).map (·.1) := by
      intro f hf hsig
      rw [List.map_map] at hsig
      obtain ⟨g, hg, hsame⟩ := List.mem_map.mp hsig
      exact hdistinct.own f.key (hmem f hf) f.function (hfunctions f hf) g hg hsame.symm
    refine ⟨fs, ?_⟩
    rw [he, checkSignatures_eq_ok_iff.mpr ⟨hsigs, hfresh⟩]
    rfl

theorem link_eq_source (h : s.dependencies = []) : l.link settings s = .ok s.source := by
  have hlinked : l.linked settings s = .ok [] := by
    rw [linked, walk, h]
    rfl
  have hlink : l.link settings s =
      .ok (renderSections (s.declarations :: "" :: s.functions.map (·.text))) := by
    rw [link, hlinked]
    rfl
  rw [hlink, CompiledShader.source, renderSections_skip]

/-- A result lists exactly what is needed, callees first and without clashes. There is one exactly
if all that is needed resolves, compiles and does not clash, and nothing in it calls itself, which
is also the only reason to speak of recursion. A shader that depends on nothing is linked to its own
source. -/
theorem linked_complete_minimal (l : Linker) (settings : Settings) (s : CompiledShader) :
    (∀ fs, l.linked settings s = .ok fs → l.IsLinkOrder settings s fs) ∧
      ((∃ fs, l.linked settings s = .ok fs) ↔ ¬ l.HasCycle settings s ∧
        ∃ keys, l.IsClosed settings s keys ∧ l.Distinguishes settings s keys) ∧
      (∀ d, l.linked settings s = .error d → d.construct? = some .recursion →
        l.HasCycle settings s) ∧
      (s.dependencies = [] → l.link settings s = .ok s.source) := by
  refine ⟨fun fs h => isLinkOrder_of_linked h, ?_, fun d h hd => hasCycle_of_recursion h hd,
    link_eq_source⟩
  constructor
  · rintro ⟨fs, h⟩
    have horder := isLinkOrder_of_linked h
    exact ⟨not_hasCycle_of_linked h, _, horder.least.1, horder.distinguishes⟩
  · rintro ⟨hacyclic, keys, hclosed, hdistinct⟩
    exact exists_linked hclosed hdistinct hacyclic

end Linker

def unaryMethod (name : String) (e : Expr) : MethodDecl where
  returnType := some ⟨"int", false, false, .none⟩
  name := name
  params := [{ type := ⟨"int", false, false, .none⟩, name := "x" }]
  body := some [.ret (some e)]

/-- Of three functions one calls another twice, and one calls itself. -/
def sumsLinker : Linker where
  libraries :=
    [{ name := "Sums"
       kind := .library
       methods :=
         [unaryMethod "twice" (.binary .add (.call none "once" [⟨none, .ident "x"⟩])
            (.call none "once" [⟨none, .ident "x"⟩])),
          unaryMethod "once" (.ident "x"),
          unaryMethod "spin" (.call none "spin" [⟨none, .ident "x"⟩])] }]

def callerOf (e : Expr) : ClassDecl where
  name := "Caller"
  kind := .shader .fragment
  methods :=
    [{ returnType := some ⟨"void", false, false, .none⟩
       name := "main"
       body := some [.eval e] }]

def sumsCall (name : String) : Expr :=
  .call (some (.ident "Sums")) name [⟨none, .literal (.int 1)⟩]

/-- The callee stands before its caller, a function that calls itself is refused, and a shader
without dependencies keeps its text. -/
theorem linked_sumsLinker :
    (∃ s fs, compile {} (callerOf (sumsCall "twice")) = .ok s ∧
      sumsLinker.linked {} s = .ok fs ∧ fs.map (·.key) = [⟨0, 1⟩, ⟨0, 0⟩] ∧
      sumsLinker.IsLinkOrder {} s fs) ∧
    (∃ s d, compile {} (callerOf (sumsCall "spin")) = .ok s ∧
      sumsLinker.linked {} s = .error d ∧ d.construct? = some .recursion ∧
      sumsLinker.HasCycle {} s) ∧
    ∃ s, compile {} (callerOf (.literal (.int 1))) = .ok s ∧ s.dependencies = [] ∧
      sumsLinker.link {} s = .ok s.source := by
  have htwice : (compile {} (callerOf (sumsCall "twice")) >>= sumsLinker.linked {}).map
      (fun fs => fs.map (·.key)) = .ok [⟨0, 1⟩, ⟨0, 0⟩] := by
    decide +kernel
  have hspin : ((compile {} (callerOf (sumsCall "spin"))).map
      fun s => (sumsLinker.linked {} s).map (fun fs => fs.map (·.key))) =
        .ok (.error (.unsupported .recursion (.libraryCycle "Sums" "spin"))) := by
    decide +kernel
  have hplain : (compile {} (callerOf (.literal (.int 1)))).map (·.dependencies) = .ok [] := by
    decide +kernel
  refine ⟨?_, ?_, ?_⟩
  · obtain ⟨fs, hfs, hkeys⟩ := exists_of_map_ok htwice
    obtain ⟨s, hs, hfs⟩ := exists_of_except_bind_ok hfs
    exact ⟨s, fs, hs, hfs, hkeys, (Linker.linked_complete_minimal sumsLinker {} s).1 fs hfs⟩
  · obtain ⟨s, hs, herror⟩ := exists_of_map_ok hspin
    cases hl : sumsLinker.linked {} s with
    | ok fs =>
        rw [hl] at herror
        cases herror
    | error d =>
        rw [hl] at herror
        cases herror
        exact ⟨s, _, hs, hl, rfl,
          (Linker.linked_complete_minimal sumsLinker {} s).2.2.1 _ hl rfl⟩
  · obtain ⟨s, hs, hnone⟩ := exists_of_map_ok hplain
    exact ⟨s, hs, hnone, (Linker.linked_complete_minimal sumsLinker {} s).2.2.2 hnone⟩

end ShaderCompiler
