import ShaderCompiler.Proofs.Emission.Discarding
import ShaderCompiler.Proofs.Linker.Arising
import ShaderCompiler.Proofs.Normal.Hygiene

namespace ShaderCompiler

theorem discards_toBody {m : MethodDecl} {b : MethodBody} (h : m.toBody = .ok b) :
    b.discards = m.discards := by
  unfold MethodDecl.toBody at h
  split at h
  · cases h
  · cases h
  · next body _ hbody _ =>
      cases h
      rw [MethodDecl.discards, hbody]
      rfl

theorem not_isTrivial_of_discards {b : MethodBody} (h : b.discards = true) :
    b.isTrivial = false := by
  rw [MethodBody.discards, discardsIn_eq_any, List.any_eq_true] at h
  obtain ⟨s, hs, hd⟩ := h
  rw [MethodBody.isTrivial, List.all_eq_false]
  refine ⟨s, hs, ?_⟩
  cases s with
  | empty => cases hd
  | _ => exact Bool.false_ne_true

theorem discards_precededBy (b : MethodBody) (stmts : List Stmt) :
    (b.precededBy stmts).discards = (discardsIn stmts || b.discards) :=
  discardsIn_append stmts b.body

/-- A statement of a constructor stands in the entry point, and any other in its own function. -/
theorem exists_discards_of_functionBodies {c : ClassDecl} {bodies : List MethodBody}
    (h : functionBodies c = .ok bodies) {m : MethodDecl} (hm : m ∈ c.methods)
    (hd : m.discards = true) : ∃ b ∈ bodies, b.discards = true := by
  obtain ⟨methods, hmethods, h⟩ := exists_of_except_bind_ok h
  obtain ⟨stmts, hstmts, h⟩ := exists_of_except_bind_ok h
  obtain ⟨b, hb, hbody⟩ := exists_of_mem_of_mapM_ok hmethods hm
  rw [← discards_toBody hbody] at hd
  cases hctor : b.isConstructor with
  | true =>
      obtain ⟨main, -, hmain⟩ := withPrologue_eq_ok h
      refine ⟨_, hmain, ?_⟩
      rw [discards_precededBy, Bool.or_eq_true]
      left
      rw [prologue] at hstmts
      split at hstmts
      · cases hstmts
      · cases hstmts
        rw [discardsIn_eq_any, List.any_flatMap, List.any_eq_true]
        refine ⟨b, ?_, discardsIn_eq_any b.body ▸ hd⟩
        simp [hb, hctor, not_isTrivial_of_discards hd]
  | false =>
      have hmem : b ∈ methods.filter (!·.isConstructor) := by simp [hb, hctor]
      rw [withPrologue] at h
      split at h
      · cases h
      · cases h
        refine ⟨_, List.mem_map_of_mem hmem, ?_⟩
        split
        · rw [discards_precededBy, hd, Bool.or_true]
        · exact hd
      · cases h

theorem not_discards_of_compile {settings : Settings} {c : ClassDecl} {s : CompiledShader}
    (h : compile settings c = .ok s) (hadmits : (ClassContext.ofClass c).admitsDiscard = false) :
    ∀ m ∈ c.methods, m.discards = false := by
  intro m hm
  by_contra hd
  rw [Bool.not_eq_false] at hd
  obtain ⟨bodies, emitted, h⟩ := compile_eq_ok_iff.mp h
  obtain ⟨b, hb, hdb⟩ := exists_discards_of_functionBodies h.recovered hm hd
  obtain ⟨f, -, hf⟩ := exists_of_mem_of_mapM_ok h.generated hb
  rw [← b.discards_normalize] at hdb
  obtain ⟨lines, -, hat⟩ := discardsAt_of_emitFunction hf hdb
  have hstage := hat.1
  rw [hadmits] at hstage
  cases hstage

theorem discardsAt_of_compileMethod {settings : Settings} {ctx : ClassContext} {m : MethodDecl}
    {f : ShaderFunction} (h : compileMethod settings ctx m = .ok f) (hd : m.discards = true) :
    ∃ lines, f.text = renderLines settings.indent lines ∧ DiscardsAt ctx lines := by
  obtain ⟨b, hb, h⟩ := exists_of_except_bind_ok h
  rw [← discards_toBody hb, ← b.discards_normalize] at hd
  exact discardsAt_of_emitFunction h hd

namespace Linker

variable {l : Linker} {settings : Settings} {s : CompiledShader} {fs : List LinkedFunction}

theorem exists_linked_of_link
    (h : (∃ text, l.link settings s = .ok text) ∨ ∃ fs, l.linkFunctions settings s = .ok fs) :
    ∃ fs, l.linked settings s = .ok fs := by
  rcases h with ⟨text, h⟩ | ⟨fs, h⟩
  · obtain ⟨fs, constants, hfs, -⟩ := link_eq_ok.mp h
    exact ⟨fs, hfs⟩
  · obtain ⟨fs, hfs, -⟩ := exists_of_map_ok h
    exact ⟨fs, hfs⟩

def methodsOf (l : Linker) (fs : List LinkedFunction) : List MethodDecl :=
  fs.filterMap fun f => (l.method? f.key).map (·.2)

theorem mem_methodsOf_iff (h : l.linked settings s = .ok fs) {m : MethodDecl} :
    m ∈ l.methodsOf fs ↔
      ∃ key c, l.Needed settings s key ∧ l.method? key = some (c, m) := by
  rw [methodsOf, List.mem_filterMap]
  constructor
  · rintro ⟨f, hf, hm⟩
    obtain ⟨⟨c, m⟩, hmethod, rfl⟩ := Option.map_eq_some_iff.mp hm
    exact ⟨f.key, c, (mem_keys_iff_needed h).mp (List.mem_map_of_mem hf), hmethod⟩
  · rintro ⟨key, c, hneeded, hm⟩
    obtain ⟨f, hf, rfl⟩ := List.mem_map.mp ((mem_keys_iff_needed h).mpr hneeded)
    exact ⟨f, hf, by rw [hm]; rfl⟩

theorem Arises.admitsDiscard (h : l.Arises) {c : ClassDecl} (hc : c ∈ l.libraries) :
    (ClassContext.ofClass c).admitsDiscard = true := by
  have hkind : c.kind = .library := by simpa [ClassDecl.isLibrary] using h.isLibrary c hc
  rw [ClassContext.admitsDiscard, ClassContext.ofClass, ClassDecl.stage?, hkind]
  rfl

/-- The own methods of a class that does not draw fragments never discard. A linked program of such
a class discards exactly if a library function that it needs does, which its library admits; the
function then has a line that says so. -/
theorem discards_linked_iff {l : Linker} {settings settings' : Settings} {c : ClassDecl}
    {stage : Stage} {s : CompiledShader} (hl : l.Arises) (hstage : c.stage? = some stage)
    (hne : stage ≠ .fragment) (hs : compile settings' c = .ok s)
    (hlink : (∃ text, l.link settings s = .ok text) ∨
      ∃ fs, l.linkFunctions settings s = .ok fs) :
    ∃ fs, l.linked settings s = .ok fs ∧
      (∀ m ∈ c.methods, m.discards = false) ∧
      ((∃ m ∈ c.methods ++ l.methodsOf fs, m.discards = true) ↔
        ∃ key lib m, l.Needed settings s key ∧ l.method? key = some (lib, m) ∧
          m.discards = true) ∧
      ∀ f ∈ fs, ∃ lib m, l.method? f.key = some (lib, m) ∧
        (ClassContext.ofClass lib).admitsDiscard = true ∧
          (m.discards = true → ∃ indent lines, f.function.text = renderLines indent lines ∧
            "discard;" ∈ lines.map (·.text)) := by
  obtain ⟨fs, hfs⟩ := exists_linked_of_link hlink
  have hadmits : (ClassContext.ofClass c).admitsDiscard = false := by
    simp [ClassContext.admitsDiscard, ClassContext.ofClass, hstage, hne]
  have hown := not_discards_of_compile hs hadmits
  refine ⟨fs, hfs, hown, ?_, ?_⟩
  · constructor
    · rintro ⟨m, hm, hd⟩
      rcases List.mem_append.mp hm with hm | hm
      · rw [hown m hm] at hd
        cases hd
      · obtain ⟨key, lib, hneeded, hm⟩ := (mem_methodsOf_iff hfs).mp hm
        exact ⟨key, lib, m, hneeded, hm, hd⟩
    · rintro ⟨key, lib, m, hneeded, hm, hd⟩
      have hmem := (mem_methodsOf_iff hfs).mpr ⟨key, lib, hneeded, hm⟩
      exact ⟨m, List.mem_append_right _ hmem, hd⟩
  · intro f hf
    have hfunction := (isLinkOrder_of_linked hfs).functions f hf
    obtain ⟨settings', lib, m, hm, hc⟩ := hl.compiles hfunction
    have hlib : lib ∈ l.libraries := List.mem_of_getElem? (method?_eq_some.mp hm).1
    refine ⟨lib, m, hm, hl.admitsDiscard hlib, fun hd => ?_⟩
    obtain ⟨lines, htext, hat⟩ := discardsAt_of_compileMethod hc hd
    exact ⟨_, lines, htext, hat.2⟩

end Linker

/-- `static void drop() { discard; }` -/
def droppingMethod : MethodDecl where
  returnType := some ⟨"void", false, false, .none⟩
  name := "drop"
  body := some [.discard]

def droppingLibrary : ClassDecl where
  name := "Drops"
  kind := .library
  methods := [droppingMethod]

def droppingLinker : Linker where
  libraries := [droppingLibrary]

/-- `class Caller : VertexShader { void main() { Drops.drop(); } }` -/
def vertexCaller : ClassDecl where
  name := "Caller"
  kind := .shader .vertex
  methods :=
    [{ returnType := some ⟨"void", false, false, .none⟩
       name := "main"
       body := some [.eval (.call (some (.ident "Drops")) "drop" [])] }]

def droppingText : String :=
  "#version 430\n\nvoid drop() \x7b\n    discard;\n\x7d\n\nvoid main() \x7b\n    drop();\n\x7d\n"

/-- A vertex shader that discards through a library. -/
theorem discards_droppingLinker :
    ∃ s fs, compile {} vertexCaller = .ok s ∧ s.stage = .vertex ∧
      droppingLinker.link {} s = .ok droppingText ∧ droppingLinker.linked {} s = .ok fs ∧
      (∀ m ∈ vertexCaller.methods, m.discards = false) ∧
      (∃ m ∈ vertexCaller.methods ++ droppingLinker.methodsOf fs, m.discards = true) ∧
      droppingLinker.Needed {} s ⟨0, 0⟩ := by
  have hrun : (compile {} vertexCaller >>= fun s =>
      (droppingLinker.link {} s).bind fun text =>
        (droppingLinker.linked {} s).map fun fs => (s.stage, text, fs.map (·.key))) =
      .ok (.vertex, droppingText, [⟨0, 0⟩]) := by
    decide +kernel
  obtain ⟨s, hs, hrun⟩ := exists_of_except_bind_ok hrun
  obtain ⟨text, htext, hrun⟩ := exists_of_except_bind_ok hrun
  obtain ⟨fs, hfs, hrun⟩ := exists_of_map_ok hrun
  simp only [Prod.mk.injEq] at hrun
  obtain ⟨hstage, rfl, hkeys⟩ := hrun
  have harises : droppingLinker.Arises := .addLibrary (c := droppingLibrary) .empty rfl
  have hvertex : vertexCaller.stage? = some .vertex := rfl
  obtain ⟨fs', hfs', hown, hiff, -⟩ :=
    Linker.discards_linked_iff harises hvertex (by decide) hs (Or.inl ⟨_, htext⟩)
  obtain rfl := Except.ok.inj (hfs.symm.trans hfs')
  have hneeded : droppingLinker.Needed {} s ⟨0, 0⟩ := by
    rw [← Linker.mem_keys_iff_needed hfs, hkeys]
    exact List.mem_singleton_self _
  have hdiscards := hiff.mpr ⟨_, _, droppingMethod, hneeded, rfl, rfl⟩
  exact ⟨s, fs, hs, hstage, htext, hfs, hown, hdiscards, hneeded⟩

end ShaderCompiler
