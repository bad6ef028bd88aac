import Mathlib.Data.List.Nodup
import Mathlib.Data.List.Pairwise
import ShaderCompiler.Proofs.Linker.Arising

namespace ShaderCompiler

namespace Interface

def declaredStructs (i : Interface) : List InterfaceStruct :=
  (distinctStructs i.structs).toOption.getD []

/-- The names that the declarations of an interface bring into scope. A block gives the name of its
instance. -/
def globalNames (i : Interface) : List String :=
  i.constants.map (·.name) ++ i.declaredStructs.filterMap (·.instanceName) ++
    (i.uniforms ++ i.inputs ++ i.outputs ++ i.globals).map (·.name)

def sections (i : Interface) (header : Header) (indent : String) : List String :=
  ["#version " ++ header.version ++ "\n", String.join (header.extensions.map extensionLine),
    header.stageLayout.text, variableLines i.constants] ++
  i.declaredStructs.map (·.text indent) ++
  [variableLines i.uniforms, variableLines i.inputs, variableLines i.outputs,
    variableLines i.globals]

end Interface

theorem declarations_of_compile {settings : Settings} {c : ClassDecl} {s : CompiledShader}
    (h : compile settings c = .ok s) :
    s.declarations =
      renderSections (s.reflection.interface.sections s.reflection.header settings.indent) := by
  obtain ⟨bodies, emitted, h⟩ := compile_eq_ok_iff.mp h
  obtain ⟨structs, hstructs, htext⟩ := exists_of_except_bind_ok h.declared
  rw [Interface.sections, Interface.declaredStructs, hstructs]
  exact (Except.ok.inj htext).symm

def CompiledShader.globalNames (s : CompiledShader) : List String :=
  s.reflection.interface.globalNames

def ClassDecl.constantNames (c : ClassDecl) : List String := c.fields.map (·.name)

theorem name_of_libraryConstant {c : ClassDecl} (field : FieldDecl) (v : Variable)
    (h : libraryConstant c field = .ok v) : v.name = field.name := by
  obtain ⟨type, -, h⟩ := exists_of_except_bind_ok h
  obtain ⟨init, -, h⟩ := exists_of_except_bind_ok h
  cases h
  rfl

namespace Linker

variable {l : Linker} {settings : Settings} {s : CompiledShader} {fs : List LinkedFunction}

/-- The libraries from which functions are linked, in order of first use. -/
def used (l : Linker) (fs : List LinkedFunction) : List ClassDecl :=
  (distinct (fs.map (·.key.library))).filterMap (l.libraries[·]?)

def Uses (l : Linker) (settings : Settings) (s : CompiledShader) (c : ClassDecl) : Prop :=
  ∃ key, l.Needed settings s key ∧ l.libraries[key.library]? = some c

theorem mem_used_iff (h : l.linked settings s = .ok fs) {c : ClassDecl} :
    c ∈ l.used fs ↔ l.Uses settings s c := by
  rw [used, List.mem_filterMap]
  constructor
  · rintro ⟨name, hname, hc⟩
    rw [mem_distinct] at hname
    obtain ⟨f, hf, rfl⟩ := List.mem_map.mp hname
    exact ⟨f.key, (mem_keys_iff_needed h).mp (List.mem_map_of_mem hf), hc⟩
  · rintro ⟨key, hneeded, hc⟩
    obtain ⟨f, hf, rfl⟩ := List.mem_map.mp ((mem_keys_iff_needed h).mpr hneeded)
    exact ⟨f.key.library, mem_distinct.mpr (List.mem_map_of_mem hf), hc⟩

theorem Uses.mem_libraries {c : ClassDecl} (h : l.Uses settings s c) : c ∈ l.libraries := by
  obtain ⟨key, -, hc⟩ := h
  exact List.mem_of_getElem? hc

theorem Uses.eq_of_name {c c' : ClassDecl} (h : l.Uses settings s c)
    (h' : l.Uses settings s c') (hname : c.name = c'.name) : c = c' := by
  exact List.inj_on_of_nodup_map l.names h.mem_libraries h'.mem_libraries hname

theorem nodup_used (l : Linker) (fs : List LinkedFunction) : (l.used fs).Nodup := by
  refine List.Nodup.filterMap ?_ (nodup_distinct _)
  intro i j c hi hj
  have hlt := (List.getElem?_eq_some_iff.mp hi).1
  exact (List.getElem?_inj hlt l.names.of_map).mp (hi.trans hj.symm)

theorem name_of_constants {constants : List Variable} (h : l.constants fs = .ok constants) :
    constants.map (·.name) = (l.used fs).flatMap ClassDecl.constantNames := by
  obtain ⟨lists, hlists, h⟩ := exists_of_except_bind_ok h
  cases h
  have hnames : ∀ c vs, libraryConstants c = .ok vs → vs.map (·.name) = c.constantNames :=
    fun c vs hvs => map_eq_of_mapM_ok name_of_libraryConstant hvs
  have hall := map_eq_of_mapM_ok hnames hlists
  rw [List.map_flatten, hall, List.flatMap_def]
  rfl

theorem nodup_flatMap_used (h : l.linked settings s = .ok fs)
    (hlibs : ∀ c ∈ l.libraries, c.constantNames.Nodup) :
    ((l.used fs).flatMap ClassDecl.constantNames).Nodup ↔
      ∀ c c', l.Uses settings s c → l.Uses settings s c' → c.name ≠ c'.name →
        c.constantNames.Disjoint c'.constantNames := by
  rw [List.nodup_flatMap]
  constructor
  · rintro ⟨-, hpair⟩ c c' hc hc' hne
    have : Std.Symm (Function.onFun List.Disjoint ClassDecl.constantNames) :=
      ⟨fun _ _ hdisjoint => List.disjoint_symm hdisjoint⟩
    apply hpair.forall ((mem_used_iff h).mpr hc) ((mem_used_iff h).mpr hc')
    rintro rfl
    exact hne rfl
  · intro hdisjoint
    refine ⟨?_, (nodup_used l fs).pairwise_of_forall_ne ?_⟩
    · intro c hc
      exact hlibs c ((mem_used_iff h).mp hc).mem_libraries
    · intro c hc c' hc' hne
      rw [mem_used_iff h] at hc hc'
      exact hdisjoint c c' hc hc' fun hname => hne (hc.eq_of_name hc' hname)

/-- A linked text declares the names of the shader and all constants of the libraries that it uses.
Where each of these declares its names once, no name is declared twice exactly if no used library
shares one with the shader or with another. -/
theorem nodup_linked_globals_iff {l : Linker} {settings settings' : Settings} {c : ClassDecl}
    {s : CompiledShader} {text : String} (hs : compile settings' c = .ok s)
    (hown : s.globalNames.Nodup) (hlibs : ∀ lib ∈ l.libraries, lib.constantNames.Nodup)
    (hlink : l.link settings s = .ok text) :
    ∃ fs constants, l.linked settings s = .ok fs ∧
      s.declarations =
        renderSections (s.reflection.interface.sections s.reflection.header settings'.indent) ∧
      text = renderSections ([s.declarations, variableLines constants] ++
        fs.map (·.function.text) ++ s.functions.map (·.text)) ∧
      (∀ name, name ∈ constants.map (·.name) ↔
        ∃ lib, l.Uses settings s lib ∧ name ∈ lib.constantNames) ∧
      ((s.globalNames ++ constants.map (·.name)).Nodup ↔
        (∀ lib, l.Uses settings s lib → s.globalNames.Disjoint lib.constantNames) ∧
        ∀ lib lib', l.Uses settings s lib → l.Uses settings s lib' → lib.name ≠ lib'.name →
          lib.constantNames.Disjoint lib'.constantNames) := by
  obtain ⟨fs, constants, hfs, hconstants, rfl⟩ := link_eq_ok.mp hlink
  have hnames := name_of_constants hconstants
  have hmem : ∀ name, name ∈ constants.map (·.name) ↔
      ∃ lib, l.Uses settings s lib ∧ name ∈ lib.constantNames := by
    intro name
    simp only [hnames, List.mem_flatMap, mem_used_iff hfs]
  refine ⟨fs, constants, hfs, declarations_of_compile hs, rfl, hmem, ?_⟩
  have hdisjoint : s.globalNames.Disjoint (constants.map (·.name)) ↔
      ∀ lib, l.Uses settings s lib → s.globalNames.Disjoint lib.constantNames := by
    constructor
    · intro h lib hlib name hname hconstant
      exact h hname ((hmem name).mpr ⟨lib, hlib, hconstant⟩)
    · intro h name hname hconstant
      obtain ⟨lib, hlib, hconstant⟩ := (hmem name).mp hconstant
      exact h lib hlib hname hconstant
  rw [List.nodup_append', hdisjoint, hnames, nodup_flatMap_used hfs hlibs]
  constructor
  · rintro ⟨-, hamong, hfresh⟩
    exact ⟨hfresh, hamong⟩
  · rintro ⟨hfresh, hamong⟩
    exact ⟨hown, hamong, hfresh⟩

end Linker

/-- `static class name { const float K = value; static float method() { return K; } }` -/
def constantLibrary (name method : String) (value : UInt64) : ClassDecl where
  name := name
  kind := .library
  fields :=
    [{ isConst := true
       type := ⟨"float", false, false, .none⟩
       name := "K"
       init := some (.literal (.int value)) }]
  methods :=
    [{ returnType := some ⟨"float", false, false, .none⟩
       name := method
       body := some [.ret (some (.ident "K"))] }]

def constantLinker : Linker where
  libraries := [constantLibrary "A" "f" 1, constantLibrary "B" "g" 2]

def constantsCall : Expr :=
  .binary .add (.call (some (.ident "A")) "f" []) (.call (some (.ident "B")) "g" [])

def constantsText : String :=
  "#version 430\n\nconst float K = 1.0f;\nconst float K = 2.0f;\n\n" ++
    "float f() \x7b\n    return K;\n\x7d\n\nfloat g() \x7b\n    return K;\n\x7d\n\n" ++
    "void main() \x7b\n    f() + g();\n\x7d\n"

/-- Both libraries are used, and both declare `K`. -/
theorem not_nodup_constantLinker :
    ∃ s fs constants, compile {} (callerOf constantsCall) = .ok s ∧ s.globalNames.Nodup ∧
      (∀ lib ∈ constantLinker.libraries, lib.constantNames.Nodup) ∧
      constantLinker.link {} s = .ok constantsText ∧ constantLinker.linked {} s = .ok fs ∧
      constantsText = renderSections ([s.declarations, variableLines constants] ++
        fs.map (·.function.text) ++ s.functions.map (·.text)) ∧
      ¬ (s.globalNames ++ constants.map (·.name)).Nodup := by
  have hrun : (compile {} (callerOf constantsCall) >>= fun s =>
      (constantLinker.link {} s).bind fun text =>
        (constantLinker.linked {} s).map fun fs => (s.globalNames, text, fs.map (·.key))) =
      .ok ([], constantsText, [⟨0, 0⟩, ⟨1, 0⟩]) := by
    decide +kernel
  obtain ⟨s, hs, hrun⟩ := exists_of_except_bind_ok hrun
  obtain ⟨text, htext, hrun⟩ := exists_of_except_bind_ok hrun
  obtain ⟨fs', hfs', hrun⟩ := exists_of_map_ok hrun
  simp only [Prod.mk.injEq] at hrun
  obtain ⟨hnames, rfl, hkeys⟩ := hrun
  have hown : s.globalNames.Nodup := by
    rw [hnames]
    exact List.nodup_nil
  have hlibs : ∀ lib ∈ constantLinker.libraries, lib.constantNames.Nodup := by decide
  obtain ⟨fs, constants, hfs, -, hsections, -, hiff⟩ :=
    Linker.nodup_linked_globals_iff hs hown hlibs htext
  obtain rfl := Except.ok.inj (hfs'.symm.trans hfs)
  refine ⟨s, fs', constants, hs, hown, hlibs, htext, hfs, hsections, fun hnodup => ?_⟩
  have huses : ∀ lib ∈ constantLinker.libraries, constantLinker.Uses {} s lib := by
    intro lib hlib
    rw [← Linker.mem_used_iff hfs]
    have hused : constantLinker.used fs' = constantLinker.libraries := by
      have hplaces : fs'.map (·.key.library) = [0, 1] := by
        simpa [Function.comp_def] using congrArg (List.map FunctionKey.library) hkeys
      rw [Linker.used, hplaces]
      rfl
    rwa [hused]
  have hdisjoint := (hiff.mp hnodup).2 (constantLibrary "A" "f" 1) (constantLibrary "B" "g" 2)
    (huses _ (by simp [constantLinker])) (huses _ (by simp [constantLinker])) (by decide)
  exact hdisjoint (List.mem_singleton_self "K") (List.mem_singleton_self "K")

end ShaderCompiler
