import ShaderCompiler.Proofs.Emission.TypeNames
import ShaderCompiler.Proofs.Interface.Legality
import ShaderCompiler.Proofs.Interface.StructsOnce
import ShaderCompiler.Proofs.Linker.GlobalNames

namespace ShaderCompiler

def ClassDecl.structNames (c : ClassDecl) : List String := c.structs.map (·.name)

def MethodDecl.typeNames (ctx : ClassContext) (m : MethodDecl) : List String :=
  match m.toBody with
  | .ok b => b.normalize.typeNames ctx
  | .error _ => []

theorem mem_structNames_of_isStruct {c : ClassDecl} {name : String}
    (h : (ClassContext.ofClass c).isStruct name = true) : name ∈ c.structNames := by
  obtain ⟨members, hmembers⟩ := Option.isSome_iff_exists.mp h
  have hmem := mem_of_lookup hmembers
  rw [ClassContext.ofClass, List.mem_reverse, List.mem_map] at hmem
  obtain ⟨s, hs, he⟩ := hmem
  cases he
  exact List.mem_map_of_mem hs

theorem known_of_compileMethod {settings : Settings} {c : ClassDecl} {m : MethodDecl}
    {f : ShaderFunction} (h : compileMethod settings (.ofClass c) m = .ok f) :
    ∀ name ∈ m.typeNames (.ofClass c), Vocabulary.isBuiltin name = true ∨ name ∈ c.structNames := by
  intro name hname
  obtain ⟨b, hb, h⟩ := exists_of_except_bind_ok h
  rw [MethodDecl.typeNames, hb] at hname
  have hknows := knowsAll_of_emitFunction h name hname
  rw [ClassContext.knows, Bool.or_eq_true] at hknows
  rcases hknows with hstruct | hbuiltin
  · exact Or.inr (mem_structNames_of_isStruct hstruct)
  · exact Or.inl hbuiltin

def CompiledShader.structNames (s : CompiledShader) : List String :=
  (s.reflection.interface.declaredStructs.filter (!·.isBlock)).map (·.name)

theorem mem_structs_of_declaredStructs {i : Interface} {s : InterfaceStruct}
    (h : s ∈ i.declaredStructs) : s ∈ i.structs := by
  rw [Interface.declaredStructs] at h
  cases hstructs : distinctStructs i.structs with
  | error d =>
      rw [hstructs] at h
      cases h
  | ok structs =>
      rw [hstructs] at h
      obtain ⟨-, rfl⟩ := agreeing_of_distinctStructs hstructs
      exact (firstOfName_sublist i.structs).subset h

theorem names_of_reflect {settings : Settings} {ctx : ClassContext} {c : ClassDecl}
    {reflection : Reflection} (h : reflect settings ctx c = .ok reflection) :
    reflection.interface.structs.map (·.name) = c.structs.map (·.name) := by
  obtain ⟨stage, entries, h⟩ := reflectsTo_of_reflect h
  exact map_eq_of_mapM_ok (fun _ _ hs => (legalStruct_of_structEntry hs).name)
    (mapM_eq_ok_iff.mpr h.structs)

theorem structNames_subset_of_compile {settings : Settings} {c : ClassDecl} {s : CompiledShader}
    (h : compile settings c = .ok s) : s.structNames ⊆ c.structNames := by
  intro name hname
  obtain ⟨s, hs, rfl⟩ := List.mem_map.mp hname
  have hmem := mem_structs_of_declaredStructs (List.mem_filter.mp hs).1
  obtain ⟨bodies, emitted, h⟩ := compile_eq_ok_iff.mp h
  rw [ClassDecl.structNames, ← names_of_reflect h.reflected]
  exact List.mem_map_of_mem hmem

namespace Linker

/-- A linked function of the library names the type. -/
def NamesType (l : Linker) (fs : List LinkedFunction) (lib : ClassDecl) (type : String) : Prop :=
  ∃ f ∈ fs, ∃ m, l.method? f.key = some (lib, m) ∧ type ∈ m.typeNames (.ofClass lib)

/-- All types that linked functions name are in the vocabulary or structs of their own library. A
linked text declares no structs but the shader's, so that it declares all that its functions name
exactly if the shader declares every struct of a library that is named, outside the vocabulary. -/
theorem declares_types_iff {l : Linker} {settings settings' : Settings} {c : ClassDecl}
    {s : CompiledShader} {text : String} (hl : l.Arises) (hs : compile settings' c = .ok s)
    (hlink : l.link settings s = .ok text) :
    ∃ fs constants, l.linked settings s = .ok fs ∧
      text = renderSections ([s.declarations, variableLines constants] ++
        fs.map (·.function.text) ++ s.functions.map (·.text)) ∧
      s.declarations =
        renderSections (s.reflection.interface.sections s.reflection.header settings'.indent) ∧
      s.structNames ⊆ c.structNames ∧
      (∀ lib type, l.NamesType fs lib type →
        Vocabulary.isBuiltin type = true ∨ type ∈ lib.structNames) ∧
      ((∀ lib type, l.NamesType fs lib type →
          Vocabulary.isBuiltin type = true ∨ type ∈ s.structNames) ↔
        ∀ lib type, l.NamesType fs lib type → type ∈ lib.structNames →
          Vocabulary.isBuiltin type = false → type ∈ s.structNames) := by
  obtain ⟨fs, constants, hfs, -, rfl⟩ := link_eq_ok.mp hlink
  have hknown : ∀ lib type, l.NamesType fs lib type →
      Vocabulary.isBuiltin type = true ∨ type ∈ lib.structNames := by
    rintro lib type ⟨f, hf, m, hm, htype⟩
    obtain ⟨_, lib', m', hm', hc⟩ := hl.compiles ((isLinkOrder_of_linked hfs).functions f hf)
    cases hm.symm.trans hm'
    exact known_of_compileMethod hc type htype
  refine ⟨fs, constants, hfs, rfl, declarations_of_compile hs, structNames_subset_of_compile hs,
    hknown, ?_⟩
  constructor
  · intro hdeclared lib type htype _ hbuiltin
    refine (hdeclared lib type htype).resolve_left ?_
    rw [hbuiltin]
    exact Bool.false_ne_true
  · intro hdeclared lib type htype
    cases hbuiltin : Vocabulary.isBuiltin type with
    | true => exact Or.inl rfl
    | false =>
        have hstruct := (hknown lib type htype).resolve_left (by simp [hbuiltin])
        exact Or.inr (hdeclared lib type htype hstruct hbuiltin)

end Linker

/-- `static class Pairs { struct P { float x; }`
`static float f() { P p = new P(1); return p.x; } }` -/
def pairLibrary : ClassDecl where
  name := "Pairs"
  kind := .library
  structs := [{ name := "P", fields := [{ type := ⟨"float", false, false, .none⟩, name := "x" }] }]
  methods :=
    [{ returnType := some ⟨"float", false, false, .none⟩
       name := "f"
       body := some
         [.declare false ⟨"P", false, false, .none⟩
            [⟨"p", some (.construct ⟨"P", false, false, .none⟩ [⟨none, .literal (.int 1)⟩])⟩],
          .ret (some (.member (.ident "p") "x"))] }]

def pairLinker : Linker where
  libraries := [pairLibrary]

def pairText : String :=
  "#version 430\n\nfloat f() \x7b\n    P local0 = P(1.0f);\n    return local0.x;\n\x7d\n\n" ++
    "void main() \x7b\n    f();\n\x7d\n"

/-- The struct `P` of a library is named and not declared. -/
theorem not_declared_pairLinker :
    ∃ s fs, compile {} (callerOf (.call (some (.ident "Pairs")) "f" [])) = .ok s ∧
      pairLinker.Arises ∧ pairLinker.link {} s = .ok pairText ∧
      pairLinker.linked {} s = .ok fs ∧ pairLinker.NamesType fs pairLibrary "P" ∧
      "P" ∈ pairLibrary.structNames ∧ s.structNames = [] ∧
      ¬ ∀ lib type, pairLinker.NamesType fs lib type →
        Vocabulary.isBuiltin type = true ∨ type ∈ s.structNames := by
  have hrun : (compile {} (callerOf (.call (some (.ident "Pairs")) "f" [])) >>= fun s =>
      (pairLinker.link {} s).bind fun text =>
        (pairLinker.linked {} s).map fun fs => (s.structNames, text, fs.map (·.key))) =
      .ok ([], pairText, [⟨0, 0⟩]) := by
    decide +kernel
  obtain ⟨s, hs, hrun⟩ := exists_of_except_bind_ok hrun
  obtain ⟨text, htext, hrun⟩ := exists_of_except_bind_ok hrun
  obtain ⟨fs', hfs', hrun⟩ := exists_of_map_ok hrun
  simp only [Prod.mk.injEq] at hrun
  obtain ⟨hnone, rfl, hkeys⟩ := hrun
  have harises : pairLinker.Arises := .addLibrary (c := pairLibrary) .empty rfl
  obtain ⟨fs, constants, hfs, -, -, -, -, hiff⟩ := Linker.declares_types_iff harises hs htext
  obtain rfl := Except.ok.inj (hfs'.symm.trans hfs)
  have hnamed : pairLinker.NamesType fs' pairLibrary "P" := by
    have hkey : (⟨0, 0⟩ : FunctionKey) ∈ fs'.map (·.key) := by
      rw [hkeys]
      exact List.mem_singleton_self _
    obtain ⟨f, hf, hkey⟩ := List.mem_map.mp hkey
    refine ⟨f, hf, _, by rw [hkey]; rfl, ?_⟩
    decide +kernel
  have hstruct : "P" ∈ pairLibrary.structNames := List.mem_singleton_self "P"
  refine ⟨s, fs', hs, harises, htext, hfs, hnamed, hstruct, hnone, fun hall => ?_⟩
  have hdeclared := hiff.mp hall pairLibrary "P" hnamed hstruct (by decide)
  rw [hnone] at hdeclared
  cases hdeclared

end ShaderCompiler
