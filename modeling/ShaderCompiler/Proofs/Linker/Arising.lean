import ShaderCompiler.Proofs.Linker.Keeping

namespace ShaderCompiler

/-- How a class becomes a shader: its bodies are recovered, emitted and ordered, and its interface
is declared. -/
structure CompilesTo (settings : Settings) (c : ClassDecl) (bodies : List MethodBody)
    (emitted : List ShaderFunction) (s : CompiledShader) : Prop where
  reflected : reflect settings (.ofClass c) c = .ok s.reflection
  recovered : functionBodies c = .ok bodies
  generated : bodies.mapM (fun m => emitFunction (.ofClass c) settings.indent m.normalize) =
    .ok emitted
  ordered : orderFunctions c.name emitted = .ok s.functions
  declared : declarations s.reflection.header s.reflection.interface settings.indent =
    .ok s.declarations
  name : s.name = c.name
  stage : s.stage = s.reflection.header.stage
  dependencies : s.dependencies = distinct (s.functions.flatMap (·.dependencies))

theorem compile_eq_ok_iff {settings : Settings} {c : ClassDecl} {s : CompiledShader} :
    compile settings c = .ok s ↔ ∃ bodies emitted, CompilesTo settings c bodies emitted s := by
  constructor
  · intro h
    obtain ⟨reflection, hreflection, h⟩ := exists_of_except_bind_ok h
    obtain ⟨bodies, hbodies, h⟩ := exists_of_except_bind_ok h
    obtain ⟨emitted, hemitted, h⟩ := exists_of_except_bind_ok h
    obtain ⟨functions, hfunctions, h⟩ := exists_of_except_bind_ok h
    obtain ⟨text, htext, h⟩ := exists_of_except_bind_ok h
    cases h
    exact ⟨bodies, emitted, hreflection, hbodies, hemitted, hfunctions, htext, rfl, rfl, rfl⟩
  · rintro ⟨bodies, emitted, h⟩
    show (reflect settings (.ofClass c) c >>= _) = _
    rw [h.reflected]
    show (functionBodies c >>= _) = _
    rw [h.recovered]
    show (bodies.mapM (fun m => emitFunction (.ofClass c) settings.indent m.normalize) >>= _) = _
    rw [h.generated]
    show (orderFunctions c.name emitted >>= _) = _
    rw [h.ordered]
    show (declarations s.reflection.header s.reflection.interface _ >>= _) = _
    rw [h.declared, ← h.name, ← h.stage, ← h.dependencies]
    rfl

namespace Linker

variable {l l' : Linker} {settings : Settings} {s : CompiledShader} {key : FunctionKey}
  {f : ShaderFunction}

inductive Arises : Linker → Prop
  | empty : Arises {}
  | addLibrary {l l' : Linker} {c : ClassDecl} :
      Arises l → l.addLibrary c = .ok l' → Arises l'
  | afterLink {l : Linker} (settings : Settings) (s : CompiledShader) :
      Arises l → Arises (l.afterLink settings s)

theorem Arises.isLibrary (h : l.Arises) : ∀ c ∈ l.libraries, c.isLibrary = true := by
  induction h with
  | empty => exact nofun
  | addLibrary _ hadd ih =>
      obtain ⟨hlib, hnew, rfl⟩ := addLibrary_eq_ok_iff.mp hadd
      intro c hc
      rcases List.mem_append.mp hc with hc | hc
      · exact ih c hc
      · rw [List.mem_singleton.mp hc]
        exact hlib.1
  | afterLink _ _ _ ih => exact ih

/-- What compiling the method under a key gives, under some settings. -/
def Compiles (l : Linker) (key : FunctionKey) (f : ShaderFunction) : Prop :=
  ∃ settings c m, l.method? key = some (c, m) ∧ compileMethod settings (.ofClass c) m = .ok f

theorem Extends.compiles (h : l.Extends l') (hf : l.Compiles key f) : l'.Compiles key f := by
  obtain ⟨settings, c, m, hm, hc⟩ := hf
  exact ⟨settings, c, m, h.method? hm, hc⟩

theorem compiles_of_function (hkept : ∀ f, l.compiled.lookup key = some f → l.Compiles key f)
    (h : l.function settings key = .ok f) : l.Compiles key f := by
  cases hkey : l.compiled.lookup key with
  | none =>
      rw [function_of_lookup_none hkey] at h
      exact ⟨settings, function_fresh_eq_ok.mp h⟩
  | some g =>
      rw [function_of_lookup hkey] at h
      cases h
      exact hkept f hkey

theorem Arises.compiles_of_lookup (h : l.Arises) :
    ∀ key f, l.compiled.lookup key = some f → l.Compiles key f := by
  induction h with
  | empty =>
      intro key f hkey
      cases hkey
  | @addLibrary l l' c _ hadd ih =>
      have hext := extends_of_addLibrary hadd
      obtain ⟨-, hnew, rfl⟩ := addLibrary_eq_ok_iff.mp hadd
      intro key f hkey
      exact hext.compiles (ih key f hkey)
  | @afterLink l settings s _ ih =>
      have hext : l.Extends (l.afterLink settings s) := Extends.refl l
      intro key f hkey
      rw [lookup_afterLink] at hkey
      split at hkey
      · cases hf : l.function settings key with
        | error e =>
            rw [hf] at hkey
            cases hkey
        | ok g =>
            rw [hf] at hkey
            cases hkey
            exact hext.compiles (compiles_of_function (ih key) hf)
      · exact hext.compiles (ih key f hkey)

theorem Arises.compiles (h : l.Arises) (hf : l.function settings key = .ok f) :
    l.Compiles key f :=
  compiles_of_function (h.compiles_of_lookup key) hf

theorem link_eq_ok {text : String} : l.link settings s = .ok text ↔
    ∃ fs constants, l.linked settings s = .ok fs ∧ l.constants fs = .ok constants ∧
      text = renderSections ([s.declarations, variableLines constants] ++
        fs.map (·.function.text) ++ s.functions.map (·.text)) := by
  constructor
  · intro h
    obtain ⟨fs, hfs, h⟩ := exists_of_except_bind_ok h
    obtain ⟨constants, hconstants, h⟩ := exists_of_except_bind_ok h
    cases h
    exact ⟨fs, constants, hfs, hconstants, rfl⟩
  · rintro ⟨fs, constants, hfs, hconstants, rfl⟩
    rw [link, hfs]
    show l.constants fs >>= _ = _
    rw [hconstants]
    rfl

theorem mem_keys_iff_needed {fs : List LinkedFunction} (h : l.linked settings s = .ok fs) :
    key ∈ fs.map (·.key) ↔ l.Needed settings s key := by
  constructor
  · intro hkey
    obtain ⟨d, p, -, he⟩ | ⟨p, fs', hwalk, hkeys, -, he⟩ := linked_cases l settings s
    · rw [he] at h
      cases h
    · obtain ⟨_, -, rfl⟩ := exists_of_map_ok (he.symm.trans h)
      rw [hkeys] at hkey
      exact (of_walk_ok hwalk).2.2 key hkey
  · exact (isLinkOrder_of_linked h).least.1.mem_of_needed

end Linker

end ShaderCompiler
