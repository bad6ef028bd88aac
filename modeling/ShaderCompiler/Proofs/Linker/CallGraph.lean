import ShaderCompiler.Linker.Link
import ShaderCompiler.Proofs.Order.Cycles
import ShaderCompiler.Proofs.Sequencing

namespace ShaderCompiler

theorem ClassDecl.mem_functionsNamed {c : ClassDecl} {name : String} {i : Nat} :
    i ∈ c.functionsNamed name ↔
      ∃ m, c.methods[i]? = some m ∧ m.isConstructor = false ∧ m.name = name := by
  rw [functionsNamed, List.mem_filter, List.mem_range, Option.any_eq_true]
  constructor
  · rintro ⟨-, m, hm, hnamed⟩
    exact ⟨m, hm, by simpa using hnamed⟩
  · rintro ⟨m, hm, hctor, hname⟩
    exact ⟨(List.getElem?_eq_some_iff.mp hm).1, m, hm, by simp [hctor, hname]⟩

namespace Linker

variable {l : Linker} {settings : Settings} {s : CompiledShader}

theorem method?_eq_some {key : FunctionKey} {c : ClassDecl} {m : MethodDecl} :
    l.method? key = some (c, m) ↔
      l.libraries[key.library]? = some c ∧ c.methods[key.index]? = some m := by
  simp [method?, Option.bind_eq_some_iff]

def IsMethod (l : Linker) (library : Nat) (name : String) (key : FunctionKey) : Prop :=
  key.library = library ∧
    ∃ c m, l.method? key = some (c, m) ∧ m.isConstructor = false ∧ m.name = name

theorem mem_functionsNamed {library : Nat} {name : String} {key : FunctionKey} :
    key ∈ l.functionsNamed library name ↔ l.IsMethod library name key := by
  obtain ⟨i, j⟩ := key
  simp only [functionsNamed, List.mem_flatMap, Option.mem_toList, List.mem_map,
    ClassDecl.mem_functionsNamed, IsMethod, method?_eq_some]
  constructor
  · rintro ⟨c, hc, _, ⟨m, hm, hnamed⟩, he⟩
    cases he
    exact ⟨rfl, c, m, ⟨hc, hm⟩, hnamed⟩
  · rintro ⟨rfl, c, m, ⟨hc, hm⟩, hnamed⟩
    exact ⟨c, hc, j, ⟨m, hm, hnamed⟩, rfl⟩

def Calls (l : Linker) (settings : Settings) (caller callee : FunctionKey) : Prop :=
  ∃ f, l.function settings caller = .ok f ∧
    ((∃ name ∈ f.calls, l.IsMethod caller.library name callee) ∨
      ∃ d ∈ f.dependencies, l.resolve d = .ok callee)

theorem needs_eq_ok {key : FunctionKey} {ns : List (Except Diagnostic FunctionKey)}
    (h : (l.graph settings).needs key = .ok ns) :
    ∃ f, l.function settings key = .ok f ∧
      ns = (f.calls.flatMap (l.functionsNamed key.library)).map .ok ++
        f.dependencies.map l.resolve := by
  obtain ⟨f, hf, h⟩ := exists_of_except_bind_ok h
  cases h
  exact ⟨f, hf, rfl⟩

theorem needs_of_function {key : FunctionKey} {f : ShaderFunction}
    (h : l.function settings key = .ok f) :
    (l.graph settings).needs key = .ok ((f.calls.flatMap (l.functionsNamed key.library)).map .ok ++
      f.dependencies.map l.resolve) := by
  show l.function settings key >>= _ = _
  rw [h]
  rfl

theorem needs_iff_calls {caller callee : FunctionKey} :
    (l.graph settings).Needs caller callee ↔ l.Calls settings caller callee := by
  constructor
  · rintro ⟨ns, hns, hmem⟩
    obtain ⟨f, hf, rfl⟩ := needs_eq_ok hns
    refine ⟨f, hf, ?_⟩
    rcases List.mem_append.mp hmem with hown | hdep
    · obtain ⟨key, hkey, he⟩ := List.mem_map.mp hown
      cases he
      obtain ⟨name, hname, hkey⟩ := List.mem_flatMap.mp hkey
      exact Or.inl ⟨name, hname, mem_functionsNamed.mp hkey⟩
    · obtain ⟨d, hd, he⟩ := List.mem_map.mp hdep
      exact Or.inr ⟨d, hd, he⟩
  · rintro ⟨f, hf, hcall⟩
    refine ⟨_, needs_of_function hf, List.mem_append.mpr ?_⟩
    rcases hcall with ⟨name, hname, hkey⟩ | ⟨d, hd, he⟩
    · exact Or.inl (List.mem_map_of_mem
        (List.mem_flatMap.mpr ⟨name, hname, mem_functionsNamed.mpr hkey⟩))
    · exact Or.inr (List.mem_map.mpr ⟨d, hd, he⟩)

theorem needs_eq_calls : (l.graph settings).Needs = l.Calls settings := by
  funext caller callee
  exact propext needs_iff_calls

def keys (l : Linker) : List FunctionKey :=
  l.libraries.zipIdx.flatMap fun (c, i) => (List.range c.methods.length).map (⟨i, ·⟩)

theorem length_keys (l : Linker) : l.keys.length = l.functionCount := by
  have hcount : (l.libraries.zipIdx.map fun p => p.1.methods.length).sum =
      (l.libraries.map (·.methods.length)).sum := by
    rw [← Function.comp_def (fun c : ClassDecl => c.methods.length) Prod.fst, ← List.map_map,
      List.zipIdx_map_fst]
  simpa [keys, functionCount, List.length_flatMap] using hcount

theorem mem_keys_of_method? {key : FunctionKey} {c : ClassDecl} {m : MethodDecl}
    (h : l.method? key = some (c, m)) : key ∈ l.keys := by
  obtain ⟨hc, hm⟩ := method?_eq_some.mp h
  refine List.mem_flatMap.mpr ⟨(c, key.library), List.mk_mem_zipIdx_iff_getElem?.mpr hc, ?_⟩
  exact List.mem_map.mpr ⟨key.index, List.mem_range.mpr (List.getElem?_eq_some_iff.mp hm).1, rfl⟩

theorem exists_method?_of_resolve {d : Dependency} {key : FunctionKey}
    (h : l.resolve d = .ok key) : ∃ c m, l.method? key = some (c, m) := by
  rw [resolve] at h
  split at h
  · next found hfound =>
      cases h
      have hmem := List.mem_singleton_self key
      rw [← hfound, List.mem_filter, hasArity, Option.any_eq_true] at hmem
      obtain ⟨-, ⟨c, m⟩, hm, -⟩ := hmem
      exact ⟨c, m, hm⟩
  · cases h
  · cases h

theorem exists_method?_of_calls {caller callee : FunctionKey}
    (h : l.Calls settings caller callee) : ∃ c m, l.method? callee = some (c, m) := by
  obtain ⟨f, -, ⟨name, -, -, c, m, hkey, -⟩ | ⟨d, -, hd⟩⟩ := h
  · exact ⟨c, m, hkey⟩
  · exact exists_method?_of_resolve hd

end Linker

end ShaderCompiler
