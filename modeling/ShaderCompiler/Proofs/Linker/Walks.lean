import Mathlib.Order.Bounds.Basic
import ShaderCompiler.Proofs.Linker.CallGraph

namespace ShaderCompiler

open Relation

namespace Linker

variable {l : Linker} {settings : Settings} {s : CompiledShader}

/-- A set of functions that leaves nothing open: what the shader depends on is in it, and so is all
that its members call. -/
structure IsClosed (l : Linker) (settings : Settings) (s : CompiledShader)
    (keys : Set FunctionKey) : Prop where
  roots : ∀ d ∈ s.dependencies, ∃ key ∈ keys, l.resolve d = .ok key
  calls : ∀ key ∈ keys, ∃ f, l.function settings key = .ok f ∧
    (∀ name ∈ f.calls, ∀ callee, l.IsMethod key.library name callee → callee ∈ keys) ∧
      ∀ d ∈ f.dependencies, ∃ callee ∈ keys, l.resolve d = .ok callee

/-- A function that the shader depends on, directly or through others. -/
def Needed (l : Linker) (settings : Settings) (s : CompiledShader) (key : FunctionKey) : Prop :=
  ∃ d ∈ s.dependencies, ∃ root, l.resolve d = .ok root ∧
    ReflTransGen (l.Calls settings) root key

def HasCycle (l : Linker) (settings : Settings) (s : CompiledShader) : Prop :=
  ∃ key, l.Needed settings s key ∧ TransGen (l.Calls settings) key key

theorem IsClosed.mem_of_calls {keys : Set FunctionKey} (h : l.IsClosed settings s keys)
    {caller callee : FunctionKey} (hmem : caller ∈ keys)
    (hcall : l.Calls settings caller callee) : callee ∈ keys := by
  obtain ⟨f, hf, hown, hdeps⟩ := h.calls caller hmem
  obtain ⟨f', hf', hcall⟩ := hcall
  obtain rfl := Except.ok.inj (hf.symm.trans hf')
  rcases hcall with ⟨name, hname, hkey⟩ | ⟨d, hd, hr⟩
  · exact hown name hname callee hkey
  · obtain ⟨key, hkey, hr'⟩ := hdeps d hd
    obtain rfl := Except.ok.inj (hr.symm.trans hr')
    exact hkey

theorem IsClosed.mem_of_needed {keys : Set FunctionKey} (h : l.IsClosed settings s keys)
    {key : FunctionKey} (hneeded : l.Needed settings s key) : key ∈ keys := by
  obtain ⟨d, hd, root, hroot, hreach⟩ := hneeded
  obtain ⟨root', hmem, hroot'⟩ := h.roots d hd
  obtain rfl := Except.ok.inj (hroot.symm.trans hroot')
  clear hroot hroot'
  induction hreach with
  | refl => exact hmem
  | tail _ hstep ih => exact h.mem_of_calls ih hstep

theorem of_walk_ok {p : Progress FunctionKey} (h : l.walk settings s = (.ok (), p)) :
    (l.graph settings).Sorted p.order ∧
      (∀ d ∈ s.dependencies, ∃ key ∈ p.order, l.resolve d = .ok key) ∧
        ∀ key ∈ p.order, l.Needed settings s key := by
  obtain ⟨ms, hroots, hadv⟩ := NeedGraph.walk_ok h
  have hresolved : ∀ d ∈ s.dependencies, ∃ m ∈ ms, l.resolve d = .ok m := by
    intro d hd
    have hmem := List.mem_map_of_mem (f := l.resolve) hd
    rw [hroots] at hmem
    obtain ⟨m, hm, he⟩ := List.mem_map.mp hmem
    exact ⟨m, hm, he.symm⟩
  refine ⟨hadv.visiting.sorted, ?_, ?_⟩
  · intro d hd
    obtain ⟨m, hm, he⟩ := hresolved d hd
    exact ⟨m, hadv.finished m hm, he⟩
  · intro key hkey
    rcases hadv.reached key hkey with hnil | ⟨m, hm, hreach⟩
    · cases hnil
    · have hmem : Except.ok m ∈ ms.map (Except.ok : FunctionKey → Except Diagnostic FunctionKey) :=
        List.mem_map_of_mem hm
      rw [← hroots] at hmem
      obtain ⟨d, hd, he⟩ := List.mem_map.mp hmem
      rw [needs_eq_calls] at hreach
      exact ⟨d, hd, m, he, hreach⟩

theorem function_of_sorted {order before after : List FunctionKey} {key : FunctionKey}
    (h : (l.graph settings).Sorted order) (he : order = before ++ key :: after) :
    ∃ f, l.function settings key = .ok f ∧
      (∀ callee, l.Calls settings key callee → callee ∈ before) ∧
        ∀ d ∈ f.dependencies, ∃ callee ∈ before, l.resolve d = .ok callee := by
  obtain ⟨ns, hns, hbefore⟩ := h.split he
  obtain ⟨f, hf, rfl⟩ := needs_eq_ok hns
  refine ⟨f, hf, ?_, ?_⟩
  · intro callee hcall
    obtain ⟨ns', hns', hmem⟩ := needs_iff_calls.mpr hcall
    obtain rfl := Except.ok.inj (hns.symm.trans hns')
    obtain ⟨m, hm, he⟩ := hbefore _ hmem
    obtain rfl := Except.ok.inj he
    exact hm
  · intro d hd
    obtain ⟨m, hm, he⟩ := hbefore _ (List.mem_append_right _ (List.mem_map_of_mem hd))
    exact ⟨m, hm, he⟩

theorem exists_function_of_sorted {order : List FunctionKey}
    (h : (l.graph settings).Sorted order) :
    ∀ key ∈ order, ∃ f, l.function settings key = .ok f := by
  intro key hkey
  obtain ⟨before, after, he⟩ := List.append_of_mem hkey
  obtain ⟨f, hf, -⟩ := function_of_sorted h he
  exact ⟨f, hf⟩

theorem isLeast_of_walk {p : Progress FunctionKey} (h : l.walk settings s = (.ok (), p)) :
    IsLeast {keys | l.IsClosed settings s keys} {key | key ∈ p.order} := by
  obtain ⟨hsorted, hroots, hneeded⟩ := of_walk_ok h
  constructor
  · refine ⟨hroots, ?_⟩
    intro key hkey
    obtain ⟨before, after, he⟩ := List.append_of_mem hkey
    obtain ⟨f, hf, hcallees, hdeps⟩ := function_of_sorted hsorted he
    have hsub : before ⊆ p.order := he ▸ List.subset_append_left _ _
    refine ⟨f, hf, ?_, ?_⟩
    · intro name hname callee hmethod
      exact hsub (hcallees callee ⟨f, hf, Or.inl ⟨name, hname, hmethod⟩⟩)
    · intro d hd
      obtain ⟨callee, hcallee, hr⟩ := hdeps d hd
      exact ⟨callee, hsub hcallee, hr⟩
  · intro keys hclosed key hkey
    exact hclosed.mem_of_needed (hneeded key hkey)

/-- A failed walk met something that does not resolve or compile, or a cycle. -/
theorem of_walk_error {d : Diagnostic} {p : Progress FunctionKey}
    (h : l.walk settings s = (.error d, p)) :
    (∃ dep ∈ s.dependencies, l.resolve dep = .error d) ∨
      ∃ key, l.Needed settings s key ∧
        (l.function settings key = .error d ∨
          (∃ f, l.function settings key = .ok f ∧
            ∃ dep ∈ f.dependencies, l.resolve dep = .error d) ∨
          TransGen (l.Calls settings) key key ∧ d = (l.graph settings).cycle key) := by
  have hclosed : ∀ x ∈ l.keys, ∀ n, (l.graph settings).Needs x n → n ∈ l.keys :=
    fun x _ n hn => by
      obtain ⟨c, m, hm⟩ := exists_method?_of_calls (needs_iff_calls.mp hn)
      exact mem_keys_of_method? hm
  have hroots : ∀ k, .ok k ∈ s.dependencies.map l.resolve → k ∈ l.keys := by
    intro k hk
    obtain ⟨dep, -, he⟩ := List.mem_map.mp hk
    obtain ⟨c, m, hm⟩ := exists_method?_of_resolve he
    exact mem_keys_of_method? hm
  have hfuel : l.keys.length ≤ l.functionCount + 1 := by
    rw [length_keys]
    exact Nat.le_succ _
  rcases NeedGraph.walk_error hclosed hroots hfuel h with hroot | ⟨root, hroot, x, hreach, hx⟩
  · obtain ⟨dep, hdep, he⟩ := List.mem_map.mp hroot
    exact Or.inl ⟨dep, hdep, he⟩
  · obtain ⟨dep, hdep, he⟩ := List.mem_map.mp hroot
    rw [needs_eq_calls] at hreach hx
    refine Or.inr ⟨x, ⟨dep, hdep, root, he, hreach⟩, ?_⟩
    rcases hx with (hneeds | ⟨ns, hneeds, hbad⟩) | hcycle
    · left
      cases hf : l.function settings x with
      | error d' =>
          have hneeds' : (l.graph settings).needs x = .error d' := by
            show l.function settings x >>= _ = _
            rw [hf]
            rfl
          rw [hneeds'] at hneeds
          cases hneeds
          rfl
      | ok f =>
          rw [needs_of_function hf] at hneeds
          cases hneeds
    · obtain ⟨f, hf, rfl⟩ := needs_eq_ok hneeds
      rcases List.mem_append.mp hbad with hown | hdep
      · obtain ⟨key, -, he⟩ := List.mem_map.mp hown
        cases he
      · obtain ⟨dep', hdep', he'⟩ := List.mem_map.mp hdep
        exact Or.inr (Or.inl ⟨f, hf, dep', hdep', he'⟩)
    · exact Or.inr (Or.inr hcycle)

end Linker

end ShaderCompiler
