import ShaderCompiler.Proofs.Linker.Growth
import ShaderCompiler.Proofs.Linker.Linking

namespace ShaderCompiler

namespace Linker

variable {l l' : Linker} {settings : Settings} {s : CompiledShader} {key : FunctionKey}
  {f : ShaderFunction}

theorem function_fresh_eq_ok : l.fresh.function settings key = .ok f ↔
    ∃ c m, l.method? key = some (c, m) ∧ compileMethod settings (.ofClass c) m = .ok f := by
  have hmethod : l.fresh.method? key = l.method? key := rfl
  have hlookup : l.fresh.compiled.lookup key = none := rfl
  unfold function
  rw [hlookup, hmethod]
  cases l.method? key with
  | none =>
      constructor
      · intro h
        cases h
      · rintro ⟨c, m, he, -⟩
        cases he
  | some cm =>
      obtain ⟨c, m⟩ := cm
      constructor
      · intro h
        exact ⟨c, m, rfl, h⟩
      · rintro ⟨c', m', he, h⟩
        cases he
        exact h

theorem function_of_lookup (h : l.compiled.lookup key = some f) :
    l.function settings key = .ok f := by
  unfold function
  rw [h]

theorem function_of_lookup_none (h : l.compiled.lookup key = none) :
    l.function settings key = l.fresh.function settings key := by
  unfold function
  rw [h]
  rfl

/-- Every kept function is what compiling its method gives. -/
def Kept (l : Linker) (settings : Settings) : Prop :=
  ∀ key f, l.compiled.lookup key = some f → l.fresh.function settings key = .ok f

theorem Kept.function (h : l.Kept settings) : l.fresh.function settings = l.function settings := by
  funext key
  cases hkey : l.compiled.lookup key with
  | none => rw [function_of_lookup_none hkey]
  | some f => rw [function_of_lookup hkey, h key f hkey]

theorem Kept.graph (h : l.Kept settings) : l.fresh.graph settings = l.graph settings := by
  unfold Linker.graph
  rw [h.function]
  rfl

theorem Kept.walk (h : l.Kept settings) : l.fresh.walk settings s = l.walk settings s := by
  unfold Linker.walk
  rw [h.graph]
  rfl

theorem Kept.linked (h : l.Kept settings) : l.fresh.linked settings s = l.linked settings s := by
  unfold Linker.linked
  rw [h.walk, h.function]
  rfl

theorem Kept.linkFunctions (h : l.Kept settings) :
    l.fresh.linkFunctions settings s = l.linkFunctions settings s := by
  unfold Linker.linkFunctions
  rw [h.linked]

theorem Kept.link (h : l.Kept settings) : l.fresh.link settings s = l.link settings s := by
  unfold Linker.link
  rw [h.linked]
  rfl

theorem Extends.function_fresh (h : l.Extends l')
    (hf : l.fresh.function settings key = .ok f) : l'.fresh.function settings key = .ok f := by
  obtain ⟨c, m, hm, hc⟩ := function_fresh_eq_ok.mp hf
  exact function_fresh_eq_ok.mpr ⟨c, m, h.method? hm, hc⟩

theorem Kept.addLibrary (h : l.Kept settings) {c : ClassDecl} (hadd : l.addLibrary c = .ok l') :
    l'.Kept settings := by
  have hext := extends_of_addLibrary hadd
  obtain ⟨-, hnew, rfl⟩ := addLibrary_eq_ok_iff.mp hadd
  intro key f hkey
  exact hext.function_fresh (h key f hkey)

/-- The functions that linking compiles, or fails to compile: those that it comes to and that are
not kept. -/
def attempted (l : Linker) (settings : Settings) (s : CompiledShader) : List FunctionKey :=
  (l.walk settings s).2.entered.filter fun key => (l.compiled.lookup key).isNone

theorem mem_attempted : key ∈ l.attempted settings s ↔
    key ∈ (l.walk settings s).2.entered ∧ l.compiled.lookup key = none := by
  rw [attempted, List.mem_filter, Option.isNone_iff_eq_none]

theorem nodup_attempted (l : Linker) (settings : Settings) (s : CompiledShader) :
    (l.attempted settings s).Nodup :=
  (NeedGraph.nodup_entered_of_walk _ _).filter _

theorem lookup_afterLink (l : Linker) (settings : Settings) (s : CompiledShader)
    (key : FunctionKey) :
    (l.afterLink settings s).compiled.lookup key =
      if key ∈ l.attempted settings s then (l.function settings key).toOption
      else l.compiled.lookup key := by
  have hmem : key ∈ ((l.walk settings s).2.entered.reverse.filter fun key =>
      (l.compiled.lookup key).isNone) ↔ key ∈ l.attempted settings s := by
    rw [List.filter_reverse, List.mem_reverse, attempted]
  unfold afterLink
  dsimp only
  rw [List.lookup_append, lookup_filterMap]
  simp only [hmem]
  split
  · next hkey => rw [(mem_attempted.mp hkey).2, Option.none_or]
  · rw [Option.or_none]

theorem Kept.afterLink (h : l.Kept settings) (s : CompiledShader) :
    (l.afterLink settings s).Kept settings := by
  have hfresh : (l.afterLink settings s).fresh = l.fresh := rfl
  intro key f hkey
  rw [lookup_afterLink] at hkey
  rw [hfresh]
  split at hkey
  · rw [h.function]
    cases hf : l.function settings key with
    | error e =>
        rw [hf] at hkey
        cases hkey
    | ok g =>
        rw [hf] at hkey
        cases hkey
        rfl
  · exact h key f hkey

theorem lookup_afterLink_of_some (h : l.compiled.lookup key = some f) :
    (l.afterLink settings s).compiled.lookup key = some f := by
  rw [lookup_afterLink, if_neg]
  · exact h
  · intro hkey
    rw [(mem_attempted.mp hkey).2] at h
    cases h

theorem exists_method?_of_entered :
    ∀ key ∈ (l.walk settings s).2.entered, ∃ c m, l.method? key = some (c, m) := by
  refine NeedGraph.entered_of_walk ?_ ?_
  · intro caller callee _ hneeds
    exact exists_method?_of_calls (needs_iff_calls.mp hneeds)
  · intro root hroot
    obtain ⟨d, -, hd⟩ := List.mem_map.mp hroot
    exact exists_method?_of_resolve hd

/-- A set of functions that left nothing open is not left after more libraries are there. -/
theorem IsClosed.entered {keys : Set FunctionKey} (h : l.IsClosed settings s keys)
    (hext : l.Extends l') (hl : l.Kept settings) (hl' : l'.Kept settings) :
    ∀ key ∈ (l'.walk settings s).2.entered, key ∈ keys := by
  refine NeedGraph.entered_of_walk ?_ ?_
  · intro caller callee hcaller hneeds
    obtain ⟨f, hf, hown, hdeps⟩ := h.calls caller hcaller
    obtain ⟨c, m, hm, -⟩ := function_fresh_eq_ok.mp (hl.function ▸ hf)
    have hf' : l'.function settings caller = .ok f := by
      rw [← hl'.function]
      rw [← hl.function] at hf
      exact hext.function_fresh hf
    obtain ⟨g, hg, hcall⟩ := needs_iff_calls.mp hneeds
    obtain rfl := Except.ok.inj (hf'.symm.trans hg)
    rcases hcall with ⟨name, hname, hlib, hmethod⟩ | ⟨d, hd, hr'⟩
    · rw [hext.method?_of_lt (hlib ▸ lt_length_of_method? hm)] at hmethod
      exact hown name hname callee ⟨hlib, hmethod⟩
    · obtain ⟨n, hn, hr⟩ := hdeps d hd
      rw [hext.resolve hr hr']
      exact hn
  · intro root hroot
    obtain ⟨d, hd, hr'⟩ := List.mem_map.mp hroot
    obtain ⟨n, hn, hr⟩ := h.roots d hd
    rw [hext.resolve hr hr']
    exact hn

/-- After a walk to its end all that the shader needs is kept. -/
theorem exists_lookup_afterLink {p : Progress FunctionKey}
    (hwalk : l.walk settings s = (.ok (), p)) (hkey : key ∈ p.order) :
    ∃ f, (l.afterLink settings s).compiled.lookup key = some f := by
  obtain ⟨ms, -, hadv⟩ := NeedGraph.walk_ok hwalk
  obtain ⟨f, hf⟩ := exists_function_of_sorted hadv.visiting.sorted key hkey
  have hentered : key ∈ (l.walk settings s).2.entered := by
    rw [hwalk]
    exact (hadv.visiting.entered key).mpr (Or.inr hkey)
  cases hlookup : l.compiled.lookup key with
  | some g => exact ⟨g, lookup_afterLink_of_some hlookup⟩
  | none =>
      refine ⟨f, ?_⟩
      rw [lookup_afterLink, if_pos (mem_attempted.mpr ⟨hentered, hlookup⟩), hf]
      rfl

end Linker

end ShaderCompiler
