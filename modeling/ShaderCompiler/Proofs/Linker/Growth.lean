import ShaderCompiler.Proofs.Linker.CallGraph

namespace ShaderCompiler

/-- What registering asks of a class, apart from a new name. -/
def ClassDecl.IsRegistrable (c : ClassDecl) : Prop :=
  c.isLibrary = true ∧ ∀ field ∈ c.fields, field.isConst = true

namespace Linker

variable {l l' : Linker}

theorem addLibrary_eq_ok_iff {c : ClassDecl} : l.addLibrary c = .ok l' ↔
    c.IsRegistrable ∧ ∃ hnew : c.name ∉ l.libraryNames, l' = l.register c hnew := by
  have hfind : c.fields.find? (!·.isConst) = none ↔
      ∀ field ∈ c.fields, field.isConst = true := by
    simp
  unfold addLibrary ClassDecl.IsRegistrable
  by_cases hlib : c.isLibrary = true
  · rw [if_neg (by simpa using hlib)]
    cases hfield : c.fields.find? (!·.isConst) with
    | some field =>
        refine iff_of_false nofun ?_
        rintro ⟨⟨-, hconst⟩, -⟩
        rw [hfind.mpr hconst] at hfield
        cases hfield
    | none =>
        dsimp only
        by_cases hname : c.name ∈ l.libraryNames
        · rw [dif_pos hname]
          exact iff_of_false nofun fun h => h.2.1 hname
        · rw [dif_neg hname]
          constructor
          · intro h
            cases h
            exact ⟨⟨hlib, hfind.mp hfield⟩, hname, rfl⟩
          · rintro ⟨-, -, rfl⟩
            rfl
  · rw [if_pos (by simpa using hlib)]
    exact iff_of_false nofun fun h => hlib h.1.1

def fresh (l : Linker) : Linker := { libraries := l.libraries, names := l.names }

/-- The libraries were registered one after the other. -/
def Registered (l : Linker) : Prop := ofClasses l.libraries = .ok l.fresh

theorem Registered.addLibrary (h : l.Registered) {c : ClassDecl}
    (hadd : l.addLibrary c = .ok l') : l'.Registered := by
  obtain ⟨hc, hnew, rfl⟩ := addLibrary_eq_ok_iff.mp hadd
  have hfresh : l.fresh.addLibrary c = .ok (l.register c hnew).fresh :=
    addLibrary_eq_ok_iff.mpr ⟨hc, hnew, rfl⟩
  rw [Registered, ofClasses] at h ⊢
  rw [register, List.filter_append, List.filter_cons_of_pos hc.1, List.filter_nil,
    List.foldlM_append, h]
  show l.fresh.addLibrary c >>= pure = _
  rw [bind_pure, hfresh]
  rfl

def Extends (l l' : Linker) : Prop := l.libraries <+: l'.libraries

theorem extends_of_addLibrary {c : ClassDecl} (h : l.addLibrary c = .ok l') : l.Extends l' := by
  obtain ⟨-, hnew, rfl⟩ := addLibrary_eq_ok_iff.mp h
  exact List.prefix_append _ _

theorem Extends.refl (l : Linker) : l.Extends l := List.prefix_rfl

theorem Extends.trans {l'' : Linker} (h : l.Extends l') (h' : l'.Extends l'') :
    l.Extends l'' :=
  List.IsPrefix.trans h h'

theorem Extends.getElem? (h : l.Extends l') {i : Nat} (hi : i < l.libraries.length) :
    l'.libraries[i]? = l.libraries[i]? := by
  obtain ⟨more, hmore⟩ := h
  rw [← hmore, List.getElem?_append_left hi]

theorem Extends.method?_of_lt (h : l.Extends l') {key : FunctionKey}
    (hkey : key.library < l.libraries.length) : l'.method? key = l.method? key := by
  rw [Linker.method?, Linker.method?, h.getElem? hkey]

theorem lt_length_of_method? {key : FunctionKey} {c : ClassDecl} {m : MethodDecl}
    (h : l.method? key = some (c, m)) : key.library < l.libraries.length :=
  (List.getElem?_eq_some_iff.mp (method?_eq_some.mp h).1).1

theorem Extends.method? (h : l.Extends l') {key : FunctionKey} {c : ClassDecl} {m : MethodDecl}
    (hm : l.method? key = some (c, m)) : l'.method? key = some (c, m) := by
  rw [h.method?_of_lt (lt_length_of_method? hm), hm]

/-- All functions of the right name and arity at the places where a dependency is looked for. -/
def candidates (l : Linker) (d : Dependency) : List FunctionKey :=
  ((l.searched d).flatMap (l.functionsNamed · d.name)).filter (l.hasArity d.arity)

theorem resolve_eq_ok_iff {d : Dependency} {key : FunctionKey} :
    l.resolve d = .ok key ↔ l.candidates d = [key] := by
  rw [resolve, candidates]
  split
  · next found hfound => simp [hfound]
  · next hnone => simp [hnone]
  · next hmany _ => simpa using fun h => hmany key h

theorem lt_length_of_searched {d : Dependency} {i : Nat} (h : i ∈ l.searched d) :
    i < l.libraries.length := by
  rw [searched] at h
  split at h
  · exact (List.findIdx?_eq_some_iff_getElem.mp (Option.mem_toList.mp h)).1
  · exact List.mem_range.mp h

theorem Extends.found (h : l.Extends l') {places : List Nat}
    (hplaces : ∀ i ∈ places, i < l.libraries.length) (d : Dependency) :
    (places.flatMap (l'.functionsNamed · d.name)).filter (l'.hasArity d.arity) =
      (places.flatMap (l.functionsNamed · d.name)).filter (l.hasArity d.arity) := by
  have hnamed : places.flatMap (l'.functionsNamed · d.name) =
      places.flatMap (l.functionsNamed · d.name) := by
    apply List.flatMap_congr
    intro i hi
    rw [functionsNamed, functionsNamed, h.getElem? (hplaces i hi)]
  rw [hnamed]
  apply List.filter_congr
  intro key hkey
  obtain ⟨i, hi, hkey⟩ := List.mem_flatMap.mp hkey
  obtain ⟨rfl, -⟩ := mem_functionsNamed.mp hkey
  rw [hasArity, hasArity, h.method?_of_lt (hplaces _ hi)]

theorem Extends.searched_of_owner (h : l.Extends l') {d : Dependency} {owner : String}
    (howner : d.owner? = some owner) (hne : l.searched d ≠ []) : l'.searched d = l.searched d := by
  obtain ⟨more, hmore⟩ := h
  simp only [searched, howner, position?] at hne ⊢
  rw [← hmore, List.findIdx?_append]
  cases hi : l.libraries.findIdx? (·.name == owner) with
  | none => simp [hi] at hne
  | some i => rfl

theorem Extends.searched (h : l.Extends l') {d : Dependency} (hne : l.searched d ≠ []) :
    l.searched d <+: l'.searched d := by
  cases howner : d.owner? with
  | some owner => exact ⟨[], by rw [List.append_nil, h.searched_of_owner howner hne]⟩
  | none =>
      simp only [Linker.searched, howner]
      obtain ⟨more, hmore⟩ := h
      rw [← hmore, List.length_append, List.range_add]
      exact List.prefix_append _ _

theorem searched_ne_nil {d : Dependency} (h : l.candidates d ≠ []) : l.searched d ≠ [] := by
  intro hnil
  rw [candidates, hnil] at h
  exact h rfl

theorem Extends.candidates (h : l.Extends l') {d : Dependency} (hne : l.candidates d ≠ []) :
    l.candidates d <+: l'.candidates d := by
  obtain ⟨more, hmore⟩ := h.searched (searched_ne_nil hne)
  rw [Linker.candidates, Linker.candidates, ← hmore, List.flatMap_append, List.filter_append,
    h.found fun _ => lt_length_of_searched]
  exact List.prefix_append _ _

theorem Extends.resolve (h : l.Extends l') {d : Dependency} {key key' : FunctionKey}
    (hkey : l.resolve d = .ok key) (hkey' : l'.resolve d = .ok key') : key' = key := by
  rw [resolve_eq_ok_iff] at hkey hkey'
  have hprefix := h.candidates (d := d) (by simp [hkey])
  rw [hkey, hkey', List.prefix_cons_iff] at hprefix
  obtain hnil | ⟨rest, hrest, -⟩ := hprefix
  · cases hnil
  · exact (List.cons.inj hrest).1.symm

end Linker

end ShaderCompiler
