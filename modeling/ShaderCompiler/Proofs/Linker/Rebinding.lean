import ShaderCompiler.Proofs.Linker.Registering
import ShaderCompiler.Proofs.Linker.Transparency

namespace ShaderCompiler

/-- The class has a function that a call by a bare name may mean. -/
def ClassDecl.Answers (c : ClassDecl) (d : Dependency) : Prop :=
  ∃ m ∈ c.methods, m.isConstructor = false ∧ m.name = d.name ∧ m.params.length = d.arity

namespace Linker

variable {l l' : Linker} {d : Dependency}

/-- Libraries of distinct names whose fields are constants. -/
structure IsWellFormed (l : Linker) : Prop where
  names : l.libraryNames.Nodup
  registrable : ∀ c ∈ l.libraries, c.IsRegistrable

theorem IsWellFormed.addLibrary (h : l.IsWellFormed) {c : ClassDecl}
    (hadd : l.addLibrary c = .ok l') : l'.IsWellFormed := by
  refine ⟨l'.names, ?_⟩
  obtain ⟨hc, hnew, rfl⟩ := addLibrary_eq_ok_iff.mp hadd
  exact List.forall_mem_append.mpr ⟨h.registrable, List.forall_mem_singleton.mpr hc⟩

theorem resolve_eq_ambiguous_iff :
    l.resolve d = .error (.unresolved (.ambiguous d)) ↔ 2 ≤ (l.candidates d).length := by
  rw [resolve, ← candidates]
  cases l.candidates d with
  | nil => simp
  | cons key rest =>
      cases rest with
      | nil => simp
      | cons key' rest => simp

theorem Extends.resolve_eq_ambiguous (h : l.Extends l')
    (hd : l.resolve d = .error (.unresolved (.ambiguous d))) :
    l'.resolve d = .error (.unresolved (.ambiguous d)) := by
  rw [resolve_eq_ambiguous_iff] at hd ⊢
  have hne : l.candidates d ≠ [] := by
    intro hnil
    simp [hnil] at hd
  exact hd.trans (h.candidates hne).length_le

theorem Extends.candidates_of_owner (h : l.Extends l') {owner : String}
    (howner : d.owner? = some owner) (hne : l.candidates d ≠ []) :
    l'.candidates d = l.candidates d := by
  rw [Linker.candidates, h.searched_of_owner howner (searched_ne_nil hne),
    h.found fun _ => lt_length_of_searched]
  rfl

def candidatesBehind (l' l : Linker) (more : List ClassDecl) (d : Dependency) : List FunctionKey :=
  (((List.range more.length).map (l.libraries.length + ·)).flatMap
    (l'.functionsNamed · d.name)).filter (l'.hasArity d.arity)

theorem candidates_append {more : List ClassDecl} (h : l'.libraries = l.libraries ++ more)
    (hd : d.owner? = none) : l'.candidates d = l.candidates d ++ l'.candidatesBehind l more d := by
  have hext : l.Extends l' := ⟨more, h.symm⟩
  have hplaces : ∀ i ∈ List.range l.libraries.length, i < l.libraries.length :=
    fun _ => List.mem_range.mp
  have hold := hext.found hplaces d
  simp only [candidates, searched, hd]
  rw [h, List.length_append, List.range_add, List.flatMap_append, List.filter_append, hold]
  rfl

theorem candidatesBehind_ne_nil_iff {more : List ClassDecl}
    (h : l'.libraries = l.libraries ++ more) :
    l'.candidatesBehind l more d ≠ [] ↔ ∃ c ∈ more, c.Answers d := by
  have hplace (i : Nat) : l'.libraries[l.libraries.length + i]? = more[i]? := by
    rw [h, List.getElem?_append_right (Nat.le_add_right _ _), Nat.add_sub_cancel_left]
  constructor
  · intro hne
    obtain ⟨key, hkey⟩ := List.exists_mem_of_ne_nil _ hne
    obtain ⟨hkey, harity⟩ := List.mem_filter.mp hkey
    obtain ⟨_, hi, hkey⟩ := List.mem_flatMap.mp hkey
    obtain ⟨i, -, rfl⟩ := List.mem_map.mp hi
    obtain ⟨hlib, c, m, hm, hctor, hname⟩ := mem_functionsNamed.mp hkey
    rw [hasArity, hm] at harity
    obtain ⟨hc, hm⟩ := method?_eq_some.mp hm
    rw [hlib, hplace] at hc
    exact ⟨c, List.mem_of_getElem? hc, m, List.mem_of_getElem? hm, hctor, hname,
      by simpa using harity⟩
  · rintro ⟨c, hc, m, hm, hctor, hname, harity⟩
    obtain ⟨i, hi⟩ := List.mem_iff_getElem?.mp hc
    obtain ⟨j, hj⟩ := List.mem_iff_getElem?.mp hm
    have hmethod : l'.method? ⟨l.libraries.length + i, j⟩ = some (c, m) :=
      method?_eq_some.mpr ⟨(hplace i).trans hi, hj⟩
    refine List.ne_nil_of_mem (a := ⟨l.libraries.length + i, j⟩) ?_
    refine List.mem_filter.mpr ⟨List.mem_flatMap.mpr ⟨l.libraries.length + i, ?_, ?_⟩, ?_⟩
    · exact List.mem_map_of_mem (List.mem_range.mpr (List.getElem?_eq_some_iff.mp hi).1)
    · exact mem_functionsNamed.mpr ⟨rfl, c, m, hmethod, hctor, hname⟩
    · rw [hasArity, hmethod]
      simpa using harity

/-- The second linker has more libraries, and no call that the first resolves goes to another
function in it. -/
structure Widens (l : Linker) (more : List ClassDecl) (l' : Linker) : Prop where
  libraries : l'.libraries = l.libraries ++ more
  methods : ∀ d key, l.resolve d = .ok key →
    ∃ c m, l.method? key = some (c, m) ∧ l'.method? key = some (c, m)
  resolved : ∀ d key, l.resolve d = .ok key →
    l'.resolve d = .ok key ∨
      d.owner? = none ∧ l'.resolve d = .error (.unresolved (.ambiguous d))
  refused : ∀ d key, l.resolve d = .ok key →
    (l'.resolve d = .error (.unresolved (.ambiguous d)) ↔
      d.owner? = none ∧ ∃ c ∈ more, c.Answers d)
  ambiguous : ∀ d, l.resolve d = .error (.unresolved (.ambiguous d)) →
    l'.resolve d = .error (.unresolved (.ambiguous d))

theorem Extends.resolve_of_owner (h : l.Extends l') {key : FunctionKey}
    (hd : d.owner? ≠ none) (hkey : l.resolve d = .ok key) : l'.resolve d = .ok key := by
  obtain ⟨owner, howner⟩ := Option.ne_none_iff_exists'.mp hd
  rw [resolve_eq_ok_iff] at hkey ⊢
  rw [h.candidates_of_owner howner (by simp [hkey]), hkey]

theorem resolve_append {more : List ClassDecl} (h : l'.libraries = l.libraries ++ more)
    (hd : d.owner? = none) {key : FunctionKey} (hkey : l.resolve d = .ok key) :
    l'.candidatesBehind l more d = [] ∧ l'.resolve d = .ok key ∨
      l'.candidatesBehind l more d ≠ [] ∧ l'.resolve d = .error (.unresolved (.ambiguous d)) := by
  have hall := candidates_append h hd
  rw [resolve_eq_ok_iff.mp hkey] at hall
  by_cases hnew : l'.candidatesBehind l more d = []
  · refine Or.inl ⟨hnew, resolve_eq_ok_iff.mpr ?_⟩
    rw [hall, hnew, List.append_nil]
  · refine Or.inr ⟨hnew, resolve_eq_ambiguous_iff.mpr ?_⟩
    have hpos := List.length_pos_iff.mpr hnew
    rw [hall, List.length_append, List.length_singleton]
    omega

theorem widens_of_libraries {more : List ClassDecl} (h : l'.libraries = l.libraries ++ more) :
    l.Widens more l' := by
  have hext : l.Extends l' := ⟨more, h.symm⟩
  refine ⟨h, ?_, ?_, ?_, fun d => hext.resolve_eq_ambiguous⟩
  · intro d key hkey
    obtain ⟨c, m, hm⟩ := exists_method?_of_resolve hkey
    exact ⟨c, m, hm, hext.method? hm⟩
  · intro d key hkey
    by_cases hd : d.owner? = none
    · exact (resolve_append h hd hkey).imp And.right fun hbare => ⟨hd, hbare.2⟩
    · exact Or.inl (hext.resolve_of_owner hd hkey)
  · intro d key hkey
    by_cases hd : d.owner? = none
    · rw [← candidatesBehind_ne_nil_iff h]
      obtain ⟨hnone, hsame⟩ | ⟨hsome, hrefused⟩ := resolve_append h hd hkey
      · rw [hsame]
        exact iff_of_false nofun fun hboth => hboth.2 hnone
      · exact iff_of_true hrefused ⟨hd, hsome⟩
    · rw [hext.resolve_of_owner hd hkey]
      exact iff_of_false nofun fun hboth => hd hboth.1

end Linker

namespace Session

theorem addLibrary_cases (s : Session) (c : ClassDecl) :
    (∃ e, s.addLibrary c = (.error e, s)) ∧
        ¬ (c.IsRegistrable ∧ c.name ∉ s.linker.libraryNames) ∨
      ∃ linker, s.linker.addLibrary c = .ok linker ∧
        s.addLibrary c = (.ok (), { s with linker }) := by
  unfold addLibrary
  cases hadd : s.linker.addLibrary c with
  | error e =>
      refine Or.inl ⟨⟨e, rfl⟩, ?_⟩
      rintro ⟨hc, hnew⟩
      rw [Linker.addLibrary_eq_ok_iff.mpr ⟨hc, hnew, rfl⟩] at hadd
      cases hadd
  | ok linker => exact Or.inr ⟨linker, rfl, rfl⟩

theorem isWellFormed_serve {s : Session} (h : s.linker.IsWellFormed) (r : Request) :
    (s.serve r).linker.IsWellFormed := by
  obtain ⟨c, linker, hadd, -, hserve⟩ | ⟨-, hserve⟩ | ⟨shader, -, hserve⟩ := s.serve_cases r
  · rw [hserve]
    exact h.addLibrary hadd
  · rw [hserve]
    exact h
  · rw [hserve]
    exact ⟨h.names, h.registrable⟩

theorem isWellFormed_serveAll {s : Session} (h : s.linker.IsWellFormed)
    (requests : List Request) : (s.serveAll requests).linker.IsWellFormed := by
  induction requests generalizing s with
  | nil => exact h
  | cons r requests ih => exact ih (isWellFormed_serve h r)

/-- Registering a class does all or nothing, and what it does leaves every call where it went. -/
structure Registers (s : Session) (c : ClassDecl) : Prop where
  wellFormed : s.linker.IsWellFormed
  atomic : ∀ e, (s.addLibrary c).1 = .error e → (s.addLibrary c).2 = s
  accepted : (s.addLibrary c).1 = .ok () ↔ c.IsRegistrable ∧ c.name ∉ s.linker.libraryNames
  widens : (s.addLibrary c).1 = .ok () → s.linker.Widens [c] (s.addLibrary c).2.linker
  later : ∀ more, ∃ cs, s.linker.Widens cs (s.serveAll more).linker

/-- So it is in every session, whatever was registered, refused and linked in it before. -/
theorem registers_serveAll (settings : Settings) (requests : List Request) (c : ClassDecl) :
    (serveAll { settings } requests).Registers c := by
  have hstart : Linker.IsWellFormed (Session.linker { settings }) := ⟨List.nodup_nil, nofun⟩
  have hwf := isWellFormed_serveAll hstart requests
  generalize serveAll { settings } requests = s at hwf ⊢
  have hlater : ∀ more, ∃ cs, s.linker.Widens cs (s.serveAll more).linker := by
    intro more
    obtain ⟨cs, hcs⟩ := (s.grows_serveAll more).libraries
    exact ⟨cs, Linker.widens_of_libraries hcs.symm⟩
  obtain ⟨⟨e, hadd⟩, hnot⟩ | ⟨linker, hlinker, hadd⟩ := s.addLibrary_cases c
  · refine ⟨hwf, ?_, ?_, ?_, hlater⟩
    · rw [hadd]
      exact fun _ _ => rfl
    · rw [hadd]
      exact iff_of_false nofun hnot
    · rw [hadd]
      exact nofun
  · obtain ⟨hc, hnew, rfl⟩ := Linker.addLibrary_eq_ok_iff.mp hlinker
    refine ⟨hwf, ?_, ?_, ?_, hlater⟩
    · rw [hadd]
      intro e he
      cases he
    · rw [hadd]
      exact iff_of_true rfl ⟨hc, hnew⟩
    · rw [hadd]
      exact fun _ => Linker.widens_of_libraries rfl

/-- A second library with a function of the same name: the bare name is refused, the others not. -/
example :
    let before := (serveAll {} (sumsLinker.libraries.map .addLibrary)).linker
    let after :=
      (serveAll {} ((sumsLinker.libraries ++ [scaledLibrary]).map .addLibrary)).linker
    before.resolve ⟨"once", "once", 1⟩ = .ok ⟨0, 1⟩ ∧
      after.resolve ⟨"once", "once", 1⟩ = .error (.unresolved (.ambiguous ⟨"once", "once", 1⟩)) ∧
      after.resolve ⟨"Sums.once", "once", 1⟩ = .ok ⟨0, 1⟩ ∧
      after.resolve ⟨"twice", "twice", 1⟩ = .ok ⟨0, 0⟩ := by
  decide +kernel

end Session

end ShaderCompiler
