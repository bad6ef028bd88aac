import ShaderCompiler.Proofs.Linker.Linking
import ShaderCompiler.Proofs.Linker.Growth
import ShaderCompiler.Proofs.Order.Renaming

namespace ShaderCompiler

theorem exists_places {α : Type} {as bs : List α} (h : as.Perm bs) :
    ∃ σ : Nat → Nat, Function.Injective σ ∧ ∀ i, bs[σ i]? = as[i]? := by
  induction h with
  | nil => exact ⟨id, Function.injective_id, fun _ => rfl⟩
  | cons a _ ih =>
      obtain ⟨σ, hinj, hσ⟩ := ih
      refine ⟨fun i => i.casesOn 0 fun i => σ i + 1, ?_, fun i => ?_⟩
      · intro i j hij
        cases i <;> cases j <;> simp_all [hinj.eq_iff]
      · cases i with
        | zero => rfl
        | succ i => simpa using hσ i
  | swap a b rest =>
      refine ⟨fun i => if i = 0 then 1 else if i = 1 then 0 else i, ?_, fun i => ?_⟩
      · intro i j hij
        dsimp only at hij
        split_ifs at hij <;> omega
      · match i with
        | 0 | 1 | i + 2 => rfl
  | trans _ _ ih ih' =>
      obtain ⟨σ, hinj, hσ⟩ := ih
      obtain ⟨τ, hinj', hτ⟩ := ih'
      exact ⟨τ ∘ σ, hinj'.comp hinj, fun i => (hτ (σ i)).trans (hσ i)⟩

def FunctionKey.move (σ : Nat → Nat) (key : FunctionKey) : FunctionKey :=
  ⟨σ key.library, key.index⟩

theorem FunctionKey.move_injective {σ : Nat → Nat} (h : Function.Injective σ) :
    Function.Injective (FunctionKey.move σ) := by
  rintro ⟨i, j⟩ ⟨i', j'⟩ he
  obtain ⟨hi, rfl⟩ := FunctionKey.mk.inj he
  obtain rfl := h hi
  rfl

def LinkedFunction.move (σ : Nat → Nat) (f : LinkedFunction) : LinkedFunction :=
  ⟨f.key.move σ, f.function⟩

theorem checkSignatures_move {σ : Nat → Nat} {nameAt nameAt' : Nat → String}
    (h : ∀ i, nameAt' (σ i) = nameAt i) (owners : List ((String × Nat) × String))
    (fs : List LinkedFunction) :
    checkSignatures nameAt' owners (fs.map (.move σ)) = checkSignatures nameAt owners fs := by
  induction fs generalizing owners with
  | nil => rfl
  | cons f fs ih =>
      rw [List.map_cons, LinkedFunction.move, checkSignatures, checkSignatures,
        FunctionKey.move, h, ih]

namespace Linker

variable {l l' : Linker} {settings : Settings} {s : CompiledShader} {σ : Nat → Nat}

theorem foldlM_addLibrary_eq_ok_iff {cs : List ClassDecl} : cs.foldlM addLibrary l = .ok l' ↔
    (∀ c ∈ cs, c.IsRegistrable) ∧ l'.libraries = l.libraries ++ cs ∧
      l'.compiled = l.compiled := by
  induction cs generalizing l with
  | nil =>
      rw [List.append_nil]
      constructor
      · intro h
        cases h
        exact ⟨nofun, rfl, rfl⟩
      · rintro ⟨-, hlibraries, hcompiled⟩
        rw [Linker.ext hlibraries hcompiled]
        rfl
  | cons c cs ih =>
      rw [List.foldlM_cons, List.forall_mem_cons]
      constructor
      · intro h
        obtain ⟨m, hm, h⟩ := exists_of_except_bind_ok h
        obtain ⟨hc, hnew, rfl⟩ := addLibrary_eq_ok_iff.mp hm
        obtain ⟨hcs, hlibraries, hcompiled⟩ := ih.mp h
        refine ⟨⟨hc, hcs⟩, ?_, hcompiled⟩
        rw [hlibraries, register, List.append_assoc, List.singleton_append]
      · rintro ⟨⟨hc, hcs⟩, hlibraries, hcompiled⟩
        -- the names of the outcome are distinct, so that the next one is new
        have hnew : c.name ∉ l.libraryNames := by
          intro hmem
          have hnames := l'.names
          rw [hlibraries, List.map_append, List.nodup_append] at hnames
          exact hnames.2.2 c.name hmem c.name List.mem_cons_self rfl
        rw [addLibrary_eq_ok_iff.mpr ⟨hc, hnew, rfl⟩]
        refine ih.mpr ⟨hcs, ?_, hcompiled⟩
        rw [hlibraries, register, List.append_assoc, List.singleton_append]

/-- The same libraries at other places, and the same functions kept: `σ` says where. -/
structure Relocates (σ : Nat → Nat) (l l' : Linker) : Prop where
  injective : Function.Injective σ
  libraries : l.libraries.Perm l'.libraries
  places : ∀ i, l'.libraries[σ i]? = l.libraries[i]?
  compiled : l'.compiled = l.compiled.map (Prod.map (.move σ) id)

theorem position?_eq_some_iff {name : String} {i : Nat} :
    l.position? name = some i ↔ ∃ c, l.libraries[i]? = some c ∧ c.name = name := by
  constructor
  · intro hi
    obtain ⟨hlt, hname, -⟩ := List.findIdx?_eq_some_iff_getElem.mp hi
    exact ⟨_, List.getElem?_eq_getElem hlt, by simpa using hname⟩
  · rintro ⟨c, hc, rfl⟩
    obtain ⟨j, hj⟩ : ∃ j, l.position? c.name = some j := by
      apply Option.isSome_iff_exists.mp
      rw [position?, List.findIdx?_isSome, List.any_eq_true]
      exact ⟨c, List.mem_of_getElem? hc, beq_self_eq_true c.name⟩
    obtain ⟨hlt, hname, -⟩ := List.findIdx?_eq_some_iff_getElem.mp hj
    have hsame : (l.libraries.map (·.name))[j]? = (l.libraries.map (·.name))[i]? := by
      rw [List.getElem?_map, List.getElem?_map, hc, List.getElem?_eq_getElem hlt]
      simpa using hname
    rw [hj, (List.getElem?_inj (by simpa using hlt) l.names).mp hsame]

namespace Relocates

theorem nameAt (h : l.Relocates σ l') (i : Nat) : l'.nameAt (σ i) = l.nameAt i := by
  rw [Linker.nameAt, Linker.nameAt, h.places]

theorem method? (h : l.Relocates σ l') (key : FunctionKey) :
    l'.method? (key.move σ) = l.method? key := by
  rw [Linker.method?, Linker.method?, FunctionKey.move, h.places]

theorem functionsNamed (h : l.Relocates σ l') (i : Nat) (name : String) :
    l'.functionsNamed (σ i) name = (l.functionsNamed i name).map (.move σ) := by
  rw [Linker.functionsNamed, Linker.functionsNamed, h.places, List.map_flatMap]
  simp only [List.map_map]
  rfl

theorem hasArity (h : l.Relocates σ l') (arity : Nat) (key : FunctionKey) :
    l'.hasArity arity (key.move σ) = l.hasArity arity key := by
  rw [Linker.hasArity, Linker.hasArity, h.method?]

theorem range (h : l.Relocates σ l') :
    ((List.range l.libraries.length).map σ).Perm (List.range l'.libraries.length) := by
  have hnodup : ((List.range l.libraries.length).map σ).Nodup :=
    List.nodup_range.map h.injective
  have hsub : (List.range l.libraries.length).map σ ⊆ List.range l'.libraries.length := by
    intro j hj
    obtain ⟨i, hi, rfl⟩ := List.mem_map.mp hj
    have hc := List.getElem?_eq_getElem (List.mem_range.mp hi)
    exact List.mem_range.mpr (List.getElem?_eq_some_iff.mp ((h.places i).trans hc)).1
  apply (hnodup.subperm hsub).perm_of_length_le
  rw [List.length_map, List.length_range, List.length_range, h.libraries.length_eq]

theorem position? (h : l.Relocates σ l') (name : String) :
    l'.position? name = (l.position? name).map σ := by
  cases hi : l.position? name with
  | some i =>
      obtain ⟨c, hc, hname⟩ := position?_eq_some_iff.mp hi
      exact position?_eq_some_iff.mpr ⟨c, (h.places i).trans hc, hname⟩
  | none =>
      cases hj : l'.position? name with
      | none => rfl
      | some j =>
          obtain ⟨c, hc, hname⟩ := position?_eq_some_iff.mp hj
          have hmem := h.libraries.mem_iff.mpr (List.mem_of_getElem? hc)
          obtain ⟨i, hc⟩ := List.mem_iff_getElem?.mp hmem
          rw [position?_eq_some_iff.mpr ⟨c, hc, hname⟩] at hi
          cases hi

theorem searched (h : l.Relocates σ l') (d : Dependency) :
    ((l.searched d).map σ).Perm (l'.searched d) := by
  unfold Linker.searched
  split
  · rw [h.position?]
    cases l.position? _ <;> exact List.Perm.refl _
  · exact h.range

theorem candidates (h : l.Relocates σ l') (d : Dependency) :
    ((l.candidates d).map (.move σ)).Perm (l'.candidates d) := by
  have hnamed := ((h.searched d).flatMap_right (l'.functionsNamed · d.name)).filter
    (l'.hasArity d.arity)
  rw [List.flatMap_map] at hnamed
  simp only [h.functionsNamed, ← List.map_flatMap, List.filter_map] at hnamed
  have harity : l'.hasArity d.arity ∘ FunctionKey.move σ = l.hasArity d.arity :=
    funext fun key => h.hasArity d.arity key
  rwa [harity] at hnamed

/-- One candidate stays the one at any place, and none or several stay none or several. -/
theorem resolve (h : l.Relocates σ l') (d : Dependency) :
    l'.resolve d = (l.resolve d).map (.move σ) := by
  have hperm := h.candidates d
  unfold Linker.resolve
  rw [← Linker.candidates, ← Linker.candidates]
  generalize l.candidates d = found at hperm ⊢
  generalize l'.candidates d = found' at hperm ⊢
  cases found with
  | nil =>
      rw [List.nil_perm.mp hperm]
      rfl
  | cons key rest =>
      cases rest with
      | nil =>
          rw [← List.singleton_perm.mp hperm]
          rfl
      | cons key' rest =>
          have hlength := hperm.length_eq
          cases found' with
          | nil => cases hlength
          | cons a found' =>
              cases found' with
              | nil => simp at hlength
              | cons b found' => rfl

theorem map_resolve (h : l.Relocates σ l') (ds : List Dependency) :
    ds.map l'.resolve = (ds.map l.resolve).map (Except.map (.move σ)) := by
  rw [List.map_map]
  exact congrArg (ds.map ·) (funext h.resolve)

theorem lookup (h : l.Relocates σ l') (key : FunctionKey) :
    l'.compiled.lookup (key.move σ) = l.compiled.lookup key := by
  rw [h.compiled]
  exact lookup_map_of_injective (FunctionKey.move_injective h.injective) _ _

theorem function (h : l.Relocates σ l') (key : FunctionKey) :
    l'.function settings (key.move σ) = l.function settings key := by
  unfold Linker.function
  rw [h.lookup, h.method?, FunctionKey.move, h.nameAt]

theorem graph (h : l.Relocates σ l') :
    (l.graph settings).Renames (.move σ) (l'.graph settings) where
  injective := FunctionKey.move_injective h.injective
  needs key := by
    show (l'.function settings (key.move σ) >>= _) = Except.map _ (l.function settings key >>= _)
    rw [h.function]
    cases l.function settings key with
    | error e => rfl
    | ok f =>
        have hown : f.calls.flatMap (l'.functionsNamed (σ key.library)) =
            (f.calls.flatMap (l.functionsNamed key.library)).map (.move σ) := by
          rw [List.map_flatMap]
          exact congrArg (f.calls.flatMap ·) (funext (h.functionsNamed key.library))
        show Except.ok ((f.calls.flatMap (l'.functionsNamed (σ key.library))).map .ok ++
          f.dependencies.map l'.resolve) = Except.ok _
        rw [hown, h.map_resolve, List.map_map]
        simp only [List.map_append, List.map_map]
        rfl
  cycle key := by
    show Diagnostic.unsupported _ _ = Diagnostic.unsupported _ _
    rw [h.method?, FunctionKey.move, h.nameAt]

theorem walk (h : l.Relocates σ l') :
    l'.walk settings s = (l.walk settings s).map id (Progress.map (.move σ)) := by
  have hcount : l'.functionCount = l.functionCount :=
    (h.libraries.flatMap_right _).length_eq.symm
  rw [Linker.walk, Linker.walk, hcount, h.map_resolve]
  exact h.graph.walk _ _

theorem functions (h : l.Relocates σ l') (order : List FunctionKey) :
    (order.map (.move σ)).mapM (fun key => do
        return (⟨key, ← l'.function settings key⟩ : LinkedFunction)) =
      (order.mapM fun key => do return (⟨key, ← l.function settings key⟩ : LinkedFunction)).map
        (List.map (.move σ)) := by
  induction order with
  | nil => rfl
  | cons key order ih =>
      rw [List.map_cons, List.mapM_cons, List.mapM_cons, ih, h.function]
      cases l.function settings key with
      | error e => rfl
      | ok f =>
          cases order.mapM fun key => do
            return (⟨key, ← l.function settings key⟩ : LinkedFunction) <;> rfl

theorem linked (h : l.Relocates σ l') :
    l'.linked settings s = (l.linked settings s).map (List.map (.move σ)) := by
  unfold Linker.linked
  rw [h.walk]
  match l.walk settings s with
  | (.error e, p) => rfl
  | (.ok (), p) =>
      show ((p.order.map (.move σ)).mapM (fun key => do
        return (⟨key, ← l'.function settings key⟩ : LinkedFunction)) >>= _) = Except.map _ (_ >>= _)
      rw [h.functions]
      cases p.order.mapM fun key => do
        return (⟨key, ← l.function settings key⟩ : LinkedFunction) with
      | error e => rfl
      | ok fs =>
          show (checkSignatures l'.nameAt _ (fs.map (.move σ)) >>= _) =
            Except.map _ (checkSignatures l.nameAt _ fs >>= _)
          rw [checkSignatures_move h.nameAt]
          cases checkSignatures l.nameAt _ fs <;> rfl

theorem linkFunctions (h : l.Relocates σ l') :
    l'.linkFunctions settings s = l.linkFunctions settings s := by
  rw [Linker.linkFunctions, Linker.linkFunctions, h.linked]
  cases l.linked settings s with
  | error e => rfl
  | ok fs =>
      show Except.ok ((fs.map (LinkedFunction.move σ)).map (·.function)) = _
      rw [List.map_map]
      rfl

theorem constants (h : l.Relocates σ l') (fs : List LinkedFunction) :
    l'.constants (fs.map (.move σ)) = l.constants fs := by
  have hmoved : (fs.map (LinkedFunction.move σ)).map (·.key.library) =
      (fs.map (·.key.library)).map σ := by
    simp only [List.map_map]
    rfl
  have hplaces : ((l'.libraries[·]?) ∘ σ) = (l.libraries[·]?) := funext h.places
  rw [Linker.constants, Linker.constants, hmoved, distinct_map fun _ _ he => h.injective he,
    List.filterMap_map, hplaces]

theorem link (h : l.Relocates σ l') : l'.link settings s = l.link settings s := by
  rw [Linker.link, Linker.link, h.linked]
  cases l.linked settings s with
  | error e => rfl
  | ok fs =>
      show (l'.constants (fs.map (.move σ)) >>= _) = (l.constants fs >>= _)
      rw [h.constants]
      simp only [List.map_map]
      rfl

theorem afterLink (h : l.Relocates σ l') (settings : Settings) (s : CompiledShader) :
    (l.afterLink settings s).Relocates σ (l'.afterLink settings s) where
  injective := h.injective
  libraries := h.libraries
  places := h.places
  compiled := by
    have hkept : (fun key => (l'.compiled.lookup key).isNone) ∘ FunctionKey.move σ =
        fun key => (l.compiled.lookup key).isNone :=
      funext fun key => congrArg Option.isNone (h.lookup key)
    have hentered : (l'.walk settings s).2.entered =
        (l.walk settings s).2.entered.map (.move σ) := by
      rw [h.walk]
      rfl
    show l'.compiled ++ _ = (l.compiled ++ _).map _
    rw [List.map_append, ← h.compiled, hentered, ← List.map_reverse, List.filter_map, hkept,
      List.filterMap_map, List.map_filterMap]
    congr 2
    funext key
    show ((l'.function settings (key.move σ)).toOption.map _) = _
    rw [h.function]
    cases (l.function settings key).toOption <;> rfl

end Relocates

def afterLinks (l : Linker) (history : List (Settings × CompiledShader)) : Linker :=
  history.foldl (fun l request => l.afterLink request.1 request.2) l

theorem Relocates.afterLinks (h : l.Relocates σ l')
    (history : List (Settings × CompiledShader)) :
    (l.afterLinks history).Relocates σ (l'.afterLinks history) := by
  induction history generalizing l l' with
  | nil => exact h
  | cons request history ih => exact ih (h.afterLink request.1 request.2)

theorem exists_relocates {cs cs' : List ClassDecl} (hperm : cs.Perm cs')
    (h : cs.foldlM addLibrary {} = .ok l) :
    ∃ l' σ, cs'.foldlM addLibrary {} = .ok l' ∧ l.Relocates σ l' := by
  obtain ⟨hcs, hlibraries, hcompiled⟩ := foldlM_addLibrary_eq_ok_iff.mp h
  have hlibraries : l.libraries = cs := hlibraries
  obtain ⟨σ, hinjective, hplaces⟩ := exists_places hperm
  rw [← hlibraries] at hplaces hperm
  refine ⟨{ libraries := cs', names := ?_ }, σ, ?_, hinjective, hperm, hplaces, ?_⟩
  · exact (hperm.map _).nodup_iff.mp l.names
  · refine foldlM_addLibrary_eq_ok_iff.mpr ⟨fun c hc => hcs c ?_, rfl, rfl⟩
    rw [← hlibraries]
    exact hperm.mem_iff.mpr hc
  · rw [hcompiled]
    rfl

/-- Classes that can be registered in one order can be in every order, and then every shader is
linked to the same text and the same functions, or refused with the same error, now and after any
shaders were linked before. -/
theorem link_eq_of_perm {cs cs' : List ClassDecl} (hperm : cs.Perm cs')
    (h : cs.foldlM addLibrary {} = .ok l) :
    ∃ l', cs'.foldlM addLibrary {} = .ok l' ∧
      ∀ (history : List (Settings × CompiledShader)) (settings : Settings) (s : CompiledShader),
        (l'.afterLinks history).link settings s = (l.afterLinks history).link settings s ∧
        (l'.afterLinks history).linkFunctions settings s =
          (l.afterLinks history).linkFunctions settings s := by
  obtain ⟨l', σ, hl', hmoved⟩ := exists_relocates hperm h
  refine ⟨l', hl', ?_⟩
  intro history settings s
  have hafter := hmoved.afterLinks history
  exact ⟨hafter.link, hafter.linkFunctions⟩

end Linker

def scaledLibrary : ClassDecl where
  name := "Scaled"
  kind := .library
  fields :=
    [{ isConst := true, type := ⟨"int", false, false, .none⟩, name := "SCALE",
       init := some (.literal (.int 3)) }]
  methods := [unaryMethod "once" (.binary .mul (.ident "x") (.ident "SCALE"))]

/-- In both orders a function is found in the library that the call names, and a bare name that two
libraries use is refused. -/
theorem link_eq_scaledLibrary :
    ∃ l l', (sumsLinker.libraries ++ [scaledLibrary]).foldlM Linker.addLibrary {} = .ok l ∧
      ([scaledLibrary] ++ sumsLinker.libraries).foldlM Linker.addLibrary {} = .ok l' ∧
      l.libraryNames = ["Sums", "Scaled"] ∧
      (∃ s text, compile {} (callerOf (.call (some (.ident "Scaled")) "once"
        [⟨none, .literal (.int 1)⟩])) = .ok s ∧ l.link {} s = .ok text ∧
          l'.link {} s = .ok text) ∧
      ∃ s, compile {} (callerOf (.call none "once" [⟨none, .literal (.int 1)⟩])) = .ok s ∧
        l.link {} s = .error (.unresolved (.ambiguous ⟨"once", "once", 1⟩)) ∧
        l'.link {} s = .error (.unresolved (.ambiguous ⟨"once", "once", 1⟩)) := by
  have hrun : (do
      let l ← (sumsLinker.libraries ++ [scaledLibrary]).foldlM Linker.addLibrary {}
      let s ← compile {} (callerOf (.call (some (.ident "Scaled")) "once"
        [⟨none, .literal (.int 1)⟩]))
      let t ← compile {} (callerOf (.call none "once" [⟨none, .literal (.int 1)⟩]))
      let text ← l.link {} s
      return (l.libraryNames, l.link {} t)) =
        (.ok (["Sums", "Scaled"], .error (.unresolved (.ambiguous ⟨"once", "once", 1⟩))) :
          Except Diagnostic (List String × Except Diagnostic String)) := by
    decide +kernel
  obtain ⟨l, hl, hrun⟩ := exists_of_except_bind_ok hrun
  obtain ⟨s, hs, hrun⟩ := exists_of_except_bind_ok hrun
  obtain ⟨t, ht, hrun⟩ := exists_of_except_bind_ok hrun
  obtain ⟨text, htext, hrun⟩ := exists_of_except_bind_ok hrun
  obtain ⟨hnames, herror⟩ := Prod.mk.inj (Except.ok.inj hrun)
  obtain ⟨l', hl', hsame⟩ := Linker.link_eq_of_perm (List.perm_append_comm) hl
  refine ⟨l, l', hl, hl', hnames, ⟨s, text, hs, htext, ?_⟩, t, ht, herror, ?_⟩
  · rw [← htext]
    exact (hsame [] {} s).1
  · rw [← herror]
    exact (hsame [] {} t).1

end ShaderCompiler
