import Mathlib.Data.List.Induction
import Mathlib.Data.List.Nodup
import ShaderCompiler.Distinct
import ShaderCompiler.Proofs.Interface.CommentLines
import ShaderCompiler.Proofs.Interface.DebugComments

namespace ShaderCompiler

def isFirst (structs : List InterfaceStruct) (p : InterfaceStruct × Nat) : Bool :=
  (structs.take p.2).all (·.name != p.1.name)

def firstOfName (structs : List InterfaceStruct) : List InterfaceStruct :=
  (structs.zipIdx.filter (isFirst structs)).map Prod.fst

/-- Structs of one name are the same. -/
def Agreeing (structs : List InterfaceStruct) : Prop :=
  ∀ s ∈ structs, ∀ t ∈ structs, s.name = t.name → s = t

section First

variable {structs : List InterfaceStruct} {s : InterfaceStruct}

theorem firstOfName_sublist (structs : List InterfaceStruct) :
    (firstOfName structs).Sublist structs := by
  have h := (List.filter_sublist (l := structs.zipIdx) (p := isFirst structs)).map Prod.fst
  rwa [List.zipIdx_map_fst] at h

theorem isFirst_concat (s : InterfaceStruct) {p : InterfaceStruct × Nat}
    (h : p ∈ structs.zipIdx) : isFirst (structs ++ [s]) p = isFirst structs p := by
  have hlt := List.snd_lt_of_mem_zipIdx h
  rw [isFirst, isFirst, List.take_append_of_le_length (by omega)]

theorem isFirst_last :
    isFirst (structs ++ [s]) (s, structs.length) = true ↔ s.name ∉ structs.map (·.name) := by
  rw [isFirst, List.take_left, List.all_eq_true, List.mem_map]
  simp

theorem firstOfName_concat (structs : List InterfaceStruct) (s : InterfaceStruct) :
    firstOfName (structs ++ [s]) =
      firstOfName structs ++ if s.name ∈ structs.map (·.name) then [] else [s] := by
  rw [firstOfName, List.zipIdx_append, List.filter_append, List.map_append,
    List.filter_congr fun p hp => isFirst_concat s hp, List.zipIdx_singleton, Nat.zero_add]
  by_cases h : s.name ∈ structs.map (·.name)
  · rw [if_pos h, List.filter_cons_of_neg fun hfirst => isFirst_last.mp hfirst h]
    rfl
  · rw [if_neg h, List.filter_cons_of_pos (isFirst_last.mpr h)]
    rfl

theorem firstOfName_concat_of_mem (h : s.name ∈ structs.map (·.name)) :
    firstOfName (structs ++ [s]) = firstOfName structs := by
  rw [firstOfName_concat, if_pos h, List.append_nil]

theorem firstOfName_concat_of_notMem (h : s.name ∉ structs.map (·.name)) :
    firstOfName (structs ++ [s]) = firstOfName structs ++ [s] := by
  rw [firstOfName_concat, if_neg h]

theorem names_firstOfName (structs : List InterfaceStruct) :
    (firstOfName structs).map (·.name) = distinct (structs.map (·.name)) := by
  induction structs using List.reverseRecOn with
  | nil => rfl
  | append_singleton structs s ih =>
      have hadd : distinct ((structs ++ [s]).map (·.name)) =
          addNew (distinct (structs.map (·.name))) s.name := by
        rw [distinct, List.map_append, List.foldl_append]
        rfl
      rw [hadd, addNew, ← ih]
      by_cases h : s.name ∈ structs.map (·.name)
      · have hin : ((firstOfName structs).map (·.name)).contains s.name = true := by
          rw [ih, List.contains_iff_mem]
          exact mem_distinct.mpr h
        rw [firstOfName_concat_of_mem h, if_pos hin]
      · have hout : ¬ ((firstOfName structs).map (·.name)).contains s.name = true := by
          rw [ih, List.contains_iff_mem]
          exact fun hmem => h (mem_distinct.mp hmem)
        rw [firstOfName_concat_of_notMem h, if_neg hout, List.map_append]
        rfl

theorem nodup_names_firstOfName (structs : List InterfaceStruct) :
    ((firstOfName structs).map (·.name)).Nodup := by
  rw [names_firstOfName]
  exact nodup_distinct _

theorem Agreeing.mem_firstOfName (h : Agreeing structs) (hs : s ∈ structs) :
    s ∈ firstOfName structs := by
  have hname : s.name ∈ (firstOfName structs).map (·.name) := by
    rw [names_firstOfName]
    exact mem_distinct.mpr (List.mem_map_of_mem hs)
  obtain ⟨t, ht, hts⟩ := List.mem_map.mp hname
  have he : t = s := h t ((firstOfName_sublist structs).subset ht) s hs hts
  exact he ▸ ht

theorem firstOfName_of_nodup (h : (structs.map (·.name)).Nodup) :
    firstOfName structs = structs := by
  induction structs using List.reverseRecOn with
  | nil => rfl
  | append_singleton structs s ih =>
      rw [List.map_append, List.nodup_append] at h
      obtain ⟨hinit, -, hlast⟩ := h
      have hnew : s.name ∉ structs.map (·.name) :=
        fun hmem => hlast s.name hmem s.name (List.mem_singleton.mpr rfl) rfl
      rw [firstOfName_concat_of_notMem hnew, ih hinit]

theorem find?_firstOfName_eq_none :
    (firstOfName structs).find? (·.name == s.name) = none ↔ s.name ∉ structs.map (·.name) := by
  have hmem : s.name ∈ (firstOfName structs).map (·.name) ↔ s.name ∈ structs.map (·.name) := by
    rw [names_firstOfName]
    exact mem_distinct
  rw [List.find?_eq_none, ← hmem, List.mem_map]
  simp

end First

section Scan

variable {before : List InterfaceStruct}

theorem Agreeing.concat {s : InterfaceStruct} (h : Agreeing before)
    (hs : ∀ t ∈ before, t.name = s.name → t = s) : Agreeing (before ++ [s]) := by
  intro a ha b hb hab
  rcases List.mem_append.mp ha with hbefore | hlast
  · rcases List.mem_append.mp hb with hbefore' | hlast
    · exact h a hbefore b hbefore' hab
    · obtain rfl := List.mem_singleton.mp hlast
      exact hs a hbefore hab
  · obtain rfl := List.mem_singleton.mp hlast
    rcases List.mem_append.mp hb with hbefore | hlast
    · exact (hs b hbefore hab.symm).symm
    · exact (List.mem_singleton.mp hlast).symm

/-- Two structs of one name that differ, and the fault that reports them. -/
def Conflict (structs : List InterfaceStruct) (e : Diagnostic) : Prop :=
  ∃ s ∈ structs, ∃ t ∈ structs, s.name = t.name ∧ s ≠ t ∧
    e = .interfaceBlock (.conflictingStructs s.name)

/-- The kept structs are at each step the first ones of those that were scanned. -/
theorem keepStructs_firstOfName (h : Agreeing before) (rest : List InterfaceStruct) :
    (Agreeing (before ++ rest) ∧
      keepStructs (firstOfName before) rest = .ok (firstOfName (before ++ rest))) ∨
    ∃ e, Conflict (before ++ rest) e ∧ keepStructs (firstOfName before) rest = .error e := by
  induction rest generalizing before with
  | nil =>
      rw [List.append_nil]
      exact Or.inl ⟨h, rfl⟩
  | cons s rest ih =>
      have hcons : before ++ s :: rest = (before ++ [s]) ++ rest := by simp
      rw [keepStructs]
      cases hfind : (firstOfName before).find? (·.name == s.name) with
      | none =>
          have hnew := find?_firstOfName_eq_none.mp hfind
          have hnext : Agreeing (before ++ [s]) := by
            apply h.concat
            intro t ht hts
            exact absurd (List.mem_map.mpr ⟨t, ht, hts⟩) hnew
          show _ ∧ keepStructs (firstOfName before ++ [s]) rest = _ ∨ _
          rw [hcons, ← firstOfName_concat_of_notMem hnew]
          exact ih hnext
      | some k =>
          have hk : k ∈ before :=
            (firstOfName_sublist before).subset (List.mem_of_find?_eq_some hfind)
          have hname : k.name = s.name := by simpa using List.find?_some hfind
          dsimp only
          by_cases he : k = s
          · subst he
            have hnext : Agreeing (before ++ [k]) :=
              h.concat fun t ht htk => h t ht k hk htk
            rw [if_pos rfl, hcons, ← firstOfName_concat_of_mem (List.mem_map_of_mem hk)]
            exact ih hnext
          · rw [if_neg he]
            refine Or.inr ⟨_, ⟨s, by simp, k, by simp [hk], hname.symm, Ne.symm he, rfl⟩, rfl⟩

theorem distinctStructs_cases (structs : List InterfaceStruct) :
    (Agreeing structs ∧ distinctStructs structs = .ok (firstOfName structs)) ∨
      ∃ e, Conflict structs e ∧ distinctStructs structs = .error e := by
  have hnone : Agreeing [] := by simp [Agreeing]
  exact keepStructs_firstOfName hnone structs

theorem agreeing_of_distinctStructs {structs kept : List InterfaceStruct}
    (h : distinctStructs structs = .ok kept) : Agreeing structs ∧ kept = firstOfName structs := by
  rcases distinctStructs_cases structs with ⟨hagree, hok⟩ | ⟨e, -, herror⟩
  · rw [hok] at h
    exact ⟨hagree, (Except.ok.inj h).symm⟩
  · rw [herror] at h
    cases h

theorem conflict_of_distinctStructs {structs : List InterfaceStruct} {e : Diagnostic}
    (h : distinctStructs structs = .error e) : Conflict structs e := by
  rcases distinctStructs_cases structs with ⟨-, hok⟩ | ⟨e', hconflict, herror⟩
  · rw [hok] at h
    cases h
  · rw [herror] at h
    cases h
    exact hconflict

end Scan

def sectionsAbove (header : Header) (i : Interface) : List String :=
  (["#version " ++ header.version ++ "\n", String.join (header.extensions.map extensionLine),
    header.stageLayout.text, variableLines i.constants].filter (· ≠ "")).map terminated

def sectionsBelow (i : Interface) : List String :=
  ([variableLines i.uniforms, variableLines i.inputs, variableLines i.outputs,
    variableLines i.globals].filter (· ≠ "")).map terminated

theorem getLast?_text (indent : String) (s : InterfaceStruct) :
    (s.text indent).toList.getLast? = some '\n' := by
  rw [InterfaceStruct.text, InterfaceStruct.closing_eq]
  simp

theorem text_ne_empty (indent : String) (s : InterfaceStruct) : s.text indent ≠ "" := by
  intro h
  have hlast := getLast?_text indent s
  rw [h] at hlast
  cases hlast

theorem declaredText_eq (header : Header) (i : Interface) (indent : String)
    (structs : List InterfaceStruct) : declaredText header i indent structs =
      String.intercalate "\n"
        (sectionsAbove header i ++ structs.map (·.text indent) ++ sectionsBelow i) := by
  have hkept : (structs.map (·.text indent)).filter (· ≠ "") = structs.map (·.text indent) := by
    apply List.filter_eq_self.mpr
    intro text htext
    obtain ⟨s, -, rfl⟩ := List.mem_map.mp htext
    simpa using text_ne_empty indent s
  have hends : (structs.map (·.text indent)).map terminated = structs.map (·.text indent) := by
    rw [List.map_map]
    apply List.map_congr_left
    intro s _
    exact if_pos (getLast?_text indent s)
  rw [declaredText, renderSections, List.filter_append, List.filter_append, List.map_append,
    List.map_append, hkept, hends]
  rfl

/-- What is kept of a list of structs. -/
structure KeptOnce (structs kept : List InterfaceStruct) : Prop where
  first : kept = firstOfName structs
  sublist : kept.Sublist structs
  nodup : (kept.map (·.name)).Nodup
  order : kept.map (·.name) = distinct (structs.map (·.name))
  complete : ∀ s ∈ structs, s ∈ kept
  unique : ∀ s ∈ structs, kept.filter (·.name == s.name) = [s]
  again : distinctStructs kept = .ok kept

theorem filter_name_eq_singleton {kept : List InterfaceStruct} {s : InterfaceStruct}
    (hnodup : (kept.map (·.name)).Nodup) (hs : s ∈ kept) :
    kept.filter (·.name == s.name) = [s] := by
  induction kept with
  | nil => cases hs
  | cons t kept ih =>
      obtain ⟨hnew, hrest⟩ := List.nodup_cons.mp hnodup
      rcases List.mem_cons.mp hs with rfl | hs
      · have hnone : kept.filter (·.name == s.name) = [] := by
          apply List.filter_eq_nil_iff.mpr
          intro u hu hname
          exact hnew (List.mem_map.mpr ⟨u, hu, beq_iff_eq.mp hname⟩)
        rw [List.filter_cons, if_pos (beq_self_eq_true s.name), hnone]
      · have hne : ¬ (t.name == s.name) = true := by
          intro hname
          exact hnew (List.mem_map.mpr ⟨s, hs, (beq_iff_eq.mp hname).symm⟩)
        rw [List.filter_cons, if_neg hne, ih hrest hs]

theorem keptOnce_firstOfName {structs : List InterfaceStruct} (h : Agreeing structs) :
    KeptOnce structs (firstOfName structs) where
  first := rfl
  sublist := firstOfName_sublist structs
  nodup := nodup_names_firstOfName structs
  order := names_firstOfName structs
  complete _ hs := h.mem_firstOfName hs
  unique s hs := filter_name_eq_singleton (nodup_names_firstOfName structs) (h.mem_firstOfName hs)
  again := by
    have hnodup := nodup_names_firstOfName structs
    cases hagain : distinctStructs (firstOfName structs) with
    | ok kept => rw [(agreeing_of_distinctStructs hagain).2, firstOfName_of_nodup hnodup]
    | error e =>
        obtain ⟨s, hs, t, ht, hname, hne, -⟩ := conflict_of_distinctStructs hagain
        exact absurd (List.inj_on_of_nodup_map hnodup hs ht hname) hne

/-- Structs are refused exactly if two of one name differ. Otherwise the first of each name is kept,
and the declarations are the definitions of those with the other sections around them. -/
theorem structs_declared_once (structs : List InterfaceStruct) :
    ((∃ e, distinctStructs structs = .error e) ↔
      ∃ s ∈ structs, ∃ t ∈ structs, s.name = t.name ∧ s ≠ t) ∧
    (∀ e, distinctStructs structs = .error e → Conflict structs e) ∧
    ∀ kept, distinctStructs structs = .ok kept → KeptOnce structs kept ∧
      ∀ (header : Header) (i : Interface) (indent : String),
        declarations header { i with structs } indent = .ok (String.intercalate "\n"
          (sectionsAbove header i ++ kept.map (·.text indent) ++ sectionsBelow i)) := by
  refine ⟨⟨?_, ?_⟩, fun e => conflict_of_distinctStructs, fun kept hkept => ?_⟩
  · rintro ⟨e, he⟩
    obtain ⟨s, hs, t, ht, hname, hne, -⟩ := conflict_of_distinctStructs he
    exact ⟨s, hs, t, ht, hname, hne⟩
  · rintro ⟨s, hs, t, ht, hname, hne⟩
    cases hkept : distinctStructs structs with
    | error e => exact ⟨e, rfl⟩
    | ok kept => exact absurd ((agreeing_of_distinctStructs hkept).1 s hs t ht hname) hne
  · obtain ⟨hagree, rfl⟩ := agreeing_of_distinctStructs hkept
    refine ⟨keptOnce_firstOfName hagree, fun header i indent => ?_⟩
    rw [declarations_eq, hkept]
    exact congrArg Except.ok (declaredText_eq header _ indent _)

def lightStruct : InterfaceStruct where
  name := "Light"
  block := none
  instanceName := none
  members := [{ type := "vec3", name := "colour" }]

def cameraBlock : InterfaceStruct where
  name := "Camera"
  block := some .uniform
  instanceName := some "camera"
  members := [{ type := "mat4", name := "view" }]

/-- A struct that comes twice with a block between is declared once, and one that comes a second
time with other members is refused. -/
theorem lightStruct_declared_once :
    distinctStructs [lightStruct, cameraBlock, lightStruct] = .ok [lightStruct, cameraBlock] ∧
    KeptOnce [lightStruct, cameraBlock, lightStruct] [lightStruct, cameraBlock] ∧
    declarations ⟨"S", .vertex, "450", false, [], .none⟩
        { structs := [lightStruct, cameraBlock, lightStruct] } "  " =
      .ok ("#version 450\n\n" ++ "struct Light \x7b\n  vec3 colour;\n\x7d;\n\n" ++
        "uniform Camera \x7b\n  mat4 view;\n\x7d camera;\n") ∧
    ∃ e, distinctStructs [lightStruct, cameraBlock, { lightStruct with members := [] }] =
      .error e := by
  have hkept : distinctStructs [lightStruct, cameraBlock, lightStruct] =
      .ok [lightStruct, cameraBlock] := rfl
  obtain ⟨honce, htext⟩ := (structs_declared_once _).2.2 _ hkept
  refine ⟨hkept, honce, htext _ {} _, (structs_declared_once _).1.mpr ?_⟩
  exact ⟨lightStruct, by simp, { lightStruct with members := [] }, by simp, rfl, by decide⟩

end ShaderCompiler
