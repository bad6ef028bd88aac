import ShaderCompiler.Proofs.Association
import ShaderCompiler.Proofs.Interface.Annotated

namespace ShaderCompiler

structure Declares (field : FieldDecl) (v : Variable) : Prop where
  name : v.name = field.name
  isConst : v.isConst = field.isConst
  layout : v.layout = layoutOf field.attributes
  sized_iff : v.arraySize.isSome = true ↔ field.type.array = true

section

variable {rules : InterfaceRules} {field : FieldDecl} {notes : Annotations} {owner : String}
  {v : Variable}

theorem fieldSize_isSome {size : Option String} (h : fieldSize field notes owner = .ok size) :
    size.isSome = true ↔ field.type.array = true := by
  unfold fieldSize at h
  split at h
  · next harray _ =>
      cases h
      simp [harray]
  · next harray _ =>
      split at h
      · cases h
        simp [harray]
      · cases h
  · cases h
  · next harray _ =>
      cases h
      simp [harray]

theorem bareVariable_eq_ok (h : bareVariable rules field notes owner = .ok v) :
    rules.context.resolveType field.type.name = .ok v.type ∧
      fieldSize field notes owner = .ok v.arraySize ∧
      v = { type := v.type, name := field.name, arraySize := v.arraySize, layout := notes.layout,
            comment := notes.comment, debugComment := if rules.debug then some owner else none,
            isConst := field.isConst } := by
  unfold bareVariable at h
  obtain ⟨-, h⟩ := of_guard_ok h
  obtain ⟨type, htype, h⟩ := exists_of_except_bind_ok h
  obtain ⟨size, hsize, h⟩ := exists_of_except_bind_ok h
  cases h
  exact ⟨htype, hsize, rfl⟩

theorem initializedVariable_eq_ok (h : initializedVariable rules field notes owner = .ok v) :
    ∃ v₀ init, bareVariable rules field notes owner = .ok v₀ ∧
      initialValue rules.context field owner = .ok init ∧ v = { v₀ with initializer := init } := by
  obtain ⟨v₀, hv, h⟩ := exists_of_except_bind_ok h
  obtain ⟨init, hinit, h⟩ := exists_of_except_bind_ok h
  cases h
  exact ⟨v₀, init, hv, hinit, rfl⟩

theorem exchanged_eq_ok {q : Qualifier} {role : LayoutRole}
    (h : exchanged rules field notes owner q role = .ok v) :
    notes.layout.check rules.stage role owner false = .ok () ∧ field.init = none ∧
      (facesOutside rules.stage q = true → rules.requireLocations = true →
        notes.layout.has "location" = true) ∧
      ∃ v₀, bareVariable rules field notes owner = .ok v₀ ∧
        v = { v₀ with qualifier := some q } := by
  obtain ⟨⟨⟩, hcheck, h⟩ := exists_of_except_bind_ok h
  obtain ⟨hinit, h⟩ := of_guard_ok h
  obtain ⟨hlocated, h⟩ := of_guard_ok h
  obtain ⟨v₀, hv, h⟩ := exists_of_except_bind_ok h
  cases h
  refine ⟨hcheck, Option.not_isSome_iff_eq_none.mp hinit, ?_, v₀, hv, rfl⟩
  intro hfaces hrequired
  simpa [hfaces, hrequired] using hlocated

theorem declares_of_bareVariable (hnotes : notes.Reads field.attributes)
    (h : bareVariable rules field notes owner = .ok v) (q : Option Qualifier)
    (init : Option String) : Declares field { v with qualifier := q, initializer := init } := by
  obtain ⟨-, hsize, hv⟩ := bareVariable_eq_ok h
  rw [hv]
  exact ⟨rfl, rfl, hnotes.layout, fieldSize_isSome hsize⟩

theorem qualifier_of_bareVariable (h : bareVariable rules field notes owner = .ok v) :
    v.qualifier = none := by
  rw [(bareVariable_eq_ok h).2.2]

end

section

variable (rules : InterfaceRules) (field : FieldDecl) (notes : Annotations) (owner : String)

/-- What reading a field comes to. -/
inductive FieldRead : Option (Section × Variable) → Prop
  | constant {v : Variable} {init : Option String} (hc : field.isConst = true)
      (hr : notes.qualifiers = []) (hl : notes.layout.isEmpty = true)
      (hv : bareVariable rules field notes owner = .ok v)
      (hinit : initialValue rules.context field owner = .ok init) :
      FieldRead (some (.constants, { v with initializer := init }))
  | global {v : Variable} {init : Option String} (hc : field.isConst = false)
      (hr : notes.qualifiers = []) (hl : notes.layout.isEmpty = true)
      (hv : bareVariable rules field notes owner = .ok v)
      (hinit : initialValue rules.context field owner = .ok init) :
      FieldRead (some (.globals, { v with initializer := init }))
  | uniform {v : Variable} {init : Option String} (hc : field.isConst = false)
      (hr : notes.qualifiers = [.uniform])
      (hl : notes.layout.check rules.stage .uniform owner false = .ok ())
      (hv : bareVariable rules field notes owner = .ok v)
      (hinit : initialValue rules.context field owner = .ok init) :
      FieldRead (some (.uniforms, { v with qualifier := some .uniform, initializer := init }))
  | input {v : Variable} (hc : field.isConst = false) (hr : notes.qualifiers = [.input])
      (hl : notes.layout.check rules.stage .input owner false = .ok ())
      (hv : bareVariable rules field notes owner = .ok v) (hinit : field.init = none)
      (hlocated : facesOutside rules.stage .input = true → rules.requireLocations = true →
        notes.layout.has "location" = true) :
      FieldRead (some (.inputs, { v with qualifier := some .input }))
  | output {v : Variable} (hc : field.isConst = false) (hr : notes.qualifiers = [.output])
      (hl : notes.layout.check rules.stage .output owner false = .ok ())
      (hv : bareVariable rules field notes owner = .ok v) (hinit : field.init = none)
      (hlocated : facesOutside rules.stage .output = true → rules.requireLocations = true →
        notes.layout.has "location" = true) :
      FieldRead (some (.outputs, { v with qualifier := some .output }))
  | builtIn {v : Variable} (hc : field.isConst = false) (hr : notes.qualifiers = [.builtIn])
      (hl : notes.layout.check rules.stage .input owner (field.name == "gl_FragCoord") = .ok ())
      (hv : bareVariable rules field notes owner = .ok v) :
      FieldRead (some (.inputs, { v with qualifier := some .builtIn }))
  | named (hc : field.isConst = false) (hr : notes.qualifiers = [.builtIn])
      (hl : notes.layout.isEmpty = true) : FieldRead none

variable {rules field notes owner} in
theorem FieldRead.declared {s : Section} {v : Variable}
    (h : FieldRead rules field notes owner (some (s, v))) :
    rules.context.resolveType field.type.name = .ok v.type ∧
      fieldSize field notes owner = .ok v.arraySize := by
  cases h with
  | constant _ _ _ hv | global _ _ _ hv | uniform _ _ _ hv | input _ _ _ hv | output _ _ _ hv
  | builtIn _ _ _ hv =>
      obtain ⟨htype, hsize, -⟩ := bareVariable_eq_ok hv
      exact ⟨htype, hsize⟩

variable {rules field}

theorem fieldRead_of_fieldEntry {entry : Option (Section × Variable)}
    (h : fieldEntry rules field = .ok entry) :
    ∃ notes owner, notes.Reads field.attributes ∧ FieldRead rules field notes owner entry := by
  obtain ⟨notes, hcollect, h⟩ := exists_of_except_bind_ok h
  refine ⟨notes, rules.context.className ++ "." ++ field.name,
    (Annotations.reads_of_collect (mapError_eq_ok hcollect)).1, ?_⟩
  obtain ⟨hmany, h⟩ := of_guard_ok h
  have hsingle : ∀ q, notes.qualifiers.head? = some q → notes.qualifiers = [q] := by
    intro q hq
    rw [eq_toList_head? hmany, hq]
    rfl
  dsimp only at h
  split at h
  · next hconst =>
      obtain ⟨hplain, h⟩ := of_guard_ok h
      obtain ⟨v, hv, h⟩ := exists_of_except_bind_ok h
      cases h
      obtain ⟨v₀, init, hbare, hinit, rfl⟩ := initializedVariable_eq_ok hv
      have hplain : notes.qualifiers = [] ∧ notes.layout.isEmpty = true := by simpa using hplain
      exact .constant hconst hplain.1 hplain.2 hbare hinit
  · next hconst =>
      have hc : field.isConst = false := by simpa using hconst
      split at h
      · next hq =>
          obtain ⟨⟨⟩, hl, h⟩ := exists_of_except_bind_ok h
          obtain ⟨v, hv, h⟩ := exists_of_except_bind_ok h
          cases h
          obtain ⟨v₀, init, hbare, hinit, rfl⟩ := initializedVariable_eq_ok hv
          exact .uniform (v := v₀) hc (hsingle _ hq) hl hbare hinit
      · next hq =>
          obtain ⟨v, hv, h⟩ := exists_of_except_bind_ok h
          cases h
          obtain ⟨hl, hinit, hlocated, v₀, hbare, rfl⟩ := exchanged_eq_ok hv
          exact .input hc (hsingle _ hq) hl hbare hinit hlocated
      · next hq =>
          obtain ⟨v, hv, h⟩ := exists_of_except_bind_ok h
          cases h
          obtain ⟨hl, hinit, hlocated, v₀, hbare, rfl⟩ := exchanged_eq_ok hv
          exact .output hc (hsingle _ hq) hl hbare hinit hlocated
      · next hq =>
          split at h
          · next hl =>
              cases h
              exact .named hc (hsingle _ hq) hl
          · obtain ⟨⟨⟩, hl, h⟩ := exists_of_except_bind_ok h
            obtain ⟨v, hv, h⟩ := exists_of_except_bind_ok h
            cases h
            exact .builtIn hc (hsingle _ hq) hl hv
      · next hq =>
          obtain ⟨hl, h⟩ := of_guard_ok h
          obtain ⟨v, hv, h⟩ := exists_of_except_bind_ok h
          cases h
          obtain ⟨v₀, init, hbare, hinit, rfl⟩ := initializedVariable_eq_ok hv
          exact .global hc (List.head?_eq_none_iff.mp hq) (by simpa using hl) hbare hinit

end

/-- A field and its entry in the interface, by what is declared. -/
inductive LegalField (stage : Stage) (requireLocations : Bool) (field : FieldDecl) :
    Option (Section × Variable) → Prop
  | constant {v : Variable} (hc : field.isConst = true) (hr : rolesOf field.attributes = [])
      (hd : Declares field v) (hq : v.qualifier = none) (hl : v.layout.params = []) :
      LegalField stage requireLocations field (some (.constants, v))
  | global {v : Variable} (hc : field.isConst = false) (hr : rolesOf field.attributes = [])
      (hd : Declares field v) (hq : v.qualifier = none) (hl : v.layout.params = []) :
      LegalField stage requireLocations field (some (.globals, v))
  | uniform {v : Variable} (hc : field.isConst = false)
      (hr : rolesOf field.attributes = [.uniform]) (hd : Declares field v)
      (hq : v.qualifier = some .uniform) (hl : v.layout.IsLegal stage .uniform) :
      LegalField stage requireLocations field (some (.uniforms, v))
  | input {v : Variable} (hc : field.isConst = false) (hr : rolesOf field.attributes = [.input])
      (hd : Declares field v) (hq : v.qualifier = some .input)
      (hl : v.layout.IsLegal stage .input)
      (hk : ∀ p ∈ v.layout.params, p.key ∉ LayoutParam.fragCoordKeys)
      (hlocated : stage = .vertex → requireLocations = true → v.layout.has "location" = true) :
      LegalField stage requireLocations field (some (.inputs, v))
  | output {v : Variable} (hc : field.isConst = false)
      (hr : rolesOf field.attributes = [.output]) (hd : Declares field v)
      (hq : v.qualifier = some .output) (hl : v.layout.IsLegal stage .output)
      (hlocated : stage = .fragment → requireLocations = true →
        v.layout.has "location" = true) :
      LegalField stage requireLocations field (some (.outputs, v))
  | builtIn {v : Variable} (hc : field.isConst = false)
      (hr : rolesOf field.attributes = [.builtIn]) (hd : Declares field v)
      (hq : v.qualifier = some .builtIn) (hl : v.layout.IsLegal stage .input)
      (hk : ∀ p ∈ v.layout.params, p.key ∈ LayoutParam.fragCoordKeys → v.name = "gl_FragCoord") :
      LegalField stage requireLocations field (some (.inputs, v))
  | named (hc : field.isConst = false) (hr : rolesOf field.attributes = [.builtIn])
      (hl : (layoutOf field.attributes).params = []) : LegalField stage requireLocations field none

theorem legalField_of_fieldEntry {rules : InterfaceRules} {field : FieldDecl}
    {entry : Option (Section × Variable)} (h : fieldEntry rules field = .ok entry) :
    LegalField rules.stage rules.requireLocations field entry := by
  obtain ⟨notes, owner, hnotes, hread⟩ := fieldRead_of_fieldEntry h
  have hroles := hnotes.qualifiers
  have hempty (h : notes.layout.isEmpty = true) : (layoutOf field.attributes).params = [] := by
    rw [← hnotes.layout]
    exact List.isEmpty_iff.mp h
  cases hread with
  | @constant v init hc hr hl hv =>
      have hd := declares_of_bareVariable hnotes hv v.qualifier init
      have hq := qualifier_of_bareVariable hv
      exact .constant hc (hroles ▸ hr) hd hq (hd.layout ▸ hempty hl)
  | @global v init hc hr hl hv =>
      have hd := declares_of_bareVariable hnotes hv v.qualifier init
      have hq := qualifier_of_bareVariable hv
      exact .global hc (hroles ▸ hr) hd hq (hd.layout ▸ hempty hl)
  | @uniform v init hc hr hl hv =>
      have hd := declares_of_bareVariable hnotes hv (some .uniform) init
      rw [hnotes.layout, ← hd.layout] at hl
      exact .uniform hc (hroles ▸ hr) hd rfl (Layout.of_check hl).1
  | @input v hc hr hl hv hinit hlocated =>
      have hd := declares_of_bareVariable hnotes hv (some .input) v.initializer
      rw [hnotes.layout, ← hd.layout] at hl hlocated
      obtain ⟨hlegal, hkeys⟩ := Layout.of_check hl
      refine .input hc (hroles ▸ hr) hd rfl hlegal (fun p hp hk => ?_) fun hs => hlocated ?_
      · exact absurd (hkeys p hp hk) (by decide)
      · rw [hs]
        rfl
  | @output v hc hr hl hv hinit hlocated =>
      have hd := declares_of_bareVariable hnotes hv (some .output) v.initializer
      rw [hnotes.layout, ← hd.layout] at hl hlocated
      refine .output hc (hroles ▸ hr) hd rfl (Layout.of_check hl).1 fun hs => hlocated ?_
      rw [hs]
      rfl
  | @builtIn v hc hr hl hv =>
      have hd := declares_of_bareVariable hnotes hv (some .builtIn) v.initializer
      rw [hnotes.layout, ← hd.layout] at hl
      obtain ⟨hlegal, hkeys⟩ := Layout.of_check hl
      refine .builtIn hc (hroles ▸ hr) hd rfl hlegal fun p hp hk => ?_
      exact hd.name.trans (by simpa using hkeys p hp hk)
  | named hc hr hl => exact .named hc (hroles ▸ hr) (hempty hl)

/-- A member of a struct: it repeats the role of its block or has none. -/
structure LegalMember (block : Option Qualifier) (field : FieldDecl) (v : Variable) : Prop where
  declares : Declares field v
  role : ∀ q ∈ rolesOf field.attributes, block = some q
  qualifier : v.qualifier = none
  layout : v.layout.params = []

theorem legalMember_of_memberVariable {rules : InterfaceRules} {block : Option Qualifier}
    {structOwner : String} {field : FieldDecl} {v : Variable}
    (h : memberVariable rules block structOwner field = .ok v) : LegalMember block field v := by
  obtain ⟨notes, hcollect, h⟩ := exists_of_except_bind_ok h
  obtain ⟨hnotes, hallowed⟩ := Annotations.reads_of_collect (mapError_eq_ok hcollect)
  dsimp only at h
  split at h
  · cases h
  · cases h
  · next hfind =>
      obtain ⟨-, h⟩ := of_guard_ok h
      have hd := declares_of_bareVariable hnotes h v.qualifier v.initializer
      refine ⟨hd, ?_, qualifier_of_bareVariable h, ?_⟩
      · intro q hmem
        rw [← hnotes.qualifiers] at hmem
        simpa using List.find?_eq_none.mp hfind q hmem
      · have hnone : field.attributes.filter (·.name == "Layout") = [] := by
          apply List.filter_eq_nil_iff.mpr
          intro a ha hname
          have hin := hallowed a ha
          rw [beq_iff_eq.mp hname] at hin
          revert hin
          decide
        rw [hd.layout, layoutOf, hnone]
        rfl

structure LegalStruct (stage : Stage) (decl : StructDecl) (s : InterfaceStruct) : Prop where
  name : s.name = decl.name
  layout : s.layout = layoutOf decl.attributes
  role : rolesOf decl.attributes = s.block.toList
  not_builtIn : s.block ≠ some .builtIn
  inside : ∀ q ∈ s.block, facesOutside stage q = false
  legal : ∀ q ∈ s.block, s.layout.IsLegal stage (blockRole q)
  plain : s.block = none → s.layout.params = [] ∧ instanceNameOf? decl.attributes = none
  instance_iff : s.instanceName.isSome = true ↔ s.block.isSome = true
  members : List.Forall₂ (LegalMember s.block) decl.fields s.members

theorem legalStruct_of_structEntry {rules : InterfaceRules} {decl : StructDecl}
    {s : InterfaceStruct} (h : structEntry rules decl = .ok s) : LegalStruct rules.stage decl s := by
  obtain ⟨notes, hcollect, h⟩ := exists_of_except_bind_ok h
  obtain ⟨hnotes, hallowed⟩ := Annotations.reads_of_collect (mapError_eq_ok hcollect)
  obtain ⟨hmany, h⟩ := of_guard_ok h
  have hrole : rolesOf decl.attributes = notes.qualifiers.head?.toList := by
    rw [← hnotes.qualifiers]
    exact eq_toList_head? hmany
  have hbuiltIn : notes.qualifiers.head? ≠ some .builtIn := by
    intro hq
    have hmem : Qualifier.builtIn ∈ rolesOf decl.attributes := by simp [hrole, hq]
    obtain ⟨a, ha, hname⟩ := List.mem_filterMap.mp hmem
    have hin := hallowed a ha
    rw [← Qualifier.attributeName_of_ofAttribute? hname] at hin
    revert hin
    decide
  cases hblock : notes.qualifiers.head? with
  | none =>
      rw [hblock] at h hrole
      obtain ⟨hplain, h⟩ := of_guard_ok h
      obtain ⟨members, hmembers, h⟩ := exists_of_except_bind_ok h
      cases h
      refine ⟨rfl, hnotes.layout, hrole, nofun, nofun, nofun, fun _ => ?_, by simp, ?_⟩
      · rw [← hnotes.instanceName]
        simpa [Layout.isEmpty] using hplain
      · exact (mapM_eq_ok_iff.mp hmembers).imp fun _ _ => legalMember_of_memberVariable
  | some q =>
      rw [hblock] at h hrole hbuiltIn
      obtain ⟨hfaces, h⟩ := of_guard_ok h
      obtain ⟨⟨⟩, hcheck, h⟩ := exists_of_except_bind_ok h
      obtain ⟨members, hmembers, h⟩ := exists_of_except_bind_ok h
      cases h
      refine ⟨rfl, hnotes.layout, hrole, hbuiltIn, ?_, ?_, nofun, by simp, ?_⟩
      · rintro _ ⟨⟩
        simpa using hfaces
      · rintro _ ⟨⟩
        exact (Layout.of_check hcheck).1
      · exact (mapM_eq_ok_iff.mp hmembers).imp fun _ _ => legalMember_of_memberVariable

/-- The interface is legal for the stage, declaration by declaration and as a whole. -/
structure Interface.WellFormed (stage : Stage) (requireLocations : Bool) (c : ClassDecl)
    (i : Interface) : Prop where
  structs : List.Forall₂ (LegalStruct stage) c.structs i.structs
  fields : ∃ entries, List.Forall₂ (LegalField stage requireLocations) c.fields entries ∧
    i = .ofEntries i.structs (entries.filterMap id)
  uniforms : ∀ v ∈ i.uniforms, v.layout.IsLegal stage .uniform
  inputs : ∀ v ∈ i.inputs, v.layout.IsLegal stage .input
  outputs : ∀ v ∈ i.outputs, v.layout.IsLegal stage .output
  fragCoord : ∀ v ∈ i.uniforms ++ i.inputs ++ i.outputs, ∀ p ∈ v.layout.params,
    p.key ∈ LayoutParam.fragCoordKeys →
      stage = .fragment ∧ v.qualifier = some .builtIn ∧ v.name = "gl_FragCoord"
  blocks : ∀ s ∈ i.structs, ∀ p ∈ s.layout.params, p.key ∉ LayoutParam.fragCoordKeys
  bare : ∀ v ∈ i.constants ++ i.globals, v.qualifier = none ∧ v.layout.params = []

section

variable {stage : Stage} {requireLocations : Bool} {c : ClassDecl}
  {entries : List (Option (Section × Variable))}

theorem exists_legalField (h : List.Forall₂ (LegalField stage requireLocations) c.fields entries)
    {s : Section} {v : Variable} (hv : v ∈ variablesIn s (entries.filterMap id)) :
    ∃ field ∈ c.fields, LegalField stage requireLocations field (some (s, v)) := by
  obtain ⟨⟨s', v'⟩, hmem, rfl⟩ := List.mem_map.mp hv
  obtain ⟨hmem, hs⟩ := List.mem_filter.mp hmem
  obtain ⟨entry, hentry, he⟩ := List.mem_filterMap.mp hmem
  obtain rfl : s' = s := by simpa using hs
  obtain rfl : entry = some (s', v') := he
  exact exists_mem_of_forall₂ h.flip hentry

theorem wellFormed_ofEntries {structs : List InterfaceStruct}
    (hstructs : List.Forall₂ (LegalStruct stage) c.structs structs)
    (hfields : List.Forall₂ (LegalField stage requireLocations) c.fields entries) :
    (Interface.ofEntries structs (entries.filterMap id)).WellFormed stage requireLocations c where
  structs := hstructs
  fields := ⟨entries, hfields, rfl⟩
  uniforms := by
    intro v hv
    obtain ⟨field, -, hlegal⟩ := exists_legalField hfields hv
    cases hlegal with
    | uniform _ _ _ _ hl => exact hl
  inputs := by
    intro v hv
    obtain ⟨field, -, hlegal⟩ := exists_legalField hfields hv
    cases hlegal with
    | input _ _ _ _ hl _ _ => exact hl
    | builtIn _ _ _ _ hl _ => exact hl
  outputs := by
    intro v hv
    obtain ⟨field, -, hlegal⟩ := exists_legalField hfields hv
    cases hlegal with
    | output _ _ _ _ hl _ => exact hl
  fragCoord := by
    intro v hv p hp hk
    rcases List.mem_append.mp hv with hv | hv
    · rcases List.mem_append.mp hv with hv | hv
      · obtain ⟨field, -, hlegal⟩ := exists_legalField hfields hv
        cases hlegal with
        | uniform _ _ _ _ hl => cases (fragment_of_fragCoordKeys (hl p hp).key hk).2
      · obtain ⟨field, -, hlegal⟩ := exists_legalField hfields hv
        cases hlegal with
        | input _ _ _ _ _ hn _ => exact absurd hk (hn p hp)
        | builtIn _ _ _ hq hl hn =>
            exact ⟨(fragment_of_fragCoordKeys (hl p hp).key hk).1, hq, hn p hp hk⟩
    · obtain ⟨field, -, hlegal⟩ := exists_legalField hfields hv
      cases hlegal with
      | output _ _ _ _ hl _ => cases (fragment_of_fragCoordKeys (hl p hp).key hk).2
  blocks := by
    intro s hs p hp hk
    obtain ⟨decl, -, hlegal⟩ := exists_mem_of_forall₂ hstructs.flip hs
    cases hblock : s.block with
    | none =>
        rw [(hlegal.plain hblock).1] at hp
        cases hp
    | some q =>
        have hrole := (fragment_of_fragCoordKeys (hlegal.legal q hblock p hp).key hk).2
        cases q <;> cases hrole
  bare := by
    intro v hv
    rcases List.mem_append.mp hv with hv | hv
    · obtain ⟨field, -, hlegal⟩ := exists_legalField hfields hv
      cases hlegal with
      | constant _ _ _ hq hl => exact ⟨hq, hl⟩
    · obtain ⟨field, -, hlegal⟩ := exists_legalField hfields hv
      cases hlegal with
      | global _ _ _ hq hl => exact ⟨hq, hl⟩

end

def Reflection.rules (settings : Settings) (ctx : ClassContext) (stage : Stage) (r : Reflection) :
    InterfaceRules where
  context := ctx
  stage := stage
  debug := r.header.debug
  requireLocations := settings.requireLocations

/-- How a class is read: its header, and under one set of rules each struct and each field. -/
structure ReflectsTo (settings : Settings) (ctx : ClassContext) (c : ClassDecl) (stage : Stage)
    (entries : List (Option (Section × Variable))) (r : Reflection) : Prop where
  staged : c.stage? = some stage
  header : Header.ofClass settings stage c = .ok r.header
  structs : List.Forall₂ (fun decl s => structEntry (r.rules settings ctx stage) decl = .ok s)
    c.structs r.interface.structs
  fields : List.Forall₂ (fun field entry => fieldEntry (r.rules settings ctx stage) field = .ok entry)
    c.fields entries
  interface : r.interface = .ofEntries r.interface.structs (entries.filterMap id)

theorem reflectsTo_of_reflect {settings : Settings} {ctx : ClassContext} {c : ClassDecl}
    {r : Reflection} (h : reflect settings ctx c = .ok r) :
    ∃ stage entries, ReflectsTo settings ctx c stage entries r := by
  unfold reflect at h
  split at h
  · cases h
  · next stage hstage =>
      obtain ⟨header, hheader, h⟩ := exists_of_except_bind_ok h
      obtain ⟨structs, hstructs, h⟩ := exists_of_except_bind_ok h
      obtain ⟨entries, hentries, h⟩ := exists_of_except_bind_ok h
      cases h
      exact ⟨stage, entries, hstage, mapError_eq_ok hheader, mapM_eq_ok_iff.mp hstructs,
        mapM_eq_ok_iff.mp hentries, rfl⟩

/-- Every interface that is accepted is well-formed. -/
theorem wellFormed_of_reflect {settings : Settings} {ctx : ClassContext} {c : ClassDecl}
    {r : Reflection} (h : reflect settings ctx c = .ok r) :
    ∃ stage, c.stage? = some stage ∧
      r.interface.WellFormed stage settings.requireLocations c := by
  obtain ⟨stage, entries, hr⟩ := reflectsTo_of_reflect h
  refine ⟨stage, hr.staged, ?_⟩
  rw [hr.interface]
  exact wellFormed_ofEntries (hr.structs.imp fun _ _ => legalStruct_of_structEntry)
    (hr.fields.imp fun _ _ => legalField_of_fieldEntry)

def tintShader : ClassDecl where
  name := "Tint"
  kind := .shader .fragment
  structs :=
    [{ attributes := [{ name := "Uniform" },
         { name := "Layout", args := [.positional (.ident "Std140")] }]
       name := "Light"
       fields :=
        [{ attributes := [{ name := "Uniform" }], type := { name := "vec4" }, name := "colour" },
         { attributes := [{ name := "ArraySize", args := [.positional (.int 4)] }]
           type := { name := "float", array := true }, name := "weights" }] }]
  fields :=
    [{ attributes := [{ name := "BuiltIn" },
         { name := "Layout", args := [.positional (.ident "OriginUpperLeft")] }]
       type := { name := "vec4" }, name := "gl_FragCoord" },
     { attributes := [{ name := "Out" }, { name := "Layout", args := [.named "Location" (.int 0)] }]
       type := { name := "vec4" }, name := "result" },
     { isConst := true, type := { name := "float" }, name := "scale" }]

theorem wellFormed_tintShader : ∃ r, reflect {} (.ofClass tintShader) tintShader = .ok r ∧
    ∃ stage, tintShader.stage? = some stage ∧ r.interface.WellFormed stage true tintShader := by
  have h : reflect {} (.ofClass tintShader) tintShader = .ok _ := rfl
  exact ⟨_, h, wellFormed_of_reflect h⟩

end ShaderCompiler
