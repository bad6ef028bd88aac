import ShaderCompiler.Proofs.Interface.Legality

namespace ShaderCompiler

namespace FieldDecl

def carries (field : FieldDecl) (q : Qualifier) : Bool := (rolesOf field.attributes).contains q

/-- A built-in without a layout is only named. -/
def isNamedBuiltIn (field : FieldDecl) : Bool :=
  field.carries .builtIn && (layoutOf field.attributes).isEmpty

end FieldDecl

/-- The fields that belong to a section, by what is written on them. -/
def Section.lists : Section → FieldDecl → Bool
  | constants, field => field.isConst
  | uniforms, field => field.carries .uniform
  | inputs, field =>
      field.carries .input || (field.carries .builtIn && !(layoutOf field.attributes).isEmpty)
  | outputs, field => field.carries .output
  | globals, field => !field.isConst && (rolesOf field.attributes).isEmpty

def Interface.variables (i : Interface) : Section → List Variable
  | .constants => i.constants
  | .uniforms => i.uniforms
  | .inputs => i.inputs
  | .outputs => i.outputs
  | .globals => i.globals

theorem Interface.variables_ofEntries (structs : List InterfaceStruct)
    (entries : List (Section × Variable)) (s : Section) :
    (Interface.ofEntries structs entries).variables s = variablesIn s entries := by
  cases s <;> rfl

section

variable {rules : InterfaceRules} {field : FieldDecl} {entry : Option (Section × Variable)}

theorem entry_of_isNamedBuiltIn (hc : field.isConst = false)
    (hr : rolesOf field.attributes = [.builtIn]) (hl : (layoutOf field.attributes).isEmpty = true)
    (h : fieldEntry rules field = .ok entry) : entry = none := by
  obtain ⟨notes, hcollect, h⟩ := exists_of_except_bind_ok h
  have hnotes := (Annotations.reads_of_collect (mapError_eq_ok hcollect)).1
  obtain ⟨-, h⟩ := of_guard_ok h
  rw [hc, hnotes.qualifiers, hr, hnotes.layout] at h
  simp only [hl] at h
  cases h
  rfl

theorem lists_iff_of_fieldEntry (h : fieldEntry rules field = .ok entry) (s : Section) :
    s.lists field = true ↔ entry.map (·.1) = some s := by
  cases legalField_of_fieldEntry h with
  | constant hc hr _ _ _ => cases s <;> simp [Section.lists, FieldDecl.carries, hc, hr]
  | global hc hr _ _ _ => cases s <;> simp [Section.lists, FieldDecl.carries, hc, hr]
  | uniform hc hr _ _ _ => cases s <;> simp [Section.lists, FieldDecl.carries, hc, hr]
  | input hc hr _ _ _ _ _ => cases s <;> simp [Section.lists, FieldDecl.carries, hc, hr]
  | output hc hr _ _ _ _ => cases s <;> simp [Section.lists, FieldDecl.carries, hc, hr]
  | builtIn hc hr _ _ _ _ =>
      have hl : (layoutOf field.attributes).isEmpty = false := by
        by_contra hempty
        cases entry_of_isNamedBuiltIn hc hr (by simpa using hempty) h
      cases s <;> simp [Section.lists, FieldDecl.carries, hc, hr, hl]
  | named hc hr hl =>
      have hl : (layoutOf field.attributes).isEmpty = true := List.isEmpty_iff.mpr hl
      cases s <;> simp [Section.lists, FieldDecl.carries, hc, hr, hl]

theorem isNamedBuiltIn_iff_of_fieldEntry (h : fieldEntry rules field = .ok entry) :
    field.isNamedBuiltIn = true ↔ entry = none := by
  rw [FieldDecl.isNamedBuiltIn, FieldDecl.carries]
  cases legalField_of_fieldEntry h with
  | constant _ hr _ _ _ => simp [hr]
  | global _ hr _ _ _ => simp [hr]
  | uniform _ hr _ _ _ => simp [hr]
  | input _ hr _ _ _ _ _ => simp [hr]
  | output _ hr _ _ _ _ => simp [hr]
  | builtIn hc hr _ _ _ _ =>
      simp only [hr, List.contains_cons, beq_self_eq_true, Bool.true_or, Bool.true_and,
        reduceCtorEq, iff_false]
      intro hempty
      cases entry_of_isNamedBuiltIn hc hr hempty h
  | named _ hr hl => simp [hr, Layout.isEmpty, hl]

theorem name_of_fieldEntry {s : Section} {v : Variable}
    (h : fieldEntry rules field = .ok (some (s, v))) : v.name = field.name := by
  cases legalField_of_fieldEntry h with
  | constant _ _ hd _ _ => exact hd.name
  | global _ _ hd _ _ => exact hd.name
  | uniform _ _ hd _ _ => exact hd.name
  | input _ _ hd _ _ _ _ => exact hd.name
  | output _ _ hd _ _ _ => exact hd.name
  | builtIn _ _ hd _ _ _ => exact hd.name

/-- An accepted field belongs to one section, unless it is a built-in that is only named. -/
theorem existsUnique_lists (h : fieldEntry rules field = .ok entry) :
    (field.isNamedBuiltIn = false ↔ ∃! s, Section.lists s field = true) ∧
      (field.isNamedBuiltIn = true ↔ ∀ s, ¬ Section.lists s field = true) := by
  have hnamed := isNamedBuiltIn_iff_of_fieldEntry h
  rw [← Bool.not_eq_true]
  simp only [hnamed, lists_iff_of_fieldEntry h]
  cases entry with
  | none => simp
  | some e => simp

end

theorem names_variablesIn {rules : InterfaceRules} {fields : List FieldDecl}
    {entries : List (Option (Section × Variable))}
    (h : List.Forall₂ (fun field entry => fieldEntry rules field = .ok entry) fields entries)
    (s : Section) : (variablesIn s (entries.filterMap id)).map (·.name) =
      (fields.filter s.lists).map (·.name) := by
  induction h with
  | nil => rfl
  | @cons field entry fields entries hentry _ ih =>
      have hlists := lists_iff_of_fieldEntry hentry s
      cases entry with
      | none =>
          rw [List.filter_cons_of_neg (by simp [hlists])]
          exact ih
      | some e =>
          obtain ⟨s', v⟩ := e
          have hcons : (some (s', v) :: entries).filterMap id =
              (s', v) :: entries.filterMap id := rfl
          rw [variablesIn, hcons]
          by_cases hs : s' = s
          · subst hs
            rw [List.filter_cons_of_pos (by simp), List.filter_cons_of_pos (hlists.mpr rfl),
              List.map_cons, List.map_cons, List.map_cons, name_of_fieldEntry hentry]
            exact congrArg _ ih
          · rw [List.filter_cons_of_neg (by simpa using hs),
              List.filter_cons_of_neg (by simpa [hlists] using hs)]
            exact ih

structure Represents (decl : StructDecl) (s : InterfaceStruct) : Prop where
  name : s.name = decl.name
  members : s.members.map (·.name) = decl.fields.map (·.name)

theorem names_of_legalMembers {block : Option Qualifier} {fields : List FieldDecl}
    {members : List Variable} (h : List.Forall₂ (LegalMember block) fields members) :
    members.map (·.name) = fields.map (·.name) := by
  induction h with
  | nil => rfl
  | cons hmember _ ih => rw [List.map_cons, List.map_cons, hmember.declares.name, ih]

structure KeepsFirsts (kept all : List String) : Prop where
  nodup : kept.Nodup
  mem_iff : ∀ e, e ∈ kept ↔ e ∈ all
  ordered : kept.Pairwise fun a b => all.idxOf a < all.idxOf b

theorem keepsFirsts_distinct (all : List String) : KeepsFirsts (distinct all) all where
  nodup := nodup_distinct all
  mem_iff _ := mem_distinct
  ordered := by
    induction all using List.reverseRecOn with
    | nil => exact .nil
    | append_singleton all e ih =>
        have hold : ∀ a ∈ distinct all, (all ++ [e]).idxOf a = all.idxOf a := by
          intro a ha
          exact List.idxOf_append_of_mem (mem_distinct.mp ha)
        have hkept : (distinct all).Pairwise
            fun a b => (all ++ [e]).idxOf a < (all ++ [e]).idxOf b := by
          refine ih.imp_of_mem fun ha hb hlt => ?_
          rwa [hold _ ha, hold _ hb]
        have hlast : distinct (all ++ [e]) = addNew (distinct all) e := by
          rw [distinct, List.foldl_append]
          rfl
        rw [hlast, addNew]
        split
        · exact hkept
        · next hnew =>
            have hnew : e ∉ all := by simpa [mem_distinct] using hnew
            refine List.pairwise_append.mpr ⟨hkept, List.pairwise_singleton _ _, ?_⟩
            intro a ha b hb
            obtain rfl := List.mem_singleton.mp hb
            rw [hold a ha, List.idxOf_append_of_notMem hnew, List.idxOf_cons_self, Nat.add_zero]
            exact List.idxOf_lt_length_of_mem (mem_distinct.mp ha)

def extensionsOf (attributes : List Attribute) : List (Option String) :=
  (attributes.filter (·.name == "Extension")).map (·.firstText?)

section

variable {c : ClassDecl} {stage : Stage} {p p' : HeaderParts} {a : Attribute}

theorem extensions_of_add (h : HeaderParts.add c stage p a = .ok p') :
    p'.extensions.map some = p.extensions.map some ++ extensionsOf [a] := by
  have hother (hname : a.name ≠ "Extension") : extensionsOf [a] = [] := by
    rw [extensionsOf, List.filter_cons_of_neg (by simpa using hname), List.filter_nil, List.map_nil]
  cases HeaderParts.adds_of_add h with
  | extension hname htext =>
      rw [extensionsOf, List.filter_cons_of_pos (by simpa using hname), List.filter_nil,
        List.map_append, List.map_singleton, List.map_singleton, htext]
  | version hname | debug hname | geometryInput hname | geometryOutput hname | tessControl hname
  | tessEvaluation hname =>
      rw [hother (by rw [hname]; decide), List.append_nil]

theorem extensionsOf_append (attributes more : List Attribute) :
    extensionsOf (attributes ++ more) = extensionsOf attributes ++ extensionsOf more := by
  rw [extensionsOf, List.filter_append, List.map_append]
  rfl

theorem extensions_of_foldlM {attributes : List Attribute}
    (h : attributes.foldlM (HeaderParts.add c stage) p = .ok p') :
    p'.extensions.map some = p.extensions.map some ++ extensionsOf attributes := by
  induction attributes generalizing p with
  | nil =>
      cases h
      exact (List.append_nil _).symm
  | cons a attributes ih =>
      rw [List.foldlM_cons] at h
      obtain ⟨q, hq, h⟩ := exists_of_except_bind_ok h
      rw [ih h, extensions_of_add hq, List.append_assoc, ← extensionsOf_append]
      rfl

end

/-- What a class declares is in its reflection, once and in the same order. -/
structure Reflection.Conserves (settings : Settings) (c : ClassDecl) (r : Reflection) : Prop where
  sections : ∀ s, (r.interface.variables s).map (·.name) =
    (c.fields.filter s.lists).map (·.name)
  once : ∀ field ∈ c.fields, field.isNamedBuiltIn = false ↔ ∃! s, Section.lists s field = true
  never : ∀ field ∈ c.fields, field.isNamedBuiltIn = true ↔ ∀ s, ¬ Section.lists s field = true
  structs : List.Forall₂ Represents c.structs r.interface.structs
  extensions : ∃ named, named.map some = extensionsOf c.attributes ∧
    KeepsFirsts r.header.extensions (named ++ settings.extensions)

theorem extensions_of_header {settings : Settings} {stage : Stage} {c : ClassDecl} {header : Header}
    (h : Header.ofClass settings stage c = .ok header) :
    ∃ named, named.map some = extensionsOf c.attributes ∧
      KeepsFirsts header.extensions (named ++ settings.extensions) := by
  obtain ⟨parts, hparts, h⟩ := exists_of_except_bind_ok h
  obtain ⟨layout, -, h⟩ := exists_of_except_bind_ok h
  cases h
  refine ⟨parts.extensions, extensions_of_foldlM hparts, ?_⟩
  rw [distinct_foldl_addNew]
  exact keepsFirsts_distinct _

/-- Reading a class neither loses nor repeats nor reorders what it declares. -/
theorem conserves_of_reflect {settings : Settings} {ctx : ClassContext} {c : ClassDecl}
    {r : Reflection} (h : reflect settings ctx c = .ok r) : r.Conserves settings c := by
  obtain ⟨stage, entries, h⟩ := reflectsTo_of_reflect h
  refine ⟨fun s => ?_, fun field hfield => ?_, fun field hfield => ?_, ?_, ?_⟩
  · rw [h.interface, Interface.variables_ofEntries]
    exact names_variablesIn h.fields s
  · obtain ⟨entry, -, hentry⟩ := exists_mem_of_forall₂ h.fields hfield
    exact (existsUnique_lists hentry).1
  · obtain ⟨entry, -, hentry⟩ := exists_mem_of_forall₂ h.fields hfield
    exact (existsUnique_lists hentry).2
  · refine h.structs.imp fun decl s hs => ?_
    have hlegal := legalStruct_of_structEntry hs
    exact ⟨hlegal.name, names_of_legalMembers hlegal.members⟩
  · exact extensions_of_header h.header

def vectorField (name : String) (attributes : List Attribute) : FieldDecl where
  attributes := attributes
  type := { name := "vec4" }
  name := name

def extensionNamed (name : String) : Attribute where
  name := "Extension"
  args := [.positional (.str name)]

/-- Fields of all kinds in no order, one of them a built-in that is only named, and an extension
that is asked for twice. -/
def assortedShader : ClassDecl where
  name := "Assorted"
  kind := .shader .fragment
  attributes := [extensionNamed "depth", extensionNamed "clip", extensionNamed "depth"]
  structs :=
    [{ attributes := [{ name := "Uniform" }]
       name := "Light"
       fields := [vectorField "colour" [], vectorField "place" []] },
     { name := "Ray", fields := [vectorField "start" []] }]
  fields :=
    [vectorField "last" [],
     vectorField "gl_PointCoord" [{ name := "BuiltIn" }],
     vectorField "tint" [{ name := "Uniform" }],
     { vectorField "unit" [] with isConst := true },
     vectorField "gl_FragCoord" [{ name := "BuiltIn" },
       { name := "Layout", args := [.positional (.ident "OriginUpperLeft")] }],
     vectorField "result" [{ name := "Out" },
       { name := "Layout", args := [.named "Location" (.int 0)] }],
     vectorField "normal" [{ name := "In" }],
     vectorField "next" []]

theorem conserves_assortedShader :
    ∃ r, reflect { extensions := ["shadow", "clip"] } (.ofClass assortedShader) assortedShader =
        .ok r ∧
      r.interface.constants.map (·.name) = ["unit"] ∧
      r.interface.uniforms.map (·.name) = ["tint"] ∧
      r.interface.inputs.map (·.name) = ["gl_FragCoord", "normal"] ∧
      r.interface.outputs.map (·.name) = ["result"] ∧
      r.interface.globals.map (·.name) = ["last", "next"] ∧
      r.header.extensions = ["depth", "clip", "shadow"] ∧
      r.Conserves { extensions := ["shadow", "clip"] } assortedShader := by
  have h : reflect { extensions := ["shadow", "clip"] } (.ofClass assortedShader) assortedShader =
      .ok _ := rfl
  exact ⟨_, h, rfl, rfl, rfl, rfl, rfl, rfl, conserves_of_reflect h⟩

end ShaderCompiler
