import Mathlib.Data.List.Nodup
import ShaderCompiler.Proofs.Association
import ShaderCompiler.Proofs.Interface.Legality
import ShaderCompiler.Proofs.Typing.Spelling

namespace ShaderCompiler

namespace StructDecl

/-- The names that are written for the instance. An attribute without a name asks for the one that
a block has by default. -/
def instanceNames (s : StructDecl) : List String :=
  (s.attributes.filter (·.name == "InstanceName")).map fun a =>
    a.firstText?.getD (defaultInstanceName s.name)

/-- The instance is named once, or by the same name at the beginning and at the end, and the struct
keeps its own name as a type. -/
structure NamesAgree (s : StructDecl) : Prop where
  first_eq_last : s.instanceNames.head? = s.instanceNames.getLast?
  spelling : Vocabulary.isSecondSpelling s.name = false

theorem instanceName_eq (s : StructDecl) :
    s.instanceName = s.instanceNames.head?.getD (defaultInstanceName s.name) := by
  rw [instanceName, instanceNames, List.head?_map, List.head?_filter]
  cases s.attributes.find? (·.name == "InstanceName") <;> rfl

theorem instanceNameOf?_eq (s : StructDecl) :
    (instanceNameOf? s.attributes).getD (defaultInstanceName s.name) =
      s.instanceNames.getLast?.getD (defaultInstanceName s.name) := by
  rw [instanceNameOf?, instanceNames, List.getLast?_map]
  cases (s.attributes.filter (·.name == "InstanceName")).getLast? <;> rfl

end StructDecl

structure NamesBlock (decl : StructDecl) (s : InterfaceStruct) : Prop where
  name : s.name = decl.name
  isBlock : decl.isBlock = s.isBlock
  emitted : s.instanceName =
    if s.isBlock then some (decl.instanceNames.getLast?.getD (defaultInstanceName decl.name))
    else none
  bound : decl.instances =
    if s.isBlock then
      [(decl.instanceNames.head?.getD (defaultInstanceName decl.name), .named decl.name)]
    else []

theorem isBlock_eq {decl : StructDecl} {block : Option Qualifier}
    (hrole : rolesOf decl.attributes = block.toList) (hbuiltIn : block ≠ some .builtIn) :
    decl.isBlock = block.isSome := by
  have hany : decl.isBlock = (rolesOf decl.attributes).any (· != .builtIn) := by
    rw [rolesOf, List.any_filterMap]
    rfl
  rw [hany, hrole]
  cases block with
  | none => rfl
  | some q => simpa using hbuiltIn

theorem instanceName_of_structEntry {rules : InterfaceRules} {decl : StructDecl}
    {s : InterfaceStruct} (h : structEntry rules decl = .ok s) :
    s.instanceName = s.block.map fun _ =>
      (instanceNameOf? decl.attributes).getD (defaultInstanceName decl.name) := by
  obtain ⟨notes, hcollect, h⟩ := exists_of_except_bind_ok h
  have hnotes := (Annotations.reads_of_collect (mapError_eq_ok hcollect)).1
  obtain ⟨-, h⟩ := of_guard_ok h
  rw [← hnotes.instanceName]
  cases hblock : notes.qualifiers.head? with
  | none =>
      rw [hblock] at h
      obtain ⟨-, h⟩ := of_guard_ok h
      obtain ⟨members, -, h⟩ := exists_of_except_bind_ok h
      cases h
      rfl
  | some q =>
      rw [hblock] at h
      obtain ⟨-, h⟩ := of_guard_ok h
      obtain ⟨⟨⟩, -, h⟩ := exists_of_except_bind_ok h
      obtain ⟨members, -, h⟩ := exists_of_except_bind_ok h
      cases h
      rfl

theorem namesBlock_of_structEntry {rules : InterfaceRules} {decl : StructDecl}
    {s : InterfaceStruct} (h : structEntry rules decl = .ok s) : NamesBlock decl s := by
  have hlegal := legalStruct_of_structEntry h
  have hblock : decl.isBlock = s.isBlock := isBlock_eq hlegal.role hlegal.not_builtIn
  refine ⟨hlegal.name, hblock, ?_, ?_⟩
  · rw [instanceName_of_structEntry h, decl.instanceNameOf?_eq, InterfaceStruct.isBlock]
    cases s.block <;> rfl
  · rw [StructDecl.instances, hblock, decl.instanceName_eq]

/-- Inference finds a block under this name as a value of its struct, and the block binds no other
name. -/
structure ReachedAs (ctx : ClassContext) (decl : StructDecl) (s : InterfaceStruct)
    (name : String) : Prop where
  bound : ctx.global? name = some ⟨s.name, false⟩
  only : ∀ b ∈ decl.instances, b.1 = name

def AllReached (ctx : ClassContext) (decls : List StructDecl) (structs : List InterfaceStruct) :
    Prop :=
  List.Forall₂ (fun decl s => ∀ name ∈ s.instanceName, ReachedAs ctx decl s name) decls structs

section

variable {c : ClassDecl} {structs : List InterfaceStruct}

theorem names_instances {decls : List StructDecl} (h : List.Forall₂ NamesBlock decls structs)
    (hagree : ∀ decl ∈ decls, decl.isBlock = true → decl.NamesAgree) :
    (decls.flatMap StructDecl.instances).map (·.1) = structs.filterMap (·.instanceName) := by
  induction h with
  | nil => rfl
  | @cons decl s decls structs hnames _ ih =>
      have hrest := ih fun d hd => hagree d (List.mem_cons_of_mem decl hd)
      rw [List.flatMap_cons, List.map_append, hrest, hnames.bound]
      cases hblock : s.isBlock with
      | false =>
          rw [List.filterMap_cons_none (by rw [hnames.emitted, hblock]; rfl)]
          rfl
      | true =>
          have hdecl := hnames.isBlock.trans hblock
          have hfirst := (hagree decl List.mem_cons_self hdecl).first_eq_last
          rw [List.filterMap_cons_some (by rw [hnames.emitted, hblock]; rfl), hfirst]
          rfl

theorem exists_instance_of_global? {name : String} {type : ValueType}
    (h : (ClassContext.ofClass c).global? name = some type)
    (hfield : name ∉ c.fields.map (·.name)) :
    ∃ decl ∈ c.structs, (name, type) ∈ decl.instances := by
  have hmem := mem_of_lookup h
  rw [ClassContext.ofClass, List.mem_reverse, List.mem_append] at hmem
  rcases hmem with hmem | hmem
  · exact List.mem_flatMap.mp hmem
  · obtain ⟨field, hmem, hbinding⟩ := List.mem_map.mp hmem
    exact absurd (List.mem_map.mpr ⟨field, hmem, (Prod.mk.inj hbinding).1⟩) hfield

theorem spelling_of_mem_instances {decl : StructDecl} {name : String} {type : ValueType}
    (h : (name, type) ∈ decl.instances) : Vocabulary.isSecondSpelling type.name = false := by
  rw [StructDecl.instances] at h
  split at h
  · cases List.mem_singleton.mp h
    exact Vocabulary.isSecondSpelling_spelling decl.name
  · cases h

theorem NamesBlock.namesAgree {decl : StructDecl} {s : InterfaceStruct} (h : NamesBlock decl s)
    (hblock : decl.isBlock = true)
    (hfields : ∀ name ∈ s.instanceName, name ∉ c.fields.map (·.name))
    (hreached : ∀ name ∈ s.instanceName, ReachedAs (.ofClass c) decl s name) :
    decl.NamesAgree := by
  have hblock : s.isBlock = true := h.isBlock.symm.trans hblock
  have hname := h.emitted
  have hbound := h.bound
  rw [if_pos hblock] at hname hbound
  have hreached := hreached _ hname
  constructor
  · have honly := hreached.only
    rw [hbound, List.forall_mem_singleton] at honly
    exact (head?_eq_getLast?_iff _ _).mp honly
  · obtain ⟨decl', -, hmem⟩ := exists_instance_of_global? hreached.bound (hfields _ hname)
    have hspelling := spelling_of_mem_instances hmem
    rwa [h.name] at hspelling

theorem NamesBlock.reachedAs {decl : StructDecl} {s : InterfaceStruct} (h : NamesBlock decl s)
    (hdecl : decl ∈ c.structs) (hagree : decl.isBlock = true → decl.NamesAgree)
    (hnodup : ((ClassContext.ofClass c).globals.map (·.1)).Nodup) :
    ∀ name ∈ s.instanceName, ReachedAs (.ofClass c) decl s name := by
  intro name hname
  have hblock : s.isBlock = true := by
    by_contra hplain
    rw [h.emitted, if_neg hplain] at hname
    cases hname
  have hagree := hagree (h.isBlock.trans hblock)
  have hinstances : decl.instances = [(name, ⟨s.name, false⟩)] := by
    have hlast := Option.some.inj ((h.emitted.trans (if_pos hblock)).symm.trans hname)
    have htype : ValueType.named decl.name = ⟨s.name, false⟩ := by
      show (⟨Vocabulary.spelling decl.name, false⟩ : ValueType) = _
      rw [Vocabulary.isSecondSpelling_eq_false.mp hagree.spelling, h.name]
    rw [h.bound, if_pos hblock, hagree.first_eq_last, hlast, htype]
  refine ⟨?_, ?_⟩
  · apply lookup_of_nodup hnodup (b := (name, ⟨s.name, false⟩))
    rw [ClassContext.ofClass, List.mem_reverse, List.mem_append]
    exact Or.inl (List.mem_flatMap.mpr ⟨decl, hdecl, hinstances ▸ List.mem_singleton.mpr rfl⟩)
  · rw [hinstances]
    exact List.forall_mem_singleton.mpr rfl

end

/-- In an accepted class whose fields and block instances have names of their own, all blocks are
found by inference under the names in the text exactly if for each the first and the last written
name agree, and none has a name for which the vocabulary has another spelling. -/
theorem allReached_iff_of_reflect {settings : Settings} {c : ClassDecl} {r : Reflection}
    (h : reflect settings (.ofClass c) c = .ok r)
    (hdistinct : (c.fields.map (·.name) ++
      r.interface.structs.filterMap (·.instanceName)).Nodup) :
    List.Forall₂ NamesBlock c.structs r.interface.structs ∧
      (AllReached (.ofClass c) c.structs r.interface.structs ↔
        ∀ decl ∈ c.structs, decl.isBlock = true → decl.NamesAgree) := by
  have hnames : List.Forall₂ NamesBlock c.structs r.interface.structs := by
    obtain ⟨stage, entries, h⟩ := reflectsTo_of_reflect h
    exact h.structs.imp fun _ _ => namesBlock_of_structEntry
  obtain ⟨hfields, hinstances, hapart⟩ := List.nodup_append.mp hdistinct
  refine ⟨hnames, fun hreached decl hdecl hblock => ?_, fun hagree => ?_⟩
  · obtain ⟨s, hs, hnames, hreached⟩ :=
      exists_mem_of_forall₂ (hnames.mp (fun _ _ => And.intro) hreached) hdecl
    refine hnames.namesAgree hblock (fun name hname hfield => ?_) hreached
    exact hapart name hfield name (List.mem_filterMap.mpr ⟨s, hs, hname⟩) rfl
  · have hnodup : ((ClassContext.ofClass c).globals.map (·.1)).Nodup := by
      rw [ClassContext.ofClass, List.map_reverse, List.nodup_reverse, List.map_append,
        names_instances hnames hagree, List.map_map]
      exact List.nodup_append_comm.mp hdistinct
    have hdeclared := List.forall₂_and_left c.structs _ |>.mpr ⟨fun decl => id, hnames⟩
    exact hdeclared.imp fun decl s ⟨hdecl, hnames⟩ =>
      hnames.reachedAs hdecl (hagree decl hdecl) hnodup

def litShader (block : String) (names : List String) : ClassDecl where
  name := "Lit"
  kind := .shader .fragment
  structs :=
    [{ attributes := { name := "Uniform" } ::
         names.map fun name => { name := "InstanceName", args := [.positional (.str name)] }
       name := block
       fields := [{ type := { name := "vec4" }, name := "colour" }] }]
  fields := [{ type := { name := "vec4" }, name := "ambient" }]

def litContext (block : String) (names : List String) : ClassContext :=
  .ofClass (litShader block names)

/-- Named once, a block is reached. Named twice, the text says `moon` and inference finds nothing
under that name. A block with the name `Single` is taken for a number. -/
theorem allReached_litShader :
    (∃ r, reflect {} (litContext "Light" ["sun"]) (litShader "Light" ["sun"]) = .ok r ∧
      AllReached (litContext "Light" ["sun"]) (litShader "Light" ["sun"]).structs
        r.interface.structs) ∧
    (∃ r, reflect {} (litContext "Light" ["sun", "moon"]) (litShader "Light" ["sun", "moon"]) =
        .ok r ∧
      r.interface.structs.filterMap (·.instanceName) = ["moon"] ∧
      (litContext "Light" ["sun", "moon"]).global? "moon" = none ∧
      ¬ AllReached (litContext "Light" ["sun", "moon"]) (litShader "Light" ["sun", "moon"]).structs
        r.interface.structs) ∧
    ∃ r, reflect {} (litContext "Single" ["unit"]) (litShader "Single" ["unit"]) = .ok r ∧
      r.interface.structs.filterMap (·.instanceName) = ["unit"] ∧
      (litContext "Single" ["unit"]).global? "unit" = some ⟨"float", false⟩ ∧
      ¬ AllReached (litContext "Single" ["unit"]) (litShader "Single" ["unit"]).structs
        r.interface.structs := by
  have hsun : reflect {} (litContext "Light" ["sun"]) (litShader "Light" ["sun"]) = .ok _ := rfl
  have hmoon : reflect {} (litContext "Light" ["sun", "moon"]) (litShader "Light" ["sun", "moon"]) =
      .ok _ := rfl
  have hsingle : reflect {} (litContext "Single" ["unit"]) (litShader "Single" ["unit"]) =
      .ok _ := rfl
  refine ⟨⟨_, hsun, ?_⟩, ⟨_, hmoon, rfl, rfl, fun hreached => ?_⟩,
    _, hsingle, rfl, by decide, fun hreached => ?_⟩
  · apply (allReached_iff_of_reflect hsun (by decide)).2.mpr
    intro decl hdecl _
    obtain rfl := List.mem_singleton.mp hdecl
    exact ⟨rfl, by decide⟩
  · have hagree := (allReached_iff_of_reflect hmoon (by decide)).2.mp hreached _
      List.mem_cons_self rfl
    exact absurd hagree.first_eq_last (by decide)
  · have hagree := (allReached_iff_of_reflect hsingle (by decide)).2.mp hreached _
      List.mem_cons_self rfl
    exact absurd hagree.spelling (by decide)

end ShaderCompiler
