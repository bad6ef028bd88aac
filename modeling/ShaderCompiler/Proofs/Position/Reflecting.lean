import ShaderCompiler.Interface.Reflect
import ShaderCompiler.Proofs.Position.Emitting

namespace ShaderCompiler

theorem MethodDecl.sig_unplaced (m : MethodDecl) : m.unplaced.sig = m.sig := by
  simp only [sig, unplaced, returns_unplaced, List.map_map]
  rfl

namespace StructDecl

theorem members_unplaced (s : StructDecl) : s.unplaced.members = s.members := by
  simp only [members, unplaced, List.map_map]
  rfl

theorem instances_unplaced (s : StructDecl) : s.unplaced.instances = s.instances := by
  have hblock : s.unplaced.isBlock = s.isBlock := by
    simp only [isBlock, unplaced, List.any_map]
    rfl
  have hname : s.unplaced.instanceName = s.instanceName := by
    simp only [instanceName, unplaced, List.find?_map]
    cases h : s.attributes.find? (·.name == "InstanceName") <;>
      simp [Function.comp_def, Attribute.unplaced, h]
    rfl
  rw [instances, instances, hblock, hname]
  rfl

end StructDecl

theorem ClassContext.ofClass_unplaced (c : ClassDecl) : ofClass c.unplaced = ofClass c := by
  have hmethods : (c.unplaced.methods.filter (!·.isConstructor)).map (fun m => (m.name, m.sig)) =
      (c.methods.filter (!·.isConstructor)).map fun m => (m.name, m.sig) := by
    simp only [ClassDecl.unplaced, List.filter_map, List.map_map, Function.comp_def,
      MethodDecl.sig_unplaced]
    rfl
  have hstructs : c.unplaced.structs.map (fun s => (s.name, s.members)) =
      c.structs.map fun s => (s.name, s.members) := by
    simp only [ClassDecl.unplaced, List.map_map, Function.comp_def, StructDecl.members_unplaced]
    rfl
  have hinstances : c.unplaced.structs.flatMap StructDecl.instances =
      c.structs.flatMap StructDecl.instances := by
    simp only [ClassDecl.unplaced, List.flatMap_map, StructDecl.instances_unplaced]
  have hfields : c.unplaced.fields.map FieldDecl.binding = c.fields.map FieldDecl.binding := by
    simp only [ClassDecl.unplaced, List.map_map]
    rfl
  rw [ofClass, ofClass, hmethods, hstructs, hinstances, hfields]
  rfl

theorem Annotations.add_unplaced (allowed : List String) (target : String) (n : Annotations)
    (a : Attribute) : (add allowed target n a.unplaced).mapError AttributeFault.unplaced =
      (add allowed target n a).mapError AttributeFault.unplaced := by
  rw [add, add, Attribute.name_unplaced]
  by_cases hallowed : (!allowed.contains a.name) = true
  · rw [if_pos hallowed, if_pos hallowed]
    rfl
  · rw [if_neg hallowed, if_neg hallowed]
    cases Qualifier.ofAttribute? a.name with
    | some qualifier => rfl
    | none =>
        dsimp only
        split <;> rfl

theorem Annotations.collect_unplaced (allowed : List String) (target : String)
    (attributes : List Attribute) :
    (collect allowed target (attributes.map Attribute.unplaced)).mapError AttributeFault.unplaced =
      (collect allowed target attributes).mapError AttributeFault.unplaced := by
  simp only [collect, List.foldlM_map, mapError_foldlM, add_unplaced]

theorem mapError_badAttribute {α : Type} (x : Except AttributeFault α) :
    (x.mapError Diagnostic.badAttribute).mapError Diagnostic.unplaced =
      (x.mapError AttributeFault.unplaced).mapError Diagnostic.badAttribute := by
  cases x <;> rfl

theorem HeaderParts.add_unplaced (c : ClassDecl) (stage : Stage) (p : HeaderParts)
    (a : Attribute) : (add c.unplaced stage p a.unplaced).mapError AttributeFault.unplaced =
      (add c stage p a).mapError AttributeFault.unplaced := by
  rw [add, add, Attribute.name_unplaced]
  split <;> rfl

theorem Header.ofClass_unplaced (settings : Settings) (stage : Stage) (c : ClassDecl) :
    (ofClass settings stage c.unplaced).mapError AttributeFault.unplaced =
      (ofClass settings stage c).mapError AttributeFault.unplaced := by
  have hparts (p : HeaderParts) :
      (c.unplaced.attributes.foldlM (HeaderParts.add c.unplaced stage) p).mapError
          AttributeFault.unplaced =
        (c.attributes.foldlM (HeaderParts.add c stage) p).mapError AttributeFault.unplaced := by
    simp only [ClassDecl.unplaced, List.foldlM_map, mapError_foldlM]
    simp only [← ClassDecl.unplaced.eq_1, HeaderParts.add_unplaced]
  simp only [ofClass, mapError_bind, hparts]
  rfl

theorem FieldDecl.isSome_init_unplaced (field : FieldDecl) :
    field.unplaced.init.isSome = field.init.isSome := Option.isSome_map

theorem fieldSize_unplaced (field : FieldDecl) (notes : Annotations) (owner : String) :
    fieldSize field.unplaced notes owner = fieldSize field notes owner := by
  have hlength : field.unplaced.init.bind initializerLength? =
      field.init.bind initializerLength? := by
    cases h : field.init <;> simp [FieldDecl.unplaced, h, initializerLength?_unplaced]
  rw [fieldSize, fieldSize, hlength]
  rfl

section Rules

variable (rules : InterfaceRules) (field : FieldDecl) (notes : Annotations) (owner : String)

theorem bareVariable_unplaced :
    (bareVariable rules field.unplaced notes owner).mapError Diagnostic.unplaced =
      (bareVariable rules field notes owner).mapError Diagnostic.unplaced := by
  simp only [bareVariable, mapError_ite, mapError_bind, mapError_throw, fieldSize_unplaced]
  rfl

theorem initialValue_unplaced (ctx : ClassContext) :
    (initialValue ctx field.unplaced owner).mapError Diagnostic.unplaced =
      (initialValue ctx field owner).mapError Diagnostic.unplaced := by
  cases h : field.init with
  | none => simp [initialValue, FieldDecl.unplaced, h]
  | some e =>
      simp only [initialValue, FieldDecl.unplaced, h, Option.map_some, mapError_map,
        initializer_unplaced]
      rfl

theorem initializedVariable_unplaced :
    (initializedVariable rules field.unplaced notes owner).mapError Diagnostic.unplaced =
      (initializedVariable rules field notes owner).mapError Diagnostic.unplaced := by
  simp only [initializedVariable, mapError_bind, bareVariable_unplaced, initialValue_unplaced]

theorem exchanged_unplaced (qualifier : Qualifier) (role : LayoutRole) :
    (exchanged rules field.unplaced notes owner qualifier role).mapError Diagnostic.unplaced =
      (exchanged rules field notes owner qualifier role).mapError Diagnostic.unplaced := by
  simp only [exchanged, mapError_ite, mapError_bind, FieldDecl.isSome_init_unplaced,
    bareVariable_unplaced]

theorem fieldEntry_unplaced : (fieldEntry rules field.unplaced).mapError Diagnostic.unplaced =
    (fieldEntry rules field).mapError Diagnostic.unplaced := by
  have hnotes (target : String) :
      (Annotations.collect Annotations.onField target field.unplaced.attributes).mapError
          AttributeFault.unplaced =
        (Annotations.collect Annotations.onField target field.attributes).mapError
          AttributeFault.unplaced :=
    Annotations.collect_unplaced Annotations.onField target field.attributes
  simp only [fieldEntry, mapError_bind, mapError_badAttribute, hnotes]
  refine bind_congr fun notes => ?_
  cases notes.qualifiers.head? with
  | none =>
      simp only [mapError_ite, mapError_bind, initializedVariable_unplaced]
      rfl
  | some qualifier =>
      cases qualifier <;>
        · simp only [mapError_ite, mapError_bind, initializedVariable_unplaced,
            exchanged_unplaced, bareVariable_unplaced]
          rfl

theorem memberVariable_unplaced (block : Option Qualifier) :
    (memberVariable rules block owner field.unplaced).mapError Diagnostic.unplaced =
      (memberVariable rules block owner field).mapError Diagnostic.unplaced := by
  have hnotes (target : String) :
      (Annotations.collect Annotations.onMember target field.unplaced.attributes).mapError
          AttributeFault.unplaced =
        (Annotations.collect Annotations.onMember target field.attributes).mapError
          AttributeFault.unplaced :=
    Annotations.collect_unplaced Annotations.onMember target field.attributes
  simp only [memberVariable, mapError_bind, mapError_badAttribute, hnotes]
  refine bind_congr fun notes => ?_
  cases notes.qualifiers.find? (block != some ·) with
  | none =>
      simp only [mapError_ite, mapError_bind, bareVariable_unplaced,
        FieldDecl.isSome_init_unplaced]
      rfl
  | some q => cases block <;> rfl

theorem structEntry_unplaced (s : StructDecl) :
    (structEntry rules s.unplaced).mapError Diagnostic.unplaced =
      (structEntry rules s).mapError Diagnostic.unplaced := by
  have hnotes (target : String) :
      (Annotations.collect Annotations.onStruct target s.unplaced.attributes).mapError
          AttributeFault.unplaced =
        (Annotations.collect Annotations.onStruct target s.attributes).mapError
          AttributeFault.unplaced :=
    Annotations.collect_unplaced Annotations.onStruct target s.attributes
  have hmembers (block : Option Qualifier) (owner : String) :
      (s.unplaced.fields.mapM (memberVariable rules block owner)).mapError Diagnostic.unplaced =
        (s.fields.mapM (memberVariable rules block owner)).mapError Diagnostic.unplaced := by
    simp only [StructDecl.unplaced, List.mapM_map, mapError_mapM, Function.comp_apply,
      memberVariable_unplaced]
  simp only [structEntry, mapError_bind, mapError_badAttribute, hnotes]
  refine bind_congr fun notes => ?_
  cases notes.qualifiers.head? with
  | none =>
      simp only [mapError_ite, mapError_bind, hmembers]
      rfl
  | some q =>
      simp only [mapError_ite, mapError_bind, hmembers]
      rfl

end Rules

theorem reflect_unplaced (settings : Settings) (ctx : ClassContext) (c : ClassDecl) :
    (reflect settings ctx c.unplaced).mapError Diagnostic.unplaced =
      (reflect settings ctx c).mapError Diagnostic.unplaced := by
  have hstage : c.unplaced.stage? = c.stage? := rfl
  rw [reflect, reflect, hstage]
  cases c.stage? with
  | none => rfl
  | some stage =>
      have hstructs (rules : InterfaceRules) :
          (c.unplaced.structs.mapM (structEntry rules)).mapError Diagnostic.unplaced =
            (c.structs.mapM (structEntry rules)).mapError Diagnostic.unplaced := by
        simp only [ClassDecl.unplaced, List.mapM_map, mapError_mapM, Function.comp_apply,
          structEntry_unplaced]
      have hfields (rules : InterfaceRules) :
          (c.unplaced.fields.mapM (fieldEntry rules)).mapError Diagnostic.unplaced =
            (c.fields.mapM (fieldEntry rules)).mapError Diagnostic.unplaced := by
        simp only [ClassDecl.unplaced, List.mapM_map, mapError_mapM, Function.comp_apply,
          fieldEntry_unplaced]
      simp only [mapError_bind, mapError_badAttribute, Header.ofClass_unplaced, hstructs, hfields]

end ShaderCompiler
