import ShaderCompiler.Emission.Declaration
import ShaderCompiler.Interface.Annotations
import ShaderCompiler.Interface.Header

namespace ShaderCompiler

structure InterfaceRules where
  context : ClassContext
  stage : Stage
  debug : Bool
  requireLocations : Bool

/-- Vertex inputs and fragment outputs face the outside of the pipeline. -/
def facesOutside (stage : Stage) (qualifier : Qualifier) : Bool :=
  match stage, qualifier with
  | .vertex, .input => true
  | .fragment, .output => true
  | _, _ => false

def fieldSize (field : FieldDecl) (notes : Annotations) (owner : String) :
    Except Diagnostic (Option String) :=
  match field.type.array, notes.arraySize with
  | true, some size => .ok (some size)
  | true, none =>
      match field.init.bind initializerLength? with
      | some n => .ok (some (toString n))
      | none => .error (.missingArraySize (.field owner))
  | false, some _ => .error (.badAttribute (.sizeOnNonArray owner))
  | false, none => .ok none

def bareVariable (rules : InterfaceRules) (field : FieldDecl) (notes : Annotations)
    (owner : String) : Except Diagnostic Variable := do
  if field.type.pointer then throw (.unsupported .pointers (.field owner field.span.line))
  let type ← rules.context.resolveType field.type.name
  let arraySize ← fieldSize field notes owner
  return { type, name := field.name, arraySize, layout := notes.layout, comment := notes.comment,
           debugComment := if rules.debug then some owner else none, isConst := field.isConst }

def initialValue (ctx : ClassContext) (field : FieldDecl) (owner : String) :
    Except Diagnostic (Option String) :=
  match field.init with
  | none => .ok none
  | some e => (initializer ctx owner (.ofRef field.type) e).map some

def initializedVariable (rules : InterfaceRules) (field : FieldDecl) (notes : Annotations)
    (owner : String) : Except Diagnostic Variable := do
  let v ← bareVariable rules field notes owner
  return { v with initializer := ← initialValue rules.context field owner }

inductive Section where
  | constants
  | uniforms
  | inputs
  | outputs
  | globals
  deriving DecidableEq, Repr

def exchanged (rules : InterfaceRules) (field : FieldDecl) (notes : Annotations) (owner : String)
    (qualifier : Qualifier) (role : LayoutRole) : Except Diagnostic Variable := do
  notes.layout.check rules.stage role owner false
  if field.init.isSome then throw (.invalidUse (.initializedInterface qualifier owner))
  if facesOutside rules.stage qualifier && rules.requireLocations &&
      !notes.layout.has "location" then
    throw (.missingLocation rules.stage qualifier owner)
  let v ← bareVariable rules field notes owner
  return { v with qualifier := some qualifier }

def fieldEntry (rules : InterfaceRules) (field : FieldDecl) :
    Except Diagnostic (Option (Section × Variable)) := do
  let owner := rules.context.className ++ "." ++ field.name
  let notes ← (Annotations.collect Annotations.onField ("field '" ++ owner ++ "'")
    field.attributes).mapError .badAttribute
  if 1 < notes.qualifiers.length then throw (.badAttribute (.manyQualifiers owner))
  if field.isConst then
    if !notes.qualifiers.isEmpty || !notes.layout.isEmpty then
      throw (.badAttribute (.qualifiedConstant owner))
    return some (.constants, ← initializedVariable rules field notes owner)
  match notes.qualifiers.head? with
  | some .uniform => do
      notes.layout.check rules.stage .uniform owner false
      let v ← initializedVariable rules field notes owner
      return some (.uniforms, { v with qualifier := some .uniform })
  | some .input => return some (.inputs, ← exchanged rules field notes owner .input .input)
  | some .output => return some (.outputs, ← exchanged rules field notes owner .output .output)
  | some .builtIn => do
      if notes.layout.isEmpty then return none
      notes.layout.check rules.stage .input owner (field.name == "gl_FragCoord")
      let v ← bareVariable rules field notes owner
      return some (.inputs, { v with qualifier := some .builtIn })
  | none => do
      if !notes.layout.isEmpty then throw (.badAttribute (.layoutWithoutQualifier owner))
      return some (.globals, ← initializedVariable rules field notes owner)

/-- A member may repeat the role of its block and carries no other. -/
def memberVariable (rules : InterfaceRules) (block : Option Qualifier) (structOwner : String)
    (field : FieldDecl) : Except Diagnostic Variable := do
  let owner := structOwner ++ "." ++ field.name
  let notes ← (Annotations.collect Annotations.onMember ("member '" ++ owner ++ "'")
    field.attributes).mapError .badAttribute
  match notes.qualifiers.find? (block != some ·), block with
  | some q, some b => throw (.interfaceBlock (.memberDiffers owner q b))
  | some q, none => throw (.interfaceBlock (.qualifiedMember owner q))
  | none, _ => pure ()
  if field.init.isSome then throw (.invalidUse (.initializedMember owner))
  bareVariable rules field notes owner

def blockRole : Qualifier → LayoutRole
  | .uniform => .uniformBlock
  | .input => .inputBlock
  | .output | .builtIn => .outputBlock

def structEntry (rules : InterfaceRules) (s : StructDecl) : Except Diagnostic InterfaceStruct := do
  let owner := rules.context.className ++ "." ++ s.name
  let notes ← (Annotations.collect Annotations.onStruct ("struct '" ++ owner ++ "'")
    s.attributes).mapError .badAttribute
  if 1 < notes.qualifiers.length then throw (.interfaceBlock (.manyQualifiers owner))
  let block := notes.qualifiers.head?
  match block with
  | none =>
      if !notes.layout.isEmpty || notes.instanceName.isSome then
        throw (.interfaceBlock (.layoutWithoutQualifier owner))
  | some q =>
      if facesOutside rules.stage q then
        throw (.interfaceBlock (.illegalInStage rules.stage q owner))
      notes.layout.check rules.stage (blockRole q) owner false
  let members ← s.fields.mapM (memberVariable rules block owner)
  return { name := s.name, block, members, layout := notes.layout, comment := notes.comment,
           instanceName := block.map fun _ => notes.instanceName.getD (defaultInstanceName s.name) }

def variablesIn (s : Section) (entries : List (Section × Variable)) : List Variable :=
  (entries.filter (·.1 == s)).map (·.2)

def Interface.ofEntries (structs : List InterfaceStruct) (entries : List (Section × Variable)) :
    Interface where
  constants := variablesIn .constants entries
  structs := structs
  uniforms := variablesIn .uniforms entries
  inputs := variablesIn .inputs entries
  outputs := variablesIn .outputs entries
  globals := variablesIn .globals entries

structure Reflection where
  header : Header
  interface : Interface
  deriving DecidableEq, Repr

def reflect (settings : Settings) (ctx : ClassContext) (c : ClassDecl) :
    Except Diagnostic Reflection :=
  match c.stage? with
  | none => .error (.invalidUse (.libraryCompiled c.name))
  | some stage => do
      let header ← (Header.ofClass settings stage c).mapError .badAttribute
      let rules : InterfaceRules :=
        { context := ctx, stage, debug := header.debug,
          requireLocations := settings.requireLocations }
      let structs ← c.structs.mapM (structEntry rules)
      let entries ← c.fields.mapM (fieldEntry rules)
      return ⟨header, .ofEntries structs (entries.filterMap id)⟩

end ShaderCompiler
