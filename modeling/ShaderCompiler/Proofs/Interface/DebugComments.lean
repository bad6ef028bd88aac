import ShaderCompiler.Assembly.Declarations
import ShaderCompiler.Interface.Reflect
import ShaderCompiler.Proofs.Sequencing

namespace ShaderCompiler

namespace Variable

def plain (v : Variable) : Variable := { v with debugComment := none }

def noted (debug : Bool) (owner : String) (v : Variable) : Variable :=
  { v with debugComment := if debug then some (owner ++ "." ++ v.name) else none }

end Variable

namespace InterfaceStruct

def plain (s : InterfaceStruct) : InterfaceStruct :=
  { s with members := s.members.map Variable.plain }

def noted (debug : Bool) (owner : String) (s : InterfaceStruct) : InterfaceStruct :=
  { s with members := s.members.map (Variable.noted debug (owner ++ "." ++ s.name)) }

end InterfaceStruct

namespace Interface

/-- The interface without the notes of debugging. -/
def plain (i : Interface) : Interface where
  constants := i.constants.map Variable.plain
  structs := i.structs.map InterfaceStruct.plain
  uniforms := i.uniforms.map Variable.plain
  inputs := i.inputs.map Variable.plain
  outputs := i.outputs.map Variable.plain
  globals := i.globals.map Variable.plain

def noted (debug : Bool) (owner : String) (i : Interface) : Interface where
  constants := i.constants.map (Variable.noted debug owner)
  structs := i.structs.map (InterfaceStruct.noted debug owner)
  uniforms := i.uniforms.map (Variable.noted debug owner)
  inputs := i.inputs.map (Variable.noted debug owner)
  outputs := i.outputs.map (Variable.noted debug owner)
  globals := i.globals.map (Variable.noted debug owner)

end Interface

section Rules

variable (rules : InterfaceRules) (field : FieldDecl) (notes : Annotations) (owner : String)

/-- The same rules without debugging. -/
def InterfaceRules.plain (rules : InterfaceRules) : InterfaceRules := { rules with debug := false }

end Rules

def declaredText (header : Header) (i : Interface) (indent : String)
    (structs : List InterfaceStruct) : String :=
  renderSections <|
    ["#version " ++ header.version ++ "\n", String.join (header.extensions.map extensionLine),
      header.stageLayout.text, variableLines i.constants] ++
    structs.map (·.text indent) ++
    [variableLines i.uniforms, variableLines i.inputs, variableLines i.outputs,
      variableLines i.globals]

theorem declarations_eq (header : Header) (i : Interface) (indent : String) :
    declarations header i indent =
      (distinctStructs i.structs).map (declaredText header i indent) := by
  unfold declarations
  cases distinctStructs i.structs <;> rfl

def Header.plain (h : Header) : Header := { h with debug := false }

def HeaderParts.plain (p : HeaderParts) : HeaderParts := { p with debug := false }

end ShaderCompiler
