import ShaderCompiler.Distinct
import ShaderCompiler.Interface.Legal
import ShaderCompiler.Settings.Basic
import ShaderCompiler.Tree.Decl

namespace ShaderCompiler

namespace Primitive

def geometryInputs : List String :=
  ["points", "lines", "lines_adjacency", "triangles", "triangles_adjacency"]

def geometryOutputs : List String := ["points", "line_strip", "triangle_strip"]

def patches : List String := ["triangles", "quads", "isolines"]

def spacings : List String :=
  ["equal_spacing", "fractional_even_spacing", "fractional_odd_spacing"]

def windings : List String := ["cw", "ccw"]

end Primitive

namespace Attribute

def count? (a : Attribute) (key : String) : Except AttributeFault (Option Nat) :=
  match a.named? key with
  | none => .ok none
  | some (.int n) =>
      if 0 ≤ n.toInt ∧ n.toInt < UInt32.size then .ok (some n.toInt.toNat)
      else .error (.countOutOfRange key n a.name)
  | some other => .error (.countNotInteger key a.name other.text)

def primitive (a : Attribute) (allowed : List String) : Except AttributeFault String :=
  match a.firstText?.map snakeCase with
  | none => .error (.noPrimitive a.name)
  | some value =>
      if allowed.contains value then .ok value else .error (.badPrimitive value a.name allowed)

def vertices (a : Attribute) : Except AttributeFault Nat := do
  match ← a.count? "Vertices", a.positionals.head? with
  | some n, _ => return n
  | none, some (.int n) =>
      if 0 ≤ n.toInt ∧ n.toInt < UInt32.size then return n.toInt.toNat
      else throw (.verticesOutOfRange n)
  | none, _ => throw .noVertices

end Attribute

/-- The parts of a tessellation layout as they are found. -/
structure TessellationParts where
  primitive : Option String := none
  spacing : Option String := none
  winding : Option String := none

namespace TessellationParts

/-- Each part is given at most once. -/
def add (p : TessellationParts) (value : String) : Except AttributeFault TessellationParts :=
  if Primitive.patches.contains value then
    if p.primitive.isSome then .error .repeatedTessellation
    else .ok { p with primitive := some value }
  else if Primitive.spacings.contains value then
    if p.spacing.isSome then .error .repeatedTessellation else .ok { p with spacing := some value }
  else if Primitive.windings.contains value then
    if p.winding.isSome then .error .repeatedTessellation else .ok { p with winding := some value }
  else .error (.notTessellation value)

end TessellationParts

def Attribute.tessEvaluation (a : Attribute) : Except AttributeFault StageLayout := do
  let parts ← (a.positionals.map fun v => snakeCase v.text).foldlM TessellationParts.add {}
  match parts.primitive with
  | some primitive => return .tessEvaluation primitive parts.spacing parts.winding
  | none => throw (.noTessellationPrimitive Primitive.patches)

/-- What the attributes of a class say about its header; the later of two wins. -/
structure HeaderParts where
  version : Option String := none
  extensions : List String := []
  debug : Bool
  geometryInput : Option (String × Option Nat) := none
  geometryOutput : Option (String × Option Nat) := none
  tessControl : Option Nat := none
  tessEvaluation : Option StageLayout := none

def stageOnly (c : ClassDecl) (stage expected : Stage) (a : Attribute) :
    Except AttributeFault Unit :=
  if stage = expected then .ok () else .error (.wrongStage a.name expected stage c.name)

namespace HeaderParts

def add (c : ClassDecl) (stage : Stage) (p : HeaderParts) (a : Attribute) :
    Except AttributeFault HeaderParts := do
  match a.name with
  | "Version" => return { p with version := a.firstText? }
  | "Extension" =>
      match a.firstText? with
      | some name => return { p with extensions := p.extensions ++ [name] }
      | none => throw .unnamedExtension
  | "Debug" => return { p with debug := a.positionals.head? != some (.bool false) }
  | "GeometryInput" => do
      stageOnly c stage .geometry a
      let primitive ← a.primitive Primitive.geometryInputs
      return { p with geometryInput := some (primitive, ← a.count? "Invocations") }
  | "GeometryOutput" => do
      stageOnly c stage .geometry a
      let primitive ← a.primitive Primitive.geometryOutputs
      return { p with geometryOutput := some (primitive, ← a.count? "MaxVertices") }
  | "TessControl" => do
      stageOnly c stage .tessControl a
      return { p with tessControl := some (← a.vertices) }
  | "TessEvaluation" => do
      stageOnly c stage .tessEvaluation a
      return { p with tessEvaluation := some (← a.tessEvaluation) }
  | name => throw (.onDeclaration name a.span.line ("shader class '" ++ c.name ++ "'"))

def stageLayout (c : ClassDecl) (stage : Stage) (p : HeaderParts) :
    Except AttributeFault StageLayout :=
  match stage with
  | .vertex | .fragment => .ok .none
  | .geometry =>
      match p.geometryInput, p.geometryOutput with
      | none, _ => .error (.missing stage c.name "GeometryInput")
      | some _, none => .error (.missing stage c.name "GeometryOutput")
      | some (input, invocations), some (output, maxVertices) =>
          .ok (.geometry input invocations output maxVertices)
  | .tessControl =>
      match p.tessControl with
      | some vertices => .ok (.tessControl vertices)
      | none => .error (.missing stage c.name "TessControl")
  | .tessEvaluation =>
      match p.tessEvaluation with
      | some layout => .ok layout
      | none => .error (.missing stage c.name "TessEvaluation")

end HeaderParts

def Header.ofClass (settings : Settings) (stage : Stage) (c : ClassDecl) :
    Except AttributeFault Header := do
  let parts ← c.attributes.foldlM (HeaderParts.add c stage) { debug := settings.debug }
  let asked := settings.extensions.foldl addNew parts.extensions
  let stageLayout ← parts.stageLayout c stage
  return { name := c.name, stage, version := parts.version.getD settings.defaultVersion,
           debug := parts.debug, extensions := distinct asked, stageLayout }

end ShaderCompiler
