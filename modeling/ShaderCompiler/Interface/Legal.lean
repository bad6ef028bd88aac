import ShaderCompiler.Diagnostic
import ShaderCompiler.Interface.Basic

namespace ShaderCompiler

inductive LayoutRole where
  | input
  | output
  | uniform
  | uniformBlock
  | inputBlock
  | outputBlock
  deriving DecidableEq, Repr

def LayoutRole.legalKeys (stage : Stage) : LayoutRole → List String
  | input =>
      if stage = .fragment then
        ["location", "component", "origin_upper_left", "pixel_center_integer"]
      else ["location", "component"]
  | output =>
      match stage with
      | .fragment => ["location", "index", "component"]
      | .geometry => ["location", "component", "stream"]
      | _ => ["location", "component"]
  | uniform => ["location", "binding"]
  | uniformBlock => ["std140", "shared", "packed", "row_major", "column_major", "binding"]
  | inputBlock | outputBlock => ["location"]

namespace LayoutParam

def fragCoordKeys : List String := ["origin_upper_left", "pixel_center_integer"]

/-- Keys that take a value; every other key stands alone. -/
def valuedKeys : List String := ["location", "index", "component", "binding", "stream"]

def check (stage : Stage) (role : LayoutRole) (owner : String) (fragCoord : Bool)
    (p : LayoutParam) : Except LayoutFault Unit :=
  if p.key ∉ role.legalKeys stage then
    .error (.illegalKey p.key owner stage (role.legalKeys stage))
  else if p.key ∈ fragCoordKeys ∧ !fragCoord then .error (.onlyOnFragCoord p.key owner)
  else if p.key ∈ valuedKeys ∧ p.value.isNone then .error (.needsValue p.key owner)
  else if p.key ∉ valuedKeys ∧ p.value.isSome then .error (.takesNoValue p.key owner)
  else .ok ()

end LayoutParam

def Layout.check (stage : Stage) (role : LayoutRole) (owner : String) (fragCoord : Bool)
    (l : Layout) : Except Diagnostic Unit :=
  (l.params.forM (LayoutParam.check stage role owner fragCoord)).mapError .badLayout

/-- Words are parted by an underscore where a capital follows a small letter or a digit;
`afterSmall` tells whether one of these stood before. -/
def snakeChars : (afterSmall : Bool) → List Char → List Char
  | _, [] => []
  | afterSmall, c :: rest =>
      if c.isUpper then
        if afterSmall then '_' :: c.toLower :: snakeChars false rest
        else c.toLower :: snakeChars false rest
      else c :: snakeChars (c.isLower || c.isDigit) rest

def snakeCase (text : String) : String := String.ofList (snakeChars false text.toList)

end ShaderCompiler
