import ShaderCompiler.Emission.Expr

namespace ShaderCompiler

structure ArrayParts where
  size : String
  init : Option String
  deriving DecidableEq, Repr

def listedParts (f : Frame) (element : String) (hint : Option ScalarKind) (name : String)
    (items : List Expr) : Emit ArrayParts := do
  if items.isEmpty then throw (f.invalid (.emptyArray name))
  let values ← renderItems f hint items
  return ⟨toString items.length, some (arrayText element values)⟩

def arrayParts (f : Frame) (element : String) (hint : Option ScalarKind) (name : String) :
    Option Expr → Emit ArrayParts
  | none => throw (.missingArraySize (.localArray name f.site))
  | some (.arrayInit items) => listedParts f element hint name items
  | some (.newArray _ _ (some items)) => listedParts f element hint name items
  | some (.newArray _ (some size) none) => return ⟨(← render f none size).text, none⟩
  | some e => return ⟨"", some ((← render f none e).fit Precedence.assign)⟩

def Expr.isArrayValue : Expr → Bool
  | .arrayInit _ => true
  | .newArray _ _ _ => true
  | _ => false

/-- The type of declared locals. The word `var` leaves it to the first initial value, and what
that value is refused for comes before its having no type. -/
def declaredType (f : Frame) (type : TypeRef) (declarators : List (Declarator Expr)) :
    Emit ValueType :=
  if type.name = "var" then
    match declarators.head?.bind (·.init) with
    | none => throw (.unknownType (.notInferable f.site))
    | some init =>
        match infer f.env init with
        | some t => return t
        | none => do
            let _ ← render f none init
            throw (.unknownType (.notInferable f.site))
  else return .ofRef type

/-- One declared name with its type. It is in scope after its own initial value. -/
def declarator (f : Frame) (type : ValueType) (target : String) (d : Declarator Expr) :
    Emit (String × ValueType) := do
  let hint := literalHint (some type)
  if type.array || d.init.any Expr.isArrayValue then
    let parts ← arrayParts f target hint d.name d.init
    let sized := d.name ++ "[" ++ parts.size ++ "]"
    let text := match parts.init with
      | some init => sized ++ " = " ++ init
      | none => sized
    return (text, .arrayOf type.name)
  else
    match d.init with
    | some init => return (d.name ++ " = " ++ (← render f hint init).fit Precedence.assign, type)
    | none => return (d.name, type)

def declaratorList (f : Frame) (type : ValueType) (target : String) :
    List (Declarator Expr) → Emit (List String × Frame)
  | [] => return ([], f)
  | d :: rest => do
      let (text, bound) ← declarator f type target d
      let (texts, f) ← declaratorList (f.bind d.name bound) type target rest
      return (text :: texts, f)

def declaration (f : Frame) (isConst : Bool) (type : TypeRef)
    (declarators : List (Declarator Expr)) : Emit (String × Frame) := do
  if type.pointer then throw (f.reject .pointers type.span)
  let valueType ← declaredType f type declarators
  let target ← f.context.resolveType valueType.name
  let (texts, f) ← declaratorList f valueType target declarators
  let text := target ++ " " ++ String.intercalate ", " texts
  return (if isConst then "const " ++ text else text, f)

/-- The initial value of a field. Only functions of GLSL may be called in it. -/
def initializer (ctx : ClassContext) (owner : String) (type : ValueType) (e : Expr) :
    Except Diagnostic String := do
  let f : Frame := { env := { context := ctx }, member := owner }
  let hint := literalHint (some type)
  let emit : Emit String :=
    if type.array then do
      let target ← ctx.resolveType type.name
      return (← arrayParts f target hint owner (some e)).init.getD ""
    else return (← render f hint e).fit Precedence.assign
  let (text, uses) ← emit.run {}
  match uses.dependencies with
  | [] => return text
  | d :: _ => throw (.invalidUse (.initializerCalls owner d.qualifiedName))

def initializerLength? : Expr → Option Nat
  | .arrayInit items => some items.length
  | .newArray _ _ (some items) => some items.length
  | .newArray _ (some (.literal (.int n))) none => some n.toNat
  | .newArray _ (some (.literal (.uint n))) none => some n.toNat
  | _ => none

end ShaderCompiler
