import ShaderCompiler.Decimal.Shortest
import ShaderCompiler.Emission.Call

namespace ShaderCompiler

namespace Precedence

def assign : Nat := 1

def conditional : Nat := 2

def unary : Nat := 14

def primary : Nat := 15

end Precedence

structure Rendered where
  text : String
  precedence : Nat
  deriving DecidableEq, Repr

namespace Rendered

def primary (text : String) : Rendered := ⟨text, Precedence.primary⟩

/-- The text for a place that asks for a precedence, in parentheses if it binds looser. -/
def fit (r : Rendered) (precedence : Nat) : String :=
  if r.precedence < precedence then "(" ++ r.text ++ ")" else r.text

end Rendered

def applied (callee : String) (args : List String) : Rendered :=
  .primary (callee ++ "(" ++ String.intercalate ", " args ++ ")")

def floatText (f : Frame) (value : Float) (suffix : String) : Except Diagnostic String :=
  if value.isFinite then
    let digits := Decimal.ofFloat value
    .ok ((if digits.toList.contains '.' then digits else digits ++ ".0") ++ suffix)
  else .error (f.invalid (.nonFinite (Decimal.ofFloat value)))

def literalText (f : Frame) (hint : Option ScalarKind) : Literal → Except Diagnostic String
  | .bool value => .ok (if value then "true" else "false")
  | .int value =>
      match hint with
      | some .float => floatText f (Float.ofNat value.toNat) "f"
      | some .double => floatText f (Float.ofNat value.toNat) "lf"
      | some .uint => .ok (toString value.toNat ++ "u")
      | _ => .ok (toString value.toNat)
  | .uint value => .ok (toString value.toNat ++ "u")
  | .float value => floatText f value (if hint = some .double then "lf" else "f")
  | .double value => floatText f value "lf"
  | .str _ => .error (.unsupported .strings (.body f.site))

namespace UnaryOp

def symbol : UnaryOp → String
  | neg => "-"
  | plus => "+"
  | not => "!"
  | bitNot => "~"
  | preInc | postInc => "++"
  | preDec | postDec => "--"

def isTrailing : UnaryOp → Bool
  | postInc | postDec => true
  | _ => false

/-- Only a sign leaves the form of a bare integer to the place of the whole. -/
def isSign : UnaryOp → Bool
  | neg | plus => true
  | _ => false

/-- An operator before its operand; a sign is kept apart from a sign. -/
def leading (op : UnaryOp) (operand : String) : String :=
  match operand.toList with
  | '-' :: _ | '+' :: _ => op.symbol ++ "(" ++ operand ++ ")"
  | _ => op.symbol ++ operand

end UnaryOp

def memberText (f : Frame) (type : Option ValueType) (target name : String) :
    Except Diagnostic String :=
  if type.any (·.array) then
    if name = "Length" ∨ name = "LongLength" then .ok (target ++ ".length()")
    else .error (.unsupportedMember (.arrayMember name target) f.site)
  else .ok (target ++ "." ++ name)

def arrayText (element : String) (items : List String) : String :=
  element ++ "[" ++ toString items.length ++ "](" ++ String.intercalate ", " items ++ ")"

mutual

def render (f : Frame) (hint : Option ScalarKind) : Expr → Emit Rendered
  | .literal l => return .primary (← literalText f hint l)
  | .ident name => return .primary name
  | .self => throw (.unsupportedMember .bareSelf f.site)
  | .assign op target value => do
      let lhs := (← render f none target).fit Precedence.unary
      let rhs ← render f (f.hintOf target) value
      if op = .rem ∧ !f.integralPair target value then
        return ⟨lhs ++ " = mod(" ++ lhs ++ ", " ++ rhs.text ++ ")", Precedence.assign⟩
      else
        return ⟨lhs ++ " " ++ op.symbol ++ " " ++ rhs.fit Precedence.assign, Precedence.assign⟩
  | .binary op lhs rhs => do
      let l ← render f (if op.isShift then none else f.hintOf rhs) lhs
      let r ← render f (if op.isShift then none else f.hintOf lhs) rhs
      if op = .rem ∧ !f.integralPair lhs rhs then return applied "mod" [l.text, r.text]
      else
        let p := op.precedence
        return ⟨l.fit p ++ " " ++ op.symbol ++ " " ++ r.fit (p + 1), p⟩
  | .unary op operand => do
      let o ← render f (if op.isSign then hint else none) operand
      if op.isTrailing then return .primary (o.fit Precedence.primary ++ op.symbol)
      else return ⟨op.leading (o.fit Precedence.unary), Precedence.unary⟩
  | .conditional test yes no => do
      let hint := (hint.or (f.hintOf yes)).or (f.hintOf no)
      let c ← render f none test
      let a ← render f hint yes
      let b ← render f hint no
      return ⟨c.fit (Precedence.conditional + 1) ++ " ? " ++ a.fit Precedence.conditional ++
        " : " ++ b.fit Precedence.conditional, Precedence.conditional⟩
  | .call receiver name args => do
      match ← callForm f receiver name args with
      | .verbatim text => return .primary text
      | .construct (.zero type zero) => return applied type [zero]
      | .construct (.ofArgs type hints) => return applied type (← renderArgs f hints args)
      | .intrinsic name hints => return applied name (← renderArgs f hints args)
      | .own name hints => do
          modify (·.addCall name)
          return applied name (← renderArgs f hints args)
      | .foreign dependency => do
          let values ← renderArgs f [] args
          modify (·.addDependency dependency)
          return applied name values
  | .construct type args => do
      if hasLabel args then throw (f.reject .namedArguments type.span)
      match ← constructForm f type.name args with
      | .zero name zero => return applied name [zero]
      | .ofArgs name hints => return applied name (← renderArgs f hints args)
  | .member .self name => return .primary name
  | .member target name => do
      let t ← render f none target
      return .primary (← memberText f (infer f.env target) (t.fit Precedence.primary) name)
  | .newArray element _ (some items) => do
      let type ← f.context.resolveType element.name
      let hint := (Vocabulary.scalarKind? type).bind ScalarKind.hint?
      return .primary (arrayText type (← renderItems f hint items))
  | .newArray _ _ none => throw (f.invalid .bareArrayCreation)
  | .arrayInit _ => throw (f.invalid .bareArrayInit)
  | .index target index => do
      let t ← render f none target
      let i ← render f none index
      return .primary (t.fit Precedence.primary ++ "[" ++ i.text ++ "]")
  | .cast type operand => do
      if type.pointer then throw (f.reject .pointers type.span)
      let name ← f.context.resolveType type.name
      let o ← render f (literalHint (some (.named name))) operand
      return applied name [o.text]
  | .base span => throw (f.reject .baseAccess span)
  | .null span => throw (f.reject .null span)
  | .lambda _ _ span => throw (f.reject .lambdas span)
  | .query span => throw (f.reject .queries span)
  | .typeTest _ _ _ span => throw (f.reject .typeTests span)
  | .typeOf _ span => throw (f.reject .typeOf span)
  | .sizeOf _ span => throw (f.reject .sizeOf span)
  | .deref _ span => throw (f.reject .pointers span)
  | .addressOf _ span => throw (f.reject .pointers span)
  | .arrow _ _ span => throw (f.reject .pointers span)
  | .stackAlloc _ _ span => throw (f.reject .stackAlloc span)
  | .anonymous _ span => throw (f.reject .anonymousTypes span)

def renderArgs (f : Frame) (hints : List (Option ScalarKind)) :
    List (Arg Expr) → Emit (List String)
  | [] => return []
  | a :: rest => do
      let r ← render f hints.head?.join a.value
      return r.text :: (← renderArgs f hints.tail rest)

def renderItems (f : Frame) (hint : Option ScalarKind) : List Expr → Emit (List String)
  | [] => return []
  | e :: rest => do
      let r ← render f hint e
      return r.text :: (← renderItems f hint rest)

end

end ShaderCompiler
