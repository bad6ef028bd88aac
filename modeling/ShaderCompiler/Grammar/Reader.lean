import ShaderCompiler.Token.Fault
import ShaderCompiler.Tree.Basic

namespace ShaderCompiler.Grammar

open Token

abbrev Reader := StateT (List Token) (Except ReadError)

def peekAt (n : Nat) : Reader Kind := fun tokens =>
  .ok ((tokens[n]?.map Token.kind).getD .eof, tokens)

def peek : Reader Kind := peekAt 0

def ahead : Reader (List Kind) := fun tokens => .ok (tokens.map Token.kind, tokens)

def here : Reader Span := fun tokens => .ok ((tokens.head?.map Token.span).getD .none, tokens)

def advance : Reader Kind := fun tokens =>
  match tokens with
  | [] => .ok (.eof, [])
  | token :: rest => .ok (token.kind, rest)

def failAt {α : Type} (span : Span) (fault : ReadFault) : Reader α := fun _ =>
  .error ⟨fault, span.line, span.column⟩

def fail {α : Type} (fault : ReadFault) : Reader α := do failAt (← here) fault

def isAt (kind : Kind) : Reader Bool := do return (← peek) == kind

def eat (kind : Kind) : Reader Bool := do
  if (← peek) == kind then
    let _ ← advance
    return true
  else return false

def expect (kind : Kind) : Reader Unit := do
  let got ← peek
  if got == kind then
    let _ ← advance
  else fail (.expected kind.text got)

def ident (what : String) : Reader String := do
  match ← peek with
  | .identifier name =>
      let _ ← advance
      return name
  | got => fail (.expected what got)

def word (text : String) : Reader Unit := do
  match ← peek with
  | .identifier name =>
      if name == text then
        let _ ← advance
      else fail (.expected ("'" ++ text ++ "'") (.identifier name))
  | got => fail (.expected ("'" ++ text ++ "'") got)

instance : Coe Symbol Kind := ⟨.symbol⟩

instance : Coe Keyword Kind := ⟨.keyword⟩

def isIdentifier : Kind → Bool
  | .identifier _ => true
  | _ => false

/-- Items up to a kind that ends them. The bound is never reached by a list of tokens no longer than
it. -/
def manyUntil {α : Type} (stop : Kind → Bool) (item : Reader α) : Nat → Reader (List α)
  | 0 => fail .tooDeep
  | bound + 1 => do
      if stop (← peek) then return []
      else
        let first ← item
        let rest ← manyUntil stop item bound
        return first :: rest

def sepBy {α : Type} (item : Reader α) : Nat → Reader (List α)
  | 0 => fail .tooDeep
  | bound + 1 => do
      let first ← item
      if ← eat Symbol.comma then
        let rest ← sepBy item bound
        return first :: rest
      else return [first]

def commaList {α : Type} (close : Kind) (item : Reader α) : Nat → Reader (List α)
  | 0 => fail .tooDeep
  | bound + 1 => do
      if ← isAt close then return []
      else
        let first ← item
        if ← eat Symbol.comma then
          let rest ← commaList close item bound
          return first :: rest
        else return [first]

def typeRef : Reader TypeRef := do
  let span ← here
  let name ← ident "type name"
  if (← peek) == .symbol .leftBracket && (← peekAt 1) == .symbol .rightBracket then
    let _ ← advance
    let _ ← advance
    return ⟨name, true, false, span⟩
  else if ← eat Symbol.star then return ⟨name, false, true, span⟩
  else return ⟨name, false, false, span⟩

/-- The value of an attribute argument. Integers wrap around to signed words, and so does the least
of them, -9223372036854775808, under negation; where overflow is checked, a program stops there. -/
def attrValue : Reader AttrValue := do
  let span ← here
  let negative ← eat Symbol.minus
  let got ← advance
  match got, negative with
  | .int value, _ | .uint value, _ =>
      return .int (if negative then -value.toInt64 else value.toInt64)
  | .float value, _ | .double value, _ => return .float (if negative then -value else value)
  | .string text, false => return .str text
  | .identifier name, false => return .ident name
  | .keyword .kwTrue, false => return .bool true
  | .keyword .kwFalse, false => return .bool false
  | other, _ => failAt span (.invalidAttributeValue other)

def attributeArg : Reader AttributeArg := do
  if isIdentifier (← peek) && (← peekAt 1) == .symbol .equals then
    let key ← ident "attribute parameter"
    let _ ← advance
    return .named key (← attrValue)
  else return .positional (← attrValue)

def oneAttribute (bound : Nat) : Reader Attribute := do
  let span ← here
  let name ← ident "attribute name"
  if ← eat Symbol.leftParen then
    let args ← commaList Symbol.rightParen attributeArg bound
    expect Symbol.rightParen
    return ⟨name, args, span⟩
  else return ⟨name, [], span⟩

/-- One bracketed list of attributes, and whether it is for the returned value. -/
def attributeList (bound : Nat) : Reader (Bool × List Attribute) := do
  expect Symbol.leftBracket
  let forReturn := (← peek) == .keyword .kwReturn && (← peekAt 1) == .symbol .colon
  if forReturn then
    let _ ← advance
    let _ ← advance
  let attributes ← sepBy (oneAttribute bound) bound
  expect Symbol.rightBracket
  return (forReturn, attributes)

def attributeLists (bound : Nat) : Reader (List Attribute × List Attribute) := do
  let lists ← manyUntil (· != .symbol .leftBracket) (attributeList bound) bound
  return ((lists.filter (!·.1)).flatMap (·.2), (lists.filter (·.1)).flatMap (·.2))

def attributes (bound : Nat) : Reader (List Attribute) := do
  let span ← here
  let (own, forReturn) ← attributeLists bound
  if forReturn.isEmpty then return own
  else failAt span .misplacedReturnAttribute

end ShaderCompiler.Grammar
