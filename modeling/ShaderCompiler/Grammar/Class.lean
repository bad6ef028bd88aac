import ShaderCompiler.Grammar.Body
import ShaderCompiler.Token.Lexer

namespace ShaderCompiler

namespace Grammar

open Token

inductive Member where
  | field (decl : FieldDecl)
  | struct (decl : StructDecl)
  | method (decl : MethodDecl)

namespace Member

def field? : Member → Option FieldDecl
  | field decl => some decl
  | _ => none

def struct? : Member → Option StructDecl
  | struct decl => some decl
  | _ => none

def method? : Member → Option MethodDecl
  | method decl => some decl
  | _ => none

end Member

def isModifier : Kind → Bool
  | .modifier _ => true
  | _ => false

def modifiers (bound : Nat) : Reader Unit := do
  let _ ← manyUntil (!isModifier ·) advance bound

def methodBody (returnsValue : Bool) (fuel : Nat) : Reader (Option (List Stmt)) := do
  if ← eat Symbol.semicolon then return none
  else if ← eat Symbol.fatArrow then
    let value ← expr fuel
    expect Symbol.semicolon
    return some [if returnsValue then .ret (some value) else .eval value]
  else return some (← block fuel)

def structField (fuel : Nat) : Reader FieldDecl := do
  let span ← here
  let attrs ← attributes fuel
  modifiers fuel
  let type ← typeRef
  let name ← ident "struct member name"
  let init ← ifEaten Symbol.equals (initializer fuel)
  expect Symbol.semicolon
  return ⟨attrs, false, type, name, init, span⟩

def structDecl (attrs : List Attribute) (span : Span) (fuel : Nat) : Reader StructDecl := do
  expect Keyword.kwStruct
  let name ← ident "struct name"
  expect Symbol.leftBrace
  let fields ← manyUntil isBlockEnd (structField fuel) fuel
  expect Symbol.rightBrace
  let _ ← eat Symbol.semicolon
  return ⟨attrs, name, fields, span⟩

def constantDecl (attrs : List Attribute) (span : Span) (fuel : Nat) : Reader FieldDecl := do
  expect Keyword.kwConst
  let type ← typeRef
  let name ← ident "constant name"
  if ← eat Symbol.equals then
    let init ← initializer fuel
    expect Symbol.semicolon
    return ⟨attrs, true, type, name, some init, span⟩
  else fail (.constantWithoutValue name)

/-- A constructor call of the base class may follow the parameters; it means nothing here. -/
def constructorDecl (attrs returnAttrs : List Attribute) (isStatic : Bool) (span : Span)
    (fuel : Nat) : Reader MethodDecl := do
  let name ← ident "class name"
  let given ← params fuel
  if ← eat Symbol.colon then
    expect Keyword.kwBase
    let _ ← args fuel
  let body ← methodBody false fuel
  return ⟨attrs, returnAttrs, isStatic, none, name, given, body, true, span⟩

def member (className : String) (fuel : Nat) : Reader Member := do
  let span ← here
  let (attrs, returnAttrs) ← attributeLists fuel
  modifiers fuel
  let isStatic ← eat Keyword.kwStatic
  modifiers fuel
  let next ← peek
  let calls := (← peekAt 1) == .symbol .leftParen
  if next == .keyword .kwStruct then
    if returnAttrs.isEmpty then return .struct (← structDecl attrs span fuel)
    else failAt span .misplacedReturnAttribute
  else if next == .keyword .kwConst then return .field (← constantDecl attrs span fuel)
  else if next == .identifier className && calls then
    return .method (← constructorDecl attrs returnAttrs isStatic span fuel)
  else
    let type ← typeRef
    let name ← ident "member name"
    if ← isAt Symbol.leftParen then
      let given ← params fuel
      let body ← methodBody (type.name != "void") fuel
      return .method ⟨attrs, returnAttrs, isStatic, some type, name, given, body, false, span⟩
    else if returnAttrs.isEmpty then
      let init ← ifEaten Symbol.equals (initializer fuel)
      expect Symbol.semicolon
      return .field ⟨attrs, false, type, name, init, span⟩
    else failAt span .misplacedReturnAttribute

/-- The kind of a class: a stage by its base class, or a library if it is static. -/
def classKind (name : String) (isStatic : Bool) (span : Span) : Reader ClassKind := do
  if ← eat Symbol.colon then
    let baseSpan ← here
    let base ← ident "base class"
    if isStatic then failAt baseSpan (.derivedStaticClass name base)
    else
      match Stage.ofBaseClass? base with
      | some stage => return .shader stage
      | none => failAt baseSpan (.unknownBaseClass base name)
  else if isStatic then return .library
  else failAt span (.noBaseClass name)

def classDecl (fuel : Nat) : Reader ClassDecl := do
  let span ← here
  let attrs ← attributes fuel
  modifiers fuel
  let isStatic ← eat Keyword.kwStatic
  modifiers fuel
  expect Keyword.kwClass
  let name ← ident "class name"
  let kind ← classKind name isStatic span
  expect Symbol.leftBrace
  let members ← manyUntil isBlockEnd (member name fuel) fuel
  expect Symbol.rightBrace
  return {
    name, kind, attributes := attrs, span
    fields := members.filterMap Member.field?
    structs := members.filterMap Member.struct?
    methods := members.filterMap Member.method? }

def usingDirective (bound : Nat) : Reader Unit := do
  let _ ← manyUntil (fun kind => kind == .symbol .semicolon || kind == .eof) advance bound
  expect Symbol.semicolon

def sourceItem (fuel : Nat) : Reader (Option ClassDecl) := do
  if ← isAt Keyword.kwUsing then
    usingDirective fuel
    return none
  else return some (← classDecl fuel)

def source (fuel : Nat) : Reader (List ClassDecl) := do
  let items ← manyUntil (· == .eof) (sourceItem fuel) fuel
  return items.filterMap id

end Grammar

def readClasses (tokens : List Token) : Except ReadError (List ClassDecl) :=
  (Grammar.source (Grammar.fuelFor tokens) tokens).map (·.1)

def readExpr (tokens : List Token) : Except ReadError Expr :=
  (Grammar.expr (Grammar.fuelFor tokens) tokens).map (·.1)

end ShaderCompiler
