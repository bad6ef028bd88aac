import ShaderCompiler.Grammar.Reader
import ShaderCompiler.Tree.Decl
import ShaderCompiler.Vocabulary

namespace ShaderCompiler.Grammar

open Token

/-- Between two tokens taken there are fewer than sixteen nested calls. -/
def fuelFor (tokens : List Token) : Nat := 16 * (tokens.length + 2)

def assignOp? : Kind → Option AssignOp
  | .symbol .equals => some .assign
  | .symbol .plusEq => some .add
  | .symbol .minusEq => some .sub
  | .symbol .starEq => some .mul
  | .symbol .slashEq => some .div
  | .symbol .percentEq => some .rem
  | .symbol .ampEq => some .bitAnd
  | .symbol .pipeEq => some .bitOr
  | .symbol .caretEq => some .bitXor
  | .symbol .shlEq => some .shl
  | .symbol .shrEq => some .shr
  | _ => none

def binaryOp? : Kind → Option BinaryOp
  | .symbol .pipePipe => some .or
  | .symbol .ampAmp => some .and
  | .symbol .pipe => some .bitOr
  | .symbol .caret => some .bitXor
  | .symbol .amp => some .bitAnd
  | .symbol .eqEq => some .eq
  | .symbol .bangEq => some .ne
  | .symbol .lt => some .lt
  | .symbol .gt => some .gt
  | .symbol .ltEq => some .le
  | .symbol .gtEq => some .ge
  | .symbol .shl => some .shl
  | .symbol .shr => some .shr
  | .symbol .plus => some .add
  | .symbol .minus => some .sub
  | .symbol .star => some .mul
  | .symbol .slash => some .div
  | .symbol .percent => some .rem
  | _ => none

def unaryOp? : Kind → Option UnaryOp
  | .symbol .minus => some .neg
  | .symbol .plus => some .plus
  | .symbol .bang => some .not
  | .symbol .tilde => some .bitNot
  | .symbol .plusPlus => some .preInc
  | .symbol .minusMinus => some .preDec
  | _ => none

def typeTestOp? : Kind → Option TypeTestOp
  | .keyword .kwIs => some .is
  | .keyword .kwAs => some .as
  | _ => none

def typeTestPrecedence : Nat := BinaryOp.precedence .lt

/-- Whether the parenthesis that is open `depth` levels deep closes right before an arrow. A
semicolon or a brace on the way says no. -/
def closesBeforeArrow : (depth : Nat) → List Kind → Bool
  | _, [] => false
  | depth, .symbol .leftParen :: rest => closesBeforeArrow (depth + 1) rest
  | depth, .symbol .rightParen :: rest =>
      if depth ≤ 1 then rest.head? == some (.symbol .fatArrow)
      else closesBeforeArrow (depth - 1) rest
  | _, .eof :: _ => false
  | _, .symbol .semicolon :: _ => false
  | _, .symbol .leftBrace :: _ => false
  | depth, _ :: rest => closesBeforeArrow depth rest

def startsLambda : Reader Bool := do
  match ← peek with
  | .keyword .kwDelegate => return true
  | .identifier _ => return (← peekAt 1) == .symbol .fatArrow
  | .symbol .leftParen => return closesBeforeArrow 0 (← ahead)
  | _ => return false

def startsOperand : Kind → Bool
  | .identifier _ | .int _ | .uint _ | .float _ | .double _ | .string _ => true
  | .symbol .leftParen | .symbol .tilde | .symbol .bang => true
  | .keyword .kwNew | .keyword .kwThis | .keyword .kwBase | .keyword .kwTrue | .keyword .kwFalse
  | .keyword .kwNull | .keyword .kwTypeof | .keyword .kwSizeof => true
  | _ => false

def startsSigned : Kind → Bool
  | .symbol .minus | .symbol .plus | .symbol .plusPlus | .symbol .minusMinus => true
  | _ => false

/-- `(T)` or `(T*)` before an operand is a cast. A sign begins an operand only behind a type of the
vocabulary. -/
def startsCast : Reader Bool := do
  match ← peek, ← peekAt 1 with
  | .symbol .leftParen, .identifier name =>
      let castOf (after : Kind) : Bool :=
        startsOperand after || (Vocabulary.isBuiltin name && startsSigned after)
      match ← peekAt 2, ← peekAt 3 with
      | .symbol .rightParen, after => return castOf after
      | .symbol .star, .symbol .rightParen => return castOf (← peekAt 4)
      | _, _ => return false
  | _, _ => return false

/-- `T x`, `T[] x`, or `T* x` before a sign that ends a declarator. -/
def startsDeclaration : Reader Bool := do
  let first ← peek
  let second ← peekAt 1
  let third ← peekAt 2
  let fourth ← peekAt 3
  let ends := fourth == .symbol .equals || fourth == .symbol .semicolon || fourth == .symbol .comma
  return isIdentifier first &&
    (isIdentifier second ||
      (second == .symbol .leftBracket && third == .symbol .rightBracket && isIdentifier fourth) ||
      (second == .symbol .star && isIdentifier third && ends))

/-- The names in a parenthesized list of lambda parameters: the last word before each comma. -/
def lambdaParams : (last : Option String) → Nat → Reader (List String)
  | _, 0 => fail .tooDeep
  | last, bound + 1 => do
      let next ← peek
      if next == .symbol .rightParen || next == .eof then return last.toList
      else
        match ← advance with
        | .identifier name => lambdaParams (some name) bound
        | .symbol .comma =>
            let rest ← lambdaParams none bound
            return last.toList ++ rest
        | _ => lambdaParams last bound

def passing? : Kind → Option Passing
  | .keyword .kwIn => some .input
  | .keyword .kwOut => some .output
  | .keyword .kwRef => some .inout
  | _ => none

inductive QueryClause where
  | keys
  | binding
  | range
  | join
  | group
  | into

def clause? : Kind → Option QueryClause
  | .identifier "where" | .identifier "select" | .identifier "orderby" => some .keys
  | .identifier "let" => some .binding
  | .identifier "from" => some .range
  | .identifier "join" => some .join
  | .identifier "group" => some .group
  | .identifier "into" => some .into
  | _ => none

def isBlockEnd (kind : Kind) : Bool := kind == .symbol .rightBrace || kind == .eof

def isSectionEnd (kind : Kind) : Bool :=
  kind == .keyword .kwCase || kind == .keyword .kwDefault || isBlockEnd kind

def unlessAt {α : Type} (stop : Kind) (item : Reader α) : Reader (Option α) := do
  if ← isAt stop then return none else return some (← item)

def ifEaten {α : Type} (start : Kind) (item : Reader α) : Reader (Option α) := do
  if ← eat start then return some (← item) else return none

mutual

def expr : Nat → Reader Expr
  | 0 => fail .tooDeep
  | fuel + 1 => do
      if ← startsLambda then lambda fuel
      else
        let target ← conditional fuel
        match assignOp? (← peek) with
        | none => return target
        | some op =>
            let _ ← advance
            return .assign op target (← expr fuel)

def lambda : Nat → Reader Expr
  | 0 => fail .tooDeep
  | fuel + 1 => do
      let span ← here
      if ← eat Keyword.kwDelegate then
        let parameters ← if ← isAt Symbol.leftParen then params fuel else pure []
        return .lambda (parameters.map (·.name)) (.block (← block fuel)) span
      else
        let names ←
          if ← eat Symbol.leftParen then do
            let names ← lambdaParams none fuel
            expect Symbol.rightParen
            pure names
          else do
            let name ← ident "lambda parameter"
            pure [name]
        expect Symbol.fatArrow
        if ← isAt Symbol.leftBrace then return .lambda names (.block (← block fuel)) span
        else return .lambda names (.expr (← expr fuel)) span

def conditional : Nat → Reader Expr
  | 0 => fail .tooDeep
  | fuel + 1 => do
      let test ← binary fuel 0
      if ← eat Symbol.question then
        let yes ← expr fuel
        expect Symbol.colon
        return .conditional test yes (← conditional fuel)
      else return test

/-- Operators of at least the given strength, the left one first among equals. -/
def binary : Nat → (strength : Nat) → Reader Expr
  | 0, _ => fail .tooDeep
  | fuel + 1, strength => do
      let lhs ← unary fuel
      binaryRest fuel strength lhs

def binaryRest : Nat → (strength : Nat) → (lhs : Expr) → Reader Expr
  | 0, _, _ => fail .tooDeep
  | fuel + 1, strength, lhs => do
      let next ← peek
      match typeTestOp? next, binaryOp? next with
      | some op, _ =>
          if strength ≤ typeTestPrecedence then
            let span ← here
            let _ ← advance
            let type ← typeRef
            binaryRest fuel strength (.typeTest op lhs type span)
          else return lhs
      | none, some op =>
          if strength ≤ op.precedence then
            let _ ← advance
            let rhs ← binary fuel (op.precedence + 1)
            binaryRest fuel strength (.binary op lhs rhs)
          else return lhs
      | none, none => return lhs

def unary : Nat → Reader Expr
  | 0 => fail .tooDeep
  | fuel + 1 => do
      let span ← here
      match ← peek with
      | .symbol .star =>
          let _ ← advance
          return .deref (← unary fuel) span
      | .symbol .amp =>
          let _ ← advance
          return .addressOf (← unary fuel) span
      | next =>
          match unaryOp? next with
          | some op =>
              let _ ← advance
              return .unary op (← unary fuel)
          | none =>
              if ← startsCast then
                let _ ← advance
                let type ← typeRef
                expect Symbol.rightParen
                return .cast type (← unary fuel)
              else
                let operand ← primary fuel
                suffixes fuel operand

def suffixes : Nat → (operand : Expr) → Reader Expr
  | 0, _ => fail .tooDeep
  | fuel + 1, operand => do
      match ← peek with
      | .symbol .dot =>
          let _ ← advance
          let name ← ident "member name"
          if ← isAt Symbol.leftParen then
            let given ← args fuel
            suffixes fuel (.call (some operand) name given)
          else suffixes fuel (.member operand name)
      | .symbol .arrow =>
          let span ← here
          let _ ← advance
          let name ← ident "member name"
          suffixes fuel (.arrow operand name span)
      | .symbol .leftParen =>
          match operand with
          | .ident name =>
              let given ← args fuel
              suffixes fuel (.call none name given)
          | _ => fail .notCallable
      | .symbol .leftBracket =>
          let _ ← advance
          let index ← expr fuel
          expect Symbol.rightBracket
          suffixes fuel (.index operand index)
      | .symbol .plusPlus =>
          let _ ← advance
          suffixes fuel (.unary .postInc operand)
      | .symbol .minusMinus =>
          let _ ← advance
          suffixes fuel (.unary .postDec operand)
      | _ => return operand

def args : Nat → Reader (List (Arg Expr))
  | 0 => fail .tooDeep
  | fuel + 1 => do
      expect Symbol.leftParen
      let given ← commaList Symbol.rightParen (arg fuel) fuel
      expect Symbol.rightParen
      return given

def arg : Nat → Reader (Arg Expr)
  | 0 => fail .tooDeep
  | fuel + 1 => do
      let label ←
        if isIdentifier (← peek) && (← peekAt 1) == .symbol .colon then do
          let name ← ident "argument name"
          let _ ← advance
          pure (some name)
        else pure none
      if (passing? (← peek)).isSome then
        let _ ← advance
      return ⟨label, ← expr fuel⟩

def primary : Nat → Reader Expr
  | 0 => fail .tooDeep
  | fuel + 1 => do
      let span ← here
      match ← advance with
      | .int value => return .literal (.int value)
      | .uint value => return .literal (.uint value)
      | .float value => return .literal (.float value)
      | .double value => return .literal (.double value)
      | .string text => return .literal (.str text)
      | .keyword .kwTrue => return .literal (.bool true)
      | .keyword .kwFalse => return .literal (.bool false)
      | .keyword .kwNull => return .null span
      | .keyword .kwThis => return .self
      | .keyword .kwBase => return .base span
      | .identifier name =>
          let isQuery := name == "from" && isIdentifier (← peek) &&
            (← peekAt 1) == .keyword .kwIn
          if isQuery then
            queryRange fuel
            queryClauses fuel
            return .query span
          else return .ident name
      | .symbol .leftParen =>
          let inner ← expr fuel
          expect Symbol.rightParen
          return inner
      | .keyword .kwNew => creation fuel span
      | .keyword .kwTypeof =>
          expect Symbol.leftParen
          let type ← typeRef
          expect Symbol.rightParen
          return .typeOf type span
      | .keyword .kwSizeof =>
          expect Symbol.leftParen
          let type ← typeRef
          expect Symbol.rightParen
          return .sizeOf type span
      | .keyword .kwStackalloc =>
          let typeSpan ← here
          let name ← ident "element type"
          expect Symbol.leftBracket
          let size ← expr fuel
          expect Symbol.rightBracket
          return .stackAlloc ⟨name, false, false, typeSpan⟩ size span
      | got => failAt span (.unexpectedToken got)

def creation : Nat → Span → Reader Expr
  | 0, _ => fail .tooDeep
  | fuel + 1, span => do
      if ← eat Symbol.leftBrace then
        let members ← commaList Symbol.rightBrace (anonymousMember fuel) fuel
        expect Symbol.rightBrace
        return .anonymous members span
      else
        let typeSpan ← here
        let name ← ident "type name after new"
        let type : TypeRef := ⟨name, false, false, typeSpan⟩
        if ← eat Symbol.leftBracket then
          let size ← unlessAt Symbol.rightBracket (expr fuel)
          expect Symbol.rightBracket
          let items ← if ← isAt Symbol.leftBrace then some <$> braceList fuel else pure none
          if size.isNone && items.isNone then failAt span .unsizedArray
          else return .newArray type size items
        else return .construct type (← args fuel)

def anonymousMember : Nat → Reader (String × Expr)
  | 0 => fail .tooDeep
  | fuel + 1 => do
      let name ← ident "member name"
      match ← ifEaten Symbol.equals (expr fuel) with
      | some value => return (name, value)
      | none => return (name, .ident name)

def queryRange : Nat → Reader Unit
  | 0 => fail .tooDeep
  | fuel + 1 => do
      let _ ← ident "range variable"
      expect Keyword.kwIn
      let _ ← conditional fuel

def queryKey : Nat → Reader Unit
  | 0 => fail .tooDeep
  | fuel + 1 => do
      let _ ← conditional fuel
      match ← peek with
      | .identifier direction =>
          if direction == "ascending" || direction == "descending" then
            let _ ← advance
      | _ => pure ()

def queryClauses : Nat → Reader Unit
  | 0 => fail .tooDeep
  | fuel + 1 => do
      match clause? (← peek) with
      | some .keys =>
          let _ ← advance
          let _ ← sepBy (queryKey fuel) fuel
          queryClauses fuel
      | some .binding =>
          let _ ← advance
          let _ ← ident "range variable"
          expect Symbol.equals
          let _ ← conditional fuel
          queryClauses fuel
      | some .range =>
          let _ ← advance
          queryRange fuel
          queryClauses fuel
      | some .join =>
          let _ ← advance
          queryRange fuel
          word "on"
          let _ ← conditional fuel
          word "equals"
          let _ ← conditional fuel
          queryClauses fuel
      | some .group =>
          let _ ← advance
          let _ ← conditional fuel
          word "by"
          let _ ← conditional fuel
          queryClauses fuel
      | some .into =>
          let _ ← advance
          let _ ← ident "continuation name"
          queryClauses fuel
      | none => pure ()

def initializer : Nat → Reader Expr
  | 0 => fail .tooDeep
  | fuel + 1 => do
      if ← isAt Symbol.leftBrace then return .arrayInit (← braceList fuel)
      else expr fuel

def braceList : Nat → Reader (List Expr)
  | 0 => fail .tooDeep
  | fuel + 1 => do
      expect Symbol.leftBrace
      let items ← commaList Symbol.rightBrace (initializer fuel) fuel
      expect Symbol.rightBrace
      return items

def params : Nat → Reader (List Param)
  | 0 => fail .tooDeep
  | fuel + 1 => do
      expect Symbol.leftParen
      let given ← commaList Symbol.rightParen (param fuel) fuel
      expect Symbol.rightParen
      return given

def param : Nat → Reader Param
  | 0 => fail .tooDeep
  | fuel + 1 => do
      let span ← here
      let attrs ← attributes fuel
      let passing := passing? (← peek)
      if passing.isSome then
        let _ ← advance
      let type ← typeRef
      let name ← ident "parameter name"
      let default ← ifEaten Symbol.equals (expr fuel)
      return ⟨attrs, passing.getD .value, type, name, default, span⟩

def block : Nat → Reader (List Stmt)
  | 0 => fail .tooDeep
  | fuel + 1 => do
      expect Symbol.leftBrace
      let body ← manyUntil isBlockEnd (statement fuel) fuel
      expect Symbol.rightBrace
      return body

def parenthesized : Nat → Reader Expr
  | 0 => fail .tooDeep
  | fuel + 1 => do
      expect Symbol.leftParen
      let inner ← expr fuel
      expect Symbol.rightParen
      return inner

def statement : Nat → Reader Stmt
  | 0 => fail .tooDeep
  | fuel + 1 => do
      let span ← here
      match ← peek with
      | .symbol .leftBrace => return .block (← block fuel)
      | .symbol .semicolon =>
          let _ ← advance
          return .empty
      | .keyword .kwIf =>
          let _ ← advance
          let test ← parenthesized fuel
          let yes ← statement fuel
          return .ifElse test yes (← ifEaten Keyword.kwElse (statement fuel))
      | .keyword .kwWhile =>
          let _ ← advance
          let test ← parenthesized fuel
          return .whileLoop test (← statement fuel)
      | .keyword .kwDo =>
          let _ ← advance
          let body ← statement fuel
          expect Keyword.kwWhile
          let test ← parenthesized fuel
          expect Symbol.semicolon
          return .doWhile body test
      | .keyword .kwFor =>
          let _ ← advance
          forLoop fuel
      | .keyword .kwForeach =>
          let _ ← advance
          expect Symbol.leftParen
          let type ← typeRef
          let name ← ident "loop variable"
          expect Keyword.kwIn
          let iterable ← expr fuel
          expect Symbol.rightParen
          return .foreach type name iterable (← statement fuel) span
      | .keyword .kwSwitch =>
          let _ ← advance
          let scrutinee ← parenthesized fuel
          expect Symbol.leftBrace
          let sections ← manyUntil isBlockEnd (switchSection fuel) fuel
          expect Symbol.rightBrace
          return .switch scrutinee sections
      | .keyword .kwReturn =>
          let _ ← advance
          let value ← unlessAt Symbol.semicolon (expr fuel)
          expect Symbol.semicolon
          return .ret value
      | .keyword .kwBreak =>
          let _ ← advance
          expect Symbol.semicolon
          return .brk
      | .keyword .kwContinue =>
          let _ ← advance
          expect Symbol.semicolon
          return .cont
      | .keyword .kwDiscard =>
          let _ ← advance
          expect Symbol.semicolon
          return .discard
      | .keyword .kwTry =>
          let _ ← advance
          tryStatement fuel span
      | .keyword .kwThrow =>
          let _ ← advance
          let value ← unlessAt Symbol.semicolon (expr fuel)
          expect Symbol.semicolon
          return .throw value span
      | .keyword .kwGoto =>
          let _ ← advance
          let target ← gotoTarget fuel
          expect Symbol.semicolon
          return .goto target span
      | .keyword .kwYield =>
          let _ ← advance
          let value ←
            if ← eat Keyword.kwBreak then pure none
            else do
              expect Keyword.kwReturn
              some <$> expr fuel
          expect Symbol.semicolon
          return .yield value span
      | .keyword .kwLock =>
          let _ ← advance
          let target ← parenthesized fuel
          return .lock target (← statement fuel) span
      | .keyword .kwUsing =>
          let _ ← advance
          expect Symbol.leftParen
          let resource ←
            if ← startsDeclaration then declaration fuel false
            else Stmt.eval <$> expr fuel
          expect Symbol.rightParen
          return .using resource (← statement fuel) span
      | .keyword .kwUnsafe =>
          let _ ← advance
          return .unmanaged (← block fuel) span
      | .keyword .kwFixed =>
          let _ ← advance
          expect Symbol.leftParen
          let decl ← declaration fuel false
          expect Symbol.rightParen
          return .fixed decl (← statement fuel) span
      | .symbol .leftBracket =>
          let attrs ← attributes fuel
          return .attributed attrs (← statement fuel) span
      | .keyword .kwConst =>
          let _ ← advance
          let decl ← declaration fuel true
          expect Symbol.semicolon
          return decl
      | next => simpleStatement fuel span next

def simpleStatement : Nat → Span → Kind → Reader Stmt
  | 0, _, _ => fail .tooDeep
  | fuel + 1, span, next => do
      match next, ← peekAt 1 with
      | .identifier label, .symbol .colon =>
          let _ ← advance
          let _ ← advance
          return .labeled label (← statement fuel) span
      | _, _ =>
          if ← startsDeclaration then
            let decl ← declaration fuel false
            expect Symbol.semicolon
            return decl
          else
            let value ← expr fuel
            expect Symbol.semicolon
            return .eval value

def gotoTarget : Nat → Reader (GotoTarget Expr)
  | 0 => fail .tooDeep
  | fuel + 1 => do
      if ← eat Keyword.kwCase then return .value (← expr fuel)
      else if ← eat Keyword.kwDefault then return .default
      else return .label (← ident "label")

def declaration : Nat → (isConst : Bool) → Reader Stmt
  | 0, _ => fail .tooDeep
  | fuel + 1, isConst => do
      let type ← typeRef
      let declarators ← sepBy (declarator fuel) fuel
      return .declare isConst type declarators

def declarator : Nat → Reader (Declarator Expr)
  | 0 => fail .tooDeep
  | fuel + 1 => do
      let name ← ident "variable name"
      return ⟨name, ← ifEaten Symbol.equals (initializer fuel)⟩

def forLoop : Nat → Reader Stmt
  | 0 => fail .tooDeep
  | fuel + 1 => do
      expect Symbol.leftParen
      let init ←
        if ← isAt Symbol.semicolon then pure []
        else if ← startsDeclaration then do
          let decl ← declaration fuel false
          pure [decl]
        else do
          let first ← sepBy (expr fuel) fuel
          pure (first.map Stmt.eval)
      expect Symbol.semicolon
      let test ← unlessAt Symbol.semicolon (expr fuel)
      expect Symbol.semicolon
      let step ← if ← isAt Symbol.rightParen then pure [] else sepBy (expr fuel) fuel
      expect Symbol.rightParen
      return .forLoop init test step (← statement fuel)

def switchSection : Nat → Reader (SwitchSection Expr Stmt)
  | 0 => fail .tooDeep
  | fuel + 1 => do
      let labels ← caseLabels fuel
      if labels.isEmpty then fail (.expected "case or default" (← peek))
      else
        let body ← manyUntil isSectionEnd (statement fuel) fuel
        return ⟨labels, body⟩

def caseLabels : Nat → Reader (List (CaseLabel Expr))
  | 0 => fail .tooDeep
  | fuel + 1 => do
      if ← eat Keyword.kwCase then
        let value ← expr fuel
        expect Symbol.colon
        return .value value :: (← caseLabels fuel)
      else if ← eat Keyword.kwDefault then
        expect Symbol.colon
        return .default :: (← caseLabels fuel)
      else return []

def tryStatement : Nat → Span → Reader Stmt
  | 0, _ => fail .tooDeep
  | fuel + 1, span => do
      let body ← block fuel
      let catches ← manyUntil (· != .keyword .kwCatch) (catchClause fuel) fuel
      let final ← ifEaten Keyword.kwFinally (block fuel)
      if catches.isEmpty && final.isNone then failAt span .bareTry
      else return .tryCatch body catches final span

def catchClause : Nat → Reader (CatchClause Stmt)
  | 0 => fail .tooDeep
  | fuel + 1 => do
      expect Keyword.kwCatch
      if ← eat Symbol.leftParen then
        let type ← typeRef
        let name ←
          match ← peek with
          | .identifier name => do
              let _ ← advance
              pure (some name)
          | _ => pure none
        expect Symbol.rightParen
        return ⟨some type, name, ← block fuel⟩
      else return ⟨none, none, ← block fuel⟩

end

end ShaderCompiler.Grammar
