import ShaderCompiler.Token.Basic

namespace ShaderCompiler

structure TypeRef where
  name : String
  array : Bool := false
  pointer : Bool := false
  span : Span := .none
  deriving DecidableEq

inductive AttrValue where
  | int (value : Int64)
  | float (value : Float)
  | str (text : String)
  | ident (name : String)
  | bool (value : Bool)
  deriving DecidableEq

def AttrValue.text : AttrValue → String
  | int value => toString value.toInt
  | float value => Decimal.ofFloat value
  | str text => text
  | ident name => name
  | bool value => if value then "true" else "false"

inductive AttributeArg where
  | positional (value : AttrValue)
  | named (key : String) (value : AttrValue)
  deriving DecidableEq

structure Attribute where
  name : String
  args : List AttributeArg := []
  span : Span := .none
  deriving DecidableEq

namespace Attribute

def positionals (a : Attribute) : List AttrValue :=
  a.args.filterMap fun
    | .positional value => some value
    | .named _ _ => none

def sameKey (a b : String) : Bool := a.toList.map Char.toLower == b.toList.map Char.toLower

/-- The first value given under a key, whatever the case of its letters. -/
def named? (a : Attribute) (key : String) : Option AttrValue :=
  a.args.findSome? fun
    | .named k value => if sameKey k key then some value else none
    | .positional _ => none

def firstText? (a : Attribute) : Option String := a.positionals.head?.map AttrValue.text

end Attribute

inductive AssignOp where
  | assign | add | sub | mul | div | rem | bitAnd | bitOr | bitXor | shl | shr
  deriving DecidableEq, Repr

def AssignOp.symbol : AssignOp → String
  | assign => "="
  | add => "+="
  | sub => "-="
  | mul => "*="
  | div => "/="
  | rem => "%="
  | bitAnd => "&="
  | bitOr => "|="
  | bitXor => "^="
  | shl => "<<="
  | shr => ">>="

inductive BinaryOp where
  | or | and | bitOr | bitXor | bitAnd | eq | ne | lt | gt | le | ge | shl | shr
  | add | sub | mul | div | rem
  deriving DecidableEq, Repr

namespace BinaryOp

def symbol : BinaryOp → String
  | or => "||"
  | and => "&&"
  | bitOr => "|"
  | bitXor => "^"
  | bitAnd => "&"
  | eq => "=="
  | ne => "!="
  | lt => "<"
  | gt => ">"
  | le => "<="
  | ge => ">="
  | shl => "<<"
  | shr => ">>"
  | add => "+"
  | sub => "-"
  | mul => "*"
  | div => "/"
  | rem => "%"

/-- Binding strength; the higher binds tighter. -/
def precedence : BinaryOp → Nat
  | or => 3
  | and => 4
  | bitOr => 5
  | bitXor => 6
  | bitAnd => 7
  | eq | ne => 8
  | lt | gt | le | ge => 9
  | shl | shr => 10
  | add | sub => 11
  | mul | div | rem => 12

def isComparison : BinaryOp → Bool
  | or | and | eq | ne | lt | gt | le | ge => true
  | _ => false

def isShift : BinaryOp → Bool
  | shl | shr => true
  | _ => false

end BinaryOp

inductive UnaryOp where
  | neg | plus | not | bitNot | preInc | preDec | postInc | postDec
  deriving DecidableEq, Repr

inductive TypeTestOp where
  | is | as
  deriving DecidableEq, Repr

inductive Literal where
  | bool (value : Bool)
  | int (value : UInt64)
  | uint (value : UInt64)
  | float (value : Float)
  | double (value : Float)
  | str (text : String)
  deriving DecidableEq

structure Arg (ε : Type) where
  label : Option String
  value : ε

structure Declarator (ε : Type) where
  name : String
  init : Option ε

inductive CaseLabel (ε : Type) where
  | value (e : ε)
  | default

structure SwitchSection (ε σ : Type) where
  labels : List (CaseLabel ε)
  body : List σ

structure CatchClause (σ : Type) where
  type : Option TypeRef
  name : Option String
  body : List σ

inductive GotoTarget (ε : Type) where
  | label (name : String)
  | value (e : ε)
  | default

inductive LambdaBody (ε σ : Type) where
  | expr (e : ε)
  | block (body : List σ)

mutual

inductive Expr where
  | assign (op : AssignOp) (target value : Expr)
  | binary (op : BinaryOp) (lhs rhs : Expr)
  | unary (op : UnaryOp) (operand : Expr)
  | call (receiver : Option Expr) (name : String) (args : List (Arg Expr))
  | member (target : Expr) (name : String)
  | construct (type : TypeRef) (args : List (Arg Expr))
  | newArray (element : TypeRef) (size : Option Expr) (items : Option (List Expr))
  | arrayInit (items : List Expr)
  | index (target index : Expr)
  | cast (type : TypeRef) (operand : Expr)
  | conditional (test yes no : Expr)
  | ident (name : String)
  | self
  | literal (value : Literal)
  | base (span : Span)
  | null (span : Span)
  | lambda (params : List String) (body : LambdaBody Expr Stmt) (span : Span)
  | query (span : Span)
  | typeTest (op : TypeTestOp) (operand : Expr) (type : TypeRef) (span : Span)
  | typeOf (type : TypeRef) (span : Span)
  | sizeOf (type : TypeRef) (span : Span)
  | deref (operand : Expr) (span : Span)
  | addressOf (operand : Expr) (span : Span)
  | arrow (target : Expr) (name : String) (span : Span)
  | stackAlloc (type : TypeRef) (size : Expr) (span : Span)
  | anonymous (members : List (String × Expr)) (span : Span)

inductive Stmt where
  | block (body : List Stmt)
  | empty
  | ifElse (test : Expr) (yes : Stmt) (no : Option Stmt)
  | whileLoop (test : Expr) (body : Stmt)
  | doWhile (body : Stmt) (test : Expr)
  | forLoop (init : List Stmt) (test : Option Expr) (step : List Expr) (body : Stmt)
  | switch (scrutinee : Expr) (sections : List (SwitchSection Expr Stmt))
  | ret (value : Option Expr)
  | brk
  | cont
  | discard
  | declare (isConst : Bool) (type : TypeRef) (declarators : List (Declarator Expr))
  | eval (e : Expr)
  | tryCatch (body : List Stmt) (catches : List (CatchClause Stmt)) (final : Option (List Stmt))
      (span : Span)
  | throw (value : Option Expr) (span : Span)
  | foreach (type : TypeRef) (name : String) (iterable : Expr) (body : Stmt) (span : Span)
  | lock (target : Expr) (body : Stmt) (span : Span)
  | using (resource body : Stmt) (span : Span)
  | goto (target : GotoTarget Expr) (span : Span)
  | labeled (label : String) (stmt : Stmt) (span : Span)
  | yield (value : Option Expr) (span : Span)
  | unmanaged (body : List Stmt) (span : Span)
  | fixed (decl body : Stmt) (span : Span)
  | attributed (attributes : List Attribute) (stmt : Stmt) (span : Span)

end

instance : Inhabited Expr := ⟨.self⟩

instance : Inhabited Stmt := ⟨.empty⟩

end ShaderCompiler
