import ShaderCompiler.Decimal.Shortest

namespace ShaderCompiler

/-- The stretch of source text that a token or a tree covers. Offsets count characters from zero,
lines and columns from one. -/
structure Span where
  start : Nat
  stop : Nat
  line : Nat
  column : Nat
  deriving DecidableEq, Repr

def Span.none : Span := ⟨0, 0, 0, 0⟩

inductive Keyword where
  | kwClass | kwStruct | kwStatic | kwConst | kwNew | kwReturn | kwIf | kwElse | kwWhile | kwDo
  | kwFor | kwForeach | kwIn | kwOut | kwRef | kwSwitch | kwCase | kwDefault | kwBreak | kwContinue
  | kwDiscard | kwThis | kwBase | kwTrue | kwFalse | kwNull | kwTry | kwCatch | kwFinally | kwThrow
  | kwGoto | kwYield | kwLock | kwUsing | kwUnsafe | kwFixed | kwStackalloc | kwTypeof | kwSizeof
  | kwIs | kwAs | kwDelegate
  deriving DecidableEq, Repr

namespace Keyword

def all : List Keyword :=
  [kwClass, kwStruct, kwStatic, kwConst, kwNew, kwReturn, kwIf, kwElse, kwWhile, kwDo, kwFor,
   kwForeach, kwIn, kwOut, kwRef, kwSwitch, kwCase, kwDefault, kwBreak, kwContinue, kwDiscard,
   kwThis, kwBase, kwTrue, kwFalse, kwNull, kwTry, kwCatch, kwFinally, kwThrow, kwGoto, kwYield,
   kwLock, kwUsing, kwUnsafe, kwFixed, kwStackalloc, kwTypeof, kwSizeof, kwIs, kwAs, kwDelegate]

def text : Keyword → String
  | kwClass => "class"
  | kwStruct => "struct"
  | kwStatic => "static"
  | kwConst => "const"
  | kwNew => "new"
  | kwReturn => "return"
  | kwIf => "if"
  | kwElse => "else"
  | kwWhile => "while"
  | kwDo => "do"
  | kwFor => "for"
  | kwForeach => "foreach"
  | kwIn => "in"
  | kwOut => "out"
  | kwRef => "ref"
  | kwSwitch => "switch"
  | kwCase => "case"
  | kwDefault => "default"
  | kwBreak => "break"
  | kwContinue => "continue"
  | kwDiscard => "discard"
  | kwThis => "this"
  | kwBase => "base"
  | kwTrue => "true"
  | kwFalse => "false"
  | kwNull => "null"
  | kwTry => "try"
  | kwCatch => "catch"
  | kwFinally => "finally"
  | kwThrow => "throw"
  | kwGoto => "goto"
  | kwYield => "yield"
  | kwLock => "lock"
  | kwUsing => "using"
  | kwUnsafe => "unsafe"
  | kwFixed => "fixed"
  | kwStackalloc => "stackalloc"
  | kwTypeof => "typeof"
  | kwSizeof => "sizeof"
  | kwIs => "is"
  | kwAs => "as"
  | kwDelegate => "delegate"

def ofText? (text : String) : Option Keyword := all.find? (·.text == text)

theorem mem_all (k : Keyword) : k ∈ all := by cases k <;> decide

end Keyword

inductive Modifier where
  | modPublic | modPrivate | modProtected | modInternal | modReadonly | modOverride | modVirtual
  | modSealed | modPartial
  deriving DecidableEq, Repr

namespace Modifier

def all : List Modifier :=
  [modPublic, modPrivate, modProtected, modInternal, modReadonly, modOverride, modVirtual,
   modSealed, modPartial]

def text : Modifier → String
  | modPublic => "public"
  | modPrivate => "private"
  | modProtected => "protected"
  | modInternal => "internal"
  | modReadonly => "readonly"
  | modOverride => "override"
  | modVirtual => "virtual"
  | modSealed => "sealed"
  | modPartial => "partial"

def ofText? (text : String) : Option Modifier := all.find? (·.text == text)

theorem mem_all (m : Modifier) : m ∈ all := by cases m <;> decide

end Modifier

inductive Symbol where
  | leftBrace | rightBrace | leftParen | rightParen | leftBracket | rightBracket
  | semicolon | comma | dot | colon | question | fatArrow | arrow
  | plus | minus | star | slash | percent | amp | pipe | caret | tilde | bang
  | equals | eqEq | bangEq | lt | gt | ltEq | gtEq | ampAmp | pipePipe | shl | shr
  | plusPlus | minusMinus | plusEq | minusEq | starEq | slashEq | percentEq
  | ampEq | pipeEq | caretEq | shlEq | shrEq
  deriving DecidableEq, Repr

namespace Symbol

def text : Symbol → String
  | leftBrace => "\x7b"
  | rightBrace => "\x7d"
  | leftParen => "("
  | rightParen => ")"
  | leftBracket => "["
  | rightBracket => "]"
  | semicolon => ";"
  | comma => ","
  | dot => "."
  | colon => ":"
  | question => "?"
  | fatArrow => "=>"
  | arrow => "->"
  | plus => "+"
  | minus => "-"
  | star => "*"
  | slash => "/"
  | percent => "%"
  | amp => "&"
  | pipe => "|"
  | caret => "^"
  | tilde => "~"
  | bang => "!"
  | equals => "="
  | eqEq => "=="
  | bangEq => "!="
  | lt => "<"
  | gt => ">"
  | ltEq => "<="
  | gtEq => ">="
  | ampAmp => "&&"
  | pipePipe => "||"
  | shl => "<<"
  | shr => ">>"
  | plusPlus => "++"
  | minusMinus => "--"
  | plusEq => "+="
  | minusEq => "-="
  | starEq => "*="
  | slashEq => "/="
  | percentEq => "%="
  | ampEq => "&="
  | pipeEq => "|="
  | caretEq => "^="
  | shlEq => "<<="
  | shrEq => ">>="

end Symbol

namespace Token

/-- What a token is, apart from where it stands. Integer literals are 64-bit words. -/
inductive Kind where
  | keyword (word : Keyword)
  | modifier (word : Modifier)
  | identifier (name : String)
  | int (value : UInt64)
  | uint (value : UInt64)
  | float (value : Float)
  | double (value : Float)
  | string (content : String)
  | symbol (mark : Symbol)
  | eof
  deriving DecidableEq

def Kind.text : Kind → String
  | keyword word => word.text
  | modifier word => word.text
  | identifier name => name
  | int value => toString value.toNat
  | uint value => toString value.toNat ++ "u"
  | float value => Decimal.ofFloat value ++ "f"
  | double value => Decimal.ofFloat value ++ "d"
  | string content => "\"" ++ content ++ "\""
  | symbol mark => mark.text
  | eof => "EOF"

end Token

structure Token where
  kind : Token.Kind
  span : Span
  deriving DecidableEq

end ShaderCompiler
