import ShaderCompiler.Token.Basic

namespace ShaderCompiler

inductive ReadFault where
  | openComment
  | openString
  | unexpectedCharacter (c : Char)
  | invalidHex (digits : String)
  | invalidNumber (text : String)
  | unknownSuffix (suffix text : String)
  | expected (what : String) (got : Token.Kind)
  | unexpectedToken (got : Token.Kind)
  | invalidAttributeValue (got : Token.Kind)
  | derivedStaticClass (name base : String)
  | unknownBaseClass (base name : String)
  | noBaseClass (name : String)
  | misplacedReturnAttribute
  | constantWithoutValue (name : String)
  | bareTry
  | notCallable
  | unsizedArray
  | tooDeep
  deriving DecidableEq

namespace ReadFault

def text : ReadFault → String
  | openComment => "unterminated block comment"
  | openString => "unterminated string literal"
  | unexpectedCharacter c => "unexpected character: '" ++ c.toString ++ "'"
  | invalidHex digits => "invalid hex literal: 0x" ++ digits
  | invalidNumber text => "invalid number: " ++ text
  | unknownSuffix suffix text => "unsupported numeric suffix '" ++ suffix ++ "' on " ++ text
  | expected what got => "expected " ++ what ++ ", got " ++ got.text
  | unexpectedToken got => "unexpected token: " ++ got.text
  | invalidAttributeValue got => "invalid attribute value: " ++ got.text
  | derivedStaticClass name base =>
      "static class '" ++ name ++ "' cannot derive from '" ++ base ++ "'"
  | unknownBaseClass base name => "unknown shader base class '" ++ base ++ "' for '" ++ name ++ "'"
  | noBaseClass name =>
      "shader class '" ++ name ++
        "' must derive from a stage base class (VertexShader, FragmentShader, ...)"
  | misplacedReturnAttribute => "`return:` attributes are only valid on methods"
  | constantWithoutValue name => "constant '" ++ name ++ "' requires an initializer"
  | bareTry => "try block requires a catch or finally clause"
  | notCallable => "expression is not callable"
  | unsizedArray => "array creation requires a size or an initializer"
  | tooDeep => "nesting too deep"

end ReadFault

structure ReadError where
  fault : ReadFault
  line : Nat
  column : Nat
  deriving DecidableEq

end ShaderCompiler
