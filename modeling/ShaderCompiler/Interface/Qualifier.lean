namespace ShaderCompiler

inductive Qualifier where
  | uniform
  | input
  | output
  | builtIn
  deriving DecidableEq, Repr

namespace Qualifier

def all : List Qualifier := [uniform, input, output, builtIn]

def attributeName : Qualifier → String
  | uniform => "Uniform"
  | input => "In"
  | output => "Out"
  | builtIn => "BuiltIn"

def ofAttribute? (name : String) : Option Qualifier := all.find? (·.attributeName == name)

/-- The storage keyword in GLSL. A built-in that is declared again is an input. -/
def keyword : Qualifier → String
  | uniform => "uniform"
  | input | builtIn => "in"
  | output => "out"

def label : Qualifier → String
  | uniform => "uniform"
  | input => "input"
  | output => "output"
  | builtIn => "built-in"

end Qualifier

end ShaderCompiler
