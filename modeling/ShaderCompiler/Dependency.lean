namespace ShaderCompiler

structure Dependency where
  qualifiedName : String
  name : String
  arity : Nat
  deriving DecidableEq, Repr

namespace Dependency

def beforeLastDot? (text : List Char) : Option (List Char) :=
  match text.reverse.dropWhile (· ≠ '.') with
  | [] => none
  | _ :: owner => some owner.reverse

def owner? (d : Dependency) : Option String :=
  (beforeLastDot? d.qualifiedName.toList).map String.ofList

/-- The name and the count of parameters, by which GLSL tells functions apart here. -/
def signature (d : Dependency) : String := d.name ++ "/" ++ toString d.arity

def text (d : Dependency) : String := d.qualifiedName ++ "/" ++ toString d.arity

end Dependency

end ShaderCompiler
