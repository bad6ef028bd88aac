import ShaderCompiler.Interface.Legal
import ShaderCompiler.Tree.Decl

namespace ShaderCompiler

structure Annotations where
  qualifiers : List Qualifier := []
  layout : Layout := {}
  arraySize : Option String := none
  comment : Option String := none
  instanceName : Option String := none
  deriving DecidableEq, Repr

def LayoutParam.ofArg : AttributeArg → LayoutParam
  | .positional value => ⟨snakeCase value.text, none⟩
  | .named key value => ⟨snakeCase key, some value.text⟩

namespace Annotations

/-- Layouts add up; of all else the later of two wins. -/
def add (allowed : List String) (target : String) (n : Annotations) (a : Attribute) :
    Except AttributeFault Annotations :=
  if !allowed.contains a.name then .error (.onDeclaration a.name a.span.line target)
  else
    match Qualifier.ofAttribute? a.name with
    | some qualifier => .ok { n with qualifiers := n.qualifiers ++ [qualifier] }
    | none =>
        match a.name with
        | "Layout" =>
            .ok { n with layout := ⟨n.layout.params ++ a.args.map LayoutParam.ofArg⟩ }
        | "ArraySize" =>
            match a.firstText? with
            | some size => .ok { n with arraySize := some size }
            | none => .error (.unsizedArraySize target)
        | "Comment" => .ok { n with comment := a.firstText? }
        | "InstanceName" => .ok { n with instanceName := a.firstText? }
        | name => .error (.onDeclaration name a.span.line target)

def collect (allowed : List String) (target : String) (attributes : List Attribute) :
    Except AttributeFault Annotations :=
  attributes.foldlM (add allowed target) {}

def onField : List String := ["Uniform", "In", "Out", "BuiltIn", "ArraySize", "Comment", "Layout"]

def onStruct : List String := ["Uniform", "In", "Out", "Layout", "InstanceName", "Comment"]

def onMember : List String := ["Uniform", "In", "Out", "ArraySize", "Comment"]

end Annotations

end ShaderCompiler
