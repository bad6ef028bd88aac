import ShaderCompiler.Interface.Qualifier
import ShaderCompiler.Stage
import ShaderCompiler.Text.Lowercase

namespace ShaderCompiler

structure LayoutParam where
  key : String
  value : Option String
  deriving DecidableEq, Repr

def LayoutParam.text (p : LayoutParam) : String :=
  match p.value with
  | some value => p.key ++ " = " ++ value
  | none => p.key

structure Layout where
  params : List LayoutParam := []
  deriving DecidableEq, Repr

namespace Layout

def isEmpty (l : Layout) : Bool := l.params.isEmpty

def has (l : Layout) (key : String) : Bool := l.params.any (·.key == key)

def push (l : Layout) (key : String) (value : Option String) : Layout :=
  ⟨l.params ++ [⟨key, value⟩]⟩

def text (l : Layout) : String :=
  "layout(" ++ String.intercalate ", " (l.params.map LayoutParam.text) ++ ")"

end Layout

structure Variable where
  type : String
  name : String
  arraySize : Option String := none
  qualifier : Option Qualifier := none
  layout : Layout := {}
  comment : Option String := none
  debugComment : Option String := none
  initializer : Option String := none
  isConst : Bool := false
  deriving DecidableEq, Repr

namespace Variable

def isArray (v : Variable) : Bool := v.arraySize.isSome

def declarator (v : Variable) : String :=
  match v.arraySize with
  | some size => v.name ++ "[" ++ size ++ "]"
  | none => v.name

end Variable

/-- A plain struct, or an interface block when it has a qualifier. -/
structure InterfaceStruct where
  name : String
  block : Option Qualifier
  instanceName : Option String
  members : List Variable
  layout : Layout := {}
  comment : Option String := none
  deriving DecidableEq, Repr

def InterfaceStruct.isBlock (s : InterfaceStruct) : Bool := s.block.isSome

/-- The instance name of a block that is given none: `Camera` is reached as `camera`. -/
def defaultInstanceName (structName : String) : String := Text.uncapitalize structName

inductive StageLayout where
  | none
  | geometry (input : String) (invocations : Option Nat) (output : String)
      (maxVertices : Option Nat)
  | tessControl (vertices : Nat)
  | tessEvaluation (primitive : String) (spacing winding : Option String)
  deriving DecidableEq, Repr

structure Header where
  name : String
  stage : Stage
  version : String
  debug : Bool
  extensions : List String
  stageLayout : StageLayout := .none
  deriving DecidableEq, Repr

structure Interface where
  constants : List Variable := []
  structs : List InterfaceStruct := []
  uniforms : List Variable := []
  inputs : List Variable := []
  outputs : List Variable := []
  globals : List Variable := []
  deriving DecidableEq, Repr

end ShaderCompiler
