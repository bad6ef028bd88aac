namespace ShaderCompiler

inductive Stage where
  | vertex
  | fragment
  | geometry
  | tessControl
  | tessEvaluation
  deriving DecidableEq, Repr

namespace Stage

def all : List Stage := [vertex, fragment, geometry, tessControl, tessEvaluation]

def baseClass : Stage → String
  | vertex => "VertexShader"
  | fragment => "FragmentShader"
  | geometry => "GeometryShader"
  | tessControl => "TessControlShader"
  | tessEvaluation => "TessEvaluationShader"

def ofBaseClass? (name : String) : Option Stage := all.find? (·.baseClass == name)

def extension : Stage → String
  | vertex => "vert"
  | fragment => "frag"
  | geometry => "geom"
  | tessControl => "tesc"
  | tessEvaluation => "tese"

def label : Stage → String
  | vertex => "vertex"
  | fragment => "fragment"
  | geometry => "geometry"
  | tessControl => "tessellation-control"
  | tessEvaluation => "tessellation-evaluation"

theorem ofBaseClass?_baseClass (s : Stage) : ofBaseClass? s.baseClass = some s := by
  cases s <;> decide

end Stage

end ShaderCompiler
