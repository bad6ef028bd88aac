namespace ShaderCompiler

inductive ScalarKind where
  | bool
  | int
  | uint
  | float
  | double
  deriving DecidableEq, Repr

namespace ScalarKind

def isIntegral : ScalarKind → Bool
  | int | uint => true
  | _ => false

def name : ScalarKind → String
  | bool => "bool"
  | int => "int"
  | uint => "uint"
  | float => "float"
  | double => "double"

def rank : ScalarKind → Nat
  | bool => 0
  | int => 1
  | uint => 2
  | float => 3
  | double => 4

end ScalarKind

inductive Shape where
  | void
  | scalar
  | vector (size : Nat)
  | matrix (columns rows : Nat)
  | sampler
  deriving DecidableEq, Repr

structure BuiltinType where
  name : String
  kind : Option ScalarKind
  shape : Shape
  deriving DecidableEq, Repr

namespace BuiltinType

def isVector (t : BuiltinType) : Bool :=
  match t.shape with
  | .vector _ => true
  | _ => false

def isMatrix (t : BuiltinType) : Bool :=
  match t.shape with
  | .matrix _ _ => true
  | _ => false

def isSampler (t : BuiltinType) : Bool := t.shape == .sampler

end BuiltinType

namespace Vocabulary

def scalar (kind : ScalarKind) : BuiltinType := ⟨kind.name, some kind, .scalar⟩

def vector (name : String) (kind : ScalarKind) (size : Nat) : BuiltinType :=
  ⟨name, some kind, .vector size⟩

def matrix (name : String) (kind : ScalarKind) (columns rows : Nat) : BuiltinType :=
  ⟨name, some kind, .matrix columns rows⟩

def sampler (kind : ScalarKind) (name : String) : BuiltinType := ⟨name, some kind, .sampler⟩

def scalars : List BuiltinType :=
  [⟨"void", none, .void⟩, scalar .bool, scalar .int, scalar .uint, scalar .float, scalar .double]

def vectors : List BuiltinType :=
  [vector "vec2" .float 2, vector "vec3" .float 3, vector "vec4" .float 4,
   vector "dvec2" .double 2, vector "dvec3" .double 3, vector "dvec4" .double 4,
   vector "ivec2" .int 2, vector "ivec3" .int 3, vector "ivec4" .int 4,
   vector "uvec2" .uint 2, vector "uvec3" .uint 3, vector "uvec4" .uint 4,
   vector "bvec2" .bool 2, vector "bvec3" .bool 3, vector "bvec4" .bool 4]

def matrices : List BuiltinType :=
  [matrix "mat2" .float 2 2, matrix "mat3" .float 3 3, matrix "mat4" .float 4 4,
   matrix "mat2x2" .float 2 2, matrix "mat2x3" .float 2 3, matrix "mat2x4" .float 2 4,
   matrix "mat3x2" .float 3 2, matrix "mat3x3" .float 3 3, matrix "mat3x4" .float 3 4,
   matrix "mat4x2" .float 4 2, matrix "mat4x3" .float 4 3, matrix "mat4x4" .float 4 4,
   matrix "dmat2" .double 2 2, matrix "dmat3" .double 3 3, matrix "dmat4" .double 4 4]

def samplers : List BuiltinType :=
  ["sampler1D", "sampler2D", "sampler3D", "samplerCube", "sampler2DRect", "sampler1DArray",
   "sampler2DArray", "samplerCubeArray", "samplerBuffer", "sampler2DMS", "sampler2DMSArray",
   "sampler1DShadow", "sampler2DShadow", "samplerCubeShadow", "sampler2DRectShadow",
   "sampler1DArrayShadow", "sampler2DArrayShadow", "samplerCubeArrayShadow"].map (sampler .float) ++
  ["isampler1D", "isampler2D", "isampler3D", "isamplerCube", "isampler2DArray",
   "isamplerBuffer"].map (sampler .int) ++
  ["usampler1D", "usampler2D", "usampler3D", "usamplerCube", "usampler2DArray",
   "usamplerBuffer"].map (sampler .uint)

def all : List BuiltinType := scalars ++ vectors ++ matrices ++ samplers

def aliases : List (String × String) :=
  [("Void", "void"), ("Boolean", "bool"), ("Int32", "int"), ("UInt32", "uint"),
   ("Single", "float"), ("Double", "double")]

def find? (name : String) : Option BuiltinType := all.find? (·.name == name)

/-- The entry that a name of the authoring language stands for. -/
def lookup? (name : String) : Option BuiltinType := find? ((aliases.lookup name).getD name)

def isBuiltin (name : String) : Bool := (lookup? name).isSome

def toTarget? (name : String) : Option String := (lookup? name).map (·.name)

def ofTarget? (name : String) : Option String := (find? name).map (·.name)

def scalarKind? (name : String) : Option ScalarKind := (lookup? name).bind (·.kind)

/-- The vector of `size` components, a scalar for one component. Sizes count modulo 256. -/
def vectorOf? (kind : ScalarKind) (size : Nat) : Option String :=
  if size = 1 then some kind.name
  else (all.find? fun t => t.kind == some kind && t.shape == .vector (size % 256)).map (·.name)

end Vocabulary

end ShaderCompiler
