import ShaderCompiler.Stage
import ShaderCompiler.Tree.Basic

namespace ShaderCompiler

inductive ClassKind where
  | shader (stage : Stage)
  | library
  deriving DecidableEq, Repr

structure FieldDecl where
  attributes : List Attribute := []
  isConst : Bool := false
  type : TypeRef
  name : String
  init : Option Expr := none
  span : Span := .none

structure StructDecl where
  attributes : List Attribute := []
  name : String
  fields : List FieldDecl := []
  span : Span := .none

inductive Passing where
  | value
  | input
  | output
  | inout
  deriving DecidableEq, Repr

structure Param where
  attributes : List Attribute := []
  passing : Passing := .value
  type : TypeRef
  name : String
  default : Option Expr := none
  span : Span := .none

structure MethodDecl where
  attributes : List Attribute := []
  returnAttributes : List Attribute := []
  isStatic : Bool := false
  returnType : Option TypeRef
  name : String
  params : List Param := []
  body : Option (List Stmt)
  isConstructor : Bool := false
  span : Span := .none

structure ClassDecl where
  name : String
  kind : ClassKind
  attributes : List Attribute := []
  fields : List FieldDecl := []
  structs : List StructDecl := []
  methods : List MethodDecl := []
  span : Span := .none

namespace ClassDecl

def stage? (c : ClassDecl) : Option Stage :=
  match c.kind with
  | .shader stage => some stage
  | .library => none

def isShader (c : ClassDecl) : Bool := c.stage?.isSome

def isLibrary (c : ClassDecl) : Bool := c.kind == .library

end ClassDecl

end ShaderCompiler
