import ShaderCompiler.Diagnostic
import ShaderCompiler.Interface.Basic
import ShaderCompiler.Tree.Decl
import ShaderCompiler.Typing.ValueType

namespace ShaderCompiler

structure MethodSig where
  returns : Option ValueType
  params : List ValueType
  deriving DecidableEq, Repr

structure ClassContext where
  className : String
  stage : Option Stage := none
  methods : List (String × MethodSig) := []
  structs : List (String × List (String × ValueType)) := []
  globals : List (String × ValueType) := []
  deriving Repr

/-- The method's type when it is called. A constructor and a `void` method return nothing. -/
def MethodDecl.sig (m : MethodDecl) : MethodSig where
  returns := (m.returnType.filter (·.name != "void")).map .ofRef
  params := m.params.map (.ofRef ·.type)

def FieldDecl.binding (f : FieldDecl) : String × ValueType := (f.name, .ofRef f.type)

namespace StructDecl

def members (s : StructDecl) : List (String × ValueType) :=
  s.fields.map FieldDecl.binding

def isBlock (s : StructDecl) : Bool :=
  s.attributes.any fun a => (Qualifier.ofAttribute? a.name).any (· != .builtIn)

def instanceName (s : StructDecl) : String :=
  ((s.attributes.find? (·.name == "InstanceName")).bind (·.firstText?)).getD
    (defaultInstanceName s.name)

def instances (s : StructDecl) : List (String × ValueType) :=
  if s.isBlock then [(s.instanceName, .named s.name)] else []

end StructDecl

namespace ClassContext

/-- A field hides a block instance of the same name, and a later one an earlier. -/
def ofClass (c : ClassDecl) : ClassContext where
  className := c.name
  stage := c.stage?
  methods := (c.methods.filter (!·.isConstructor)).map fun m => (m.name, m.sig)
  structs := (c.structs.map fun s => (s.name, s.members)).reverse
  globals := (c.structs.flatMap StructDecl.instances ++ c.fields.map FieldDecl.binding).reverse

def overloads (ctx : ClassContext) (name : String) : List MethodSig :=
  (ctx.methods.filter (·.1 == name)).map (·.2)

def hasMethod (ctx : ClassContext) (name : String) : Bool := ctx.methods.any (·.1 == name)

def global? (ctx : ClassContext) (name : String) : Option ValueType := ctx.globals.lookup name

def struct? (ctx : ClassContext) (name : String) : Option (List (String × ValueType)) :=
  ctx.structs.lookup name

def isStruct (ctx : ClassContext) (name : String) : Bool := (ctx.struct? name).isSome

def accepts (sig : MethodSig) (args : List (Option ValueType)) : Bool :=
  (sig.params.zip args).all fun (param, arg) => arg.all (· == param)

/-- The overload that a call selects: the only one of the right arity, or else the only one of
these that agrees with all argument types that are known. -/
def selectOverload (ctx : ClassContext) (name : String) (args : List (Option ValueType)) :
    Option MethodSig :=
  match (ctx.overloads name).filter (·.params.length == args.length) with
  | [only] => some only
  | candidates =>
      match candidates.filter (accepts · args) with
      | [only] => some only
      | _ => none

def resolveType (ctx : ClassContext) (name : String) : Except Diagnostic String :=
  if ctx.isStruct name then .ok name
  else
    match Vocabulary.toTarget? name with
    | some target => .ok target
    | none => .error (.unknownType (.unknown name))

end ClassContext

end ShaderCompiler
