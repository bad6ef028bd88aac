import ShaderCompiler.Tree.Decl

namespace ShaderCompiler

namespace Attribute

def flag (name : String) : Attribute := { name }

def location (n : Int64) : Attribute :=
  { name := "Layout", args := [.named "location" (.int n)] }

def arraySize (n : Int64) : Attribute := { name := "ArraySize", args := [.positional (.int n)] }

end Attribute

def Arg.positional {ε : Type} (value : ε) : Arg ε := ⟨none, value⟩

namespace MethodDecl

def procedure (name : String) : MethodDecl :=
  { name, returnType := some { name := "void" }, body := some [] }

def entryPoint : MethodDecl := procedure "main"

def constructor (className : String) : MethodDecl :=
  { name := className, returnType := none, body := some [], isConstructor := true }

def returning (m : MethodDecl) (type : TypeRef) : MethodDecl := { m with returnType := some type }

def asStatic (m : MethodDecl) : MethodDecl := { m with isStatic := true }

def withReturnAttribute (m : MethodDecl) (a : Attribute) : MethodDecl :=
  { m with returnAttributes := m.returnAttributes ++ [a] }

def withParam (m : MethodDecl) (passing : Passing) (type : TypeRef) (name : String) : MethodDecl :=
  { m with params := m.params ++ [{ passing, type, name }] }

def withStmt (m : MethodDecl) (s : Stmt) : MethodDecl :=
  { m with body := m.body.map (· ++ [s]) }

def withoutBody (m : MethodDecl) : MethodDecl := { m with body := none }

end MethodDecl

namespace ClassDecl

def shader (name : String) (stage : Stage) : ClassDecl := { name, kind := .shader stage }

def library (name : String) : ClassDecl := { name, kind := .library }

def withAttribute (c : ClassDecl) (a : Attribute) : ClassDecl :=
  { c with attributes := c.attributes ++ [a] }

def withVersion (c : ClassDecl) (version : String) : ClassDecl :=
  c.withAttribute { name := "Version", args := [.positional (.str version)] }

def withDebug (c : ClassDecl) : ClassDecl := c.withAttribute (.flag "Debug")

def withField (c : ClassDecl) (field : FieldDecl) : ClassDecl :=
  { c with fields := c.fields ++ [field] }

def withUniform (c : ClassDecl) (type name : String) : ClassDecl :=
  c.withField { attributes := [.flag "Uniform"], type := { name := type }, name }

def withInput (c : ClassDecl) (type name : String) (location : Option Int64) : ClassDecl :=
  c.withField { attributes := .flag "In" :: (location.map Attribute.location).toList,
                type := { name := type }, name }

def withOutput (c : ClassDecl) (type name : String) (location : Option Int64) : ClassDecl :=
  c.withField { attributes := .flag "Out" :: (location.map Attribute.location).toList,
                type := { name := type }, name }

def withConstant (c : ClassDecl) (type name : String) (value : Expr) : ClassDecl :=
  c.withField { isConst := true, type := { name := type }, name, init := some value }

def withStruct (c : ClassDecl) (s : StructDecl) : ClassDecl :=
  { c with structs := c.structs ++ [s] }

def withMethod (c : ClassDecl) (m : MethodDecl) : ClassDecl :=
  { c with methods := c.methods ++ [m] }

end ClassDecl

end ShaderCompiler
