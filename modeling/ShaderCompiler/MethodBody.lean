import ShaderCompiler.Diagnostic
import ShaderCompiler.Tree.Decl

namespace ShaderCompiler

structure MethodBody where
  name : String
  isConstructor : Bool := false
  params : List Param := []
  returnType : Option TypeRef := none
  returnAttributes : List Attribute := []
  body : List Stmt := []

def Stmt.isEmpty : Stmt → Bool
  | .empty => true
  | _ => false

namespace MethodBody

def isEntryPoint (m : MethodBody) : Bool := !m.isConstructor && m.name == "main"

def isTrivial (m : MethodBody) : Bool := m.body.all Stmt.isEmpty

def precededBy (m : MethodBody) (stmts : List Stmt) : MethodBody :=
  { m with body := stmts ++ m.body }

end MethodBody

/-- A method needs a body and takes no attributes. -/
def MethodDecl.toBody (m : MethodDecl) : Except Diagnostic MethodBody :=
  match m.body, m.attributes with
  | none, _ => .error (.recovery (.noBody m.name m.span.line))
  | some _, a :: _ => .error (.badAttribute (.onMethod a.name m.name))
  | some body, [] =>
      .ok { name := m.name, isConstructor := m.isConstructor, params := m.params,
            returnType := m.returnType, returnAttributes := m.returnAttributes, body }

end ShaderCompiler
