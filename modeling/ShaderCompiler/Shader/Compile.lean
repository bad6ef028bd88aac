import ShaderCompiler.Assembly.Declarations
import ShaderCompiler.Digest.Source
import ShaderCompiler.Interface.Reflect
import ShaderCompiler.Normal.Form
import ShaderCompiler.Order.Functions
import ShaderCompiler.Shader.Effort

namespace ShaderCompiler

structure CompiledShader where
  name : String
  stage : Stage
  reflection : Reflection
  declarations : String
  functions : List ShaderFunction
  dependencies : List Dependency
  deriving DecidableEq, Repr

namespace CompiledShader

def source (s : CompiledShader) : String :=
  renderSections (s.declarations :: s.functions.map (·.text))

def contentHash (s : CompiledShader) : String := sourceDigest s.source

def fileName (s : CompiledShader) : String := s.name ++ "." ++ s.stage.extension

end CompiledShader

def compileMethod (settings : Settings) (ctx : ClassContext) (m : MethodDecl) :
    Except Diagnostic ShaderFunction := do
  let body ← m.toBody
  emitFunction ctx settings.indent body.normalize

def methodEffort (m : MethodDecl) : Effort :=
  match m.toBody with
  | .ok _ => { recoveries := 1, generations := 1 }
  | .error _ => { recoveries := 1 }

def prologue (className : String) (constructors : List MethodBody) :
    Except Diagnostic (List Stmt) :=
  if constructors.any (!·.params.isEmpty) then .error (.invalidUse (.constructorParams className))
  else .ok ((constructors.filter (!·.isTrivial)).flatMap (·.body))

/-- The methods with the prologue in the one entry point. -/
def withPrologue (className : String) (stmts : List Stmt) (methods : List MethodBody) :
    Except Diagnostic (List MethodBody) :=
  match methods.filter (·.isEntryPoint) with
  | [] => .error (.recovery (.noEntryPoint className))
  | [_] => .ok (methods.map fun m => if m.isEntryPoint then m.precededBy stmts else m)
  | _ => .error (.invalidUse (.manyEntryPoints className))

def functionBodies (c : ClassDecl) : Except Diagnostic (List MethodBody) := do
  let bodies ← c.methods.mapM (·.toBody)
  let stmts ← prologue c.name (bodies.filter (·.isConstructor))
  withPrologue c.name stmts (bodies.filter (!·.isConstructor))

def compile (settings : Settings) (c : ClassDecl) : Except Diagnostic CompiledShader := do
  let ctx := ClassContext.ofClass c
  let reflection ← reflect settings ctx c
  let bodies ← functionBodies c
  let emitted ← bodies.mapM fun m => emitFunction ctx settings.indent m.normalize
  let functions ← orderFunctions c.name emitted
  let declarations ← declarations reflection.header reflection.interface settings.indent
  return { name := c.name, stage := reflection.header.stage, reflection, declarations, functions,
           dependencies := distinct (functions.flatMap (·.dependencies)) }

/-- The work of `compile`, which stops at the first failure. -/
def compileEffort (settings : Settings) (c : ClassDecl) : Effort :=
  let ctx := ClassContext.ofClass c
  match reflect settings ctx c with
  | .error _ => { reflections := 1 }
  | .ok _ =>
      { reflections := 1
        recoveries := attempts (·.toBody) c.methods
        generations :=
          match functionBodies c with
          | .error _ => 0
          | .ok bodies =>
              attempts (fun m => emitFunction ctx settings.indent m.normalize) bodies }

end ShaderCompiler
