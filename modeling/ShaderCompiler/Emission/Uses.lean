import ShaderCompiler.Diagnostic
import ShaderCompiler.Distinct
import ShaderCompiler.Typing.Infer

namespace ShaderCompiler

/-- The functions that emitted text calls, each in order of first use. -/
structure Uses where
  calls : List String := []
  dependencies : List Dependency := []
  deriving DecidableEq, Repr

namespace Uses

def addCall (u : Uses) (name : String) : Uses := { u with calls := addNew u.calls name }

def addDependency (u : Uses) (d : Dependency) : Uses :=
  { u with dependencies := addNew u.dependencies d }

end Uses

abbrev Emit := StateT Uses (Except Diagnostic)

/-- Where emission stands: the names in scope and the member being emitted. -/
structure Frame where
  env : TypeEnv
  member : String
  returns : Option ValueType := none

namespace Frame

def context (f : Frame) : ClassContext := f.env.context

def site (f : Frame) : Site := ⟨f.context.className, f.member⟩

def bind (f : Frame) (name : String) (type : ValueType) : Frame :=
  { f with env := f.env.bind name type }

def reject (f : Frame) (construct : Construct) (span : Span) : Diagnostic :=
  .unsupported construct (.line f.site span.line)

def invalid (f : Frame) (fault : Site → UsageFault) : Diagnostic := .invalidUse (fault f.site)

def hintOf (f : Frame) (e : Expr) : Option ScalarKind := literalHint (infer f.env e)

def integralPair (f : Frame) (lhs rhs : Expr) : Bool :=
  (infer f.env lhs).any (·.isIntegral) && (infer f.env rhs).any (·.isIntegral)

end Frame

end ShaderCompiler
