import ShaderCompiler.Emission.Stmt
import ShaderCompiler.MethodBody

namespace ShaderCompiler

structure ShaderFunction where
  name : String
  isEntryPoint : Bool
  arity : Nat
  text : String := ""
  dependencies : List Dependency := []
  calls : List String := []
  deriving DecidableEq, Repr

/-- The size that the attributes of an array give. No other attribute is allowed. -/
def arraySize (fault : String → AttributeFault) (attributes : List Attribute) :
    Except Diagnostic (Option String) :=
  match attributes.find? (·.name != "ArraySize") with
  | some a => .error (.badAttribute (fault a.name))
  | none => .ok (attributes.head?.bind (·.firstText?))

def returnText (f : Frame) (m : MethodBody) : Except Diagnostic String := do
  let size ← arraySize (.onReturn · f.site) m.returnAttributes
  match m.returnType with
  | none => return "void"
  | some type =>
      if type.pointer then throw (f.reject .pointers type.span)
      let target ← f.context.resolveType type.name
      if type.array then
        match size with
        | some size => return target ++ "[" ++ size ++ "]"
        | none => throw (.missingArraySize (.returned f.site))
      else return target

namespace Passing

def keyword : Passing → String
  | value => ""
  | input => "in "
  | output => "out "
  | inout => "inout "

end Passing

def paramText (f : Frame) (p : Param) : Except Diagnostic String := do
  if p.default.isSome then throw (f.reject .defaultArguments p.span)
  if p.type.pointer then throw (f.reject .pointers p.span)
  let size ← arraySize (.onParam · p.name f.site) p.attributes
  let target ← f.context.resolveType p.type.name
  let typed := p.passing.keyword ++ target ++ " " ++ p.name
  if p.type.array then
    match size with
    | some size => return typed ++ "[" ++ size ++ "]"
    | none => throw (.missingArraySize (.param p.name f.site))
  else return typed

def bindParams (f : Frame) (params : List Param) : Frame :=
  params.foldl (fun f p => f.bind p.name (.ofRef p.type)) f

def functionLines (ctx : ClassContext) (m : MethodBody) : Emit (List Line) := do
  let f : Frame := { env := { context := ctx }, member := m.name,
                     returns := (m.returnType.filter (·.name != "void")).map .ofRef }
  let type ← returnText f m
  let params ← m.params.mapM (paramText f ·)
  let (body, _) ← emitStmts (bindParams f m.params) m.body
  let header := type ++ " " ++ m.name ++ "(" ++ String.intercalate ", " params ++ ") \x7b"
  return Line.opened header body ++ [.flat "\x7d"]

def emitFunction (ctx : ClassContext) (indent : String) (m : MethodBody) :
    Except Diagnostic ShaderFunction := do
  let (lines, uses) ← (functionLines ctx m).run {}
  return { name := m.name, isEntryPoint := m.isEntryPoint, arity := m.params.length,
           text := renderLines indent lines, dependencies := uses.dependencies,
           calls := uses.calls }

end ShaderCompiler
