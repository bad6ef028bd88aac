import ShaderCompiler.Emission.Function
import ShaderCompiler.Order.DepthFirst

namespace ShaderCompiler

def positionsOf (functions : List ShaderFunction) (name : String) : List Nat :=
  (List.range functions.length).filter fun i => functions[i]?.any (·.name == name)

def functionGraph (owner : String) (functions : List ShaderFunction) :
    NeedGraph Nat Diagnostic where
  needs i :=
    match functions[i]? with
    | some f => .ok ((f.calls.flatMap (positionsOf functions)).map .ok)
    | none => .ok []
  cycle i :=
    .unsupported .recursion (.cycle owner ((functions[i]?.map (·.name)).getD ""))

/-- The positions, with those of entry points last. -/
def visitRoots (functions : List ShaderFunction) : List Nat :=
  let isEntry := fun i : Nat => functions[i]?.any (·.isEntryPoint)
  (List.range functions.length).filter (!isEntry ·) ++
    (List.range functions.length).filter isEntry

def functionOrder (owner : String) (functions : List ShaderFunction) :
    Except Diagnostic (List Nat) :=
  match functions.find? (·.calls.contains "main") with
  | some caller => .error (.invalidUse (.entryPointCalled owner caller.name))
  | none =>
      let (result, progress) := (functionGraph owner functions).walk (functions.length + 1)
        ((visitRoots functions).map .ok)
      result.map fun _ => progress.order

def orderFunctions (owner : String) (functions : List ShaderFunction) :
    Except Diagnostic (List ShaderFunction) :=
  (functionOrder owner functions).map fun order => order.filterMap (functions[·]?)

end ShaderCompiler
