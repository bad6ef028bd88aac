import ShaderCompiler.Emission.Function
import ShaderCompiler.Proofs.Sequencing

namespace ShaderCompiler

def boundType (type : ValueType) (d : Declarator Expr) : ValueType :=
  if type.array || d.init.any Expr.isArrayValue then .arrayOf type.name else type

namespace Frame

/-- The type of a declaration, which may come from its first initial value. -/
def declaredAs (f : Frame) (type : TypeRef) (ds : List (Declarator Expr)) : Option ValueType :=
  if type.name = "var" then (ds.head?.bind (·.init)).bind (infer f.env) else some (.ofRef type)

def bindAll (f : Frame) (type : ValueType) (ds : List (Declarator Expr)) : Frame :=
  ds.foldl (fun f d => f.bind d.name (boundType type d)) f

/-- The frame behind a statement. -/
def after (f : Frame) : Stmt → Frame
  | .declare _ type ds => (f.declaredAs type ds).elim f fun t => f.bindAll t ds
  | _ => f

def afterAll (f : Frame) (body : List Stmt) : Frame := body.foldl after f

theorem context_bind (f : Frame) (name : String) (type : ValueType) :
    (f.bind name type).context = f.context := rfl

theorem context_bindAll (f : Frame) (type : ValueType) (ds : List (Declarator Expr)) :
    (f.bindAll type ds).context = f.context := by
  unfold bindAll
  induction ds generalizing f with
  | nil => rfl
  | cons d ds ih => rw [List.foldl_cons, ih, context_bind]

theorem context_after (f : Frame) (s : Stmt) : (f.after s).context = f.context := by
  cases s with
  | declare isConst type ds =>
      rw [after]
      cases f.declaredAs type ds with
      | none => rfl
      | some t => exact context_bindAll f t ds
  | _ => rfl

theorem context_afterAll (f : Frame) (body : List Stmt) :
    (f.afterAll body).context = f.context := by
  unfold afterAll
  induction body generalizing f with
  | nil => rfl
  | cons s body ih => rw [List.foldl_cons, ih, context_after]

end Frame

theorem context_bindParams (f : Frame) (params : List Param) :
    (bindParams f params).context = f.context := by
  unfold bindParams
  induction params generalizing f with
  | nil => rfl
  | cons p params ih => rw [List.foldl_cons, ih, Frame.context_bind]

namespace MethodBody

def frame (ctx : ClassContext) (m : MethodBody) : Frame where
  env := { context := ctx }
  member := m.name
  returns := (m.returnType.filter (·.name != "void")).map .ofRef

end MethodBody

end ShaderCompiler
