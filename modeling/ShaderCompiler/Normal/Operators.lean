import ShaderCompiler.MethodBody
import ShaderCompiler.Tree.Visit
import ShaderCompiler.Vocabulary

namespace ShaderCompiler

def BinaryOp.ofMethod? : String → Option BinaryOp
  | "op_Addition" | "Add" => some .add
  | "op_Subtraction" | "Subtract" => some .sub
  | "op_Multiply" | "Multiply" => some .mul
  | "op_Division" | "Divide" => some .div
  | "op_Modulus" | "Remainder" | "Modulus" => some .rem
  | "op_Equality" => some .eq
  | "op_Inequality" => some .ne
  | "op_LessThan" => some .lt
  | "op_GreaterThan" => some .gt
  | "op_LessThanOrEqual" => some .le
  | "op_GreaterThanOrEqual" => some .ge
  | "op_BitwiseAnd" => some .bitAnd
  | "op_BitwiseOr" => some .bitOr
  | "op_ExclusiveOr" => some .bitXor
  | "op_LeftShift" => some .shl
  | "op_RightShift" => some .shr
  | _ => none

def UnaryOp.ofMethod? : String → Option UnaryOp
  | "op_UnaryNegation" | "Negate" => some .neg
  | "op_UnaryPlus" | "Plus" => some .plus
  | "op_LogicalNot" => some .not
  | "op_OnesComplement" => some .bitNot
  | _ => none

/-- The operator that a method call on a vocabulary type stands for. -/
def operatorForm? (owner method : String) (args : List (Arg Expr)) : Option Expr :=
  if Vocabulary.isBuiltin owner then
    match args with
    | [⟨none, operand⟩] => (UnaryOp.ofMethod? method).map (.unary · operand)
    | [⟨none, lhs⟩, ⟨none, rhs⟩] => (BinaryOp.ofMethod? method).map (.binary · lhs rhs)
    | _ => none
  else none

def toOperator : Expr → Expr
  | .call (some (.ident owner)) method args =>
      (operatorForm? owner method args).getD (.call (some (.ident owner)) method args)
  | e => e

def MethodBody.withOperators (m : MethodBody) : MethodBody :=
  { m with body := mapStmts (Expr.mapPost toOperator) m.body }

end ShaderCompiler
