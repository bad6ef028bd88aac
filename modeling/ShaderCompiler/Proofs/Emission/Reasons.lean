import ShaderCompiler.Proofs.Emission.Functions
import ShaderCompiler.Shader.Compile

namespace ShaderCompiler

theorem recursion_notMem_labels (args : List (Arg Expr)) :
    .recursion ∉ labelRejections args := by
  rw [labelRejections]
  split <;> simp

theorem recursion_notMem_type (t : TypeRef) : .recursion ∉ t.rejections := by
  rw [TypeRef.rejections]
  split <;> simp

mutual

theorem recursion_notMem_expr (ctx : ClassContext) : (e : Expr) →
    .recursion ∉ e.rejections ctx
  | .assign _ target value => by
      simp [Expr.rejections, recursion_notMem_expr ctx target, recursion_notMem_expr ctx value]
  | .binary _ lhs rhs => by
      simp [Expr.rejections, recursion_notMem_expr ctx lhs, recursion_notMem_expr ctx rhs]
  | .unary _ operand => by simp [Expr.rejections, recursion_notMem_expr ctx operand]
  | .call none name args => by
      rw [Expr.rejections]
      split <;> simp [recursion_notMem_labels, recursion_notMem_args ctx args]
  | .call (some receiver) name args => by
      rw [Expr.rejections]
      split <;> simp [recursion_notMem_expr ctx receiver, recursion_notMem_labels,
        recursion_notMem_args ctx args]
  | .member target _ => by simp [Expr.rejections, recursion_notMem_expr ctx target]
  | .construct type args => by
      simp [Expr.rejections, recursion_notMem_type, recursion_notMem_labels,
        recursion_notMem_args ctx args]
  | .newArray element none none => by simp [Expr.rejections, recursion_notMem_type]
  | .newArray element (some size) none => by
      simp [Expr.rejections, recursion_notMem_type, recursion_notMem_expr ctx size]
  | .newArray element none (some items) => by
      simp [Expr.rejections, recursion_notMem_type, recursion_notMem_items ctx items]
  | .newArray element (some size) (some items) => by
      simp [Expr.rejections, recursion_notMem_type, recursion_notMem_expr ctx size,
        recursion_notMem_items ctx items]
  | .arrayInit items => by simp [Expr.rejections, recursion_notMem_items ctx items]
  | .index target index => by
      simp [Expr.rejections, recursion_notMem_expr ctx target, recursion_notMem_expr ctx index]
  | .cast type operand => by
      simp [Expr.rejections, recursion_notMem_type, recursion_notMem_expr ctx operand]
  | .conditional test yes no => by
      simp [Expr.rejections, recursion_notMem_expr ctx test, recursion_notMem_expr ctx yes,
        recursion_notMem_expr ctx no]
  | .literal l => by cases l <;> simp [Expr.rejections]
  | .ident _ | .self | .base _ | .null _ | .lambda _ _ _ | .query _ | .typeTest _ _ _ _
  | .typeOf _ _ | .sizeOf _ _ | .deref _ _ | .addressOf _ _ | .arrow _ _ _
  | .stackAlloc _ _ _ | .anonymous _ _ => by simp [Expr.rejections]

theorem recursion_notMem_args (ctx : ClassContext) : (args : List (Arg Expr)) →
    .recursion ∉ rejectionsOfArgs ctx args
  | [] => by simp [rejectionsOfArgs]
  | ⟨_, e⟩ :: rest => by
      simp [rejectionsOfArgs, recursion_notMem_expr ctx e, recursion_notMem_args ctx rest]

theorem recursion_notMem_items (ctx : ClassContext) : (items : List Expr) →
    .recursion ∉ rejectionsOfItems ctx items
  | [] => by simp [rejectionsOfItems]
  | e :: rest => by
      simp [rejectionsOfItems, recursion_notMem_expr ctx e, recursion_notMem_items ctx rest]

end

theorem recursion_notMem_exprs (ctx : ClassContext) (es : List Expr) :
    .recursion ∉ es.flatMap (Expr.rejections ctx) := by
  simp [List.mem_flatMap, recursion_notMem_expr ctx]

mutual

theorem recursion_notMem_stmt (ctx : ClassContext) : (s : Stmt) →
    .recursion ∉ s.rejections ctx
  | .block body => by simp [Stmt.rejections, recursion_notMem_stmts ctx body]
  | .ifElse test yes none => by
      simp [Stmt.rejections, recursion_notMem_expr, recursion_notMem_stmt ctx yes]
  | .ifElse test yes (some no) => by
      simp [Stmt.rejections, recursion_notMem_expr, recursion_notMem_stmt ctx yes,
        recursion_notMem_stmt ctx no]
  | .whileLoop test body => by
      simp [Stmt.rejections, recursion_notMem_expr, recursion_notMem_stmt ctx body]
  | .doWhile body test => by
      simp [Stmt.rejections, recursion_notMem_expr, recursion_notMem_stmt ctx body]
  | .forLoop init test step body => by
      simp [Stmt.rejections, recursion_notMem_stmts ctx init, recursion_notMem_expr,
        recursion_notMem_items, recursion_notMem_stmt ctx body]
  | .switch scrutinee sections => by
      simp [Stmt.rejections, recursion_notMem_expr, recursion_notMem_sections ctx sections]
  | .ret value => by simp [Stmt.rejections, recursion_notMem_expr]
  | .declare _ type ds => by
      simp only [Stmt.rejections, rejectionsOfDeclarators, List.mem_append, not_or]
      exact ⟨recursion_notMem_type type, recursion_notMem_exprs ctx _⟩
  | .eval e => by simp [Stmt.rejections, recursion_notMem_expr]
  | .empty | .brk | .cont | .discard | .tryCatch _ _ _ _ | .throw _ _ | .foreach _ _ _ _ _
  | .lock _ _ _ | .using _ _ _ | .goto _ _ | .labeled _ _ _ | .yield _ _ | .unmanaged _ _
  | .fixed _ _ _ | .attributed _ _ _ => by simp [Stmt.rejections]

theorem recursion_notMem_stmts (ctx : ClassContext) : (body : List Stmt) →
    .recursion ∉ rejectionsIn ctx body
  | [] => by simp [rejectionsIn]
  | s :: rest => by
      simp [rejectionsIn, recursion_notMem_stmt ctx s, recursion_notMem_stmts ctx rest]

theorem recursion_notMem_sections (ctx : ClassContext) :
    (sections : List (SwitchSection Expr Stmt)) →
    .recursion ∉ rejectionsInSections ctx sections
  | [] => by simp [rejectionsInSections]
  | ⟨labels, body⟩ :: rest => by
      simp only [rejectionsInSections, List.mem_append, not_or]
      exact ⟨⟨recursion_notMem_exprs ctx _, recursion_notMem_stmts ctx body⟩,
        recursion_notMem_sections ctx rest⟩

end

theorem recursion_notMem_method (ctx : ClassContext) (m : MethodBody) :
    .recursion ∉ m.rejections ctx := by
  have hparam (p : Param) : .recursion ∉ p.rejections := by
    rw [Param.rejections]
    split <;> simp [recursion_notMem_type]
  simp [MethodBody.rejections, recursion_notMem_type, hparam, recursion_notMem_stmts]

/-- One method on its own is never refused for recursion. -/
theorem construct_ne_recursion_of_compileMethod {settings : Settings} {ctx : ClassContext}
    {m : MethodDecl} {d : Diagnostic} (h : compileMethod settings ctx m = .error d) :
    d.construct? ≠ some .recursion := by
  intro hc
  cases hbody : m.toBody with
  | error d' =>
      rw [compileMethod, hbody] at h
      cases h
      unfold MethodDecl.toBody at hbody
      split at hbody <;> cases hbody <;> cases hc
  | ok body =>
      rw [compileMethod, hbody] at h
      exact recursion_notMem_method ctx body.normalize
        (errsWithin_emitFunction ctx settings.indent body.normalize d _ h hc)

end ShaderCompiler
