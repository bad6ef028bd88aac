import ShaderCompiler.MethodBody
import ShaderCompiler.Tree.Visit

namespace ShaderCompiler

def localName (n : Nat) : String := "local" ++ toString n

def Expr.mention? : Expr → Option String
  | .ident name => some name
  | .call none name _ => some name
  | _ => none

namespace MethodBody

def mentions (m : MethodBody) : List String :=
  (exprsOf m.body).flatMap fun e => e.visited.filterMap Expr.mention?

def declared (m : MethodBody) : List String := declaredIn m.body

/-- The parameters and mentioned names that no local declaration binds. -/
def taken (m : MethodBody) : List String :=
  (m.params.map (·.name) ++ m.mentions).filter (!m.declared.contains ·)

end MethodBody

/-- The first number from `n` on whose name is free. Of `fuel + 1` numbers in a row one is free
when at most `fuel` names are taken. -/
def freeIndex (taken : List String) : (fuel : Nat) → (n : Nat) → Nat
  | 0, n => n
  | fuel + 1, n => if taken.contains (localName n) then freeIndex taken fuel (n + 1) else n

/-- The names in force, the latest first, and the number to try next. -/
structure Renaming where
  scope : List (String × String)
  next : Nat := 0

namespace Renaming

def apply (r : Renaming) (name : String) : String := (r.scope.lookup name).getD name

def declare (taken : List String) (r : Renaming) (name : String) : String × Renaming :=
  let n := freeIndex taken taken.length r.next
  (localName n, ⟨(name, localName n) :: r.scope, n + 1⟩)

/-- What was declared inside goes out of scope, and its numbers stay used. -/
def leave (outer inner : Renaming) : Renaming := { inner with scope := outer.scope }

end Renaming

def renameIdent (r : Renaming) : Expr → Expr
  | .ident name => .ident (r.apply name)
  | e => e

def renameExpr (r : Renaming) (e : Expr) : Expr := e.mapPost (renameIdent r)

/-- A local is in scope after its own initial value. -/
def renameDeclarators (taken : List String) (r : Renaming) :
    List (Declarator Expr) → List (Declarator Expr) × Renaming
  | [] => ([], r)
  | d :: rest =>
      let new := r.declare taken d.name
      let rest := renameDeclarators taken new.2 rest
      (⟨new.1, d.init.map (renameExpr r)⟩ :: rest.1, rest.2)

mutual

def renameStmt (taken : List String) (r : Renaming) : Stmt → Stmt × Renaming
  | .block body =>
      let body := renameStmts taken r body
      (.block body.1, r.leave body.2)
  | .ifElse test yes none =>
      let yes := renameStmt taken r yes
      (.ifElse (renameExpr r test) yes.1 none, r.leave yes.2)
  | .ifElse test yes (some no) =>
      let yes := renameStmt taken r yes
      let no := renameStmt taken (r.leave yes.2) no
      (.ifElse (renameExpr r test) yes.1 (some no.1), r.leave no.2)
  | .whileLoop test body =>
      let body := renameStmt taken r body
      (.whileLoop (renameExpr r test) body.1, r.leave body.2)
  | .doWhile body test =>
      let body := renameStmt taken r body
      (.doWhile body.1 (renameExpr r test), r.leave body.2)
  | .forLoop init test step body =>
      let init := renameStmts taken r init
      let body := renameStmt taken init.2 body
      (.forLoop init.1 (test.map (renameExpr init.2)) (step.map (renameExpr init.2)) body.1,
        r.leave body.2)
  | .switch scrutinee sections =>
      let sections := renameSections taken r sections
      (.switch (renameExpr r scrutinee) sections.1, r.leave sections.2)
  | .ret value => (.ret (value.map (renameExpr r)), r)
  | .declare isConst type declarators =>
      let declarators := renameDeclarators taken r declarators
      (.declare isConst type declarators.1, declarators.2)
  | .eval e => (.eval (renameExpr r e), r)
  | s => (s, r)

def renameStmts (taken : List String) (r : Renaming) : List Stmt → List Stmt × Renaming
  | [] => ([], r)
  | s :: rest =>
      let s := renameStmt taken r s
      let rest := renameStmts taken s.2 rest
      (s.1 :: rest.1, rest.2)

def renameSections (taken : List String) (r : Renaming) :
    List (SwitchSection Expr Stmt) → List (SwitchSection Expr Stmt) × Renaming
  | [] => ([], r)
  | ⟨labels, body⟩ :: rest =>
      let body := renameStmts taken r body
      let rest := renameSections taken body.2 rest
      (⟨labels.map (CaseLabel.map (renameExpr r)), body.1⟩ :: rest.1, rest.2)

end

namespace MethodBody

def initialRenaming (m : MethodBody) : Renaming where
  scope := (m.params.map fun p => (p.name, p.name)).reverse

def withLocals (m : MethodBody) : MethodBody :=
  { m with body := (renameStmts m.taken m.initialRenaming m.body).1 }

end MethodBody

end ShaderCompiler
