import ShaderCompiler.Tree.Basic

namespace ShaderCompiler

mutual

/-- Every visited expression is replaced by its image, inner ones first. -/
def Expr.mapPost (f : Expr → Expr) : Expr → Expr
  | .assign op target value => f (.assign op (target.mapPost f) (value.mapPost f))
  | .binary op lhs rhs => f (.binary op (lhs.mapPost f) (rhs.mapPost f))
  | .unary op operand => f (.unary op (operand.mapPost f))
  | .call none name args => f (.call none name (mapArgs f args))
  | .call (some receiver) name args => f (.call (some (receiver.mapPost f)) name (mapArgs f args))
  | .member target name => f (.member (target.mapPost f) name)
  | .construct type args => f (.construct type (mapArgs f args))
  | .newArray element none none => f (.newArray element none none)
  | .newArray element (some size) none => f (.newArray element (some (size.mapPost f)) none)
  | .newArray element none (some items) => f (.newArray element none (some (mapItems f items)))
  | .newArray element (some size) (some items) =>
      f (.newArray element (some (size.mapPost f)) (some (mapItems f items)))
  | .arrayInit items => f (.arrayInit (mapItems f items))
  | .index target index => f (.index (target.mapPost f) (index.mapPost f))
  | .cast type operand => f (.cast type (operand.mapPost f))
  | .conditional test yes no => f (.conditional (test.mapPost f) (yes.mapPost f) (no.mapPost f))
  | .lambda params (.expr e) span => f (.lambda params (.expr (e.mapPost f)) span)
  | e => f e

def mapArgs (f : Expr → Expr) : List (Arg Expr) → List (Arg Expr)
  | [] => []
  | ⟨label, e⟩ :: rest => ⟨label, e.mapPost f⟩ :: mapArgs f rest

def mapItems (f : Expr → Expr) : List Expr → List Expr
  | [] => []
  | e :: rest => e.mapPost f :: mapItems f rest

end

mutual

/-- The visited expressions, inner ones before those that hold them. -/
def Expr.visited : Expr → List Expr
  | .assign op target value => target.visited ++ value.visited ++ [.assign op target value]
  | .binary op lhs rhs => lhs.visited ++ rhs.visited ++ [.binary op lhs rhs]
  | .unary op operand => operand.visited ++ [.unary op operand]
  | .call none name args => visitedArgs args ++ [.call none name args]
  | .call (some receiver) name args =>
      receiver.visited ++ visitedArgs args ++ [.call (some receiver) name args]
  | .member target name => target.visited ++ [.member target name]
  | .construct type args => visitedArgs args ++ [.construct type args]
  | .newArray element none none => [.newArray element none none]
  | .newArray element (some size) none => size.visited ++ [.newArray element (some size) none]
  | .newArray element none (some items) =>
      visitedItems items ++ [.newArray element none (some items)]
  | .newArray element (some size) (some items) =>
      size.visited ++ visitedItems items ++ [.newArray element (some size) (some items)]
  | .arrayInit items => visitedItems items ++ [.arrayInit items]
  | .index target index => target.visited ++ index.visited ++ [.index target index]
  | .cast type operand => operand.visited ++ [.cast type operand]
  | .conditional test yes no =>
      test.visited ++ yes.visited ++ no.visited ++ [.conditional test yes no]
  | .lambda params (.expr e) span => e.visited ++ [.lambda params (.expr e) span]
  | e => [e]

def visitedArgs : List (Arg Expr) → List Expr
  | [] => []
  | ⟨_, e⟩ :: rest => e.visited ++ visitedArgs rest

def visitedItems : List Expr → List Expr
  | [] => []
  | e :: rest => e.visited ++ visitedItems rest

end

def CaseLabel.map {ε : Type} (f : ε → ε) : CaseLabel ε → CaseLabel ε
  | .value e => .value (f e)
  | .default => .default

def CaseLabel.value? {ε : Type} : CaseLabel ε → Option ε
  | .value e => some e
  | .default => none

def Declarator.map {ε : Type} (f : ε → ε) (d : Declarator ε) : Declarator ε :=
  { d with init := d.init.map f }

mutual

def Stmt.mapExprs (f : Expr → Expr) : Stmt → Stmt
  | .block body => .block (mapStmts f body)
  | .ifElse test yes none => .ifElse (f test) (yes.mapExprs f) none
  | .ifElse test yes (some no) => .ifElse (f test) (yes.mapExprs f) (some (no.mapExprs f))
  | .whileLoop test body => .whileLoop (f test) (body.mapExprs f)
  | .doWhile body test => .doWhile (body.mapExprs f) (f test)
  | .forLoop init test step body =>
      .forLoop (mapStmts f init) (test.map f) (step.map f) (body.mapExprs f)
  | .switch scrutinee sections => .switch (f scrutinee) (mapSections f sections)
  | .ret value => .ret (value.map f)
  | .declare isConst type declarators =>
      .declare isConst type (declarators.map (Declarator.map f))
  | .eval e => .eval (f e)
  | s => s

def mapStmts (f : Expr → Expr) : List Stmt → List Stmt
  | [] => []
  | s :: rest => s.mapExprs f :: mapStmts f rest

def mapSections (f : Expr → Expr) : List (SwitchSection Expr Stmt) → List (SwitchSection Expr Stmt)
  | [] => []
  | ⟨labels, body⟩ :: rest =>
      ⟨labels.map (CaseLabel.map f), mapStmts f body⟩ :: mapSections f rest

end

mutual

def Stmt.exprs : Stmt → List Expr
  | .block body => exprsOf body
  | .ifElse test yes none => test :: yes.exprs
  | .ifElse test yes (some no) => test :: yes.exprs ++ no.exprs
  | .whileLoop test body => test :: body.exprs
  | .doWhile body test => test :: body.exprs
  | .forLoop init test step body => exprsOf init ++ test.toList ++ step ++ body.exprs
  | .switch scrutinee sections => scrutinee :: exprsOfSections sections
  | .ret value => value.toList
  | .declare _ _ declarators => declarators.filterMap (·.init)
  | .eval e => [e]
  | _ => []

def exprsOf : List Stmt → List Expr
  | [] => []
  | s :: rest => s.exprs ++ exprsOf rest

def exprsOfSections : List (SwitchSection Expr Stmt) → List Expr
  | [] => []
  | ⟨labels, body⟩ :: rest =>
      labels.filterMap CaseLabel.value? ++ exprsOf body ++ exprsOfSections rest

end

mutual

def Stmt.declared : Stmt → List String
  | .block body => declaredIn body
  | .ifElse _ yes none => yes.declared
  | .ifElse _ yes (some no) => yes.declared ++ no.declared
  | .whileLoop _ body => body.declared
  | .doWhile body _ => body.declared
  | .forLoop init _ _ body => declaredIn init ++ body.declared
  | .switch _ sections => declaredInSections sections
  | .declare _ _ declarators => declarators.map (·.name)
  | _ => []

def declaredIn : List Stmt → List String
  | [] => []
  | s :: rest => s.declared ++ declaredIn rest

def declaredInSections : List (SwitchSection Expr Stmt) → List String
  | [] => []
  | ⟨_, body⟩ :: rest => declaredIn body ++ declaredInSections rest

end

end ShaderCompiler
