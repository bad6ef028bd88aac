import Mathlib.Tactic.Common
import ShaderCompiler.MethodBody
import ShaderCompiler.Tree.Visit

namespace ShaderCompiler

/-- What a name can stand for. -/
inductive Referent where
  | param (name : String)
  | binder (index : Nat)
  | global (name : String)
  | function (name : String)
  deriving DecidableEq, Repr

def Referent.isBinder : Referent → Bool
  | binder _ => true
  | _ => false

/-- A mention of a name: a bare one, one behind `this`, or that of a called function. -/
inductive Mention where
  | value (name : String)
  | field (name : String)
  | callee (name : String)
  deriving DecidableEq, Repr

namespace Mention

def name : Mention → String
  | value name | field name | callee name => name

/-- What the name stands for where no local and no parameter hides it. -/
def outer : Mention → Referent
  | value name | field name => .global name
  | callee name => .function name

end Mention

mutual

/-- The names that an expression mentions. Expressions without a form in GLSL count for nothing. -/
def Expr.mentioned : Expr → List Mention
  | .assign _ target value => target.mentioned ++ value.mentioned
  | .binary _ lhs rhs => lhs.mentioned ++ rhs.mentioned
  | .unary _ operand => operand.mentioned
  | .call none name args => .callee name :: mentionedArgs args
  | .call (some receiver) name args => .callee name :: (receiver.mentioned ++ mentionedArgs args)
  | .member .self name => [.field name]
  | .member target _ => target.mentioned
  | .construct _ args => mentionedArgs args
  | .newArray _ none none => []
  | .newArray _ (some size) none => size.mentioned
  | .newArray _ none (some items) => mentionedItems items
  | .newArray _ (some size) (some items) => size.mentioned ++ mentionedItems items
  | .arrayInit items => mentionedItems items
  | .index target index => target.mentioned ++ index.mentioned
  | .cast _ operand => operand.mentioned
  | .conditional test yes no => test.mentioned ++ yes.mentioned ++ no.mentioned
  | .ident name => [.value name]
  | _ => []

def mentionedArgs : List (Arg Expr) → List Mention
  | [] => []
  | ⟨_, e⟩ :: rest => e.mentioned ++ mentionedArgs rest

def mentionedItems : List Expr → List Mention
  | [] => []
  | e :: rest => e.mentioned ++ mentionedItems rest

end

abbrev Scope := List (String × Referent)

structure Occurrence where
  scope : Scope
  mention : Mention
  deriving DecidableEq, Repr

namespace Occurrence

/-- What the author means: only a bare name can be hidden by a local or a parameter. -/
def referent (s : Occurrence) : Referent :=
  match s.mention with
  | .value name => (s.scope.lookup name).getD (.global name)
  | m => m.outer

/-- What the emitted text means, where every name is a bare one. -/
def emittedReferent (s : Occurrence) : Referent := (s.scope.lookup s.mention.name).getD s.mention.outer

end Occurrence

structure Scoping where
  scope : Scope
  count : Nat := 0

namespace Scoping

def declare (sc : Scoping) (name : String) : Scoping :=
  ⟨(name, .binder sc.count) :: sc.scope, sc.count + 1⟩

def leave (outer inner : Scoping) : Scoping := { inner with scope := outer.scope }

def occurrencesOf (sc : Scoping) (e : Expr) : List Occurrence := e.mentioned.map (⟨sc.scope, ·⟩)

/-- A local is in scope after its own initial value. -/
def occurrencesOfDeclarators (sc : Scoping) : List (Declarator Expr) → List Occurrence × Scoping
  | [] => ([], sc)
  | d :: rest =>
      let rest := (sc.declare d.name).occurrencesOfDeclarators rest
      (d.init.toList.flatMap sc.occurrencesOf ++ rest.1, rest.2)

end Scoping

mutual

/-- The mentions in a statement, and the scoping after it. -/
def Stmt.occurrences (sc : Scoping) : Stmt → List Occurrence × Scoping
  | .block body =>
      let body := occurrencesIn sc body
      (body.1, sc.leave body.2)
  | .ifElse test yes none =>
      let yes := yes.occurrences sc
      (sc.occurrencesOf test ++ yes.1, sc.leave yes.2)
  | .ifElse test yes (some no) =>
      let yes := yes.occurrences sc
      let no := no.occurrences (sc.leave yes.2)
      (sc.occurrencesOf test ++ yes.1 ++ no.1, sc.leave no.2)
  | .whileLoop test body =>
      let body := body.occurrences sc
      (sc.occurrencesOf test ++ body.1, sc.leave body.2)
  | .doWhile body test =>
      let body := body.occurrences sc
      (body.1 ++ sc.occurrencesOf test, sc.leave body.2)
  | .forLoop init test step body =>
      let init := occurrencesIn sc init
      let body := body.occurrences init.2
      (init.1 ++ test.toList.flatMap init.2.occurrencesOf ++ step.flatMap init.2.occurrencesOf ++ body.1,
        sc.leave body.2)
  | .switch scrutinee sections =>
      let sections := occurrencesInSections sc sections
      (sc.occurrencesOf scrutinee ++ sections.1, sc.leave sections.2)
  | .ret value => (value.toList.flatMap sc.occurrencesOf, sc)
  | .declare _ _ declarators => sc.occurrencesOfDeclarators declarators
  | .eval e => (sc.occurrencesOf e, sc)
  | _ => ([], sc)

def occurrencesIn (sc : Scoping) : List Stmt → List Occurrence × Scoping
  | [] => ([], sc)
  | s :: rest =>
      let s := s.occurrences sc
      let rest := occurrencesIn s.2 rest
      (s.1 ++ rest.1, rest.2)

def occurrencesInSections (sc : Scoping) : List (SwitchSection Expr Stmt) → List Occurrence × Scoping
  | [] => ([], sc)
  | ⟨labels, body⟩ :: rest =>
      let body := occurrencesIn sc body
      let rest := occurrencesInSections body.2 rest
      ((labels.filterMap CaseLabel.value?).flatMap sc.occurrencesOf ++ body.1 ++ rest.1, rest.2)

end

namespace MethodBody

def paramScope (m : MethodBody) : Scope := (m.params.map fun p => (p.name, .param p.name)).reverse

/-- Every mention in the body. -/
def occurrences (m : MethodBody) : List Occurrence := (occurrencesIn ⟨m.paramScope, 0⟩ m.body).1

def referents (m : MethodBody) : List Referent := m.occurrences.map Occurrence.referent

def emittedReferents (m : MethodBody) : List Referent := m.occurrences.map Occurrence.emittedReferent

end MethodBody

end ShaderCompiler
