import Mathlib.Tactic.Common
import ShaderCompiler.Construct
import ShaderCompiler.Emission.Function
import ShaderCompiler.Tree.Visit

namespace ShaderCompiler

def TypeRef.rejections (t : TypeRef) : List Construct := if t.pointer then [.pointers] else []

def labelRejections (args : List (Arg Expr)) : List Construct :=
  if hasLabel args then [.namedArguments] else []

def isVerbatimText (name : String) : List (Arg Expr) → Bool
  | [⟨_, .literal (.str _)⟩] => name == Intrinsic.verbatim
  | _ => false

def answersBare (ctx : ClassContext) : Option Expr → Bool
  | none | some .self => true
  | some (.ident owner) => (Stage.ofBaseClass? owner).isSome || owner == ctx.className
  | some _ => false

/-- A call that passes one string on as it is. -/
def isVerbatimCall (ctx : ClassContext) (receiver : Option Expr) (name : String)
    (args : List (Arg Expr)) : Bool :=
  answersBare ctx receiver && isVerbatimText name args

theorem exists_of_isVerbatimCall {ctx : ClassContext} {receiver : Option Expr} {name : String}
    {args : List (Arg Expr)} (h : isVerbatimCall ctx receiver name args = true) :
    ∃ label text, args = [⟨label, .literal (.str text)⟩] := by
  have h := (Bool.and_eq_true_iff.mp h).2
  unfold isVerbatimText at h
  split at h
  · exact ⟨_, _, rfl⟩
  · cases h

mutual

/-- The constructs in an expression that have no form. Of those inside each other the outermost is
listed. -/
def Expr.rejections (ctx : ClassContext) : Expr → List Construct
  | .assign _ target value => target.rejections ctx ++ value.rejections ctx
  | .binary _ lhs rhs => lhs.rejections ctx ++ rhs.rejections ctx
  | .unary _ operand => operand.rejections ctx
  | .call none name args =>
      labelRejections args ++
        if isVerbatimCall ctx none name args then [] else rejectionsOfArgs ctx args
  | .call (some receiver) name args =>
      receiver.rejections ctx ++ labelRejections args ++
        if isVerbatimCall ctx (some receiver) name args then [] else rejectionsOfArgs ctx args
  | .member target _ => target.rejections ctx
  | .construct type args => type.rejections ++ labelRejections args ++ rejectionsOfArgs ctx args
  | .newArray element none none => element.rejections
  | .newArray element (some size) none => element.rejections ++ size.rejections ctx
  | .newArray element none (some items) => element.rejections ++ rejectionsOfItems ctx items
  | .newArray element (some size) (some items) =>
      element.rejections ++ size.rejections ctx ++ rejectionsOfItems ctx items
  | .arrayInit items => rejectionsOfItems ctx items
  | .index target index => target.rejections ctx ++ index.rejections ctx
  | .cast type operand => type.rejections ++ operand.rejections ctx
  | .conditional test yes no => test.rejections ctx ++ yes.rejections ctx ++ no.rejections ctx
  | .ident _ | .self => []
  | .literal (.str _) => [.strings]
  | .literal _ => []
  | .base _ => [.baseAccess]
  | .null _ => [.null]
  | .lambda _ _ _ => [.lambdas]
  | .query _ => [.queries]
  | .typeTest _ _ _ _ => [.typeTests]
  | .typeOf _ _ => [.typeOf]
  | .sizeOf _ _ => [.sizeOf]
  | .deref _ _ | .addressOf _ _ | .arrow _ _ _ => [.pointers]
  | .stackAlloc _ _ _ => [.stackAlloc]
  | .anonymous _ _ => [.anonymousTypes]

def rejectionsOfArgs (ctx : ClassContext) : List (Arg Expr) → List Construct
  | [] => []
  | ⟨_, e⟩ :: rest => e.rejections ctx ++ rejectionsOfArgs ctx rest

def rejectionsOfItems (ctx : ClassContext) : List Expr → List Construct
  | [] => []
  | e :: rest => e.rejections ctx ++ rejectionsOfItems ctx rest

end

def rejectionsOfDeclarators (ctx : ClassContext) (ds : List (Declarator Expr)) :
    List Construct :=
  (ds.filterMap (·.init)).flatMap (Expr.rejections ctx)

theorem rejectionsOfDeclarators_cons (ctx : ClassContext) (d : Declarator Expr)
    (ds : List (Declarator Expr)) :
    rejectionsOfDeclarators ctx (d :: ds) =
      d.init.toList.flatMap (Expr.rejections ctx) ++ rejectionsOfDeclarators ctx ds := by
  rw [rejectionsOfDeclarators, rejectionsOfDeclarators, List.filterMap_cons]
  cases d.init with
  | none => rfl
  | some e => simp

mutual

def Stmt.rejections (ctx : ClassContext) : Stmt → List Construct
  | .block body => rejectionsIn ctx body
  | .ifElse test yes none => test.rejections ctx ++ yes.rejections ctx
  | .ifElse test yes (some no) => test.rejections ctx ++ yes.rejections ctx ++ no.rejections ctx
  | .whileLoop test body => test.rejections ctx ++ body.rejections ctx
  | .doWhile body test => body.rejections ctx ++ test.rejections ctx
  | .forLoop init test step body =>
      rejectionsIn ctx init ++ test.toList.flatMap (Expr.rejections ctx) ++
        rejectionsOfItems ctx step ++ body.rejections ctx
  | .switch scrutinee sections => scrutinee.rejections ctx ++ rejectionsInSections ctx sections
  | .ret value => value.toList.flatMap (Expr.rejections ctx)
  | .declare _ type declarators => type.rejections ++ rejectionsOfDeclarators ctx declarators
  | .eval e => e.rejections ctx
  | .empty | .brk | .cont | .discard => []
  | .tryCatch _ _ _ _ | .throw _ _ => [.exceptions]
  | .foreach _ _ _ _ _ => [.foreachLoops]
  | .lock _ _ _ => [.lockBlocks]
  | .using _ _ _ => [.usingBlocks]
  | .goto _ _ => [.goto]
  | .labeled _ _ _ => [.labels]
  | .yield _ _ => [.iterators]
  | .unmanaged _ _ => [.unmanaged]
  | .fixed _ _ _ => [.fixedBlocks]
  | .attributed _ _ _ => [.attributes]

def rejectionsIn (ctx : ClassContext) : List Stmt → List Construct
  | [] => []
  | s :: rest => s.rejections ctx ++ rejectionsIn ctx rest

def rejectionsInSections (ctx : ClassContext) : List (SwitchSection Expr Stmt) → List Construct
  | [] => []
  | ⟨labels, body⟩ :: rest =>
      (labels.filterMap CaseLabel.value?).flatMap (Expr.rejections ctx) ++ rejectionsIn ctx body ++
        rejectionsInSections ctx rest

end

theorem Stmt.rejections_ifElse (ctx : ClassContext) (test : Expr) (yes : Stmt)
    (no : Option Stmt) :
    (ifElse test yes no).rejections ctx =
      test.rejections ctx ++ yes.rejections ctx ++ no.toList.flatMap (Stmt.rejections ctx) := by
  cases no <;> simp [rejections]

def Param.rejections (p : Param) : List Construct :=
  p.type.rejections ++ if p.default.isSome then [.defaultArguments] else []

/-- Everything in a method that has no form. -/
def MethodBody.rejections (ctx : ClassContext) (m : MethodBody) : List Construct :=
  m.returnType.toList.flatMap TypeRef.rejections ++ m.params.flatMap Param.rejections ++
    rejectionsIn ctx m.body

def TypeRef.pruned (t : TypeRef) : TypeRef := { t with pointer := false }

/-- A size beside the items of an array is dropped, and so is the mark of a pointer on the type of
the items or of a constructed value. -/
def Expr.prunedNode : Expr → Expr
  | .construct type args => .construct type.pruned args
  | .newArray element _ (some items) => .newArray element.pruned none (some items)
  | .newArray element size none => .newArray element.pruned size none
  | e => e

def Expr.droppedNode (ctx : ClassContext) : Expr → List Construct
  | .construct type _ => type.rejections
  | .newArray element (some size) (some _) => element.rejections ++ size.rejections ctx
  | .newArray element _ _ => element.rejections
  | _ => []

def Expr.pruned (e : Expr) : Expr := e.mapPost Expr.prunedNode

def Expr.passedOver (ctx : ClassContext) (e : Expr) : List Construct :=
  e.visited.flatMap (Expr.droppedNode ctx)

/-- The method without the places that emission never looks at. -/
def MethodBody.pruned (m : MethodBody) : MethodBody :=
  { m with body := mapStmts Expr.pruned m.body }

def MethodBody.passedOver (ctx : ClassContext) (m : MethodBody) : List Construct :=
  (exprsOf m.body).flatMap (Expr.passedOver ctx)

end ShaderCompiler
