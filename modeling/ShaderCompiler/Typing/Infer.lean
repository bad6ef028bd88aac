import ShaderCompiler.Intrinsic
import ShaderCompiler.Typing.ClassContext

namespace ShaderCompiler

/-- The names in scope: locals over what the class declares. -/
structure TypeEnv where
  context : ClassContext
  locals : List (String × ValueType) := []
  /-- The bindings to return to when the scopes that are open are closed, innermost first. -/
  enclosing : List (List (String × ValueType)) := []

namespace TypeEnv

def push (env : TypeEnv) : TypeEnv := { env with enclosing := env.locals :: env.enclosing }

def pop (env : TypeEnv) : TypeEnv :=
  match env.enclosing with
  | [] => env
  | locals :: enclosing => { env with locals, enclosing }

def bind (env : TypeEnv) (name : String) (type : ValueType) : TypeEnv :=
  { env with locals := (name, type) :: env.locals }

def isLocal (env : TypeEnv) (name : String) : Bool := (env.locals.lookup name).isSome

def lookup? (env : TypeEnv) (name : String) : Option ValueType :=
  (env.locals.lookup name).or (env.context.global? name)

end TypeEnv

def swizzleLength? (member : String) : Option Nat :=
  let cs := member.toList
  if 1 ≤ cs.length ∧ cs.length ≤ 4 ∧
      ["xyzw", "rgba", "stpq"].any (fun names => cs.all (names.toList.contains ·)) then
    some cs.length
  else none

def memberType? (ctx : ClassContext) (target : ValueType) (member : String) : Option ValueType :=
  if target.array then
    if member = "Length" then some (.ofKind .int) else none
  else
    match ctx.struct? target.name with
    | some members => members.lookup member
    | none =>
        match target.kind?, swizzleLength? member with
        | some kind, some n => (Vocabulary.vectorOf? kind n).map .named
        | _, _ => none

def Literal.type? : Literal → Option ValueType
  | .bool _ => some (.ofKind .bool)
  | .int _ => some (.ofKind .int)
  | .uint _ => some (.ofKind .uint)
  | .float _ => some (.ofKind .float)
  | .double _ => some (.ofKind .double)
  | .str _ => none

def callType? (ctx : ClassContext) (name : String) (args : List (Option ValueType)) :
    Option ValueType :=
  if ctx.hasMethod name then (ctx.selectOverload name args).bind (·.returns)
  else if Vocabulary.isBuiltin name || ctx.isStruct name then some (.named name)
  else
    match Intrinsic.returnRule name with
    | .firstArg => args.head?.join
    | .scalarOfFirst => (args.head?.join.bind (·.kind?)).map .ofKind
    | .fixed type => some (.named type)
    | .unknown => none

mutual

def infer (env : TypeEnv) : Expr → Option ValueType
  | .literal l => l.type?
  | .ident name => env.lookup? name
  | .member .self name => env.context.global? name
  | .member target name => (infer env target).bind (memberType? env.context · name)
  | .index target _ => (infer env target).bind (·.element?)
  | .call none name args => callType? env.context name (inferArgs env args)
  | .call (some .self) name args => callType? env.context name (inferArgs env args)
  | .construct type _ => some (.ofRef type)
  | .cast type _ => some (.ofRef type)
  | .newArray element _ _ => some (.arrayOf element.name)
  | .binary op lhs rhs =>
      if op.isComparison then some (.ofKind .bool)
      else
        match infer env lhs, infer env rhs with
        | some l, some r => some (l.combine r)
        | _, _ => none
  | .unary op operand => if op = .not then some (.ofKind .bool) else infer env operand
  | .conditional _ yes no => (infer env yes).or (infer env no)
  | .assign _ target _ => infer env target
  | _ => none

def inferArgs (env : TypeEnv) : List (Arg Expr) → List (Option ValueType)
  | [] => []
  | a :: rest => infer env a.value :: inferArgs env rest

end

end ShaderCompiler
