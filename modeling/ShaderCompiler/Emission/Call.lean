import ShaderCompiler.Emission.Uses

namespace ShaderCompiler

inductive Construction where
  | zero (type zero : String)
  | ofArgs (type : String) (hints : List (Option ScalarKind))
  deriving DecidableEq, Repr

inductive CallForm where
  | verbatim (text : String)
  | construct (form : Construction)
  | intrinsic (name : String) (hints : List (Option ScalarKind))
  | own (name : String) (hints : List (Option ScalarKind))
  | foreign (dependency : Dependency)
  deriving DecidableEq, Repr

def ScalarKind.zero : ScalarKind → String
  | .bool => "false"
  | .int => "0"
  | .uint => "0u"
  | .float => "0.0f"
  | .double => "0.0lf"

def hasLabel (args : List (Arg Expr)) : Bool := args.any (·.label.isSome)

def verbatimForm (f : Frame) : List (Arg Expr) → Except Diagnostic CallForm
  | [⟨none, .literal (.str text)⟩] => .ok (.verbatim text)
  | _ => .error (f.invalid .verbatimArgument)

def constructForm (f : Frame) (type : String) (args : List (Arg Expr)) :
    Except Diagnostic Construction :=
  match f.context.struct? type with
  | some members =>
      if args.isEmpty then .error (f.invalid (.emptyStruct type))
      else .ok (.ofArgs type (members.map fun m => literalHint (some m.2)))
  | none =>
      match Vocabulary.lookup? type with
      | none => .error (.unknownType (.unknown type))
      | some builtin =>
          if builtin.isSampler then .error (f.invalid (.constructedSampler builtin.name))
          else if args.isEmpty then
            match builtin.kind with
            | some kind => .ok (.zero builtin.name kind.zero)
            | none => .error (.unknownType (.notConstructible builtin.name))
          else
            .ok (.ofArgs builtin.name
              (List.replicate args.length (literalHint (some (.named builtin.name)))))

/-- A bare integer among the arguments takes the kind of the first argument that has one, where
the result follows the arguments and the position is not an integer's. -/
def intrinsicHints (f : Frame) (name : String) (args : List (Arg Expr)) :
    List (Option ScalarKind) :=
  let hint :=
    match Intrinsic.returnRule name with
    | .firstArg | .scalarOfFirst => (inferArgs f.env args).findSome? literalHint
    | .fixed _ | .unknown => none
  (List.range args.length).map fun i =>
    if (Intrinsic.integerParams name).contains i then none else hint

def ownHints (f : Frame) (name : String) (args : List (Arg Expr)) : List (Option ScalarKind) :=
  match f.context.selectOverload name (inferArgs f.env args) with
  | some sig => sig.params.map fun p => literalHint (some p)
  | none => []

def bareForm (f : Frame) (name : String) (args : List (Arg Expr)) : Except Diagnostic CallForm :=
  if name = Intrinsic.verbatim then verbatimForm f args
  else if f.context.hasMethod name then .ok (.own name (ownHints f name args))
  else if Vocabulary.isBuiltin name || f.context.isStruct name then
    (constructForm f name args).map .construct
  else if Intrinsic.isIntrinsic name then .ok (.intrinsic name (intrinsicHints f name args))
  else .ok (.foreign ⟨name, name, args.length⟩)

/-- A call on a class: the own class and the base classes of shaders answer like a bare call. -/
def qualifiedForm (f : Frame) (owner name : String) (args : List (Arg Expr)) :
    Except Diagnostic CallForm :=
  if (Stage.ofBaseClass? owner).isSome || owner == f.context.className then
    if name = Intrinsic.verbatim || Intrinsic.isIntrinsic name || f.context.hasMethod name then
      bareForm f name args
    else .error (.unsupportedMember (.notIntrinsic owner name) f.site)
  else if Vocabulary.isBuiltin owner then
    .error (.unsupportedMember (.methodOnType owner name) f.site)
  else .ok (.foreign ⟨owner ++ "." ++ name, name, args.length⟩)

/-- A name that stands for no value may be that of a class. -/
def callForm (f : Frame) (receiver : Option Expr) (name : String) (args : List (Arg Expr)) :
    Except Diagnostic CallForm :=
  if hasLabel args then .error (.unsupported .namedArguments (.body f.site))
  else
    match receiver with
    | none | some .self => bareForm f name args
    | some (.ident owner) =>
        if (f.env.lookup? owner).isNone then qualifiedForm f owner name args
        else .error (.unsupportedMember (.methodOnValue name) f.site)
    | some _ => .error (.unsupportedMember (.methodOnValue name) f.site)

end ShaderCompiler
