import ShaderCompiler.Emission.Declaration
import ShaderCompiler.Emission.Line

namespace ShaderCompiler

def Expr.isVerbatim : Expr → Bool
  | .call _ name _ => name == Intrinsic.verbatim
  | _ => false

/-- The line of an expression statement. Verbatim text may bring its own end. -/
def evalText (e : Expr) (text : String) : String :=
  let ended := text.toList.getLast?.any fun c => c == ';' || c == '\x7d'
  if e.isVerbatim && ended then text else text ++ ";"

def forInits (f : Frame) : List Stmt → Emit (List String × Frame)
  | [] => return ([], f)
  | .declare isConst type declarators :: rest => do
      let (text, f) ← declaration f isConst type declarators
      let (texts, f) ← forInits f rest
      return (text :: texts, f)
  | .eval e :: rest => do
      let r ← render f none e
      let (texts, f) ← forInits f rest
      return (r.text :: texts, f)
  | _ :: _ => throw (f.invalid .forInitializer)

def forTest (f : Frame) : Option Expr → Emit String
  | none => return ""
  | some e => return " " ++ (← render f none e).text

def forSteps (f : Frame) (steps : List Expr) : Emit String := do
  let texts ← renderItems f none steps
  return if texts.isEmpty then "" else " " ++ String.intercalate ", " texts

def caseLabels (f : Frame) : List (CaseLabel Expr) → Emit (List Line)
  | [] => return []
  | .value e :: rest => do
      let r ← render f none e
      return .flat ("case " ++ r.text ++ ":") :: (← caseLabels f rest)
  | .default :: rest => return .flat "default:" :: (← caseLabels f rest)

mutual

/-- A block is written with braces of its own where it stands as a statement, and without them
where it is the body of another statement. -/
def emitStmt (f : Frame) (braced : Bool) : Stmt → Emit (List Line × Frame)
  | .block body => do
      let (lines, _) ← emitStmts f body
      return (if braced then Line.opened "\x7b" lines ++ [.flat "\x7d"] else lines, f)
  | .empty => return ([], f)
  | .ifElse test yes no => do
      let c ← render f none test
      let (body, _) ← emitStmt f false yes
      let rest ← emitElse f no
      return (Line.opened ("if (" ++ c.text ++ ") \x7b") body ++ rest ++ [.flat "\x7d"], f)
  | .whileLoop test body => do
      let c ← render f none test
      let (body, _) ← emitStmt f false body
      return (Line.opened ("while (" ++ c.text ++ ") \x7b") body ++ [.flat "\x7d"], f)
  | .doWhile body test => do
      let (body, _) ← emitStmt f false body
      let c ← render f none test
      return (Line.opened "do \x7b" body ++ [.flat ("\x7d while (" ++ c.text ++ ");")], f)
  | .forLoop init test step body => do
      let (inits, inner) ← forInits f init
      let test ← forTest inner test
      let step ← forSteps inner step
      let (body, _) ← emitStmt inner false body
      let header :=
        "for (" ++ String.intercalate ", " inits ++ ";" ++ test ++ ";" ++ step ++ ") \x7b"
      return (Line.opened header body ++ [.flat "\x7d"], f)
  | .switch scrutinee sections => do
      let s ← render f none scrutinee
      let body ← emitSections f sections
      return (.flat ("switch (" ++ s.text ++ ") \x7b") :: body ++ [.flat "\x7d"], f)
  | .ret none => return ([.flat "return;"], f)
  | .ret (some value) => do
      let r ← render f (literalHint f.returns) value
      return ([.flat ("return " ++ r.text ++ ";")], f)
  | .brk => return ([.flat "break;"], f)
  | .cont => return ([.flat "continue;"], f)
  | .discard =>
      if f.context.stage.any (· != .fragment) then throw (f.invalid .discardOutsideFragment)
      else return ([.flat "discard;"], f)
  | .declare isConst type declarators => do
      let (text, f) ← declaration f isConst type declarators
      return ([.flat (text ++ ";")], f)
  | .eval e => do
      let r ← render f none e
      return ([.flat (evalText e r.text)], f)
  | .tryCatch _ _ _ span => throw (f.reject .exceptions span)
  | .throw _ span => throw (f.reject .exceptions span)
  | .foreach _ _ _ _ span => throw (f.reject .foreachLoops span)
  | .lock _ _ span => throw (f.reject .lockBlocks span)
  | .using _ _ span => throw (f.reject .usingBlocks span)
  | .goto _ span => throw (f.reject .goto span)
  | .labeled _ _ span => throw (f.reject .labels span)
  | .yield _ span => throw (f.reject .iterators span)
  | .unmanaged _ span => throw (f.reject .unmanaged span)
  | .fixed _ _ span => throw (f.reject .fixedBlocks span)
  | .attributed _ _ span => throw (f.reject .attributes span)

def emitElse (f : Frame) : Option Stmt → Emit (List Line)
  | none => return []
  | some (.ifElse test yes no) => do
      let c ← render f none test
      let (body, _) ← emitStmt f false yes
      return Line.opened ("\x7d else if (" ++ c.text ++ ") \x7b") body ++ (← emitElse f no)
  | some s => do
      let (body, _) ← emitStmt f false s
      return Line.opened "\x7d else \x7b" body

def emitStmts (f : Frame) : List Stmt → Emit (List Line × Frame)
  | [] => return ([], f)
  | s :: rest => do
      let (lines, f) ← emitStmt f true s
      let (more, f) ← emitStmts f rest
      return (lines ++ more, f)

/-- One scope spans all sections of a switch. -/
def emitSections (f : Frame) : List (SwitchSection Expr Stmt) → Emit (List Line)
  | [] => return []
  | ⟨labels, body⟩ :: rest => do
      let labels ← caseLabels f labels
      let (body, f) ← emitStmts f body
      return labels ++ body.map Line.nest ++ (← emitSections f rest)

end

end ShaderCompiler
