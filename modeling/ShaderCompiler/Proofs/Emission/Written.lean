import ShaderCompiler.Emission.Expr
import ShaderCompiler.Proofs.Token.Pieces

namespace ShaderCompiler

open Token

def AssignOp.mark : AssignOp → Symbol
  | assign => .equals
  | add => .plusEq
  | sub => .minusEq
  | mul => .starEq
  | div => .slashEq
  | rem => .percentEq
  | bitAnd => .ampEq
  | bitOr => .pipeEq
  | bitXor => .caretEq
  | shl => .shlEq
  | shr => .shrEq

theorem AssignOp.mark_text (op : AssignOp) : op.mark.text = op.symbol := by cases op <;> rfl

def BinaryOp.mark : BinaryOp → Symbol
  | or => .pipePipe
  | and => .ampAmp
  | bitOr => .pipe
  | bitXor => .caret
  | bitAnd => .amp
  | eq => .eqEq
  | ne => .bangEq
  | lt => .lt
  | gt => .gt
  | le => .ltEq
  | ge => .gtEq
  | shl => .shl
  | shr => .shr
  | add => .plus
  | sub => .minus
  | mul => .star
  | div => .slash
  | rem => .percent

theorem BinaryOp.mark_text (op : BinaryOp) : op.mark.text = op.symbol := by cases op <;> rfl

def UnaryOp.mark : UnaryOp → Symbol
  | neg => .minus
  | plus => .plus
  | not => .bang
  | bitNot => .tilde
  | preInc | postInc => .plusPlus
  | preDec | postDec => .minusMinus

theorem UnaryOp.mark_text (op : UnaryOp) : op.mark.text = op.symbol := by cases op <;> rfl

namespace Written

def parenthesized (ps : List Piece) : List Piece :=
  .token (.symbol .leftParen) :: (ps ++ [.token (.symbol .rightParen)])

/-- The pieces for a place that asks for `level`, of an expression that binds with `p`. -/
def fitted (ps : List Piece) (p level : Nat) : List Piece :=
  if p < level then parenthesized ps else ps

def isSigned : Kind → Bool
  | .symbol .plus | .symbol .minus | .symbol .plusPlus | .symbol .minusMinus => true
  | _ => false

/-- Behind a leading operator, an operand that begins with a sign stands in parentheses. -/
def shielded : List Piece → List Piece
  | .token k :: ps => if isSigned k then parenthesized (.token k :: ps) else .token k :: ps
  | ps => ps

def listed : List (List Piece) → List Piece
  | [] => []
  | [ps] => ps
  | ps :: rest => ps ++ .token (.symbol .comma) :: .gap :: listed rest

def infixed (ps : List Piece) (mark : Symbol) (qs : List Piece) : List Piece :=
  ps ++ .gap :: .token (.symbol mark) :: .gap :: qs

end Written

open Written in
/-- The expression is written as these pieces, and its outermost operator binds this tightly. -/
inductive Written : Expr → List Piece → Nat → Prop
  | bool (value : Bool) : Written (.literal (.bool value))
      [.token (.keyword (if value then .kwTrue else .kwFalse))] Precedence.primary
  | int (n : UInt64) : Written (.literal (.int n)) [.token (.int n)] Precedence.primary
  | uint (n : UInt64) : Written (.literal (.uint n)) [.token (.uint n)] Precedence.primary
  | ident {name : String} (hn : isPlainName name = true) :
      Written (.ident name) [.token (.identifier name)] Precedence.primary
  | assign (op : AssignOp) {t v : Expr} {ps qs : List Piece} {p q : Nat} (ht : Written t ps p)
      (hv : Written v qs q) : Written (.assign op t v)
        (infixed (fitted ps p Precedence.unary) op.mark (fitted qs q Precedence.assign))
        Precedence.assign
  | binary (op : BinaryOp) {l r : Expr} {ps qs : List Piece} {p q : Nat} (hl : Written l ps p)
      (hr : Written r qs q) : Written (.binary op l r)
        (infixed (fitted ps p op.precedence) op.mark (fitted qs q (op.precedence + 1)))
        op.precedence
  | leading {op : UnaryOp} (hop : op.isTrailing = false) {e : Expr} {ps : List Piece} {p : Nat}
      (he : Written e ps p) : Written (.unary op e)
        (.token (.symbol op.mark) :: shielded (fitted ps p Precedence.unary)) Precedence.unary
  | trailing {op : UnaryOp} (hop : op.isTrailing = true) {e : Expr} {ps : List Piece} {p : Nat}
      (he : Written e ps p) : Written (.unary op e)
        (fitted ps p Precedence.primary ++ [.token (.symbol op.mark)]) Precedence.primary
  | conditional {c a b : Expr} {ps qs rs : List Piece} {p q r : Nat} (hc : Written c ps p)
      (ha : Written a qs q) (hb : Written b rs r) : Written (.conditional c a b)
        (infixed (infixed (fitted ps p (Precedence.conditional + 1)) .question
          (fitted qs q Precedence.conditional)) .colon (fitted rs r Precedence.conditional))
        Precedence.conditional
  | index {t i : Expr} {ps qs : List Piece} {p q : Nat} (ht : Written t ps p)
      (hi : Written i qs q) : Written (.index t i)
        (fitted ps p Precedence.primary ++
          .token (.symbol .leftBracket) :: (qs ++ [.token (.symbol .rightBracket)]))
        Precedence.primary
  | member {name : String} (hn : isPlainName name = true) {t : Expr} {ps : List Piece} {p : Nat}
      (ht : Written t ps p) : Written (.member t name)
        (fitted ps p Precedence.primary ++ [.access name]) Precedence.primary
  | call {name : String} (hn : isPlainName name = true) (args : List (Expr × List Piece × Nat))
      (ha : ∀ a ∈ args, Written a.1 a.2.1 a.2.2) :
      Written (.call none name (args.map fun a => ⟨none, a.1⟩))
        (.token (.identifier name) :: parenthesized (listed (args.map (·.2.1))))
        Precedence.primary

end ShaderCompiler
