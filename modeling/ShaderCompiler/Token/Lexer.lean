import ShaderCompiler.Decimal.Reading
import ShaderCompiler.Text.Letter
import ShaderCompiler.Token.Fault

namespace ShaderCompiler

structure Position where
  offset : Nat
  line : Nat
  column : Nat
  deriving DecidableEq, Repr

namespace Position

def origin : Position := ⟨0, 1, 1⟩

def next (p : Position) (c : Char) : Position :=
  if c = '\n' then ⟨p.offset + 1, p.line + 1, 1⟩ else ⟨p.offset + 1, p.line, p.column + 1⟩

def after (p : Position) (passed : List Char) : Position := passed.foldl next p

def upTo (p : Position) (text rest : List Char) : Position :=
  p.after (text.take (text.length - rest.length))

end Position

namespace Token

def closeComment : List Char → Option (List Char)
  | '*' :: '/' :: rest => some rest
  | _ :: rest => closeComment rest
  | [] => none

theorem closeComment_suffix {text rest : List Char} (h : closeComment text = some rest) :
    rest <:+ text := by
  fun_induction closeComment text with
  | case1 r =>
      obtain rfl : r = rest := by simpa using h
      exact ⟨['*', '/'], rfl⟩
  | case2 c r _ ih => exact (ih h).trans (List.suffix_cons c r)
  | case3 => simp at h

/-- Passes over blanks and comments. An open comment fails with the text that it begins. -/
def skipTrivia : List Char → Except (List Char) (List Char)
  | '/' :: '/' :: rest => skipTrivia (rest.dropWhile (· ≠ '\n'))
  | '/' :: '*' :: rest =>
      match _closed : closeComment rest with
      | some after => skipTrivia after
      | none => .error ('/' :: '*' :: rest)
  | c :: rest => if Text.isBlank c then skipTrivia rest else .ok (c :: rest)
  | [] => .ok []
termination_by text => text.length
decreasing_by
  · have := (List.dropWhile_suffix (fun c : Char => decide (c ≠ '\n')) (l := rest)).length_le
    simp only [List.length_cons]
    omega
  · have := (closeComment_suffix _closed).length_le
    simp only [List.length_cons]
    omega
  · simp

theorem skipTrivia_suffix {text rest : List Char} (h : skipTrivia text = .ok rest) :
    rest <:+ text := by
  fun_induction skipTrivia text with
  | case1 r ih =>
      exact ((ih h).trans (List.dropWhile_suffix _)).trans ⟨['/', '/'], rfl⟩
  | case2 r after hc ih =>
      exact ((ih h).trans (closeComment_suffix hc)).trans ⟨['/', '*'], rfl⟩
  | case3 => simp at h
  | case4 c r _ _ _ ih => exact (ih h).trans (List.suffix_cons c r)
  | case5 c r =>
      obtain rfl : c :: r = rest := by simpa using h
      exact List.suffix_rfl
  | case6 =>
      obtain rfl : [] = rest := by simpa using h
      exact List.suffix_rfl

def scanString : List Char → Option (List Char × List Char)
  | [] => none
  | '"' :: rest => some ([], rest)
  | '\\' :: 'n' :: rest => (scanString rest).map fun (content, after) => ('\n' :: content, after)
  | '\\' :: 't' :: rest => (scanString rest).map fun (content, after) => ('\t' :: content, after)
  | '\\' :: c :: rest => (scanString rest).map fun (content, after) => (c :: content, after)
  | ['\\'] => none
  | c :: rest => (scanString rest).map fun (content, after) => (c :: content, after)

def spanOf (p : Char → Bool) (text : List Char) : List Char × List Char :=
  (text.takeWhile p, text.dropWhile p)

def isHexDigit (c : Char) : Bool :=
  c.isDigit || ('a' ≤ c && c ≤ 'f') || ('A' ≤ c && c ≤ 'F')

def hexValue (c : Char) : Nat :=
  if c.isDigit then c.toNat - '0'.toNat
  else if c < 'a' then c.toNat - 'A'.toNat + 10
  else c.toNat - 'a'.toNat + 10

def word? (n : Nat) : Option UInt64 := if n < UInt64.size then some (UInt64.ofNat n) else none

def scanHex (text : List Char) : Except ReadFault (Kind × List Char) :=
  let (digits, rest) := spanOf isHexDigit text
  match digits, word? (digits.foldl (fun n c => 16 * n + hexValue c) 0) with
  | _ :: _, some value =>
      match rest with
      | 'u' :: after | 'U' :: after => .ok (.uint value, after)
      | _ => .ok (.int value, rest)
  | _, _ => .error (.invalidHex (String.ofList digits))

/-- The digits after a decimal point, if there is one. A point directly before a letter is a member
access and not part of the number. -/
def scanFraction : List Char → Option (List Char) × List Char
  | '.' :: rest =>
      match rest with
      | c :: _ =>
          if c.isDigit then (some (spanOf Char.isDigit rest).1, (spanOf Char.isDigit rest).2)
          else if Text.isAlphabetic c || c == '_' then (none, '.' :: rest)
          else (some [], rest)
      | [] => (some [], [])
  | rest => (none, rest)

/-- Sign and digits after an exponent mark, which needs one or the other behind it. -/
def scanExponent : List Char → Option (Option Char × List Char) × List Char
  | mark :: c :: rest =>
      if mark == 'e' || mark == 'E' then
        if c.isDigit then
          (some (none, (spanOf Char.isDigit (c :: rest)).1), (spanOf Char.isDigit (c :: rest)).2)
        else if c == '+' || c == '-' then
          (some (some c, (spanOf Char.isDigit rest).1), (spanOf Char.isDigit rest).2)
        else (none, mark :: c :: rest)
      else (none, mark :: c :: rest)
  | rest => (none, rest)

/-- The text of a number as messages quote it. A point with no digits behind it is left out. -/
def numeralText (n : Decimal.Numeral) : String :=
  let fraction := if n.fraction.isEmpty then [] else '.' :: n.fraction
  let exponent := match n.exponent with
    | none => []
    | some (sign, digits) => 'e' :: sign.toList ++ digits
  String.ofList (n.whole ++ fraction ++ exponent)

def floatLiteral (n : Decimal.Numeral) (wrap : Float → Kind) : Except ReadFault Kind :=
  if n.wellFormed then .ok (wrap n.toFloat) else .error (.invalidNumber (numeralText n))

def wordLiteral (n : Decimal.Numeral) (wrap : UInt64 → Kind) : Except ReadFault Kind :=
  match word? n.digits with
  | some value => .ok (wrap value)
  | none => .error (.invalidNumber (numeralText n))

def literal (n : Decimal.Numeral) (fractional : Bool) (suffix : String) : Except ReadFault Kind :=
  match suffix, fractional with
  | "f", _ | "F", _ => floatLiteral n .float
  | "d", _ | "D", _ | "lf", _ | "LF", _ => floatLiteral n .double
  | "u", false | "U", false => wordLiteral n .uint
  | "", true => floatLiteral n .float
  | "", false => wordLiteral n .int
  | other, _ => .error (.unknownSuffix other (numeralText n))

def scanDecimal (text : List Char) : Except ReadFault (Kind × List Char) :=
  let (whole, rest) := spanOf Char.isDigit text
  let (fraction, rest) := scanFraction rest
  let (exponent, rest) := scanExponent rest
  let (suffix, rest) := spanOf Char.isAlpha rest
  let fractional := fraction.isSome || exponent.isSome
  (literal ⟨whole, fraction.getD [], exponent⟩ fractional (String.ofList suffix)).map (·, rest)

def scanNumber : List Char → Except ReadFault (Kind × List Char)
  | '0' :: 'x' :: rest => scanHex rest
  | '0' :: 'X' :: rest => scanHex rest
  | text => scanDecimal text

def scanSymbol : List Char → Option (Symbol × List Char)
  | '\x7b' :: rest => some (.leftBrace, rest)
  | '\x7d' :: rest => some (.rightBrace, rest)
  | '(' :: rest => some (.leftParen, rest)
  | ')' :: rest => some (.rightParen, rest)
  | '[' :: rest => some (.leftBracket, rest)
  | ']' :: rest => some (.rightBracket, rest)
  | ';' :: rest => some (.semicolon, rest)
  | ',' :: rest => some (.comma, rest)
  | ':' :: rest => some (.colon, rest)
  | '?' :: rest => some (.question, rest)
  | '~' :: rest => some (.tilde, rest)
  | '.' :: rest => some (.dot, rest)
  | '+' :: '+' :: rest => some (.plusPlus, rest)
  | '+' :: '=' :: rest => some (.plusEq, rest)
  | '+' :: rest => some (.plus, rest)
  | '-' :: '-' :: rest => some (.minusMinus, rest)
  | '-' :: '=' :: rest => some (.minusEq, rest)
  | '-' :: '>' :: rest => some (.arrow, rest)
  | '-' :: rest => some (.minus, rest)
  | '*' :: '=' :: rest => some (.starEq, rest)
  | '*' :: rest => some (.star, rest)
  | '/' :: '=' :: rest => some (.slashEq, rest)
  | '/' :: rest => some (.slash, rest)
  | '%' :: '=' :: rest => some (.percentEq, rest)
  | '%' :: rest => some (.percent, rest)
  | '^' :: '=' :: rest => some (.caretEq, rest)
  | '^' :: rest => some (.caret, rest)
  | '!' :: '=' :: rest => some (.bangEq, rest)
  | '!' :: rest => some (.bang, rest)
  | '=' :: '=' :: rest => some (.eqEq, rest)
  | '=' :: '>' :: rest => some (.fatArrow, rest)
  | '=' :: rest => some (.equals, rest)
  | '&' :: '&' :: rest => some (.ampAmp, rest)
  | '&' :: '=' :: rest => some (.ampEq, rest)
  | '&' :: rest => some (.amp, rest)
  | '|' :: '|' :: rest => some (.pipePipe, rest)
  | '|' :: '=' :: rest => some (.pipeEq, rest)
  | '|' :: rest => some (.pipe, rest)
  | '<' :: '<' :: '=' :: rest => some (.shlEq, rest)
  | '<' :: '<' :: rest => some (.shl, rest)
  | '<' :: '=' :: rest => some (.ltEq, rest)
  | '<' :: rest => some (.lt, rest)
  | '>' :: '>' :: '=' :: rest => some (.shrEq, rest)
  | '>' :: '>' :: rest => some (.shr, rest)
  | '>' :: '=' :: rest => some (.gtEq, rest)
  | '>' :: rest => some (.gt, rest)
  | _ => none

def isWordChar (c : Char) : Bool := Text.isAlphanumeric c || c == '_'

def ofWord (word : String) : Kind :=
  match Keyword.ofText? word with
  | some k => .keyword k
  | none =>
      match Modifier.ofText? word with
      | some m => .modifier m
      | none => .identifier word

/-- The token that begins with the character `c`. After `@` a word is always an identifier. -/
def scan (c : Char) (rest : List Char) : Except ReadFault (Kind × List Char) :=
  if c = '"' then
    match scanString rest with
    | some (content, after) => .ok (.string (String.ofList content), after)
    | none => .error .openString
  else if c.isDigit || (c = '.' && rest.head?.any Char.isDigit) then scanNumber (c :: rest)
  else if c = '@' then
    .ok (.identifier (String.ofList (spanOf isWordChar rest).1), (spanOf isWordChar rest).2)
  else if Text.isAlphabetic c || c = '_' then
    .ok (ofWord (String.ofList (c :: (spanOf isWordChar rest).1)), (spanOf isWordChar rest).2)
  else
    match scanSymbol (c :: rest) with
    | some (mark, after) => .ok (.symbol mark, after)
    | none => .error (.unexpectedCharacter c)

theorem scanString_suffix {text content after : List Char}
    (h : scanString text = some (content, after)) : after <:+ text := by
  fun_induction scanString text generalizing content with
  | case1 => simp at h
  | case2 r =>
      obtain ⟨-, rfl⟩ : [] = content ∧ r = after := by simpa using h
      exact List.suffix_cons _ _
  | case3 r ih | case4 r ih | case5 c r _ _ ih =>
      obtain ⟨⟨_, _⟩, hr, he⟩ := Option.map_eq_some_iff.1 h
      cases he
      exact (ih hr).trans ⟨[_, _], rfl⟩
  | case6 => simp at h
  | case7 c r _ _ _ _ _ ih =>
      obtain ⟨⟨_, _⟩, hr, he⟩ := Option.map_eq_some_iff.1 h
      cases he
      exact (ih hr).trans (List.suffix_cons _ _)

theorem spanOf_suffix (p : Char → Bool) (text : List Char) : (spanOf p text).2 <:+ text :=
  List.dropWhile_suffix p

theorem scanHex_suffix {text after : List Char} {k : Kind} (h : scanHex text = .ok (k, after)) :
    after <:+ text := by
  have hs := spanOf_suffix isHexDigit text
  unfold scanHex at h
  grind [List.suffix_cons, List.IsSuffix.trans]

theorem scanFraction_suffix (text : List Char) : (scanFraction text).2 <:+ text := by
  unfold scanFraction
  split
  · split
    · split
      · exact (spanOf_suffix _ _).trans (List.suffix_cons _ _)
      · split
        · exact List.suffix_rfl
        · exact List.suffix_cons _ _
    · exact List.suffix_cons _ _
  · exact List.suffix_rfl

theorem scanFraction_suffix_of_digit {rest : List Char} (h : rest.head?.any Char.isDigit = true) :
    (scanFraction ('.' :: rest)).2 <:+ rest := by
  cases rest with
  | nil => simp at h
  | cons c rest =>
      have hc : c.isDigit = true := by simpa using h
      simp only [scanFraction, hc, if_true]
      exact spanOf_suffix _ _

theorem scanExponent_suffix (text : List Char) : (scanExponent text).2 <:+ text := by
  unfold scanExponent
  split
  · split
    · split
      · exact (spanOf_suffix _ _).trans (List.suffix_cons _ _)
      · split
        · exact (spanOf_suffix _ _).trans ⟨[_, _], rfl⟩
        · exact List.suffix_rfl
    · exact List.suffix_rfl
  · exact List.suffix_rfl

theorem scanDecimal_suffix {c : Char} {rest after : List Char} {k : Kind}
    (hc : c.isDigit = true ∨ (c = '.' ∧ rest.head?.any Char.isDigit = true))
    (h : scanDecimal (c :: rest) = .ok (k, after)) : after <:+ rest := by
  have hs : (spanOf Char.isAlpha (scanExponent
      (scanFraction (spanOf Char.isDigit (c :: rest)).2).2).2).2 <:+ rest := by
    refine (spanOf_suffix _ _).trans ((scanExponent_suffix _).trans ?_)
    rcases hc with hc | ⟨rfl, hd⟩
    · have hw : (spanOf Char.isDigit (c :: rest)).2 = rest.dropWhile Char.isDigit := by
        simp [spanOf, hc]
      rw [hw]
      exact (scanFraction_suffix _).trans (List.dropWhile_suffix _)
    · have hw : (spanOf Char.isDigit ('.' :: rest)).2 = '.' :: rest := by
        simp [spanOf]
      rw [hw]
      exact scanFraction_suffix_of_digit hd
  simp only [scanDecimal] at h
  cases hl : literal ⟨(spanOf Char.isDigit (c :: rest)).1,
      (scanFraction (spanOf Char.isDigit (c :: rest)).2).1.getD [],
      (scanExponent (scanFraction (spanOf Char.isDigit (c :: rest)).2).2).1⟩
      ((scanFraction (spanOf Char.isDigit (c :: rest)).2).1.isSome ||
        (scanExponent (scanFraction (spanOf Char.isDigit (c :: rest)).2).2).1.isSome)
      (String.ofList (spanOf Char.isAlpha (scanExponent
        (scanFraction (spanOf Char.isDigit (c :: rest)).2).2).2).1) with
  | error e => rw [hl] at h; simp [Except.map] at h
  | ok l =>
      rw [hl] at h
      simp only [Except.map, Except.ok.injEq, Prod.mk.injEq] at h
      exact h.2 ▸ hs

theorem scanNumber_suffix {c : Char} {rest after : List Char} {k : Kind}
    (hc : c.isDigit = true ∨ (c = '.' ∧ rest.head?.any Char.isDigit = true))
    (h : scanNumber (c :: rest) = .ok (k, after)) : after <:+ rest := by
  unfold scanNumber at h
  split at h
  · rename_i heq
    cases heq
    exact (scanHex_suffix h).trans (List.suffix_cons _ _)
  · rename_i heq
    cases heq
    exact (scanHex_suffix h).trans (List.suffix_cons _ _)
  · exact scanDecimal_suffix hc h

theorem scanSymbol_suffix {c : Char} {rest after : List Char} {mark : Symbol}
    (h : scanSymbol (c :: rest) = some (mark, after)) : after <:+ rest := by
  unfold scanSymbol at h
  split at h
  all_goals
    rename_i heq
    simp only [List.cons.injEq] at heq
    grind [List.suffix_cons, List.IsSuffix.trans]

/-- A token takes at least its first character, and what is left is the end of the text. -/
theorem scan_suffix {c : Char} {rest after : List Char} {k : Kind}
    (h : scan c rest = .ok (k, after)) : after <:+ rest := by
  unfold scan at h
  split at h
  · split at h
    · rename_i hs
      simp only [Except.ok.injEq, Prod.mk.injEq] at h
      exact h.2 ▸ scanString_suffix hs
    · simp at h
  · split at h
    · rename_i hn
      exact scanNumber_suffix (by simpa using hn) h
    · split at h
      · simp only [Except.ok.injEq, Prod.mk.injEq] at h
        exact h.2 ▸ spanOf_suffix _ _
      · split at h
        · simp only [Except.ok.injEq, Prod.mk.injEq] at h
          exact h.2 ▸ spanOf_suffix _ _
        · split at h
          · rename_i hs
            simp only [Except.ok.injEq, Prod.mk.injEq] at h
            exact h.2 ▸ scanSymbol_suffix hs
          · simp at h

def tokensFrom (pos : Position) (text : List Char) : Except ReadError (List Token) :=
  match _skipped : skipTrivia text with
  | .error comment =>
      let start := pos.upTo text comment
      .error ⟨.openComment, start.line, start.column⟩
  | .ok [] =>
      let start := pos.upTo text []
      .ok [⟨.eof, ⟨start.offset, start.offset, start.line, start.column⟩⟩]
  | .ok (c :: rest) =>
      let start := pos.upTo text (c :: rest)
      match _scanned : scan c rest with
      | .error fault => .error ⟨fault, start.line, start.column⟩
      | .ok (kind, after) =>
          let stop := start.upTo (c :: rest) after
          (tokensFrom stop after).map
            (⟨kind, ⟨start.offset, stop.offset, start.line, start.column⟩⟩ :: ·)
termination_by text.length
decreasing_by
  have h₁ := (skipTrivia_suffix _skipped).length_le
  have h₂ := (scan_suffix _scanned).length_le
  simp only [List.length_cons] at h₁
  omega

def tokenize (source : String) : Except ReadError (List Token) :=
  tokensFrom .origin source.toList

end Token

end ShaderCompiler
