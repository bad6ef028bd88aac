namespace ShaderCompiler.Decimal

def natOfDigits (digits : List Char) : Nat := Nat.ofDigitChars 10 digits 0

structure Numeral where
  whole : List Char
  fraction : List Char := []
  exponent : Option (Option Char × List Char) := none

namespace Numeral

def wellFormed (n : Numeral) : Bool :=
  !(n.whole.isEmpty && n.fraction.isEmpty) && n.exponent.all fun (_, digits) => !digits.isEmpty

def scale (n : Numeral) : Int :=
  let shift : Int := match n.exponent with
    | none => 0
    | some (some '-', digits) => -(natOfDigits digits : Int)
    | some (_, digits) => natOfDigits digits
  shift - n.fraction.length

def digits (n : Numeral) : Nat := natOfDigits (n.whole ++ n.fraction)

/-- Beyond `10 ^ 310` every number rounds to infinity, below `10 ^ -330` to zero. -/
def toFloat (n : Numeral) : Float :=
  let digits := n.digits
  let size : Int := (n.whole.length + n.fraction.length : Nat) + n.scale
  if digits = 0 || size < -330 then 0.0
  else if 310 < size - ((n.whole ++ n.fraction).takeWhile (· == '0')).length then
    Float.ofBits 0x7FF0000000000000
  else match n.scale with
    | .ofNat up => Float.ofScientific digits false up
    | .negSucc down => Float.ofScientific digits true (down + 1)

end Numeral

def signed : List Char → Bool × List Char
  | '-' :: rest => (true, rest)
  | '+' :: rest => (false, rest)
  | rest => (false, rest)

/-- Sign, digits with at most one point, and an exponent, filling the whole text. -/
def numeral? (cs : List Char) : Option Numeral :=
  let whole := cs.takeWhile Char.isDigit
  let (fraction, rest) := match cs.dropWhile Char.isDigit with
    | '.' :: rest => (rest.takeWhile Char.isDigit, rest.dropWhile Char.isDigit)
    | rest => ([], rest)
  let numeral? : Option Numeral := match rest with
    | [] => some ⟨whole, fraction, none⟩
    | mark :: rest =>
        if mark == 'e' || mark == 'E' then
          let (sign, digits) := match rest with
            | '-' :: digits => (some '-', digits)
            | '+' :: digits => (some '+', digits)
            | digits => (none, digits)
          if digits.all Char.isDigit then some ⟨whole, fraction, some (sign, digits)⟩ else none
        else none
  numeral?.filter Numeral.wellFormed

def float? (text : String) : Option Float :=
  let (negative, body) := signed text.toList
  let magnitude : Option Float :=
    match String.ofList (body.map Char.toLower) with
    | "inf" | "infinity" => some (Float.ofBits 0x7FF0000000000000)
    | "nan" => some (Float.ofBits 0x7FF8000000000000)
    | _ => (numeral? body).map Numeral.toFloat
  magnitude.map fun x => if negative then -x else x

end ShaderCompiler.Decimal
