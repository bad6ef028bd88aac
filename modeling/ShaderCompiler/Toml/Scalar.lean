import ShaderCompiler.Decimal.Reading
import ShaderCompiler.Toml.Value

namespace ShaderCompiler.Toml

def ungrouped? (isDigit : Char → Bool) : List Char → Option (List Char)
  | [] => none
  | [d] => if isDigit d then some [d] else none
  | d :: '_' :: rest => if isDigit d then (ungrouped? isDigit rest).map (d :: ·) else none
  | d :: rest => if isDigit d then (ungrouped? isDigit rest).map (d :: ·) else none

def number (base : Nat) (digits : List Char) : Nat :=
  digits.foldl (fun n d => n * base + (hexValue? d).getD 0) 0

def digitOf (base : Nat) (c : Char) : Bool := (hexValue? c).any (· < base)

def decimal? (cs : List Char) : Option (List Char) :=
  (ungrouped? Char.isDigit cs).filter fun digits => digits.length == 1 || digits.head? != some '0'

/-- Integers have at most 128 bits. -/
def bounded (n : Int) : Value :=
  if -(Nat.pow 2 127 : Nat) ≤ n ∧ n < (Nat.pow 2 128 : Nat) then .integer n else .oversized

def integer? : List Char → Option Value
  | '0' :: 'x' :: rest => (ungrouped? (digitOf 16) rest).map fun ds => bounded (number 16 ds)
  | '0' :: 'o' :: rest => (ungrouped? (digitOf 8) rest).map fun ds => bounded (number 8 ds)
  | '0' :: 'b' :: rest => (ungrouped? (digitOf 2) rest).map fun ds => bounded (number 2 ds)
  | cs =>
      let (negative, body) := Decimal.signed cs
      (decimal? body).map fun ds =>
        bounded (if negative then -(number 10 ds : Int) else number 10 ds)

def splitAt? (test : Char → Bool) (cs : List Char) : Option (List Char × List Char) :=
  match cs.dropWhile (!test ·) with
  | _ :: rest => some (cs.takeWhile (!test ·), rest)
  | [] => none

def finite? (cs : List Char) : Option Value := do
  let (negative, body) := Decimal.signed cs
  let (mantissa, exponent) := match splitAt? (fun c => c == 'e' || c == 'E') body with
    | some (mantissa, exponent) => (mantissa, some exponent)
    | none => (body, none)
  let (whole, fraction) := match splitAt? (· == '.') mantissa with
    | some (whole, fraction) => (whole, some fraction)
    | none => (mantissa, none)
  if fraction.isNone && exponent.isNone then failure
  let whole ← decimal? whole
  let fraction ← match fraction with
    | some cs => ungrouped? Char.isDigit cs
    | none => some []
  let exponent ← match exponent with
    | some cs =>
        let (down, digits) := Decimal.signed cs
        (ungrouped? Char.isDigit digits).map fun ds => some (if down then some '-' else none, ds)
    | none => some none
  let value := (Decimal.Numeral.mk whole fraction exponent).toFloat
  return if value.isInf then .oversized else .float (if negative then -value else value)

def special? (cs : List Char) : Option Value :=
  match String.ofList (Decimal.signed cs).2 with
  | "inf" | "nan" => (Decimal.float? (String.ofList cs)).map .float
  | _ => none

def digits (count : Nat) : Scan Nat := do
  let cs ← get
  let ds := cs.take count
  if ds.length == count && ds.all Char.isDigit then
    set (cs.drop count)
    return number 10 ds
  else failure

def check (b : Bool) : Scan Unit := if b then return else failure

def daysIn (year month : Nat) : Nat :=
  if month == 2 then
    if year % 4 == 0 && (year % 100 != 0 || year % 400 == 0) then 29 else 28
  else if month == 4 || month == 6 || month == 9 || month == 11 then 30
  else 31

def date : Scan Unit := do
  let year ← digits 4
  Scan.word "-"
  let month ← digits 2
  Scan.word "-"
  let day ← digits 2
  check (1 ≤ month && month ≤ 12 && 1 ≤ day && day ≤ daysIn year month)

def time : Scan Unit := do
  let hour ← digits 2
  Scan.word ":"
  let minute ← digits 2
  check (hour ≤ 23 && minute ≤ 59)
  if ← Scan.tryWord ":" then
    let second ← digits 2
    check (second ≤ 60)
    if ← Scan.tryWord "." then
      let fraction ← Scan.while_ Char.isDigit
      check (!fraction.isEmpty)

def offset : Scan Unit := do
  if ← Scan.tryWord "Z" then return
  else if ← Scan.tryWord "z" then return
  else
    let _ ← Scan.one fun c => c == '+' || c == '-'
    let hour ← digits 2
    Scan.word ":"
    let minute ← digits 2
    check (hour ≤ 23 && minute ≤ 59)

def moment : Scan Unit := do
  if (← get).getD 2 ' ' == ':' then time
  else
    date
    if !(← get).isEmpty then
      let _ ← Scan.one fun c => c == 'T' || c == 't' || c == ' '
      time
      if !(← get).isEmpty then offset

def moment? (cs : List Char) : Option Value :=
  match moment.run cs with
  | some ((), []) => some (.moment (String.ofList cs))
  | _ => none

def boolean? (cs : List Char) : Option Value :=
  match String.ofList cs with
  | "true" => some (.boolean true)
  | "false" => some (.boolean false)
  | _ => none

def scalar? (cs : List Char) : Option Value :=
  boolean? cs <|> integer? cs <|> special? cs <|> finite? cs <|> moment? cs

end ShaderCompiler.Toml
