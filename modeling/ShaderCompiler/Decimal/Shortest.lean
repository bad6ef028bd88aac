namespace ShaderCompiler.Decimal

structure Binary where
  mantissa : Nat
  exponent : Int
  /-- The number below is only half as far away as the number above. -/
  narrowBelow : Bool
  deriving DecidableEq

namespace Binary

def ofMagnitude (bits : Nat) : Binary :=
  let fraction : Nat := bits % Nat.pow 2 52
  let biased : Nat := bits / Nat.pow 2 52
  if biased = 0 then ⟨fraction, -1074, false⟩
  else ⟨Nat.pow 2 52 + fraction, (biased : Int) - 1075, fraction == 0 && biased != 1⟩

def den (b : Binary) : Nat := Nat.pow 2 (2 - b.exponent).toNat

def unit (b : Binary) : Nat := Nat.pow 2 (b.exponent - 2).toNat

def value (b : Binary) : Nat := 4 * b.mantissa * b.unit

def low (b : Binary) : Nat := (4 * b.mantissa - (if b.narrowBelow then 1 else 2)) * b.unit

def high (b : Binary) : Nat := (4 * b.mantissa + 2) * b.unit

/-- Whether `digits * 10 ^ scale` rounds to the number: it lies between the two halfway points,
which themselves round to an even mantissa. -/
def readsBack (b : Binary) (digits : Nat) (scale : Int) : Bool :=
  let point := digits * Nat.pow 10 scale.toNat * b.den
  let widen := Nat.pow 10 (-scale).toNat
  if b.mantissa % 2 = 0 then b.low * widen ≤ point && point ≤ b.high * widen
  else b.low * widen < point && point < b.high * widen

def magnitude (b : Binary) : Int :=
  ((Nat.toDigits 10 (b.value * Nat.pow 10 400 / b.den)).length : Int) - 400

/-- The neighbour of the number on the grid of multiples of `10 ^ scale` that reads back, if there
is one: of two the nearer, and the upper one halfway between. -/
def nearest? (b : Binary) (scale : Int) : Option Nat :=
  let num := b.value * Nat.pow 10 (-scale).toNat
  let grid := b.den * Nat.pow 10 scale.toNat
  let below := num / grid
  match b.readsBack below scale, b.readsBack (below + 1) scale with
  | true, true => some (if 2 * (num % grid) < grid then below else below + 1)
  | true, false => some below
  | false, true => some (below + 1)
  | false, false => none

def search (b : Binary) (magnitude : Int) : (fuel width : Nat) → Nat × Int
  | 0, width => (b.value * Nat.pow 10 (width - magnitude).toNat / b.den, magnitude - width)
  | fuel + 1, width =>
      match b.nearest? (magnitude - width) with
      | some digits => (digits, magnitude - width)
      | none => search b magnitude fuel (width + 1)

/-- Digits and scale of the shortest decimal that reads back. Seventeen digits always do. -/
def shortest (b : Binary) : Nat × Int := b.search b.magnitude 17 1

end Binary

def positional (digits : Nat) (scale : Int) : String :=
  let shown := Nat.toDigits 10 digits
  if 0 ≤ scale then String.ofList (shown ++ List.replicate scale.toNat '0')
  else
    let places := (-scale).toNat
    let padded := List.replicate (places + 1 - shown.length) '0' ++ shown
    let whole := padded.take (padded.length - places)
    let fraction := ((padded.drop (padded.length - places)).reverse.dropWhile (· == '0')).reverse
    if fraction.isEmpty then String.ofList whole
    else String.ofList (whole ++ '.' :: fraction)

def ofFloat (x : Float) : String :=
  if x.isNaN then "NaN"
  else
    let bits := x.toBits.toNat
    let magnitude := bits % Nat.pow 2 63
    let sign := if bits < Nat.pow 2 63 then "" else "-"
    if magnitude = 0 then sign ++ "0"
    else if magnitude / Nat.pow 2 52 = 2047 then sign ++ "inf"
    else
      let (digits, scale) := (Binary.ofMagnitude magnitude).shortest
      sign ++ positional digits scale

end ShaderCompiler.Decimal
