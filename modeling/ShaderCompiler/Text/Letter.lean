import ShaderCompiler.Text.LetterTable

namespace ShaderCompiler.Text

namespace Letter

def inRanges (ranges : List (Nat × Nat)) (n : Nat) : Bool :=
  ranges.any fun (first, last) => first ≤ n && n ≤ last

def isWideAlphabetic (n : Nat) : Bool :=
  if n < 0x1000 then inRanges lowAlphabetic n
  else if n < 0x10000 then inRanges midAlphabetic n
  else inRanges highAlphabetic n

end Letter

open Letter

/-- The character has the Unicode property Alphabetic. -/
def isAlphabetic (c : Char) : Bool :=
  if c.toNat < 0x80 then c.isAlpha else isWideAlphabetic c.toNat

def isAlphanumeric (c : Char) : Bool :=
  if c.toNat < 0x80 then c.isAlphanum
  else isWideAlphabetic c.toNat || inRanges numeric c.toNat

def wideBlanks : List (Nat × Nat) :=
  [(0x85, 0x85), (0xA0, 0xA0), (0x1680, 0x1680), (0x2000, 0x200A), (0x2028, 0x2029),
   (0x202F, 0x202F), (0x205F, 0x205F), (0x3000, 0x3000)]

def isBlank (c : Char) : Bool :=
  let n := c.toNat
  if n < 0x80 then n == 0x20 || (0x09 ≤ n && n ≤ 0x0D) else inRanges wideBlanks n

theorem isAlphanumeric_of_isAlphabetic {c : Char} (h : isAlphabetic c = true) :
    isAlphanumeric c = true := by
  unfold isAlphabetic at h
  unfold isAlphanumeric
  split at h <;> simp_all [Char.isAlphanum]

end ShaderCompiler.Text
