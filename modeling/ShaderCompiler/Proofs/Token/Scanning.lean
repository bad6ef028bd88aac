import Mathlib.Tactic.Common
import ShaderCompiler.Token.Lexer

namespace ShaderCompiler

/-- The symbol and the character after it would be read together. -/
def Symbol.extendedBy (s : Symbol) (c : Char) : Bool :=
  match s with
  | plus => c == '+' || c == '='
  | minus => c == '-' || c == '=' || c == '>'
  | star | percent | caret | bang | shl | shr => c == '='
  | slash => c == '=' || c == '/' || c == '*'
  | equals => c == '=' || c == '>'
  | amp => c == '&' || c == '='
  | pipe => c == '|' || c == '='
  | lt => c == '<' || c == '='
  | gt => c == '>' || c == '='
  | dot => c.isDigit
  | _ => false

namespace Token

def isWord (text : String) : Bool :=
  match text.toList with
  | [] => false
  | c :: cs => (Text.isAlphabetic c || c == '_') && cs.all isWordChar

/-- A word that is spelt like no keyword or modifier, so that it is read as an identifier. -/
def isPlainName (name : String) : Bool := isWord name && ofWord name == .identifier name

/-- A token whose text is read back as the token: no float, no string, not the end. -/
def Kind.isPlain : Kind → Bool
  | keyword _ | modifier _ | int _ | uint _ | symbol _ => true
  | identifier name => isPlainName name
  | float _ | double _ | string _ | eof => false

/-- The text cannot continue an integer. A point continues one unless a name follows it. -/
def endsInteger : List Char → Bool
  | '.' :: c :: _ => Text.isAlphabetic c || c == '_'
  | ['.'] => false
  | c :: _ => !c.isDigit && !c.isAlpha
  | [] => true

def Kind.endsBefore (k : Kind) (rest : List Char) : Bool :=
  match k with
  | keyword _ | modifier _ | identifier _ => rest.head?.all (!isWordChar ·)
  | int _ => endsInteger rest
  | uint _ => rest.head?.all (!·.isAlpha)
  | symbol s => rest.head?.all (!s.extendedBy ·)
  | float _ | double _ | string _ | eof => false

theorem isDigit_iff {c : Char} : c.isDigit = true ↔ 48 ≤ c.toNat ∧ c.toNat ≤ 57 := by
  simp [Char.isDigit, UInt32.le_iff_toNat_le, ← Char.toNat_val]

theorem isAlpha_iff {c : Char} : c.isAlpha = true ↔
    (65 ≤ c.toNat ∧ c.toNat ≤ 90) ∨ (97 ≤ c.toNat ∧ c.toNat ≤ 122) := by
  change (decide (65 ≤ c.val ∧ c.val ≤ 90) || (decide (97 ≤ c.val) && decide (c.val ≤ 122))) =
    true ↔ _
  simp [UInt32.le_iff_toNat_le, ← Char.toNat_val]

theorem isDigit_eq_false_of_isAlphabetic {c : Char} (h : Text.isAlphabetic c = true) :
    c.isDigit = false := by
  rw [Bool.eq_false_iff]
  intro hd
  have hn := isDigit_iff.mp hd
  have ha : c.isAlpha = true := by simpa [Text.isAlphabetic, show c.toNat < 128 by omega] using h
  have := isAlpha_iff.mp ha
  omega

theorem isDigit_eq_false_of_wordStart {c : Char} (h : (Text.isAlphabetic c || c == '_') = true) :
    c.isDigit = false := by
  rcases Bool.or_eq_true _ _ ▸ h with h | h
  · exact isDigit_eq_false_of_isAlphabetic h
  · obtain rfl : c = '_' := by simpa using h
    decide

theorem spanOf_append {p : Char → Bool} {run rest : List Char} (hrun : ∀ c ∈ run, p c = true)
    (hrest : rest.head?.all (!p ·) = true) : spanOf p (run ++ rest) = (run, rest) := by
  have ht : rest.takeWhile p = [] ∧ rest.dropWhile p = rest := by
    cases rest with
    | nil => exact ⟨rfl, rfl⟩
    | cons c cs =>
        have hc : p c = false := by simpa using hrest
        simp [hc]
  simp [spanOf, List.takeWhile_append_of_pos hrun, List.dropWhile_append_of_pos hrun, ht.1, ht.2]

theorem scan_word {c : Char} {cs rest : List Char} (hc : (Text.isAlphabetic c || c == '_') = true)
    (hcs : cs.all isWordChar = true) (hr : rest.head?.all (!isWordChar ·) = true) :
    scan c (cs ++ rest) = .ok (ofWord (String.ofList (c :: cs)), rest) := by
  have hs : spanOf isWordChar (cs ++ rest) = (cs, rest) := spanOf_append (by simpa using hcs) hr
  have hq : c ≠ '"' := by rintro rfl; revert hc; decide
  have hp : c ≠ '.' := by rintro rfl; revert hc; decide
  have ha : c ≠ '@' := by rintro rfl; revert hc; decide
  have hd : c.isDigit = false := isDigit_eq_false_of_wordStart hc
  have hw : Text.isAlphabetic c = true ∨ c = '_' := by simpa using hc
  simp [scan, hq, hp, ha, hd, hw, hs]

theorem scanFraction_of_endsInteger {rest : List Char} (h : endsInteger rest = true) :
    scanFraction rest = (none, rest) := by
  unfold endsInteger at h
  split at h
  · next c cs =>
      have hd : c.isDigit = false := isDigit_eq_false_of_wordStart h
      simp [scanFraction, h, hd]
  · simp at h
  · next c cs hcons hnil =>
      have hc : c ≠ '.' := by
        rintro rfl
        cases cs with
        | nil => exact hnil rfl rfl
        | cons d ds => exact hcons d ds rfl rfl
      simp [scanFraction, hc]
  · rfl

theorem scanExponent_of_not_isAlpha {rest : List Char} (h : rest.head?.all (!·.isAlpha) = true) :
    scanExponent rest = (none, rest) := by
  unfold scanExponent
  split
  · next mark c cs =>
      have hm : mark.isAlpha = false := by simpa using h
      have he : mark ≠ 'e' := by rintro rfl; revert hm; decide
      have hE : mark ≠ 'E' := by rintro rfl; revert hm; decide
      simp [he, hE]
  · rfl

theorem not_isAlpha_of_endsInteger {rest : List Char} (h : endsInteger rest = true) :
    rest.head?.all (!·.isAlpha) = true := by
  unfold endsInteger at h
  split at h <;> simp_all

theorem not_isDigit_of_endsInteger {rest : List Char} (h : endsInteger rest = true) :
    rest.head?.all (!·.isDigit) = true := by
  unfold endsInteger at h
  split at h <;> simp_all

theorem wordLiteral_toDigits (n : UInt64) (wrap : UInt64 → Kind) :
    wordLiteral ⟨Nat.toDigits 10 n.toNat, [], none⟩ wrap = .ok (wrap n) := by
  have hn : n.toNat < UInt64.size := n.toNat_lt
  simp [wordLiteral, Decimal.Numeral.digits, Decimal.natOfDigits, Nat.ofDigitChars_ten_toDigits,
    word?, hn]

theorem isDigit_of_mem_digits {n : Nat} {c : Char} (h : c ∈ Nat.toDigits 10 n) :
    c.isDigit = true :=
  Nat.isDigit_of_mem_toDigits (by decide) (by decide) h

theorem scanDecimal_int (n : UInt64) {rest : List Char} (h : endsInteger rest = true) :
    scanDecimal (Nat.toDigits 10 n.toNat ++ rest) = .ok (.int n, rest) := by
  have hw := spanOf_append (fun _ => isDigit_of_mem_digits (n := n.toNat))
    (not_isDigit_of_endsInteger h)
  have hs : spanOf Char.isAlpha ([] ++ rest) = ([], rest) :=
    spanOf_append (by simp) (not_isAlpha_of_endsInteger h)
  simp only [List.nil_append] at hs
  simp only [scanDecimal, hw, scanFraction_of_endsInteger h,
    scanExponent_of_not_isAlpha (not_isAlpha_of_endsInteger h), hs, Option.getD_none]
  simp [literal, wordLiteral_toDigits, Except.map]

theorem scanDecimal_uint (n : UInt64) {rest : List Char}
    (h : rest.head?.all (!·.isAlpha) = true) :
    scanDecimal (Nat.toDigits 10 n.toNat ++ 'u' :: rest) = .ok (.uint n, rest) := by
  have hw : spanOf Char.isDigit (Nat.toDigits 10 n.toNat ++ 'u' :: rest) =
      (Nat.toDigits 10 n.toNat, 'u' :: rest) :=
    spanOf_append (fun _ => isDigit_of_mem_digits) (by simp)
  have hs : spanOf Char.isAlpha (['u'] ++ rest) = (['u'], rest) := spanOf_append (by simp) h
  have hf : scanFraction ('u' :: rest) = (none, 'u' :: rest) := rfl
  have he : scanExponent ('u' :: rest) = (none, 'u' :: rest) := by
    cases rest <;> simp [scanExponent]
  simp only [List.cons_append, List.nil_append] at hs
  simp only [scanDecimal, hw, hf, he, hs, Option.getD_none]
  simp [literal, wordLiteral_toDigits, Except.map]

theorem scanNumber_digits {c : Char} {cs rest : List Char} (hcs : ∀ d ∈ cs, d.isDigit = true)
    (hx : rest.head?.all (fun d => d != 'x' && d != 'X') = true) :
    scanNumber (c :: (cs ++ rest)) = scanDecimal (c :: (cs ++ rest)) := by
  have hn (d : Char) (hd : d = 'x' ∨ d = 'X') (tail : List Char) : cs ++ rest ≠ d :: tail := by
    intro he
    cases cs with
    | nil =>
        rw [List.nil_append] at he
        rw [he] at hx
        rcases hd with rfl | rfl <;> simp at hx
    | cons e es =>
        have hd' : d.isDigit = true := by
          have := hcs e (by simp)
          simp only [List.cons_append, List.cons.injEq] at he
          rwa [he.1] at this
        rcases hd with rfl | rfl <;> simp at hd'
  unfold scanNumber
  split
  · next tail heq => exact absurd (List.cons.inj heq).2 (hn 'x' (.inl rfl) tail)
  · next tail heq => exact absurd (List.cons.inj heq).2 (hn 'X' (.inr rfl) tail)
  · rfl

theorem scan_of_isDigit {c : Char} (h : c.isDigit = true) (rest : List Char) :
    scan c rest = scanNumber (c :: rest) := by
  have hq : c ≠ '"' := by rintro rfl; simp at h
  simp [scan, hq, h]

theorem scan_int {n : UInt64} {c : Char} {cs rest : List Char}
    (ht : Nat.toDigits 10 n.toNat = c :: cs) (h : endsInteger rest = true) :
    scan c (cs ++ rest) = .ok (.int n, rest) := by
  have hd : ∀ d ∈ c :: cs, d.isDigit = true := by
    rw [← ht]
    exact fun _ => isDigit_of_mem_digits
  have hx : rest.head?.all (fun d => d != 'x' && d != 'X') = true := by
    unfold endsInteger at h
    split at h <;> try simp_all
    next d ds _ _ => constructor <;> rintro rfl <;> simp at h
  rw [scan_of_isDigit (hd c (by simp)),
    scanNumber_digits (fun d hm => hd d (List.mem_cons_of_mem c hm)) hx]
  have := scanDecimal_int n h
  rwa [ht] at this

theorem scan_uint {n : UInt64} {c : Char} {cs rest : List Char}
    (ht : Nat.toDigits 10 n.toNat = c :: cs) (h : rest.head?.all (!·.isAlpha) = true) :
    scan c (cs ++ 'u' :: rest) = .ok (.uint n, rest) := by
  have hd : ∀ d ∈ c :: cs, d.isDigit = true := by
    rw [← ht]
    exact fun _ => isDigit_of_mem_digits
  rw [scan_of_isDigit (hd c (by simp)),
    scanNumber_digits (fun d hm => hd d (List.mem_cons_of_mem c hm)) (by simp)]
  have := scanDecimal_uint n h
  rwa [ht] at this

theorem scanSymbol_text (s : Symbol) {rest : List Char}
    (h : rest.head?.all (!s.extendedBy ·) = true) :
    scanSymbol (s.text.toList ++ rest) = some (s, rest) := by
  cases s
  case plus | minus | star | slash | percent | caret | bang | equals | amp | pipe | lt | gt | shl
      | shr =>
    cases rest with
    | nil => rfl
    | cons c cs =>
        simp only [List.head?_cons, Option.all_some, Symbol.extendedBy, Bool.not_eq_true',
          Bool.or_eq_false_iff, beq_eq_false_iff_ne] at h
        unfold scanSymbol
        simp [Symbol.text, h]
  all_goals rfl

theorem scan_symbol (s : Symbol) {c : Char} {cs rest : List Char} (ht : s.text.toList = c :: cs)
    (h : rest.head?.all (!s.extendedBy ·) = true) :
    scan c (cs ++ rest) = .ok (.symbol s, rest) := by
  have hs := scanSymbol_text s h
  rw [ht, List.cons_append] at hs
  have hc : c ≠ '"' ∧ c.isDigit = false ∧ c ≠ '@' ∧ Text.isAlphabetic c = false ∧ c ≠ '_' := by
    cases s <;> cases ht <;> decide
  have hd : c = '.' → (cs ++ rest).head?.any Char.isDigit = false := by
    intro hdot
    obtain rfl : s = .dot := by
      cases s <;> cases ht <;> first | rfl | exact absurd hdot (by decide)
    obtain ⟨-, rfl⟩ : '.' = c ∧ [] = cs := by simpa [Symbol.text] using ht
    cases rest with
    | nil => rfl
    | cons d ds => simpa [Symbol.extendedBy] using h
  unfold scan
  rw [if_neg hc.1, if_neg (by simpa [hc.2.1] using hd), if_neg hc.2.2.1, if_neg (by simp [hc]), hs]

theorem skipTrivia_cons {c : Char} {cs : List Char} (hb : Text.isBlank c = false)
    (hs : c = '/' → cs.head?.all (fun d => d != '/' && d != '*') = true) :
    skipTrivia (c :: cs) = .ok (c :: cs) := by
  rw [skipTrivia]
  · simp [hb]
  · rintro rest rfl rfl
    simp at hs
  · rintro rest rfl rfl
    simp at hs

/-- No range of one list meets one of the other. -/
def rangesApart (ranges others : List (Nat × Nat)) : Bool :=
  others.all fun o => ranges.all fun r => Nat.blt r.2 o.1 || Nat.blt o.2 r.1

theorem inRanges_eq_false {ranges others : List (Nat × Nat)} (h : rangesApart ranges others = true)
    {n : Nat} (hn : Text.Letter.inRanges others n = true) :
    Text.Letter.inRanges ranges n = false := by
  obtain ⟨o, ho, hn⟩ := List.any_eq_true.mp hn
  simp only [Bool.and_eq_true, decide_eq_true_eq] at hn
  apply List.any_eq_false.mpr
  intro r hr
  have hor := List.all_eq_true.mp (List.all_eq_true.mp h o ho) r hr
  simp only [Bool.or_eq_true, Nat.blt_eq] at hor
  simp only [Bool.and_eq_true, decide_eq_true_eq]
  omega

theorem isWideAlphabetic_eq_false {n : Nat} (h : Text.Letter.inRanges Text.wideBlanks n = true) :
    Text.Letter.isWideAlphabetic n = false := by
  have hlow : rangesApart Text.Letter.lowAlphabetic Text.wideBlanks = true := by decide +kernel
  have hmid : rangesApart Text.Letter.midAlphabetic Text.wideBlanks = true := by decide +kernel
  have hhigh : rangesApart Text.Letter.highAlphabetic Text.wideBlanks = true := by decide +kernel
  unfold Text.Letter.isWideAlphabetic
  split
  · exact inRanges_eq_false hlow h
  · split
    · exact inRanges_eq_false hmid h
    · exact inRanges_eq_false hhigh h

theorem isBlank_eq_false_of_isAlphabetic {c : Char} (h : Text.isAlphabetic c = true) :
    Text.isBlank c = false := by
  by_cases hn : c.toNat < 0x80
  · have ha := isAlpha_iff.mp (by simpa [Text.isAlphabetic, hn] using h)
    simp only [Text.isBlank, hn, if_true, Bool.or_eq_false_iff, Bool.and_eq_false_iff,
      decide_eq_false_iff_not, beq_eq_false_iff_ne]
    omega
  · have hw : Text.Letter.isWideAlphabetic c.toNat = true := by
      simpa [Text.isAlphabetic, hn] using h
    simp only [Text.isBlank, hn, if_false]
    rw [Bool.eq_false_iff]
    intro hb
    rw [isWideAlphabetic_eq_false hb] at hw
    cases hw

theorem keyword_isWord (w : Keyword) : isWord w.text = true ∧ ofWord w.text = .keyword w := by
  cases w <;> decide

theorem modifier_isWord (w : Modifier) :
    isWord w.text = true ∧ ofWord w.text = .modifier w := by
  cases w <;> decide

theorem isWord_cons {text : String} {c : Char} {cs : List Char} (h : isWord text = true)
    (ht : text.toList = c :: cs) :
    (Text.isAlphabetic c || c == '_') = true ∧ cs.all isWordChar = true := by
  simpa only [isWord, ht, Bool.and_eq_true] using h

theorem scan_isWord {text : String} {c : Char} {cs rest : List Char} (h : isWord text = true)
    (ht : text.toList = c :: cs) (hr : rest.head?.all (!isWordChar ·) = true) :
    scan c (cs ++ rest) = .ok (ofWord text, rest) := by
  obtain ⟨hc, hcs⟩ := isWord_cons h ht
  rw [scan_word hc hcs hr, ← ht, String.ofList_toList]

theorem isBlank_eq_false_of_isWord {text : String} {c : Char} {cs : List Char}
    (h : isWord text = true) (ht : text.toList = c :: cs) : Text.isBlank c = false := by
  rcases Bool.or_eq_true _ _ ▸ (isWord_cons h ht).1 with hc | hc
  · exact isBlank_eq_false_of_isAlphabetic hc
  · obtain rfl : c = '_' := by simpa using hc
    decide

theorem isBlank_eq_false_of_isDigit {c : Char} (h : c.isDigit = true) : Text.isBlank c = false := by
  have hd := isDigit_iff.mp h
  simp only [Text.isBlank, show c.toNat < 0x80 by omega, if_true, Bool.or_eq_false_iff,
    Bool.and_eq_false_iff, decide_eq_false_iff_not, beq_eq_false_iff_ne]
  omega

/-- The text of a plain token is read back as the token. -/
theorem scan_text {k : Kind} {c : Char} {cs rest : List Char} (hk : k.isPlain = true)
    (ht : k.text.toList = c :: cs) (hr : k.endsBefore rest = true) :
    scan c (cs ++ rest) = .ok (k, rest) := by
  cases k with
  | keyword w => rw [scan_isWord (keyword_isWord w).1 ht hr, (keyword_isWord w).2]
  | modifier w => rw [scan_isWord (modifier_isWord w).1 ht hr, (modifier_isWord w).2]
  | identifier name =>
      obtain ⟨hw, ho⟩ : isWord name = true ∧ ofWord name = .identifier name := by
        simpa [Kind.isPlain, isPlainName] using hk
      rw [scan_isWord hw ht hr, ho]
  | int n => exact scan_int (by simpa [Kind.text] using ht) hr
  | uint n =>
      obtain ⟨d, ds, hd⟩ := List.exists_cons_of_ne_nil (Nat.toDigits_ne_nil (b := 10) (n := n.toNat))
      obtain ⟨rfl, rfl⟩ : d = c ∧ ds ++ ['u'] = cs := by simpa [Kind.text, hd] using ht
      rw [List.append_assoc]
      exact scan_uint hd hr
  | symbol s => exact scan_symbol s ht hr
  | float | double | string | eof => simp [Kind.isPlain] at hk

theorem skipTrivia_text {k : Kind} {c : Char} {cs rest : List Char} (hk : k.isPlain = true)
    (ht : k.text.toList = c :: cs) (hr : k.endsBefore rest = true) :
    skipTrivia (c :: (cs ++ rest)) = .ok (c :: (cs ++ rest)) := by
  have hword {text : String} (hw : isWord text = true) (ht : text.toList = c :: cs) :
      skipTrivia (c :: (cs ++ rest)) = .ok (c :: (cs ++ rest)) := by
    refine skipTrivia_cons (isBlank_eq_false_of_isWord hw ht) ?_
    rintro rfl
    exact absurd (isWord_cons hw ht).1 (by decide)
  have hdigits (n : Nat) (more : List Char) (ht : Nat.toDigits 10 n ++ more = c :: cs) :
      skipTrivia (c :: (cs ++ rest)) = .ok (c :: (cs ++ rest)) := by
    obtain ⟨d, ds, hd⟩ := List.exists_cons_of_ne_nil (Nat.toDigits_ne_nil (b := 10) (n := n))
    have hc : c.isDigit = true := by
      obtain rfl : d = c := by rw [hd] at ht; exact (List.cons.inj ht).1
      exact isDigit_of_mem_digits (n := n) (by simp [hd])
    refine skipTrivia_cons (isBlank_eq_false_of_isDigit hc) ?_
    rintro rfl
    simp at hc
  cases k with
  | keyword w => exact hword (keyword_isWord w).1 ht
  | modifier w => exact hword (modifier_isWord w).1 ht
  | identifier name =>
      exact hword (by simpa using (Bool.and_eq_true _ _ ▸ hk : _ ∧ _).1) ht
  | int n => exact hdigits n.toNat [] (by simpa [Kind.text] using ht)
  | uint n => exact hdigits n.toNat ['u'] (by simpa [Kind.text] using ht)
  | symbol s =>
      refine skipTrivia_cons (by cases s <;> cases ht <;> decide) ?_
      rintro rfl
      -- Of the symbols that begin with a slash, one ends there.
      obtain rfl | rfl : s = .slash ∨ s = .slashEq := by
        cases s <;> first | exact Or.inl rfl | exact Or.inr rfl | cases ht
      · obtain rfl : [] = cs := by simpa [Kind.text, Symbol.text] using ht
        cases rest with
        | nil => rfl
        | cons d ds => simp_all [Kind.endsBefore, Symbol.extendedBy]
      · obtain rfl : ['='] = cs := by simpa [Kind.text, Symbol.text] using ht
        rfl
  | float | double | string | eof => simp [Kind.isPlain] at hk

theorem text_ne_nil {k : Kind} (hk : k.isPlain = true) : k.text.toList ≠ [] := by
  cases k with
  | keyword w => cases w <;> decide
  | modifier w => cases w <;> decide
  | identifier name =>
      intro h
      simp [Kind.isPlain, isPlainName, isWord, show name.toList = [] from h] at hk
  | int n => simp [Kind.text, Nat.toDigits_ne_nil]
  | uint n => simp [Kind.text]
  | symbol s => cases s <;> decide
  | float | double | string | eof => simp [Kind.isPlain] at hk

theorem tokensFrom_of_scan {c : Char} {cs rest : List Char} {k : Kind}
    (hs : skipTrivia (c :: cs) = .ok (c :: cs)) (hc : scan c cs = .ok (k, rest))
    (pos : Position) : ∃ span stop, tokensFrom pos (c :: cs) =
      (tokensFrom stop rest).map (⟨k, span⟩ :: ·) := by
  rw [tokensFrom]
  split
  · next heq => rw [hs] at heq; cases heq
  · next heq => rw [hs] at heq; cases heq
  · next d ds heq =>
      rw [hs] at heq
      cases heq
      split
      · next heq => rw [hc] at heq; cases heq
      · next heq =>
          rw [hc] at heq
          cases heq
          exact ⟨_, _, rfl⟩

theorem tokensFrom_text {k : Kind} {rest : List Char} (hk : k.isPlain = true)
    (hr : k.endsBefore rest = true) (pos : Position) :
    ∃ span stop, tokensFrom pos (k.text.toList ++ rest) =
      (tokensFrom stop rest).map (⟨k, span⟩ :: ·) := by
  obtain ⟨c, cs, ht⟩ := List.exists_cons_of_ne_nil (text_ne_nil hk)
  rw [ht, List.cons_append]
  exact tokensFrom_of_scan (skipTrivia_text hk ht hr) (scan_text hk ht hr) pos

theorem upTo_blank (pos : Position) {text rest : List Char} (h : rest <:+ text) :
    pos.upTo (' ' :: text) rest = (pos.next ' ').upTo text rest := by
  have hl := h.length_le
  have hn : (' ' :: text).length - rest.length = (text.length - rest.length) + 1 := by
    simp only [List.length_cons]
    omega
  rw [Position.upTo, hn, List.take_succ_cons]
  rfl

theorem tokensFrom_blank {pos : Position} {rest : List Char} {tokens : List Token}
    (h : tokensFrom (pos.next ' ') rest = .ok tokens) :
    tokensFrom pos (' ' :: rest) = .ok tokens := by
  have hs : skipTrivia (' ' :: rest) = skipTrivia rest := by
    rw [skipTrivia]
    · simp [show Text.isBlank ' ' = true from rfl]
    · rintro _ heq; simp at heq
    · rintro _ heq; simp at heq
  rw [tokensFrom] at h ⊢
  split at h
  · cases h
  · next heq =>
      split
      · next heq' => rw [hs, heq] at heq'; cases heq'
      · rw [upTo_blank pos (skipTrivia_suffix heq)]
        exact h
      · next heq' => rw [hs, heq] at heq'; cases heq'
  · next heq =>
      split
      · next heq' => rw [hs, heq] at heq'; cases heq'
      · next heq' => rw [hs, heq] at heq'; cases heq'
      · next heq' =>
          rw [hs, heq] at heq'
          cases heq'
          rw [upTo_blank pos (skipTrivia_suffix heq)]
          exact h

theorem tokensFrom_nil (pos : Position) : ∃ span, tokensFrom pos [] = .ok [⟨.eof, span⟩] := by
  rw [tokensFrom]
  split
  · next heq => simp [skipTrivia] at heq
  · exact ⟨_, rfl⟩
  · next heq => simp [skipTrivia] at heq

end Token

end ShaderCompiler
