import ShaderCompiler.Proofs.Token.Scanning

namespace ShaderCompiler.Token

def Kind.isMark (mark : Symbol) : Kind → Bool
  | symbol s => s == mark
  | _ => false

def countMark (mark : Symbol) (tokens : List Token) : Nat :=
  tokens.countP (·.kind.isMark mark)

/-- The text can be read, and the mark is `n` times among its tokens. -/
def Reads (mark : Symbol) (text : List Char) (n : Nat) : Prop :=
  ∀ pos, ∃ tokens, tokensFrom pos text = .ok tokens ∧ countMark mark tokens = n

/-- Before a text that ends it, the part has tokens of its own, the mark `n` times among them. -/
def Cuts (mark : Symbol) (ends : List Char → Bool) (part : String) (n : Nat) : Prop :=
  ∀ rest k, ends rest = true → Reads mark rest k → Reads mark (part.toList ++ rest) (n + k)

/-- The text may stand right behind an operand. -/
def followsOperand : List Char → Bool
  | [] => true
  | '+' :: '+' :: _ | '-' :: '-' :: _ => true
  | '.' :: c :: _ => Text.isAlphabetic c || c == '_'
  | c :: _ => [' ', '(', ')', '[', ']', ','].contains c

section

variable {mark : Symbol} {ends ends' : List Char → Bool} {a b : String} {m n : Nat}

theorem reads_nil : Reads mark [] 0 := by
  intro pos
  obtain ⟨span, hs⟩ := tokensFrom_nil pos
  exact ⟨_, hs, rfl⟩

theorem Cuts.append (ha : Cuts mark ends a m) (hb : Cuts mark ends' b n)
    (h : ∀ rest, ends' rest = true → ends (b.toList ++ rest) = true) :
    Cuts mark ends' (a ++ b) (m + n) := by
  intro rest k hrest hk
  rw [String.toList_append, List.append_assoc, Nat.add_assoc]
  exact ha _ _ (h rest hrest) (hb rest k hrest hk)

theorem Cuts.behind (ha : Cuts mark ends a 0)
    (hb : Cuts mark ends' b n) (h : ∀ rest, ends' rest = true → ends (b.toList ++ rest) = true) :
    Cuts mark ends' (a ++ b) n := by
  have hab := ha.append hb h
  rwa [Nat.zero_add] at hab

theorem Cuts.mono (ha : Cuts mark ends a m) (h : ∀ rest, ends' rest = true → ends rest = true) :
    Cuts mark ends' a m :=
  fun rest k hrest => ha rest k (h rest hrest)

theorem cuts_empty : Cuts mark ends "" 0 := by
  intro rest k _ hk
  rw [Nat.zero_add]
  exact hk

theorem cuts_blank : Cuts mark (fun _ => true) " " 0 := by
  intro rest k _ hk pos
  obtain ⟨tokens, ht, hcount⟩ := hk (pos.next ' ')
  rw [Nat.zero_add]
  exact ⟨tokens, tokensFrom_blank ht, hcount⟩

theorem cuts_of_scan {k : Kind} {c : Char} {cs : List Char} (ht : a.toList = c :: cs)
    (hs : ∀ rest, ends rest = true → skipTrivia (c :: (cs ++ rest)) = .ok (c :: (cs ++ rest)))
    (hc : ∀ rest, ends rest = true → scan c (cs ++ rest) = .ok (k, rest)) :
    Cuts mark ends a (if k.isMark mark then 1 else 0) := by
  intro rest j hrest hj pos
  obtain ⟨span, stop, he⟩ := tokensFrom_of_scan (hs rest hrest) (hc rest hrest) pos
  obtain ⟨tokens, htokens, hcount⟩ := hj stop
  refine ⟨⟨k, span⟩ :: tokens, ?_, ?_⟩
  · rw [ht, List.cons_append, he, htokens]
    rfl
  · rw [countMark, List.countP_cons, ← countMark, hcount, Nat.add_comm]

theorem cuts_plain {k : Kind} (hk : k.isPlain = true) :
    Cuts mark k.endsBefore k.text (if k.isMark mark then 1 else 0) := by
  obtain ⟨c, cs, ht⟩ := List.exists_cons_of_ne_nil (text_ne_nil hk)
  exact cuts_of_scan ht (fun _ => skipTrivia_text hk ht) (fun _ => scan_text hk ht)

theorem isMark_ofWord (mark : Symbol) (word : String) : (ofWord word).isMark mark = false := by
  unfold ofWord
  split
  · rfl
  · split <;> rfl

theorem cuts_word (h : isWord a = true) : Cuts mark (·.head?.all (!isWordChar ·)) a 0 := by
  cases ht : a.toList with
  | nil => simp [isWord, ht] at h
  | cons c cs =>
      have hcuts : Cuts mark (·.head?.all (!isWordChar ·)) a
          (if (ofWord a).isMark mark then 1 else 0) := by
        refine cuts_of_scan ht (fun rest _ => ?_) fun _ => scan_isWord h ht
        refine skipTrivia_cons (isBlank_eq_false_of_isWord h ht) ?_
        rintro rfl
        exact absurd (isWord_cons h ht).1 (by decide)
      rwa [isMark_ofWord] at hcuts

theorem followsOperand_cases {rest : List Char} (h : followsOperand rest = true) :
    rest.head?.all (!isWordChar ·) = true ∧ endsInteger rest = true := by
  unfold followsOperand at h
  split at h
  · exact ⟨rfl, rfl⟩
  · exact ⟨rfl, rfl⟩
  · exact ⟨rfl, rfl⟩
  · exact ⟨rfl, h⟩
  · next c cs _ _ _ =>
      have hc : c = ' ' ∨ c = '(' ∨ c = ')' ∨ c = '[' ∨ c = ']' ∨ c = ',' := by simpa using h
      rcases hc with rfl | rfl | rfl | rfl | rfl | rfl <;> exact ⟨rfl, rfl⟩

theorem scanDecimal_fraction (mark : Symbol) {whole fraction suffix : List Char}
    (hw : ∀ c ∈ whole, c.isDigit = true) (hf : ∀ c ∈ fraction, c.isDigit = true)
    (hne : fraction ≠ []) (hs : suffix = ['f'] ∨ suffix = ['l', 'f']) :
    ∃ k, k.isMark mark = false ∧ ∀ rest, rest.head?.all (!·.isAlpha) = true →
      scanDecimal (whole ++ '.' :: (fraction ++ (suffix ++ rest))) = .ok (k, rest) := by
  have hwf : (Decimal.Numeral.mk whole fraction none).wellFormed = true := by
    simp [Decimal.Numeral.wellFormed, hne]
  have hliteral : ∃ k, k.isMark mark = false ∧
      literal ⟨whole, fraction, none⟩ true (String.ofList suffix) = .ok k := by
    rcases hs with rfl | rfl
    · exact ⟨.float (Decimal.Numeral.mk whole fraction none).toFloat, rfl, if_pos hwf⟩
    · exact ⟨.double (Decimal.Numeral.mk whole fraction none).toFloat, rfl, if_pos hwf⟩
  obtain ⟨k, hmark, hk⟩ := hliteral
  refine ⟨k, hmark, fun rest hr => ?_⟩
  have hwhole : spanOf Char.isDigit (whole ++ '.' :: (fraction ++ (suffix ++ rest))) =
      (whole, '.' :: (fraction ++ (suffix ++ rest))) := spanOf_append hw rfl
  have hdigits : spanOf Char.isDigit (fraction ++ (suffix ++ rest)) =
      (fraction, suffix ++ rest) := by
    apply spanOf_append hf
    rcases hs with rfl | rfl <;> rfl
  have hfraction : scanFraction ('.' :: (fraction ++ (suffix ++ rest))) =
      (some fraction, suffix ++ rest) := by
    obtain ⟨d, ds, rfl⟩ := List.exists_cons_of_ne_nil hne
    rw [List.cons_append] at hdigits ⊢
    simp only [scanFraction, hf d List.mem_cons_self, if_true, hdigits]
  have hexponent : scanExponent (suffix ++ rest) = (none, suffix ++ rest) := by
    rcases hs with rfl | rfl
    · cases rest <;> rfl
    · rfl
  have hsuffix : spanOf Char.isAlpha (suffix ++ rest) = (suffix, rest) := by
    apply spanOf_append _ hr
    rcases hs with rfl | rfl <;> simp
  simp only [scanDecimal, hwhole, hfraction, hexponent, hsuffix, Option.getD_some,
    Option.isSome_some, Bool.true_or, hk]
  rfl

theorem cuts_fraction {whole fraction : List Char} (hw : ∀ c ∈ whole, c.isDigit = true)
    (hf : ∀ c ∈ fraction, c.isDigit = true) (hne : fraction ≠ []) {suffix : String}
    (hs : suffix = "f" ∨ suffix = "lf") :
    Cuts mark (·.head?.all (!·.isAlpha))
      (String.ofList (whole ++ '.' :: fraction) ++ suffix) 0 := by
  have hs : suffix.toList = ['f'] ∨ suffix.toList = ['l', 'f'] := by
    rcases hs with rfl | rfl
    · exact Or.inl rfl
    · exact Or.inr rfl
  obtain ⟨k, hmark, hscan⟩ := scanDecimal_fraction mark hw hf hne hs
  have hcuts : Cuts mark (·.head?.all (!·.isAlpha))
      (String.ofList (whole ++ '.' :: fraction) ++ suffix) (if k.isMark mark then 1 else 0) := by
    cases whole with
    | nil =>
        have ht : (String.ofList ([] ++ '.' :: fraction) ++ suffix).toList =
            '.' :: (fraction ++ suffix.toList) := by simp
        refine cuts_of_scan ht (fun rest _ => skipTrivia_cons rfl nofun) fun rest hrest => ?_
        obtain ⟨d, ds, rfl⟩ := List.exists_cons_of_ne_nil hne
        have hd : d.isDigit = true := hf d List.mem_cons_self
        have hnumber := hscan rest hrest
        simp only [List.nil_append, List.append_assoc] at hnumber ⊢
        simpa [scan, hd, scanNumber] using hnumber
    | cons c cs =>
        obtain ⟨hc, hcs⟩ := List.forall_mem_cons.mp hw
        have ht : (String.ofList (c :: cs ++ '.' :: fraction) ++ suffix).toList =
            c :: (cs ++ '.' :: (fraction ++ suffix.toList)) := by simp
        refine cuts_of_scan ht (fun rest _ => ?_) fun rest hrest => ?_
        · refine skipTrivia_cons (isBlank_eq_false_of_isDigit hc) ?_
          rintro rfl
          cases hc
        · have hnumber := hscan rest hrest
          rw [scan_of_isDigit hc]
          simp only [List.append_assoc, List.cons_append] at hnumber ⊢
          rw [scanNumber_digits hcs rfl, hnumber]
  rwa [hmark] at hcuts

end

end ShaderCompiler.Token
