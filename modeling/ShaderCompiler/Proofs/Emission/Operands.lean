import ShaderCompiler.Proofs.Emission.Spacing
import ShaderCompiler.Proofs.Token.Cutting

namespace ShaderCompiler

open Token Written

def Symbol.isStep : Symbol → Bool
  | plusPlus | minusMinus => true
  | _ => false

theorem Symbol.not_extendedBy_blank (s : Symbol) : s.extendedBy ' ' = false := by cases s <;> rfl

theorem Symbol.ne_of_isStep {s mark : Symbol} (hmark : mark.isStep = true)
    (hs : s.isStep = false) : s ≠ mark := by
  rintro rfl
  rw [hmark] at hs
  cases hs

def Begins (p : Char → Prop) (text : String) : Prop := ∃ c cs, text.toList = c :: cs ∧ p c

/-- The text can be an operand, and the mark is `n` times among its tokens. Signs apart, it begins
with nothing that an operator could be joined with. -/
structure Operand (mark : Symbol) (text : String) (n : Nat) : Prop where
  begins : Begins (fun c => c ≠ '=' ∧ c ≠ '>') text
  cuts : Cuts mark followsOperand text n

inductive Operands (mark : Symbol) : List String → Nat → Prop
  | nil : Operands mark [] 0
  | cons {text : String} {texts : List String} {m n : Nat} (h : Operand mark text m)
      (hs : Operands mark texts n) : Operands mark (text :: texts) (m + n)

section

variable {p q : Char → Prop} {a : String}

theorem Begins.append (h : Begins p a) (b : String) : Begins p (a ++ b) := by
  obtain ⟨c, cs, ha, hc⟩ := h
  exact ⟨c, cs ++ b.toList, by rw [String.toList_append, ha, List.cons_append], hc⟩

theorem Begins.mono (h : Begins p a) (hpq : ∀ c, p c → q c) : Begins q a := by
  obtain ⟨c, cs, ha, hc⟩ := h
  exact ⟨c, cs, ha, hpq c hc⟩

theorem begins_of_isWord (h : isWord a = true) : Begins IsLoose a := by
  cases ha : a.toList with
  | nil => simp [isWord, ha] at h
  | cons c cs => exact ⟨c, cs, ha, isLoose_of_word (isWord_cons h ha).1⟩

theorem begins_point {whole fraction : List Char} (hw : ∀ c ∈ whole, c.isDigit = true) :
    Begins IsLoose (String.ofList (whole ++ '.' :: fraction)) := by
  cases whole with
  | nil => exact ⟨'.', fraction, by simp, by decide, by decide, by decide, by decide⟩
  | cons c cs =>
      have hc := isLoose_of_isDigit (hw c List.mem_cons_self)
      exact ⟨c, cs ++ '.' :: fraction, by simp, hc⟩

end

section

variable {mark s : Symbol} {a b : String} {m n : Nat}

theorem cuts_symbol (s : Symbol) :
    Cuts mark (·.head?.all (!s.extendedBy ·)) s.text (if s = mark then 1 else 0) := by
  have h : Cuts mark (·.head?.all (!s.extendedBy ·)) s.text (if s == mark then 1 else 0) :=
    @cuts_plain mark (.symbol s) rfl
  simpa only [beq_iff_eq] using h

theorem cuts_other (hs : s ≠ mark) :
    Cuts mark (·.head?.all (!s.extendedBy ·)) s.text 0 := by
  have h := @cuts_symbol mark s
  rwa [if_neg hs] at h

theorem cuts_closed (hs : ∀ c, s.extendedBy c = false) :
    Cuts mark (fun _ => true) s.text (if s = mark then 1 else 0) := by
  refine (cuts_symbol s).mono fun rest _ => ?_
  cases rest with
  | nil => rfl
  | cons c cs => simp [hs]

theorem cuts_closed_other (hs : ∀ c, s.extendedBy c = false) (hm : s ≠ mark) :
    Cuts mark (fun _ => true) s.text 0 := by
  have h := @cuts_closed mark s hs
  rwa [if_neg hm] at h

theorem operand_word (h : isWord a = true) : Operand mark a 0 where
  begins := (begins_of_isWord h).mono fun _ hc => hc.2.2
  cuts := (cuts_word h).mono fun _ hrest => (followsOperand_cases hrest).1

theorem operand_nat (value : UInt64) : Operand mark (toString value.toNat) 0 where
  begins := by
    obtain ⟨d, ds, hd⟩ :=
      List.exists_cons_of_ne_nil (Nat.toDigits_ne_nil (b := 10) (n := value.toNat))
    have hdigit : d.isDigit = true := isDigit_of_mem_digits (hd ▸ List.mem_cons_self)
    exact ⟨d, ds, by simpa using hd, (isLoose_of_isDigit hdigit).2.2⟩
  cuts := (@cuts_plain mark (.int value) rfl).mono fun _ hrest => (followsOperand_cases hrest).2

theorem operand_unsigned (value : UInt64) : Operand mark (toString value.toNat ++ "u") 0 where
  begins := (@operand_nat mark value).begins.append _
  cuts := (@cuts_plain mark (.uint value) rfl).mono fun _ hrest =>
    not_isAlpha_of_endsInteger (followsOperand_cases hrest).2

theorem operand_signed {sign : String} (hsign : sign = "" ∨ sign = "-") (ha : Begins IsLoose a)
    (hcuts : Cuts mark followsOperand a 0) (hmark : mark.isStep = true) :
    Operand mark (sign ++ a) 0 := by
  obtain rfl | rfl := hsign
  · rw [String.empty_append]
    exact ⟨ha.mono fun _ hc => hc.2.2, hcuts⟩
  · refine ⟨⟨'-', a.toList, by simp, by decide, by decide⟩, ?_⟩
    have hminus : Cuts mark (·.head?.all (!Symbol.minus.extendedBy ·)) "-" 0 :=
      cuts_other (s := .minus) (Symbol.ne_of_isStep hmark rfl)
    refine hminus.behind hcuts fun rest _ => ?_
    obtain ⟨c, cs, hc, -, hsub, heq, hgt⟩ := ha
    simp [hc, Symbol.extendedBy, hsub, heq, hgt]

theorem operand_point {sign word suffix : String} {whole fraction : List Char}
    (hsign : sign = "" ∨ sign = "-") (hword : word = "" ∨ isWord word = true ∧ whole = [])
    (hw : ∀ c ∈ whole, c.isDigit = true) (hf : ∀ c ∈ fraction, c.isDigit = true)
    (hne : fraction ≠ []) (hs : suffix = "f" ∨ suffix = "lf") (hmark : mark.isStep = true) :
    Operand mark (sign ++ (word ++ (String.ofList (whole ++ '.' :: fraction) ++ suffix))) 0 := by
  have hnumber : Cuts mark followsOperand (String.ofList (whole ++ '.' :: fraction) ++ suffix) 0 :=
    (cuts_fraction hw hf hne hs).mono fun _ hrest =>
      not_isAlpha_of_endsInteger (followsOperand_cases hrest).2
  have hbegins := (@begins_point whole fraction hw).append suffix
  obtain rfl | ⟨hword, rfl⟩ := hword
  · rw [String.empty_append]
    exact operand_signed hsign hbegins hnumber hmark
  · refine operand_signed hsign ((begins_of_isWord hword).append _) ?_ hmark
    exact (cuts_word hword).behind hnumber fun rest _ => by simp; decide

/-- A number without its sign: a word for what has no digits, or digits. -/
inductive IsMagnitude : String → Prop
  | word {text : String} (h : isWord text = true) : IsMagnitude text
  | whole {digits : List Char} (hd : ∀ c ∈ digits, c.isDigit = true) :
      IsMagnitude (String.ofList digits)
  | point {digits fraction : List Char} (hd : ∀ c ∈ digits, c.isDigit = true)
      (hf : ∀ c ∈ fraction, c.isDigit = true) (hne : fraction ≠ []) :
      IsMagnitude (String.ofList (digits ++ '.' :: fraction))

theorem isMagnitude_positional (digits : Nat) (scale : Int) :
    IsMagnitude (Decimal.positional digits scale) := by
  have hzeros (k : Nat) : ∀ c ∈ List.replicate k '0', c.isDigit = true := by
    intro c hc
    rw [List.eq_of_mem_replicate hc]
    decide
  have hshown : ∀ c ∈ Nat.toDigits 10 digits, c.isDigit = true := fun _ => isDigit_of_mem_digits
  unfold Decimal.positional
  split
  · exact .whole (List.forall_mem_append.mpr ⟨hshown, hzeros _⟩)
  · have hpadded (k : Nat) :
        ∀ c ∈ List.replicate k '0' ++ Nat.toDigits 10 digits, c.isDigit = true :=
      List.forall_mem_append.mpr ⟨hzeros k, hshown⟩
    dsimp only
    split
    · exact .whole fun c hc => hpadded _ c (List.mem_of_mem_take hc)
    · next hne =>
        refine .point (fun c hc => hpadded _ c (List.mem_of_mem_take hc)) (fun c hc => ?_) ?_
        · have hc := (List.dropWhile_sublist _).subset (List.mem_reverse.mp hc)
          exact hpadded _ c (List.mem_of_mem_drop (List.mem_reverse.mp hc))
        · simpa using hne

theorem exists_sign_ofFloat (x : Float) : ∃ sign body, Decimal.ofFloat x = sign ++ body ∧
    (sign = "" ∨ sign = "-") ∧ IsMagnitude body := by
  unfold Decimal.ofFloat
  split
  · exact ⟨"", "NaN", rfl, Or.inl rfl, .word (by decide)⟩
  · have hsign : (if x.toBits.toNat < Nat.pow 2 63 then "" else "-") = "" ∨
        (if x.toBits.toNat < Nat.pow 2 63 then "" else "-") = "-" := by
      split
      · exact Or.inl rfl
      · exact Or.inr rfl
    dsimp only
    split
    · exact ⟨_, "0", rfl, hsign, @IsMagnitude.whole ['0'] (by simp)⟩
    · split
      · exact ⟨_, "inf", rfl, hsign, .word (by decide)⟩
      · exact ⟨_, _, rfl, hsign, isMagnitude_positional _ _⟩

theorem not_mem_point_of_isWord (h : isWord a = true) : '.' ∉ a.toList := by
  intro hmem
  cases ha : a.toList with
  | nil => simp [ha] at hmem
  | cons c cs =>
      obtain ⟨hc, hcs⟩ := isWord_cons h ha
      rw [ha] at hmem
      rcases List.mem_cons.mp hmem with rfl | hmem
      · exact absurd hc (by decide)
      · exact absurd (List.all_eq_true.mp hcs _ hmem) (by decide)

theorem IsMagnitude.exists_point (h : IsMagnitude a) : ∃ word whole fraction,
    (word = "" ∨ isWord word = true ∧ whole = []) ∧ (∀ c ∈ whole, c.isDigit = true) ∧
    (∀ c ∈ fraction, c.isDigit = true) ∧ fraction ≠ [] ∧
    (if a.toList.contains '.' then a else a ++ ".0") =
      word ++ String.ofList (whole ++ '.' :: fraction) := by
  have hzero : ∀ c ∈ ['0'], c.isDigit = true := by simp
  cases h with
  | word hword =>
      refine ⟨a, [], ['0'], Or.inr ⟨hword, rfl⟩, nofun, hzero, List.cons_ne_nil _ _, ?_⟩
      rw [if_neg (by simpa using not_mem_point_of_isWord hword)]
      rfl
  | @whole digits hd =>
      have hdot : '.' ∉ digits := fun hmem => absurd (hd _ hmem) (by decide)
      refine ⟨"", digits, ['0'], Or.inl rfl, hd, hzero, List.cons_ne_nil _ _, ?_⟩
      rw [if_neg (by simpa using hdot), String.empty_append, String.ofList_append]
  | @point digits fraction hd hf hne =>
      refine ⟨"", digits, fraction, Or.inl rfl, hd, hf, hne, ?_⟩
      rw [if_pos (by simp), String.empty_append]

theorem operand_floatText {f : Frame} {x : Float} {suffix text : String}
    (h : floatText f x suffix = .ok text) (hs : suffix = "f" ∨ suffix = "lf")
    (hmark : mark.isStep = true) : Operand mark text 0 := by
  unfold floatText at h
  split at h
  · obtain ⟨sign, body, hbody, hsign, hmagnitude⟩ := exists_sign_ofFloat x
    obtain ⟨word, whole, fraction, hword, hw, hf, hne, hpoint⟩ := hmagnitude.exists_point
    have hdot : (sign ++ body).toList.contains '.' = body.toList.contains '.' := by
      obtain rfl | rfl := hsign <;> simp
    have htext : text = sign ++ (word ++ (String.ofList (whole ++ '.' :: fraction) ++ suffix)) := by
      rw [← Except.ok.inj h, ← @String.append_assoc word, ← hpoint, hbody, hdot]
      split <;> simp only [String.append_assoc]
    rw [htext]
    exact operand_point hsign hword hw hf hne hs hmark
  · cases h

theorem Operand.infixed (ha : Operand mark a m) (hb : Operand mark b n) (hs : s ≠ mark) :
    Operand mark (a ++ " " ++ s.text ++ " " ++ b) (m + n) where
  begins := (((ha.begins.append _).append _).append _).append _
  cuts := by
    have hblank := ha.cuts.append cuts_blank fun _ _ => rfl
    have hsymbol := hblank.append (cuts_other hs) fun _ _ => rfl
    have hleft := hsymbol.append cuts_blank fun rest _ => by simp [s.not_extendedBy_blank]
    exact hleft.append hb.cuts fun _ _ => rfl

theorem cuts_enclosed {l r : Symbol} (hl : ∀ c, l.extendedBy c = false) (hlm : l ≠ mark)
    (hr : ∀ c, r.extendedBy c = false) (hrm : r ≠ mark)
    (hends : ∀ rest, followsOperand (r.text.toList ++ rest) = true)
    (ha : Cuts mark followsOperand a n) :
    Cuts mark (fun _ => true) (l.text ++ a ++ r.text) n := by
  have hopen := (cuts_closed_other hl hlm).behind ha fun _ _ => rfl
  exact hopen.append (cuts_closed_other hr hrm) fun rest _ => hends rest

theorem cuts_parenthesized (hmark : mark.isStep = true) (ha : Cuts mark followsOperand a n) :
    Cuts mark (fun _ => true) ("(" ++ a ++ ")") n :=
  cuts_enclosed (l := .leftParen) (r := .rightParen) (fun _ => rfl)
    (Symbol.ne_of_isStep hmark rfl) (fun _ => rfl) (Symbol.ne_of_isStep hmark rfl) (fun _ => rfl) ha

theorem cuts_bracketed (hmark : mark.isStep = true) (ha : Cuts mark followsOperand a n) :
    Cuts mark (fun _ => true) ("[" ++ a ++ "]") n :=
  cuts_enclosed (l := .leftBracket) (r := .rightBracket) (fun _ => rfl)
    (Symbol.ne_of_isStep hmark rfl) (fun _ => rfl) (Symbol.ne_of_isStep hmark rfl) (fun _ => rfl) ha

theorem operand_parenthesized (hmark : mark.isStep = true) (ha : Operand mark a n) :
    Operand mark ("(" ++ a ++ ")") n where
  begins := ⟨'(', a.toList ++ [')'], by simp, by decide, by decide⟩
  cuts := (cuts_parenthesized hmark ha.cuts).mono fun _ _ => rfl

theorem operand_fit (hmark : mark.isStep = true) {r : Rendered} (h : Operand mark r.text n)
    (level : Nat) : Operand mark (r.fit level) n := by
  unfold Rendered.fit
  split
  · exact operand_parenthesized hmark h
  · exact h

theorem operand_prefixed {op : UnaryOp} (ha : Operand mark a n)
    (h : Begins (fun c => op.mark.extendedBy c = false) a) :
    Operand mark (op.symbol ++ a) ((if op.mark = mark then 1 else 0) + n) := by
  rw [← op.mark_text]
  constructor
  · refine Begins.append ?_ a
    cases op <;> exact ⟨_, _, rfl, by decide, by decide⟩
  · refine (cuts_symbol op.mark).append ha.cuts fun rest _ => ?_
    obtain ⟨c, cs, hc, hext⟩ := h
    simp [hc, hext]

theorem operand_leading (op : UnaryOp) (hmark : mark.isStep = true) (ha : Operand mark a n) :
    Operand mark (op.leading a) ((if op.mark = mark then 1 else 0) + n) := by
  have hshielded : Operand mark (op.symbol ++ "(" ++ a ++ ")")
      ((if op.mark = mark then 1 else 0) + n) := by
    have h : Operand mark (op.symbol ++ ("(" ++ a ++ ")")) _ :=
      operand_prefixed (operand_parenthesized hmark ha)
        ⟨'(', a.toList ++ [')'], by simp, by cases op <;> rfl⟩
    rwa [← String.append_assoc, ← String.append_assoc] at h
  unfold UnaryOp.leading
  split
  · exact hshielded
  · exact hshielded
  · next hminus hplus =>
      obtain ⟨c, cs, hc, heq, hgt⟩ := ha.begins
      have hc₁ : c ≠ '-' := fun h => hminus cs (h ▸ hc)
      have hc₂ : c ≠ '+' := fun h => hplus cs (h ▸ hc)
      refine operand_prefixed ha ⟨c, cs, hc, ?_⟩
      cases op <;> simp [UnaryOp.mark, Symbol.extendedBy, heq, hgt, hc₁, hc₂]

theorem operand_trailing {op : UnaryOp} (hop : op.isTrailing = true) (ha : Operand mark a n) :
    Operand mark (a ++ op.symbol) (n + if op.mark = mark then 1 else 0) where
  begins := ha.begins.append _
  cuts := by
    rw [← op.mark_text]
    have hclosed : Cuts mark followsOperand op.mark.text (if op.mark = mark then 1 else 0) := by
      refine (cuts_closed fun c => ?_).mono fun _ _ => rfl
      cases op <;> first | rfl | cases hop
    refine ha.cuts.append hclosed fun rest _ => ?_
    cases op <;> first | rfl | cases hop

theorem operands_listed (hmark : mark.isStep = true) {texts : List String}
    (h : Operands mark texts n) :
    Cuts mark followsOperand (String.intercalate ", " texts) n := by
  induction h with
  | nil => exact cuts_empty
  | @cons text texts m n h hs ih =>
      cases texts with
      | nil =>
          cases hs
          exact h.cuts
      | cons t ts =>
          have hcomma : Cuts mark (fun _ => true) "," 0 :=
            cuts_closed_other (s := .comma) (fun _ => rfl) (Symbol.ne_of_isStep hmark rfl)
          have hseparator : Cuts mark (fun _ => true) ", " 0 :=
            hcomma.append cuts_blank fun _ _ => rfl
          rw [String.intercalate_cons_of_ne_nil (List.cons_ne_nil t ts)]
          exact (h.cuts.append hseparator fun _ _ => rfl).append ih fun _ _ => rfl

theorem operand_called (hmark : mark.isStep = true) (ha : Operand mark a m)
    {texts : List String} (h : Operands mark texts n) :
    Operand mark (a ++ "(" ++ String.intercalate ", " texts ++ ")") (m + n) where
  begins := ((ha.begins.append _).append _).append _
  cuts := by
    have hparens := cuts_parenthesized hmark (operands_listed hmark h)
    have hcall := ha.cuts.append hparens fun rest _ => by simp [followsOperand]
    rw [← String.append_assoc, ← String.append_assoc] at hcall
    exact hcall.mono fun _ _ => rfl

theorem operand_applied (hmark : mark.isStep = true) (ha : isWord a = true)
    {texts : List String} (h : Operands mark texts n) :
    Operand mark (applied a texts).text n := by
  have hcall := operand_called hmark (operand_word ha) h
  rwa [Nat.zero_add] at hcall

theorem operand_index (hmark : mark.isStep = true) (ha : Operand mark a m)
    (hb : Operand mark b n) : Operand mark (a ++ "[" ++ b ++ "]") (m + n) where
  begins := ((ha.begins.append _).append _).append _
  cuts := by
    have hindex := ha.cuts.append (cuts_bracketed hmark hb.cuts) fun rest _ => by
      simp [followsOperand]
    rw [← String.append_assoc, ← String.append_assoc] at hindex
    exact hindex.mono fun _ _ => rfl

theorem operand_array (hmark : mark.isStep = true) (ha : isWord a = true) {texts : List String}
    (hlength : texts.length < UInt64.size) (h : Operands mark texts n) :
    Operand mark (arrayText a texts) n := by
  have hsize : Operand mark (toString texts.length) 0 := by
    have h := @operand_nat mark (UInt64.ofNat texts.length)
    rwa [UInt64.toNat_ofNat_of_lt' hlength] at h
  have harray := operand_called hmark (operand_index hmark (operand_word ha) hsize) h
  rw [Nat.zero_add] at harray
  simpa [arrayText, String.append_assoc] using harray

theorem operand_member (hmark : mark.isStep = true) (ha : Operand mark a n)
    (hb : isWord b = true) : Operand mark (a ++ "." ++ b) n where
  begins := (ha.begins.append _).append _
  cuts := by
    have hdot : Cuts mark (·.head?.all (!Symbol.dot.extendedBy ·)) "." 0 :=
      cuts_other (s := .dot) (Symbol.ne_of_isStep hmark rfl)
    cases hcs : b.toList with
    | nil => simp [isWord, hcs] at hb
    | cons c cs =>
        have hc := (isWord_cons hb hcs).1
        have hname : Cuts mark followsOperand ("." ++ b) 0 := by
          refine hdot.behind (operand_word hb).cuts fun rest _ => ?_
          have hd : c.isDigit = false := isDigit_eq_false_of_wordStart hc
          simp [hcs, Symbol.extendedBy, hd]
        rw [String.append_assoc]
        refine ha.cuts.append hname fun rest _ => ?_
        simpa [hcs, followsOperand] using hc

theorem operand_memberText {f : Frame} {type : Option ValueType} {text : String}
    (hmark : mark.isStep = true) (ha : Operand mark a n) (hb : isWord b = true)
    (h : memberText f type a b = .ok text) : Operand mark text n := by
  unfold memberText at h
  split at h
  · split at h
    · cases h
      have hlength : isWord "length" = true := by decide
      have hcall := operand_called hmark (operand_member hmark ha hlength) .nil
      rw [String.append_assoc, String.append_assoc] at hcall
      simpa [String.append_assoc] using hcall
    · cases h
  · cases h
    exact operand_member hmark ha hb

theorem operand_zero (hmark : mark.isStep = true) (kind : ScalarKind) :
    Operand mark kind.zero 0 := by
  have hfloat {suffix : String} (hs : suffix = "f" ∨ suffix = "lf") :
      Operand mark ("" ++ ("" ++ (String.ofList (['0'] ++ '.' :: ['0']) ++ suffix))) 0 :=
    operand_point (Or.inl rfl) (Or.inl rfl) (by simp) (by simp) (by simp) hs hmark
  cases kind with
  | bool => exact operand_word (by decide)
  | int => exact operand_nat 0
  | uint => exact operand_unsigned 0
  | float => exact hfloat (Or.inl rfl)
  | double => exact hfloat (Or.inr rfl)

theorem operand_literalText {f : Frame} {hint : Option ScalarKind} {l : Literal} {text : String}
    (hmark : mark.isStep = true) (h : literalText f hint l = .ok text) : Operand mark text 0 := by
  cases l with
  | bool value =>
      cases h
      exact operand_word (by cases value <;> decide)
  | int value =>
      rw [literalText.eq_def] at h
      dsimp only at h
      split at h
      · exact operand_floatText h (Or.inl rfl) hmark
      · exact operand_floatText h (Or.inr rfl) hmark
      · cases h
        exact operand_unsigned value
      · cases h
        exact operand_nat value
  | uint value =>
      cases h
      exact operand_unsigned value
  | float value =>
      refine operand_floatText h ?_ hmark
      split
      · exact Or.inr rfl
      · exact Or.inl rfl
  | double value => exact operand_floatText h (Or.inr rfl) hmark
  | str content => cases h

theorem operand_conditional {c : String} {k : Nat} (hmark : mark.isStep = true)
    (hc : Operand mark c k) (ha : Operand mark a m) (hb : Operand mark b n) :
    Operand mark (c ++ " ? " ++ a ++ " : " ++ b) (k + m + n) := by
  have h := (hc.infixed ha (s := .question) (Symbol.ne_of_isStep hmark rfl)).infixed hb
    (s := .colon) (Symbol.ne_of_isStep hmark rfl)
  rw [show " ? " = " " ++ Symbol.question.text ++ " " from rfl,
    show " : " = " " ++ Symbol.colon.text ++ " " from rfl]
  simpa only [String.append_assoc] using h

/-- A floating remainder is assigned through a call that repeats the target. -/
theorem operand_remainder (hmark : mark.isStep = true) (ha : Operand mark a m)
    (hb : Operand mark b n) :
    Operand mark (a ++ " = mod(" ++ a ++ ", " ++ b ++ ")") (m + (m + n)) := by
  have hmod : Operand mark (applied "mod" [a, b]).text (m + n) :=
    operand_applied hmark (by decide) (.cons ha (.cons hb .nil))
  have h := ha.infixed hmod (s := .equals) (Symbol.ne_of_isStep hmark rfl)
  have htext : (applied "mod" [a, b]).text = "mod(" ++ a ++ ", " ++ b ++ ")" := by
    simp [applied, Rendered.primary, ← String.append_assoc]
  rw [htext] at h
  rw [show " = mod(" = " " ++ Symbol.equals.text ++ " " ++ "mod(" from rfl]
  simpa only [String.append_assoc] using h

end

end ShaderCompiler
