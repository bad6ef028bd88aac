import ShaderCompiler.Proofs.Emission.Written

namespace ShaderCompiler

open Token

namespace Written

def beginsOperand : Kind → Bool
  | .identifier _ | .int _ | .uint _ | .keyword .kwTrue | .keyword .kwFalse => true
  | .symbol .leftParen | .symbol .bang | .symbol .tilde => true
  | k => isSigned k

/-- The piece ends an operand: what may stand right behind it is closed off from it. -/
def endsOperand : Piece → Bool
  | .token (.identifier _) | .token (.int _) | .token (.uint _) | .token (.keyword _) => true
  | .token (.symbol .rightParen) | .token (.symbol .rightBracket) => true
  | .token (.symbol .plusPlus) | .token (.symbol .minusMinus) => true
  | .access _ => true
  | _ => false

def follows : Piece → Bool
  | .gap => true
  | .token (.symbol .leftParen) | .token (.symbol .rightParen) => true
  | .token (.symbol .leftBracket) | .token (.symbol .rightBracket) => true
  | .token (.symbol .comma) | .token (.symbol .plusPlus) | .token (.symbol .minusMinus) => true
  | .access name => isPlainName name
  | _ => false

theorem apart_gap {p : Piece} (hp : p.isPlain = true) : Piece.Apart p .gap := by
  intro rest
  cases p with
  | gap => rfl
  | token k =>
      cases k with
      | symbol s => cases s <;> rfl
      | float | double | string | eof => simp [Piece.isPlain, Kind.isPlain] at hp
      | keyword | modifier | identifier | int | uint => rfl
  | access name => rfl

theorem toList_access (name : String) : (Piece.access name).text.toList = '.' :: name.toList := by
  simp [Piece.text]

theorem endsInteger_access {name : String} (h : isPlainName name = true) (rest : List Char) :
    endsInteger ('.' :: (name.toList ++ rest)) = true := by
  obtain ⟨c, cs, hc⟩ := List.exists_cons_of_ne_nil (text_ne_nil (k := .identifier name) h)
  have hc : name.toList = c :: cs := hc
  rw [hc]
  exact (isWord_cons (isWord_of_isPlainName h) hc).1

theorem apart_of_endsOperand {p q : Piece} (hp : endsOperand p = true) (hq : follows q = true) :
    Piece.Apart p q := by
  intro rest
  cases q with
  | gap =>
      unfold endsOperand at hp
      split at hp <;> first | rfl | exact absurd hp (by decide)
  | token k =>
      cases k with
      | symbol s =>
          cases s <;> first
            | exact absurd hq (by decide)
            | (unfold endsOperand at hp
               split at hp <;> first | rfl | exact absurd hp (by decide))
      | keyword | modifier | identifier | int | uint | float | double | string | eof => cases hq
  | access name =>
      rw [toList_access, List.cons_append]
      unfold endsOperand at hp
      -- Only behind an integer does it matter what follows the point.
      split at hp <;>
        first | rfl | exact absurd hp (by decide) | exact endsInteger_access hq rest

theorem isPlain_of_follows {p : Piece} (h : follows p = true) : p.isPlain = true := by
  unfold follows at h
  split at h <;> first | rfl | exact h | cases h

def IsLoose (c : Char) : Prop := c ≠ '+' ∧ c ≠ '-' ∧ c ≠ '=' ∧ c ≠ '>'

theorem isLoose_of_word {c : Char} (h : (Text.isAlphabetic c || c == '_') = true) : IsLoose c := by
  refine ⟨?_, ?_, ?_, ?_⟩ <;> rintro rfl <;> revert h <;> decide

theorem isLoose_of_isDigit {c : Char} (h : c.isDigit = true) : IsLoose c := by
  refine ⟨?_, ?_, ?_, ?_⟩ <;> rintro rfl <;> revert h <;> decide

theorem isLoose_of_mem_digits {c : Char} {n : Nat} (h : c ∈ Nat.toDigits 10 n) : IsLoose c :=
  isLoose_of_isDigit (isDigit_of_mem_digits h)

theorem isLoose_head {k : Kind} (hk : beginsOperand k = true) (hp : k.isPlain = true)
    (hs : isSigned k = false) {c : Char} {cs : List Char} (ht : k.text.toList = c :: cs) :
    IsLoose c := by
  cases k with
  | identifier name => exact isLoose_of_word (isWord_cons (isWord_of_isPlainName hp) ht).1
  | keyword w => exact isLoose_of_word (isWord_cons (keyword_isWord w).1 ht).1
  | int n =>
      have hc : Nat.toDigits 10 n.toNat = c :: cs := by simpa [Kind.text] using ht
      exact isLoose_of_mem_digits (hc ▸ List.mem_cons_self)
  | uint n =>
      have hc : Nat.toDigits 10 n.toNat ++ ['u'] = c :: cs := by simpa [Kind.text] using ht
      rcases List.append_eq_cons_iff.mp hc with ⟨hn, -⟩ | ⟨ds, hn, -⟩
      · exact absurd hn (by simp)
      · exact isLoose_of_mem_digits (hn ▸ List.mem_cons_self)
  | symbol s =>
      cases s <;> first
        | cases hs; done
        | cases hk; done
        | (obtain ⟨rfl, rfl⟩ : c = _ ∧ cs = [] := by simpa [Kind.text, Symbol.text, eq_comm] using ht
           exact ⟨by decide, by decide, by decide, by decide⟩)
  | modifier | float | double | string | eof => cases hk

theorem apart_of_leading (op : UnaryOp) {k : Kind} (hk : beginsOperand k = true)
    (hp : k.isPlain = true) (hs : isSigned k = false) :
    Piece.Apart (.token (.symbol op.mark)) (.token k) := by
  intro rest
  obtain ⟨c, cs, ht⟩ := List.exists_cons_of_ne_nil (text_ne_nil hp)
  have hc := isLoose_head hk hp hs ht
  have he : op.mark.extendedBy c = false := by
    cases op <;> simp_all [IsLoose, UnaryOp.mark, Symbol.extendedBy]
  simp [Piece.endsBefore, Piece.text, ht, Kind.endsBefore, he]

/-- Pieces that stay apart and end where an operand ends. -/
structure Ending (ps : List Piece) : Prop where
  plain : ∀ p ∈ ps, p.isPlain = true
  apart : ps.IsChain Piece.Apart
  last : ∀ p ∈ ps.getLast?, endsOperand p = true

/-- Pieces that stay apart and can be an operand. -/
structure Standing (ps : List Piece) : Prop extends Ending ps where
  first : ∃ k qs, ps = .token k :: qs ∧ beginsOperand k = true

theorem ending_single {p : Piece} (hp : p.isPlain = true) (he : endsOperand p = true) :
    Ending [p] := by
  refine ⟨?_, List.isChain_singleton p, ?_⟩
  · intro q hq
    rwa [List.mem_singleton.mp hq]
  · intro q hq
    obtain rfl : p = q := by simpa using hq
    exact he

theorem standing_single {k : Kind} (hk : beginsOperand k = true) (hp : k.isPlain = true)
    (he : endsOperand (.token k) = true) : Standing [.token k] where
  toEnding := ending_single hp he
  first := ⟨k, [], rfl, hk⟩

theorem Ending.cons {p q : Piece} {ps : List Piece} (h : Ending (q :: ps)) (hp : p.isPlain = true)
    (ha : Piece.Apart p q) : Ending (p :: q :: ps) where
  plain := by
    intro x hx
    rcases List.mem_cons.mp hx with rfl | hx
    · exact hp
    · exact h.plain x hx
  apart := List.isChain_cons_cons.mpr ⟨ha, h.apart⟩
  last := by
    intro x hx
    rw [List.getLast?_cons_cons] at hx
    exact h.last x hx

theorem Standing.append {ps qs : List Piece} {q : Piece} (h : Standing ps)
    (hq : follows q = true) (hqs : Ending (q :: qs)) : Standing (ps ++ q :: qs) where
  plain := by
    intro x hx
    rcases List.mem_append.mp hx with hx | hx
    · exact h.plain x hx
    · exact hqs.plain x hx
  apart := by
    refine List.isChain_append.mpr ⟨h.apart, hqs.apart, ?_⟩
    intro x hx y hy
    obtain rfl : q = y := by simpa using hy
    exact apart_of_endsOperand (h.last x hx) hq
  last := by
    intro x hx
    rw [List.getLast?_append_cons] at hx
    exact hqs.last x hx
  first := by
    obtain ⟨k, rs, rfl, hk⟩ := h.first
    exact ⟨k, rs ++ q :: qs, rfl, hk⟩

theorem Standing.push {ps : List Piece} {q : Piece} (h : Standing ps) (hq : follows q = true)
    (he : endsOperand q = true) : Standing (ps ++ [q]) :=
  h.append hq (ending_single (isPlain_of_follows hq) he)

theorem Ending.opened {ps : List Piece} (h : Ending ps) (hn : ps ≠ []) {s : Symbol}
    (hs : ∀ c, s.extendedBy c = false) : Ending (.token (.symbol s) :: ps) := by
  obtain ⟨q, qs, rfl⟩ := List.exists_cons_of_ne_nil hn
  apply h.cons rfl
  intro rest
  simp [Piece.endsBefore, Kind.endsBefore, hs]

theorem Ending.spaced {ps : List Piece} (h : Ending ps) (hn : ps ≠ []) : Ending (.gap :: ps) := by
  obtain ⟨q, qs, rfl⟩ := List.exists_cons_of_ne_nil hn
  exact h.cons rfl fun _ => rfl

theorem Standing.ne_nil {ps : List Piece} (h : Standing ps) : ps ≠ [] := by
  obtain ⟨k, qs, rfl, -⟩ := h.first
  exact List.cons_ne_nil _ _

theorem standing_parenthesized {ps : List Piece} (h : Standing ps) :
    Standing (parenthesized ps) where
  toEnding := (h.push rfl rfl).opened (by simp) fun _ => rfl
  first := ⟨_, _, rfl, rfl⟩

theorem standing_fitted {ps : List Piece} (h : Standing ps) (p level : Nat) :
    Standing (fitted ps p level) := by
  unfold fitted
  split
  · exact standing_parenthesized h
  · exact h

theorem standing_infixed {ps qs : List Piece} (hp : Standing ps) (mark : Symbol)
    (hq : Standing qs) : Standing (infixed ps mark qs) := by
  have hm : Ending (.token (.symbol mark) :: .gap :: qs) :=
    (hq.spaced hq.ne_nil).cons rfl (apart_gap rfl)
  exact hp.append rfl (hm.spaced (by simp))

theorem standing_leading (op : UnaryOp) {ps : List Piece}
    (h : Standing ps) : Standing (.token (.symbol op.mark) :: shielded ps) := by
  have hf : beginsOperand (.symbol op.mark) = true := by cases op <;> rfl
  obtain ⟨k, qs, rfl, hk⟩ := h.first
  refine { toEnding := ?_, first := ⟨_, _, rfl, hf⟩ }
  rw [shielded]
  by_cases hs : isSigned k = true
  · rw [if_pos hs]
    have hp := (standing_parenthesized h).toEnding
    apply hp.cons rfl
    exact apart_of_leading op (k := .symbol .leftParen) rfl rfl rfl
  · rw [if_neg hs]
    apply h.toEnding.cons rfl
    exact apart_of_leading op hk (h.plain _ List.mem_cons_self) (by simpa using hs)

theorem ending_listed {pss : List (List Piece)} (h : ∀ ps ∈ pss, Standing ps) :
    Ending (listed pss ++ [.token (.symbol .rightParen)]) := by
  induction pss with
  | nil => exact ending_single rfl rfl
  | cons ps rest ih =>
      have hps := h ps List.mem_cons_self
      have hrest := ih fun qs hqs => h qs (List.mem_cons_of_mem ps hqs)
      cases rest with
      | nil => exact (hps.push rfl rfl).toEnding
      | cons qs rest =>
          have hg := (hrest.spaced (by simp)).opened (by simp) (s := .comma) fun _ => rfl
          rw [listed, List.append_assoc]
          · exact (hps.append rfl hg).toEnding
          · exact List.cons_ne_nil _ _

end Written

open Written

theorem Written.standing {e : Expr} {ps : List Piece} {p : Nat} (h : Written e ps p) :
    Standing ps := by
  induction h with
  | bool value => exact standing_single (by cases value <;> rfl) rfl rfl
  | int n => exact standing_single rfl rfl rfl
  | uint n => exact standing_single rfl rfl rfl
  | @ident name hn => exact standing_single (k := .identifier name) rfl hn rfl
  | assign op _ _ iht ihv =>
      exact standing_infixed (standing_fitted iht _ _) _ (standing_fitted ihv _ _)
  | binary op _ _ ihl ihr =>
      exact standing_infixed (standing_fitted ihl _ _) _ (standing_fitted ihr _ _)
  | leading _ _ ih => exact standing_leading _ (standing_fitted ih _ _)
  | @trailing op hop _ _ _ _ ih =>
      have hf : follows (.token (.symbol op.mark)) = true ∧
          endsOperand (.token (.symbol op.mark)) = true := by
        cases op <;> first | exact ⟨rfl, rfl⟩ | cases hop
      exact (standing_fitted ih _ _).push hf.1 hf.2
  | conditional _ _ _ ihc iha ihb =>
      have hc := standing_fitted ihc
      exact standing_infixed (standing_infixed (hc _ _) _ (standing_fitted iha _ _)) _
        (standing_fitted ihb _ _)
  | index _ _ iht ihi =>
      have hi := (ihi.push rfl rfl : Standing (_ ++ [.token (.symbol .rightBracket)]))
      exact (standing_fitted iht _ _).append rfl (hi.opened hi.ne_nil fun _ => rfl)
  | member hn _ ih => exact (standing_fitted ih _ _).push hn rfl
  | @call name hn args _ ih =>
      have hl := ending_listed (List.forall_mem_map.mpr ih)
      have hp := hl.opened (by simp) (s := .leftParen) fun _ => rfl
      exact (standing_single (k := .identifier name) rfl hn rfl).append rfl hp

/-- The text of a written expression is read as the tokens of its pieces. -/
theorem Written.tokenize_spelling {e : Expr} {ps : List Piece} {p : Nat} (h : Written e ps p) :
    ∃ tokens, tokenize (spelling ps) = .ok tokens ∧
      tokens.map Token.kind = kindsOf ps ++ [.eof] :=
  Token.tokenize_spelling h.standing.plain h.standing.apart

end ShaderCompiler
