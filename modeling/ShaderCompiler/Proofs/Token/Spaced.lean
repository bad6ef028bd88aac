import ShaderCompiler.Proofs.Token.Pieces

namespace ShaderCompiler.Token

structure IsName (name : String) : Prop where
  shape : ∃ c cs, name.toList = c :: cs ∧ (Text.isAlphabetic c = true ∨ c = '_') ∧
    ∀ d ∈ cs, Text.isAlphanumeric d = true ∨ d = '_'
  not_keyword : ∀ word : Keyword, word.text ≠ name
  not_modifier : ∀ word : Modifier, word.text ≠ name

/-- The tokens whose text shows all that they are. -/
inductive Kind.Shown : Kind → Prop
  | keyword (word : Keyword) : Shown (.keyword word)
  | modifier (word : Modifier) : Shown (.modifier word)
  | symbol (mark : Symbol) : Shown (.symbol mark)
  | int (value : UInt64) : Shown (.int value)
  | uint (value : UInt64) : Shown (.uint value)
  | identifier {name : String} (h : IsName name) : Shown (.identifier name)

theorem IsName.isWord {name : String} (h : IsName name) : isWord name = true := by
  obtain ⟨c, cs, hname, hc, hcs⟩ := h.shape
  have hcs : ∀ d ∈ cs, isWordChar d = true := by
    intro d hd
    rw [isWordChar, Bool.or_eq_true, beq_iff_eq]
    exact hcs d hd
  simpa [Token.isWord, hname, hc] using hcs

theorem ofWord_eq_identifier {word : String} (hkeyword : ∀ k : Keyword, k.text ≠ word)
    (hmodifier : ∀ m : Modifier, m.text ≠ word) : ofWord word = .identifier word := by
  have hk : Keyword.ofText? word = none :=
    List.find?_eq_none.mpr fun k _ => by simpa using hkeyword k
  have hm : Modifier.ofText? word = none :=
    List.find?_eq_none.mpr fun m _ => by simpa using hmodifier m
  simp only [ofWord, hk, hm]

theorem Kind.Shown.isPlain {k : Kind} (h : k.Shown) : k.isPlain = true := by
  cases h with
  | keyword | modifier | symbol | int | uint => rfl
  | identifier h =>
      rw [Kind.isPlain, isPlainName, h.isWord, ofWord_eq_identifier h.not_keyword h.not_modifier]
      exact beq_self_eq_true _

def spaced : List Kind → List Piece
  | [] => []
  | [k] => [.token k]
  | k :: next :: rest => .token k :: .gap :: spaced (next :: rest)

theorem spelling_spaced (kinds : List Kind) :
    spelling (spaced kinds) = String.intercalate " " (kinds.map Kind.text) := by
  fun_induction spaced kinds with
  | case1 => rfl
  | case2 k => simp [spelling, Piece.text]
  | case3 k next rest ih =>
      rw [List.map_cons, List.map_cons, String.intercalate_cons_cons, ← List.map_cons, ← ih]
      simp [spelling, Piece.text, String.append_assoc]

theorem kindsOf_spaced (kinds : List Kind) : kindsOf (spaced kinds) = kinds := by
  fun_induction spaced kinds with
  | case1 => rfl
  | case2 => rfl
  | case3 k next rest ih =>
      rw [kindsOf_cons, kindsOf_cons, ih]
      rfl

theorem isPlain_of_mem_spaced {kinds : List Kind} (h : ∀ k ∈ kinds, k.isPlain = true) :
    ∀ p ∈ spaced kinds, p.isPlain = true := by
  fun_induction spaced kinds with
  | case1 => simp
  | case2 k => simpa [Piece.isPlain] using h
  | case3 k next rest ih =>
      rw [List.forall_mem_cons] at h
      exact List.forall_mem_cons.mpr ⟨h.1, List.forall_mem_cons.mpr ⟨rfl, ih h.2⟩⟩

theorem endsBefore_blank {k : Kind} (h : k.isPlain = true) (rest : List Char) :
    k.endsBefore (' ' :: rest) = true := by
  cases k with
  | keyword | modifier | identifier | int | uint => rfl
  | symbol mark => cases mark <;> rfl
  | float | double | string | eof => cases h

theorem isChain_spaced {kinds : List Kind} (h : ∀ k ∈ kinds, k.isPlain = true) :
    (spaced kinds).IsChain Piece.Apart := by
  fun_induction spaced kinds with
  | case1 => exact .nil
  | case2 => exact .singleton _
  | case3 k next rest ih =>
      obtain ⟨hk, hrest⟩ := List.forall_mem_cons.mp h
      have hgap : (Piece.gap :: spaced (next :: rest)).IsChain Piece.Apart := by
        cases hs : spaced (next :: rest) with
        | nil => exact .singleton _
        | cons p ps =>
            rw [hs] at ih
            exact List.isChain_cons_cons.mpr ⟨fun _ => rfl, ih hrest⟩
      exact List.isChain_cons_cons.mpr ⟨endsBefore_blank hk, hgap⟩

/-- Reading is the inverse of showing. -/
theorem tokenize_shown {kinds : List Kind} (h : ∀ k ∈ kinds, k.Shown) :
    ∃ tokens, tokenize (String.intercalate " " (kinds.map Kind.text)) = .ok tokens ∧
      tokens.map Token.kind = kinds ++ [.eof] := by
  have hplain : ∀ k ∈ kinds, k.isPlain = true := fun k hk => (h k hk).isPlain
  have hread := tokenize_spelling (isPlain_of_mem_spaced hplain) (isChain_spaced hplain)
  rwa [spelling_spaced, kindsOf_spaced] at hread

theorem isName_accented : IsName "été_1" where
  shape := by
    have hrest : ∀ d ∈ "té_1".toList, isWordChar d = true := List.all_eq_true.mp (by decide)
    refine ⟨'é', "té_1".toList, rfl, Or.inl (by decide), fun d hd => ?_⟩
    simpa [isWordChar] using hrest d hd
  not_keyword word := by cases word <;> decide
  not_modifier word := by cases word <;> decide

/-- The largest integer, a point before a number, two slashes, and a name with letters beyond
ASCII. -/
def mixedKinds : List Kind :=
  [.keyword .kwIf, .identifier "été_1", .int 18446744073709551615, .symbol .dot, .uint 0,
   .symbol .slash, .symbol .slash, .modifier .modPublic]

theorem text_mixedKinds : String.intercalate " " (mixedKinds.map Kind.text) =
    "if été_1 18446744073709551615 . 0u / / public" := by
  decide +kernel

theorem tokenize_mixedKinds : (∀ k ∈ mixedKinds, k.Shown) ∧
    ∃ tokens, tokenize "if été_1 18446744073709551615 . 0u / / public" = .ok tokens ∧
      tokens.map Token.kind = mixedKinds ++ [.eof] := by
  have h : ∀ k ∈ mixedKinds, k.Shown := by
    rw [mixedKinds]
    iterate 8 rw [List.forall_mem_cons]
    exact ⟨.keyword _, .identifier isName_accented, .int _, .symbol _, .uint _, .symbol _,
      .symbol _, .modifier _, by simp⟩
  have hread := tokenize_shown h
  rw [text_mixedKinds] at hread
  exact ⟨h, hread⟩

end ShaderCompiler.Token
