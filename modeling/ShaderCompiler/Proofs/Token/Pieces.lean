import Mathlib.Data.List.Chain
import ShaderCompiler.Proofs.Token.Scanning

namespace ShaderCompiler.Token

/-- A blank, a token, or a point with the name behind it. -/
inductive Piece where
  | gap
  | token (kind : Kind)
  | access (name : String)

namespace Piece

def text : Piece → String
  | gap => " "
  | token kind => kind.text
  | access name => "." ++ name

def kinds : Piece → List Kind
  | gap => []
  | token kind => [kind]
  | access name => [.symbol .dot, .identifier name]

def isPlain : Piece → Bool
  | gap => true
  | token kind => kind.isPlain
  | access name => isPlainName name

def endsBefore : Piece → List Char → Bool
  | gap, _ => true
  | token kind, rest => kind.endsBefore rest
  | access name, rest => (Kind.identifier name).endsBefore rest

/-- Side by side the pieces stay two. -/
def Apart (p q : Piece) : Prop := ∀ rest, p.endsBefore (q.text.toList ++ rest) = true

end Piece

def spelling (ps : List Piece) : String := String.join (ps.map Piece.text)

def kindsOf (ps : List Piece) : List Kind := ps.flatMap Piece.kinds

@[simp] theorem spelling_nil : spelling [] = "" := rfl

theorem toList_spelling_cons (p : Piece) (ps : List Piece) :
    (spelling (p :: ps)).toList = p.text.toList ++ (spelling ps).toList := by
  simp [spelling]

@[simp] theorem spelling_append (ps qs : List Piece) :
    spelling (ps ++ qs) = spelling ps ++ spelling qs := by
  simp [spelling]

@[simp] theorem kindsOf_nil : kindsOf [] = [] := rfl

@[simp] theorem kindsOf_cons (p : Piece) (ps : List Piece) :
    kindsOf (p :: ps) = p.kinds ++ kindsOf ps := by
  simp [kindsOf]

@[simp] theorem kindsOf_append (ps qs : List Piece) :
    kindsOf (ps ++ qs) = kindsOf ps ++ kindsOf qs := by
  simp [kindsOf]

theorem isWord_of_isPlainName {name : String} (h : isPlainName name = true) :
    isWord name = true := (by simpa [isPlainName] using h : _ ∧ _).1

theorem endsBefore_nil {p : Piece} (hp : p.isPlain = true) : p.endsBefore [] = true := by
  cases p with
  | gap => rfl
  | token kind => cases kind <;> first | rfl | simp [Piece.isPlain, Kind.isPlain] at hp
  | access name => rfl

theorem dot_endsBefore {name : String} (h : isPlainName name = true) (rest : List Char) :
    (Kind.symbol .dot).endsBefore (name.toList ++ rest) = true := by
  obtain ⟨c, cs, hc⟩ := List.exists_cons_of_ne_nil
    (text_ne_nil (k := .identifier name) h)
  have hc : name.toList = c :: cs := hc
  have hd := isDigit_eq_false_of_wordStart (isWord_cons (isWord_of_isPlainName h) hc).1
  simp [hc, Kind.endsBefore, Symbol.extendedBy, hd]

theorem tokensFrom_spelling {ps : List Piece} (hp : ∀ p ∈ ps, p.isPlain = true)
    (hc : ps.IsChain Piece.Apart) (pos : Position) :
    ∃ tokens, tokensFrom pos (spelling ps).toList = .ok tokens ∧
      tokens.map Token.kind = kindsOf ps ++ [.eof] := by
  induction ps generalizing pos with
  | nil =>
      obtain ⟨span, hs⟩ := tokensFrom_nil pos
      exact ⟨_, hs, rfl⟩
  | cons p ps ih =>
      have hps : ∀ q ∈ ps, q.isPlain = true := fun q hq => hp q (List.mem_cons_of_mem p hq)
      have hpp : p.isPlain = true := hp p List.mem_cons_self
      have hend : p.endsBefore (spelling ps).toList = true := by
        cases ps with
        | nil => exact endsBefore_nil hpp
        | cons q qs =>
            rw [toList_spelling_cons]
            exact (List.isChain_cons_cons.mp hc).1 _
      rw [toList_spelling_cons]
      -- One token more in front of what the rest gives.
      have hstep {k : Kind} {rest : List Char} {ks : List Kind} (hk : k.isPlain = true)
          (hr : k.endsBefore rest = true)
          (h : ∀ pos, ∃ tokens, tokensFrom pos rest = .ok tokens ∧ tokens.map Token.kind = ks)
          (pos : Position) : ∃ tokens, tokensFrom pos (k.text.toList ++ rest) = .ok tokens ∧
            tokens.map Token.kind = k :: ks := by
        obtain ⟨span, stop, he⟩ := tokensFrom_text hk hr pos
        obtain ⟨tokens, ht, hk'⟩ := h stop
        exact ⟨_, by rw [he, ht]; rfl, by rw [List.map_cons, hk']⟩
      cases p with
      | gap =>
          obtain ⟨tokens, ht, hk⟩ := ih hps hc.of_cons (pos.next ' ')
          exact ⟨tokens, tokensFrom_blank ht, hk⟩
      | token k => exact hstep hpp hend (ih hps hc.of_cons) pos
      | access name =>
          have hd := dot_endsBefore hpp (spelling ps).toList
          have hn := hstep (k := .identifier name) hpp hend (ih hps hc.of_cons)
          have ht := hstep (k := .symbol .dot) rfl hd hn pos
          simpa [Piece.text, Piece.kinds, Kind.text, Symbol.text] using ht

/-- Reading a text in pieces gives back the tokens of the pieces. -/
theorem tokenize_spelling {ps : List Piece} (hp : ∀ p ∈ ps, p.isPlain = true)
    (hc : ps.IsChain Piece.Apart) :
    ∃ tokens, tokenize (spelling ps) = .ok tokens ∧
      tokens.map Token.kind = kindsOf ps ++ [.eof] :=
  tokensFrom_spelling hp hc .origin

end ShaderCompiler.Token
