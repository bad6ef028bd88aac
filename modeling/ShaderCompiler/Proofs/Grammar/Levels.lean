import ShaderCompiler.Proofs.Grammar.Steps

namespace ShaderCompiler.Grammar

open Token

/-- The tokens are read as an operand, and then what belongs to it. -/
def ReadsOperand (e : Expr) (ts : List Token) : Prop :=
  ∀ ⦃rest : List Token⦄ ⦃n fuel : Nat⦄ ⦃r : Except ReadError (Expr × List Token)⦄,
    Calm (ts ++ rest) → nextKind rest ≠ .symbol .leftParen →
    (∀ f, n ≤ f → suffixes f e rest = r) → n + 8 * ts.length ≤ fuel →
    unary fuel (ts ++ rest) = r

def ReadsUnary (e : Expr) (ts : List Token) : Prop :=
  ∀ ⦃rest : List Token⦄ ⦃fuel : Nat⦄, Calm (ts ++ rest) → reach (nextKind rest) < 15 →
    8 * ts.length + 1 ≤ fuel → unary fuel (ts ++ rest) = .ok (e, rest)

/-- The tokens are read as an operand of operators up to this strength, and then what follows. -/
def ReadsBinary (p : Nat) (e : Expr) (ts : List Token) : Prop :=
  ∀ ⦃rest : List Token⦄ ⦃s n fuel : Nat⦄ ⦃r : Except ReadError (Expr × List Token)⦄,
    Calm (ts ++ rest) → s ≤ p → reach (nextKind rest) ≤ p →
    (∀ f, n ≤ f → binaryRest f s e rest = r) → n + 8 * ts.length + 2 ≤ fuel →
    binary fuel s (ts ++ rest) = r

def ReadsConditional (e : Expr) (ts : List Token) : Prop :=
  ∀ ⦃rest : List Token⦄ ⦃fuel : Nat⦄, Calm (ts ++ rest) → reach (nextKind rest) < 2 →
    8 * ts.length + 4 ≤ fuel → conditional fuel (ts ++ rest) = .ok (e, rest)

def ReadsExpr (e : Expr) (ts : List Token) : Prop :=
  ∀ ⦃rest : List Token⦄ ⦃fuel : Nat⦄, Calm (ts ++ rest) → reach (nextKind rest) = 0 →
    8 * ts.length + 5 ≤ fuel → expr fuel (ts ++ rest) = .ok (e, rest)

variable {e : Expr} {ts : List Token} {p : Nat}

theorem ReadsOperand.unary (h : ReadsOperand e ts) : ReadsUnary e ts := by
  intro rest fuel hc hr hf
  have hp : nextKind rest ≠ .symbol .leftParen := by
    intro hk
    rw [hk] at hr
    exact absurd hr (by decide)
  apply h (n := 1) hc hp
  · intro f hn
    obtain ⟨f, rfl⟩ := Nat.exists_eq_add_of_le' hn
    exact suffixes_stop hr
  · omega

theorem ReadsUnary.binary (h : ReadsUnary e ts) (hp : p ≤ 14) : ReadsBinary p e ts := by
  intro rest s n fuel r hc hs hr hn hf
  obtain ⟨fuel, rfl⟩ := Nat.exists_eq_add_of_le' (show 1 ≤ fuel by omega)
  rw [binary_of_unary (h hc (by omega) (by omega))]
  exact hn fuel (by omega)

theorem ReadsBinary.stop (h : ReadsBinary p e ts) {rest : List Token} {s fuel : Nat}
    (hc : Calm (ts ++ rest)) (hs : s ≤ p) (hp : reach (nextKind rest) ≤ p)
    (hr : reach (nextKind rest) < max s 3) (hf : 8 * ts.length + 3 ≤ fuel) :
    binary fuel s (ts ++ rest) = .ok (e, rest) := by
  apply h (n := 1) hc hs hp
  · intro f hn
    obtain ⟨f, rfl⟩ := Nat.exists_eq_add_of_le' hn
    exact binaryRest_stop hr
  · omega

theorem ReadsBinary.conditional (h : ReadsBinary p e ts) (hp : 3 ≤ p) :
    ReadsConditional e ts := by
  intro rest fuel hc hr hf
  obtain ⟨fuel, rfl⟩ := Nat.exists_eq_add_of_le' (show 1 ≤ fuel by omega)
  exact conditional_of_binary (h.stop hc (by omega) (by omega) (by omega) (by omega)) hr

theorem ReadsConditional.expr (h : ReadsConditional e ts) : ReadsExpr e ts := by
  intro rest fuel hc hr hf
  obtain ⟨fuel, rfl⟩ := Nat.exists_eq_add_of_le' (show 1 ≤ fuel by omega)
  exact expr_of_conditional hc (h hc (by omega) (by omega)) hr

/-- The tokens are read as the expression at every level up to its own. -/
structure Reads (e : Expr) (ts : List Token) (p : Nat) : Prop where
  operand : 15 ≤ p → ReadsOperand e ts
  unary : 14 ≤ p → ReadsUnary e ts
  binary : ∀ q, 3 ≤ q → q ≤ 14 → q ≤ p → ReadsBinary q e ts
  conditional : 2 ≤ p → ReadsConditional e ts
  expr : ReadsExpr e ts

theorem ReadsBinary.mono {q : Nat} (h : ReadsBinary p e ts) (hq : q ≤ p) : ReadsBinary q e ts :=
  fun _ _ _ _ _ hc hs hr => h hc (hs.trans hq) (hr.trans hq)

theorem ReadsExpr.reads (h : ReadsExpr e ts) : Reads e ts 1 where
  operand := by omega
  unary := by omega
  binary := by omega
  conditional := by omega
  expr := h

theorem ReadsConditional.reads (h : ReadsConditional e ts) : Reads e ts 2 where
  operand := by omega
  unary := by omega
  binary := by omega
  conditional := fun _ => h
  expr := h.expr

theorem ReadsBinary.reads (h : ReadsBinary p e ts) (h3 : 3 ≤ p) (hp : p < 14) : Reads e ts p where
  operand := by omega
  unary := by omega
  binary := fun _ _ _ hq => h.mono hq
  conditional := fun _ => h.conditional h3
  expr := (h.conditional h3).expr

theorem ReadsUnary.reads (h : ReadsUnary e ts) : Reads e ts 14 where
  operand := by omega
  unary := fun _ => h
  binary := fun _ _ hq _ => h.binary hq
  conditional := fun _ => (h.binary (le_refl 14)).conditional (by decide)
  expr := ((h.binary (le_refl 14)).conditional (by decide)).expr

theorem ReadsOperand.reads (h : ReadsOperand e ts) : Reads e ts 15 where
  operand := fun _ => h
  unary := fun _ => h.unary
  binary := fun _ _ hq _ => h.unary.binary hq
  conditional := fun _ => (h.unary.binary (le_refl 14)).conditional (by decide)
  expr := ((h.unary.binary (le_refl 14)).conditional (by decide)).expr

end ShaderCompiler.Grammar
