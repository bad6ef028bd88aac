import ShaderCompiler.Proofs.Grammar.Levels

namespace ShaderCompiler.Grammar

open Token

@[simp] theorem assignOp?_mark (op : AssignOp) : assignOp? (.symbol op.mark) = some op := by
  cases op <;> rfl

@[simp] theorem binaryOp?_mark (op : BinaryOp) : binaryOp? (.symbol op.mark) = some op := by
  cases op <;> rfl

theorem unaryOp?_mark {op : UnaryOp} (h : op.isTrailing = false) :
    unaryOp? (.symbol op.mark) = some op := by
  cases op <;> first | rfl | cases h

theorem reach_assign (op : AssignOp) : reach (.symbol op.mark) = 1 := by
  cases op <;> rfl

theorem reach_binary (op : BinaryOp) : reach (.symbol op.mark) = op.precedence :=
  binaryOp?_of_reach (binaryOp?_mark op)

theorem reach_trailing {op : UnaryOp} (h : op.isTrailing = true) :
    reach (.symbol op.mark) = 15 := by
  cases op <;> first | rfl | cases h

theorem precedence_bounds (op : BinaryOp) : 3 ≤ op.precedence ∧ op.precedence < 13 := by
  cases op <;> decide

section

variable {ts us vs ws : List Token} {t o : Token} {e l r : Expr} {p q : Nat}

theorem reads_literal {v : Literal} (h : literalOf? t.kind = some v) :
    Reads (.literal v) [t] 15 := by
  apply ReadsOperand.reads
  intro rest n fuel r hc hp hn hf
  obtain ⟨fuel, rfl⟩ := Nat.exists_eq_add_of_le' (show 2 ≤ fuel by simp at hf; omega)
  have hk : unaryOp? t.kind = none ∧ binaryOp? t.kind = none ∧ t.kind ≠ .symbol .leftParen := by
    generalize t.kind = k at h
    unfold literalOf? at h
    split at h <;> first | exact ⟨rfl, rfl, nofun⟩ | cases h
  rw [List.singleton_append, unary_of_primary hk.1 hk.2.1 (startsCast_of_ne hk.2.2 rest)
    (primary_literal h)]
  apply hn
  simp at hf
  omega

theorem unary_ident {name : String} (h : t.kind = .identifier name) {rest : List Token}
    {fuel : Nat} (hc : Calm (t :: rest)) :
    unary (fuel + 2) (t :: rest) = suffixes (fuel + 1) (.ident name) rest := by
  apply unary_of_primary
  · rw [h]; rfl
  · rw [h]; rfl
  · exact startsCast_of_ne (by rw [h]; exact nofun) rest
  · exact primary_ident hc h

theorem reads_ident {name : String} (h : t.kind = .identifier name) :
    Reads (.ident name) [t] 15 := by
  apply ReadsOperand.reads
  intro rest n fuel r hc hp hn hf
  simp only [List.length_singleton] at hf
  obtain ⟨fuel, rfl⟩ := Nat.exists_eq_add_of_le' (show 2 ≤ fuel by omega)
  rw [List.singleton_append] at hc ⊢
  rw [unary_ident h hc]
  exact hn _ (by omega)

theorem reads_parenthesized (h : ReadsExpr e ts) (ht : t.kind = .symbol .leftParen)
    (ho : o.kind = .symbol .rightParen) (hn : ∀ rest, namesType (ts ++ o :: rest) = false) :
    Reads e (t :: (ts ++ [o])) 15 := by
  apply ReadsOperand.reads
  intro rest n fuel r hc hp hk hf
  simp only [List.length_cons, List.length_append, List.length_nil] at hf
  obtain ⟨fuel, rfl⟩ := Nat.exists_eq_add_of_le' (show 2 ≤ fuel by omega)
  have hl : t :: (ts ++ [o]) ++ rest = t :: (ts ++ o :: rest) := by simp
  rw [hl] at hc ⊢
  have he := h hc.tail (by rw [nextKind_cons, ho]; rfl) (show 8 * ts.length + 5 ≤ fuel by omega)
  rw [unary_of_primary (by rw [ht]; rfl) (by rw [ht]; rfl)
    (startsCast_of_not_namesType (hn rest) t) (primary_parenthesized ht he ho)]
  exact hk _ (by omega)

theorem reads_assign {op : AssignOp} (hl : Reads l us p) (hp : 14 ≤ p)
    (ho : o.kind = .symbol op.mark) (hr : Reads r vs q) : Reads (.assign op l r) (us ++ o :: vs) 1 := by
  apply ReadsExpr.reads
  intro rest fuel hc hn hf
  simp only [List.length_append, List.length_cons] at hf
  obtain ⟨fuel, rfl⟩ := Nat.exists_eq_add_of_le' (show 1 ≤ fuel by omega)
  rw [List.append_assoc, List.cons_append] at hc ⊢
  apply expr_of_assign hc
  · exact hl.conditional (by omega) hc (by rw [nextKind_cons, ho, reach_assign]; decide) (by omega)
  · rw [ho, assignOp?_mark]
  · exact hr.expr hc.right.tail hn (by omega)

theorem reads_conditional {c a b : Expr} (hc : Reads c us p) (hp : 3 ≤ p)
    (ht : t.kind = .symbol .question) (ha : Reads a vs q) (ho : o.kind = .symbol .colon)
    {q' : Nat} (hb : Reads b ws q') (hq : 2 ≤ q') :
    Reads (.conditional c a b) (us ++ t :: vs ++ o :: ws) 2 := by
  apply ReadsConditional.reads
  intro rest fuel hm hn hf
  simp only [List.length_append, List.length_cons] at hf
  obtain ⟨fuel, rfl⟩ := Nat.exists_eq_add_of_le' (show 1 ≤ fuel by omega)
  simp only [List.append_assoc, List.cons_append] at hm ⊢
  have hr : reach (nextKind (t :: (vs ++ o :: (ws ++ rest)))) = 2 := by rw [nextKind_cons, ht]; rfl
  have hm' := hm.right.tail
  have hx : binary fuel 0 (us ++ t :: (vs ++ o :: (ws ++ rest))) = .ok (c, _) :=
    (hc.binary 3 (le_refl 3) (by decide) hp).stop hm (by decide) (by omega) (by omega) (by omega)
  have hy : expr fuel (vs ++ o :: (ws ++ rest)) = .ok (a, _) :=
    ha.expr hm' (by rw [nextKind_cons, ho]; rfl) (by omega)
  exact conditional_of_test hx ht hy ho (hb.conditional hq hm'.right.tail hn (by omega))

theorem reads_binary {op : BinaryOp} (hl : Reads l us p) (hp : op.precedence ≤ p)
    (ho : o.kind = .symbol op.mark) (hr : Reads r vs q) (hq : op.precedence + 1 ≤ q) :
    Reads (.binary op l r) (us ++ o :: vs) op.precedence := by
  obtain ⟨h3, h13⟩ := precedence_bounds op
  refine ReadsBinary.reads ?_ h3 (by omega)
  intro rest s n fuel x hc hs hn hx hf
  simp only [List.length_append, List.length_cons] at hf
  rw [List.append_assoc, List.cons_append] at hc ⊢
  -- The right operand is read at the next level up, so an equal operator behind it stays outside.
  have hv : ∀ f, 8 * vs.length + 3 ≤ f →
      binary f (op.precedence + 1) (vs ++ rest) = .ok (r, rest) := by
    intro f hf
    exact (hr.binary _ (by omega) (by omega) hq).stop hc.right.tail (le_refl _) (by omega)
      (by omega) hf
  apply (hl.binary op.precedence h3 (by omega) hp) (n := n + 8 * vs.length + 4) hc hs
  · rw [nextKind_cons, ho, reach_binary]
  · intro f hf
    obtain ⟨f, rfl⟩ := Nat.exists_eq_add_of_le' (show 1 ≤ f by omega)
    rw [binaryRest_of_op (by rw [ho, binaryOp?_mark]) hs (hv f (by omega))]
    exact hx f (by omega)
  · omega

theorem reads_leading {op : UnaryOp} (hop : op.isTrailing = false) (ht : t.kind = .symbol op.mark)
    (h : Reads e ts p) (hp : 14 ≤ p) : Reads (.unary op e) (t :: ts) 14 := by
  apply ReadsUnary.reads
  intro rest fuel hc hn hf
  simp only [List.length_cons] at hf
  obtain ⟨fuel, rfl⟩ := Nat.exists_eq_add_of_le' (show 1 ≤ fuel by omega)
  rw [List.cons_append] at hc ⊢
  apply unary_of_leading
  · rw [ht, unaryOp?_mark hop]
  · exact h.unary hp hc.tail hn (by omega)

theorem reads_suffixed {e' : Expr} (h : Reads e ts p) (hp : 15 ≤ p)
    (hk : nextKind (o :: us) ≠ .symbol .leftParen)
    (hs : ∀ {rest : List Token} {f : Nat}, Calm (o :: us ++ rest) →
      nextKind rest ≠ .symbol .leftParen → 8 * us.length + 5 ≤ f →
      suffixes (f + 1) e (o :: us ++ rest) = suffixes f e' rest) :
    Reads e' (ts ++ o :: us) 15 := by
  apply ReadsOperand.reads
  intro rest n fuel r hc hr hn hf
  simp only [List.length_append, List.length_cons] at hf
  rw [List.append_assoc] at hc ⊢
  apply h.operand hp (n := n + 8 * us.length + 8) hc hk
  · intro f hf
    obtain ⟨f, rfl⟩ := Nat.exists_eq_add_of_le' (show 1 ≤ f by omega)
    rw [hs hc.right hr (by omega)]
    exact hn f (by omega)
  · omega

theorem reads_member {name : String} (h : Reads e ts p) (hp : 15 ≤ p) (ht : t.kind = .symbol .dot)
    (ho : o.kind = .identifier name) : Reads (.member e name) (ts ++ [t, o]) 15 := by
  apply reads_suffixed h hp (by simp [ht])
  intro rest f _ hr _
  exact suffixes_member ht ho hr

theorem reads_trailing {op : UnaryOp} (hop : op.isTrailing = true) (h : Reads e ts p) (hp : 15 ≤ p)
    (ht : t.kind = .symbol op.mark) : Reads (.unary op e) (ts ++ [t]) 15 := by
  apply reads_suffixed h hp
  · rw [nextKind_cons, ht]
    cases op <;> exact nofun
  · intro rest f _ _ _
    exact suffixes_trailing hop ht

theorem reads_index {i : Expr} (h : Reads e ts p) (hp : 15 ≤ p)
    (ht : t.kind = .symbol .leftBracket) (hi : Reads i us q)
    (ho : o.kind = .symbol .rightBracket) :
    Reads (.index e i) (ts ++ t :: (us ++ [o])) 15 := by
  apply reads_suffixed h hp (by simp [ht])
  intro rest f hc _ hf
  simp only [List.length_append, List.length_singleton] at hf
  have hl : t :: (us ++ [o]) ++ rest = t :: (us ++ o :: rest) := by simp
  rw [hl] at hc ⊢
  exact suffixes_index ht (hi.expr hc.tail (by rw [nextKind_cons, ho]; rfl) (by omega)) ho

theorem reads_call {name : String} {given : List (Arg Expr)} (h : t.kind = .identifier name)
    {w : Token} (hw : w.kind = .symbol .leftParen) (ho : o.kind = .symbol .rightParen)
    (ha : ∀ {rest : List Token} {f : Nat}, Calm (ts ++ o :: rest) → 8 * ts.length + 6 ≤ f →
      commaList (.symbol .rightParen) (arg f) f (ts ++ o :: rest) = .ok (given, o :: rest)) :
    Reads (.call none name given) (t :: w :: (ts ++ [o])) 15 := by
  apply ReadsOperand.reads
  intro rest n fuel r hc _ hn hf
  simp only [List.length_append, List.length_cons, List.length_nil] at hf
  obtain ⟨fuel, rfl⟩ := Nat.exists_eq_add_of_le' (show 3 ≤ fuel by omega)
  have hl : t :: w :: (ts ++ [o]) ++ rest = t :: w :: (ts ++ o :: rest) := by simp
  rw [hl] at hc ⊢
  have hg : args (fuel + 1) (w :: (ts ++ o :: rest)) = .ok (given, rest) :=
    args_of_commaList hw (ha hc.tail.tail (by omega)) ho
  rw [unary_ident h hc, suffixes_call hw hg]
  exact hn _ (by omega)

end

end ShaderCompiler.Grammar
