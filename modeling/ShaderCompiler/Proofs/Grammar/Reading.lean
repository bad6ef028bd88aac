import ShaderCompiler.Proofs.Grammar.Lookahead

namespace ShaderCompiler.Grammar

open Token Written

/-- Any tokens of these kinds are read as the expression. -/
def ReadBack (e : Expr) (ps : List Piece) (p : Nat) : Prop :=
  ∀ ts : List Token, ts.map Token.kind = kindsOf ps → Reads e ts p

theorem exists_infixed {ts : List Token} {ks ls : List Kind} {s : Symbol}
    (h : ts.map Token.kind = ks ++ .symbol s :: ls) : ∃ us o vs, ts = us ++ o :: vs ∧
      us.map Token.kind = ks ∧ o.kind = .symbol s ∧ vs.map Token.kind = ls := by
  obtain ⟨us, ws, rfl, hu, hw⟩ := List.map_eq_append_iff.mp h
  obtain ⟨o, vs, rfl, ho, hv⟩ := List.map_eq_cons_iff.mp hw
  exact ⟨us, o, vs, rfl, hu, ho, hv⟩

theorem exists_pushed {ts : List Token} {ks : List Kind} {s : Symbol}
    (h : ts.map Token.kind = ks ++ [.symbol s]) :
    ∃ us o, ts = us ++ [o] ∧ us.map Token.kind = ks ∧ o.kind = .symbol s := by
  obtain ⟨us, o, vs, rfl, hu, ho, hv⟩ := exists_infixed h
  obtain rfl := List.map_eq_nil_iff.mp hv
  exact ⟨us, o, rfl, hu, ho⟩

theorem kindsOf_parenthesized (ps : List Piece) : kindsOf (Written.parenthesized ps) =
    .symbol .leftParen :: (kindsOf ps ++ [.symbol .rightParen]) := by
  simp [Written.parenthesized, Piece.kinds]

section

variable {e : Expr} {ps : List Piece} {p : Nat}

theorem readBack_parenthesized (h : ReadBack e ps p) (hs : Standing ps)
    (hb : NameBound (kindsOf ps)) (hi : ∀ name, kindsOf ps ≠ [.identifier name]) :
    ReadBack e (Written.parenthesized ps) 15 := by
  intro ts hts
  rw [kindsOf_parenthesized] at hts
  obtain ⟨t, vs, rfl, ht, hv⟩ := List.map_eq_cons_iff.mp hts
  obtain ⟨us, o, rfl, hu, ho⟩ := exists_pushed hv
  have hn : us ≠ [] := by
    rintro rfl
    exact kindsOf_ne_nil hs hu.symm
  apply reads_parenthesized (h us hu).expr ht ho
  intro rest
  exact namesType_eq_false (hu ▸ hb) hn (hu ▸ hi) _

theorem readBack_fitted (h : ReadBack e ps p) (hw : Written e ps p) {level : Nat}
    (hl : level ≤ 15) : ∃ q, level ≤ q ∧ ReadBack e (fitted ps p level) q := by
  unfold fitted
  by_cases hp : p < level
  · rw [if_pos hp]
    refine ⟨15, hl, readBack_parenthesized h hw.standing (nameBound_of_written hw) ?_⟩
    exact kinds_ne_ident hw (by omega)
  · rw [if_neg hp]
    exact ⟨p, by omega, h⟩

theorem readBack_shielded (h : ReadBack e ps p) (hs : Standing ps) (hb : NameBound (kindsOf ps))
    (hp : 14 ≤ p) : ∃ q, 14 ≤ q ∧ ReadBack e (shielded ps) q := by
  obtain ⟨k, qs, rfl, -⟩ := hs.first
  rw [shielded]
  by_cases hk : isSigned k = true
  · rw [if_pos hk]
    refine ⟨15, by decide, readBack_parenthesized h hs hb ?_⟩
    rintro name he
    obtain ⟨rfl, -⟩ := List.cons_eq_cons.mp he
    cases hk
  · rw [if_neg hk]
    exact ⟨p, hp, h⟩

end

theorem passing?_of_beginsOperand {k : Kind} (h : beginsOperand k = true) : passing? k = none := by
  cases k with
  | keyword w => cases w <;> first | rfl | cases h
  | _ => rfl

theorem arg_written {e : Expr} {ps : List Piece} {p : Nat} (hw : Written e ps p)
    (hr : ReadBack e ps p) {us rest : List Token} (hu : us.map Token.kind = kindsOf ps) {o : Token}
    (ho : o.kind ≠ .symbol .colon ∧ reach o.kind = 0) (hc : Calm (us ++ o :: rest)) {fuel : Nat}
    (hf : 8 * us.length + 6 ≤ fuel) :
    nextKind (us ++ o :: rest) ≠ .symbol .rightParen ∧
      arg fuel (us ++ o :: rest) = .ok (⟨none, e⟩, o :: rest) := by
  obtain ⟨fuel, rfl⟩ := Nat.exists_eq_add_of_le' (show 1 ≤ fuel by omega)
  obtain ⟨k, ks, hk, hb⟩ := kindsOf_standing hw.standing
  have hn : nextKind (us ++ o :: rest) = k := by
    obtain ⟨t, vs, rfl, ht, -⟩ := List.map_eq_cons_iff.mp (hu.trans hk)
    exact ht
  have hne : us ≠ [] := by
    rintro rfl
    exact kindsOf_ne_nil hw.standing hu.symm
  rw [hn]
  constructor
  · rintro rfl
    cases hb
  · apply arg_of_expr
    · exact isLabelled_eq_false (hu ▸ nameBound_of_written hw) hne ho.1 rest
    · rw [hn]
      exact passing?_of_beginsOperand hb
    · exact (hr us hu).expr hc ho.2 (by omega)

theorem commaList_listed {args : List (Expr × List Piece × Nat)}
    (hw : ∀ a ∈ args, Written a.1 a.2.1 a.2.2) (hr : ∀ a ∈ args, ReadBack a.1 a.2.1 a.2.2)
    {ts rest : List Token} (hts : ts.map Token.kind = kindsOf (listed (args.map (·.2.1))))
    {o : Token} (ho : o.kind = .symbol .rightParen) (hc : Calm (ts ++ o :: rest))
    {bound fuel : Nat} (hb : ts.length < bound) (hf : 8 * ts.length + 6 ≤ fuel) :
    commaList (.symbol .rightParen) (arg fuel) bound (ts ++ o :: rest) =
      .ok (args.map fun a => ⟨none, a.1⟩, o :: rest) := by
  induction args generalizing ts bound with
  | nil =>
      obtain ⟨bound, rfl⟩ := Nat.exists_eq_add_of_le' (show 1 ≤ bound by omega)
      obtain rfl := List.map_eq_nil_iff.mp hts
      exact commaList_nil ho
  | cons a args ih =>
      obtain ⟨bound, rfl⟩ := Nat.exists_eq_add_of_le' (show 1 ≤ bound by omega)
      have hwa := hw a List.mem_cons_self
      have hra := hr a List.mem_cons_self
      cases args with
      | nil =>
          obtain ⟨hn, ha⟩ := arg_written hwa hra hts (by rw [ho]; decide) hc hf
          exact commaList_single hn ha (by rw [nextKind_cons, ho]; exact nofun)
      | cons b args =>
          have hl : kindsOf (listed ((a :: b :: args).map (·.2.1))) = kindsOf a.2.1 ++
              .symbol .comma :: kindsOf (listed ((b :: args).map (·.2.1))) := by
            simp [listed, Piece.kinds]
          obtain ⟨us, m, vs, rfl, hu, hm, hv⟩ := exists_infixed (hts.trans hl)
          simp only [List.length_append, List.length_cons] at hb hf
          rw [List.append_assoc, List.cons_append] at hc ⊢
          obtain ⟨hn, ha⟩ := arg_written hwa hra hu (by rw [hm]; decide) hc
            (show 8 * us.length + 6 ≤ fuel by omega)
          apply commaList_cons hn ha hm
          exact ih (fun c h => hw c (List.mem_cons_of_mem a h))
            (fun c h => hr c (List.mem_cons_of_mem a h)) hv hc.right.tail (by omega) (by omega)

theorem map_kind_singleton {ts : List Token} {k : Kind} (h : ts.map Token.kind = [k]) :
    ∃ t, ts = [t] ∧ t.kind = k := by
  obtain ⟨t, us, rfl, ht, hu⟩ := List.map_eq_cons_iff.mp h
  obtain rfl := List.map_eq_nil_iff.mp hu
  exact ⟨t, rfl, ht⟩

theorem readBack_of_written {e : Expr} {ps : List Piece} {p : Nat} (h : Written e ps p) :
    ReadBack e ps p := by
  induction h with
  | bool value =>
      intro ts hts
      obtain ⟨t, rfl, ht⟩ := map_kind_singleton hts
      apply reads_literal
      rw [ht]
      cases value <;> rfl
  | int n | uint n =>
      intro ts hts
      obtain ⟨t, rfl, ht⟩ := map_kind_singleton hts
      apply reads_literal
      rw [ht]
      rfl
  | ident =>
      intro ts hts
      obtain ⟨t, rfl, ht⟩ := map_kind_singleton hts
      exact reads_ident ht
  | assign op ht hv iht ihv =>
      intro ts hts
      obtain ⟨p, hp, iht⟩ := readBack_fitted iht ht (show Precedence.unary ≤ 15 by decide)
      obtain ⟨q, hq, ihv⟩ := readBack_fitted ihv hv (show Precedence.assign ≤ 15 by decide)
      rw [kindsOf_infixed] at hts
      obtain ⟨us, o, vs, rfl, hu, ho, hv⟩ := exists_infixed hts
      exact reads_assign (iht us hu) hp ho (ihv vs hv)
  | binary op hl hr ihl ihr =>
      intro ts hts
      have hb := precedence_bounds op
      obtain ⟨p, hp, ihl⟩ := readBack_fitted ihl hl (show op.precedence ≤ 15 by omega)
      obtain ⟨q, hq, ihr⟩ := readBack_fitted ihr hr (show op.precedence + 1 ≤ 15 by omega)
      rw [kindsOf_infixed] at hts
      obtain ⟨us, o, vs, rfl, hu, ho, hv⟩ := exists_infixed hts
      exact reads_binary (ihl us hu) hp ho (ihr vs hv) hq
  | leading hop he ih =>
      intro ts hts
      obtain ⟨p, hp, ih⟩ := readBack_fitted ih he (show Precedence.unary ≤ 15 by decide)
      have hs := standing_fitted he.standing
      obtain ⟨q, hq, ih⟩ := readBack_shielded ih (hs _ _)
        (nameBound_fitted (nameBound_of_written he) _ _) hp
      obtain ⟨t, us, rfl, ht, hu⟩ := List.map_eq_cons_iff.mp hts
      exact reads_leading hop ht (ih us hu) hq
  | trailing hop he ih =>
      intro ts hts
      obtain ⟨p, hp, ih⟩ := readBack_fitted ih he (show Precedence.primary ≤ 15 by decide)
      rw [kindsOf_append] at hts
      obtain ⟨us, o, rfl, hu, ho⟩ := exists_pushed hts
      exact reads_trailing hop (ih us hu) hp ho
  | conditional hc ha hb ihc iha ihb =>
      intro ts hts
      obtain ⟨p, hp, ihc⟩ := readBack_fitted ihc hc (show Precedence.conditional + 1 ≤ 15 by decide)
      obtain ⟨q, hq, iha⟩ := readBack_fitted iha ha (show Precedence.conditional ≤ 15 by decide)
      obtain ⟨r, hr, ihb⟩ := readBack_fitted ihb hb (show Precedence.conditional ≤ 15 by decide)
      rw [kindsOf_infixed, kindsOf_infixed] at hts
      obtain ⟨xs, o, ws, rfl, hx, ho, hw⟩ := exists_infixed hts
      obtain ⟨us, t, vs, rfl, hu, ht, hv⟩ := exists_infixed hx
      exact reads_conditional (ihc us hu) hp ht (iha vs hv) ho (ihb ws hw) hr
  | index ht hi iht ihi =>
      intro ts hts
      obtain ⟨p, hp, iht⟩ := readBack_fitted iht ht (show Precedence.primary ≤ 15 by decide)
      rw [kindsOf_append] at hts
      obtain ⟨us, t, xs, rfl, hu, ht, hx⟩ := exists_infixed hts
      obtain ⟨vs, o, rfl, hv, ho⟩ := exists_pushed (hx.trans (kindsOf_append _ _))
      exact reads_index (iht us hu) hp ht (ihi vs hv) ho
  | member hn ht ih =>
      intro ts hts
      obtain ⟨p, hp, ih⟩ := readBack_fitted ih ht (show Precedence.primary ≤ 15 by decide)
      rw [kindsOf_append] at hts
      obtain ⟨us, t, vs, rfl, hu, ht, hv⟩ := exists_infixed hts
      obtain ⟨o, rfl, ho⟩ := map_kind_singleton hv
      exact reads_member (ih us hu) hp ht ho
  | call hn args ha ih =>
      intro ts hts
      obtain ⟨t, xs, rfl, ht, hx⟩ := List.map_eq_cons_iff.mp hts
      obtain ⟨w, ys, rfl, hw, hy⟩ := List.map_eq_cons_iff.mp hx
      obtain ⟨us, o, rfl, hu, ho⟩ := exists_pushed (hy.trans (kindsOf_append _ _))
      apply reads_call ht hw ho
      intro rest f hc hf
      exact commaList_listed ha ih hu ho hc (by omega) hf

/-- The text of a written expression is read as the expression, up to its end. -/
theorem read_spelling {e : Expr} {ps : List Piece} {p : Nat} (h : Written e ps p) :
    ∃ tokens stop, tokenize (spelling ps) = .ok tokens ∧
      expr (fuelFor tokens) tokens = .ok (e, [stop]) ∧ stop.kind = .eof := by
  obtain ⟨tokens, ht, hk⟩ := h.tokenize_spelling
  obtain ⟨ts, us, rfl, hts, hus⟩ := List.map_eq_append_iff.mp hk
  obtain ⟨stop, rfl, hs⟩ := map_kind_singleton hus
  refine ⟨ts ++ [stop], stop, ht, ?_, hs⟩
  apply (readBack_of_written h ts hts).expr
  · intro t hm
    rcases List.mem_append.mp hm with hm | hm
    · exact calmKinds_of_written h _ (hts ▸ List.mem_map_of_mem hm)
    · rw [List.mem_singleton.mp hm, hs]
      rfl
  · rw [nextKind_cons, hs]
    rfl
  · rw [fuelFor, List.length_append, List.length_singleton]
    omega

end ShaderCompiler.Grammar
