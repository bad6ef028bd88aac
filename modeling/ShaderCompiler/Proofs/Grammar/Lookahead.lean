import ShaderCompiler.Proofs.Emission.Spacing
import ShaderCompiler.Proofs.Grammar.Operators

namespace ShaderCompiler.Grammar

open Token Written

/-- A token that can stand behind a name, and behind a star only what begins an operand. -/
def Binds : List Kind → Prop
  | [] => False
  | k :: ks => 0 < reach k ∧ (k = .symbol .star → ∃ l ls, ks = l :: ls ∧ beginsOperand l = true)

/-- If the tokens begin with a name, they are that name or bind to it. -/
def NameBound : List Kind → Prop
  | .identifier _ :: k :: ks => Binds (k :: ks)
  | _ => True

theorem Binds.append {ks : List Kind} (h : Binds ks) (ls : List Kind) : Binds (ks ++ ls) := by
  cases ks with
  | nil => exact h.elim
  | cons k ks =>
      refine ⟨h.1, fun hk => ?_⟩
      obtain ⟨l, ms, rfl, hl⟩ := h.2 hk
      exact ⟨l, ms ++ ls, rfl, hl⟩

theorem NameBound.append {ks ls : List Kind} (h : NameBound ks) (hn : ks ≠ []) (hl : Binds ls) :
    NameBound (ks ++ ls) := by
  match ks, hn with
  | [k], _ =>
      obtain ⟨l, ls, rfl⟩ : ∃ m ms, ls = m :: ms := by
        cases ls with
        | nil => exact hl.elim
        | cons m ms => exact ⟨m, ms, rfl⟩
      cases k <;> first | exact hl | trivial
  | k :: m :: ks, _ =>
      cases k with
      | identifier name =>
          have hb : Binds (m :: ks) := h
          exact hb.append ls
      | _ => trivial

theorem nameBound_symbol (s : Symbol) (ks : List Kind) : NameBound (.symbol s :: ks) := trivial

theorem nameBound_fitted {ps : List Piece} (h : NameBound (kindsOf ps)) (p level : Nat) :
    NameBound (kindsOf (fitted ps p level)) := by
  unfold fitted
  split
  · exact nameBound_symbol _ _
  · exact h

theorem kindsOf_infixed (ps : List Piece) (mark : Symbol) (qs : List Piece) :
    kindsOf (infixed ps mark qs) = kindsOf ps ++ .symbol mark :: kindsOf qs := by
  simp [infixed, Piece.kinds]

theorem kindsOf_standing {ps : List Piece} (h : Standing ps) :
    ∃ k ks, kindsOf ps = k :: ks ∧ beginsOperand k = true := by
  obtain ⟨k, qs, rfl, hk⟩ := h.first
  exact ⟨k, kindsOf qs, rfl, hk⟩

theorem nameBound_infixed {ps qs : List Piece} {mark : Symbol} (hp : NameBound (kindsOf ps))
    (hs : Standing ps) (hm : 0 < reach (.symbol mark)) (hq : Standing qs) :
    NameBound (kindsOf (infixed ps mark qs)) := by
  obtain ⟨k, ks, hk, hb⟩ := kindsOf_standing hq
  obtain ⟨l, ls, hl, -⟩ := kindsOf_standing hs
  rw [kindsOf_infixed]
  apply hp.append (by simp [hl])
  exact ⟨hm, fun _ => ⟨k, ks, hk, hb⟩⟩

theorem kindsOf_ne_nil {ps : List Piece} (h : Standing ps) : kindsOf ps ≠ [] := by
  obtain ⟨k, ks, hk, -⟩ := kindsOf_standing h
  simp [hk]

theorem nameBound_pushed {ps qs : List Piece} (hp : NameBound (kindsOf ps)) (hs : Standing ps)
    {s : Symbol} {ks : List Kind} (hq : kindsOf qs = .symbol s :: ks) (hr : 0 < reach (.symbol s))
    (hm : s ≠ .star) : NameBound (kindsOf (ps ++ qs)) := by
  rw [kindsOf_append]
  apply hp.append (kindsOf_ne_nil hs)
  rw [hq]
  exact ⟨hr, fun he => absurd he (by simpa using hm)⟩

theorem nameBound_of_written {e : Expr} {ps : List Piece} {p : Nat} (h : Written e ps p) :
    NameBound (kindsOf ps) := by
  induction h with
  | bool value => cases value <;> trivial
  | int | uint | ident => trivial
  | assign op ht hv iht _ =>
      apply nameBound_infixed (nameBound_fitted iht _ _) (standing_fitted ht.standing _ _)
      · rw [reach_assign]; decide
      · exact standing_fitted hv.standing _ _
  | binary op hl hr ihl _ =>
      apply nameBound_infixed (nameBound_fitted ihl _ _) (standing_fitted hl.standing _ _)
      · have := precedence_bounds op
        rw [reach_binary]
        omega
      · exact standing_fitted hr.standing _ _
  | leading => trivial
  | @trailing op hop e ps p he ih =>
      apply nameBound_pushed (nameBound_fitted ih _ _) (standing_fitted he.standing _ _) rfl
      · rw [reach_trailing hop]; decide
      · cases op <;> exact nofun
  | conditional hc _ _ ihc _ _ =>
      rw [kindsOf_infixed, kindsOf_infixed, List.append_assoc]
      apply (nameBound_fitted ihc _ _).append (kindsOf_ne_nil (standing_fitted hc.standing _ _))
      exact ⟨by decide, nofun⟩
  | index ht _ iht _ =>
      exact nameBound_pushed (nameBound_fitted iht _ _) (standing_fitted ht.standing _ _) rfl
        (by decide) nofun
  | member hn ht ih =>
      exact nameBound_pushed (nameBound_fitted ih _ _) (standing_fitted ht.standing _ _) rfl
        (by decide) nofun
  | call => exact ⟨by decide, nofun⟩

theorem kinds_ne_ident {e : Expr} {ps : List Piece} {p : Nat} (h : Written e ps p) (hp : p < 15)
    (name : String) : kindsOf ps ≠ [.identifier name] := by
  cases h with
  | assign | binary | conditional =>
      rw [kindsOf_infixed]
      intro he
      rcases List.append_eq_singleton_iff.mp he with ⟨-, he⟩ | ⟨-, he⟩ <;> simp at he
  | leading => exact nofun
  | bool | int | uint | ident | trailing | index | member | call =>
      exact absurd hp (by decide)

theorem namesType_eq_false {ts : List Token} (h : NameBound (ts.map Token.kind)) (hn : ts ≠ [])
    (hi : ∀ name, ts.map Token.kind ≠ [.identifier name]) (rest : List Token) :
    namesType (ts ++ rest) = false := by
  unfold namesType
  match ts, hn with
  | [t], _ =>
      have hk : ∀ name, t.kind ≠ .identifier name := by simpa using hi
      rw [List.singleton_append, nextKind_cons]
      split
      · next hx _ => exact absurd hx (hk _)
      · next hx _ _ => exact absurd hx (hk _)
      · rfl
  | t :: u :: ts, _ =>
      simp only [List.cons_append, nextKind_cons, List.drop_succ_cons, List.drop_zero]
      split
      · next ht hu =>
          obtain ⟨hr, -⟩ : Binds (u.kind :: ts.map Token.kind) := by
            simpa [NameBound, ht] using h
          rw [hu] at hr
          exact absurd hr (by decide)
      · next ht hu hv =>
          obtain ⟨-, hs⟩ : Binds (u.kind :: ts.map Token.kind) := by
            simpa [NameBound, ht] using h
          obtain ⟨l, ls, hl, hb⟩ := hs hu
          obtain ⟨v, ts, rfl, rfl, -⟩ := List.map_eq_cons_iff.mp hl
          rw [List.cons_append, nextKind_cons] at hv
          rw [hv] at hb
          cases hb
      · rfl

theorem isLabelled_eq_false {ts : List Token} (h : NameBound (ts.map Token.kind)) (hn : ts ≠ [])
    {o : Token} (ho : o.kind ≠ .symbol .colon) (rest : List Token) :
    isLabelled (ts ++ o :: rest) = false := by
  unfold isLabelled
  match ts, hn with
  | [t], _ =>
      rw [Bool.and_eq_false_iff]
      right
      exact beq_false_of_ne ho
  | t :: u :: ts, _ =>
      rw [Bool.and_eq_false_iff]
      cases ht : t.kind with
      | identifier name =>
          right
          apply beq_false_of_ne
          intro hu
          have hu : u.kind = .symbol .colon := hu
          obtain ⟨hr, -⟩ : Binds (u.kind :: ts.map Token.kind) := by
            simpa [NameBound, ht] using h
          rw [hu] at hr
          exact absurd hr (by decide)
      | _ =>
          left
          simp [ht, isIdentifier]

def CalmKinds (ks : List Kind) : Prop := ∀ k ∈ ks, isCalm k = true

@[simp] theorem calmKinds_nil : CalmKinds [] := nofun

@[simp] theorem calmKinds_cons {k : Kind} {ks : List Kind} :
    CalmKinds (k :: ks) ↔ isCalm k = true ∧ CalmKinds ks := List.forall_mem_cons

@[simp] theorem calmKinds_append {ks ls : List Kind} :
    CalmKinds (ks ++ ls) ↔ CalmKinds ks ∧ CalmKinds ls := List.forall_mem_append

theorem calmKinds_parenthesized {ps : List Piece} :
    CalmKinds (kindsOf (Written.parenthesized ps)) ↔ CalmKinds (kindsOf ps) := by
  simp [Written.parenthesized, Piece.kinds, isCalm]

theorem calmKinds_fitted {ps : List Piece} {p level : Nat} :
    CalmKinds (kindsOf (fitted ps p level)) ↔ CalmKinds (kindsOf ps) := by
  unfold fitted
  split
  · exact calmKinds_parenthesized
  · rfl

theorem calmKinds_shielded {ps : List Piece} :
    CalmKinds (kindsOf (shielded ps)) ↔ CalmKinds (kindsOf ps) := by
  unfold shielded
  split
  · split
    · exact calmKinds_parenthesized
    · rfl
  · rfl

theorem calmKinds_listed {pss : List (List Piece)} (h : ∀ ps ∈ pss, CalmKinds (kindsOf ps)) :
    CalmKinds (kindsOf (listed pss)) := by
  induction pss with
  | nil => exact calmKinds_nil
  | cons ps rest ih =>
      have hps := h ps List.mem_cons_self
      have hrest := ih fun qs hqs => h qs (List.mem_cons_of_mem ps hqs)
      cases rest with
      | nil => exact hps
      | cons qs rest =>
          rw [listed, kindsOf_append, calmKinds_append]
          · exact ⟨hps, calmKinds_cons.mpr ⟨rfl, hrest⟩⟩
          · exact List.cons_ne_nil _ _

theorem isCalm_assign (op : AssignOp) : isCalm (.symbol op.mark) = true := by cases op <;> rfl

theorem isCalm_binary (op : BinaryOp) : isCalm (.symbol op.mark) = true := by cases op <;> rfl

theorem isCalm_unary (op : UnaryOp) : isCalm (.symbol op.mark) = true := by cases op <;> rfl

theorem calmKinds_of_written {e : Expr} {ps : List Piece} {p : Nat} (h : Written e ps p) :
    CalmKinds (kindsOf ps) := by
  induction h with
  | bool value => cases value <;> simp [Piece.kinds, isCalm]
  | int | uint | ident => simp [Piece.kinds, isCalm]
  | assign op _ _ iht ihv =>
      simp [kindsOf_infixed, calmKinds_fitted, isCalm_assign, iht, ihv]
  | binary op _ _ ihl ihr =>
      simp [kindsOf_infixed, calmKinds_fitted, isCalm_binary, ihl, ihr]
  | leading _ _ ih =>
      simp [Piece.kinds, calmKinds_shielded, calmKinds_fitted, isCalm_unary, ih]
  | trailing _ _ ih => simp [Piece.kinds, calmKinds_fitted, isCalm_unary, ih]
  | conditional _ _ _ ihc iha ihb =>
      simp [kindsOf_infixed, calmKinds_fitted, isCalm, ihc, iha, ihb]
  | index _ _ iht ihi => simp [Piece.kinds, calmKinds_fitted, isCalm, iht, ihi]
  | member _ _ ih => simp [Piece.kinds, calmKinds_fitted, isCalm, ih]
  | call _ args _ ih =>
      have hl := calmKinds_listed (List.forall_mem_map.mpr ih)
      simp [Piece.kinds, calmKinds_parenthesized, isCalm, hl]

end ShaderCompiler.Grammar
