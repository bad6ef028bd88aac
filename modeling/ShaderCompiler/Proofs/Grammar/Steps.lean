import ShaderCompiler.Grammar.Body
import ShaderCompiler.Proofs.Emission.Written
import ShaderCompiler.Proofs.Sequencing

namespace ShaderCompiler.Grammar

open Token

def nextKind (ts : List Token) : Kind := (ts.head?.map Token.kind).getD .eof

@[simp] theorem nextKind_cons (t : Token) (ts : List Token) : nextKind (t :: ts) = t.kind := rfl

theorem peek_eq (ts : List Token) : peek ts = .ok (nextKind ts, ts) := by
  cases ts <;> rfl

theorem advance_cons (t : Token) (ts : List Token) : advance (t :: ts) = .ok (t.kind, ts) := rfl

theorem isAt_eq (k : Kind) (ts : List Token) : isAt k ts = .ok (nextKind ts == k, ts) :=
  bind_ok (peek_eq ts)

theorem eat_cons {k : Kind} {t : Token} (h : t.kind = k) (ts : List Token) :
    eat k (t :: ts) = .ok (true, ts) := by
  rw [eat, bind_ok (peek_eq _), nextKind_cons, h, beq_self_eq_true, if_pos rfl]
  rfl

theorem eat_of_ne {k : Kind} {ts : List Token} (h : nextKind ts ≠ k) :
    eat k ts = .ok (false, ts) := by
  rw [eat, bind_ok (peek_eq _), beq_false_of_ne h]
  rfl

theorem expect_cons {k : Kind} {t : Token} (h : t.kind = k) (ts : List Token) :
    expect k (t :: ts) = .ok ((), ts) := by
  rw [expect, bind_ok (peek_eq _), nextKind_cons, h, beq_self_eq_true, if_pos rfl]
  rfl

theorem ident_cons {t : Token} {name : String} (h : t.kind = .identifier name) (what : String)
    (ts : List Token) : ident what (t :: ts) = .ok (name, ts) := by
  rw [ident, bind_ok (peek_eq _), nextKind_cons, h]
  rfl

/-- The token belongs to no lambda and to no query. -/
def isCalm : Kind → Bool
  | .symbol .fatArrow | .keyword .kwDelegate | .keyword .kwIn => false
  | _ => true

def Calm (ts : List Token) : Prop := ∀ t ∈ ts, isCalm t.kind = true

theorem Calm.tail {t : Token} {ts : List Token} (h : Calm (t :: ts)) : Calm ts :=
  fun u hu => h u (List.mem_cons_of_mem t hu)

theorem Calm.right {ts us : List Token} (h : Calm (ts ++ us)) : Calm us :=
  fun u hu => h u (List.mem_append_right ts hu)

theorem Calm.nextKind_ne {ts : List Token} (h : Calm ts) {k : Kind} (hk : isCalm k = false) :
    nextKind ts ≠ k := by
  rintro rfl
  cases ts with
  | nil => cases hk
  | cons t ts => exact absurd (h t List.mem_cons_self) (by simpa using hk)

theorem closesBeforeArrow_of_not_mem {ks : List Kind} (h : .symbol .fatArrow ∉ ks) (depth : Nat) :
    closesBeforeArrow depth ks = false := by
  fun_induction closesBeforeArrow depth ks with
  | case1 | case5 | case6 | case7 => rfl
  | case2 depth rest ih => exact ih (List.not_mem_of_not_mem_cons h)
  | case3 depth rest =>
      rw [beq_eq_false_iff_ne]
      intro he
      exact h (List.mem_cons_of_mem _ (List.mem_of_mem_head? he))
  | case4 depth rest _ ih => exact ih (List.not_mem_of_not_mem_cons h)
  | case8 depth k rest _ _ _ _ _ ih => exact ih (List.not_mem_of_not_mem_cons h)

theorem startsLambda_of_calm {ts : List Token} (h : Calm ts) :
    startsLambda ts = .ok (false, ts) := by
  have hd : nextKind ts ≠ .keyword .kwDelegate := h.nextKind_ne rfl
  rw [startsLambda, bind_ok (peek_eq ts)]
  generalize nextKind ts = k at hd
  split
  · contradiction
  · have hn : (ts[1]?.map Token.kind).getD .eof ≠ .symbol .fatArrow := by
      cases hi : ts[1]? with
      | none => exact nofun
      | some t =>
          intro he
          exact absurd (h t (List.mem_of_getElem? hi)) (by simp [show t.kind = _ from he, isCalm])
    rw [bind_ok (x := peekAt 1) rfl, beq_false_of_ne hn]
    rfl
  · have hm : .symbol .fatArrow ∉ ts.map Token.kind := by
      intro hm
      obtain ⟨t, ht, hk⟩ := List.mem_map.mp hm
      exact absurd (h t ht) (by simp [hk, isCalm])
    rw [bind_ok (x := ahead) rfl, closesBeforeArrow_of_not_mem hm]
    rfl
  · rfl

theorem peekAt_succ (n : Nat) (t : Token) (ts : List Token) :
    peekAt (n + 1) (t :: ts) = .ok (nextKind (ts.drop n), t :: ts) := by
  simp [peekAt, nextKind, List.head?_drop]

/-- The tokens behind a parenthesis are those of a type in parentheses. -/
def namesType (ts : List Token) : Bool :=
  match nextKind ts, nextKind (ts.drop 1), nextKind (ts.drop 2) with
  | .identifier _, .symbol .rightParen, _ => true
  | .identifier _, .symbol .star, .symbol .rightParen => true
  | _, _, _ => false

theorem startsCast_of_ne {t : Token} (h : t.kind ≠ .symbol .leftParen) (ts : List Token) :
    startsCast (t :: ts) = .ok (false, t :: ts) := by
  rw [startsCast, bind_ok (peek_eq _), bind_ok (peekAt_succ 0 t ts), nextKind_cons]
  generalize nextKind (ts.drop 0) = k'
  generalize t.kind = k at h
  split
  · contradiction
  · rfl

theorem startsCast_of_not_namesType {ts : List Token} (h : namesType ts = false) (t : Token) :
    startsCast (t :: ts) = .ok (false, t :: ts) := by
  rw [startsCast, bind_ok (peek_eq _), bind_ok (peekAt_succ 0 t ts), nextKind_cons]
  rw [List.drop_zero]
  unfold namesType at h
  generalize nextKind ts = k' at h
  generalize t.kind = k
  split
  · rw [bind_ok (peekAt_succ 1 t ts), bind_ok (peekAt_succ 2 t ts)]
    generalize nextKind (ts.drop 1) = l at h
    generalize nextKind (ts.drop 2) = m at h
    split
    · cases h
    · cases h
    · rfl
  · rfl

/-- How tightly the token binds to an operand before it. -/
def reach : Kind → Nat
  | .symbol .dot | .symbol .arrow | .symbol .leftParen | .symbol .leftBracket => 15
  | .symbol .plusPlus | .symbol .minusMinus => 15
  | .symbol .question => 2
  | k =>
      if (typeTestOp? k).isSome then typeTestPrecedence
      else if (assignOp? k).isSome then 1
      else ((binaryOp? k).map BinaryOp.precedence).getD 0

theorem assignOp?_of_reach {k : Kind} (h : reach k = 0) : assignOp? k = none := by
  cases k with
  | symbol s => cases s <;> first | rfl | exact absurd h (by decide)
  | _ => rfl

theorem binaryOp?_of_reach {k : Kind} {op : BinaryOp} (h : binaryOp? k = some op) :
    reach k = op.precedence := by
  cases k with
  | symbol s => cases s <;> first | (cases h; rfl) | cases h
  | _ => cases h

theorem typeTestOp?_of_reach {k : Kind} (h : (typeTestOp? k).isSome) :
    reach k = typeTestPrecedence := by
  cases k with
  | keyword w => cases w <;> first | rfl | cases h
  | _ => cases h

def literalOf? : Kind → Option Literal
  | .keyword .kwTrue => some (.bool true)
  | .keyword .kwFalse => some (.bool false)
  | .int value => some (.int value)
  | .uint value => some (.uint value)
  | _ => none

section

variable {fuel s : Nat} {ts rest us vs : List Token} {t o : Token} {e l r : Expr}

theorem expr_of_conditional (hc : Calm ts) (h : conditional fuel ts = .ok (e, rest))
    (hr : reach (nextKind rest) = 0) : expr (fuel + 1) ts = .ok (e, rest) := by
  rw [expr, bind_ok (startsLambda_of_calm hc), if_neg (by decide), bind_ok h,
    bind_ok (peek_eq rest), assignOp?_of_reach hr]
  rfl

theorem expr_of_assign {op : AssignOp} (hc : Calm ts) (hl : conditional fuel ts = .ok (l, o :: us))
    (ho : assignOp? o.kind = some op) (hr : expr fuel us = .ok (r, rest)) :
    expr (fuel + 1) ts = .ok (.assign op l r, rest) := by
  rw [expr, bind_ok (startsLambda_of_calm hc), if_neg (by decide), bind_ok hl,
    bind_ok (peek_eq _), nextKind_cons, ho]
  dsimp only
  rw [bind_ok (advance_cons o us), bind_ok hr]
  rfl

theorem conditional_of_binary (h : binary fuel 0 ts = .ok (e, rest))
    (hr : reach (nextKind rest) < 2) : conditional (fuel + 1) ts = .ok (e, rest) := by
  have hq : nextKind rest ≠ .symbol .question := by
    intro he
    rw [he] at hr
    exact absurd hr (by decide)
  rw [conditional, bind_ok h, bind_ok (eat_of_ne hq)]
  rfl

theorem conditional_of_test {c a b : Expr} (hc : binary fuel 0 ts = .ok (c, t :: us))
    (ht : t.kind = .symbol .question) (ha : expr fuel us = .ok (a, o :: vs))
    (ho : o.kind = .symbol .colon) (hb : conditional fuel vs = .ok (b, rest)) :
    conditional (fuel + 1) ts = .ok (.conditional c a b, rest) := by
  rw [conditional, bind_ok hc, bind_ok (eat_cons ht us), if_pos rfl, bind_ok ha,
    bind_ok (expect_cons ho vs), bind_ok hb]
  rfl

theorem binary_of_unary (h : unary fuel ts = .ok (e, rest)) :
    binary (fuel + 1) s ts = binaryRest fuel s e rest := by
  rw [binary, bind_ok h]

theorem binaryRest_stop (h : reach (nextKind rest) < max s 3) :
    binaryRest (fuel + 1) s e rest = .ok (e, rest) := by
  rw [binaryRest, bind_ok (peek_eq rest)]
  generalize nextKind rest = k at h
  cases ht : typeTestOp? k with
  | some op =>
      have hr := typeTestOp?_of_reach (by rw [ht]; rfl : (typeTestOp? k).isSome)
      have hs : ¬ s ≤ typeTestPrecedence := by
        rw [hr] at h
        simp only [typeTestPrecedence, BinaryOp.precedence] at h ⊢
        omega
      dsimp only
      rw [if_neg hs]
      rfl
  | none =>
      cases ho : binaryOp? k with
      | some op =>
          have hr := binaryOp?_of_reach ho
          have hs : ¬ s ≤ op.precedence := by
            have : 3 ≤ op.precedence := by cases op <;> decide
            omega
          dsimp only
          rw [if_neg hs]
          rfl
      | none => rfl

theorem binaryRest_of_op {op : BinaryOp} (ho : binaryOp? o.kind = some op)
    (hs : s ≤ op.precedence) (h : binary fuel (op.precedence + 1) us = .ok (r, rest)) :
    binaryRest (fuel + 1) s l (o :: us) = binaryRest fuel s (.binary op l r) rest := by
  have ht : typeTestOp? o.kind = none := by
    cases hk : o.kind with
    | symbol m => rfl
    | _ => rw [hk] at ho; cases ho
  rw [binaryRest, bind_ok (peek_eq _), nextKind_cons, ht, ho]
  dsimp only
  rw [if_pos hs, bind_ok (advance_cons o us), bind_ok h]

theorem unary_of_leading {op : UnaryOp} (ht : unaryOp? t.kind = some op)
    (h : unary fuel ts = .ok (e, rest)) :
    unary (fuel + 1) (t :: ts) = .ok (.unary op e, rest) := by
  rw [unary, bind_ok (x := here) rfl, bind_ok (peek_eq _), nextKind_cons]
  generalize hk : t.kind = k at ht
  split
  · cases ht
  · cases ht
  · rw [ht]
    dsimp only
    rw [bind_ok (advance_cons t ts), bind_ok h]
    rfl

theorem unary_of_primary (ht : unaryOp? t.kind = none) (hs : binaryOp? t.kind = none)
    (hc : startsCast (t :: ts) = .ok (false, t :: ts))
    (h : primary fuel (t :: ts) = .ok (e, rest)) :
    unary (fuel + 1) (t :: ts) = suffixes fuel e rest := by
  rw [unary, bind_ok (x := here) rfl, bind_ok (peek_eq _), nextKind_cons]
  generalize hk : t.kind = k at ht hs
  split
  · cases hs
  · cases hs
  · rw [ht]
    dsimp only
    rw [bind_ok hc, if_neg (by decide), bind_ok h]

theorem suffixes_stop (h : reach (nextKind rest) < 15) :
    suffixes (fuel + 1) e rest = .ok (e, rest) := by
  rw [suffixes.eq_def]
  dsimp only
  rw [bind_ok (peek_eq rest)]
  generalize nextKind rest = k at h
  split <;> first | exact absurd h (by decide) | rfl

theorem suffixes_member {name : String} (hd : t.kind = .symbol .dot)
    (ho : o.kind = .identifier name) (hn : nextKind rest ≠ .symbol .leftParen) :
    suffixes (fuel + 1) e (t :: o :: rest) = suffixes fuel (.member e name) rest := by
  rw [suffixes.eq_def]
  dsimp only
  rw [bind_ok (peek_eq _), nextKind_cons, hd]
  dsimp only
  rw [bind_ok (advance_cons t _), bind_ok (ident_cons ho _ rest), bind_ok (isAt_eq _ rest),
    beq_false_of_ne hn]
  rfl

theorem suffixes_call {name : String} {given : List (Arg Expr)} (ht : t.kind = .symbol .leftParen)
    (h : args fuel (t :: ts) = .ok (given, rest)) :
    suffixes (fuel + 1) (.ident name) (t :: ts) = suffixes fuel (.call none name given) rest := by
  rw [suffixes.eq_def]
  dsimp only
  rw [bind_ok (peek_eq _), nextKind_cons, ht]
  dsimp only
  rw [bind_ok h]

theorem suffixes_index (ht : t.kind = .symbol .leftBracket) (h : expr fuel ts = .ok (r, o :: rest))
    (ho : o.kind = .symbol .rightBracket) :
    suffixes (fuel + 1) e (t :: ts) = suffixes fuel (.index e r) rest := by
  rw [suffixes.eq_def]
  dsimp only
  rw [bind_ok (peek_eq _), nextKind_cons, ht]
  dsimp only
  rw [bind_ok (advance_cons t ts), bind_ok h, bind_ok (expect_cons ho rest)]

theorem suffixes_trailing {op : UnaryOp} (hop : op.isTrailing = true)
    (ht : t.kind = .symbol op.mark) :
    suffixes (fuel + 1) e (t :: rest) = suffixes fuel (.unary op e) rest := by
  rw [suffixes.eq_def]
  dsimp only
  rw [bind_ok (peek_eq _), nextKind_cons, ht]
  cases op <;> first | cases hop; done | (dsimp only [UnaryOp.mark]; rw [bind_ok (advance_cons t rest)])

theorem primary_literal {l : Literal} (h : literalOf? t.kind = some l) :
    primary (fuel + 1) (t :: ts) = .ok (.literal l, ts) := by
  -- With its first token known the reader runs to one branch; the equation that lists all of the
  -- branches is never needed.
  obtain ⟨kind, span⟩ := t
  dsimp only [literalOf?] at h
  split at h <;> cases h <;> rfl

theorem primary_ident {name : String} (hc : Calm (t :: ts)) (h : t.kind = .identifier name) :
    primary (fuel + 1) (t :: ts) = .ok (.ident name, ts) := by
  have hq : ((ts[1]?.map Token.kind).getD .eof == .keyword .kwIn) = false := by
    have hd : Calm (ts.drop 1) := fun u hu => hc.tail u (List.mem_of_mem_drop hu)
    have hn := hd.nextKind_ne (k := .keyword .kwIn) rfl
    rw [nextKind, List.head?_drop] at hn
    exact beq_false_of_ne hn
  obtain ⟨kind, span⟩ := t
  cases h
  change (peek >>= fun next => peekAt 1 >>= fun second =>
    if name == "from" && isIdentifier next && second == .keyword .kwIn then
      queryRange fuel >>= fun _ => queryClauses fuel >>= fun _ => pure (Expr.query span)
    else pure (Expr.ident name)) ts = _
  rw [bind_ok (peek_eq ts), bind_ok (x := peekAt 1) rfl, hq, Bool.and_false, if_neg (by decide)]
  rfl

theorem primary_parenthesized (ht : t.kind = .symbol .leftParen)
    (h : expr fuel ts = .ok (e, o :: rest)) (ho : o.kind = .symbol .rightParen) :
    primary (fuel + 1) (t :: ts) = .ok (e, rest) := by
  obtain ⟨kind, span⟩ := t
  cases ht
  change (expr fuel >>= fun inner => expect Symbol.rightParen >>= fun _ => pure inner) ts = _
  rw [bind_ok h, bind_ok (expect_cons ho rest)]
  rfl

def isLabelled (ts : List Token) : Bool :=
  isIdentifier (nextKind ts) && nextKind (ts.drop 1) == .symbol .colon

theorem arg_of_expr (hl : isLabelled ts = false) (hp : passing? (nextKind ts) = none)
    (h : expr fuel ts = .ok (e, rest)) : arg (fuel + 1) ts = .ok (⟨none, e⟩, rest) := by
  have hi : (isIdentifier (nextKind ts) && (ts[1]?.map Token.kind).getD .eof == .symbol .colon) =
      false := by
    rw [← List.head?_drop]
    exact hl
  rw [arg, bind_ok (peek_eq ts), bind_ok (x := peekAt 1) rfl, hi, if_neg (by decide),
    bind_ok (x := pure none) rfl]
  dsimp only
  rw [bind_ok (peek_eq ts), hp, if_neg (by decide), bind_ok h]
  rfl

theorem args_of_commaList {given : List (Arg Expr)} (ht : t.kind = .symbol .leftParen)
    (h : commaList (.symbol .rightParen) (arg fuel) fuel ts = .ok (given, o :: rest))
    (ho : o.kind = .symbol .rightParen) : args (fuel + 1) (t :: ts) = .ok (given, rest) := by
  rw [args, bind_ok (expect_cons ht ts), bind_ok h, bind_ok (expect_cons ho rest)]
  rfl

end

section

variable {α : Type} {close : Kind} {item : Reader α} {bound : Nat} {ts rest us : List Token}
  {o : Token} {a : α}

theorem commaList_nil (h : nextKind ts = close) :
    commaList close item (bound + 1) ts = .ok ([], ts) := by
  rw [commaList, bind_ok (isAt_eq close ts), h, beq_self_eq_true, if_pos rfl]
  rfl

theorem commaList_single (hn : nextKind ts ≠ close) (h : item ts = .ok (a, rest))
    (hr : nextKind rest ≠ .symbol .comma) :
    commaList close item (bound + 1) ts = .ok ([a], rest) := by
  rw [commaList, bind_ok (isAt_eq close ts), beq_false_of_ne hn, if_neg (by decide), bind_ok h,
    bind_ok (eat_of_ne hr)]
  rfl

theorem commaList_cons {as : List α} (hn : nextKind ts ≠ close) (h : item ts = .ok (a, o :: us))
    (ho : o.kind = .symbol .comma) (hs : commaList close item bound us = .ok (as, rest)) :
    commaList close item (bound + 1) ts = .ok (a :: as, rest) := by
  rw [commaList, bind_ok (isAt_eq close ts), beq_false_of_ne hn, if_neg (by decide), bind_ok h,
    bind_ok (eat_cons ho us), if_pos rfl, bind_ok hs]
  rfl

end

end ShaderCompiler.Grammar
