import ShaderCompiler.Emission.Expr
import ShaderCompiler.Proofs.Emission.Plain
import ShaderCompiler.Proofs.Grammar.Reading

namespace ShaderCompiler

open Token Written

/-- The text is a written form of the expression, up to unsigned integers. -/
def Writes (e : Expr) (r : Rendered) : Prop :=
  ∃ e' ps, Written e' ps r.precedence ∧ r.text = spelling ps ∧ Retagged e e'

theorem spelling_cons (p : Piece) (ps : List Piece) : spelling (p :: ps) = p.text ++ spelling ps := by
  apply String.toList_inj.mp
  rw [toList_spelling_cons, String.toList_append]

theorem fit_eq_spelling {r : Rendered} {ps : List Piece} (h : r.text = spelling ps)
    (level : Nat) : r.fit level = spelling (fitted ps r.precedence level) := by
  unfold Rendered.fit fitted
  split
  · simp [h, Written.parenthesized, spelling_cons, Piece.text, Kind.text, Symbol.text,
      String.append_assoc]
  · exact h

theorem spelling_infixed (ps : List Piece) (mark : Symbol) (qs : List Piece) :
    spelling (infixed ps mark qs) = spelling ps ++ " " ++ mark.text ++ " " ++ spelling qs := by
  simp [infixed, spelling_cons, Piece.text, Kind.text, String.append_assoc]

theorem head_of_isSigned {k : Kind} (h : isSigned k = true) {c : Char} {cs : List Char}
    (hc : k.text.toList = c :: cs) : c = '+' ∨ c = '-' := by
  unfold isSigned at h
  split at h <;> first
    | exact absurd h Bool.false_ne_true
    | (simp only [Kind.text, Symbol.text] at hc
       obtain ⟨rfl, -⟩ := List.cons_eq_cons.mp hc
       decide)

theorem leading_eq_spelling (op : UnaryOp) {ps : List Piece} (h : Standing ps) :
    op.leading (spelling ps) = spelling (.token (.symbol op.mark) :: shielded ps) := by
  obtain ⟨k, qs, rfl, hk⟩ := h.first
  have hp : k.isPlain = true := h.plain _ List.mem_cons_self
  obtain ⟨c, cs, hc⟩ := List.exists_cons_of_ne_nil (text_ne_nil hp)
  have ht : (spelling (.token k :: qs)).toList = c :: (cs ++ (spelling qs).toList) := by
    rw [toList_spelling_cons, Piece.text, hc, List.cons_append]
  rw [UnaryOp.leading, ht, shielded]
  by_cases hs : isSigned k = true
  · rw [if_pos hs]
    have hl : op.symbol ++ "(" ++ spelling (.token k :: qs) ++ ")" =
        spelling (.token (.symbol op.mark) :: Written.parenthesized (.token k :: qs)) := by
      rw [← UnaryOp.mark_text]
      simp [Written.parenthesized, spelling_cons, Piece.text, Kind.text, Symbol.text,
        String.append_assoc]
    rcases head_of_isSigned hs hc with rfl | rfl <;> exact hl
  · rw [if_neg hs, spelling_cons (.token (.symbol op.mark)), Piece.text, Kind.text,
      UnaryOp.mark_text]
    have hl := isLoose_head hk hp (by simpa using hs) hc
    split
    · next heq => exact absurd (List.cons_eq_cons.mp heq).1 hl.2.1
    · next heq => exact absurd (List.cons_eq_cons.mp heq).1 hl.1
    · rfl

theorem spelling_listed (pss : List (List Piece)) :
    spelling (listed pss) = String.intercalate ", " (pss.map spelling) := by
  induction pss with
  | nil => rfl
  | cons ps rest ih =>
      cases rest with
      | nil => rfl
      | cons qs rest =>
          have hi : String.intercalate ", " ((ps :: qs :: rest).map spelling) =
              spelling ps ++ ", " ++ String.intercalate ", " ((qs :: rest).map spelling) :=
            String.intercalate_cons_of_ne_nil (by simp)
          rw [hi, ← ih, listed, spelling_append, spelling_cons, spelling_cons]
          · simp [Piece.text, Kind.text, Symbol.text, ← String.append_assoc]
          · exact List.cons_ne_nil _ _

theorem applied_eq_spelling (name : String) (pss : List (List Piece)) :
    (applied name (pss.map spelling)).text =
      spelling (.token (.identifier name) :: Written.parenthesized (listed pss)) := by
  simp [applied, Rendered.primary, Written.parenthesized, spelling_cons, spelling_listed,
    Piece.text, Kind.text, Symbol.text, String.append_assoc]

section

variable {a b c : Expr} {r x y z : Rendered}

theorem writes_int (value : UInt64) :
    Writes (.literal (.int value)) (.primary (toString value.toNat)) := by
  refine ⟨.literal (.int value), _, .int value, ?_, .literal _⟩
  simp [Rendered.primary, spelling_cons, Piece.text, Kind.text]

theorem writes_uint (value : UInt64) {l : Literal} (h : l = .int value ∨ l = .uint value) :
    Writes (.literal l) (.primary (toString value.toNat ++ "u")) := by
  refine ⟨.literal (.uint value), _, .uint value, ?_, ?_⟩
  · simp [Rendered.primary, spelling_cons, Piece.text, Kind.text]
  · rcases h with rfl | rfl
    · exact .unsigned value
    · exact .literal _

theorem writes_ident {name : String} (hn : isPlainName name = true) :
    Writes (.ident name) (.primary name) := by
  refine ⟨.ident name, _, .ident hn, ?_, .ident name⟩
  simp [Rendered.primary, spelling_cons, Piece.text, Kind.text]

theorem writes_assign (op : AssignOp) (ha : Writes a x) (hb : Writes b y) :
    Writes (.assign op a b)
      ⟨x.fit Precedence.unary ++ " " ++ op.symbol ++ " " ++ y.fit Precedence.assign,
        Precedence.assign⟩ := by
  obtain ⟨a', ps, hwa, hta, hqa⟩ := ha
  obtain ⟨b', qs, hwb, htb, hqb⟩ := hb
  refine ⟨.assign op a' b', _, .assign op hwa hwb, ?_, .assign op hqa hqb⟩
  rw [spelling_infixed, fit_eq_spelling hta, fit_eq_spelling htb, AssignOp.mark_text]

theorem writes_binary (op : BinaryOp) (ha : Writes a x) (hb : Writes b y) :
    Writes (.binary op a b)
      ⟨x.fit op.precedence ++ " " ++ op.symbol ++ " " ++ y.fit (op.precedence + 1),
        op.precedence⟩ := by
  obtain ⟨a', ps, hwa, hta, hqa⟩ := ha
  obtain ⟨b', qs, hwb, htb, hqb⟩ := hb
  refine ⟨.binary op a' b', _, .binary op hwa hwb, ?_, .binary op hqa hqb⟩
  rw [spelling_infixed, fit_eq_spelling hta, fit_eq_spelling htb, BinaryOp.mark_text]

theorem writes_trailing {op : UnaryOp} (hop : op.isTrailing = true) (ha : Writes a x) :
    Writes (.unary op a) (.primary (x.fit Precedence.primary ++ op.symbol)) := by
  obtain ⟨a', ps, hwa, hta, hqa⟩ := ha
  refine ⟨.unary op a', _, .trailing hop hwa, ?_, .unary op hqa⟩
  rw [spelling_append, spelling_cons, ← fit_eq_spelling hta]
  simp [Rendered.primary, Piece.text, Kind.text, UnaryOp.mark_text]

theorem writes_leading {op : UnaryOp} (hop : op.isTrailing = false) (ha : Writes a x) :
    Writes (.unary op a) ⟨op.leading (x.fit Precedence.unary), Precedence.unary⟩ := by
  obtain ⟨a', ps, hwa, hta, hqa⟩ := ha
  refine ⟨.unary op a', _, .leading hop hwa, ?_, .unary op hqa⟩
  rw [fit_eq_spelling hta, leading_eq_spelling op (standing_fitted hwa.standing _ _)]

theorem writes_conditional (ha : Writes a x) (hb : Writes b y) (hc : Writes c z) :
    Writes (.conditional a b c)
      ⟨x.fit (Precedence.conditional + 1) ++ " ? " ++ y.fit Precedence.conditional ++ " : " ++
        z.fit Precedence.conditional, Precedence.conditional⟩ := by
  obtain ⟨a', ps, hwa, hta, hqa⟩ := ha
  obtain ⟨b', qs, hwb, htb, hqb⟩ := hb
  obtain ⟨c', rs, hwc, htc, hqc⟩ := hc
  refine ⟨.conditional a' b' c', _, .conditional hwa hwb hwc, ?_, .conditional hqa hqb hqc⟩
  rw [spelling_infixed, spelling_infixed, fit_eq_spelling hta, fit_eq_spelling htb,
    fit_eq_spelling htc]
  simp [Symbol.text, String.append_assoc]

theorem writes_index (ha : Writes a x) (hb : Writes b y) :
    Writes (.index a b) (.primary (x.fit Precedence.primary ++ "[" ++ y.text ++ "]")) := by
  obtain ⟨a', ps, hwa, hta, hqa⟩ := ha
  obtain ⟨b', qs, hwb, htb, hqb⟩ := hb
  refine ⟨.index a' b', _, .index hwa hwb, ?_, .index hqa hqb⟩
  rw [spelling_append, ← fit_eq_spelling hta]
  simp [Rendered.primary, spelling_cons, htb, Piece.text, Kind.text, Symbol.text,
    String.append_assoc]

theorem writes_member {name : String} (hn : isPlainName name = true) (ha : Writes a x) :
    Writes (.member a name) (.primary (x.fit Precedence.primary ++ "." ++ name)) := by
  obtain ⟨a', ps, hwa, hta, hqa⟩ := ha
  refine ⟨.member a' name, _, .member hn hwa, ?_, .member name hqa⟩
  rw [spelling_append, ← fit_eq_spelling hta]
  simp [Rendered.primary, spelling_cons, Piece.text, String.append_assoc]

theorem exists_written {args : List (Expr × Rendered)} (h : ∀ p ∈ args, Writes p.1 p.2) :
    ∃ ws : List ((Expr × Expr) × List Piece × Nat),
      (∀ w ∈ ws, Written w.1.2 w.2.1 w.2.2 ∧ Retagged w.1.1 w.1.2) ∧
      ws.map (·.1.1) = args.map (·.1) ∧ ws.map (spelling ·.2.1) = args.map (·.2.text) := by
  induction args with
  | nil => exact ⟨[], nofun, rfl, rfl⟩
  | cons p args ih =>
      obtain ⟨ws, hw, he, ht⟩ := ih fun q hq => h q (List.mem_cons_of_mem p hq)
      obtain ⟨e', ps, hwp, htp, hqp⟩ := h p List.mem_cons_self
      refine ⟨((p.1, e'), ps, p.2.precedence) :: ws, ?_, ?_, ?_⟩
      · exact List.forall_mem_cons.mpr ⟨⟨hwp, hqp⟩, hw⟩
      · rw [List.map_cons, List.map_cons, he]
      · rw [List.map_cons, List.map_cons, ht, htp]

theorem writes_call {name : String} (hn : isPlainName name = true) {args : List (Expr × Rendered)}
    (ha : ∀ p ∈ args, Writes p.1 p.2) :
    Writes (.call none name (args.map fun p => ⟨none, p.1⟩))
      (applied name (args.map (·.2.text))) := by
  obtain ⟨ws, hw, he, ht⟩ := exists_written ha
  have hwritten := Written.call hn (ws.map fun w => (w.1.2, w.2))
    (List.forall_mem_map.mpr fun w hm => (hw w hm).1)
  have hretagged := Retagged.call name (ws.map (·.1))
    (List.forall_mem_map.mpr fun w hm => (hw w hm).2)
  have hargs : (args.map fun p => (⟨none, p.1⟩ : Arg Expr)) = ws.map fun w => ⟨none, w.1.1⟩ := by
    simpa [List.map_map, Function.comp_def] using
      congrArg (List.map fun e => (⟨none, e⟩ : Arg Expr)) he.symm
  simp only [List.map_map, Function.comp_def] at hwritten hretagged
  refine ⟨_, _, hwritten, ?_, hargs ▸ hretagged⟩
  rw [← ht, ← applied_eq_spelling]
  simp [List.map_map, Function.comp_def]

end

theorem callForm_plain {f : Frame} {name : String} (hn : IsFunctionName f.context name)
    {args : List (Arg Expr)} (hl : hasLabel args = false) :
    callForm f none name args = .ok (.own name (ownHints f name args)) ∨
      ∃ dependency, callForm f none name args = .ok (.foreign dependency) := by
  simp only [callForm, hl, bareForm, hn.not_verbatim, hn.not_builtin, hn.not_struct,
    hn.not_intrinsic, Bool.false_eq_true, if_false, Bool.or_self]
  split
  · exact Or.inl rfl
  · exact Or.inr ⟨_, rfl⟩

section

variable {f : Frame} (hf : f.env.Discrete)

include hf

theorem memberText_discrete {e : Expr} (he : PlainExpr f.context e) (text name : String) :
    memberText f (infer f.env e) text name = .ok (text ++ "." ++ name) := by
  have ha : (infer f.env e).any (·.array) = false := by
    cases ht : infer f.env e with
    | none => rfl
    | some t =>
        have hd := infer_isDiscrete hf he ht
        simp_all [ValueType.isDiscrete]
  rw [memberText, ha]
  rfl

omit hf in
theorem renderArgs_writes {args : List Expr} (ih : ∀ a ∈ args, ∀ {hint : Option ScalarKind},
      UnsignedHint hint → ∀ u, ∃ r u', render f hint a u = .ok (r, u') ∧ Writes a r)
    {hints : List (Option ScalarKind)} (hh : ∀ hint ∈ hints, UnsignedHint hint) (u : Uses) :
    ∃ (ps : List (Expr × Rendered)) (u' : Uses), ps.map (·.1) = args ∧
      renderArgs f hints (args.map (⟨none, ·⟩)) u = .ok (ps.map (·.2.text), u') ∧
      ∀ p ∈ ps, Writes p.1 p.2 := by
  induction args generalizing hints u with
  | nil => exact ⟨[], u, rfl, rfl, nofun⟩
  | cons a args iha =>
      have hint : UnsignedHint hints.head?.join := by
        cases hints with
        | nil => exact Or.inl rfl
        | cons h hs => exact hh h List.mem_cons_self
      obtain ⟨r, u₁, hr, hw⟩ := ih a List.mem_cons_self hint u
      obtain ⟨ps, u₂, rfl, hps, hws⟩ := iha (fun b hb => ih b (List.mem_cons_of_mem a hb))
        (fun h hm => hh h (List.mem_of_mem_tail hm)) u₁
      refine ⟨(a, r) :: ps, u₂, rfl, ?_, List.forall_mem_cons.mpr ⟨hw, hws⟩⟩
      rw [List.map_cons, renderArgs, bind_ok hr, bind_ok hps]
      rfl

/-- Emission of a plain expression succeeds with a written form of it, in any place. -/
theorem render_writes {e : Expr} (he : PlainExpr f.context e) {hint : Option ScalarKind}
    (hh : UnsignedHint hint) (u : Uses) :
    ∃ r u', render f hint e u = .ok (r, u') ∧ Writes e r := by
  induction he generalizing hint u with
  | bool value =>
      refine ⟨_, u, rfl, .literal (.bool value), _, .bool value, ?_, .literal _⟩
      cases value <;> rfl
  | int value =>
      rcases hh with rfl | rfl
      · exact ⟨_, u, rfl, writes_int value⟩
      · exact ⟨_, u, rfl, writes_uint value (Or.inl rfl)⟩
  | uint value => exact ⟨_, u, rfl, writes_uint value (Or.inr rfl)⟩
  | ident hn => exact ⟨_, u, rfl, writes_ident hn⟩
  | @assign op hop target value ht hv iht ihv =>
      obtain ⟨x, u₁, hx, hwx⟩ := iht (Or.inl rfl) u
      obtain ⟨y, u₂, hy, hwy⟩ := ihv (unsignedHint_hintOf hf ht) u₁
      refine ⟨_, u₂, ?_, writes_assign op hwx hwy⟩
      rw [render, bind_ok hx, bind_ok hy, if_neg (by simp [hop])]
      rfl
  | @binary op hop lhs rhs hl hr ihl ihr =>
      have hint {e : Expr} (he : PlainExpr f.context e) :
          UnsignedHint (if op.isShift then none else f.hintOf e) := by
        split
        · exact Or.inl rfl
        · exact unsignedHint_hintOf hf he
      obtain ⟨x, u₁, hx, hwx⟩ := ihl (hint hr) u
      obtain ⟨y, u₂, hy, hwy⟩ := ihr (hint hl) u₁
      refine ⟨_, u₂, ?_, writes_binary op hwx hwy⟩
      rw [render, bind_ok hx, bind_ok hy, if_neg (by simp [hop])]
      rfl
  | @unary op operand ho ih =>
      have hint : UnsignedHint (if op.isSign then hint else none) := by
        split
        · exact hh
        · exact Or.inl rfl
      obtain ⟨x, u₁, hx, hwx⟩ := ih hint u
      by_cases hop : op.isTrailing = true
      · refine ⟨_, u₁, ?_, writes_trailing hop hwx⟩
        rw [render, bind_ok hx, if_pos hop]
        rfl
      · refine ⟨_, u₁, ?_, writes_leading (by simpa using hop) hwx⟩
        rw [render, bind_ok hx, if_neg hop]
        rfl
  | @conditional test yes no ht hy hn iht ihy ihn =>
      have hint := (hh.or (unsignedHint_hintOf hf hy)).or (unsignedHint_hintOf hf hn)
      obtain ⟨x, u₁, hx, hwx⟩ := iht (Or.inl rfl) u
      obtain ⟨y, u₂, hy, hwy⟩ := ihy hint u₁
      obtain ⟨z, u₃, hz, hwz⟩ := ihn hint u₂
      refine ⟨_, u₃, ?_, writes_conditional hwx hwy hwz⟩
      rw [render, bind_ok hx, bind_ok hy, bind_ok hz]
      rfl
  | @index target index ht hi iht ihi =>
      obtain ⟨x, u₁, hx, hwx⟩ := iht (Or.inl rfl) u
      obtain ⟨y, u₂, hy, hwy⟩ := ihi (Or.inl rfl) u₁
      refine ⟨_, u₂, ?_, writes_index hwx hwy⟩
      rw [render, bind_ok hx, bind_ok hy]
      rfl
  | @member target name ht hn ih =>
      obtain ⟨x, u₁, hx, hwx⟩ := ih (Or.inl rfl) u
      refine ⟨_, u₁, ?_, writes_member hn hwx⟩
      rw [render_member ht.ne_self, bind_ok hx, memberText_discrete hf ht]
      rfl
  | @call name hn args ha ih =>
      have hl : hasLabel (args.map (⟨none, ·⟩)) = false := by simp [hasLabel]
      rcases callForm_plain hn hl with hc | ⟨dependency, hc⟩
      · obtain ⟨ps, u', rfl, hps, hws⟩ := renderArgs_writes ih
          (unsignedHint_ownHints hf name (args.map (⟨none, ·⟩))) (u.addCall name)
        refine ⟨_, u', ?_, by simpa [Function.comp_def] using writes_call hn.plain hws⟩
        rw [render, bind_ok (lift_ok hc)]
        dsimp only
        rw [bind_ok (modify_ok _ u), bind_ok hps]
        rfl
      · have hh : ∀ hint ∈ ([] : List (Option ScalarKind)), UnsignedHint hint := nofun
        obtain ⟨ps, u', rfl, hps, hws⟩ := renderArgs_writes ih hh u
        refine ⟨_, u'.addDependency dependency, ?_,
          by simpa [Function.comp_def] using writes_call hn.plain hws⟩
        rw [render, bind_ok (lift_ok hc)]
        dsimp only
        rw [bind_ok hps, bind_ok (modify_ok _ u')]
        rfl

end

/-- Among discrete types every plain expression is emitted, and the emitted text is read up to its
end as the expression again, up to integers that have become unsigned. -/
theorem read_render (f : Frame) (hf : f.env.Discrete) {e : Expr} (he : PlainExpr f.context e)
    (u : Uses) :
    ∃ r u' tokens e' stop, render f none e u = .ok (r, u') ∧
      tokenize (r.fit 0) = .ok tokens ∧
      Grammar.expr (Grammar.fuelFor tokens) tokens = .ok (e', [stop]) ∧ stop.kind = .eof ∧
      Retagged e e' := by
  obtain ⟨r, u', hr, e', ps, hw, ht, hq⟩ := render_writes hf he (Or.inl rfl) u
  obtain ⟨tokens, stop, hk, hp, hs⟩ := Grammar.read_spelling hw
  have hfit : r.fit 0 = spelling ps := by rw [Rendered.fit, if_neg (Nat.not_lt_zero _), ht]
  exact ⟨r, u', tokens, e', stop, hr, hfit ▸ hk, hp, hs, hq⟩

def discreteFrame : Frame where
  env :=
    { context :=
        { className := "Grid"
          methods := [("cell", ⟨some (.named "uint"), [.named "uint", .named "ivec2"]⟩)]
          structs := [("Node", [("at", .named "ivec2")])]
          globals := [("n", .named "uint"), ("node", .named "Node")] } }
  member := "main"

/-- `n -= n - (1 - - -cell(1, node.at))`, where both integers become unsigned. -/
def signedExpr : Expr :=
  .assign .sub (.ident "n") (.binary .sub (.ident "n") (.binary .sub (.literal (.int 1))
    (.unary .neg (.unary .neg (.call none "cell"
      ([.literal (.int 1), .member (.ident "node") "at"].map (⟨none, ·⟩)))))))

theorem read_render_signedExpr : discreteFrame.env.Discrete ∧
    PlainExpr discreteFrame.context signedExpr ∧
    ∃ r u' tokens e' stop, render discreteFrame none signedExpr {} = .ok (r, u') ∧
      tokenize (r.fit 0) = .ok tokens ∧
      Grammar.expr (Grammar.fuelFor tokens) tokens = .ok (e', [stop]) ∧ stop.kind = .eof ∧
      Retagged signedExpr e' := by
  have hf : discreteFrame.env.Discrete :=
    ⟨nofun, by decide +kernel, by decide +kernel, by decide +kernel, by decide +kernel⟩
  have hn : PlainExpr discreteFrame.context (.ident "n") := .ident (by decide +kernel)
  have hc : PlainExpr discreteFrame.context (.call none "cell"
      ([.literal (.int 1), .member (.ident "node") "at"].map (⟨none, ·⟩))) := by
    refine .call ⟨by decide +kernel, by decide, by decide +kernel, by decide +kernel,
      by decide +kernel, by decide +kernel⟩ _ ?_
    simp only [List.forall_mem_cons]
    exact ⟨.int 1, .member (.ident (by decide +kernel)) (by decide +kernel), nofun⟩
  have he : PlainExpr discreteFrame.context signedExpr :=
    .assign (by decide) hn (.binary (by decide) hn
      (.binary (by decide) (.int 1) (.unary _ (.unary _ hc))))
  exact ⟨hf, he, read_render discreteFrame hf he {}⟩

end ShaderCompiler
