import ShaderCompiler.Proofs.Emission.Outcomes

namespace ShaderCompiler

mutual

/-- The text of an expression and the functions that are noted on the way, by the parts that are
written out. Constructs without a form have none. -/
inductive Renders (f : Frame) : Option ScalarKind → Expr → Uses → Rendered → Uses → Prop
  | literal {hint l u text} (htext : literalText f hint l = .ok text) :
      Renders f hint (.literal l) u (.primary text) u
  | ident {hint name u} : Renders f hint (.ident name) u (.primary name) u
  | assign {hint op target value u u₁ v l r}
      (hrem : ¬(op = .rem ∧ !f.integralPair target value)) (htarget : Renders f none target u l u₁)
      (hvalue : Renders f (f.hintOf target) value u₁ r v) :
      Renders f hint (.assign op target value) u
        ⟨l.fit Precedence.unary ++ " " ++ op.symbol ++ " " ++ r.fit Precedence.assign,
          Precedence.assign⟩ v
  | assignMod {hint op target value u u₁ v l r}
      (hrem : op = .rem ∧ !f.integralPair target value) (htarget : Renders f none target u l u₁)
      (hvalue : Renders f (f.hintOf target) value u₁ r v) :
      Renders f hint (.assign op target value) u
        ⟨l.fit Precedence.unary ++ " = mod(" ++ l.fit Precedence.unary ++ ", " ++ r.text ++ ")",
          Precedence.assign⟩ v
  | binary {hint op lhs rhs u u₁ v l r} (hrem : ¬(op = .rem ∧ !f.integralPair lhs rhs))
      (hlhs : Renders f (if op.isShift then none else f.hintOf rhs) lhs u l u₁)
      (hrhs : Renders f (if op.isShift then none else f.hintOf lhs) rhs u₁ r v) :
      Renders f hint (.binary op lhs rhs) u
        ⟨l.fit op.precedence ++ " " ++ op.symbol ++ " " ++ r.fit (op.precedence + 1),
          op.precedence⟩ v
  | binaryMod {hint op lhs rhs u u₁ v l r} (hrem : op = .rem ∧ !f.integralPair lhs rhs)
      (hlhs : Renders f (if op.isShift then none else f.hintOf rhs) lhs u l u₁)
      (hrhs : Renders f (if op.isShift then none else f.hintOf lhs) rhs u₁ r v) :
      Renders f hint (.binary op lhs rhs) u (applied "mod" [l.text, r.text]) v
  | trailing {hint op operand u v o} (hop : op.isTrailing = true)
      (hoperand : Renders f (if op.isSign then hint else none) operand u o v) :
      Renders f hint (.unary op operand) u (.primary (o.fit Precedence.primary ++ op.symbol)) v
  | leading {hint op operand u v o} (hop : ¬ op.isTrailing = true)
      (hoperand : Renders f (if op.isSign then hint else none) operand u o v) :
      Renders f hint (.unary op operand) u ⟨op.leading (o.fit Precedence.unary), Precedence.unary⟩ v
  | conditional {hint test yes no u u₁ u₂ v c a b} (htest : Renders f none test u c u₁)
      (hyes : Renders f ((hint.or (f.hintOf yes)).or (f.hintOf no)) yes u₁ a u₂)
      (hno : Renders f ((hint.or (f.hintOf yes)).or (f.hintOf no)) no u₂ b v) :
      Renders f hint (.conditional test yes no) u
        ⟨c.fit (Precedence.conditional + 1) ++ " ? " ++ a.fit Precedence.conditional ++ " : " ++
          b.fit Precedence.conditional, Precedence.conditional⟩ v
  | verbatim {hint receiver name text u}
      (hform : CallsAs f name [⟨none, .literal (.str text)⟩] receiver (.verbatim text)) :
      Renders f hint (.call receiver name [⟨none, .literal (.str text)⟩]) u (.primary text) u
  | zeroCall {hint receiver name type zero u}
      (hform : CallsAs f name [] receiver (.construct (.zero type zero))) :
      Renders f hint (.call receiver name []) u (applied type [zero]) u
  | constructCall {hint receiver name args type hints u v ts}
      (hform : CallsAs f name args receiver (.construct (.ofArgs type hints)))
      (hargs : RendersArgs f hints args u ts v) :
      Renders f hint (.call receiver name args) u (applied type ts) v
  | intrinsic {hint receiver name args callee hints u v ts}
      (hform : CallsAs f name args receiver (.intrinsic callee hints))
      (hargs : RendersArgs f hints args u ts v) :
      Renders f hint (.call receiver name args) u (applied callee ts) v
  | own {hint receiver name args callee hints u v ts}
      (hform : CallsAs f name args receiver (.own callee hints))
      (hargs : RendersArgs f hints args (u.addCall callee) ts v) :
      Renders f hint (.call receiver name args) u (applied callee ts) v
  | foreign {hint receiver name args dependency u v ts}
      (hform : CallsAs f name args receiver (.foreign dependency))
      (hargs : RendersArgs f [] args u ts v) :
      Renders f hint (.call receiver name args) u (applied name ts) (v.addDependency dependency)
  | zero {hint type name zero u} (hform : ConstructsAs f type.name [] (.zero name zero)) :
      Renders f hint (.construct type []) u (applied name [zero]) u
  | construct {hint type args name hints u v ts} (hlabel : hasLabel args = false)
      (hform : ConstructsAs f type.name args (.ofArgs name hints))
      (hargs : RendersArgs f hints args u ts v) :
      Renders f hint (.construct type args) u (applied name ts) v
  | selfMember {hint name u} : Renders f hint (.member .self name) u (.primary name) u
  | member {hint target name u v t text} (hself : target ≠ .self)
      (htarget : Renders f none target u t v)
      (htext : memberText f (infer f.env target) (t.fit Precedence.primary) name = .ok text) :
      Renders f hint (.member target name) u (.primary text) v
  | newArray {hint element size items type u v ts}
      (htype : f.context.resolveType element.name = .ok type)
      (hitems : RendersItems f ((Vocabulary.scalarKind? type).bind ScalarKind.hint?) items u ts v) :
      Renders f hint (.newArray element size (some items)) u (.primary (arrayText type ts)) v
  | index {hint target index u u₁ v t i} (htarget : Renders f none target u t u₁)
      (hindex : Renders f none index u₁ i v) :
      Renders f hint (.index target index) u
        (.primary (t.fit Precedence.primary ++ "[" ++ i.text ++ "]")) v
  | cast {hint type operand name u v o} (hpointer : ¬ type.pointer = true)
      (htype : f.context.resolveType type.name = .ok name)
      (hoperand : Renders f (literalHint (some (.named name))) operand u o v) :
      Renders f hint (.cast type operand) u (applied name [o.text]) v

inductive RendersArgs (f : Frame) :
    List (Option ScalarKind) → List (Arg Expr) → Uses → List String → Uses → Prop
  | nil {hints u} : RendersArgs f hints [] u [] u
  | cons {hints label e rest u u₁ v r ts} (hvalue : Renders f hints.head?.join e u r u₁)
      (hrest : RendersArgs f hints.tail rest u₁ ts v) :
      RendersArgs f hints (⟨label, e⟩ :: rest) u (r.text :: ts) v

inductive RendersItems (f : Frame) :
    Option ScalarKind → List Expr → Uses → List String → Uses → Prop
  | nil {hint u} : RendersItems f hint [] u [] u
  | cons {hint e rest u u₁ v r ts} (hitem : Renders f hint e u r u₁)
      (hrest : RendersItems f hint rest u₁ ts v) :
      RendersItems f hint (e :: rest) u (r.text :: ts) v

end

theorem outcome_call {f : Frame} {receiver : Option Expr} {name : String} {args : List (Arg Expr)}
    (hint : Option ScalarKind) (u : Uses)
    (hargs : ∀ hints u, Outcome (fun p => RendersArgs f hints args u p.1 p.2)
      (rejectionsOfArgs f.context args) (renderArgs f hints args u)) :
    Outcome (fun p => Renders f hint (.call receiver name args) u p.1 p.2)
      (labelRejections args ++
        if isVerbatimCall f.context receiver name args then []
        else rejectionsOfArgs f.context args)
      (render f hint (.call receiver name args) u) := by
  rw [render]
  refine (outcome_callForm f receiver name args).left.lift fun form hform => ?_
  -- only a call that passes text on leaves its arguments out, and those are not counted either
  have hwritten (hne : ∀ text, form ≠ .verbatim text) (hints : List (Option ScalarKind))
      (u : Uses) : Outcome (fun p => RendersArgs f hints args u p.1 p.2)
        (labelRejections args ++
          if isVerbatimCall f.context receiver name args then []
          else rejectionsOfArgs f.context args)
        (renderArgs f hints args u) := by
    rw [hform.isVerbatimCall_eq_false hne]
    exact (hargs hints u).right
  cases form with
  | verbatim text =>
      obtain rfl := hform.args_of_verbatim
      exact .ok (.verbatim hform)
  | construct form =>
      cases form with
      | zero type zero =>
          obtain rfl := hform.args_of_zero
          exact .ok (.zeroCall hform)
      | ofArgs type hints =>
          exact (hwritten (by simp) hints u).andThen fun ts v hts => .ok (.constructCall hform hts)
  | intrinsic callee hints =>
      exact (hwritten (by simp) hints u).andThen fun ts v hts => .ok (.intrinsic hform hts)
  | own callee hints =>
      refine .noted ?_
      exact (hwritten (by simp) hints _).andThen fun ts v hts => .ok (.own hform hts)
  | foreign dependency =>
      exact (hwritten (by simp) [] u).andThen fun ts v hts => .ok (.foreign hform hts)

mutual

/-- Emission of an expression has a derivation, or fails for something that stands in it. -/
theorem outcome_render (f : Frame) : (hint : Option ScalarKind) → (e : Expr) → (u : Uses) →
    Outcome (fun p => Renders f hint e u p.1 p.2) (e.rejections f.context) (render f hint e u)
  | hint, .assign op target value, u => by
      rw [render, Expr.rejections]
      refine (outcome_render f none target u).left.andThen fun l u₁ hl => ?_
      refine (outcome_render f _ value u₁).right.andThen fun r v hr => ?_
      split
      · next hrem => exact .ok (.assignMod hrem hl hr)
      · next hrem => exact .ok (.assign hrem hl hr)
  | hint, .binary op lhs rhs, u => by
      rw [render, Expr.rejections]
      refine (outcome_render f _ lhs u).left.andThen fun l u₁ hl => ?_
      refine (outcome_render f _ rhs u₁).right.andThen fun r v hr => ?_
      split
      · next hrem => exact .ok (.binaryMod hrem hl hr)
      · next hrem => exact .ok (.binary hrem hl hr)
  | hint, .unary op operand, u => by
      rw [render, Expr.rejections]
      refine (outcome_render f _ operand u).andThen fun o v ho => ?_
      split
      · next hop => exact .ok (.trailing hop ho)
      · next hop => exact .ok (.leading hop ho)
  | hint, .conditional test yes no, u => by
      rw [render, Expr.rejections]
      refine (outcome_render f _ test u).left.left.andThen fun c u₁ hc => ?_
      refine (outcome_render f _ yes u₁).right.left.andThen fun a u₂ ha => ?_
      exact (outcome_render f _ no u₂).right.andThen fun b v hb => .ok (.conditional hc ha hb)
  | hint, .call none name args, u => by
      rw [Expr.rejections]
      exact outcome_call hint u fun hints u => outcome_renderArgs f hints args u
  | hint, .call (some receiver) name args, u => by
      rw [Expr.rejections, List.append_assoc]
      exact (outcome_call hint u fun hints u => outcome_renderArgs f hints args u).right
  | hint, .construct type args, u => by
      rw [render, Expr.rejections]
      cases hlabel : hasLabel args with
      | true => exact .single rfl (by simp [labelRejections, hlabel])
      | false =>
          refine (outcome_constructForm f type.name args).lift fun form hform => ?_
          cases form with
          | zero name zero =>
              cases hform with
              | zero h₁ h₂ h₃ h₄ => exact .ok (.zero (.zero h₁ h₂ h₃ h₄))
          | ofArgs name hints =>
              refine (outcome_renderArgs f hints args u).right.andThen fun ts v hts => ?_
              exact .ok (.construct hlabel hform hts)
  | hint, .member target name, u => by
      -- `this` has no text of its own, so a member of it is not reached through its target
      by_cases hself : target = .self
      · subst hself
        exact .ok .selfMember
      · rw [render_member hself, Expr.rejections]
        refine (outcome_render f none target u).andThen fun t v ht => ?_
        exact (failsFor_memberText f _ _ name).lift fun text htext => .ok (.member hself ht htext)
  | hint, .newArray element size (some items), u => by
      rw [render]
      refine (failsFor_resolveType _ _).lift fun type htype => ?_
      have hitems :=
        outcome_renderItems f ((Vocabulary.scalarKind? type).bind ScalarKind.hint?) items u
      cases size <;> exact hitems.right.andThen fun ts v hts => .ok (.newArray htype hts)
  | hint, .index target index, u => by
      rw [render, Expr.rejections]
      refine (outcome_render f none target u).left.andThen fun t u₁ ht => ?_
      exact (outcome_render f none index u₁).right.andThen fun i v hi => .ok (.index ht hi)
  | hint, .cast type operand, u => by
      rw [render, Expr.rejections]
      split
      · next hpointer => exact .single rfl (by simp [TypeRef.rejections, hpointer])
      · next hpointer =>
          refine (failsFor_resolveType _ _).lift fun name hname => ?_
          refine (outcome_render f _ operand u).right.andThen fun o v ho => ?_
          exact .ok (.cast hpointer hname ho)
  | hint, .literal l, u => by
      rw [render]
      exact (failsFor_literalText f hint l).lift fun text htext => .ok (.literal htext)
  | _, .ident _, _ => .ok .ident
  | _, .self, _ | _, .newArray _ _ none, _ | _, .arrayInit _, _ => .other rfl
  | _, .lambda _ _ _, _ | _, .base _, _ | _, .null _, _ | _, .query _, _
  | _, .typeTest _ _ _ _, _ | _, .typeOf _ _, _ | _, .sizeOf _ _, _ | _, .deref _ _, _
  | _, .addressOf _ _, _ | _, .arrow _ _ _, _ | _, .stackAlloc _ _ _, _
  | _, .anonymous _ _, _ => .single rfl (List.mem_singleton_self _)

theorem outcome_renderArgs (f : Frame) : (hints : List (Option ScalarKind)) →
    (args : List (Arg Expr)) → (u : Uses) →
    Outcome (fun p => RendersArgs f hints args u p.1 p.2) (rejectionsOfArgs f.context args)
      (renderArgs f hints args u)
  | _, [], _ => .ok .nil
  | hints, ⟨label, e⟩ :: rest, u => by
      rw [renderArgs, rejectionsOfArgs]
      refine (outcome_render f _ e u).left.andThen fun r u₁ hr => ?_
      exact (outcome_renderArgs f _ rest u₁).right.andThen fun ts v hts => .ok (.cons hr hts)

theorem outcome_renderItems (f : Frame) : (hint : Option ScalarKind) → (items : List Expr) →
    (u : Uses) →
    Outcome (fun p => RendersItems f hint items u p.1 p.2) (rejectionsOfItems f.context items)
      (renderItems f hint items u)
  | _, [], _ => .ok .nil
  | hint, e :: rest, u => by
      rw [renderItems, rejectionsOfItems]
      refine (outcome_render f _ e u).left.andThen fun r u₁ hr => ?_
      exact (outcome_renderItems f _ rest u₁).right.andThen fun ts v hts => .ok (.cons hr hts)

end

variable {f : Frame} {hint : Option ScalarKind} {u v : Uses}

theorem renders_of_render {e : Expr} {r : Rendered} (h : render f hint e u = .ok (r, v)) :
    Renders f hint e u r v :=
  (outcome_render f hint e u).of_ok h

theorem RendersItems.length {items : List Expr} {ts : List String}
    (h : RendersItems f hint items u ts v) : ts.length = items.length := by
  induction items generalizing u ts with
  | nil =>
      cases h
      rfl
  | cons e rest ih =>
      cases h with
      | cons _ hrest => exact congrArg Nat.succ (ih hrest)

end ShaderCompiler
