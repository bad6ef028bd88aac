import ShaderCompiler.Proofs.Emission.Receivers
import ShaderCompiler.Proofs.Emission.Rejections
import ShaderCompiler.Proofs.Sequencing

namespace ShaderCompiler

variable {α β : Type}

def ErrsWithin (y : Except Diagnostic α) (cs : List Construct) : Prop :=
  ∀ d c, y = .error d → d.construct? = some c → c ∈ cs

/-- A computation has a result with the property, or fails. Whatever construct it fails for is among
those listed. -/
inductive Outcome (P : α → Prop) (cs : List Construct) : Except Diagnostic α → Prop
  | ok {a : α} (h : P a) : Outcome P cs (.ok a)
  | error {d : Diagnostic} (h : ∀ c, d.construct? = some c → c ∈ cs) : Outcome P cs (.error d)

namespace Outcome

variable {P : α → Prop} {Q : β → Prop} {cs ds : List Construct} {y : Except Diagnostic α}
  {x : Emit α} {u : Uses}

theorem of_ok {a : α} (h : Outcome P cs y) (hy : y = .ok a) : P a := by
  cases h with
  | ok h => exact Except.ok.inj hy ▸ h
  | error h => cases hy

theorem errsWithin (h : Outcome P cs y) : ErrsWithin y cs := by
  intro d c hd hc
  cases h with
  | ok h => cases hd
  | error h =>
      cases hd
      exact h c hc

theorem other {d : Diagnostic} (h : d.construct? = none) : Outcome P cs (.error d) :=
  .error fun c hc => by rw [h] at hc; cases hc

theorem single {d : Diagnostic} {c : Construct} (h : d.construct? = some c) (hc : c ∈ cs) :
    Outcome P cs (.error d) :=
  .error fun c' hc' => by
    rw [h] at hc'
    exact Option.some.inj hc' ▸ hc

theorem mono (h : Outcome P cs y) (hsub : cs ⊆ ds) : Outcome P ds y := by
  cases h with
  | ok h => exact .ok h
  | error h => exact .error fun c hc => hsub (h c hc)

theorem left (h : Outcome P cs y) : Outcome P (cs ++ ds) y :=
  h.mono (List.subset_append_left cs ds)

theorem right (h : Outcome P ds y) : Outcome P (cs ++ ds) y :=
  h.mono (List.subset_append_right cs ds)

theorem imp {P' : α → Prop} (h : Outcome P cs y) (himp : ∀ a, P a → P' a) : Outcome P' cs y := by
  cases h with
  | ok h => exact .ok (himp _ h)
  | error h => exact .error h

theorem bind {k : α → Except Diagnostic β} (hy : Outcome P cs y)
    (hk : ∀ a, P a → Outcome Q cs (k a)) : Outcome Q cs (y >>= k) := by
  cases hy with
  | ok h => exact hk _ h
  | error h => exact .error h

theorem andThen {P : α × Uses → Prop} {Q : β × Uses → Prop} {k : α → Emit β}
    (hx : Outcome P cs (x u)) (hk : ∀ a v, P (a, v) → Outcome Q cs (k a v)) :
    Outcome Q cs ((x >>= k) u) :=
  hx.bind fun p hp => hk p.1 p.2 hp

theorem noted {Q : β × Uses → Prop} {g : Uses → Uses} {k : PUnit → Emit β}
    (h : Outcome Q cs (k ⟨⟩ (g u))) : Outcome Q cs ((modify g >>= k) u) := h

theorem lift {Q : β × Uses → Prop} {k : α → Emit β} (hy : Outcome P cs y)
    (hk : ∀ a, P a → Outcome Q cs (k a u)) : Outcome Q cs ((liftM y >>= k) u) := by
  cases hy with
  | ok h => exact hk _ h
  | error h => exact .error h

end Outcome

abbrev FailsFor (y : Except Diagnostic α) (cs : List Construct) : Prop := Outcome (y = .ok ·) cs y

theorem Outcome.failsFor {P : α → Prop} {y : Except Diagnostic α} {cs : List Construct}
    (h : Outcome P cs y) : FailsFor y cs := by
  cases h with
  | ok _ => exact .ok rfl
  | error h => exact .error h

section Leaves

variable {cs : List Construct}

theorem failsFor_resolveType (ctx : ClassContext) (name : String) :
    FailsFor (ctx.resolveType name) cs := by
  unfold ClassContext.resolveType
  split
  · exact .ok rfl
  · split
    · exact .ok rfl
    · exact .other rfl

theorem failsFor_floatText (f : Frame) (value : Float) (suffix : String) :
    FailsFor (floatText f value suffix) cs := by
  unfold floatText
  split
  · exact .ok rfl
  · exact .other rfl

theorem failsFor_literalText (f : Frame) (hint : Option ScalarKind) (l : Literal) :
    FailsFor (literalText f hint l) ((Expr.literal l).rejections f.context) := by
  cases l with
  | int value =>
      unfold literalText
      dsimp only
      split
      · exact failsFor_floatText f _ _
      · exact failsFor_floatText f _ _
      · exact .ok rfl
      · exact .ok rfl
  | float value => exact failsFor_floatText f _ _
  | double value => exact failsFor_floatText f _ _
  | bool value => exact .ok rfl
  | uint value => exact .ok rfl
  | str text => exact .single rfl (List.mem_singleton_self _)

theorem failsFor_memberText (f : Frame) (type : Option ValueType) (target name : String) :
    FailsFor (memberText f type target name) cs := by
  unfold memberText
  split
  · split
    · exact .ok rfl
    · exact .other rfl
  · exact .ok rfl

end Leaves

inductive ConstructsAs (f : Frame) (type : String) : List (Arg Expr) → Construction → Prop
  | struct {members : List (String × ValueType)} {args : List (Arg Expr)}
      (hstruct : f.context.struct? type = some members) (hargs : args.isEmpty = false) :
      ConstructsAs f type args (.ofArgs type (members.map fun m => literalHint (some m.2)))
  | zero {builtin : BuiltinType} {kind : ScalarKind} (hstruct : f.context.struct? type = none)
      (hbuiltin : Vocabulary.lookup? type = some builtin) (hsampler : builtin.isSampler = false)
      (hkind : builtin.kind = some kind) :
      ConstructsAs f type [] (.zero builtin.name kind.zero)
  | builtin {builtin : BuiltinType} {args : List (Arg Expr)}
      (hstruct : f.context.struct? type = none)
      (hbuiltin : Vocabulary.lookup? type = some builtin) (hsampler : builtin.isSampler = false)
      (hargs : args.isEmpty = false) :
      ConstructsAs f type args (.ofArgs builtin.name
        (List.replicate args.length (literalHint (some (.named builtin.name)))))

inductive CallsBare (f : Frame) : String → List (Arg Expr) → CallForm → Prop
  | verbatim (text : String) :
      CallsBare f Intrinsic.verbatim [⟨none, .literal (.str text)⟩] (.verbatim text)
  | own {name : String} {args : List (Arg Expr)} (hverbatim : name ≠ Intrinsic.verbatim)
      (hmethod : f.context.hasMethod name = true) :
      CallsBare f name args (.own name (ownHints f name args))
  | construct {name : String} {args : List (Arg Expr)} {form : Construction}
      (hverbatim : name ≠ Intrinsic.verbatim) (hmethod : f.context.hasMethod name = false)
      (htype : (Vocabulary.isBuiltin name || f.context.isStruct name) = true)
      (hform : ConstructsAs f name args form) : CallsBare f name args (.construct form)
  | intrinsic {name : String} {args : List (Arg Expr)} (hverbatim : name ≠ Intrinsic.verbatim)
      (hmethod : f.context.hasMethod name = false)
      (htype : (Vocabulary.isBuiltin name || f.context.isStruct name) = false)
      (hintrinsic : Intrinsic.isIntrinsic name = true) :
      CallsBare f name args (.intrinsic name (intrinsicHints f name args))
  | foreign {name : String} {args : List (Arg Expr)} (hverbatim : name ≠ Intrinsic.verbatim)
      (hmethod : f.context.hasMethod name = false)
      (htype : (Vocabulary.isBuiltin name || f.context.isStruct name) = false)
      (hintrinsic : Intrinsic.isIntrinsic name = false) :
      CallsBare f name args (.foreign ⟨name, name, args.length⟩)

/-- How a call is meant. -/
inductive CallsAs (f : Frame) (name : String) (args : List (Arg Expr)) :
    Option Expr → CallForm → Prop
  | bare {receiver : Option Expr} {form : CallForm} (hlabel : hasLabel args = false)
      (hbare : answersBare f.context receiver = true) (hform : CallsBare f name args form) :
      CallsAs f name args receiver form
  | qualified {owner : String} (hlabel : hasLabel args = false)
      (hvalue : (f.env.lookup? owner).isNone = true)
      (hbare : answersBare f.context (some (.ident owner)) = false)
      (htype : Vocabulary.isBuiltin owner = false) :
      CallsAs f name args (some (.ident owner))
        (.foreign ⟨owner ++ "." ++ name, name, args.length⟩)

section Forms

variable {f : Frame} {name : String} {args : List (Arg Expr)} {receiver : Option Expr}
  {form : CallForm} {cs : List Construct}

theorem outcome_constructForm (f : Frame) (type : String) (args : List (Arg Expr)) :
    Outcome (ConstructsAs f type args) cs (constructForm f type args) := by
  rw [constructForm]
  cases hstruct : f.context.struct? type with
  | some members =>
      dsimp only
      cases hargs : args.isEmpty with
      | true => exact .other rfl
      | false => exact .ok (.struct hstruct hargs)
  | none =>
      dsimp only
      cases hbuiltin : Vocabulary.lookup? type with
      | none => exact .other rfl
      | some builtin =>
          dsimp only
          cases hsampler : builtin.isSampler with
          | true => exact .other rfl
          | false =>
              cases hargs : args.isEmpty with
              | false => exact .ok (.builtin hstruct hbuiltin hsampler hargs)
              | true =>
                  obtain rfl := List.isEmpty_iff.mp hargs
                  cases hkind : builtin.kind with
                  | none => exact .other rfl
                  | some kind => exact .ok (.zero hstruct hbuiltin hsampler hkind)

theorem outcome_bareForm (f : Frame) (name : String) (args : List (Arg Expr)) :
    Outcome (CallsBare f name args) cs (bareForm f name args) := by
  rw [bareForm]
  by_cases hverbatim : name = Intrinsic.verbatim
  · rw [if_pos hverbatim, hverbatim]
    unfold verbatimForm
    split
    · exact .ok (.verbatim _)
    · exact .other rfl
  · rw [if_neg hverbatim]
    cases hmethod : f.context.hasMethod name with
    | true => exact .ok (.own hverbatim hmethod)
    | false =>
        cases htype : Vocabulary.isBuiltin name || f.context.isStruct name with
        | true =>
            refine (outcome_constructForm f name args).bind fun form hform => ?_
            exact .ok (.construct hverbatim hmethod htype hform)
        | false =>
            cases hintrinsic : Intrinsic.isIntrinsic name with
            | true => exact .ok (.intrinsic hverbatim hmethod htype hintrinsic)
            | false => exact .ok (.foreign hverbatim hmethod htype hintrinsic)

theorem outcome_qualifiedForm {owner : String} (hlabel : hasLabel args = false)
    (hvalue : (f.env.lookup? owner).isNone = true) :
    Outcome (CallsAs f name args (some (.ident owner))) cs (qualifiedForm f owner name args) := by
  unfold qualifiedForm
  split
  · next hbare =>
      split
      · exact (outcome_bareForm f name args).imp fun form hform => .bare hlabel hbare hform
      · exact .other rfl
  · next hbare =>
      have hbare : answersBare f.context (some (.ident owner)) = false := Bool.eq_false_iff.mpr hbare
      cases htype : Vocabulary.isBuiltin owner with
      | true => exact .other rfl
      | false => exact .ok (.qualified hlabel hvalue hbare htype)

theorem outcome_callForm (f : Frame) (receiver : Option Expr) (name : String)
    (args : List (Arg Expr)) :
    Outcome (CallsAs f name args receiver) (labelRejections args)
      (callForm f receiver name args) := by
  rw [callForm.eq_def, labelRejections]
  cases hlabel : hasLabel args with
  | true => exact .single rfl (List.mem_singleton_self _)
  | false =>
      have hbare {receiver : Option Expr} (hr : answersBare f.context receiver = true) :
          Outcome (CallsAs f name args receiver) [] (bareForm f name args) :=
        (outcome_bareForm f name args).imp fun form hform => .bare hlabel hr hform
      cases receiver with
      | none => exact hbare rfl
      | some r =>
          cases r with
          | self => exact hbare rfl
          | ident owner =>
              dsimp only [Bool.false_eq_true, if_false]
              cases hvalue : (f.env.lookup? owner).isNone with
              | true => exact outcome_qualifiedForm hlabel hvalue
              | false => exact .other rfl
          | _ => exact .other rfl

theorem isVerbatimText_of_ne (h : name ≠ Intrinsic.verbatim) : isVerbatimText name args = false := by
  unfold isVerbatimText
  split
  · exact beq_false_of_ne h
  · rfl

namespace CallsAs

theorem label (h : CallsAs f name args receiver form) : hasLabel args = false := by
  cases h with
  | bare hlabel | qualified hlabel => exact hlabel

theorem receiver_eq (h : CallsAs f name args receiver form) :
    receiver = none ∨ receiver = some .self ∨ ∃ owner, receiver = some (.ident owner) := by
  cases h with
  | @qualified owner => exact Or.inr (Or.inr ⟨owner, rfl⟩)
  | bare _ hbare _ =>
      cases receiver with
      | none => exact Or.inl rfl
      | some r =>
          cases r with
          | self => exact Or.inr (Or.inl rfl)
          | ident owner => exact Or.inr (Or.inr ⟨owner, rfl⟩)
          | _ => cases hbare

theorem args_of_verbatim {text : String} (h : CallsAs f name args receiver (.verbatim text)) :
    args = [⟨none, .literal (.str text)⟩] := by
  cases h with
  | bare _ _ hform =>
      cases hform with
      | verbatim => rfl

theorem args_of_zero {type zero : String}
    (h : CallsAs f name args receiver (.construct (.zero type zero))) : args = [] := by
  cases h with
  | bare _ _ hform =>
      cases hform with
      | construct _ _ _ hform =>
          cases hform with
          | zero => rfl

theorem isVerbatimCall_of_verbatim {text : String}
    (h : CallsAs f name args receiver (.verbatim text)) :
    isVerbatimCall f.context receiver name args = true := by
  cases h with
  | bare _ hbare hform =>
      cases hform with
      | verbatim => rw [isVerbatimCall, hbare]; rfl

/-- Only a call that passes text on leaves its argument out. -/
theorem isVerbatimCall_eq_false (h : CallsAs f name args receiver form)
    (hne : ∀ text, form ≠ .verbatim text) : isVerbatimCall f.context receiver name args = false := by
  rw [isVerbatimCall]
  cases h with
  | qualified _ _ hbare _ => rw [hbare, Bool.false_and]
  | bare _ _ hform =>
      cases hform with
      | verbatim text => exact absurd rfl (hne text)
      | own hverbatim | construct hverbatim | intrinsic hverbatim | foreign hverbatim =>
          rw [isVerbatimText_of_ne hverbatim, Bool.and_false]

end CallsAs

end Forms

end ShaderCompiler
