import ShaderCompiler.Proofs.Position.Trees
import ShaderCompiler.Proofs.Sequencing

namespace ShaderCompiler.Grammar

open Token

variable {α β γ δ : Type}

def unplacedResult (e : α → β) :
    Except ReadError (α × List Token) → Except ReadError (β × List Token)
  | .ok (a, rest) => .ok (e a, rest.map Token.unplaced)
  | .error error => .error error.unplaced

/-- On tokens at no position the second reader gives what the first gives on the tokens where they
stand, at no position. -/
def Blind (e : α → β) (r : Reader α) (r' : Reader β) : Prop :=
  ∀ tokens, r' (tokens.map Token.unplaced) = unplacedResult e (r tokens)

namespace Blind

theorem pure {e : α → β} {a : α} {b : β} (h : b = e a) :
    Blind e (Pure.pure a) (Pure.pure b) := by
  subst h
  exact fun _ => rfl

theorem bind {e : α → β} {g : γ → δ} {x : Reader α} {x' : Reader β} {k : α → Reader γ}
    {k' : β → Reader δ} (hx : Blind e x x') (hk : ∀ a, Blind g (k a) (k' (e a))) :
    Blind g (x >>= k) (x' >>= k') := by
  intro tokens
  show StateT.bind x' k' _ = unplacedResult g (StateT.bind x k tokens)
  unfold StateT.bind
  rw [hx tokens]
  cases x tokens with
  | error error => rfl
  | ok p => exact hk p.1 p.2

theorem pure_bind {g : γ → δ} {a : α} {b : β} {k : α → Reader γ} {k' : β → Reader δ}
    (h : Blind g (k a) (k' b)) : Blind g (Pure.pure a >>= k) (Pure.pure b >>= k') :=
  fun tokens => h tokens

theorem ite {e : α → β} {c : Prop} [Decidable c] {x y : Reader α} {x' y' : Reader β}
    (hx : Blind e x x') (hy : Blind e y y') :
    Blind e (if c then x else y) (if c then x' else y') := by
  by_cases h : c
  · rwa [if_pos h, if_pos h]
  · rwa [if_neg h, if_neg h]

theorem map {e : α → β} {g : γ → δ} {x : Reader α} {x' : Reader β} {f : α → γ} {f' : β → δ}
    (hx : Blind e x x') (hf : ∀ a, f' (e a) = g (f a)) : Blind g (f <$> x) (f' <$> x') := by
  rw [← bind_pure_comp, ← bind_pure_comp]
  exact hx.bind fun a => .pure (hf a)

theorem peekAt (n : Nat) : Blind (fun k => k) (peekAt n) (peekAt n) := by
  intro tokens
  simp only [Grammar.peekAt, List.getElem?_map, Option.map_map]
  rfl

theorem peek : Blind (fun k => k) peek peek := peekAt 0

theorem ahead : Blind (fun ks => ks) ahead ahead := by
  intro tokens
  simp only [Grammar.ahead, List.map_map]
  rfl

theorem here : Blind (fun _ => Span.none) here here := by
  intro tokens
  cases tokens <;> rfl

theorem advance : Blind (fun k => k) advance advance := by
  intro tokens
  cases tokens <;> rfl

theorem failAt (e : α → β) (span : Span) (fault : ReadFault) :
    Blind e (failAt span fault) (failAt .none fault) := fun _ => rfl

theorem fail (e : α → β) (fault : ReadFault) : Blind e (fail fault) (fail fault) :=
  here.bind fun span => failAt e span fault

theorem isAt (kind : Kind) : Blind (fun b => b) (isAt kind) (isAt kind) :=
  peek.bind fun _ => .pure rfl

theorem eat (kind : Kind) : Blind (fun b => b) (eat kind) (eat kind) := by
  refine peek.bind fun got => .ite ?_ (.pure rfl)
  exact advance.bind fun _ => .pure rfl

theorem expect (kind : Kind) : Blind (fun u => u) (expect kind) (expect kind) := by
  refine peek.bind fun got => .ite ?_ (.fail _ _)
  exact advance.bind fun _ => .pure rfl

theorem ident (what : String) : Blind (fun name => name) (ident what) (ident what) := by
  refine peek.bind fun got => ?_
  split
  · exact advance.bind fun _ => .pure rfl
  · exact .fail _ _

theorem word (text : String) : Blind (fun u => u) (word text) (word text) := by
  refine peek.bind fun got => ?_
  split
  · exact .ite (advance.bind fun _ => .pure rfl) (.fail _ _)
  · exact .fail _ _

section Lists

variable {e : α → β} {item : Reader α} {item' : Reader β}

theorem manyUntil (stop : Kind → Bool) (h : Blind e item item') (bound : Nat) :
    Blind (List.map e) (manyUntil stop item bound) (manyUntil stop item' bound) := by
  induction bound with
  | zero => exact .fail _ _
  | succ bound ih =>
      refine peek.bind fun next => .ite (.pure rfl) ?_
      exact h.bind fun first => ih.bind fun rest => .pure rfl

theorem sepBy (h : Blind e item item') (bound : Nat) :
    Blind (List.map e) (sepBy item bound) (sepBy item' bound) := by
  induction bound with
  | zero => exact .fail _ _
  | succ bound ih =>
      refine h.bind fun first => (eat _).bind fun more => .ite ?_ (.pure rfl)
      exact ih.bind fun rest => .pure rfl

theorem commaList (close : Kind) (h : Blind e item item') (bound : Nat) :
    Blind (List.map e) (commaList close item bound) (commaList close item' bound) := by
  induction bound with
  | zero => exact .fail _ _
  | succ bound ih =>
      refine (isAt _).bind fun closed => .ite (.pure rfl) ?_
      refine h.bind fun first => (eat _).bind fun more => .ite ?_ (.pure rfl)
      exact ih.bind fun rest => .pure rfl

end Lists

theorem typeRef : Blind TypeRef.unplaced typeRef typeRef := by
  refine here.bind fun span => (ident _).bind fun name => ?_
  refine peek.bind fun first => (peekAt 1).bind fun second => .ite ?_ ?_
  · exact advance.bind fun _ => advance.bind fun _ => .pure rfl
  · exact (eat _).bind fun star => .ite (.pure rfl) (.pure rfl)

theorem attrValue : Blind (fun v => v) attrValue attrValue := by
  refine here.bind fun span => (eat _).bind fun negative => advance.bind fun got => ?_
  cases negative
  all_goals
    cases got with
    | keyword word => cases word <;> first | exact .failAt _ _ _ | exact .pure rfl
    | _ => first | exact .failAt _ _ _ | exact .pure rfl

theorem attributeArg : Blind (fun a => a) attributeArg attributeArg := by
  refine peek.bind fun first => (peekAt 1).bind fun second => .ite ?_ ?_
  · refine (ident _).bind fun key => advance.bind fun _ => ?_
    exact attrValue.bind fun value => .pure rfl
  · exact attrValue.bind fun value => .pure rfl

theorem oneAttribute (bound : Nat) :
    Blind Attribute.unplaced (oneAttribute bound) (oneAttribute bound) := by
  refine here.bind fun span => (ident _).bind fun name => (eat _).bind fun given => .ite ?_ ?_
  · refine (commaList _ attributeArg bound).bind fun args => (expect _).bind fun _ => .pure ?_
    rw [List.map_id']
    rfl
  · exact .pure rfl

theorem attributeList (bound : Nat) :
    Blind (Prod.map id (List.map Attribute.unplaced)) (attributeList bound)
      (attributeList bound) := by
  refine (expect _).bind fun _ => peek.bind fun first => (peekAt 1).bind fun second => ?_
  refine .ite (advance.bind fun _ => advance.bind fun _ => ?_) ?_
  all_goals
    exact (sepBy (oneAttribute bound) bound).bind fun _ => (expect _).bind fun _ => .pure rfl

theorem flatMap_filter_unplaced (p : Bool → Bool) (lists : List (Bool × List Attribute)) :
    ((lists.map (Prod.map id (List.map Attribute.unplaced))).filter (p ·.1)).flatMap (·.2) =
      ((lists.filter (p ·.1)).flatMap (·.2)).map Attribute.unplaced := by
  rw [List.filter_map, List.flatMap_map, List.map_flatMap]
  rfl

theorem attributeLists (bound : Nat) :
    Blind (Prod.map (List.map Attribute.unplaced) (List.map Attribute.unplaced))
      (attributeLists bound) (attributeLists bound) := by
  refine (manyUntil _ (attributeList bound) bound).bind fun lists => .pure ?_
  exact Prod.ext (flatMap_filter_unplaced (!·) lists) (flatMap_filter_unplaced (·) lists)

theorem attributes (bound : Nat) :
    Blind (List.map Attribute.unplaced) (attributes bound) (attributes bound) := by
  refine here.bind fun span => (attributeLists bound).bind fun lists => ?_
  simp only [Prod.map, List.isEmpty_map]
  exact .ite (.pure rfl) (.failAt _ _ _)

end Blind

end ShaderCompiler.Grammar
