import ShaderCompiler.Proofs.Normal.Idempotence

namespace ShaderCompiler

def Expr.operatorOwner? : Expr → Option String
  | .call (some (.ident owner)) method args =>
      if (Expr.call (some (.ident owner)) method args).isOperatorCall then some owner else none
  | _ => none

/-- No operator method is called on the name of a local. -/
def Unshadowed (locals : List String) (es : List Expr) : Prop :=
  ∀ e ∈ es, ∀ owner ∈ e.operatorOwner?, owner ∉ locals

section

variable {locals : List String}

theorem unshadowed_append {es es' : List Expr} :
    Unshadowed locals (es ++ es') ↔ Unshadowed locals es ∧ Unshadowed locals es' :=
  List.forall_mem_append

theorem unshadowed_node {e : Expr} (h : e.operatorOwner? = none) (inner : List Expr) :
    Unshadowed locals (inner ++ [e]) ↔ Unshadowed locals inner := by
  have he : Unshadowed locals [e] := by
    intro x hx
    rw [List.mem_singleton.mp hx, h]
    exact nofun
  rw [unshadowed_append, and_iff_left he]

theorem unshadowed_leaf {e : Expr} (h : e.operatorOwner? = none) : Unshadowed locals [e] :=
  (unshadowed_node h []).mpr nofun

end

/-- The names of locals in scope are numbered, and all others are kept. -/
structure Renaming.Hides (locals : List String) (r : Renaming) : Prop where
  numbered : ∀ name ∈ locals, ∃ n, r.apply name = localName n
  kept : ∀ name ∉ locals, r.apply name = name

theorem Renaming.Hides.declare {locals : List String} {r : Renaming} (h : r.Hides locals)
    (taken : List String) (name : String) : (r.declare taken name).2.Hides (name :: locals) where
  numbered := by
    intro x hx
    rw [apply, Renaming.declare, List.lookup_cons]
    by_cases he : x = name
    · exact ⟨_, by simp [he]; rfl⟩
    · obtain ⟨n, hn⟩ := h.numbered x ((List.mem_cons.mp hx).resolve_left he)
      exact ⟨n, by rw [beq_false_of_ne he]; exact hn⟩
  kept := by
    intro x hx
    obtain ⟨hne, hlocal⟩ := not_or.mp (mt List.mem_cons.mpr hx)
    rw [apply, Renaming.declare, List.lookup_cons, beq_false_of_ne hne]
    exact h.kept x hlocal

def Commutes (r : Renaming) (e : Expr) : Prop :=
  renameExpr r (e.mapPost toOperator) = (renameExpr r e).mapPost toOperator

def CommutesArgs (r : Renaming) (args : List (Arg Expr)) : Prop :=
  mapArgs (renameIdent r) (mapArgs toOperator args) =
    mapArgs toOperator (mapArgs (renameIdent r) args)

def CommutesItems (r : Renaming) (items : List Expr) : Prop :=
  mapItems (renameIdent r) (mapItems toOperator items) =
    mapItems toOperator (mapItems (renameIdent r) items)

theorem isOperatorCall_mapArgs (owner method : String) (f : Expr → Expr)
    (args : List (Arg Expr)) :
    (Expr.call (some (.ident owner)) method (mapArgs f args)).isOperatorCall =
      (Expr.call (some (.ident owner)) method args).isOperatorCall := by
  simp only [Expr.isOperatorCall, mapArgs_eq_map, List.all_map, List.length_map,
    Function.comp_def]

theorem isOperatorCall_localName (n : Nat) (method : String) (args : List (Arg Expr)) :
    (Expr.call (some (.ident (localName n))) method args).isOperatorCall = false := by
  rw [Expr.isOperatorCall, isBuiltin_localName]
  rfl

theorem ident_of_toOperator {e : Expr} {name : String} (h : toOperator e = .ident name) :
    e = .ident name := by
  cases hc : e.isOperatorCall with
  | false => rwa [toOperator_of_not_isOperatorCall hc] at h
  | true =>
      cases e with
      | call receiver method args =>
          cases receiver with
          | none => cases hc
          | some receiver =>
              obtain ⟨owner, rfl⟩ := exists_ident_of_isOperatorCall hc
              obtain ⟨hb, ⟨op, e, rfl, hop⟩ | ⟨op, lhs, rhs, rfl, hop⟩⟩ := operatorCall_cases hc
              · rw [toOperator_unary hb hop] at h
                cases h
              · rw [toOperator_binary hb hop] at h
                cases h
      | _ => cases hc

theorem ident_of_mapPost_toOperator {e : Expr} {name : String}
    (h : e.mapPost toOperator = .ident name) : e = .ident name := by
  cases e with
  | ident old => exact h
  | call receiver method args =>
      cases receiver with
      | none => cases h
      | some receiver => cases ident_of_toOperator h
  | newArray element size items => cases size <;> cases items <;> cases h
  | lambda params body => cases body <;> cases h
  | _ => cases h

section

variable {r : Renaming} {locals : List String}

theorem commutes_call {receiver : Expr} (h : ∀ owner, receiver ≠ .ident owner) (method : String)
    (args : List (Arg Expr)) :
    Commutes r (.call (some receiver) method args) ↔
      Commutes r receiver ∧ CommutesArgs r args := by
  have hcall {receiver : Expr} (h : ∀ owner, receiver ≠ .ident owner) (args : List (Arg Expr)) :
      toOperator (.call (some receiver) method args) = .call (some receiver) method args := by
    apply toOperator_of_not_isOperatorCall
    rw [Bool.eq_false_iff]
    intro hc
    obtain ⟨owner, rfl⟩ := exists_ident_of_isOperatorCall hc
    exact h owner rfl
  have hleft : renameExpr r ((Expr.call (some receiver) method args).mapPost toOperator) =
      .call (some (renameExpr r (receiver.mapPost toOperator))) method
        (mapArgs (renameIdent r) (mapArgs toOperator args)) := by
    rw [Expr.mapPost, hcall fun owner he => h owner (ident_of_mapPost_toOperator he)]
    rfl
  have hright : (renameExpr r (.call (some receiver) method args)).mapPost toOperator =
      .call (some ((renameExpr r receiver).mapPost toOperator)) method
        (mapArgs toOperator (mapArgs (renameIdent r) args)) := by
    refine hcall (fun owner he => ?_) _
    obtain ⟨old, rfl, -⟩ := ident_of_renameExpr (ident_of_mapPost_toOperator he)
    exact h old rfl
  rw [Commutes, hleft, hright]
  simp [Commutes, CommutesArgs]

/-- A call on a name keeps being an operator unless the name is that of a local. -/
theorem commutes_call_ident (h : r.Hides locals) (owner method : String)
    (args : List (Arg Expr)) :
    Commutes r (.call (some (.ident owner)) method args) ↔
      (∀ o ∈ (Expr.call (some (.ident owner)) method args).operatorOwner?, o ∉ locals) ∧
        CommutesArgs r args := by
  have hright : (renameExpr r (.call (some (.ident owner)) method args)).mapPost toOperator =
      toOperator (.call (some (.ident (r.apply owner))) method
        (mapArgs toOperator (mapArgs (renameIdent r) args))) := rfl
  have hleft : renameExpr r ((Expr.call (some (.ident owner)) method args).mapPost toOperator) =
      renameExpr r (toOperator (.call (some (.ident owner)) method (mapArgs toOperator args))) :=
    rfl
  rw [Commutes, CommutesArgs, hleft, hright, Expr.operatorOwner?]
  cases hc : (Expr.call (some (.ident owner)) method args).isOperatorCall with
  | false =>
      have hnot : (Expr.call (some (.ident (r.apply owner))) method
          (mapArgs toOperator (mapArgs (renameIdent r) args))).isOperatorCall = false := by
        by_cases hlocal : owner ∈ locals
        · obtain ⟨n, hn⟩ := h.numbered owner hlocal
          rw [hn, isOperatorCall_localName]
        · rw [h.kept owner hlocal, isOperatorCall_mapArgs, isOperatorCall_mapArgs, hc]
      rw [toOperator_of_not_isOperatorCall hnot,
        toOperator_of_not_isOperatorCall (by rw [isOperatorCall_mapArgs, hc])]
      simp [renameExpr, Expr.mapPost, renameIdent]
  | true =>
      obtain ⟨hb, hcases⟩ := operatorCall_cases hc
      by_cases hlocal : owner ∈ locals
      · obtain ⟨n, hn⟩ := h.numbered owner hlocal
        rw [hn, toOperator_of_not_isOperatorCall (isOperatorCall_localName _ _ _)]
        obtain ⟨op, e, rfl, hop⟩ | ⟨op, lhs, rhs, rfl, hop⟩ := hcases
        · simp [mapArgs, toOperator_unary hb hop, renameExpr, Expr.mapPost, renameIdent, hlocal]
        · simp [mapArgs, toOperator_binary hb hop, renameExpr, Expr.mapPost, renameIdent, hlocal]
      · rw [h.kept owner hlocal]
        obtain ⟨op, e, rfl, hop⟩ | ⟨op, lhs, rhs, rfl, hop⟩ := hcases
        · simp [mapArgs, toOperator_unary hb hop, renameExpr, Expr.mapPost, renameIdent, hlocal]
        · simp [mapArgs, toOperator_binary hb hop, renameExpr, Expr.mapPost, renameIdent, hlocal]

mutual

theorem commutes_iff (h : r.Hides locals) : (e : Expr) →
    (Commutes r e ↔ Unshadowed locals e.visited)
  | .assign op target value => by
      have hnode : Commutes r (.assign op target value) ↔
          Commutes r target ∧ Commutes r value :=
        ⟨fun he => (Expr.assign.inj he).2, fun ⟨ht, hv⟩ => congrArg₂ (Expr.assign op) ht hv⟩
      rw [hnode, Expr.visited, unshadowed_node rfl, unshadowed_append, commutes_iff h target,
        commutes_iff h value]
  | .binary op lhs rhs => by
      have hnode : Commutes r (.binary op lhs rhs) ↔ Commutes r lhs ∧ Commutes r rhs :=
        ⟨fun he => (Expr.binary.inj he).2, fun ⟨hl, hr⟩ => congrArg₂ (Expr.binary op) hl hr⟩
      rw [hnode, Expr.visited, unshadowed_node rfl, unshadowed_append, commutes_iff h lhs,
        commutes_iff h rhs]
  | .unary op operand => by
      have hnode : Commutes r (.unary op operand) ↔ Commutes r operand :=
        ⟨fun he => (Expr.unary.inj he).2, congrArg (Expr.unary op)⟩
      rw [hnode, Expr.visited, unshadowed_node rfl, commutes_iff h operand]
  | .call none method args => by
      have hnode : Commutes r (.call none method args) ↔ CommutesArgs r args :=
        ⟨fun he => (Expr.call.inj he).2.2, congrArg (Expr.call none method)⟩
      rw [hnode, Expr.visited, unshadowed_node rfl, commutesArgs_iff h args]
  | .call (some receiver) method args => by
      have hargs := commutesArgs_iff h args
      have hreceiver := commutes_iff h receiver
      rw [Expr.visited, unshadowed_append, unshadowed_append, ← hreceiver, ← hargs]
      by_cases hi : ∃ owner, receiver = .ident owner
      · obtain ⟨owner, rfl⟩ := hi
        have hself : Commutes r (.ident owner) := rfl
        have hnode : Unshadowed locals [Expr.call (some (.ident owner)) method args] ↔
            ∀ o ∈ (Expr.call (some (.ident owner)) method args).operatorOwner?, o ∉ locals :=
          List.forall_mem_singleton
        rw [commutes_call_ident h, hnode, and_iff_right hself, and_comm]
      · have hne : ∀ owner, receiver ≠ .ident owner := fun owner he => hi ⟨owner, he⟩
        have hnode : Unshadowed locals [Expr.call (some receiver) method args] := by
          apply unshadowed_leaf
          cases receiver with
          | ident owner => exact absurd rfl (hne owner)
          | _ => rfl
        rw [commutes_call hne, and_iff_left hnode]
  | .member target name => by
      have hnode : Commutes r (.member target name) ↔ Commutes r target :=
        ⟨fun he => (Expr.member.inj he).1, congrArg (Expr.member · name)⟩
      rw [hnode, Expr.visited, unshadowed_node rfl, commutes_iff h target]
  | .construct type args => by
      have hnode : Commutes r (.construct type args) ↔ CommutesArgs r args :=
        ⟨fun he => (Expr.construct.inj he).2, congrArg (Expr.construct type)⟩
      rw [hnode, Expr.visited, unshadowed_node rfl, commutesArgs_iff h args]
  | .newArray element (some size) none => by
      have hnode : Commutes r (.newArray element (some size) none) ↔ Commutes r size :=
        ⟨fun he => Option.some.inj (Expr.newArray.inj he).2.1,
          congrArg fun size => Expr.newArray element (some size) none⟩
      rw [hnode, Expr.visited, unshadowed_node rfl, commutes_iff h size]
  | .newArray element none (some items) => by
      have hnode : Commutes r (.newArray element none (some items)) ↔ CommutesItems r items :=
        ⟨fun he => Option.some.inj (Expr.newArray.inj he).2.2,
          congrArg fun items => Expr.newArray element none (some items)⟩
      rw [hnode, Expr.visited, unshadowed_node rfl, commutesItems_iff h items]
  | .newArray element (some size) (some items) => by
      have hnode : Commutes r (.newArray element (some size) (some items)) ↔
          Commutes r size ∧ CommutesItems r items :=
        ⟨fun he => ⟨Option.some.inj (Expr.newArray.inj he).2.1,
            Option.some.inj (Expr.newArray.inj he).2.2⟩,
          fun ⟨hs, hi⟩ => congrArg₂ (fun s i => Expr.newArray element (some s) (some i)) hs hi⟩
      rw [hnode, Expr.visited, unshadowed_node rfl, unshadowed_append, commutes_iff h size,
        commutesItems_iff h items]
  | .arrayInit items => by
      have hnode : Commutes r (.arrayInit items) ↔ CommutesItems r items :=
        ⟨Expr.arrayInit.inj, congrArg Expr.arrayInit⟩
      rw [hnode, Expr.visited, unshadowed_node rfl, commutesItems_iff h items]
  | .index target index => by
      have hnode : Commutes r (.index target index) ↔ Commutes r target ∧ Commutes r index :=
        ⟨Expr.index.inj, fun ⟨ht, hi⟩ => congrArg₂ Expr.index ht hi⟩
      rw [hnode, Expr.visited, unshadowed_node rfl, unshadowed_append, commutes_iff h target,
        commutes_iff h index]
  | .cast type operand => by
      have hnode : Commutes r (.cast type operand) ↔ Commutes r operand :=
        ⟨fun he => (Expr.cast.inj he).2, congrArg (Expr.cast type)⟩
      rw [hnode, Expr.visited, unshadowed_node rfl, commutes_iff h operand]
  | .conditional test yes no => by
      have hnode : Commutes r (.conditional test yes no) ↔
          (Commutes r test ∧ Commutes r yes) ∧ Commutes r no := by
        simp [Commutes, renameExpr, Expr.mapPost, toOperator, renameIdent, and_assoc]
      rw [hnode, Expr.visited, unshadowed_node rfl, unshadowed_append, unshadowed_append,
        commutes_iff h test, commutes_iff h yes, commutes_iff h no]
  | .lambda params (.expr e) span => by
      have hnode : Commutes r (.lambda params (.expr e) span) ↔ Commutes r e :=
        ⟨fun he => LambdaBody.expr.inj (Expr.lambda.inj he).2.1,
          congrArg fun e => Expr.lambda params (.expr e) span⟩
      rw [hnode, Expr.visited, unshadowed_node rfl, commutes_iff h e]
  | .newArray _ none none | .lambda _ (.block _) _ | .ident _ | .self | .literal _ | .base _
  | .null _ | .query _ | .typeTest _ _ _ _ | .typeOf _ _ | .sizeOf _ _ | .deref _ _
  | .addressOf _ _ | .arrow _ _ _ | .stackAlloc _ _ _ | .anonymous _ _ =>
      iff_of_true rfl (unshadowed_leaf rfl)

theorem commutesArgs_iff (h : r.Hides locals) : (args : List (Arg Expr)) →
    (CommutesArgs r args ↔ Unshadowed locals (visitedArgs args))
  | [] => iff_of_true rfl nofun
  | ⟨label, e⟩ :: rest => by
      have hnode : CommutesArgs r (⟨label, e⟩ :: rest) ↔ Commutes r e ∧ CommutesArgs r rest := by
        simp [CommutesArgs, mapArgs, Commutes, renameExpr]
      rw [hnode, visitedArgs, unshadowed_append, commutes_iff h e, commutesArgs_iff h rest]

theorem commutesItems_iff (h : r.Hides locals) : (items : List Expr) →
    (CommutesItems r items ↔ Unshadowed locals (visitedItems items))
  | [] => iff_of_true rfl nofun
  | e :: rest => by
      have hnode : CommutesItems r (e :: rest) ↔ Commutes r e ∧ CommutesItems r rest :=
        ⟨List.cons.inj, fun ⟨he, hr⟩ => congrArg₂ List.cons he hr⟩
      rw [hnode, visitedItems, unshadowed_append, commutes_iff h e, commutesItems_iff h rest]

end

end

end ShaderCompiler
