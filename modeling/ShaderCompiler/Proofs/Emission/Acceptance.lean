import ShaderCompiler.Proofs.Emission.Derivations
import ShaderCompiler.Proofs.Emission.PrunedText

namespace ShaderCompiler

theorem rejections_pruned_type (t : TypeRef) : t.pruned.rejections = [] := rfl

theorem labelRejections_eq_nil {args : List (Arg Expr)} (h : hasLabel args = false) :
    labelRejections (prunedArgs args) = [] := by
  rw [labelRejections, hasLabel_prunedArgs, h]
  rfl

theorem rejections_pruned_call {ctx : ClassContext} {receiver : Option Expr} {name : String}
    {args : List (Arg Expr)}
    (hreceiver : receiver = none ∨ receiver = some .self ∨ ∃ owner, receiver = some (.ident owner))
    (hlabel : hasLabel args = false)
    (hargs : isVerbatimCall ctx receiver name args = true ∨
      rejectionsOfArgs ctx (prunedArgs args) = []) :
    (Expr.call receiver name args).pruned.rejections ctx = [] := by
  have hrest : labelRejections (prunedArgs args) ++
      (if isVerbatimCall ctx (receiver.map Expr.pruned) name (prunedArgs args) then []
        else rejectionsOfArgs ctx (prunedArgs args)) = [] := by
    rw [labelRejections_eq_nil hlabel, isVerbatimCall_pruned]
    obtain h | h := hargs <;> simp [h]
  rw [Expr.pruned_call]
  obtain rfl | rfl | ⟨owner, rfl⟩ := hreceiver <;> exact hrest

variable {f : Frame}

mutual

/-- An expression that has a text holds nothing without a form, where emission looks. -/
theorem Renders.rejections_pruned {hint : Option ScalarKind} {e : Expr} {u v : Uses}
    {r : Rendered} :
    Renders f hint e u r v → e.pruned.rejections f.context = []
  | .assign _ htarget hvalue | .assignMod _ htarget hvalue => by
      rw [Expr.pruned_assign, Expr.rejections, htarget.rejections_pruned, hvalue.rejections_pruned]
      rfl
  | .binary _ hlhs hrhs | .binaryMod _ hlhs hrhs => by
      rw [Expr.pruned_binary, Expr.rejections, hlhs.rejections_pruned, hrhs.rejections_pruned]
      rfl
  | .trailing _ hoperand | .leading _ hoperand => by
      rw [Expr.pruned_unary, Expr.rejections, hoperand.rejections_pruned]
  | .conditional htest hyes hno => by
      rw [Expr.pruned_conditional, Expr.rejections, htest.rejections_pruned,
        hyes.rejections_pruned, hno.rejections_pruned]
      rfl
  | .verbatim hform =>
      rejections_pruned_call hform.receiver_eq hform.label (.inl hform.isVerbatimCall_of_verbatim)
  | .zeroCall hform => rejections_pruned_call hform.receiver_eq hform.label (.inr rfl)
  | .constructCall hform hargs | .intrinsic hform hargs | .own hform hargs | .foreign hform hargs =>
      rejections_pruned_call hform.receiver_eq hform.label (.inr hargs.rejections_pruned)
  | .zero _ => by
      rw [Expr.pruned_construct, Expr.rejections, rejections_pruned_type]
      rfl
  | .construct hlabel _ hargs => by
      rw [Expr.pruned_construct, Expr.rejections, rejections_pruned_type,
        labelRejections_eq_nil hlabel, hargs.rejections_pruned]
      rfl
  | .member _ htarget _ => by
      rw [Expr.pruned_member, Expr.rejections, htarget.rejections_pruned]
  | .newArray _ hitems => by
      rw [Expr.pruned_newArray_items, Expr.rejections, rejections_pruned_type,
        hitems.rejections_pruned]
      rfl
  | .index htarget hindex => by
      rw [Expr.pruned_index, Expr.rejections, htarget.rejections_pruned, hindex.rejections_pruned]
      rfl
  | .cast hpointer _ hoperand => by
      rw [Expr.pruned_cast, Expr.rejections, TypeRef.rejections, if_neg hpointer,
        hoperand.rejections_pruned]
      rfl
  | .literal (l := l) htext => by
      cases l with
      | str text => cases htext
      | _ => rfl
  | .ident | .selfMember => rfl

theorem RendersArgs.rejections_pruned {hints : List (Option ScalarKind)} {args : List (Arg Expr)}
    {u v : Uses} {ts : List String} :
    RendersArgs f hints args u ts v → rejectionsOfArgs f.context (prunedArgs args) = []
  | .nil => rfl
  | .cons hvalue hrest => by
      rw [prunedArgs_cons, rejectionsOfArgs, hvalue.rejections_pruned, hrest.rejections_pruned]
      rfl

theorem RendersItems.rejections_pruned {hint : Option ScalarKind} {items : List Expr}
    {u v : Uses} {ts : List String} :
    RendersItems f hint items u ts v → rejectionsOfItems f.context (prunedItems items) = []
  | .nil => rfl
  | .cons hitem hrest => by
      rw [prunedItems_cons, rejectionsOfItems, hitem.rejections_pruned, hrest.rejections_pruned]
      rfl

end

end ShaderCompiler
