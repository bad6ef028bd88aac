import ShaderCompiler.Proofs.Emission.Derivations
import ShaderCompiler.Proofs.Emission.Operands

namespace ShaderCompiler

open Token

mutual

def Expr.steps (mark : Symbol) : Expr → Nat
  | .assign _ target value => target.steps mark + value.steps mark
  | .binary _ lhs rhs => lhs.steps mark + rhs.steps mark
  | .unary op operand => (if op.mark = mark then 1 else 0) + operand.steps mark
  | .call receiver _ args => stepsOfExpr? mark receiver + stepsOfArgs mark args
  | .member target _ => target.steps mark
  | .construct _ args => stepsOfArgs mark args
  | .newArray _ size none => stepsOfExpr? mark size
  | .newArray _ size (some items) => stepsOfExpr? mark size + stepsOfItems mark items
  | .arrayInit items => stepsOfItems mark items
  | .index target index => target.steps mark + index.steps mark
  | .cast _ operand => operand.steps mark
  | .conditional test yes no => test.steps mark + yes.steps mark + no.steps mark
  | .lambda _ (.expr e) _ => e.steps mark
  | .lambda _ (.block body) _ => stepsIn mark body
  | .typeTest _ operand _ _ | .deref operand _ | .addressOf operand _ => operand.steps mark
  | .arrow target _ _ => target.steps mark
  | .stackAlloc _ size _ => size.steps mark
  | .anonymous members _ => stepsOfMembers mark members
  | .ident _ | .self | .literal _ | .base _ | .null _ | .query _ | .typeOf _ _ | .sizeOf _ _ => 0

def stepsOfExpr? (mark : Symbol) : Option Expr → Nat
  | none => 0
  | some e => e.steps mark

def stepsOfArgs (mark : Symbol) : List (Arg Expr) → Nat
  | [] => 0
  | ⟨_, e⟩ :: rest => e.steps mark + stepsOfArgs mark rest

def stepsOfItems (mark : Symbol) : List Expr → Nat
  | [] => 0
  | e :: rest => e.steps mark + stepsOfItems mark rest

def stepsOfMembers (mark : Symbol) : List (String × Expr) → Nat
  | [] => 0
  | (_, e) :: rest => e.steps mark + stepsOfMembers mark rest

def Stmt.steps (mark : Symbol) : Stmt → Nat
  | .block body => stepsIn mark body
  | .ifElse test yes no => test.steps mark + yes.steps mark + stepsOfStmt? mark no
  | .whileLoop test body => test.steps mark + body.steps mark
  | .doWhile body test => body.steps mark + test.steps mark
  | .forLoop init test step body =>
      stepsIn mark init + stepsOfExpr? mark test + stepsOfItems mark step + body.steps mark
  | .switch scrutinee sections => scrutinee.steps mark + stepsInSections mark sections
  | .ret value => stepsOfExpr? mark value
  | .declare _ _ declarators => stepsOfDeclarators mark declarators
  | .eval e => e.steps mark
  | .tryCatch body catches none _ => stepsIn mark body + stepsInCatches mark catches
  | .tryCatch body catches (some final) _ =>
      stepsIn mark body + stepsInCatches mark catches + stepsIn mark final
  | .throw value _ => stepsOfExpr? mark value
  | .foreach _ _ iterable body _ => iterable.steps mark + body.steps mark
  | .lock target body _ => target.steps mark + body.steps mark
  | .using resource body _ => resource.steps mark + body.steps mark
  | .goto (.value e) _ => e.steps mark
  | .goto (.label _) _ | .goto .default _ => 0
  | .labeled _ stmt _ => stmt.steps mark
  | .yield value _ => stepsOfExpr? mark value
  | .unmanaged body _ => stepsIn mark body
  | .fixed decl body _ => decl.steps mark + body.steps mark
  | .attributed _ stmt _ => stmt.steps mark
  | .empty | .brk | .cont | .discard => 0

def stepsOfStmt? (mark : Symbol) : Option Stmt → Nat
  | none => 0
  | some s => s.steps mark

def stepsIn (mark : Symbol) : List Stmt → Nat
  | [] => 0
  | s :: rest => s.steps mark + stepsIn mark rest

def stepsInSections (mark : Symbol) : List (SwitchSection Expr Stmt) → Nat
  | [] => 0
  | ⟨labels, body⟩ :: rest =>
      stepsOfLabels mark labels + stepsIn mark body + stepsInSections mark rest

def stepsOfLabels (mark : Symbol) : List (CaseLabel Expr) → Nat
  | [] => 0
  | .value e :: rest => e.steps mark + stepsOfLabels mark rest
  | .default :: rest => stepsOfLabels mark rest

def stepsOfDeclarators (mark : Symbol) : List (Declarator Expr) → Nat
  | [] => 0
  | ⟨_, init⟩ :: rest => stepsOfExpr? mark init + stepsOfDeclarators mark rest

def stepsInCatches (mark : Symbol) : List (CatchClause Stmt) → Nat
  | [] => 0
  | ⟨_, _, body⟩ :: rest => stepsIn mark body + stepsInCatches mark rest

end

mutual

/-- The expressions that are written out with one, which is the first. The size beside the items of
an array is not, and neither is the receiver of a call. -/
def Expr.emitted : Expr → List Expr
  | .assign op target value => .assign op target value :: (target.emitted ++ value.emitted)
  | .binary op lhs rhs => .binary op lhs rhs :: (lhs.emitted ++ rhs.emitted)
  | .unary op operand => .unary op operand :: operand.emitted
  | .call receiver name args => .call receiver name args :: emittedArgs args
  | .member target name => .member target name :: target.emitted
  | .construct type args => .construct type args :: emittedArgs args
  | .newArray element size (some items) =>
      .newArray element size (some items) :: emittedItems items
  | .index target index => .index target index :: (target.emitted ++ index.emitted)
  | .cast type operand => .cast type operand :: operand.emitted
  | .conditional test yes no =>
      .conditional test yes no :: (test.emitted ++ yes.emitted ++ no.emitted)
  | e => [e]

def emittedArgs : List (Arg Expr) → List Expr
  | [] => []
  | ⟨_, e⟩ :: rest => e.emitted ++ emittedArgs rest

def emittedItems : List Expr → List Expr
  | [] => []
  | e :: rest => e.emitted ++ emittedItems rest

end

mutual

/-- How often the mark of a step is written. The target of a floating remainder is written twice. -/
def Expr.marks (f : Frame) (mark : Symbol) : Expr → Nat
  | .assign op target value =>
      (if op = .rem ∧ !f.integralPair target value then target.marks f mark else 0) +
        (target.marks f mark + value.marks f mark)
  | .binary _ lhs rhs => lhs.marks f mark + rhs.marks f mark
  | .unary op operand => (if op.mark = mark then 1 else 0) + operand.marks f mark
  | .call _ _ args => marksOfArgs f mark args
  | .member target _ => target.marks f mark
  | .construct _ args => marksOfArgs f mark args
  | .newArray _ _ (some items) => marksOfItems f mark items
  | .index target index => target.marks f mark + index.marks f mark
  | .cast _ operand => operand.marks f mark
  | .conditional test yes no => test.marks f mark + yes.marks f mark + no.marks f mark
  | _ => 0

def marksOfArgs (f : Frame) (mark : Symbol) : List (Arg Expr) → Nat
  | [] => 0
  | ⟨_, e⟩ :: rest => e.marks f mark + marksOfArgs f mark rest

def marksOfItems (f : Frame) (mark : Symbol) : List Expr → Nat
  | [] => 0
  | e :: rest => e.marks f mark + marksOfItems f mark rest

end

namespace Expr

/-- The steps that are left out with the size beside the items of an array. -/
def lostSteps (mark : Symbol) : Expr → Nat
  | .newArray _ size (some _) => stepsOfExpr? mark size
  | _ => 0

/-- The marks that are written once more with the target of a floating remainder. -/
def repeatedMarks (f : Frame) (mark : Symbol) : Expr → Nat
  | .assign op target value =>
      if op = .rem ∧ !f.integralPair target value then target.marks f mark else 0
  | _ => 0

/-- The names that are written with the expression are words, and the count of its items is a
number that can be read. -/
def isSpelt : Expr → Bool
  | .ident name | .member _ name | .call _ name _ => isWord name
  | .construct type _ | .cast type _ => isWord type.name
  | .newArray element _ (some items) =>
      isWord element.name && decide (items.length < UInt64.size)
  | _ => true

end Expr

def totalOf (count : Expr → Nat) : List Expr → Nat
  | [] => 0
  | e :: es => count e + totalOf count es

theorem totalOf_append (count : Expr → Nat) (es es' : List Expr) :
    totalOf count (es ++ es') = totalOf count es + totalOf count es' := by
  induction es with
  | nil => exact (Nat.zero_add _).symm
  | cons e es ih => rw [List.cons_append, totalOf, totalOf, ih, Nat.add_assoc]

/-- What is written and what is lost make up the steps and what is repeated. -/
def Balanced (f : Frame) (mark : Symbol) (marks steps : Nat) (es : List Expr) : Prop :=
  marks + totalOf (Expr.lostSteps mark) es = steps + totalOf (Expr.repeatedMarks f mark) es

namespace Balanced

variable {f : Frame} {mark : Symbol} {m m' n n' : Nat} {es es' : List Expr}

theorem nil : Balanced f mark 0 0 [] := rfl

theorem append (h : Balanced f mark m n es) (h' : Balanced f mark m' n' es') :
    Balanced f mark (m + m') (n + n') (es ++ es') := by
  unfold Balanced at h h' ⊢
  rw [totalOf_append, totalOf_append]
  omega

theorem add (h : Balanced f mark m n es) (k : Nat) : Balanced f mark (k + m) (k + n) es := by
  unfold Balanced at h ⊢
  omega

theorem cons (h : Balanced f mark m n es) (e : Expr) :
    Balanced f mark (e.repeatedMarks f mark + m) (e.lostSteps mark + n) (e :: es) := by
  unfold Balanced at h ⊢
  rw [totalOf, totalOf]
  omega

theorem cons_plain (h : Balanced f mark m n es) {e : Expr} (hl : e.lostSteps mark = 0)
    (hr : e.repeatedMarks f mark = 0) : Balanced f mark m n (e :: es) := by
  have he := h.cons e
  rwa [hl, hr, Nat.zero_add, Nat.zero_add] at he

end Balanced

theorem isWord_of_lookup? {name : String} {t : BuiltinType} (h : Vocabulary.lookup? name = some t) :
    isWord t.name = true := by
  have hall : ∀ t ∈ Vocabulary.all, isWord t.name = true := by decide +kernel
  unfold Vocabulary.lookup? Vocabulary.find? at h
  exact hall t (List.mem_of_find?_eq_some h)

theorem isWord_of_resolveType {ctx : ClassContext} {name target : String}
    (hname : isWord name = true) (h : ctx.resolveType name = .ok target) :
    isWord target = true := by
  unfold ClassContext.resolveType at h
  split at h
  · cases h
    exact hname
  · split at h
    · next hlookup =>
        cases h
        obtain ⟨t, ht, rfl⟩ := Option.map_eq_some_iff.mp hlookup
        exact isWord_of_lookup? ht
    · cases h

def Construction.IsSpelt : Construction → Prop
  | .zero type text => isWord type = true ∧ ∃ kind : ScalarKind, text = kind.zero
  | .ofArgs type _ => isWord type = true

def CallForm.IsSpelt : CallForm → Prop
  | .verbatim _ => False
  | .construct form => form.IsSpelt
  | .intrinsic name _ | .own name _ => isWord name = true
  | .foreign _ => True

theorem ConstructsAs.isSpelt {f : Frame} {type : String} {args : List (Arg Expr)}
    {form : Construction} (htype : isWord type = true) (h : ConstructsAs f type args form) :
    form.IsSpelt := by
  cases h with
  | struct => exact htype
  | @zero builtin kind _ hbuiltin => exact ⟨isWord_of_lookup? hbuiltin, kind, rfl⟩
  | builtin _ hbuiltin => exact isWord_of_lookup? hbuiltin

theorem CallsAs.isSpelt {f : Frame} {receiver : Option Expr} {name : String}
    {args : List (Arg Expr)} {form : CallForm} (hname : isWord name = true)
    (hverbatim : name ≠ Intrinsic.verbatim) (h : CallsAs f name args receiver form) :
    form.IsSpelt := by
  cases h with
  | qualified => trivial
  | bare _ _ hform =>
      cases hform with
      | verbatim => exact absurd rfl hverbatim
      | own | intrinsic => exact hname
      | construct _ _ _ hform => exact hform.isSpelt hname
      | foreign => trivial

def AllSpelt (es : List Expr) : Prop := ∀ e ∈ es, e.isSpelt = true ∧ e.isVerbatim = false

theorem allSpelt_append {es es' : List Expr} (h : AllSpelt (es ++ es')) :
    AllSpelt es ∧ AllSpelt es' := List.forall_mem_append.mp h

theorem allSpelt_cons {e : Expr} {es : List Expr} (h : AllSpelt (e :: es)) :
    (e.isSpelt = true ∧ e.isVerbatim = false) ∧ AllSpelt es := List.forall_mem_cons.mp h

/-- The text is an operand with the marks of the expression, which are the steps up to what is lost
and what is repeated. -/
structure Counted (f : Frame) (mark : Symbol) (e : Expr) (text : String) : Prop where
  operand : Operand mark text (e.marks f mark)
  balance : Balanced f mark (e.marks f mark) (e.steps mark) e.emitted

structure CountedArgs (f : Frame) (mark : Symbol) (args : List (Arg Expr)) (texts : List String) :
    Prop where
  operands : Operands mark texts (marksOfArgs f mark args)
  balance : Balanced f mark (marksOfArgs f mark args) (stepsOfArgs mark args) (emittedArgs args)

structure CountedItems (f : Frame) (mark : Symbol) (items : List Expr) (texts : List String) :
    Prop where
  operands : Operands mark texts (marksOfItems f mark items)
  balance : Balanced f mark (marksOfItems f mark items) (stepsOfItems mark items)
    (emittedItems items)

section

variable {f : Frame} {mark : Symbol}

theorem Counted.balance_assign {target value : Expr} {a b : String} (op : AssignOp)
    (ht : Counted f mark target a) (hv : Counted f mark value b) :
    Balanced f mark ((Expr.assign op target value).marks f mark)
      ((Expr.assign op target value).steps mark) (Expr.assign op target value).emitted := by
  have hnode := (ht.balance.append hv.balance).cons (.assign op target value)
  have hlost : Expr.lostSteps mark (.assign op target value) = 0 := rfl
  rwa [hlost, Nat.zero_add] at hnode

variable (hmark : mark.isStep = true)

include hmark

theorem Counted.assign {op : AssignOp} {target value : Expr} {l r : Rendered}
    (hrem : ¬(op = .rem ∧ !f.integralPair target value)) (ht : Counted f mark target l.text)
    (hv : Counted f mark value r.text) :
    Counted f mark (.assign op target value)
      (l.fit Precedence.unary ++ " " ++ op.symbol ++ " " ++ r.fit Precedence.assign) := by
  refine ⟨?_, ht.balance_assign op hv⟩
  rw [Expr.marks, if_neg hrem, Nat.zero_add, ← op.mark_text]
  exact (operand_fit hmark ht.operand _).infixed (operand_fit hmark hv.operand _)
    (Symbol.ne_of_isStep hmark (by cases op <;> rfl))

theorem Counted.assignMod {op : AssignOp} {target value : Expr} {l r : Rendered}
    (hrem : op = .rem ∧ !f.integralPair target value) (ht : Counted f mark target l.text)
    (hv : Counted f mark value r.text) :
    Counted f mark (.assign op target value)
      (l.fit Precedence.unary ++ " = mod(" ++ l.fit Precedence.unary ++ ", " ++ r.text ++ ")") := by
  refine ⟨?_, ht.balance_assign op hv⟩
  rw [Expr.marks, if_pos hrem]
  exact operand_remainder hmark (operand_fit hmark ht.operand _) hv.operand

theorem Counted.binary {op : BinaryOp} {lhs rhs : Expr} {l r : Rendered}
    (hl : Counted f mark lhs l.text) (hr : Counted f mark rhs r.text) :
    Counted f mark (.binary op lhs rhs)
      (l.fit op.precedence ++ " " ++ op.symbol ++ " " ++ r.fit (op.precedence + 1)) := by
  refine ⟨?_, (hl.balance.append hr.balance).cons_plain rfl rfl⟩
  rw [← op.mark_text]
  exact (operand_fit hmark hl.operand _).infixed (operand_fit hmark hr.operand _)
    (Symbol.ne_of_isStep hmark (by cases op <;> rfl))

theorem Counted.trailing {op : UnaryOp} {operand : Expr} {o : Rendered}
    (hop : op.isTrailing = true) (ho : Counted f mark operand o.text) :
    Counted f mark (.unary op operand) (o.fit Precedence.primary ++ op.symbol) := by
  refine ⟨?_, (ho.balance.add _).cons_plain rfl rfl⟩
  rw [Expr.marks, Nat.add_comm]
  exact operand_trailing hop (operand_fit hmark ho.operand _)

theorem countedArgs_zero (kind : ScalarKind) : CountedArgs f mark [] [kind.zero] :=
  ⟨.cons (operand_zero hmark kind) .nil, .nil⟩

theorem Counted.call {receiver : Option Expr} {name callee : String} {args : List (Arg Expr)}
    {texts : List String}
    (hreceiver : receiver = none ∨ receiver = some .self ∨ ∃ owner, receiver = some (.ident owner))
    (hcallee : isWord callee = true) (h : CountedArgs f mark args texts) :
    Counted f mark (.call receiver name args) (applied callee texts).text := by
  refine ⟨operand_applied hmark hcallee h.operands, ?_⟩
  have hsteps : Expr.steps mark (.call receiver name args) = stepsOfArgs mark args := by
    obtain rfl | rfl | ⟨owner, rfl⟩ := hreceiver <;> exact Nat.zero_add _
  rw [hsteps]
  exact h.balance.cons_plain rfl rfl

theorem Counted.construct {type : TypeRef} {callee : String} {args : List (Arg Expr)}
    {texts : List String} (hcallee : isWord callee = true) (h : CountedArgs f mark args texts) :
    Counted f mark (.construct type args) (applied callee texts).text :=
  ⟨operand_applied hmark hcallee h.operands, h.balance.cons_plain rfl rfl⟩

theorem Counted.newArray {element : TypeRef} {size : Option Expr} {items : List Expr}
    {type : String} {texts : List String} (htype : isWord type = true)
    (hlength : texts.length < UInt64.size) (h : CountedItems f mark items texts) :
    Counted f mark (.newArray element size (some items)) (arrayText type texts) := by
  refine ⟨operand_array hmark htype hlength h.operands, ?_⟩
  have hnode := h.balance.cons (.newArray element size (some items))
  have hrepeated : Expr.repeatedMarks f mark (.newArray element size (some items)) = 0 := rfl
  rwa [hrepeated, Nat.zero_add] at hnode

end

theorem ne_verbatim_of_isVerbatim {receiver : Option Expr} {name : String} {args : List (Arg Expr)}
    (h : (Expr.call receiver name args).isVerbatim = false) : name ≠ Intrinsic.verbatim := by
  simpa [Expr.isVerbatim] using h

mutual

theorem Renders.counted {mark : Symbol} (hmark : mark.isStep = true) {f : Frame}
    {hint : Option ScalarKind} {e : Expr} {u v : Uses} {r : Rendered} :
    Renders f hint e u r v → AllSpelt e.emitted → Counted f mark e r.text
  | .assign hrem htarget hvalue, hspelt => by
      obtain ⟨hst, hsv⟩ := allSpelt_append (allSpelt_cons hspelt).2
      exact .assign hmark hrem (htarget.counted hmark hst) (hvalue.counted hmark hsv)
  | .assignMod hrem htarget hvalue, hspelt => by
      obtain ⟨hst, hsv⟩ := allSpelt_append (allSpelt_cons hspelt).2
      exact .assignMod hmark hrem (htarget.counted hmark hst) (hvalue.counted hmark hsv)
  | .binary _ hlhs hrhs, hspelt => by
      obtain ⟨hsl, hsr⟩ := allSpelt_append (allSpelt_cons hspelt).2
      exact .binary hmark (hlhs.counted hmark hsl) (hrhs.counted hmark hsr)
  | .binaryMod _ hlhs hrhs, hspelt => by
      obtain ⟨hsl, hsr⟩ := allSpelt_append (allSpelt_cons hspelt).2
      have hcl := hlhs.counted hmark hsl
      have hcr := hrhs.counted hmark hsr
      exact ⟨operand_applied hmark (by decide) (.cons hcl.operand (.cons hcr.operand .nil)),
        (hcl.balance.append hcr.balance).cons_plain rfl rfl⟩
  | .trailing hop hoperand, hspelt =>
      .trailing hmark hop (hoperand.counted hmark (allSpelt_cons hspelt).2)
  | .leading _ hoperand, hspelt => by
      have hco := hoperand.counted hmark (allSpelt_cons hspelt).2
      exact ⟨operand_leading _ hmark (operand_fit hmark hco.operand _),
        (hco.balance.add _).cons_plain rfl rfl⟩
  | .conditional htest hyes hno, hspelt => by
      obtain ⟨hspelt, hsn⟩ := allSpelt_append (allSpelt_cons hspelt).2
      obtain ⟨hst, hsy⟩ := allSpelt_append hspelt
      have hct := htest.counted hmark hst
      have hcy := hyes.counted hmark hsy
      have hcn := hno.counted hmark hsn
      refine ⟨?_, ((hct.balance.append hcy.balance).append hcn.balance).cons_plain rfl rfl⟩
      exact operand_conditional hmark (operand_fit hmark hct.operand _)
        (operand_fit hmark hcy.operand _) (operand_fit hmark hcn.operand _)
  | .verbatim hform, hspelt => by
      obtain ⟨⟨hname, hverbatim⟩, -⟩ := allSpelt_cons hspelt
      exact (hform.isSpelt hname (ne_verbatim_of_isVerbatim hverbatim)).elim
  | .zeroCall hform, hspelt => by
      obtain ⟨⟨hname, hverbatim⟩, -⟩ := allSpelt_cons hspelt
      obtain ⟨htype, kind, rfl⟩ := hform.isSpelt hname (ne_verbatim_of_isVerbatim hverbatim)
      exact .call hmark hform.receiver_eq htype (countedArgs_zero hmark kind)
  | .constructCall hform hargs, hspelt | .intrinsic hform hargs, hspelt
  | .own hform hargs, hspelt => by
      obtain ⟨⟨hname, hverbatim⟩, hsa⟩ := allSpelt_cons hspelt
      have hcallee := hform.isSpelt hname (ne_verbatim_of_isVerbatim hverbatim)
      exact .call hmark hform.receiver_eq hcallee (hargs.counted hmark hsa)
  | .foreign hform hargs, hspelt => by
      obtain ⟨⟨hname, -⟩, hsa⟩ := allSpelt_cons hspelt
      exact .call hmark hform.receiver_eq hname (hargs.counted hmark hsa)
  | .zero hform, hspelt => by
      obtain ⟨hname, kind, rfl⟩ := hform.isSpelt (allSpelt_cons hspelt).1.1
      exact .construct hmark hname (countedArgs_zero hmark kind)
  | .construct _ hform hargs, hspelt => by
      obtain ⟨⟨htype, -⟩, hsa⟩ := allSpelt_cons hspelt
      exact .construct hmark (hform.isSpelt htype) (hargs.counted hmark hsa)
  | .selfMember, hspelt =>
      ⟨operand_word (allSpelt_cons hspelt).1.1, Balanced.nil.cons_plain rfl rfl⟩
  | .member _ htarget htext, hspelt => by
      obtain ⟨⟨hname, -⟩, hst⟩ := allSpelt_cons hspelt
      have hct := htarget.counted hmark hst
      exact ⟨operand_memberText hmark (operand_fit hmark hct.operand _) hname htext,
        hct.balance.cons_plain rfl rfl⟩
  | .newArray htype hitems, hspelt => by
      obtain ⟨⟨hnode, -⟩, hsi⟩ := allSpelt_cons hspelt
      simp only [Expr.isSpelt, Bool.and_eq_true, decide_eq_true_eq] at hnode
      exact .newArray hmark (isWord_of_resolveType hnode.1 htype) (hitems.length ▸ hnode.2)
        (hitems.counted hmark hsi)
  | .index htarget hindex, hspelt => by
      obtain ⟨hst, hsi⟩ := allSpelt_append (allSpelt_cons hspelt).2
      have hct := htarget.counted hmark hst
      have hci := hindex.counted hmark hsi
      exact ⟨operand_index hmark (operand_fit hmark hct.operand _) hci.operand,
        (hct.balance.append hci.balance).cons_plain rfl rfl⟩
  | .cast _ hname hoperand, hspelt => by
      obtain ⟨⟨htype, -⟩, hso⟩ := allSpelt_cons hspelt
      have hco := hoperand.counted hmark hso
      have hword := isWord_of_resolveType htype hname
      exact ⟨operand_applied hmark hword (.cons hco.operand .nil), hco.balance.cons_plain rfl rfl⟩
  | .literal htext, _ => ⟨operand_literalText hmark htext, Balanced.nil.cons_plain rfl rfl⟩
  | .ident, hspelt => ⟨operand_word (allSpelt_cons hspelt).1.1, Balanced.nil.cons_plain rfl rfl⟩

theorem RendersArgs.counted {mark : Symbol} (hmark : mark.isStep = true) {f : Frame}
    {hints : List (Option ScalarKind)} {args : List (Arg Expr)} {u v : Uses} {ts : List String} :
    RendersArgs f hints args u ts v → AllSpelt (emittedArgs args) → CountedArgs f mark args ts
  | .nil, _ => ⟨.nil, .nil⟩
  | .cons hvalue hrest, hspelt => by
      rw [emittedArgs] at hspelt
      obtain ⟨hse, hsr⟩ := allSpelt_append hspelt
      have hce := hvalue.counted hmark hse
      have hcr := hrest.counted hmark hsr
      exact ⟨.cons hce.operand hcr.operands, hce.balance.append hcr.balance⟩

theorem RendersItems.counted {mark : Symbol} (hmark : mark.isStep = true) {f : Frame}
    {hint : Option ScalarKind} {items : List Expr} {u v : Uses} {ts : List String} :
    RendersItems f hint items u ts v → AllSpelt (emittedItems items) →
      CountedItems f mark items ts
  | .nil, _ => ⟨.nil, .nil⟩
  | .cons hitem hrest, hspelt => by
      rw [emittedItems] at hspelt
      obtain ⟨hse, hsr⟩ := allSpelt_append hspelt
      have hce := hitem.counted hmark hse
      have hcr := hrest.counted hmark hsr
      exact ⟨.cons hce.operand hcr.operands, hce.balance.append hcr.balance⟩

end

theorem Operand.exists_tokens {mark : Symbol} {text : String} {n : Nat} (h : Operand mark text n) :
    ∃ tokens, tokenize text = .ok tokens ∧ countMark mark tokens = n := by
  have hreads := h.cuts [] 0 rfl reads_nil
  rw [List.append_nil] at hreads
  exact hreads .origin

/-- The text of an expression is read as tokens, and among these each step has its mark once,
except that the steps in a size beside the items of an array are lost, and that the marks in the
target of a floating remainder are repeated. -/
theorem countMark_of_render (f : Frame) (hint : Option ScalarKind) (e : Expr) {u u' : Uses}
    {r : Rendered} (hspelt : ∀ x ∈ e.emitted, x.isSpelt = true)
    (hverbatim : ∀ x ∈ e.emitted, x.isVerbatim = false)
    (h : render f hint e u = .ok (r, u')) :
    ∃ tokens, tokenize r.text = .ok tokens ∧ ∀ mark : Symbol, mark.isStep = true →
      countMark mark tokens = e.marks f mark ∧
      countMark mark tokens + totalOf (Expr.lostSteps mark) e.emitted =
        e.steps mark + totalOf (Expr.repeatedMarks f mark) e.emitted := by
  have hcounted {mark : Symbol} (hmark : mark.isStep = true) : Counted f mark e r.text :=
    (renders_of_render h).counted hmark fun x hx => ⟨hspelt x hx, hverbatim x hx⟩
  obtain ⟨tokens, htokens, -⟩ := (@hcounted .plusPlus rfl).operand.exists_tokens
  refine ⟨tokens, htokens, fun mark hmark => ?_⟩
  obtain ⟨tokens', htokens', hcount⟩ := (hcounted hmark).operand.exists_tokens
  obtain rfl : tokens = tokens' := Except.ok.inj (htokens.symm.trans htokens')
  refine ⟨hcount, ?_⟩
  rw [hcount]
  exact (hcounted hmark).balance

def remainderFrame : Frame where
  env :=
    { context := { className := "Grid" }
      locals := [("i", .named "int"), ("n", .named "int"), ("a", .arrayOf "float"),
        ("b", .named "float")] }
  member := "main"

/-- `a[i++] %= new float[--n] { b }[0]` -/
def remainderExpr : Expr :=
  .assign .rem (.index (.ident "a") (.unary .postInc (.ident "i")))
    (.index (.newArray { name := "float" } (some (.unary .preDec (.ident "n"))) (some [.ident "b"]))
      (.literal (.int 0)))

/-- The increment is written twice, and the decrement is not written at all. -/
theorem countMark_of_render_remainderExpr :
    ∃ tokens, tokenize "a[i++] = mod(a[i++], float[1](b)[0])" = .ok tokens ∧
      countMark .plusPlus tokens = 2 ∧ remainderExpr.steps .plusPlus = 1 ∧
      countMark .minusMinus tokens = 0 ∧ remainderExpr.steps .minusMinus = 1 := by
  have hspelt : ∀ x ∈ remainderExpr.emitted, x.isSpelt = true := List.all_eq_true.mp (by rfl)
  have hverbatim : ∀ x ∈ remainderExpr.emitted, x.isVerbatim = false := by
    have h : remainderExpr.emitted.all (!·.isVerbatim) = true := rfl
    simpa using h
  have hrender : render remainderFrame none remainderExpr {} =
      .ok (⟨"a[i++] = mod(a[i++], float[1](b)[0])", Precedence.assign⟩, {}) := by
    rfl
  obtain ⟨tokens, htokens, hcount⟩ :=
    countMark_of_render remainderFrame none remainderExpr hspelt hverbatim hrender
  refine ⟨tokens, htokens, ?_, rfl, ?_, rfl⟩
  · exact (hcount .plusPlus rfl).1
  · exact (hcount .minusMinus rfl).1

end ShaderCompiler
