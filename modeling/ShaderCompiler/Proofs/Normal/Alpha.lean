import Mathlib.Data.List.Forall2
import ShaderCompiler.Normal.Locals
import ShaderCompiler.Proofs.Association

namespace ShaderCompiler

abbrev Pairing := List (String × String)

/-- Two names refer to the two locals of a pair, or they are the same and neither refers to a
local. -/
inductive SameName : Pairing → String → String → Prop
  | free (x : String) : SameName [] x x
  | here (x y : String) (ρ : Pairing) : SameName ((x, y) :: ρ) x y
  | there {x y a b : String} {ρ : Pairing} (hx : x ≠ a) (hy : y ≠ b) (h : SameName ρ x y) :
      SameName ((a, b) :: ρ) x y

mutual

inductive AlphaExpr (ρ : Pairing) : Expr → Expr → Prop
  | assign {t t' v v' : Expr} (op : AssignOp) (ht : AlphaExpr ρ t t') (hv : AlphaExpr ρ v v') :
      AlphaExpr ρ (.assign op t v) (.assign op t' v')
  | binary {a a' b b' : Expr} (op : BinaryOp) (ha : AlphaExpr ρ a a') (hb : AlphaExpr ρ b b') :
      AlphaExpr ρ (.binary op a b) (.binary op a' b')
  | unary {a a' : Expr} (op : UnaryOp) (ha : AlphaExpr ρ a a') :
      AlphaExpr ρ (.unary op a) (.unary op a')
  | call {args args' : List (Arg Expr)} (name : String) (hargs : AlphaArgs ρ args args') :
      AlphaExpr ρ (.call none name args) (.call none name args')
  | callOn {e e' : Expr} {args args' : List (Arg Expr)} (name : String) (he : AlphaExpr ρ e e')
      (hargs : AlphaArgs ρ args args') :
      AlphaExpr ρ (.call (some e) name args) (.call (some e') name args')
  | member {e e' : Expr} (name : String) (he : AlphaExpr ρ e e') :
      AlphaExpr ρ (.member e name) (.member e' name)
  | construct {args args' : List (Arg Expr)} (type : TypeRef) (hargs : AlphaArgs ρ args args') :
      AlphaExpr ρ (.construct type args) (.construct type args')
  | newArray (element : TypeRef) :
      AlphaExpr ρ (.newArray element none none) (.newArray element none none)
  | newArrayOf {n n' : Expr} (element : TypeRef) (hn : AlphaExpr ρ n n') :
      AlphaExpr ρ (.newArray element (some n) none) (.newArray element (some n') none)
  | newArrayWith {es es' : List Expr} (element : TypeRef) (hes : AlphaItems ρ es es') :
      AlphaExpr ρ (.newArray element none (some es)) (.newArray element none (some es'))
  | newArrayOfWith {n n' : Expr} {es es' : List Expr} (element : TypeRef) (hn : AlphaExpr ρ n n')
      (hes : AlphaItems ρ es es') :
      AlphaExpr ρ (.newArray element (some n) (some es)) (.newArray element (some n') (some es'))
  | arrayInit {es es' : List Expr} (hes : AlphaItems ρ es es') :
      AlphaExpr ρ (.arrayInit es) (.arrayInit es')
  | index {a a' i i' : Expr} (ha : AlphaExpr ρ a a') (hi : AlphaExpr ρ i i') :
      AlphaExpr ρ (.index a i) (.index a' i')
  | cast {e e' : Expr} (type : TypeRef) (he : AlphaExpr ρ e e') :
      AlphaExpr ρ (.cast type e) (.cast type e')
  | conditional {c c' a a' b b' : Expr} (hc : AlphaExpr ρ c c') (ha : AlphaExpr ρ a a')
      (hb : AlphaExpr ρ b b') : AlphaExpr ρ (.conditional c a b) (.conditional c' a' b')
  | ident {x y : String} (h : SameName ρ x y) : AlphaExpr ρ (.ident x) (.ident y)
  | self : AlphaExpr ρ .self .self
  | literal (l : Literal) : AlphaExpr ρ (.literal l) (.literal l)

inductive AlphaArgs (ρ : Pairing) : List (Arg Expr) → List (Arg Expr) → Prop
  | nil : AlphaArgs ρ [] []
  | cons {e e' : Expr} {args args' : List (Arg Expr)} (label : Option String)
      (he : AlphaExpr ρ e e') (hargs : AlphaArgs ρ args args') :
      AlphaArgs ρ (⟨label, e⟩ :: args) (⟨label, e'⟩ :: args')

inductive AlphaItems (ρ : Pairing) : List Expr → List Expr → Prop
  | nil : AlphaItems ρ [] []
  | cons {e e' : Expr} {es es' : List Expr} (he : AlphaExpr ρ e e') (hes : AlphaItems ρ es es') :
      AlphaItems ρ (e :: es) (e' :: es')

end

inductive AlphaLabel (ρ : Pairing) : CaseLabel Expr → CaseLabel Expr → Prop
  | value {e e' : Expr} (he : AlphaExpr ρ e e') : AlphaLabel ρ (.value e) (.value e')
  | default : AlphaLabel ρ .default .default

/-- A local is in scope after its own initial value. -/
inductive AlphaDeclarators :
    Pairing → List (Declarator Expr) → List (Declarator Expr) → Pairing → Prop
  | nil (ρ : Pairing) : AlphaDeclarators ρ [] [] ρ
  | cons {ρ ρ' : Pairing} {init init' : Option Expr} {ds ds' : List (Declarator Expr)}
      (x y : String) (hinit : Option.Rel (AlphaExpr ρ) init init')
      (hds : AlphaDeclarators ((x, y) :: ρ) ds ds' ρ') :
      AlphaDeclarators ρ (⟨x, init⟩ :: ds) (⟨y, init'⟩ :: ds') ρ'

mutual

/-- With the locals in force before and after the statements. -/
inductive AlphaStmt : Pairing → Stmt → Stmt → Pairing → Prop
  | block {ρ ρ' : Pairing} {b b' : List Stmt} (hb : AlphaStmts ρ b b' ρ') :
      AlphaStmt ρ (.block b) (.block b') ρ
  | empty (ρ : Pairing) : AlphaStmt ρ .empty .empty ρ
  | ifThen {ρ ρ' : Pairing} {c c' : Expr} {s s' : Stmt} (hc : AlphaExpr ρ c c')
      (hs : AlphaStmt ρ s s' ρ') : AlphaStmt ρ (.ifElse c s none) (.ifElse c' s' none) ρ
  | ifElse {ρ ρ₁ ρ₂ : Pairing} {c c' : Expr} {s s' t t' : Stmt} (hc : AlphaExpr ρ c c')
      (hs : AlphaStmt ρ s s' ρ₁) (ht : AlphaStmt ρ t t' ρ₂) :
      AlphaStmt ρ (.ifElse c s (some t)) (.ifElse c' s' (some t')) ρ
  | whileLoop {ρ ρ' : Pairing} {c c' : Expr} {s s' : Stmt} (hc : AlphaExpr ρ c c')
      (hs : AlphaStmt ρ s s' ρ') : AlphaStmt ρ (.whileLoop c s) (.whileLoop c' s') ρ
  | doWhile {ρ ρ' : Pairing} {c c' : Expr} {s s' : Stmt} (hs : AlphaStmt ρ s s' ρ')
      (hc : AlphaExpr ρ c c') : AlphaStmt ρ (.doWhile s c) (.doWhile s' c') ρ
  | forLoop {ρ ρ₁ ρ₂ : Pairing} {init init' : List Stmt} {test test' : Option Expr}
      {step step' : List Expr} {s s' : Stmt} (hinit : AlphaStmts ρ init init' ρ₁)
      (htest : Option.Rel (AlphaExpr ρ₁) test test')
      (hstep : List.Forall₂ (AlphaExpr ρ₁) step step') (hs : AlphaStmt ρ₁ s s' ρ₂) :
      AlphaStmt ρ (.forLoop init test step s) (.forLoop init' test' step' s') ρ
  | switch {ρ ρ' : Pairing} {e e' : Expr} {secs secs' : List (SwitchSection Expr Stmt)}
      (he : AlphaExpr ρ e e') (hsecs : AlphaSections ρ secs secs' ρ') :
      AlphaStmt ρ (.switch e secs) (.switch e' secs') ρ
  | ret {ρ : Pairing} {e e' : Option Expr} (he : Option.Rel (AlphaExpr ρ) e e') :
      AlphaStmt ρ (.ret e) (.ret e') ρ
  | brk (ρ : Pairing) : AlphaStmt ρ .brk .brk ρ
  | cont (ρ : Pairing) : AlphaStmt ρ .cont .cont ρ
  | discard (ρ : Pairing) : AlphaStmt ρ .discard .discard ρ
  | declare {ρ ρ' : Pairing} {ds ds' : List (Declarator Expr)} (isConst : Bool) (type : TypeRef)
      (hds : AlphaDeclarators ρ ds ds' ρ') :
      AlphaStmt ρ (.declare isConst type ds) (.declare isConst type ds') ρ'
  | eval {ρ : Pairing} {e e' : Expr} (he : AlphaExpr ρ e e') : AlphaStmt ρ (.eval e) (.eval e') ρ

inductive AlphaStmts : Pairing → List Stmt → List Stmt → Pairing → Prop
  | nil (ρ : Pairing) : AlphaStmts ρ [] [] ρ
  | cons {ρ ρ₁ ρ₂ : Pairing} {s s' : Stmt} {b b' : List Stmt} (hs : AlphaStmt ρ s s' ρ₁)
      (hb : AlphaStmts ρ₁ b b' ρ₂) : AlphaStmts ρ (s :: b) (s' :: b') ρ₂

inductive AlphaSections : Pairing → List (SwitchSection Expr Stmt) →
    List (SwitchSection Expr Stmt) → Pairing → Prop
  | nil (ρ : Pairing) : AlphaSections ρ [] [] ρ
  | cons {ρ ρ₁ ρ₂ : Pairing} {labels labels' : List (CaseLabel Expr)} {b b' : List Stmt}
      {secs secs' : List (SwitchSection Expr Stmt)}
      (hlabels : List.Forall₂ (AlphaLabel ρ) labels labels') (hb : AlphaStmts ρ b b' ρ₁)
      (hsecs : AlphaSections ρ₁ secs secs' ρ₂) :
      AlphaSections ρ (⟨labels, b⟩ :: secs) (⟨labels', b'⟩ :: secs') ρ₂

end

/-- Two states of renaming that give names which stand for each other the same new name. -/
structure Renaming.Couples (ρ : Pairing) (r r' : Renaming) : Prop where
  next : r.next = r'.next
  apply : ∀ x y, SameName ρ x y → r.apply x = r'.apply y

section Couples

variable {ρ ρ' : Pairing} {r r' : Renaming}

theorem Renaming.Couples.leave {i i' : Renaming} (h : Couples ρ r r') (hi : Couples ρ' i i') :
    Couples ρ (r.leave i) (r'.leave i') :=
  ⟨hi.next, h.apply⟩

theorem Renaming.Couples.declare (h : Couples ρ r r') (taken : List String) (x y : String) :
    (r.declare taken x).1 = (r'.declare taken y).1 ∧
      Couples ((x, y) :: ρ) (r.declare taken x).2 (r'.declare taken y).2 := by
  rw [Renaming.declare, Renaming.declare, h.next]
  refine ⟨rfl, rfl, ?_⟩
  intro a b hab
  simp only [Renaming.apply]
  cases hab with
  | here =>
      rw [List.lookup_cons_self, List.lookup_cons_self]
      rfl
  | there hx hy hab =>
      have happly := h.apply a b hab
      rwa [Renaming.apply, Renaming.apply, ← lookup_cons_of_ne hx, ← lookup_cons_of_ne hy] at happly

mutual

theorem AlphaExpr.mapPost_eq (h : r.Couples ρ r') : {e e' : Expr} → AlphaExpr ρ e e' →
    e.mapPost (renameIdent r) = e'.mapPost (renameIdent r')
  | _, _, .assign op ht hv => by
      simp only [Expr.mapPost, renameIdent, ht.mapPost_eq h, hv.mapPost_eq h]
  | _, _, .binary op ha hb => by
      simp only [Expr.mapPost, renameIdent, ha.mapPost_eq h, hb.mapPost_eq h]
  | _, _, .unary op ha => by simp only [Expr.mapPost, renameIdent, ha.mapPost_eq h]
  | _, _, .call name hargs => by simp only [Expr.mapPost, renameIdent, hargs.mapArgs_eq h]
  | _, _, .callOn name he hargs => by
      simp only [Expr.mapPost, renameIdent, he.mapPost_eq h, hargs.mapArgs_eq h]
  | _, _, .member name he => by simp only [Expr.mapPost, renameIdent, he.mapPost_eq h]
  | _, _, .construct type hargs => by simp only [Expr.mapPost, renameIdent, hargs.mapArgs_eq h]
  | _, _, .newArray element => rfl
  | _, _, .newArrayOf element hn => by simp only [Expr.mapPost, renameIdent, hn.mapPost_eq h]
  | _, _, .newArrayWith element hes => by simp only [Expr.mapPost, renameIdent, hes.mapItems_eq h]
  | _, _, .newArrayOfWith element hn hes => by
      simp only [Expr.mapPost, renameIdent, hn.mapPost_eq h, hes.mapItems_eq h]
  | _, _, .arrayInit hes => by simp only [Expr.mapPost, renameIdent, hes.mapItems_eq h]
  | _, _, .index ha hi => by
      simp only [Expr.mapPost, renameIdent, ha.mapPost_eq h, hi.mapPost_eq h]
  | _, _, .cast type he => by simp only [Expr.mapPost, renameIdent, he.mapPost_eq h]
  | _, _, .conditional hc ha hb => by
      simp only [Expr.mapPost, renameIdent, hc.mapPost_eq h, ha.mapPost_eq h, hb.mapPost_eq h]
  | _, _, .ident hxy => congrArg Expr.ident (h.apply _ _ hxy)
  | _, _, .self => rfl
  | _, _, .literal l => rfl

theorem AlphaArgs.mapArgs_eq (h : r.Couples ρ r') : {args args' : List (Arg Expr)} →
    AlphaArgs ρ args args' → mapArgs (renameIdent r) args = mapArgs (renameIdent r') args'
  | _, _, .nil => rfl
  | _, _, .cons label he hargs => by
      rw [mapArgs, mapArgs, he.mapPost_eq h, hargs.mapArgs_eq h]

theorem AlphaItems.mapItems_eq (h : r.Couples ρ r') : {es es' : List Expr} →
    AlphaItems ρ es es' → mapItems (renameIdent r) es = mapItems (renameIdent r') es'
  | _, _, .nil => rfl
  | _, _, .cons he hes => by
      rw [mapItems, mapItems, he.mapPost_eq h, hes.mapItems_eq h]

end

theorem AlphaExpr.renameExpr_eq (h : r.Couples ρ r') {e e' : Expr} (he : AlphaExpr ρ e e') :
    renameExpr r e = renameExpr r' e' :=
  he.mapPost_eq h

theorem map_renameExpr_eq (h : r.Couples ρ r') {es es' : List Expr}
    (hes : List.Forall₂ (AlphaExpr ρ) es es') :
    es.map (renameExpr r) = es'.map (renameExpr r') := by
  induction hes with
  | nil => rfl
  | cons he _ ih => rw [List.map_cons, List.map_cons, he.renameExpr_eq h, ih]

theorem option_renameExpr_eq (h : r.Couples ρ r') {e e' : Option Expr}
    (he : Option.Rel (AlphaExpr ρ) e e') : e.map (renameExpr r) = e'.map (renameExpr r') := by
  cases he with
  | none => rfl
  | some he => exact congrArg some (he.renameExpr_eq h)

theorem labels_renameExpr_eq (h : r.Couples ρ r') {labels labels' : List (CaseLabel Expr)}
    (hlabels : List.Forall₂ (AlphaLabel ρ) labels labels') :
    labels.map (CaseLabel.map (renameExpr r)) = labels'.map (CaseLabel.map (renameExpr r')) := by
  induction hlabels with
  | nil => rfl
  | cons hlabel _ ih =>
      rw [List.map_cons, List.map_cons, ih]
      cases hlabel with
      | value he =>
          rw [CaseLabel.map, he.renameExpr_eq h]
          rfl
      | default => rfl

end Couples

def RenamedAlike {α : Type} (ρ : Pairing) (p p' : α × Renaming) : Prop :=
  p.1 = p'.1 ∧ p.2.Couples ρ p'.2

section Statements

variable {taken : List String}

theorem AlphaDeclarators.renamedAlike {ρ ρ' : Pairing} {ds ds' : List (Declarator Expr)}
    (hds : AlphaDeclarators ρ ds ds' ρ') {r r' : Renaming} (h : r.Couples ρ r') :
    RenamedAlike ρ' (renameDeclarators taken r ds) (renameDeclarators taken r' ds') := by
  induction hds generalizing r r' with
  | nil => exact ⟨rfl, h⟩
  | cons x y hinit _ ih =>
      obtain ⟨hname, hnew⟩ := h.declare taken x y
      obtain ⟨hrest, hafter⟩ := ih hnew
      refine ⟨?_, hafter⟩
      simp only [renameDeclarators]
      rw [hname, option_renameExpr_eq h hinit, hrest]

mutual

theorem AlphaStmt.renamedAlike {ρ ρ' : Pairing} {r r' : Renaming} (h : r.Couples ρ r') :
    {s s' : Stmt} → AlphaStmt ρ s s' ρ' →
      RenamedAlike ρ' (renameStmt taken r s) (renameStmt taken r' s')
  | _, _, .block hb => by
      obtain ⟨hbody, hafter⟩ := hb.renamedAlike h
      exact ⟨congrArg Stmt.block hbody, h.leave hafter⟩
  | _, _, .empty _ | _, _, .brk _ | _, _, .cont _ | _, _, .discard _ => ⟨rfl, h⟩
  | _, _, .ifThen hc hs => by
      obtain ⟨hyes, hafter⟩ := hs.renamedAlike h
      refine ⟨?_, h.leave hafter⟩
      simp only [renameStmt]
      rw [hc.renameExpr_eq h, hyes]
  | _, _, .ifElse hc hs ht => by
      obtain ⟨hyes, hnext⟩ := hs.renamedAlike h
      obtain ⟨hno, hafter⟩ := ht.renamedAlike (h.leave hnext)
      refine ⟨?_, h.leave hafter⟩
      simp only [renameStmt]
      rw [hc.renameExpr_eq h, hyes, hno]
  | _, _, .whileLoop hc hs | _, _, .doWhile hs hc => by
      obtain ⟨hbody, hafter⟩ := hs.renamedAlike h
      refine ⟨?_, h.leave hafter⟩
      simp only [renameStmt]
      rw [hc.renameExpr_eq h, hbody]
  | _, _, .forLoop hinit htest hstep hs => by
      obtain ⟨hinits, hinner⟩ := hinit.renamedAlike h
      obtain ⟨hbody, hafter⟩ := hs.renamedAlike hinner
      refine ⟨?_, h.leave hafter⟩
      simp only [renameStmt]
      rw [hinits, option_renameExpr_eq hinner htest, map_renameExpr_eq hinner hstep, hbody]
  | _, _, .switch he hsecs => by
      obtain ⟨hsections, hafter⟩ := hsecs.renamedAlike h
      refine ⟨?_, h.leave hafter⟩
      simp only [renameStmt]
      rw [he.renameExpr_eq h, hsections]
  | _, _, .ret he => ⟨congrArg Stmt.ret (option_renameExpr_eq h he), h⟩
  | _, _, .declare isConst type hds => by
      obtain ⟨hnames, hafter⟩ := hds.renamedAlike h
      exact ⟨congrArg (Stmt.declare isConst type) hnames, hafter⟩
  | _, _, .eval he => ⟨congrArg Stmt.eval (he.renameExpr_eq h), h⟩

theorem AlphaStmts.renamedAlike {ρ ρ' : Pairing} {r r' : Renaming} (h : r.Couples ρ r') :
    {b b' : List Stmt} → AlphaStmts ρ b b' ρ' →
      RenamedAlike ρ' (renameStmts taken r b) (renameStmts taken r' b')
  | _, _, .nil _ => ⟨rfl, h⟩
  | _, _, .cons hs hb => by
      obtain ⟨hstmt, hnext⟩ := hs.renamedAlike h
      obtain ⟨hrest, hafter⟩ := hb.renamedAlike hnext
      refine ⟨?_, hafter⟩
      simp only [renameStmts]
      rw [hstmt, hrest]

theorem AlphaSections.renamedAlike {ρ ρ' : Pairing} {r r' : Renaming} (h : r.Couples ρ r') :
    {secs secs' : List (SwitchSection Expr Stmt)} → AlphaSections ρ secs secs' ρ' →
      RenamedAlike ρ' (renameSections taken r secs) (renameSections taken r' secs')
  | _, _, .nil _ => ⟨rfl, h⟩
  | _, _, .cons hlabels hb hsecs => by
      obtain ⟨hbody, hnext⟩ := hb.renamedAlike h
      obtain ⟨hrest, hafter⟩ := hsecs.renamedAlike hnext
      refine ⟨?_, hafter⟩
      simp only [renameSections]
      rw [labels_renameExpr_eq h hlabels, hbody, hrest]

end

end Statements

end ShaderCompiler
