import ShaderCompiler.Proofs.Association
import ShaderCompiler.Proofs.Normal.FreshNames
import ShaderCompiler.Proofs.Tree.Visiting

namespace ShaderCompiler

section

variable (taken : List String)

/-- The names of `n` locals that are declared after `k` others. -/
def numbered (k n : Nat) : List String :=
  (List.range' k n).map fun i => localName (freshIndex taken i)

theorem length_numbered (k n : Nat) : (numbered taken k n).length = n := by
  simp [numbered]

theorem numbered_add (k a b : Nat) :
    numbered taken k (a + b) = numbered taken k a ++ numbered taken (k + a) b := by
  rw [numbered, numbered, numbered, ← List.map_append, List.range'_append_1]

/-- The locals of a part that is reached after `k` others get the next names. -/
structure Numbers (k : Nat) (before after : List String) (r : Renaming) : Prop where
  names : after = numbered taken k before.length
  next : r.next = nextIndex taken (k + before.length)

variable {taken} {k : Nat} {r : Renaming}

theorem Numbers.leave {before after : List String} (h : Numbers taken k before after r)
    (outer : Renaming) : Numbers taken k before after (outer.leave r) :=
  ⟨h.names, h.next⟩

theorem Numbers.append {b a b' a' : List String} {r' : Renaming} (h : Numbers taken k b a r)
    (h' : Numbers taken (k + b.length) b' a' r') : Numbers taken k (b ++ b') (a ++ a') r' where
  names := by rw [List.length_append, numbered_add, ← h.names, ← h'.names]
  next := by rw [List.length_append, ← Nat.add_assoc, h'.next]

theorem numbers_declarators (h : r.next = nextIndex taken k) (ds : List (Declarator Expr)) :
    Numbers taken k (ds.map (·.name)) ((renameDeclarators taken r ds).1.map (·.name))
      (renameDeclarators taken r ds).2 := by
  induction ds generalizing k r with
  | nil => exact ⟨rfl, h⟩
  | cons d ds ih =>
      have hnext : (r.declare taken d.name).2.next = nextIndex taken (k + 1) := by
        rw [Renaming.declare, h]
        rfl
      have hd : Numbers taken k [d.name] [(r.declare taken d.name).1]
          (r.declare taken d.name).2 := by
        refine ⟨?_, hnext⟩
        rw [Renaming.declare, h]
        rfl
      exact hd.append (ih hnext)

mutual

theorem numbers_stmt {k : Nat} {r : Renaming} (h : r.next = nextIndex taken k) : (s : Stmt) →
    Numbers taken k s.declared (renameStmt taken r s).1.declared (renameStmt taken r s).2
  | .block body => (numbers_stmts h body).leave r
  | .ifElse _ yes none => (numbers_stmt h yes).leave r
  | .ifElse _ yes (some no) => by
      have hyes := numbers_stmt h yes
      have hleft : (r.leave (renameStmt taken r yes).2).next =
          nextIndex taken (k + yes.declared.length) := hyes.next
      exact (hyes.append (numbers_stmt hleft no)).leave r
  | .whileLoop _ body => (numbers_stmt h body).leave r
  | .doWhile body _ => (numbers_stmt h body).leave r
  | .forLoop init _ _ body => by
      have hinit := numbers_stmts h init
      exact (hinit.append (numbers_stmt hinit.next body)).leave r
  | .switch _ sections => (numbers_sections h sections).leave r
  | .declare _ _ declarators => numbers_declarators h declarators
  | .ret _ | .eval _ | .empty | .brk | .cont | .discard | .tryCatch _ _ _ _ | .throw _ _
  | .foreach _ _ _ _ _ | .lock _ _ _ | .using _ _ _ | .goto _ _ | .labeled _ _ _ | .yield _ _
  | .unmanaged _ _ | .fixed _ _ _ | .attributed _ _ _ => ⟨rfl, h⟩

theorem numbers_stmts {k : Nat} {r : Renaming} (h : r.next = nextIndex taken k) :
    (stmts : List Stmt) → Numbers taken k (declaredIn stmts)
      (declaredIn (renameStmts taken r stmts).1) (renameStmts taken r stmts).2
  | [] => ⟨rfl, h⟩
  | s :: rest => by
      have hs := numbers_stmt h s
      exact hs.append (numbers_stmts hs.next rest)

theorem numbers_sections {k : Nat} {r : Renaming} (h : r.next = nextIndex taken k) :
    (sections : List (SwitchSection Expr Stmt)) → Numbers taken k (declaredInSections sections)
      (declaredInSections (renameSections taken r sections).1) (renameSections taken r sections).2
  | [] => ⟨rfl, h⟩
  | ⟨_, body⟩ :: rest => by
      have hbody := numbers_stmts h body
      exact hbody.append (numbers_sections hbody.next rest)

end

theorem MethodBody.declared_withLocals (m : MethodBody) :
    m.withLocals.declared = numbered m.taken 0 m.declared.length :=
  (numbers_stmts (r := m.initialRenaming) rfl m.body).names

def IsNumbered (taken : List String) (k : Nat) (names : List String) : Prop :=
  names = numbered taken k names.length

theorem isNumbered_append {a b : List String} (h : IsNumbered taken k (a ++ b)) :
    IsNumbered taken k a ∧ IsNumbered taken (k + a.length) b := by
  rw [IsNumbered, List.length_append, numbered_add] at h
  exact List.append_inj h (length_numbered taken k a.length).symm

/-- After `k` locals, renaming changes no name that is in force. -/
structure Renaming.Settled (taken : List String) (k : Nat) (r : Renaming) : Prop where
  next : r.next = nextIndex taken k
  apply : ∀ name, r.apply name = name

theorem Renaming.Settled.leave {outer inner : Renaming} {j : Nat} (h : outer.Settled taken j)
    (hi : inner.Settled taken k) : (outer.leave inner).Settled taken k :=
  ⟨hi.next, h.apply⟩

theorem Renaming.Settled.declare (h : r.Settled taken k) {name : String}
    (hn : name = localName (freshIndex taken k)) :
    (r.declare taken name).1 = name ∧ (r.declare taken name).2.Settled taken (k + 1) := by
  have hdeclare : r.declare taken name = (name, ⟨(name, name) :: r.scope, freshIndex taken k + 1⟩) := by
    rw [Renaming.declare, h.next, hn]
    rfl
  rw [hdeclare]
  refine ⟨rfl, rfl, ?_⟩
  intro x
  have hx := h.apply x
  rw [Renaming.apply] at hx ⊢
  rw [List.lookup_cons]
  split
  · next he => exact (beq_iff_eq.mp he).symm
  · exact hx

theorem renameExpr_of_settled (h : r.Settled taken k) (e : Expr) : renameExpr r e = e := by
  apply mapPost_of_fixed
  intro x _
  unfold renameIdent
  split
  · rw [h.apply]
  · rfl

def Keeps {α : Type} (taken : List String) (k : Nat) (declared : List String) (x : α)
    (p : α × Renaming) : Prop :=
  p.1 = x ∧ p.2.Settled taken (k + declared.length)

theorem keeps_declarators (h : r.Settled taken k) (ds : List (Declarator Expr))
    (hn : IsNumbered taken k (ds.map (·.name))) :
    Keeps taken k (ds.map (·.name)) ds (renameDeclarators taken r ds) := by
  induction ds generalizing k r with
  | nil => exact ⟨rfl, h⟩
  | cons d ds ih =>
      obtain ⟨hhead, htail⟩ := isNumbered_append (a := [d.name]) hn
      obtain ⟨hname, hnext⟩ := h.declare (List.singleton_inj.mp hhead)
      obtain ⟨hrest, hsettled⟩ := ih hnext htail
      constructor
      · have hinit : d.init.map (renameExpr r) = d.init :=
          option_map_of_fixed fun e _ => renameExpr_of_settled h e
        rw [renameDeclarators, hname, hrest, hinit]
      · rw [List.map_cons, List.length_cons, Nat.add_comm _ 1, ← Nat.add_assoc]
        exact hsettled

mutual

theorem keeps_stmt {k : Nat} {r : Renaming} (h : r.Settled taken k) : (s : Stmt) →
    IsNumbered taken k s.declared → Keeps taken k s.declared s (renameStmt taken r s)
  | .block body, hn => by
      obtain ⟨hbody, hr⟩ := keeps_stmts h body hn
      exact ⟨by rw [renameStmt, hbody], h.leave hr⟩
  | .ifElse test yes none, hn => by
      obtain ⟨hyes, hr⟩ := keeps_stmt h yes hn
      exact ⟨by rw [renameStmt, hyes, renameExpr_of_settled h], h.leave hr⟩
  | .ifElse test yes (some no), hn => by
      obtain ⟨hny, hnn⟩ := isNumbered_append hn
      obtain ⟨hyes, hr⟩ := keeps_stmt h yes hny
      obtain ⟨hno, hr'⟩ := keeps_stmt (h.leave hr) no hnn
      refine ⟨by rw [renameStmt, hyes, hno, renameExpr_of_settled h], ?_⟩
      rw [Stmt.declared, List.length_append, ← Nat.add_assoc]
      exact h.leave hr'
  | .whileLoop test body, hn => by
      obtain ⟨hbody, hr⟩ := keeps_stmt h body hn
      exact ⟨by rw [renameStmt, hbody, renameExpr_of_settled h], h.leave hr⟩
  | .doWhile body test, hn => by
      obtain ⟨hbody, hr⟩ := keeps_stmt h body hn
      exact ⟨by rw [renameStmt, hbody, renameExpr_of_settled h], h.leave hr⟩
  | .forLoop init test step body, hn => by
      obtain ⟨hni, hnb⟩ := isNumbered_append hn
      obtain ⟨hinit, hr⟩ := keeps_stmts h init hni
      obtain ⟨hbody, hr'⟩ := keeps_stmt hr body hnb
      constructor
      · rw [renameStmt, hinit, hbody, option_map_of_fixed fun e _ => renameExpr_of_settled hr e,
          list_map_of_fixed fun e _ => renameExpr_of_settled hr e]
      · rw [Stmt.declared, List.length_append, ← Nat.add_assoc]
        exact h.leave hr'
  | .switch scrutinee sections, hn => by
      obtain ⟨hsections, hr⟩ := keeps_sections h sections hn
      exact ⟨by rw [renameStmt, hsections, renameExpr_of_settled h], h.leave hr⟩
  | .ret value, _ =>
      ⟨by rw [renameStmt, option_map_of_fixed fun e _ => renameExpr_of_settled h e], h⟩
  | .declare _ _ declarators, hn => by
      obtain ⟨hds, hr⟩ := keeps_declarators h declarators hn
      exact ⟨by rw [renameStmt, hds], hr⟩
  | .eval e, _ => ⟨by rw [renameStmt, renameExpr_of_settled h], h⟩
  | .empty, _ | .brk, _ | .cont, _ | .discard, _ | .tryCatch _ _ _ _, _ | .throw _ _, _
  | .foreach _ _ _ _ _, _ | .lock _ _ _, _ | .using _ _ _, _ | .goto _ _, _ | .labeled _ _ _, _
  | .yield _ _, _ | .unmanaged _ _, _ | .fixed _ _ _, _ | .attributed _ _ _, _ => ⟨rfl, h⟩

theorem keeps_stmts {k : Nat} {r : Renaming} (h : r.Settled taken k) : (stmts : List Stmt) →
    IsNumbered taken k (declaredIn stmts) →
      Keeps taken k (declaredIn stmts) stmts (renameStmts taken r stmts)
  | [], _ => ⟨rfl, h⟩
  | s :: rest, hn => by
      obtain ⟨hns, hnr⟩ := isNumbered_append hn
      obtain ⟨hs, hr⟩ := keeps_stmt h s hns
      obtain ⟨hrest, hr'⟩ := keeps_stmts hr rest hnr
      refine ⟨by rw [renameStmts, hs, hrest], ?_⟩
      rw [declaredIn, List.length_append, ← Nat.add_assoc]
      exact hr'

theorem keeps_sections {k : Nat} {r : Renaming} (h : r.Settled taken k) :
    (sections : List (SwitchSection Expr Stmt)) →
    IsNumbered taken k (declaredInSections sections) →
      Keeps taken k (declaredInSections sections) sections (renameSections taken r sections)
  | [], _ => ⟨rfl, h⟩
  | ⟨labels, body⟩ :: rest, hn => by
      obtain ⟨hnb, hnr⟩ := isNumbered_append hn
      obtain ⟨hbody, hr⟩ := keeps_stmts h body hnb
      obtain ⟨hrest, hr'⟩ := keeps_sections hr rest hnr
      constructor
      · rw [renameSections, hbody, hrest,
          labels_map_of_fixed fun e _ => renameExpr_of_settled h e]
      · rw [declaredInSections, List.length_append, ← Nat.add_assoc]
        exact hr'

end

theorem MethodBody.settled_initialRenaming (m : MethodBody) (taken : List String) :
    m.initialRenaming.Settled taken 0 := by
  refine ⟨rfl, ?_⟩
  intro name
  rw [Renaming.apply]
  cases hl : m.initialRenaming.scope.lookup name with
  | none => rfl
  | some new =>
      obtain ⟨p, -, hp⟩ := List.mem_map.mp (List.mem_reverse.mp (mem_of_lookup hl))
      cases hp
      rfl

theorem MethodBody.withLocals_of_isNumbered {m : MethodBody}
    (h : IsNumbered m.taken 0 m.declared) : m.withLocals = m := by
  obtain ⟨hbody, -⟩ := keeps_stmts (m.settled_initialRenaming m.taken) m.body h
  rw [withLocals, hbody]

end

end ShaderCompiler
