import ShaderCompiler.Proofs.Normal.Scoping

namespace ShaderCompiler

/-- Locals over parameters. -/
def Scope.Layered (scope : Scope) : Prop :=
  ∃ l ps : Scope, scope = l ++ ps ∧ (∀ b ∈ l, b.2.isBinder = true) ∧ ∀ b ∈ ps, b.2 = .param b.1

theorem Scope.Layered.cons {scope : Scope} (h : scope.Layered) (name : String) (k : Nat) :
    Scope.Layered ((name, .binder k) :: scope) := by
  obtain ⟨l, ps, rfl, hl, hp⟩ := h
  exact ⟨(name, .binder k) :: l, ps, rfl, List.forall_mem_cons.mpr ⟨rfl, hl⟩, hp⟩

def AllLayered (p : List Occurrence × Scoping) : Prop :=
  (∀ o ∈ p.1, o.scope.Layered) ∧ p.2.scope.Layered

theorem layered_occurrencesOf {sc : Scoping} (h : sc.scope.Layered) (e : Expr) :
    ∀ o ∈ sc.occurrencesOf e, o.scope.Layered := by
  intro o ho
  obtain ⟨m, -, rfl⟩ := List.mem_map.mp ho
  exact h

theorem layered_flatMap {sc : Scoping} (h : sc.scope.Layered) (es : List Expr) :
    ∀ o ∈ es.flatMap sc.occurrencesOf, o.scope.Layered := by
  intro o ho
  obtain ⟨e, -, he⟩ := List.mem_flatMap.mp ho
  exact layered_occurrencesOf h e o he

theorem layered_declarators {sc : Scoping} (h : sc.scope.Layered) (ds : List (Declarator Expr)) :
    AllLayered (sc.occurrencesOfDeclarators ds) := by
  induction ds generalizing sc with
  | nil => exact ⟨nofun, h⟩
  | cons d ds ih =>
      have hd : (sc.declare d.name).scope.Layered := h.cons d.name sc.count
      obtain ⟨ho, hs⟩ := ih hd
      exact ⟨List.forall_mem_append.mpr ⟨layered_flatMap h _, ho⟩, hs⟩

theorem AllLayered.leave {p : List Occurrence × Scoping} (h : AllLayered p) {sc : Scoping}
    (hs : sc.scope.Layered) : AllLayered (p.1, sc.leave p.2) :=
  ⟨h.1, hs⟩

theorem AllLayered.append {p : List Occurrence × Scoping} (h : AllLayered p)
    {os : List Occurrence} (ho : ∀ o ∈ os, o.scope.Layered) : AllLayered (os ++ p.1, p.2) :=
  ⟨List.forall_mem_append.mpr ⟨ho, h.1⟩, h.2⟩

mutual

theorem layered_stmt {sc : Scoping} (h : sc.scope.Layered) : (s : Stmt) →
    AllLayered (s.occurrences sc)
  | .block body => (layered_stmts h body).leave h
  | .ifElse test yes none =>
      ((layered_stmt h yes).append (layered_occurrencesOf h test)).leave h
  | .ifElse test yes (some no) => by
      have hy := layered_stmt h yes
      have hleft : (sc.leave (yes.occurrences sc).2).scope.Layered := h
      have hn := layered_stmt hleft no
      have ht := List.forall_mem_append.mpr ⟨layered_occurrencesOf h test, hy.1⟩
      exact (hn.append ht).leave h
  | .whileLoop test body =>
      ((layered_stmt h body).append (layered_occurrencesOf h test)).leave h
  | .doWhile body test =>
      ⟨List.forall_mem_append.mpr ⟨(layered_stmt h body).1, layered_occurrencesOf h test⟩, h⟩
  | .forLoop init test step body => by
      obtain ⟨hi, hs⟩ := layered_stmts h init
      have hb := layered_stmt hs body
      have ht := List.forall_mem_append.mpr ⟨hi, layered_flatMap hs test.toList⟩
      exact (hb.append (List.forall_mem_append.mpr ⟨ht, layered_flatMap hs step⟩)).leave h
  | .switch scrutinee sections =>
      ((layered_sections h sections).append (layered_occurrencesOf h scrutinee)).leave h
  | .ret value => ⟨layered_flatMap h value.toList, h⟩
  | .declare _ _ declarators => layered_declarators h declarators
  | .eval e => ⟨layered_occurrencesOf h e, h⟩
  | .empty | .brk | .cont | .discard | .tryCatch _ _ _ _ | .throw _ _ | .foreach _ _ _ _ _
  | .lock _ _ _ | .using _ _ _ | .goto _ _ | .labeled _ _ _ | .yield _ _ | .unmanaged _ _
  | .fixed _ _ _ | .attributed _ _ _ => ⟨nofun, h⟩

theorem layered_stmts {sc : Scoping} (h : sc.scope.Layered) : (stmts : List Stmt) →
    AllLayered (occurrencesIn sc stmts)
  | [] => ⟨nofun, h⟩
  | s :: rest => by
      obtain ⟨ho, hs⟩ := layered_stmt h s
      exact (layered_stmts hs rest).append ho

theorem layered_sections {sc : Scoping} (h : sc.scope.Layered) :
    (sections : List (SwitchSection Expr Stmt)) → AllLayered (occurrencesInSections sc sections)
  | [] => ⟨nofun, h⟩
  | ⟨labels, body⟩ :: rest => by
      obtain ⟨ho, hs⟩ := layered_stmts h body
      have hl := layered_flatMap h (labels.filterMap CaseLabel.value?)
      exact (layered_sections hs rest).append (List.forall_mem_append.mpr ⟨hl, ho⟩)

end

theorem layered_paramScope (m : MethodBody) : m.paramScope.Layered := by
  refine ⟨[], m.paramScope, rfl, nofun, ?_⟩
  intro b hb
  obtain ⟨p, -, rfl⟩ := List.mem_map.mp (List.mem_reverse.mp hb)
  rfl

theorem layered_of_mem_occurrences {m : MethodBody} {o : Occurrence} (h : o ∈ m.occurrences) :
    o.scope.Layered := by
  have hstart : (Scoping.mk m.paramScope 0).scope.Layered := layered_paramScope m
  exact (layered_stmts hstart m.body).1 o h

end ShaderCompiler
