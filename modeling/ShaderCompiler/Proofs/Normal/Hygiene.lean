import ShaderCompiler.Proofs.Normal.Capture
import ShaderCompiler.Proofs.Normal.Splicing
import ShaderCompiler.Proofs.Sequencing
import ShaderCompiler.Shader.Compile

namespace ShaderCompiler

theorem mapStmts_append (f : Expr → Expr) (first second : List Stmt) :
    mapStmts f (first ++ second) = mapStmts f first ++ mapStmts f second := by
  induction first with
  | nil => rfl
  | cons s first ih => rw [List.cons_append, mapStmts, mapStmts, ih, List.cons_append]

theorem length_mapStmts (f : Expr → Expr) (stmts : List Stmt) :
    (mapStmts f stmts).length = stmts.length := by
  induction stmts with
  | nil => rfl
  | cons s stmts ih => rw [mapStmts, List.length_cons, List.length_cons, ih]

section

variable (taken : List String)

theorem renameStmts_append (r : Renaming) (first second : List Stmt) :
    (renameStmts taken r (first ++ second)).1 =
      (renameStmts taken r first).1 ++ (renameStmts taken (renameStmts taken r first).2 second).1 := by
  induction first generalizing r with
  | nil => rfl
  | cons s first ih =>
      simp only [List.cons_append, renameStmts, ih]

theorem length_renameStmts (r : Renaming) (stmts : List Stmt) :
    (renameStmts taken r stmts).1.length = stmts.length := by
  induction stmts generalizing r with
  | nil => rfl
  | cons s stmts ih => simp only [renameStmts, List.length_cons, ih]

end

namespace MethodBody

def occurrencesFrom (m : MethodBody) (k : Nat) : List Occurrence :=
  (occurrencesIn (occurrencesIn ⟨m.paramScope, 0⟩ (m.body.take k)).2 (m.body.drop k)).1

def emittedReferentsFrom (m : MethodBody) (k : Nat) : List Referent :=
  (m.occurrencesFrom k).map Occurrence.emittedReferent

/-- What a mention stands for in the emitted normal form. -/
def meaning (m : MethodBody) (o : Occurrence) : Referent :=
  (o.renamed m.withOperators.taken).emittedReferent

def meaningAfter (m : MethodBody) (stmts : List Stmt) (o : Occurrence) : Referent :=
  ((o.over (localsAfter stmts)).renamed (m.precededBy stmts).withOperators.taken).emittedReferent

variable (m : MethodBody) (stmts : List Stmt)

theorem emittedReferents_normalize :
    m.normalize.emittedReferents = m.withOperators.occurrences.map m.meaning := by
  rw [normalize, emittedReferents, occurrences_withLocals, List.map_map]
  rfl

theorem withOperators_precededBy : (m.precededBy stmts).withOperators =
    m.withOperators.precededBy (mapStmts (Expr.mapPost toOperator) stmts) := by
  simp only [withOperators, precededBy, mapStmts_append]

/-- Behind a prologue the mentions of the renamed body are its own, over the locals of the prologue
and renamed. -/
theorem occurrencesFrom_withLocals :
    (m.precededBy stmts).withLocals.occurrencesFrom stmts.length =
      m.occurrences.map fun o =>
        (o.over (localsAfter stmts)).renamed (m.precededBy stmts).taken := by
  generalize htaken : (m.precededBy stmts).taken = taken
  have hbody : (m.precededBy stmts).withLocals.body =
      (renameStmts taken m.initialRenaming stmts).1 ++
        (renameStmts taken (renameStmts taken m.initialRenaming stmts).2 m.body).1 := by
    rw [← renameStmts_append, ← htaken]
    rfl
  obtain ⟨hstate, -, hscoping⟩ := follows_stmts taken ⟨m.paramScope, 0⟩ stmts
  have hrest := (follows_stmts taken (occurrencesIn ⟨m.paramScope, 0⟩ stmts).2 m.body).occurrences
  rw [renaming_paramScope] at hstate hscoping
  rw [renamed_paramScope] at hscoping
  have hparams : ∀ b ∈ m.paramScope, b.2 = .param b.1 := by
    intro b hb
    obtain ⟨p, -, rfl⟩ := List.mem_map.mp (List.mem_reverse.mp hb)
    rfl
  rw [occurrencesIn_localsAfter hparams stmts m.body, List.map_map, ← hstate, ← hscoping] at hrest
  rw [occurrencesFrom, hbody, List.take_left' (length_renameStmts _ _ _),
    List.drop_left' (length_renameStmts _ _ _)]
  exact hrest

theorem emittedReferentsFrom_normalize :
    (m.precededBy stmts).normalize.emittedReferentsFrom stmts.length =
      m.withOperators.occurrences.map (m.meaningAfter stmts) := by
  have h := occurrencesFrom_withLocals m.withOperators (mapStmts (Expr.mapPost toOperator) stmts)
  rw [length_mapStmts, localsAfter_mapStmts, ← withOperators_precededBy] at h
  rw [normalize, emittedReferentsFrom, h, List.map_map]
  rfl

/-- The meaning of an entry point's own names, alone and behind a prologue. -/
structure Spliced (main : MethodBody) (stmts : List Stmt) : Prop where
  alone : main.normalize.emittedReferents = main.withOperators.occurrences.map main.meaning
  behind : (main.precededBy stmts).normalize.emittedReferentsFrom stmts.length =
    main.withOperators.occurrences.map (main.meaningAfter stmts)
  hidden : ∀ o ∈ main.withOperators.occurrences, o.IsHiddenBy (localsAfter stmts).scope →
    ∃ k, (localsAfter stmts).scope.lookup o.mention.name = some (.binder k) ∧
      main.meaningAfter stmts o = .binder k
  kept_iff : ∀ o ∈ main.withOperators.occurrences, ¬ o.IsCaptured main.withOperators.taken →
    (main.meaningAfter stmts o = (main.meaning o).shift (localsAfter stmts).count ↔
      ¬ o.IsHiddenBy (localsAfter stmts).scope ∧
        ¬ (o.over (localsAfter stmts)).IsCaptured (main.precededBy stmts).withOperators.taken)
  /-- A name that is captured already without the prologue has the meaning of what captures it, and
  keeps it exactly if that captures it with the prologue, too. -/
  kept_captured_iff : ∀ o ∈ main.withOperators.occurrences, o.IsCaptured main.withOperators.taken →
    o.IsCapturedBy main.withOperators.taken (main.meaning o) ∧
      (main.meaningAfter stmts o = (main.meaning o).shift (localsAfter stmts).count ↔
        (o.over (localsAfter stmts)).IsCapturedBy (main.precededBy stmts).withOperators.taken
          ((main.meaning o).shift (localsAfter stmts).count))
  captured : ∀ o ∈ main.withOperators.occurrences, ¬ o.IsCaptured main.withOperators.taken →
    (o.over (localsAfter stmts)).IsCaptured (main.precededBy stmts).withOperators.taken →
      ∃ n, o.mention.name = localName n ∧
        localName n ∉ (main.precededBy stmts).withOperators.taken

variable {m stmts} {o : Occurrence}

theorem meaning_of_not_isCaptured (h : o.scope.Layered)
    (hc : ¬ o.IsCaptured m.withOperators.taken) : m.meaning o = o.referent :=
  (emittedReferent_renamed_iff h).mpr hc

theorem layered_over_localsAfter (h : o.scope.Layered) (stmts : List Stmt) :
    (o.over (localsAfter stmts)).scope.Layered :=
  Scope.Layered.over h (isBinder_localsAfter stmts)

theorem meaningAfter_of_isHiddenBy (h : o.scope.Layered)
    (hhidden : o.IsHiddenBy (localsAfter stmts).scope) :
    ∃ k, (localsAfter stmts).scope.lookup o.mention.name = some (.binder k) ∧
      m.meaningAfter stmts o = .binder k := by
  obtain ⟨k, hk, hreferent⟩ :=
    referent_over_of_isHiddenBy h (isBinder_localsAfter stmts) hhidden
  refine ⟨k, hk, ?_⟩
  rw [← hreferent]
  apply (emittedReferent_renamed_iff (layered_over_localsAfter h stmts)).mpr
  rintro ⟨hbinder, -⟩
  rw [hreferent] at hbinder
  cases hbinder

theorem meaningAfter_eq_iff (h : o.scope.Layered) (hc : ¬ o.IsCaptured m.withOperators.taken) :
    m.meaningAfter stmts o = (m.meaning o).shift (localsAfter stmts).count ↔
      ¬ o.IsHiddenBy (localsAfter stmts).scope ∧
        ¬ (o.over (localsAfter stmts)).IsCaptured (m.precededBy stmts).withOperators.taken := by
  rw [meaning_of_not_isCaptured h hc]
  by_cases hhidden : o.IsHiddenBy (localsAfter stmts).scope
  · refine iff_of_false ?_ fun hboth => hboth.1 hhidden
    obtain ⟨k, -, hk⟩ := meaningAfter_of_isHiddenBy (m := m) h hhidden
    -- What is hidden is no local, and so is not what hides it.
    rw [hk, Referent.shift_of_not_isBinder hhidden.2.1]
    intro he
    have hbinder := hhidden.2.1
    rw [← he] at hbinder
    cases hbinder
  · rw [← referent_over_of_not_isHiddenBy h hhidden, meaningAfter,
      emittedReferent_renamed_iff (layered_over_localsAfter h stmts)]
    exact ⟨fun hkept => ⟨hhidden, hkept⟩, fun hboth => hboth.2⟩

/-- What captures a name is neither what the name stands for nor, moved behind the prologue, what
hides it there. -/
theorem referent_over_ne_shift (h : o.scope.Layered) {d : Referent} (hd : d ≠ o.referent) :
    (o.over (localsAfter stmts)).referent ≠ d.shift (localsAfter stmts).count := by
  intro heq
  by_cases hhidden : o.IsHiddenBy (localsAfter stmts).scope
  · obtain ⟨k, hk, hreferent⟩ :=
      referent_over_of_isHiddenBy h (isBinder_localsAfter stmts) hhidden
    obtain ⟨j, hj, hbinder⟩ := counted_localsAfter stmts _ (mem_of_lookup hk)
    obtain rfl : k = j := Referent.binder.inj hbinder
    rw [hreferent] at heq
    cases d with
    | binder i =>
        have hi : k = i + (localsAfter stmts).count := Referent.binder.inj heq
        omega
    | param | global | function => cases heq
  · rw [referent_over_of_not_isHiddenBy h hhidden] at heq
    exact hd (Referent.shift_injective _ heq).symm

theorem meaningAfter_eq_iff_of_isCaptured (h : o.scope.Layered)
    (hc : o.IsCaptured m.withOperators.taken) :
    o.IsCapturedBy m.withOperators.taken (m.meaning o) ∧
      (m.meaningAfter stmts o = (m.meaning o).shift (localsAfter stmts).count ↔
        (o.over (localsAfter stmts)).IsCapturedBy (m.precededBy stmts).withOperators.taken
          ((m.meaning o).shift (localsAfter stmts).count)) := by
  have hlayered := layered_over_localsAfter h stmts
  have hby := isCapturedBy_of_isCaptured h hc
  refine ⟨hby, fun hkept => ?_, emittedReferent_of_isCapturedBy hlayered⟩
  have hcaptured : (o.over (localsAfter stmts)).IsCaptured
      (m.precededBy stmts).withOperators.taken := by
    by_contra hnot
    have hmeaning := (emittedReferent_renamed_iff hlayered).mpr hnot
    exact referent_over_ne_shift h hby.other (hmeaning.symm.trans hkept)
  rw [← hkept]
  exact isCapturedBy_of_isCaptured hlayered hcaptured

theorem name_of_isCaptured_over {taken taken' : List String} (h : o.scope.Layered)
    (hc : ¬ o.IsCaptured taken) (hc' : (o.over (localsAfter stmts)).IsCaptured taken') :
    ∃ n, o.mention.name = localName n ∧ localName n ∉ taken' := by
  obtain hname | ⟨hbare, hparam⟩ := name_of_isCaptured (layered_over_localsAfter h stmts) hc'
  · exact hname
  · -- A parameter that captures behind the prologue does so without it.
    exfalso
    have hbare : ∀ x, o.mention ≠ .value x := hbare
    have hmem := mem_of_mem_over (isBinder_localsAfter stmts) rfl hparam
    have hreferent : o.referent = o.mention.outer := by
      obtain ⟨scope, mention⟩ := o
      cases mention with
      | value x => exact absurd rfl (hbare x)
      | field | callee => rfl
    apply hc
    refine ⟨?_, (o.mention.name, .param o.mention.name), hmem, rfl, ?_⟩
    · rw [hreferent]
      cases o.mention <;> rfl
    · rw [hreferent]
      cases o.mention <;> exact nofun

theorem spliced (main : MethodBody) (stmts : List Stmt) : main.Spliced stmts where
  alone := emittedReferents_normalize main
  behind := emittedReferentsFrom_normalize main stmts
  hidden _ ho := meaningAfter_of_isHiddenBy (layered_of_mem_occurrences ho)
  kept_iff _ ho := meaningAfter_eq_iff (layered_of_mem_occurrences ho)
  kept_captured_iff _ ho := meaningAfter_eq_iff_of_isCaptured (layered_of_mem_occurrences ho)
  captured _ ho := name_of_isCaptured_over (layered_of_mem_occurrences ho)

end MethodBody

theorem withPrologue_eq_ok {className : String} {stmts : List Stmt}
    {methods bodies : List MethodBody} (h : withPrologue className stmts methods = .ok bodies) :
    ∃ main, methods.filter (·.isEntryPoint) = [main] ∧ main.precededBy stmts ∈ bodies := by
  unfold withPrologue at h
  split at h
  · cases h
  · next main hmain =>
      cases h
      refine ⟨main, hmain, ?_⟩
      have hmem : main ∈ methods.filter (·.isEntryPoint) := by
        rw [hmain]
        exact List.mem_singleton_self main
      obtain ⟨hmem, hentry⟩ := List.mem_filter.mp hmem
      exact List.mem_map.mpr ⟨main, hmem, if_pos hentry⟩
  · cases h

theorem functionBodies_eq_ok {c : ClassDecl} {bodies : List MethodBody}
    (h : functionBodies c = .ok bodies) :
    ∃ methods main stmts, c.methods.mapM (·.toBody) = .ok methods ∧
      methods.filter (·.isEntryPoint) = [main] ∧
      prologue c.name (methods.filter (·.isConstructor)) = .ok stmts ∧
      main.precededBy stmts ∈ bodies := by
  obtain ⟨methods, hmethods, h⟩ := exists_of_except_bind_ok h
  obtain ⟨stmts, hstmts, h⟩ := exists_of_except_bind_ok h
  obtain ⟨main, hmain, hmem⟩ := withPrologue_eq_ok h
  refine ⟨methods, main, stmts, hmethods, ?_, hstmts, hmem⟩
  rw [← hmain, List.filter_filter]
  apply List.filter_congr
  intro m _
  cases hctor : m.isConstructor <;> simp [MethodBody.isEntryPoint, hctor]

/-- In every class that compiles, the entry point's own names mean behind the constructors what they
mean without, except where a local of a constructor hides them or numbering captures them. -/
theorem spliced_of_compile {settings : Settings} {c : ClassDecl} {shader : CompiledShader}
    (h : compile settings c = .ok shader) :
    ∃ methods bodies main stmts, c.methods.mapM (·.toBody) = .ok methods ∧
      methods.filter (·.isEntryPoint) = [main] ∧
      prologue c.name (methods.filter (·.isConstructor)) = .ok stmts ∧
      functionBodies c = .ok bodies ∧ main.precededBy stmts ∈ bodies ∧ main.Spliced stmts := by
  obtain ⟨reflection, -, h⟩ := exists_of_except_bind_ok h
  obtain ⟨bodies, hbodies, -⟩ := exists_of_except_bind_ok h
  obtain ⟨methods, main, stmts, hmethods, hmain, hstmts, hmem⟩ := functionBodies_eq_ok hbodies
  exact ⟨methods, bodies, main, stmts, hmethods, hmain, hstmts, hbodies, hmem, main.spliced stmts⟩

/-- `T() { float x = 1; }` -/
def shadowingConstructor : MethodDecl where
  returnType := none
  name := "T"
  isConstructor := true
  body := some
    [.declare false ⟨"float", false, false, .none⟩ [⟨"x", some (.literal (.int 1))⟩]]

/-- `void main() { c = x; }` -/
def copyingMain : MethodDecl where
  returnType := some ⟨"void", false, false, .none⟩
  name := "main"
  body := some [.eval (.assign .assign (.ident "c") (.ident "x"))]

def shadowedClass : ClassDecl where
  name := "T"
  kind := .shader .fragment
  fields :=
    [{ attributes := [{ name := "Uniform" }], type := ⟨"float", false, false, .none⟩, name := "x" },
     { attributes := [{ name := "Out" }, { name := "Layout", args := [.named "location" (.int 0)] }]
       type := ⟨"float", false, false, .none⟩
       name := "c" }]
  methods := [shadowingConstructor, copyingMain]

/-- The field is read without the constructor, and the local with it. -/
theorem spliced_shadowedClass :
    ∃ (shader : CompiledShader) (main : MethodBody) (stmts : List Stmt),
      compile {} shadowedClass = .ok shader ∧
      shader.functions.map (·.text) =
        ["void main() \x7b\n    float local0 = 1.0f;\n    c = local0;\n\x7d\n"] ∧
      main.normalize.emittedReferents = [.global "c", .global "x"] ∧
      (main.precededBy stmts).normalize.emittedReferentsFrom stmts.length =
        [.global "c", .binder 0] ∧
      (∃ o ∈ main.withOperators.occurrences, o.IsHiddenBy (localsAfter stmts).scope) ∧
      main.Spliced stmts := by
  have hrun : (compile {} shadowedClass).map (fun s => s.functions.map (·.text)) =
      .ok ["void main() \x7b\n    float local0 = 1.0f;\n    c = local0;\n\x7d\n"] := by
    decide +kernel
  obtain ⟨shader, hshader, htext⟩ := exists_of_map_ok hrun
  obtain ⟨methods, bodies, main, stmts, hmethods, hmain, hstmts, -, -, hspliced⟩ :=
    spliced_of_compile hshader
  cases hmethods
  cases hmain
  cases hstmts
  refine ⟨shader, _, _, hshader, htext, ?_, ?_, ?_, hspliced⟩
  · decide +kernel
  · decide +kernel
  · decide +kernel

end ShaderCompiler
