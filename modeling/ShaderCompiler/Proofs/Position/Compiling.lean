import ShaderCompiler.Proofs.Position.Normalizing
import ShaderCompiler.Proofs.Position.Reflecting
import ShaderCompiler.Proofs.Position.Sources
import ShaderCompiler.Shader.Source
import ShaderCompiler.Tree.Build

namespace ShaderCompiler

theorem MethodDecl.toBody_unplaced (m : MethodDecl) :
    m.unplaced.toBody.mapError Diagnostic.unplaced =
      (m.toBody.map MethodBody.unplaced).mapError Diagnostic.unplaced := by
  cases hbody : m.body with
  | none =>
      simp [toBody, unplaced, hbody, Except.map, Except.mapError, Diagnostic.unplaced,
        RecoveryFault.unplaced]
  | some body =>
      cases hattrs : m.attributes with
      | nil => simp [toBody, unplaced, hbody, hattrs, Except.map, MethodBody.unplaced]
      | cons a rest => simp [toBody, unplaced, hbody, hattrs, Except.map]

theorem Stmt.isEmpty_unplaced (s : Stmt) : s.unplaced.isEmpty = s.isEmpty := by
  cases s with
  | goto target span => cases target <;> rfl
  | tryCatch body catches final span => cases final <;> rfl
  | _ => rfl

theorem prologue_unplaced (className : String) (constructors : List MethodBody) :
    prologue className (constructors.map MethodBody.unplaced) =
      (prologue className constructors).map (List.map Stmt.unplaced) := by
  have hparams : (constructors.map MethodBody.unplaced).any (!·.params.isEmpty) =
      constructors.any (!·.params.isEmpty) := by
    simp only [List.any_map, Function.comp_def, MethodBody.unplaced, List.isEmpty_map]
  have htrivial (m : MethodBody) : m.unplaced.isTrivial = m.isTrivial := by
    simp only [MethodBody.isTrivial, MethodBody.unplaced, List.all_map, Function.comp_def,
      Stmt.isEmpty_unplaced]
  rw [prologue, prologue, hparams]
  by_cases h : constructors.any (!·.params.isEmpty) = true
  · rw [if_pos h, if_pos h]
    rfl
  · rw [if_neg h, if_neg h, Except.map]
    simp only [List.filter_map, List.flatMap_map, List.map_flatMap, Function.comp_def, htrivial]
    rfl

theorem withPrologue_unplaced (className : String) (stmts : List Stmt)
    (methods : List MethodBody) :
    withPrologue className (stmts.map Stmt.unplaced) (methods.map MethodBody.unplaced) =
      (withPrologue className stmts methods).map (List.map MethodBody.unplaced) := by
  have hentry (m : MethodBody) : m.unplaced.isEntryPoint = m.isEntryPoint := rfl
  have hspliced : (methods.map MethodBody.unplaced).map
        (fun m => if m.isEntryPoint then m.precededBy (stmts.map Stmt.unplaced) else m) =
      (methods.map fun m => if m.isEntryPoint then m.precededBy stmts else m).map
        MethodBody.unplaced := by
    rw [List.map_map, List.map_map]
    refine List.map_congr_left fun m _ => ?_
    simp only [Function.comp_apply, hentry]
    by_cases h : m.isEntryPoint = true
    · simp [h, MethodBody.precededBy, MethodBody.unplaced]
    · simp [h]
  rw [withPrologue, withPrologue, hspliced, List.filter_map]
  simp only [Function.comp_def, hentry]
  cases methods.filter fun m => m.isEntryPoint with
  | nil => rfl
  | cons entry others => cases others <;> rfl

theorem functionBodies_unplaced (c : ClassDecl) :
    (functionBodies c.unplaced).mapError Diagnostic.unplaced =
      ((functionBodies c).mapError Diagnostic.unplaced).map (List.map MethodBody.unplaced) := by
  have hbodies : (c.unplaced.methods.mapM MethodDecl.toBody).mapError Diagnostic.unplaced =
      ((c.methods.mapM MethodDecl.toBody).mapError Diagnostic.unplaced).map
        (List.map MethodBody.unplaced) := by
    simp only [ClassDecl.unplaced, List.mapM_map, mapError_mapM, Function.comp_def,
      MethodDecl.toBody_unplaced, mapError_map, except_mapM_map]
  have hfilter (p : Bool → Bool) (bodies : List MethodBody) :
      (bodies.map MethodBody.unplaced).filter (p ·.isConstructor) =
        (bodies.filter (p ·.isConstructor)).map MethodBody.unplaced := by
    rw [List.filter_map]
    rfl
  simp only [functionBodies, mapError_bind, hbodies, except_map_bind, except_bind_map,
    hfilter (·), hfilter (!·), prologue_unplaced, mapError_map, withPrologue_unplaced]
  rfl

theorem compile_unplaced (settings : Settings) (c : ClassDecl) :
    (compile settings c.unplaced).mapError Diagnostic.unplaced =
      (compile settings c).mapError Diagnostic.unplaced := by
  have hemitted (ctx : ClassContext) (bodies : List MethodBody) :
      ((bodies.map MethodBody.unplaced).mapM fun m =>
          emitFunction ctx settings.indent m.normalize).mapError Diagnostic.unplaced =
        (bodies.mapM fun m => emitFunction ctx settings.indent m.normalize).mapError
          Diagnostic.unplaced := by
    simp only [List.mapM_map, mapError_mapM, Function.comp_apply, MethodBody.normalize_unplaced,
      emitFunction_unplaced]
  simp only [compile, mapError_bind, ClassContext.ofClass_unplaced, reflect_unplaced,
    functionBodies_unplaced, except_map_bind, hemitted]
  rfl

/-- Both fail, for causes that agree, or both end well, with results that agree. -/
inductive Agree {ε α : Type} (causes : ε → ε → Prop) (results : α → α → Prop) :
    Except ε α → Except ε α → Prop
  | error {d d' : ε} (h : causes d d') : Agree causes results (.error d) (.error d')
  | ok {a a' : α} (h : results a a') : Agree causes results (.ok a) (.ok a')

def SameCause (d d' : Diagnostic) : Prop :=
  d.unplaced = d'.unplaced ∧ d.construct? = d'.construct?

theorem sameCause_of_unplaced {d d' : Diagnostic} (h : d.unplaced = d'.unplaced) :
    SameCause d d' := by
  have hconstruct (d : Diagnostic) : d.unplaced.construct? = d.construct? := by cases d <;> rfl
  refine ⟨h, ?_⟩
  rw [← hconstruct, h, hconstruct]

theorem Agree.imp {ε α : Type} {causes causes' : ε → ε → Prop} {results results' : α → α → Prop}
    {x y : Except ε α} (h : Agree causes results x y)
    (hc : ∀ d d', causes d d' → causes' d d') (hr : ∀ a a', results a a' → results' a a') :
    Agree causes' results' x y := by
  cases h with
  | error h => exact .error (hc _ _ h)
  | ok h => exact .ok (hr _ _ h)

theorem Agree.bind {ε α β : Type} {causes : ε → ε → Prop} {results : α → α → Prop}
    {results' : β → β → Prop} {x y : Except ε α} {k k' : α → Except ε β}
    (h : Agree causes results x y)
    (hk : ∀ a a', results a a' → Agree causes results' (k a) (k' a')) :
    Agree causes results' (x >>= k) (y >>= k') := by
  cases h with
  | error h => exact .error h
  | ok h => exact hk _ _ h

theorem Agree.of_eq {ε δ α β : Type} {g : ε → δ} {k : α → β} {x y : Except ε α}
    (h : (x.map k).mapError g = (y.map k).mapError g) :
    Agree (fun d d' => g d = g d') (fun a a' => k a = k a') x y := by
  cases x with
  | error d =>
      cases y with
      | error d' => exact .error (Except.error.inj h)
      | ok b => cases h
  | ok a =>
      cases y with
      | error d' => cases h
      | ok b => exact .ok (Except.ok.inj h)

theorem Agree.of_diagnostics {α : Type} {x y : Except Diagnostic α}
    (h : x.mapError Diagnostic.unplaced = y.mapError Diagnostic.unplaced) :
    Agree SameCause (· = ·) x y := by
  have hid (x : Except Diagnostic α) : x.map id = x := by cases x <;> rfl
  have heq : Agree (fun d d' => d.unplaced = d'.unplaced) (fun a a' => id a = id a') x y :=
    .of_eq (by rwa [hid, hid])
  exact heq.imp (fun _ _ => sameCause_of_unplaced) fun _ _ h => h

theorem readClasses_agree {ts us : List Token} (h : ts.map Token.kind = us.map Token.kind) :
    Agree (fun e e' => e.fault = e'.fault)
      (fun cs ds => cs.map ClassDecl.unplaced = ds.map ClassDecl.unplaced)
      (readClasses ts) (readClasses us) := by
  have hread : ((readClasses ts).map (List.map ClassDecl.unplaced)).mapError ReadError.unplaced =
      ((readClasses us).map (List.map ClassDecl.unplaced)).mapError ReadError.unplaced := by
    rw [← readClasses_unplaced, ← readClasses_unplaced, map_unplaced_of_kinds h]
  refine (Agree.of_eq hread).imp (fun e e' he => ?_) fun _ _ h => h
  show e.unplaced.fault = e'.unplaced.fault
  rw [he]

theorem compile_agree (settings : Settings) {c d : ClassDecl} (h : c.unplaced = d.unplaced) :
    Agree SameCause (· = ·) (compile settings c) (compile settings d) := by
  apply Agree.of_diagnostics
  rw [← compile_unplaced, h, compile_unplaced]

theorem compileAll_unplaced (settings : Settings) (cs : List ClassDecl) :
    ((cs.filter (·.isShader)).mapM (compile settings)).mapError Diagnostic.unplaced =
      ((cs.map ClassDecl.unplaced).filter (·.isShader)).mapM fun c =>
        (compile settings c).mapError Diagnostic.unplaced := by
  simp only [List.filter_map, List.mapM_map, mapError_mapM, Function.comp_def, compile_unplaced]
  rfl

theorem compileSource_agree (settings : Settings) (file : String) {text text' : String}
    {ts us : List Token} (ht : Token.tokenize text = .ok ts) (hu : Token.tokenize text' = .ok us)
    (h : ts.map Token.kind = us.map Token.kind) :
    Agree SameCause (· = ·) (compileSource settings text file)
      (compileSource settings text' file) := by
  have hsource {text : String} {ts : List Token} (ht : Token.tokenize text = .ok ts) :
      readSource text file = (readClasses ts).mapError (.unreadable file) := by
    rw [readSource, ht]
    rfl
  have hread := readClasses_agree h
  rw [compileSource, compileSource, hsource ht, hsource hu]
  revert hread
  generalize readClasses ts = x
  generalize readClasses us = y
  rintro (⟨hfault⟩ | ⟨hclasses⟩)
  · refine .error (sameCause_of_unplaced ?_)
    simp only [Diagnostic.unplaced, ReadError.unplaced, hfault]
  · apply Agree.of_diagnostics
    show Except.mapError _ (List.mapM _ _) = Except.mapError _ (List.mapM _ _)
    rw [compileAll_unplaced, compileAll_unplaced, hclasses]

/-- Positions never matter. Tokens of the same kinds are read as the same classes, or fail for the
same fault. Classes that are the same up to positions, however they came about, are compiled to the
same shader, or fail for the same cause. So texts that differ only in layout and comments give the
same shaders. -/
theorem agree_up_to_positions :
    (∀ ts us : List Token, ts.map Token.kind = us.map Token.kind →
      Agree (fun e e' => e.fault = e'.fault)
        (fun cs ds => cs.map ClassDecl.unplaced = ds.map ClassDecl.unplaced)
        (readClasses ts) (readClasses us)) ∧
    (∀ (settings : Settings) (c d : ClassDecl), c.unplaced = d.unplaced →
      Agree SameCause (· = ·) (compile settings c) (compile settings d)) ∧
    ∀ (settings : Settings) (file text text' : String) (ts us : List Token),
      Token.tokenize text = .ok ts → Token.tokenize text' = .ok us →
      ts.map Token.kind = us.map Token.kind →
      Agree SameCause (· = ·) (compileSource settings text file)
        (compileSource settings text' file) :=
  ⟨fun _ _ => readClasses_agree, fun settings _ _ => compile_agree settings,
    fun settings file _ _ _ _ => compileSource_agree settings file⟩

def inOneLine : String := "class A : VertexShader \x7b void main() \x7b \x7d \x7d"

def inFourLines : String :=
  "// at rest\nclass A: VertexShader \x7b\n  void main() \x7b /* nothing */ \x7d\n\x7d"

def emptyShaderKinds : List Token.Kind :=
  [.keyword .kwClass, .identifier "A", .symbol .colon, .identifier "VertexShader",
    .symbol .leftBrace, .identifier "void", .identifier "main", .symbol .leftParen,
    .symbol .rightParen, .symbol .leftBrace, .symbol .rightBrace, .symbol .rightBrace, .eof]

/-- A vertex shader with a `null` on a line. -/
def nullAt (line : Nat) : ClassDecl :=
  (ClassDecl.shader "A" .vertex).withMethod
    (MethodDecl.entryPoint.withStmt (.ret (some (.null ⟨0, 0, line, 1⟩))))

def staticOn (line : Nat) : List Token :=
  [⟨.keyword .kwStatic, ⟨0, 6, line, 1⟩⟩, ⟨.eof, ⟨6, 6, line, 7⟩⟩]

theorem positions_differ_and_agree :
    (∃ e e', readClasses (staticOn 3) = .error e ∧ readClasses (staticOn 8) = .error e' ∧
      e.line ≠ e'.line ∧ e.fault = e'.fault) ∧
    (∃ d d', compile {} (nullAt 3) = .error d ∧ compile {} (nullAt 8) = .error d' ∧
      d ≠ d' ∧ SameCause d d') ∧
    ∃ shaders, compileSource {} inOneLine "a" = .ok shaders ∧
      compileSource {} inFourLines "a" = .ok shaders ∧ shaders.length = 1 := by
  refine ⟨?_, ?_, ?_⟩
  · have h3 : readClasses (staticOn 3) = .error ⟨.expected "class" .eof, 3, 7⟩ := rfl
    have h8 : readClasses (staticOn 8) = .error ⟨.expected "class" .eof, 8, 7⟩ := rfl
    have hagree := agree_up_to_positions.1 (staticOn 3) (staticOn 8) rfl
    rw [h3, h8] at hagree
    cases hagree with
    | error h => exact ⟨_, _, h3, h8, by decide, h⟩
  · have h3 : compile {} (nullAt 3) = .error (.unsupported .null (.line ⟨"A", "main"⟩ 3)) := by
      decide +kernel
    have h8 : compile {} (nullAt 8) = .error (.unsupported .null (.line ⟨"A", "main"⟩ 8)) := by
      decide +kernel
    have hagree := agree_up_to_positions.2.1 {} (nullAt 3) (nullAt 8) rfl
    rw [h3, h8] at hagree
    cases hagree with
    | error h => exact ⟨_, _, h3, h8, by decide, h⟩
  · have hkinds : (Token.tokenize inOneLine).map (List.map Token.kind) = .ok emptyShaderKinds := by
      decide +kernel
    have hkinds' : (Token.tokenize inFourLines).map (List.map Token.kind) =
        .ok emptyShaderKinds := by
      decide +kernel
    have hone : (compileSource {} inOneLine "a").map List.length = .ok 1 := by decide +kernel
    obtain ⟨ts, ht, hts⟩ := exists_of_map_ok hkinds
    obtain ⟨us, hu, hus⟩ := exists_of_map_ok hkinds'
    obtain ⟨shaders, hs, hlength⟩ := exists_of_map_ok hone
    have hagree := agree_up_to_positions.2.2 {} "a" inOneLine inFourLines ts us ht hu
      (hts.trans hus.symm)
    rw [hs] at hagree
    generalize compileSource {} inFourLines "a" = y at hagree ⊢
    cases hagree with
    | ok h => exact ⟨shaders, hs, by rw [h], hlength⟩

end ShaderCompiler
