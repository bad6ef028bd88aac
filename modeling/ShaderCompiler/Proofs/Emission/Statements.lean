import ShaderCompiler.Proofs.Emission.Derivations
import ShaderCompiler.Proofs.Emission.Frames

namespace ShaderCompiler

/-- The size and the initial value of an array, by what is written out of the value. -/
inductive PartsOf (f : Frame) (element : String) (hint : Option ScalarKind) :
    Option Expr → Uses → ArrayParts → Uses → Prop
  | listed {items u v ts} (hne : items.isEmpty = false) (hitems : RendersItems f hint items u ts v) :
      PartsOf f element hint (some (.arrayInit items)) u
        ⟨toString items.length, some (arrayText element ts)⟩ v
  | created {type size items u v ts} (hne : items.isEmpty = false)
      (hitems : RendersItems f hint items u ts v) :
      PartsOf f element hint (some (.newArray type size (some items))) u
        ⟨toString items.length, some (arrayText element ts)⟩ v
  | sized {type size u v r} (hsize : Renders f none size u r v) :
      PartsOf f element hint (some (.newArray type (some size) none)) u ⟨r.text, none⟩ v
  | value {e u v r} (harray : e.isArrayValue = false) (hvalue : Renders f none e u r v) :
      PartsOf f element hint (some e) u ⟨"", some (r.fit Precedence.assign)⟩ v

inductive DeclaresName (f : Frame) (type : ValueType) (target : String) :
    Declarator Expr → Uses → String → Uses → Prop
  | array {name init u v size text}
      (harray : (type.array || init.any Expr.isArrayValue) = true)
      (hparts : PartsOf f target (literalHint (some type)) init u ⟨size, some text⟩ v) :
      DeclaresName f type target ⟨name, init⟩ u (name ++ "[" ++ size ++ "]" ++ " = " ++ text) v
  | sizedArray {name init u v size}
      (harray : (type.array || init.any Expr.isArrayValue) = true)
      (hparts : PartsOf f target (literalHint (some type)) init u ⟨size, none⟩ v) :
      DeclaresName f type target ⟨name, init⟩ u (name ++ "[" ++ size ++ "]") v
  | value {name init u v r}
      (harray : (type.array || (some init).any Expr.isArrayValue) = false)
      (hvalue : Renders f (literalHint (some type)) init u r v) :
      DeclaresName f type target ⟨name, some init⟩ u (name ++ " = " ++ r.fit Precedence.assign) v
  | bare {name u} (harray : (type.array || (none : Option Expr).any Expr.isArrayValue) = false) :
      DeclaresName f type target ⟨name, none⟩ u name u

inductive DeclaresNames (type : ValueType) (target : String) :
    Frame → List (Declarator Expr) → Uses → List String → Uses → Prop
  | nil {f u} : DeclaresNames type target f [] u [] u
  | cons {f d ds u u₁ v text texts} (hname : DeclaresName f type target d u text u₁)
      (hrest : DeclaresNames type target (f.bind d.name (boundType type d)) ds u₁ texts v) :
      DeclaresNames type target f (d :: ds) u (text :: texts) v

inductive DeclaresLocals (f : Frame) (isConst : Bool) (type : TypeRef) (ds : List (Declarator Expr))
    (u : Uses) : String → Uses → Prop
  | intro {valueType target texts v} (hpointer : ¬ type.pointer = true)
      (htype : f.declaredAs type ds = some valueType)
      (htarget : f.context.resolveType valueType.name = .ok target)
      (hnames : DeclaresNames valueType target f ds u texts v) :
      DeclaresLocals f isConst type ds u
        (if isConst then "const " ++ (target ++ " " ++ String.intercalate ", " texts)
          else target ++ " " ++ String.intercalate ", " texts) v

inductive EmitsInits : Frame → List Stmt → Uses → List String → Uses → Prop
  | nil {f u} : EmitsInits f [] u [] u
  | declare {f isConst type ds rest u u₁ v text texts}
      (hdeclared : DeclaresLocals f isConst type ds u text u₁)
      (hrest : EmitsInits (f.after (.declare isConst type ds)) rest u₁ texts v) :
      EmitsInits f (.declare isConst type ds :: rest) u (text :: texts) v
  | eval {f e rest u u₁ v r texts} (he : Renders f none e u r u₁)
      (hrest : EmitsInits f rest u₁ texts v) :
      EmitsInits f (.eval e :: rest) u (r.text :: texts) v

inductive EmitsTest (f : Frame) : Option Expr → Uses → String → Uses → Prop
  | none {u} : EmitsTest f none u "" u
  | some {e u v r} (he : Renders f .none e u r v) : EmitsTest f (some e) u (" " ++ r.text) v

inductive EmitsSteps (f : Frame) (steps : List Expr) (u : Uses) : String → Uses → Prop
  | intro {texts v} (hitems : RendersItems f none steps u texts v) :
      EmitsSteps f steps u (if texts.isEmpty then "" else " " ++ String.intercalate ", " texts) v

inductive EmitsLabels (f : Frame) : List (CaseLabel Expr) → Uses → List Line → Uses → Prop
  | nil {u} : EmitsLabels f [] u [] u
  | value {e rest u u₁ v r lines} (he : Renders f none e u r u₁)
      (hrest : EmitsLabels f rest u₁ lines v) :
      EmitsLabels f (.value e :: rest) u (.flat ("case " ++ r.text ++ ":") :: lines) v
  | default {rest u v lines} (hrest : EmitsLabels f rest u lines v) :
      EmitsLabels f (.default :: rest) u (.flat "default:" :: lines) v

mutual

/-- The lines of a statement. Only a declaration changes the frame for what follows. -/
inductive Emits : Frame → Bool → Stmt → Uses → List Line → Uses → Prop
  | block {f braced body u v lines} (hbody : EmitsAll f body u lines v) :
      Emits f braced (.block body) u
        (if braced then Line.opened "\x7b" lines ++ [.flat "\x7d"] else lines) v
  | empty {f braced u} : Emits f braced .empty u [] u
  | ifElse {f braced test yes no u u₁ u₂ v c body rest} (htest : Renders f none test u c u₁)
      (hyes : Emits f false yes u₁ body u₂) (hno : EmitsElse f no u₂ rest v) :
      Emits f braced (.ifElse test yes no) u
        (Line.opened ("if (" ++ c.text ++ ") \x7b") body ++ rest ++ [.flat "\x7d"]) v
  | whileLoop {f braced test body u u₁ v c lines} (htest : Renders f none test u c u₁)
      (hbody : Emits f false body u₁ lines v) :
      Emits f braced (.whileLoop test body) u
        (Line.opened ("while (" ++ c.text ++ ") \x7b") lines ++ [.flat "\x7d"]) v
  | doWhile {f braced test body u u₁ v c lines} (hbody : Emits f false body u lines u₁)
      (htest : Renders f none test u₁ c v) :
      Emits f braced (.doWhile body test) u
        (Line.opened "do \x7b" lines ++ [.flat ("\x7d while (" ++ c.text ++ ");")]) v
  | forLoop {f braced init test step body u u₁ u₂ u₃ v inits t st lines}
      (hinit : EmitsInits f init u inits u₁) (htest : EmitsTest (f.afterAll init) test u₁ t u₂)
      (hstep : EmitsSteps (f.afterAll init) step u₂ st u₃)
      (hbody : Emits (f.afterAll init) false body u₃ lines v) :
      Emits f braced (.forLoop init test step body) u
        (Line.opened ("for (" ++ String.intercalate ", " inits ++ ";" ++ t ++ ";" ++ st ++ ") \x7b")
          lines ++ [.flat "\x7d"]) v
  | switch {f braced scrutinee sections u u₁ v s lines} (hs : Renders f none scrutinee u s u₁)
      (hsections : EmitsSections f sections u₁ lines v) :
      Emits f braced (.switch scrutinee sections) u
        (.flat ("switch (" ++ s.text ++ ") \x7b") :: lines ++ [.flat "\x7d"]) v
  | retNone {f braced u} : Emits f braced (.ret none) u [.flat "return;"] u
  | ret {f braced value u v r} (hvalue : Renders f (literalHint f.returns) value u r v) :
      Emits f braced (.ret (some value)) u [.flat ("return " ++ r.text ++ ";")] v
  | brk {f braced u} : Emits f braced .brk u [.flat "break;"] u
  | cont {f braced u} : Emits f braced .cont u [.flat "continue;"] u
  | discard {f braced u} (hstage : ¬ f.context.stage.any (· != .fragment) = true) :
      Emits f braced .discard u [.flat "discard;"] u
  | declare {f braced isConst type ds u v text}
      (hdeclared : DeclaresLocals f isConst type ds u text v) :
      Emits f braced (.declare isConst type ds) u [.flat (text ++ ";")] v
  | eval {f braced e u v r} (he : Renders f none e u r v) :
      Emits f braced (.eval e) u [.flat (evalText e r.text)] v

inductive EmitsElse : Frame → Option Stmt → Uses → List Line → Uses → Prop
  | none {f u} : EmitsElse f none u [] u
  | elseIf {f test yes no u u₁ u₂ v c body rest} (htest : Renders f .none test u c u₁)
      (hyes : Emits f false yes u₁ body u₂) (hno : EmitsElse f no u₂ rest v) :
      EmitsElse f (some (.ifElse test yes no)) u
        (Line.opened ("\x7d else if (" ++ c.text ++ ") \x7b") body ++ rest) v
  | other {f s u v body} (hs : ∀ test yes no, s ≠ .ifElse test yes no)
      (hbody : Emits f false s u body v) :
      EmitsElse f (some s) u (Line.opened "\x7d else \x7b" body) v

inductive EmitsAll : Frame → List Stmt → Uses → List Line → Uses → Prop
  | nil {f u} : EmitsAll f [] u [] u
  | cons {f s rest u u₁ v lines more} (hs : Emits f true s u lines u₁)
      (hrest : EmitsAll (f.after s) rest u₁ more v) :
      EmitsAll f (s :: rest) u (lines ++ more) v

inductive EmitsSections :
    Frame → List (SwitchSection Expr Stmt) → Uses → List Line → Uses → Prop
  | nil {f u} : EmitsSections f [] u [] u
  | cons {f labels body rest u u₁ u₂ v ls lines more} (hlabels : EmitsLabels f labels u ls u₁)
      (hbody : EmitsAll f body u₁ lines u₂)
      (hrest : EmitsSections (f.afterAll body) rest u₂ more v) :
      EmitsSections f (⟨labels, body⟩ :: rest) u (ls ++ lines.map Line.nest ++ more) v

end

theorem outcome_listedParts (f : Frame) (element : String) (hint : Option ScalarKind)
    (name : String) (items : List Expr) (u : Uses) :
    Outcome (fun p => ∃ ts, items.isEmpty = false ∧ RendersItems f hint items u ts p.2 ∧
        p.1 = ⟨toString items.length, some (arrayText element ts)⟩)
      (rejectionsOfItems f.context items) (listedParts f element hint name items u) := by
  rw [listedParts]
  cases hne : items.isEmpty with
  | true => exact .other rfl
  | false =>
      refine (outcome_renderItems f hint items u).andThen fun ts v hts => ?_
      exact .ok ⟨ts, rfl, hts, rfl⟩

theorem outcome_arrayParts (f : Frame) (element : String) (hint : Option ScalarKind)
    (name : String) (init : Option Expr) (u : Uses) :
    Outcome (fun p => PartsOf f element hint init u p.1 p.2)
      (init.toList.flatMap (Expr.rejections f.context))
      (arrayParts f element hint name init u) := by
  cases init with
  | none => exact .other rfl
  | some e =>
      rw [Option.toList_some, List.flatMap_singleton]
      cases e with
      | arrayInit items =>
          refine (outcome_listedParts f element hint name items u).imp ?_
          rintro ⟨parts, v⟩ ⟨ts, hne, hts, rfl⟩
          exact .listed hne hts
      | newArray type size items =>
          cases items with
          | some items =>
              have hitems := (outcome_listedParts f element hint name items u).imp fun p hp =>
                show PartsOf f element hint (some (.newArray type size (some items))) u p.1 p.2 by
                  obtain ⟨ts, hne, hts, he⟩ := hp
                  rw [he]
                  exact .created hne hts
              cases size <;> exact hitems.right
          | none =>
              cases size with
              | none => exact .other rfl
              | some size =>
                  rw [Expr.rejections]
                  refine (outcome_render f none size u).right.andThen fun r v hr => ?_
                  exact .ok (.sized hr)
      | _ => exact (outcome_render f none _ u).andThen fun r v hr => .ok (.value rfl hr)

/-- The type of locals is found without noting anything: where the value of `var` has none, the
value is rendered for what it is refused for, and then refused anyway. -/
theorem outcome_declaredType (f : Frame) (type : TypeRef) (ds : List (Declarator Expr))
    (u : Uses) :
    Outcome (fun p => f.declaredAs type ds = some p.1 ∧ p.2 = u)
      (rejectionsOfDeclarators f.context ds) (declaredType f type ds u) := by
  rw [declaredType, Frame.declaredAs]
  split
  · cases hinit : ds.head?.bind (·.init) with
    | none => exact .other rfl
    | some init =>
        dsimp only
        rw [Option.bind_some]
        cases infer f.env init with
        | some t => exact .ok ⟨rfl, rfl⟩
        | none =>
            refine ((outcome_render f none init u).mono ?_).andThen fun r v _ => .other rfl
            obtain ⟨d, hd, hi⟩ := Option.bind_eq_some_iff.mp hinit
            have hmem : init ∈ ds.filterMap (·.init) :=
              List.mem_filterMap.mpr ⟨d, List.mem_of_mem_head? hd, hi⟩
            exact fun c hc => List.mem_flatMap.mpr ⟨init, hmem, hc⟩
  · exact .ok ⟨rfl, rfl⟩

theorem outcome_declarator (f : Frame) (type : ValueType) (target : String)
    (d : Declarator Expr) (u : Uses) :
    Outcome (fun p => p.1.2 = boundType type d ∧ DeclaresName f type target d u p.1.1 p.2)
      (d.init.toList.flatMap (Expr.rejections f.context)) (declarator f type target d u) := by
  obtain ⟨name, init⟩ := d
  rw [declarator, boundType]
  cases harray : type.array || init.any Expr.isArrayValue with
  | true =>
      refine (outcome_arrayParts f target _ name init u).andThen fun parts v hparts => ?_
      obtain ⟨size, text⟩ := parts
      cases text with
      | some text => exact .ok ⟨rfl, .array harray hparts⟩
      | none => exact .ok ⟨rfl, .sizedArray harray hparts⟩
  | false =>
      cases init with
      | none => exact .ok ⟨rfl, .bare harray⟩
      | some e =>
          rw [Option.toList_some, List.flatMap_singleton]
          refine (outcome_render f _ e u).andThen fun r v hr => ?_
          exact .ok ⟨rfl, .value harray hr⟩

theorem outcome_declaratorList (f : Frame) (type : ValueType) (target : String)
    (ds : List (Declarator Expr)) (u : Uses) :
    Outcome (fun p => p.1.2 = f.bindAll type ds ∧ DeclaresNames type target f ds u p.1.1 p.2)
      (rejectionsOfDeclarators f.context ds) (declaratorList f type target ds u) := by
  induction ds generalizing f u with
  | nil => exact .ok ⟨rfl, .nil⟩
  | cons d ds ih =>
      rw [declaratorList, rejectionsOfDeclarators_cons]
      refine (outcome_declarator f type target d u).left.andThen ?_
      rintro ⟨text, bound⟩ u₁ ⟨rfl, hname⟩
      have hrest := ih (f.bind d.name (boundType type d)) u₁
      rw [Frame.context_bind] at hrest
      refine hrest.right.andThen ?_
      rintro ⟨texts, g⟩ v ⟨rfl, htexts⟩
      exact .ok ⟨rfl, .cons hname htexts⟩

theorem outcome_declaration (f : Frame) (isConst : Bool) (type : TypeRef)
    (ds : List (Declarator Expr)) (u : Uses) :
    Outcome (fun p => p.1.2 = f.after (.declare isConst type ds) ∧
        DeclaresLocals f isConst type ds u p.1.1 p.2)
      (type.rejections ++ rejectionsOfDeclarators f.context ds)
      (declaration f isConst type ds u) := by
  rw [declaration, Frame.after]
  split
  · next hpointer => exact .single rfl (by simp [TypeRef.rejections, hpointer])
  · next hpointer =>
      refine (outcome_declaredType f type ds u).right.andThen ?_
      rintro valueType u₁ ⟨htype, rfl⟩
      refine (failsFor_resolveType _ _).lift fun target htarget => ?_
      refine (outcome_declaratorList f valueType target ds _).right.andThen ?_
      rintro ⟨texts, g⟩ v ⟨rfl, hnames⟩
      refine .ok ⟨?_, .intro hpointer htype htarget hnames⟩
      rw [htype]
      rfl

theorem outcome_forInits (f : Frame) (init : List Stmt) (u : Uses) :
    Outcome (fun p => p.1.2 = f.afterAll init ∧ EmitsInits f init u p.1.1 p.2)
      (rejectionsIn f.context init) (forInits f init u) := by
  induction init generalizing f u with
  | nil => exact .ok ⟨rfl, .nil⟩
  | cons s rest ih =>
      rw [Frame.afterAll, List.foldl_cons, ← Frame.afterAll, rejectionsIn]
      cases s with
      | declare isConst type ds =>
          rw [forInits, Stmt.rejections]
          refine (outcome_declaration f isConst type ds u).left.andThen ?_
          rintro ⟨text, g⟩ u₁ ⟨rfl, hdeclared⟩
          have hrest := ih (f.after (.declare isConst type ds)) u₁
          rw [Frame.context_after] at hrest
          refine hrest.right.andThen ?_
          rintro ⟨texts, g⟩ v ⟨rfl, htexts⟩
          exact .ok ⟨rfl, .declare hdeclared htexts⟩
      | eval e =>
          rw [forInits, Stmt.rejections]
          refine (outcome_render f none e u).left.andThen fun r u₁ hr => ?_
          refine (ih f u₁).right.andThen ?_
          rintro ⟨texts, g⟩ v ⟨rfl, htexts⟩
          exact .ok ⟨rfl, .eval hr htexts⟩
      | _ => exact .other rfl

theorem outcome_forTest (f : Frame) (test : Option Expr) (u : Uses) :
    Outcome (fun p => EmitsTest f test u p.1 p.2)
      (test.toList.flatMap (Expr.rejections f.context)) (forTest f test u) := by
  cases test with
  | none => exact .ok .none
  | some e =>
      rw [Option.toList_some, List.flatMap_singleton]
      exact (outcome_render f none e u).andThen fun r v hr => .ok (.some hr)

theorem outcome_forSteps (f : Frame) (steps : List Expr) (u : Uses) :
    Outcome (fun p => EmitsSteps f steps u p.1 p.2) (rejectionsOfItems f.context steps)
      (forSteps f steps u) :=
  (outcome_renderItems f none steps u).andThen fun _ _ htexts => .ok (.intro htexts)

theorem outcome_caseLabels (f : Frame) (labels : List (CaseLabel Expr)) (u : Uses) :
    Outcome (fun p => EmitsLabels f labels u p.1 p.2)
      ((labels.filterMap CaseLabel.value?).flatMap (Expr.rejections f.context))
      (caseLabels f labels u) := by
  induction labels generalizing u with
  | nil => exact .ok .nil
  | cons label labels ih =>
      cases label with
      | value e =>
          have hvalues : (CaseLabel.value e :: labels).filterMap CaseLabel.value? =
              e :: labels.filterMap CaseLabel.value? := rfl
          rw [caseLabels, hvalues, List.flatMap_cons]
          refine (outcome_render f none e u).left.andThen fun r u₁ hr => ?_
          exact (ih u₁).right.andThen fun lines v hlines => .ok (.value hr hlines)
      | default =>
          rw [caseLabels]
          exact (ih u).andThen fun lines v hlines => .ok (.default hlines)

mutual

theorem outcome_emitStmt (f : Frame) (braced : Bool) : (s : Stmt) → (u : Uses) →
    Outcome (fun p => p.1.2 = f.after s ∧ Emits f braced s u p.1.1 p.2) (s.rejections f.context)
      (emitStmt f braced s u)
  | .block body, u => by
      rw [emitStmt, Stmt.rejections]
      refine (outcome_emitStmts f body u).andThen ?_
      rintro ⟨lines, g⟩ v ⟨-, hlines⟩
      exact .ok ⟨rfl, .block hlines⟩
  | .ifElse test yes no, u => by
      rw [emitStmt, Stmt.rejections_ifElse]
      refine (outcome_render f none test u).left.left.andThen fun c u₁ hc => ?_
      refine (outcome_emitStmt f false yes u₁).right.left.andThen ?_
      rintro ⟨body, g⟩ u₂ ⟨-, hbody⟩
      refine (outcome_emitElse f no u₂).right.andThen fun rest v hrest => ?_
      exact .ok ⟨rfl, .ifElse hc hbody hrest⟩
  | .whileLoop test body, u => by
      rw [emitStmt, Stmt.rejections]
      refine (outcome_render f none test u).left.andThen fun c u₁ hc => ?_
      refine (outcome_emitStmt f false body u₁).right.andThen ?_
      rintro ⟨lines, g⟩ v ⟨-, hlines⟩
      exact .ok ⟨rfl, .whileLoop hc hlines⟩
  | .doWhile body test, u => by
      rw [emitStmt, Stmt.rejections]
      refine (outcome_emitStmt f false body u).left.andThen ?_
      rintro ⟨lines, g⟩ u₁ ⟨-, hlines⟩
      refine (outcome_render f none test u₁).right.andThen fun c v hc => ?_
      exact .ok ⟨rfl, .doWhile hlines hc⟩
  | .forLoop init test step body, u => by
      rw [emitStmt, Stmt.rejections]
      refine (outcome_forInits f init u).left.left.left.andThen ?_
      rintro ⟨inits, g⟩ u₁ ⟨rfl, hinits⟩
      have htest := outcome_forTest (f.afterAll init) test u₁
      rw [Frame.context_afterAll] at htest
      refine htest.right.left.left.andThen fun t u₂ ht => ?_
      have hsteps := outcome_forSteps (f.afterAll init) step u₂
      rw [Frame.context_afterAll] at hsteps
      refine hsteps.right.left.andThen fun st u₃ hst => ?_
      have hbody := outcome_emitStmt (f.afterAll init) false body u₃
      rw [Frame.context_afterAll] at hbody
      refine hbody.right.andThen ?_
      rintro ⟨lines, g⟩ v ⟨-, hlines⟩
      exact .ok ⟨rfl, .forLoop hinits ht hst hlines⟩
  | .switch scrutinee sections, u => by
      rw [emitStmt, Stmt.rejections]
      refine (outcome_render f none scrutinee u).left.andThen fun s u₁ hs => ?_
      refine (outcome_emitSections f sections u₁).right.andThen fun lines v hlines => ?_
      exact .ok ⟨rfl, .switch hs hlines⟩
  | .ret none, _ => .ok ⟨rfl, .retNone⟩
  | .ret (some value), u => by
      rw [emitStmt, Stmt.rejections, Option.toList_some, List.flatMap_singleton]
      exact (outcome_render f _ value u).andThen fun r v hr => .ok ⟨rfl, .ret hr⟩
  | .discard, u => by
      rw [emitStmt]
      split
      · exact .other rfl
      · next hstage => exact .ok ⟨rfl, .discard hstage⟩
  | .declare isConst type ds, u => by
      rw [emitStmt, Stmt.rejections]
      refine (outcome_declaration f isConst type ds u).andThen ?_
      rintro ⟨text, g⟩ v ⟨rfl, htext⟩
      exact .ok ⟨rfl, .declare htext⟩
  | .eval e, u => by
      rw [emitStmt, Stmt.rejections]
      exact (outcome_render f none e u).andThen fun r v hr => .ok ⟨rfl, .eval hr⟩
  | .empty, _ => .ok ⟨rfl, .empty⟩
  | .brk, _ => .ok ⟨rfl, .brk⟩
  | .cont, _ => .ok ⟨rfl, .cont⟩
  | .tryCatch _ _ _ _, _ | .throw _ _, _ | .foreach _ _ _ _ _, _ | .lock _ _ _, _
  | .using _ _ _, _ | .goto _ _, _ | .labeled _ _ _, _ | .yield _ _, _ | .unmanaged _ _, _
  | .fixed _ _ _, _ | .attributed _ _ _, _ => .single rfl (List.mem_singleton_self _)

theorem outcome_emitElse (f : Frame) : (no : Option Stmt) → (u : Uses) →
    Outcome (fun p => EmitsElse f no u p.1 p.2) (no.toList.flatMap (Stmt.rejections f.context))
      (emitElse f no u)
  | none, _ => .ok .none
  | some s, u => by
      have hs := outcome_emitStmt f false s u
      rw [Option.toList_some, List.flatMap_singleton]
      cases s with
      -- an `else if` goes on with the chain and is no statement in braces
      | ifElse test yes no =>
          rw [emitElse, Stmt.rejections_ifElse]
          refine (outcome_render f none test u).left.left.andThen fun c u₁ hc => ?_
          refine (outcome_emitStmt f false yes u₁).right.left.andThen ?_
          rintro ⟨body, g⟩ u₂ ⟨-, hbody⟩
          refine (outcome_emitElse f no u₂).right.andThen fun rest v hrest => ?_
          exact .ok (.elseIf hc hbody hrest)
      | _ => exact hs.andThen fun p v hp => .ok (.other nofun hp.2)

theorem outcome_emitStmts (f : Frame) : (body : List Stmt) → (u : Uses) →
    Outcome (fun p => p.1.2 = f.afterAll body ∧ EmitsAll f body u p.1.1 p.2)
      (rejectionsIn f.context body) (emitStmts f body u)
  | [], _ => .ok ⟨rfl, .nil⟩
  | s :: rest, u => by
      rw [emitStmts, rejectionsIn]
      refine (outcome_emitStmt f true s u).left.andThen ?_
      rintro ⟨lines, g⟩ u₁ ⟨rfl, hlines⟩
      have hrest := outcome_emitStmts (f.after s) rest u₁
      rw [Frame.context_after] at hrest
      refine hrest.right.andThen ?_
      rintro ⟨more, g⟩ v ⟨rfl, hmore⟩
      exact .ok ⟨rfl, .cons hlines hmore⟩

theorem outcome_emitSections (f : Frame) : (sections : List (SwitchSection Expr Stmt)) →
    (u : Uses) →
    Outcome (fun p => EmitsSections f sections u p.1 p.2)
      (rejectionsInSections f.context sections) (emitSections f sections u)
  | [], _ => .ok .nil
  | ⟨labels, body⟩ :: rest, u => by
      rw [emitSections, rejectionsInSections]
      refine (outcome_caseLabels f labels u).left.left.andThen fun ls u₁ hls => ?_
      refine (outcome_emitStmts f body u₁).right.left.andThen ?_
      rintro ⟨lines, g⟩ u₂ ⟨rfl, hlines⟩
      have hrest := outcome_emitSections (f.afterAll body) rest u₂
      rw [Frame.context_afterAll] at hrest
      exact hrest.right.andThen fun more v hmore => .ok (.cons hls hlines hmore)

end

end ShaderCompiler
