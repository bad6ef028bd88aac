import ShaderCompiler.Grammar.Class
import ShaderCompiler.Proofs.Grammar.SettledBodies

namespace ShaderCompiler

namespace Grammar

open Token

variable {α : Type} {tokens ts : List Token} {fuel depth : Nat}

theorem Keeps.skipUntil {stop : Kind → Bool} (hstop : stop .eof = true) :
    Keeps tokens fuel depth (Grammar.manyUntil stop advance fuel)
      (Grammar.manyUntil stop advance (fuel + 1)) := by
  intro ts hts
  refine .mono (.manyUntil hts (by omega) fun ts hts hgo => ?_) le_rfl fun _ => Nat.zero_le _
  refine .advanceOne hts (isEof_eq_false.mpr fun heof => ?_)
  rw [heof, hstop] at hgo
  cases hgo

theorem Keeps.modifiers : Keeps tokens fuel depth (modifiers fuel) (modifiers (fuel + 1)) :=
  .bind (.skipUntil rfl) fun _ => .pure _

namespace Takes

theorem methodBody (returnsValue : Bool) :
    Takes tokens fuel 1 (methodBody returnsValue fuel) (methodBody returnsValue (fuel + 1)) := by
  have ih := settledBodies tokens fuel
  refine ⟨by decide, fun ts hts => .eatOr rfl hts (.pure _) fun ts hts => ?_⟩
  refine .eatOr rfl hts ?_ fun ts hts => .next (ih.block.settles ts hts) fun body => .pure _
  exact .bind ih.expr.late fun value => .bind (.expect rfl) fun _ => .pure _

theorem structField : Takes tokens fuel 0 (structField fuel) (structField (fuel + 1)) := by
  refine ⟨by decide, fun ts hts => .here hts fun span _ => ?_⟩
  refine .after (.of_keeps hts .attributes) fun attrs ts hts => ?_
  refine .after (.of_keeps hts .modifiers) fun _ ts hts => ?_
  refine .next (typeRef.settles ts hts) fun type => .bind (.ident _) fun name => ?_
  refine .bind (.ifEaten rfl (settledBodies tokens fuel).initializer.late) fun init => ?_
  exact .bind (.expect rfl) fun _ => .pure _

theorem structDecl (attrs : List Attribute) (span : Span) :
    Takes tokens fuel 0 (structDecl attrs span fuel) (structDecl attrs span (fuel + 1)) := by
  refine ⟨by decide, fun ts hts => .next (.expect rfl hts) fun _ => ?_⟩
  refine .bind (.ident _) fun name => .bind (.expect rfl) fun _ => ?_
  refine .bind (.manyUntil _ structField) fun fields => ?_
  exact .bind (.expect rfl) fun _ => .bind (.eat rfl) fun _ => .pure _

theorem constantDecl (attrs : List Attribute) (span : Span) :
    Takes tokens fuel 0 (constantDecl attrs span fuel) (constantDecl attrs span (fuel + 1)) := by
  refine ⟨by decide, fun ts hts => .next (.expect rfl hts) fun _ => ?_⟩
  refine .bind typeRef.late fun type => .bind (.ident _) fun name => ?_
  refine .bind (.eat rfl) fun hasValue => .ite ?_ (.fail rfl)
  refine .bind (settledBodies tokens fuel).initializer.late fun init => ?_
  exact .bind (.expect rfl) fun _ => .pure _

theorem constructorDecl (attrs returnAttrs : List Attribute) (isStatic : Bool) (span : Span) :
    Takes tokens fuel 0 (constructorDecl attrs returnAttrs isStatic span fuel)
      (constructorDecl attrs returnAttrs isStatic span (fuel + 1)) := by
  have ih := settledBodies tokens fuel
  refine ⟨by decide, fun ts hts => .next (.ident _ hts) fun name => ?_⟩
  refine .bind ih.params.late fun given => .bind (.eat rfl) fun callsBase => .ite
    (.bind (.expect rfl) fun _ => .bind ih.args.late fun _ => ?_) ?_
  all_goals exact .bind (methodBody false).late fun body => .pure _

theorem member (className : String) :
    Takes tokens fuel 0 (member className fuel) (member className (fuel + 1)) := by
  have ih := settledBodies tokens fuel
  refine ⟨by decide, fun ts hts => .here hts fun span hspan => ?_⟩
  refine .after (.of_keeps hts .attributeLists) fun lists ts hts => ?_
  refine .after (.of_keeps hts .modifiers) fun _ ts hts => ?_
  refine .after (.eatKeep rfl hts) fun isStatic ts hts => ?_
  refine .after (.of_keeps hts .modifiers) fun _ ts hts => ?_
  refine .peek fun next _ => .peekAt 1 fun second _ => ?_
  refine .ite (fun _ => .ite (fun _ => ?_) fun _ => .failAt hspan rfl) fun _ =>
    .ite (fun _ => ?_) fun _ => .ite (fun _ => ?_) fun _ => ?_
  · exact .next ((structDecl _ span).settles ts hts) fun decl => .pure _
  · exact .next ((constantDecl _ span).settles ts hts) fun decl => .pure _
  · exact .next ((constructorDecl _ _ isStatic span).settles ts hts) fun decl => .pure _
  · refine .next (typeRef.settles ts hts) fun type => .bind (.ident _) fun name => ?_
    refine .look (.isAt _) fun isMethod => .ite ?_ (.ite ?_ (.failAt hspan rfl))
    · refine .bind ih.params.late fun given => ?_
      exact .bind (methodBody _).late fun body => .pure _
    · refine .bind (.ifEaten rfl ih.initializer.late) fun init => ?_
      exact .bind (.expect rfl) fun _ => .pure _

end Takes

theorem Keeps.classKind (name : String) (isStatic : Bool) {span : Span}
    (hspan : IsPlace tokens span.line span.column) :
    Keeps tokens fuel 16 (classKind name isStatic span) (classKind name isStatic span) := by
  refine .bind (.eat rfl) fun derives => .ite ?_ (.ite (.pure _) (.failAt hspan rfl))
  refine .here fun baseSpan hbase => .bind (.ident _) fun base => .ite (.failAt hbase rfl) ?_
  split
  · exact .pure _
  · exact .failAt hbase rfl

namespace Takes

theorem classDecl : Takes tokens fuel 0 (classDecl fuel) (classDecl (fuel + 1)) := by
  refine ⟨by decide, fun ts hts => .here hts fun span hspan => ?_⟩
  refine .after (.of_keeps hts .attributes) fun attrs ts hts => ?_
  refine .after (.of_keeps hts .modifiers) fun _ ts hts => ?_
  refine .after (.eatKeep rfl hts) fun isStatic ts hts => ?_
  refine .after (.of_keeps hts .modifiers) fun _ ts hts => ?_
  refine .next (.expect rfl hts) fun _ => .bind (.ident _) fun name => ?_
  refine .bind (.classKind name isStatic hspan) fun kind => .bind (.expect rfl) fun _ => ?_
  exact .bind (.manyUntil _ (member name)) fun members => .bind (.expect rfl) fun _ => .pure _

theorem usingDirective : Takes tokens fuel 0 (usingDirective fuel) (usingDirective (fuel + 1)) := by
  refine ⟨by decide, fun ts hts => ?_⟩
  exact .after (.of_keeps hts (.skipUntil rfl)) fun _ rest hrest => .expect rfl hrest

theorem sourceItem : Takes tokens fuel 0 (sourceItem fuel) (sourceItem (fuel + 1)) := by
  refine ⟨by decide, fun ts hts => .look (isAt_eq _ ts) (.ite (fun _ => ?_) fun _ => ?_)⟩
  · exact .next (usingDirective.settles ts hts) fun _ => .pure _
  · exact .next (classDecl.settles ts hts) fun decl => .pure _

end Takes

theorem Keeps.source : Keeps tokens fuel 16 (source fuel) (source (fuel + 1)) :=
  .bind (.manyUntil _ .sourceItem) fun _ => .pure _

def EndsOnce (tokens : List Token) : Prop :=
  ∃ before last, tokens = before ++ [last] ∧ last.kind = .eof ∧ ∀ t ∈ before, t.kind ≠ .eof

/-- What a reader does at the tokens `ts` with whatever fuel. -/
structure ReadsInside (tokens : List Token) (least : Nat) (r : Nat → Reader α) (ts : List Token) :
    Prop where
  taken : ∀ fuel a rest, r fuel ts = .ok (a, rest) →
    ∃ used, ts = used ++ rest ∧ least ≤ used.length ∧ ∀ t ∈ used, t.kind ≠ .eof
  placed : ∀ fuel e, r fuel ts = .error e → IsPlace tokens e.line e.column
  /-- Reading is over before the fuel for these tokens is used up, so more of it is of no use. -/
  ends : ∀ fuel, fuelFor ts ≤ fuel → r fuel ts = r (fuelFor ts) ts
  sufficient : ∀ fuel e, fuelFor ts ≤ fuel → r fuel ts = .error e → e.fault ≠ .tooDeep

/-- The readers of a class, its members, types, statements and expressions. A place that is passed
to a reader is that of a token, and a kind that of the next token. -/
inductive SubReader (tokens : List Token) : {α : Type} → (Nat → Reader α) → Prop
  | expr : SubReader tokens expr
  | lambda : SubReader tokens lambda
  | conditional : SubReader tokens conditional
  | binary (strength : Nat) : SubReader tokens (binary · strength)
  | unary : SubReader tokens unary
  | primary : SubReader tokens primary
  | creation (span : Span) (hspan : IsPlace tokens span.line span.column) :
      SubReader tokens (creation · span)
  | anonymousMember : SubReader tokens anonymousMember
  | args : SubReader tokens args
  | arg : SubReader tokens arg
  | queryRange : SubReader tokens queryRange
  | queryKey : SubReader tokens queryKey
  | initializer : SubReader tokens initializer
  | braceList : SubReader tokens braceList
  | parenthesized : SubReader tokens parenthesized
  | params : SubReader tokens params
  | param : SubReader tokens param
  | block : SubReader tokens block
  | statement : SubReader tokens statement
  | simpleStatement (span : Span) :
      SubReader tokens fun fuel => do simpleStatement fuel span (← peek)
  | declaration (isConst : Bool) : SubReader tokens (declaration · isConst)
  | declarator : SubReader tokens declarator
  | forLoop : SubReader tokens forLoop
  | switchSection : SubReader tokens switchSection
  | gotoTarget : SubReader tokens gotoTarget
  | tryStatement (span : Span) (hspan : IsPlace tokens span.line span.column) :
      SubReader tokens (tryStatement · span)
  | catchClause : SubReader tokens catchClause
  | typeRef : SubReader tokens fun _ => typeRef
  | attrValue : SubReader tokens fun _ => attrValue
  | attributeArg : SubReader tokens fun _ => attributeArg
  | oneAttribute : SubReader tokens oneAttribute
  | attributeList : SubReader tokens attributeList
  | methodBody (returnsValue : Bool) : SubReader tokens (methodBody returnsValue)
  | structField : SubReader tokens structField
  | structDecl (attrs : List Attribute) (span : Span) : SubReader tokens (structDecl attrs span)
  | constantDecl (attrs : List Attribute) (span : Span) :
      SubReader tokens (constantDecl attrs span)
  | constructorDecl (attrs returnAttrs : List Attribute) (isStatic : Bool) (span : Span) :
      SubReader tokens (constructorDecl attrs returnAttrs isStatic span)
  | member (className : String) : SubReader tokens (member className)
  | classDecl : SubReader tokens classDecl
  | usingDirective : SubReader tokens usingDirective
  | sourceItem : SubReader tokens sourceItem

theorem SubReader.takes {r : Nat → Reader α} (h : SubReader tokens r) :
    ∃ depth, ∀ fuel, Takes tokens fuel depth (r fuel) (r (fuel + 1)) := by
  have ih := settledBodies tokens
  cases h with
  | expr => exact ⟨5, fun fuel => (ih fuel).expr⟩
  | lambda => exact ⟨1, fun fuel => (ih fuel).lambda⟩
  | conditional => exact ⟨4, fun fuel => (ih fuel).conditional⟩
  | binary strength => exact ⟨3, fun fuel => (ih fuel).binary strength⟩
  | unary => exact ⟨2, fun fuel => (ih fuel).unary⟩
  | primary => exact ⟨1, fun fuel => (ih fuel).primary⟩
  | creation span hspan => exact ⟨1, fun fuel => (ih fuel).creation span hspan⟩
  | anonymousMember => exact ⟨1, fun fuel => (ih fuel).anonymousMember⟩
  | args => exact ⟨1, fun fuel => (ih fuel).args⟩
  | arg => exact ⟨6, fun fuel => (ih fuel).arg⟩
  | queryRange => exact ⟨1, fun fuel => (ih fuel).queryRange⟩
  | queryKey => exact ⟨5, fun fuel => (ih fuel).queryKey⟩
  | initializer => exact ⟨6, fun fuel => (ih fuel).initializer⟩
  | braceList => exact ⟨1, fun fuel => (ih fuel).braceList⟩
  | parenthesized => exact ⟨1, fun fuel => (ih fuel).parenthesized⟩
  | params => exact ⟨1, fun fuel => (ih fuel).params⟩
  | param => exact ⟨1, fun fuel => (ih fuel).param⟩
  | block => exact ⟨1, fun fuel => (ih fuel).block⟩
  | statement => exact ⟨7, fun fuel => (ih fuel).statement⟩
  | simpleStatement span =>
      refine ⟨6, fun fuel => ⟨by decide, fun ts hts => .look (peek_eq ts) ?_⟩⟩
      exact (ih fuel).simpleStatement span ts hts
  | declaration isConst => exact ⟨1, fun fuel => (ih fuel).declaration isConst⟩
  | declarator => exact ⟨1, fun fuel => (ih fuel).declarator⟩
  | forLoop => exact ⟨1, fun fuel => (ih fuel).forLoop⟩
  | switchSection => exact ⟨2, fun fuel => (ih fuel).switchSection⟩
  | gotoTarget => exact ⟨1, fun fuel => (ih fuel).gotoTarget⟩
  | tryStatement span hspan => exact ⟨2, fun fuel => (ih fuel).tryStatement span hspan⟩
  | catchClause => exact ⟨1, fun fuel => (ih fuel).catchClause⟩
  | typeRef => exact ⟨0, fun _ => .typeRef⟩
  | attrValue => exact ⟨0, fun _ => .attrValue⟩
  | attributeArg => exact ⟨0, fun _ => .attributeArg⟩
  | oneAttribute => exact ⟨0, fun _ => .oneAttribute⟩
  | attributeList => exact ⟨0, fun _ => .attributeList⟩
  | methodBody returnsValue => exact ⟨1, fun _ => .methodBody returnsValue⟩
  | structField => exact ⟨0, fun _ => .structField⟩
  | structDecl attrs span => exact ⟨0, fun _ => .structDecl attrs span⟩
  | constantDecl attrs span => exact ⟨0, fun _ => .constantDecl attrs span⟩
  | constructorDecl attrs returnAttrs isStatic span =>
      exact ⟨0, fun _ => .constructorDecl attrs returnAttrs isStatic span⟩
  | member className => exact ⟨0, fun _ => .member className⟩
  | classDecl => exact ⟨0, fun _ => .classDecl⟩
  | usingDirective => exact ⟨0, fun _ => .usingDirective⟩
  | sourceItem => exact ⟨0, fun _ => .sourceItem⟩

namespace EndsOnce

theorem within (h : EndsOnce tokens) (hsuffix : ts <:+ tokens) (hne : ts ≠ []) :
    Within tokens ts := by
  obtain ⟨before, last, rfl, hlast, -⟩ := h
  refine ⟨hsuffix, ?_⟩
  obtain ⟨front, hfront⟩ := hsuffix
  have hend : ts.getLast? = some last := by
    rw [← List.getLast?_append_of_ne_nil front hne, hfront, List.getLast?_concat]
  rw [hend, Option.map_some, hlast]

theorem ne_eof_of_mem (h : EndsOnce tokens) {used rest : List Token}
    (hts : used ++ rest <:+ tokens) (hrest : rest ≠ []) : ∀ t ∈ used, t.kind ≠ .eof := by
  obtain ⟨before, last, rfl, -, hbefore⟩ := h
  obtain ⟨front, hfront⟩ := hts
  have hused : before = front ++ (used ++ rest.dropLast) := by
    have hdrop : (before ++ [last]).dropLast = before := List.dropLast_concat
    rw [← hdrop, ← hfront, List.dropLast_append_of_ne_nil (by simp [hrest]),
      List.dropLast_append_of_ne_nil hrest]
  intro t ht
  apply hbefore t
  rw [hused]
  exact List.mem_append_right _ (List.mem_append_left _ ht)

end EndsOnce

theorem SettlesAt.eq_of_le {least : α → Nat} {r r' : Reader α}
    (h : SettlesAt tokens fuel depth least r r' ts) (hfuel : 16 * ts.length + depth ≤ fuel) :
    r' ts = r ts ∧ ∀ e, r ts = .error e → e.fault ≠ .tooDeep := by
  unfold SettlesAt at h
  cases hr : r ts with
  | ok p =>
      rw [hr] at h
      exact ⟨h.1, nofun⟩
  | error e =>
      rw [hr] at h
      obtain ⟨-, ⟨-, hshort⟩ | ⟨hfault, hmore⟩⟩ := h
      · omega
      · refine ⟨hmore, fun e' he => ?_⟩
        cases he
        exact hfault

theorem readsInside_of_settles {least : Nat} {r : Nat → Reader α} (h : EndsOnce tokens)
    (hts : Within tokens ts) (hdepth : depth ≤ 16)
    (hr : ∀ fuel, SettlesAt tokens fuel depth (fun _ => least) (r fuel) (r (fuel + 1)) ts) :
    ReadsInside tokens least r ts := by
  have henough (fuel : Nat) (hfuel : fuelFor ts ≤ fuel) : 16 * ts.length + depth ≤ fuel := by
    unfold fuelFor at hfuel
    omega
  refine ⟨?_, ?_, ?_, fun fuel e hfuel => ((hr fuel).eq_of_le (henough fuel hfuel)).2 e⟩
  · intro fuel a rest hok
    have hsettles := hr fuel
    unfold SettlesAt at hsettles
    rw [hok] at hsettles
    obtain ⟨-, hrest, hlength⟩ := hsettles
    have hlength : rest.length + least ≤ ts.length := hlength
    obtain ⟨used, rfl⟩ :=
      List.suffix_of_suffix_length_le hrest.suffix hts.suffix (by omega)
    refine ⟨used, rfl, ?_, h.ne_eof_of_mem hts.suffix (List.ne_nil_of_length_pos hrest.length_pos)⟩
    rw [List.length_append] at hlength
    omega
  · intro fuel e herror
    have hsettles := hr fuel
    unfold SettlesAt at hsettles
    rw [herror] at hsettles
    exact hsettles.1
  · intro fuel hfuel
    induction fuel, hfuel using Nat.le_induction with
    | base => rfl
    | succ fuel hfuel ih => rw [((hr fuel).eq_of_le (henough fuel hfuel)).1, ih]

/-- A result that no fuel beyond that for the tokens changes, and that names a token if it is an
error. -/
structure Finishes (tokens : List Token) (r : Nat → Reader α) (result : Except ReadError α) :
    Prop where
  reads : ReadsInside tokens 0 r tokens
  result_eq : ∀ fuel, fuelFor tokens ≤ fuel → result = (r fuel tokens).map (·.1)
  sufficient : ∀ e, result = .error e → e.fault ≠ .tooDeep ∧ IsPlace tokens e.line e.column

theorem finishes_of_readsInside {r : Nat → Reader α} (h : ReadsInside tokens 0 r tokens) :
    Finishes tokens r ((r (fuelFor tokens) tokens).map (·.1)) := by
  refine ⟨h, fun fuel hfuel => by rw [h.ends fuel hfuel], fun e he => ?_⟩
  cases hr : r (fuelFor tokens) tokens with
  | ok p =>
      rw [hr] at he
      cases he
  | error e' =>
      rw [hr] at he
      cases he
      exact ⟨h.sufficient _ e le_rfl hr, h.placed _ e hr⟩

end Grammar

/-- Reading ends inside the tokens, as a whole and in each of its parts. -/
structure ParsesInside (tokens : List Token) : Prop where
  parts : ∀ {α : Type} {r : Nat → Grammar.Reader α}, Grammar.SubReader tokens r →
    ∀ ts, ts <:+ tokens → ts ≠ [] → Grammar.ReadsInside tokens 1 r ts
  classes : Grammar.Finishes tokens Grammar.source (readClasses tokens)
  expression : Grammar.Finishes tokens Grammar.expr (readExpr tokens)

theorem parsesInside_of_endsOnce {tokens : List Token} (h : Grammar.EndsOnce tokens) :
    ParsesInside tokens := by
  have hne : tokens ≠ [] := by
    obtain ⟨before, last, rfl, -, -⟩ := h
    simp
  have hall := h.within List.suffix_rfl hne
  refine ⟨fun {α r} hr ts hsuffix hts => ?_, ?_, ?_⟩
  · obtain ⟨depth, htakes⟩ := hr.takes
    have hwithin := h.within hsuffix hts
    exact Grammar.readsInside_of_settles h hwithin (Nat.le_succ_of_le (htakes 0).shallow)
      fun fuel => (htakes fuel).settles ts hwithin
  · apply Grammar.finishes_of_readsInside
    exact Grammar.readsInside_of_settles h hall le_rfl fun fuel => .of_keeps hall .source
  · apply Grammar.finishes_of_readsInside
    exact Grammar.readsInside_of_settles h hall le_rfl fun fuel =>
      .of_keeps hall (Grammar.settledBodies tokens fuel).expr.late

/-- `(x` without its closing parenthesis. -/
def openTokens : List Token :=
  [⟨.symbol .leftParen, ⟨0, 1, 1, 1⟩⟩, ⟨.identifier "x", ⟨1, 2, 1, 2⟩⟩, ⟨.eof, ⟨2, 2, 1, 3⟩⟩]

/-- The error is at the end, which is not taken. With too little fuel there would be another one. -/
theorem parsesInside_openTokens :
    readExpr openTokens =
        .error ⟨.expected (Token.Kind.symbol .rightParen).text .eof, 1, 3⟩ ∧
      Grammar.expr 5 openTokens = .error ⟨.tooDeep, 1, 2⟩ ∧
      Grammar.fuelFor openTokens = 80 ∧ Grammar.EndsOnce openTokens ∧ ParsesInside openTokens := by
  have hends : Grammar.EndsOnce openTokens :=
    ⟨openTokens.take 2, ⟨.eof, ⟨2, 2, 1, 3⟩⟩, rfl, rfl,
      List.forall_mem_cons.mpr ⟨nofun, List.forall_mem_cons.mpr ⟨nofun, nofun⟩⟩⟩
  exact ⟨rfl, rfl, rfl, hends, parsesInside_of_endsOnce hends⟩

end ShaderCompiler
