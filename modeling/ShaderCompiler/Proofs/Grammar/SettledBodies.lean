import ShaderCompiler.Proofs.Grammar.Settling

namespace ShaderCompiler.Grammar

open Token

variable {tokens ts : List Token} {fuel depth : Nat}

theorem isEof_nextKind {α : Type} {choice : Kind → Option α} {next : Kind} {a : α}
    (hnext : nextKind ts = next) (h : choice next = some a) (hend : choice .eof = none) :
    isEof (nextKind ts) = false := by
  rw [hnext, isEof_eq_false]
  rintro rfl
  rw [hend] at h
  cases h

theorem nextKind_of_startsCast (h : startsCast ts = .ok (true, ts)) :
    nextKind ts = .symbol .leftParen := by
  cases ts with
  | nil => cases h
  | cons t rest =>
      by_contra hne
      rw [startsCast_of_ne hne] at h
      cases h

namespace Takes

theorem typeRef : Takes tokens fuel 0 typeRef typeRef := by
  refine ⟨Nat.zero_le _, fun ts hts => .here hts fun span _ => .next (.ident _ hts) ?_⟩
  intro name ts hts
  refine .peek fun first hfirst => .peekAt 1 fun second hsecond => .ite (fun h => ?_) fun _ => ?_
  · obtain ⟨rfl, rfl⟩ : first = .symbol .leftBracket ∧ second = .symbol .rightBracket := by
      simpa using h
    exact .keep (.takeTwo hts (hfirst ▸ rfl) (hsecond ▸ rfl) (.pure _))
  · exact .after (.eatKeep rfl hts) fun star rest hrest =>
      .ite (fun _ => .pure _ hrest) fun _ => .pure _ hrest

theorem attrValue : Takes tokens fuel 0 attrValue attrValue := by
  refine ⟨Nat.zero_le _, fun ts hts => .here hts fun span hspan => ?_⟩
  refine .after (.eatKeep rfl hts) fun negative rest hrest => ?_
  cases negative
  all_goals
    -- the end is no value, and the reader then fails where it began
    refine .takeUnlessEof hspan ?_ rfl rfl hrest fun got => ?_
    · rfl
    · cases got with
      | keyword word => cases word <;> first | exact .failAt hspan rfl | exact .pure _
      | _ => first | exact .failAt hspan rfl | exact .pure _

theorem attributeArg : Takes tokens fuel 0 attributeArg attributeArg := by
  refine ⟨Nat.zero_le _, fun ts hts => .peek fun first hfirst => .peekAt 1 fun second hsecond => ?_⟩
  refine .ite (fun h => ?_) fun _ => .next (attrValue.settles ts hts) fun _ => .pure _
  have hsecond : nextKind (ts.drop 1) = .symbol .equals := by
    rw [hsecond]
    simpa using (Bool.and_eq_true_iff.mp h).2
  refine .identTake _ hts (hsecond ▸ rfl) fun key => ?_
  exact .bind attrValue.late fun value => .pure _

theorem oneAttribute : Takes tokens fuel 0 (oneAttribute fuel) (oneAttribute (fuel + 1)) := by
  refine ⟨Nat.zero_le _, fun ts hts => .here hts fun span _ => .next (.ident _ hts) fun name => ?_⟩
  refine .bind (.eat rfl) fun given => .ite ?_ (.pure _)
  exact .bind (.commaList _ attributeArg) fun args => .bind (.expect rfl) fun _ => .pure _

theorem attributeList : Takes tokens fuel 0 (attributeList fuel) (attributeList (fuel + 1)) := by
  have hrest (forReturn : Bool) : Keeps tokens fuel 16
      (do let attributes ← sepBy (Grammar.oneAttribute fuel) fuel
          expect Symbol.rightBracket
          return (forReturn, attributes))
      (do let attributes ← sepBy (Grammar.oneAttribute (fuel + 1)) (fuel + 1)
          expect Symbol.rightBracket
          return (forReturn, attributes)) :=
    .bind (.sepBy oneAttribute) fun _ => .bind (.expect rfl) fun _ => .pure _
  refine ⟨Nat.zero_le _, fun ts hts => .next (.expect rfl hts) fun _ ts hts => ?_⟩
  refine .peek fun first hfirst => .peekAt 1 fun second hsecond => .ite (fun h => ?_) fun _ => ?_
  · obtain ⟨rfl, rfl⟩ : first = .keyword .kwReturn ∧ second = .symbol .colon := by
      simpa using h
    exact .keep (.takeTwo hts (hfirst ▸ rfl) (hsecond ▸ rfl) (hrest _))
  · exact hrest _ ts hts

end Takes

namespace SettlesAt

theorem attributeLists (hts : Within tokens ts) : SettlesAt tokens fuel depth
    (fun _ => if nextKind ts != .symbol .leftBracket then 0 else 1)
    (attributeLists fuel) (attributeLists (fuel + 1)) ts := by
  refine .bind (.manyUntil hts (by omega) fun ts hts _ => ?_) fun lists rest _ hrest => ?_
  · exact Takes.attributeList.early (Nat.zero_le depth) hts
  · exact (pure _ hrest).mono (Nat.le_refl _) fun _ => (Nat.sub_self _).le

theorem attributes (hts : Within tokens ts) : SettlesAt tokens fuel depth
    (fun _ => if nextKind ts != .symbol .leftBracket then 0 else 1)
    (attributes fuel) (attributes (fuel + 1)) ts := by
  refine .here hts fun span hspan => .bind (attributeLists hts) fun lists rest _ hrest => ?_
  refine .ite (fun _ => ?_) fun _ => .failAt hspan rfl
  exact (pure _ hrest).mono (Nat.le_refl _) fun _ => (Nat.sub_self _).le

theorem lambdaParams {bound : Nat} (hts : Within tokens ts) (hbound : fuel ≤ bound + depth + 15)
    (last : Option String) : SettlesAt tokens fuel depth (fun _ => 0) (lambdaParams last bound)
      (lambdaParams last (bound + 1)) ts := by
  induction bound generalizing depth ts last with
  | zero => exact exhausted hts hbound
  | succ bound ih =>
      refine .peek fun next hnext => .ite (fun _ => .pure _ hts) fun hstop => .keep ?_
      have heof : isEof (nextKind ts) = false := by
        rw [hnext, isEof_eq_false]
        rintro rfl
        simp at hstop
      refine .advance hts heof fun hrest => ?_
      split
      · exact ih hrest (by omega) _
      · exact .after (ih hrest (by omega) none) fun more rest hrest => .pure _ hrest
      · exact ih hrest (by omega) last

end SettlesAt

theorem Keeps.attributes : Keeps tokens fuel depth (attributes fuel) (attributes (fuel + 1)) :=
  fun _ hts => (SettlesAt.attributes hts).mono le_rfl fun _ => Nat.zero_le _

theorem Keeps.attributeLists :
    Keeps tokens fuel depth (attributeLists fuel) (attributeLists (fuel + 1)) :=
  fun _ hts => (SettlesAt.attributeLists hts).mono le_rfl fun _ => Nat.zero_le _

/-- What the readers of expressions and statements do on this fuel, and on one unit more. The number
is how deep a reader calls others before it has taken a token. -/
structure SettledBodies (tokens : List Token) (fuel : Nat) : Prop where
  expr : Takes tokens fuel 5 (expr fuel) (expr (fuel + 1))
  lambda : Takes tokens fuel 1 (lambda fuel) (lambda (fuel + 1))
  conditional : Takes tokens fuel 4 (conditional fuel) (conditional (fuel + 1))
  binary (strength : Nat) : Takes tokens fuel 3 (binary fuel strength) (binary (fuel + 1) strength)
  binaryRest (strength : Nat) (lhs : Expr) :
    Keeps tokens fuel 16 (binaryRest fuel strength lhs) (binaryRest (fuel + 1) strength lhs)
  unary : Takes tokens fuel 2 (unary fuel) (unary (fuel + 1))
  suffixes (operand : Expr) :
    Keeps tokens fuel 16 (suffixes fuel operand) (suffixes (fuel + 1) operand)
  args : Takes tokens fuel 1 (args fuel) (args (fuel + 1))
  arg : Takes tokens fuel 6 (arg fuel) (arg (fuel + 1))
  primary : Takes tokens fuel 1 (primary fuel) (primary (fuel + 1))
  creation (span : Span) (hspan : IsPlace tokens span.line span.column) :
    Takes tokens fuel 1 (creation fuel span) (creation (fuel + 1) span)
  anonymousMember : Takes tokens fuel 1 (anonymousMember fuel) (anonymousMember (fuel + 1))
  queryRange : Takes tokens fuel 1 (queryRange fuel) (queryRange (fuel + 1))
  queryKey : Takes tokens fuel 5 (queryKey fuel) (queryKey (fuel + 1))
  queryClauses : Keeps tokens fuel 16 (queryClauses fuel) (queryClauses (fuel + 1))
  initializer : Takes tokens fuel 6 (initializer fuel) (initializer (fuel + 1))
  braceList : Takes tokens fuel 1 (braceList fuel) (braceList (fuel + 1))
  params : Takes tokens fuel 1 (params fuel) (params (fuel + 1))
  param : Takes tokens fuel 1 (param fuel) (param (fuel + 1))
  block : Takes tokens fuel 1 (block fuel) (block (fuel + 1))
  parenthesized : Takes tokens fuel 1 (parenthesized fuel) (parenthesized (fuel + 1))
  statement : Takes tokens fuel 7 (statement fuel) (statement (fuel + 1))
  simpleStatement (span : Span) (ts : List Token) (hts : Within tokens ts) :
    SettlesAt tokens fuel 6 (fun _ => 1) (simpleStatement fuel span (nextKind ts))
      (simpleStatement (fuel + 1) span (nextKind ts)) ts
  gotoTarget : Takes tokens fuel 1 (gotoTarget fuel) (gotoTarget (fuel + 1))
  declaration (isConst : Bool) :
    Takes tokens fuel 1 (declaration fuel isConst) (declaration (fuel + 1) isConst)
  declarator : Takes tokens fuel 1 (declarator fuel) (declarator (fuel + 1))
  forLoop : Takes tokens fuel 1 (forLoop fuel) (forLoop (fuel + 1))
  switchSection : Takes tokens fuel 2 (switchSection fuel) (switchSection (fuel + 1))
  caseLabels (ts : List Token) (hts : Within tokens ts) :
    SettlesAt tokens fuel 1 (fun labels => if labels.isEmpty then 0 else 1) (caseLabels fuel)
      (caseLabels (fuel + 1)) ts
  tryStatement (span : Span) (hspan : IsPlace tokens span.line span.column) :
    Takes tokens fuel 2 (tryStatement fuel span) (tryStatement (fuel + 1) span)
  catchClause : Takes tokens fuel 1 (catchClause fuel) (catchClause (fuel + 1))

namespace SettledBodies

variable (ih : SettledBodies tokens fuel)

include ih

theorem expr_succ :
    Takes tokens (fuel + 1) 5 (Grammar.expr (fuel + 1)) (Grammar.expr (fuel + 2)) := by
  refine .step (by decide) fun ts hts => ?_
  obtain ⟨isLambda, hlambda⟩ := Looks.startsLambda ts
  refine .look hlambda (.ite (fun _ => ih.lambda.early (by decide) hts) fun _ => ?_)
  refine .next (ih.conditional.settles ts hts) fun target ts hts => .peek fun next hnext => ?_
  split
  · exact .pure _ hts
  · next op hop =>
      refine .keep (.take hts (isEof_nextKind hnext hop rfl) fun _ => ?_)
      exact .bind ih.expr.late fun value => .pure _

theorem lambda_succ :
    Takes tokens (fuel + 1) 1 (Grammar.lambda (fuel + 1)) (Grammar.lambda (fuel + 2)) := by
  refine .step (by decide) fun ts hts => .here hts fun span _ => .eatOr rfl hts ?_ ?_
  · refine .look (.isAt _) fun _ => .ite (.bind ih.params.late fun parameters => ?_) (.pure_bind ?_)
    all_goals exact .bind ih.block.late fun body => .pure _
  · have hbody (names : List String) : Keeps tokens fuel 16
        (do expect Symbol.fatArrow
            if ← isAt Symbol.leftBrace then
              return Expr.lambda names (.block (← Grammar.block fuel)) span
            else return Expr.lambda names (.expr (← Grammar.expr fuel)) span)
        (do expect Symbol.fatArrow
            if ← isAt Symbol.leftBrace then
              return Expr.lambda names (.block (← Grammar.block (fuel + 1))) span
            else return Expr.lambda names (.expr (← Grammar.expr (fuel + 1))) span) := by
      refine .bind (.expect rfl) fun _ => .look (.isAt _) fun isBlock => .ite ?_ ?_
      · exact .bind ih.block.late fun body => .pure _
      · exact .bind ih.expr.late fun value => .pure _
    intro ts hts
    refine .eatOr rfl hts ?_ fun ts hts => .next (.ident _ hts) fun name => hbody [name]
    refine .bind (fun ts hts => .lambdaParams hts (by omega) none) fun names => ?_
    exact .bind (.expect rfl) fun _ => hbody names

theorem conditional_succ : Takes tokens (fuel + 1) 4 (Grammar.conditional (fuel + 1))
    (Grammar.conditional (fuel + 2)) := by
  refine .step (by decide) fun ts hts => .next ((ih.binary 0).settles ts hts) fun test => ?_
  refine .bind (.eat rfl) fun asked => .ite ?_ (.pure _)
  refine .bind ih.expr.late fun yes => .bind (.expect rfl) fun _ => ?_
  exact .bind ih.conditional.late fun no => .pure _

theorem binary_succ (strength : Nat) : Takes tokens (fuel + 1) 3
    (Grammar.binary (fuel + 1) strength) (Grammar.binary (fuel + 2) strength) :=
  .step (by decide) fun ts hts => .next (ih.unary.settles ts hts) fun lhs =>
    ih.binaryRest strength lhs

theorem binaryRest_succ (strength : Nat) (lhs : Expr) : Keeps tokens (fuel + 1) 16
    (Grammar.binaryRest (fuel + 1) strength lhs) (Grammar.binaryRest (fuel + 2) strength lhs) := by
  refine .step fun ts hts => .peek fun next hnext => ?_
  split
  · next op _ hop =>
      refine .ite (fun _ => .here hts fun span _ => .keep ?_) fun _ => .pure _ hts
      refine .take hts (isEof_nextKind hnext hop rfl) fun _ => ?_
      exact .bind Takes.typeRef.late fun type => ih.binaryRest strength _
  · next op _ hop =>
      refine .ite (fun _ => .keep ?_) fun _ => .pure _ hts
      refine .take hts (isEof_nextKind hnext hop rfl) fun _ => ?_
      exact .bind (ih.binary _).late fun rhs => ih.binaryRest strength _
  · exact .pure _ hts

theorem unary_succ :
    Takes tokens (fuel + 1) 2 (Grammar.unary (fuel + 1)) (Grammar.unary (fuel + 2)) := by
  refine .step (by decide) fun ts hts => .here hts fun span _ => .peek fun next hnext => ?_
  split
  · exact .take hts (hnext ▸ rfl) fun _ => .bind ih.unary.late fun operand => .pure _
  · exact .take hts (hnext ▸ rfl) fun _ => .bind ih.unary.late fun operand => .pure _
  · split
    · next op hop =>
        refine .take hts (isEof_nextKind hnext hop rfl) fun _ => ?_
        exact .bind ih.unary.late fun operand => .pure _
    · obtain ⟨isCast, hcast⟩ := Looks.startsCast ts
      refine .look hcast (.ite (fun h => ?_) fun _ => ?_)
      · rw [h] at hcast
        refine .take hts (nextKind_of_startsCast hcast ▸ rfl) fun _ => ?_
        refine .bind Takes.typeRef.late fun type => .bind (.expect rfl) fun _ => ?_
        exact .bind ih.unary.late fun operand => .pure _
      · exact .next (ih.primary.settles ts hts) fun operand => ih.suffixes operand

theorem suffixes_succ (operand : Expr) : Keeps tokens (fuel + 1) 16
    (Grammar.suffixes (fuel + 1) operand) (Grammar.suffixes (fuel + 2) operand) := by
  refine .step fun ts hts => .peek fun next hnext => ?_
  split
  · refine .keep (.take hts (hnext ▸ rfl) fun _ => .bind (.ident _) fun name => ?_)
    refine .look (.isAt _) fun isCall => .ite ?_ (ih.suffixes _)
    exact .bind ih.args.late fun given => ih.suffixes _
  · refine .here hts fun span _ => .keep (.take hts (hnext ▸ rfl) fun _ => ?_)
    exact .bind (.ident _) fun name => ih.suffixes _
  · split
    · exact .keep (.next (ih.args.early (by decide) hts) fun given => ih.suffixes _)
    · exact .fail rfl hts
  · refine .keep (.take hts (hnext ▸ rfl) fun _ => .bind ih.expr.late fun index => ?_)
    exact .bind (.expect rfl) fun _ => ih.suffixes _
  · exact .keep (.take hts (hnext ▸ rfl) fun _ => ih.suffixes _)
  · exact .keep (.take hts (hnext ▸ rfl) fun _ => ih.suffixes _)
  · exact .pure _ hts

theorem args_succ :
    Takes tokens (fuel + 1) 1 (Grammar.args (fuel + 1)) (Grammar.args (fuel + 2)) := by
  refine .step (by decide) fun ts hts => .next (.expect rfl hts) fun _ => ?_
  exact .bind (.commaList _ ih.arg) fun given => .bind (.expect rfl) fun _ => .pure _

theorem arg_succ :
    Takes tokens (fuel + 1) 6 (Grammar.arg (fuel + 1)) (Grammar.arg (fuel + 2)) := by
  have hvalue (label : Option String) (ts : List Token) (hts : Within tokens ts) :
      SettlesAt tokens fuel 5 (fun _ => 1)
        (do if (passing? (← peek)).isSome then
              let _ ← advance
            return (⟨label, ← Grammar.expr fuel⟩ : Arg Expr))
        (do if (passing? (← peek)).isSome then
              let _ ← advance
            return (⟨label, ← Grammar.expr (fuel + 1)⟩ : Arg Expr)) ts := by
    refine .peek fun next hnext => .ite (fun h => ?_) fun _ => ?_
    · obtain ⟨passing, hpassing⟩ := Option.isSome_iff_exists.mp h
      refine .take hts (isEof_nextKind hnext hpassing rfl) fun _ => ?_
      exact .bind ih.expr.late fun value => .pure _
    · exact .next (ih.expr.settles ts hts) fun value => .pure _
  refine .step (by decide) fun ts hts => ?_
  refine .peek fun first hfirst => .peekAt 1 fun second hsecond => .ite (fun h => ?_) fun _ => ?_
  · have hsecond : nextKind (ts.drop 1) = .symbol .colon := by
      rw [hsecond]
      simpa using (Bool.and_eq_true_iff.mp h).2
    refine .identTake _ hts (hsecond ▸ rfl) fun name => .pure_bind ?_
    exact fun ts hts => ((hvalue (some name) ts hts).mono (by decide) fun _ => le_rfl).keep
  · exact hvalue none ts hts

theorem primary_succ :
    Takes tokens (fuel + 1) 1 (Grammar.primary (fuel + 1)) (Grammar.primary (fuel + 2)) := by
  refine .step (by decide) fun ts hts => .here hts fun span hspan => ?_
  refine .takeUnlessEof hspan ?_ rfl rfl hts fun got => ?_
  · rfl
  cases got with
  | identifier name =>
      refine .look (.peekAt 0) fun first => .look (.peekAt 1) fun second => .ite ?_ (.pure _)
      exact .bind ih.queryRange.late fun _ => .bind ih.queryClauses fun _ => .pure _
  | symbol sign =>
      cases sign with
      | leftParen => exact .bind ih.expr.late fun inner => .bind (.expect rfl) fun _ => .pure _
      | _ => exact .failAt hspan rfl
  | keyword word =>
      cases word with
      | kwNew => exact (ih.creation span hspan).late
      | kwTypeof | kwSizeof =>
          refine .bind (.expect rfl) fun _ => .bind Takes.typeRef.late fun type => ?_
          exact .bind (.expect rfl) fun _ => .pure _
      | kwStackalloc =>
          refine .here fun typeSpan _ => .bind (.ident _) fun name => ?_
          refine .bind (.expect rfl) fun _ => .bind ih.expr.late fun size => ?_
          exact .bind (.expect rfl) fun _ => .pure _
      | kwTrue | kwFalse | kwNull | kwThis | kwBase => exact .pure _
      | _ => exact .failAt hspan rfl
  | int | uint | float | double | string => exact .pure _
  | _ => exact .failAt hspan rfl

theorem creation_succ (span : Span) (hspan : IsPlace tokens span.line span.column) :
    Takes tokens (fuel + 1) 1 (Grammar.creation (fuel + 1) span)
      (Grammar.creation (fuel + 2) span) := by
  refine .step (by decide) fun ts hts => .eatOr rfl hts ?_ fun ts hts => ?_
  · refine .bind (.commaList _ ih.anonymousMember) fun members => ?_
    exact .bind (.expect rfl) fun _ => .pure _
  · refine .here hts fun typeSpan _ => .next (.ident _ hts) fun name => ?_
    refine .bind (.eat rfl) fun isArray => .ite ?_ (.bind ih.args.late fun given => .pure _)
    refine .bind (.unlessAt _ ih.expr.late) fun size => .bind (.expect rfl) fun _ => ?_
    refine .look (.isAt _) fun hasItems => .ite (.bind (.map ih.braceList.late) fun items => ?_)
      (.pure_bind ?_)
    all_goals exact .ite (.failAt hspan rfl) (.pure _)

theorem anonymousMember_succ : Takes tokens (fuel + 1) 1 (Grammar.anonymousMember (fuel + 1))
    (Grammar.anonymousMember (fuel + 2)) := by
  refine .step (by decide) fun ts hts => .next (.ident _ hts) fun name => ?_
  refine .bind (.ifEaten rfl ih.expr.late) fun value => ?_
  cases value with
  | none => exact .pure _
  | some value => exact .pure _

theorem queryRange_succ : Takes tokens (fuel + 1) 1 (Grammar.queryRange (fuel + 1))
    (Grammar.queryRange (fuel + 2)) := by
  refine .step (by decide) fun ts hts => .next (.ident _ hts) fun _ => ?_
  exact .bind (.expect rfl) fun _ => .bind ih.conditional.late fun _ => .pure _

theorem queryKey_succ : Takes tokens (fuel + 1) 5 (Grammar.queryKey (fuel + 1))
    (Grammar.queryKey (fuel + 2)) := by
  refine .step (by decide) fun ts hts => .next (ih.conditional.settles ts hts) fun _ ts hts => ?_
  refine .peek fun next hnext => ?_
  split
  · refine .ite (fun _ => .keep ?_) fun _ => .pure _ hts
    exact .take hts (hnext ▸ rfl) fun _ => .pure _
  · exact .pure _ hts

theorem queryClauses_succ : Keeps tokens (fuel + 1) 16 (Grammar.queryClauses (fuel + 1))
    (Grammar.queryClauses (fuel + 2)) := by
  refine .step fun ts hts => .peek fun next hnext => ?_
  cases hclause : clause? next with
  | none => exact .pure _ hts
  | some clause =>
      have heof := isEof_nextKind hnext hclause rfl
      cases clause with
      | keys =>
          refine .keep (.take hts heof fun _ => ?_)
          exact .bind (.sepBy ih.queryKey) fun _ => ih.queryClauses
      | binding =>
          refine .keep (.take hts heof fun _ => .bind (.ident _) fun _ => ?_)
          refine .bind (.expect rfl) fun _ => ?_
          exact .bind ih.conditional.late fun _ => ih.queryClauses
      | range =>
          refine .keep (.take hts heof fun _ => ?_)
          exact .bind ih.queryRange.late fun _ => ih.queryClauses
      | join =>
          refine .keep (.take hts heof fun _ => .bind ih.queryRange.late fun _ => ?_)
          refine .bind (.word _) fun _ => .bind ih.conditional.late fun _ => ?_
          exact .bind (.word _) fun _ => .bind ih.conditional.late fun _ => ih.queryClauses
      | group =>
          refine .keep (.take hts heof fun _ => .bind ih.conditional.late fun _ => ?_)
          exact .bind (.word _) fun _ => .bind ih.conditional.late fun _ => ih.queryClauses
      | into =>
          exact .keep (.take hts heof fun _ => .bind (.ident _) fun _ => ih.queryClauses)

theorem initializer_succ : Takes tokens (fuel + 1) 6 (Grammar.initializer (fuel + 1))
    (Grammar.initializer (fuel + 2)) := by
  refine .step (by decide) fun ts hts => .look (isAt_eq _ ts) (.ite (fun _ => ?_) fun _ => ?_)
  · exact .next (ih.braceList.early (by decide) hts) fun items => .pure _
  · exact ih.expr.settles ts hts

theorem braceList_succ : Takes tokens (fuel + 1) 1 (Grammar.braceList (fuel + 1))
    (Grammar.braceList (fuel + 2)) := by
  refine .step (by decide) fun ts hts => .next (.expect rfl hts) fun _ => ?_
  exact .bind (.commaList _ ih.initializer) fun items => .bind (.expect rfl) fun _ => .pure _

theorem params_succ :
    Takes tokens (fuel + 1) 1 (Grammar.params (fuel + 1)) (Grammar.params (fuel + 2)) := by
  refine .step (by decide) fun ts hts => .next (.expect rfl hts) fun _ => ?_
  exact .bind (.commaList _ ih.param) fun given => .bind (.expect rfl) fun _ => .pure _

theorem param_succ :
    Takes tokens (fuel + 1) 1 (Grammar.param (fuel + 1)) (Grammar.param (fuel + 2)) := by
  refine .step (by decide) fun ts hts => .here hts fun span _ => ?_
  refine .after (.of_keeps hts .attributes) fun attrs ts hts => ?_
  refine .peek fun next hnext => .ite (fun h => ?_) fun _ => ?_
  · obtain ⟨passing, hpassing⟩ := Option.isSome_iff_exists.mp h
    refine .take hts (isEof_nextKind hnext hpassing rfl) fun _ => ?_
    refine .bind Takes.typeRef.late fun type => .bind (.ident _) fun name => ?_
    exact .bind (.ifEaten rfl ih.expr.late) fun default => .pure _
  · refine .next (Takes.typeRef.settles ts hts) fun type => .bind (.ident _) fun name => ?_
    exact .bind (.ifEaten rfl ih.expr.late) fun default => .pure _

theorem block_succ :
    Takes tokens (fuel + 1) 1 (Grammar.block (fuel + 1)) (Grammar.block (fuel + 2)) := by
  refine .step (by decide) fun ts hts => .next (.expect rfl hts) fun _ => ?_
  exact .bind (.manyUntil _ ih.statement) fun body => .bind (.expect rfl) fun _ => .pure _

theorem parenthesized_succ : Takes tokens (fuel + 1) 1 (Grammar.parenthesized (fuel + 1))
    (Grammar.parenthesized (fuel + 2)) := by
  refine .step (by decide) fun ts hts => .next (.expect rfl hts) fun _ => ?_
  exact .bind ih.expr.late fun _ => .bind (.expect rfl) fun _ => .pure _

theorem statement_succ :
    Takes tokens (fuel + 1) 7 (Grammar.statement (fuel + 1)) (Grammar.statement (fuel + 2)) := by
  refine .step (by decide) fun ts hts => .here hts fun span hspan => .peek fun next hnext => ?_
  have hsimple := hnext ▸ ih.simpleStatement span ts hts
  cases next with
  | symbol s =>
      cases s with
      | leftBrace => exact .next (ih.block.early (by decide) hts) fun body => .pure _
      | semicolon => exact .take hts (hnext ▸ rfl) fun _ => .pure _
      | leftBracket =>
          -- a bracket begins an attribute, so a token is taken before the statement
          refine .next ((SettlesAt.attributes hts).mono le_rfl fun _ => ?_) fun attrs => ?_
          · rw [hnext]
            decide
          · exact .bind ih.statement.late fun stmt => .pure _
      | _ => exact hsimple
  | keyword w =>
      have heof : isEof (nextKind ts) = false := hnext ▸ rfl
      cases w with
      | kwIf =>
          refine .take hts heof fun _ => .bind ih.parenthesized.late fun test => ?_
          refine .bind ih.statement.late fun yes => ?_
          exact .bind (.ifEaten rfl ih.statement.late) fun no => .pure _
      | kwWhile =>
          refine .take hts heof fun _ => .bind ih.parenthesized.late fun test => ?_
          exact .bind ih.statement.late fun body => .pure _
      | kwDo =>
          refine .take hts heof fun _ => .bind ih.statement.late fun body => ?_
          refine .bind (.expect rfl) fun _ => .bind ih.parenthesized.late fun test => ?_
          exact .bind (.expect rfl) fun _ => .pure _
      | kwFor => exact .take hts heof fun _ => ih.forLoop.late
      | kwForeach =>
          refine .take hts heof fun _ => .bind (.expect rfl) fun _ => ?_
          refine .bind Takes.typeRef.late fun type => .bind (.ident _) fun name => ?_
          refine .bind (.expect rfl) fun _ => .bind ih.expr.late fun iterable => ?_
          exact .bind (.expect rfl) fun _ => .bind ih.statement.late fun body => .pure _
      | kwSwitch =>
          refine .take hts heof fun _ => .bind ih.parenthesized.late fun scrutinee => ?_
          refine .bind (.expect rfl) fun _ => .bind (.manyUntil _ ih.switchSection) fun sections => ?_
          exact .bind (.expect rfl) fun _ => .pure _
      | kwReturn | kwThrow =>
          refine .take hts heof fun _ => .bind (.unlessAt _ ih.expr.late) fun value => ?_
          exact .bind (.expect rfl) fun _ => .pure _
      | kwBreak | kwContinue | kwDiscard =>
          exact .take hts heof fun _ => .bind (.expect rfl) fun _ => .pure _
      | kwTry => exact .take hts heof fun _ => (ih.tryStatement span hspan).late
      | kwGoto =>
          refine .take hts heof fun _ => .bind ih.gotoTarget.late fun target => ?_
          exact .bind (.expect rfl) fun _ => .pure _
      | kwYield =>
          refine .take hts heof fun _ => .bind (.eat rfl) fun ended => .ite (.pure_bind ?_) ?_
          · exact .bind (.expect rfl) fun _ => .pure _
          · refine .bind (.expect rfl) fun _ => .bind (.map ih.expr.late) fun value => ?_
            exact .bind (.expect rfl) fun _ => .pure _
      | kwLock =>
          refine .take hts heof fun _ => .bind ih.parenthesized.late fun target => ?_
          exact .bind ih.statement.late fun body => .pure _
      | kwUsing =>
          refine .take hts heof fun _ => .bind (.expect rfl) fun _ => ?_
          refine .look .startsDeclaration fun declares => .ite
            (.bind (ih.declaration _).late fun decl => ?_) (.bind (.map ih.expr.late) fun decl => ?_)
          all_goals exact .bind (.expect rfl) fun _ => .bind ih.statement.late fun body => .pure _
      | kwUnsafe => exact .take hts heof fun _ => .bind ih.block.late fun body => .pure _
      | kwFixed =>
          refine .take hts heof fun _ => .bind (.expect rfl) fun _ => ?_
          refine .bind (ih.declaration _).late fun decl => .bind (.expect rfl) fun _ => ?_
          exact .bind ih.statement.late fun body => .pure _
      | kwConst =>
          refine .take hts heof fun _ => .bind (ih.declaration _).late fun decl => ?_
          exact .bind (.expect rfl) fun _ => .pure _
      | _ => exact hsimple
  | _ => exact hsimple

theorem simpleStatement_succ (span : Span) (ts : List Token) (hts : Within tokens ts) :
    SettlesAt tokens (fuel + 1) 6 (fun _ => 1)
      (Grammar.simpleStatement (fuel + 1) span (nextKind ts))
      (Grammar.simpleStatement (fuel + 2) span (nextKind ts)) ts := by
  refine .step ?_
  generalize hnext : nextKind ts = next
  refine .peekAt 1 fun second hsecond => ?_
  split
  · refine .takeTwo hts (hnext ▸ rfl) (hsecond ▸ rfl) ?_
    exact .bind ih.statement.late fun stmt => .pure _
  · obtain ⟨declares, hdeclares⟩ := Looks.startsDeclaration ts
    refine .look hdeclares (.ite (fun _ => ?_) fun _ => ?_)
    · refine .next ((ih.declaration _).early (by decide) hts) fun decl => ?_
      exact .bind (.expect rfl) fun _ => .pure _
    · exact .next (ih.expr.settles ts hts) fun value => .bind (.expect rfl) fun _ => .pure _

theorem gotoTarget_succ : Takes tokens (fuel + 1) 1 (Grammar.gotoTarget (fuel + 1))
    (Grammar.gotoTarget (fuel + 2)) := by
  refine .step (by decide) fun ts hts => .eatOr rfl hts (.bind ih.expr.late fun _ => .pure _) ?_
  refine fun ts hts => .eatOr rfl hts (.pure _) fun ts hts => ?_
  exact .next (.ident _ hts) fun label => .pure _

theorem declaration_succ (isConst : Bool) : Takes tokens (fuel + 1) 1
    (Grammar.declaration (fuel + 1) isConst) (Grammar.declaration (fuel + 2) isConst) := by
  refine .step (by decide) fun ts hts => .next (Takes.typeRef.settles ts hts) fun type => ?_
  exact .bind (.sepBy ih.declarator) fun declarators => .pure _

theorem declarator_succ : Takes tokens (fuel + 1) 1 (Grammar.declarator (fuel + 1))
    (Grammar.declarator (fuel + 2)) := by
  refine .step (by decide) fun ts hts => .next (.ident _ hts) fun name => ?_
  exact .bind (.ifEaten rfl ih.initializer.late) fun init => .pure _

theorem forLoop_succ :
    Takes tokens (fuel + 1) 1 (Grammar.forLoop (fuel + 1)) (Grammar.forLoop (fuel + 2)) := by
  refine .step (by decide) fun ts hts => .next (.expect rfl hts) fun _ => ?_
  refine .look (.isAt _) fun bare => .look .startsDeclaration fun declares => ?_
  refine .ite (.pure_bind ?_) (.ite (.bind (ih.declaration _).late fun decl => .pure_bind ?_)
    (.bind (.sepBy ih.expr) fun first => .pure_bind ?_))
  all_goals
    refine .bind (.expect rfl) fun _ => .bind (.unlessAt _ ih.expr.late) fun test => ?_
    refine .bind (.expect rfl) fun _ => .look (.isAt _) fun closed => .ite (.pure_bind ?_)
      (.bind (.sepBy ih.expr) fun step => ?_)
    all_goals exact .bind (.expect rfl) fun _ => .bind ih.statement.late fun body => .pure _

theorem switchSection_succ : Takes tokens (fuel + 1) 2 (Grammar.switchSection (fuel + 1))
    (Grammar.switchSection (fuel + 2)) := by
  refine .step (by decide) fun ts hts => .bind (ih.caseLabels ts hts) fun labels rest _ hrest => ?_
  cases labels with
  | nil => exact .look (peek_eq rest) (.fail rfl hrest)
  | cons label labels =>
      have hbody := SettlesAt.of_keeps hrest (Keeps.manyUntil isSectionEnd ih.statement)
      refine .after (hbody.mono (Nat.le_add_left 16 1) fun _ => le_rfl) fun body rest hrest => ?_
      exact .pure _ hrest

theorem caseLabels_succ (ts : List Token) (hts : Within tokens ts) :
    SettlesAt tokens (fuel + 1) 1 (fun labels => if labels.isEmpty then 0 else 1)
      (Grammar.caseLabels (fuel + 1)) (Grammar.caseLabels (fuel + 2)) ts := by
  have hleast (labels : List (CaseLabel Expr)) : (if labels.isEmpty then 0 else 1) ≤ 1 := by
    split <;> decide
  have hmore : Keeps tokens fuel 16 (Grammar.caseLabels fuel) (Grammar.caseLabels (fuel + 1)) :=
    fun ts hts => (ih.caseLabels ts hts).mono (by decide) fun _ => Nat.zero_le _
  refine .step (.eatIf rfl hts hleast ?_ fun ts hts => ?_)
  · refine .bind ih.expr.late fun value => .bind (.expect rfl) fun _ => ?_
    exact .bind hmore fun labels => .pure _
  · refine .eatIf rfl hts hleast ?_ fun ts hts => .of_ok rfl rfl hts le_rfl
    exact .bind (.expect rfl) fun _ => .bind hmore fun labels => .pure _

theorem tryStatement_succ (span : Span) (hspan : IsPlace tokens span.line span.column) :
    Takes tokens (fuel + 1) 2 (Grammar.tryStatement (fuel + 1) span)
      (Grammar.tryStatement (fuel + 2) span) := by
  refine .step (by decide) fun ts hts => .next (ih.block.settles ts hts) fun body => ?_
  refine .bind (.manyUntil _ ih.catchClause) fun catches => ?_
  refine .bind (.ifEaten rfl ih.block.late) fun final => ?_
  exact .ite (.failAt hspan rfl) (.pure _)

theorem catchClause_succ : Takes tokens (fuel + 1) 1 (Grammar.catchClause (fuel + 1))
    (Grammar.catchClause (fuel + 2)) := by
  refine .step (by decide) fun ts hts => .next (.expect rfl hts) fun _ => ?_
  refine .bind (.eat rfl) fun isTyped => .ite ?_ (.bind ih.block.late fun body => .pure _)
  refine .bind Takes.typeRef.late fun type ts hts => .peek fun next hnext => ?_
  split
  · refine .keep (.take hts (hnext ▸ rfl) fun _ => .pure_bind (.bind (.expect rfl) fun _ => ?_))
    exact .bind ih.block.late fun body => .pure _
  · refine .of_keeps hts (.pure_bind (.bind (.expect rfl) fun _ => ?_))
    exact .bind ih.block.late fun body => .pure _

end SettledBodies

theorem settledBodies (tokens : List Token) : (fuel : Nat) → SettledBodies tokens fuel
  | 0 => by
    constructor
    case binaryRest | suffixes | queryClauses => intros; exact .zero
    case simpleStatement | caseLabels =>
      intros
      refine .tooDeep ‹_› ?_
      omega
    all_goals
      intros
      exact .zero (by decide)
  | fuel + 1 =>
    have ih := settledBodies tokens fuel
    { expr := ih.expr_succ
      lambda := ih.lambda_succ
      conditional := ih.conditional_succ
      binary := ih.binary_succ
      binaryRest := ih.binaryRest_succ
      unary := ih.unary_succ
      suffixes := ih.suffixes_succ
      args := ih.args_succ
      arg := ih.arg_succ
      primary := ih.primary_succ
      creation := ih.creation_succ
      anonymousMember := ih.anonymousMember_succ
      queryRange := ih.queryRange_succ
      queryKey := ih.queryKey_succ
      queryClauses := ih.queryClauses_succ
      initializer := ih.initializer_succ
      braceList := ih.braceList_succ
      params := ih.params_succ
      param := ih.param_succ
      block := ih.block_succ
      parenthesized := ih.parenthesized_succ
      statement := ih.statement_succ
      simpleStatement := ih.simpleStatement_succ
      gotoTarget := ih.gotoTarget_succ
      declaration := ih.declaration_succ
      declarator := ih.declarator_succ
      forLoop := ih.forLoop_succ
      switchSection := ih.switchSection_succ
      caseLabels := ih.caseLabels_succ
      tryStatement := ih.tryStatement_succ
      catchClause := ih.catchClause_succ }

end ShaderCompiler.Grammar
