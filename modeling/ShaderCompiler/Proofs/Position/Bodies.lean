import ShaderCompiler.Proofs.Position.Readers

namespace ShaderCompiler.Grammar

open Token

variable {α β : Type}

namespace Blind

theorem startsLambda : Blind (fun b => b) startsLambda startsLambda := by
  refine peek.bind fun next => ?_
  split
  · exact .pure rfl
  · exact (peekAt 1).bind fun _ => .pure rfl
  · exact ahead.bind fun _ => .pure rfl
  · exact .pure rfl

theorem startsCast : Blind (fun b => b) startsCast startsCast := by
  refine peek.bind fun first => (peekAt 1).bind fun second => ?_
  split
  · refine (peekAt 2).bind fun third => (peekAt 3).bind fun fourth => ?_
    split
    · exact .pure rfl
    · exact (peekAt 4).bind fun _ => .pure rfl
    · exact .pure rfl
  · exact .pure rfl

theorem startsDeclaration : Blind (fun b => b) startsDeclaration startsDeclaration :=
  peek.bind fun _ => (peekAt 1).bind fun _ => (peekAt 2).bind fun _ => (peekAt 3).bind fun _ =>
    .pure rfl

theorem lambdaParams (last : Option String) (bound : Nat) :
    Blind (fun names => names) (lambdaParams last bound) (lambdaParams last bound) := by
  induction bound generalizing last with
  | zero => exact .fail _ _
  | succ bound ih =>
      refine peek.bind fun next => .ite (.pure rfl) ?_
      refine advance.bind fun taken => ?_
      split
      · exact ih _
      · exact (ih none).bind fun rest => .pure rfl
      · exact ih last

theorem unlessAt {e : α → β} {item : Reader α} {item' : Reader β} (stop : Kind)
    (h : Blind e item item') :
    Blind (Option.map e) (unlessAt stop item) (unlessAt stop item') := by
  refine (isAt _).bind fun stopped => .ite (.pure rfl) ?_
  exact h.bind fun a => .pure rfl

theorem ifEaten {e : α → β} {item : Reader α} {item' : Reader β} (start : Kind)
    (h : Blind e item item') :
    Blind (Option.map e) (ifEaten start item) (ifEaten start item') := by
  refine (eat _).bind fun started => .ite ?_ (.pure rfl)
  exact h.bind fun a => .pure rfl

end Blind

/-- No reader of expressions and statements looks at positions on this fuel. -/
structure BlindBodies (fuel : Nat) : Prop where
  expr : Blind Expr.unplaced (expr fuel) (expr fuel)
  lambda : Blind Expr.unplaced (lambda fuel) (lambda fuel)
  conditional : Blind Expr.unplaced (conditional fuel) (conditional fuel)
  binary (strength : Nat) : Blind Expr.unplaced (binary fuel strength) (binary fuel strength)
  binaryRest (strength : Nat) (lhs : Expr) :
    Blind Expr.unplaced (binaryRest fuel strength lhs) (binaryRest fuel strength lhs.unplaced)
  unary : Blind Expr.unplaced (unary fuel) (unary fuel)
  suffixes (operand : Expr) :
    Blind Expr.unplaced (suffixes fuel operand) (suffixes fuel operand.unplaced)
  args : Blind (List.map Arg.unplaced) (args fuel) (args fuel)
  arg : Blind Arg.unplaced (arg fuel) (arg fuel)
  primary : Blind Expr.unplaced (primary fuel) (primary fuel)
  creation (span : Span) : Blind Expr.unplaced (creation fuel span) (creation fuel .none)
  anonymousMember :
    Blind (Prod.map id Expr.unplaced) (anonymousMember fuel) (anonymousMember fuel)
  queryRange : Blind (fun u => u) (queryRange fuel) (queryRange fuel)
  queryKey : Blind (fun u => u) (queryKey fuel) (queryKey fuel)
  queryClauses : Blind (fun u => u) (queryClauses fuel) (queryClauses fuel)
  initializer : Blind Expr.unplaced (initializer fuel) (initializer fuel)
  braceList : Blind (List.map Expr.unplaced) (braceList fuel) (braceList fuel)
  params : Blind (List.map Param.unplaced) (params fuel) (params fuel)
  param : Blind Param.unplaced (param fuel) (param fuel)
  block : Blind (List.map Stmt.unplaced) (block fuel) (block fuel)
  parenthesized : Blind Expr.unplaced (parenthesized fuel) (parenthesized fuel)
  statement : Blind Stmt.unplaced (statement fuel) (statement fuel)
  simpleStatement (span : Span) (next : Kind) :
    Blind Stmt.unplaced (simpleStatement fuel span next) (simpleStatement fuel .none next)
  gotoTarget : Blind GotoTarget.unplaced (gotoTarget fuel) (gotoTarget fuel)
  declaration (isConst : Bool) :
    Blind Stmt.unplaced (declaration fuel isConst) (declaration fuel isConst)
  declarator : Blind (Declarator.map Expr.unplaced) (declarator fuel) (declarator fuel)
  forLoop : Blind Stmt.unplaced (forLoop fuel) (forLoop fuel)
  switchSection : Blind SwitchSection.unplaced (switchSection fuel) (switchSection fuel)
  caseLabels :
    Blind (List.map (CaseLabel.map Expr.unplaced)) (caseLabels fuel) (caseLabels fuel)
  tryStatement (span : Span) :
    Blind Stmt.unplaced (tryStatement fuel span) (tryStatement fuel .none)
  catchClause : Blind CatchClause.unplaced (catchClause fuel) (catchClause fuel)

namespace BlindBodies

variable {fuel : Nat} (ih : BlindBodies fuel)

include ih

theorem expr_succ : Blind Expr.unplaced (Grammar.expr (fuel + 1)) (Grammar.expr (fuel + 1)) := by
  refine Blind.startsLambda.bind fun isLambda => .ite ih.lambda ?_
  refine ih.conditional.bind fun target => Blind.peek.bind fun next => ?_
  split
  · exact .pure rfl
  · refine Blind.advance.bind fun _ => ih.expr.bind fun value => .pure (by simp)

theorem lambda_succ :
    Blind Expr.unplaced (Grammar.lambda (fuel + 1)) (Grammar.lambda (fuel + 1)) := by
  refine .bind .here fun span => .bind (.eat _) fun isDelegate => .ite ?_ ?_
  · refine .bind (.isAt _) fun _ => .ite (.bind ih.params fun parameters => ?_) (.pure_bind ?_)
    · refine .bind ih.block fun body => .pure ?_
      rw [List.map_map]
      simp only [Expr.unplaced, unplacedStmts_eq]
      rfl
    · exact .bind ih.block fun body => .pure (by simp)
  · refine .bind (.eat _) fun _ => .ite
      (.bind (.lambdaParams _ _) fun names => .bind (.expect _) fun _ => .pure_bind ?_)
      (.bind (.ident _) fun name => .pure_bind ?_)
    all_goals
      refine .bind (.expect _) fun _ => .bind (.isAt _) fun isBlock => .ite ?_ ?_
      · exact .bind ih.block fun body => .pure (by simp)
      · exact .bind ih.expr fun value => .pure (by simp)

theorem conditional_succ : Blind Expr.unplaced (Grammar.conditional (fuel + 1))
    (Grammar.conditional (fuel + 1)) := by
  refine .bind (ih.binary 0) fun test => .bind (.eat _) fun asked => .ite ?_ (.pure rfl)
  refine .bind ih.expr fun yes => .bind (.expect _) fun _ => ?_
  exact .bind ih.conditional fun no => .pure (by simp)

theorem binary_succ (strength : Nat) : Blind Expr.unplaced (Grammar.binary (fuel + 1) strength)
    (Grammar.binary (fuel + 1) strength) :=
  .bind ih.unary fun lhs => ih.binaryRest strength lhs

theorem binaryRest_succ (strength : Nat) (lhs : Expr) :
    Blind Expr.unplaced (Grammar.binaryRest (fuel + 1) strength lhs)
      (Grammar.binaryRest (fuel + 1) strength lhs.unplaced) := by
  refine .bind .peek fun next => ?_
  split
  · refine .ite ?_ (.pure rfl)
    refine .bind .here fun span => .bind .advance fun _ => .bind .typeRef fun type => ?_
    simpa using ih.binaryRest strength (.typeTest _ lhs type span)
  · refine .ite ?_ (.pure rfl)
    refine .bind .advance fun _ => .bind (ih.binary _) fun rhs => ?_
    simpa using ih.binaryRest strength (.binary _ lhs rhs)
  · exact .pure rfl

theorem unary_succ :
    Blind Expr.unplaced (Grammar.unary (fuel + 1)) (Grammar.unary (fuel + 1)) := by
  refine .bind .here fun span => .bind .peek fun next => ?_
  split
  · exact .bind .advance fun _ => .bind ih.unary fun operand => .pure (by simp)
  · exact .bind .advance fun _ => .bind ih.unary fun operand => .pure (by simp)
  · split
    · exact .bind .advance fun _ => .bind ih.unary fun operand => .pure (by simp)
    · refine .bind .startsCast fun isCast => .ite ?_ ?_
      · refine .bind .advance fun _ => .bind .typeRef fun type => .bind (.expect _) fun _ => ?_
        exact .bind ih.unary fun operand => .pure (by simp)
      · exact .bind ih.primary fun operand => ih.suffixes operand

theorem suffixes_succ (operand : Expr) : Blind Expr.unplaced
    (Grammar.suffixes (fuel + 1) operand) (Grammar.suffixes (fuel + 1) operand.unplaced) := by
  refine .bind .peek fun next => ?_
  split
  · refine .bind .advance fun _ => .bind (.ident _) fun name => .bind (.isAt _) fun isCall => ?_
    refine .ite (.bind ih.args fun given => ?_) ?_
    · simpa using ih.suffixes (.call (some operand) name given)
    · simpa using ih.suffixes (.member operand name)
  · refine .bind .here fun span => .bind .advance fun _ => .bind (.ident _) fun name => ?_
    simpa using ih.suffixes (.arrow operand name span)
  · cases operand with
    | ident name =>
        refine .bind ih.args fun given => ?_
        simpa using ih.suffixes (.call none name given)
    | newArray element size items => cases items <;> exact .fail _ _
    | lambda params body span => cases body <;> exact .fail _ _
    | _ => exact .fail _ _
  · refine .bind .advance fun _ => .bind ih.expr fun index => .bind (.expect _) fun _ => ?_
    simpa using ih.suffixes (.index operand index)
  · refine .bind .advance fun _ => ?_
    simpa using ih.suffixes (.unary .postInc operand)
  · refine .bind .advance fun _ => ?_
    simpa using ih.suffixes (.unary .postDec operand)
  · exact .pure rfl

theorem args_succ : Blind (List.map Arg.unplaced) (Grammar.args (fuel + 1))
    (Grammar.args (fuel + 1)) := by
  refine .bind (.expect _) fun _ => .bind (.commaList _ ih.arg fuel) fun given => ?_
  exact .bind (.expect _) fun _ => .pure rfl

theorem arg_succ : Blind Arg.unplaced (Grammar.arg (fuel + 1)) (Grammar.arg (fuel + 1)) := by
  refine .bind .peek fun first => .bind (.peekAt 1) fun second => .ite
    (.bind (.ident _) fun name => .bind .advance fun _ => .pure_bind ?_) (.pure_bind ?_)
  all_goals
    refine .bind .peek fun next => .ite (.bind .advance fun _ => ?_) ?_
    all_goals exact .bind ih.expr fun value => .pure rfl

theorem primary_succ :
    Blind Expr.unplaced (Grammar.primary (fuel + 1)) (Grammar.primary (fuel + 1)) := by
  refine .bind .here fun span => .bind .advance fun got => ?_
  cases got with
  | identifier name =>
      refine .bind .peek fun first => .bind (.peekAt 1) fun second => .ite ?_ (.pure (by simp))
      exact .bind ih.queryRange fun _ => .bind ih.queryClauses fun _ => .pure (by simp)
  | symbol sign =>
      cases sign with
      | leftParen => exact .bind ih.expr fun inner => .bind (.expect _) fun _ => .pure rfl
      | _ => exact .failAt _ _ _
  | keyword word =>
      cases word with
      | kwNew => exact ih.creation span
      | kwTypeof | kwSizeof =>
          refine .bind (.expect _) fun _ => .bind .typeRef fun type => ?_
          exact .bind (.expect _) fun _ => .pure (by simp)
      | kwStackalloc =>
          refine .bind .here fun typeSpan => .bind (.ident _) fun name => ?_
          refine .bind (.expect _) fun _ => .bind ih.expr fun size => ?_
          exact .bind (.expect _) fun _ => .pure (by simp [TypeRef.unplaced])
      | kwTrue | kwFalse | kwNull | kwThis | kwBase => exact .pure (by simp)
      | _ => exact .failAt _ _ _
  | int | uint | float | double | string => exact .pure (by simp)
  | _ => exact .failAt _ _ _

theorem creation_succ (span : Span) : Blind Expr.unplaced (Grammar.creation (fuel + 1) span)
    (Grammar.creation (fuel + 1) .none) := by
  refine .bind (.eat _) fun isAnonymous => .ite ?_ ?_
  · refine .bind (.commaList _ ih.anonymousMember fuel) fun members => ?_
    exact .bind (.expect _) fun _ => .pure (by simp)
  · refine .bind .here fun typeSpan => .bind (.ident _) fun name => ?_
    refine .bind (.eat _) fun isArray => .ite ?_ ?_
    · refine .bind (.unlessAt _ ih.expr) fun size => .bind (.expect _) fun _ => ?_
      refine .bind (.isAt _) fun hasItems => .ite
        (.bind (.map (g := Option.map (List.map Expr.unplaced)) ih.braceList fun _ => rfl)
          fun items => ?_) (.pure_bind ?_)
      all_goals
        simp only [Option.isNone_map]
        exact .ite (.failAt _ _ _) (.pure (by simp [TypeRef.unplaced]))
    · exact .bind ih.args fun given => .pure (by simp [TypeRef.unplaced])

theorem anonymousMember_succ : Blind (Prod.map id Expr.unplaced)
    (Grammar.anonymousMember (fuel + 1)) (Grammar.anonymousMember (fuel + 1)) := by
  refine .bind (.ident _) fun name => .bind (.ifEaten _ ih.expr) fun value => ?_
  cases value with
  | none => exact .pure (by simp)
  | some value => exact .pure rfl

theorem queryRange_succ : Blind (fun u => u) (Grammar.queryRange (fuel + 1))
    (Grammar.queryRange (fuel + 1)) :=
  .bind (.ident _) fun _ => .bind (.expect _) fun _ => .bind ih.conditional fun _ => .pure rfl

theorem queryKey_succ : Blind (fun u => u) (Grammar.queryKey (fuel + 1))
    (Grammar.queryKey (fuel + 1)) := by
  refine .bind ih.conditional fun _ => .bind .peek fun next => ?_
  split
  · exact .ite (.bind .advance fun _ => .pure rfl) (.pure rfl)
  · exact .pure rfl

theorem queryClauses_succ : Blind (fun u => u) (Grammar.queryClauses (fuel + 1))
    (Grammar.queryClauses (fuel + 1)) := by
  refine .bind .peek fun next => ?_
  cases clause? next with
  | none => exact .pure rfl
  | some clause =>
      cases clause with
      | keys => exact .bind .advance fun _ => .bind (.sepBy ih.queryKey fuel) fun _ => ih.queryClauses
      | binding =>
          refine .bind .advance fun _ => .bind (.ident _) fun _ => .bind (.expect _) fun _ => ?_
          exact .bind ih.conditional fun _ => ih.queryClauses
      | range => exact .bind .advance fun _ => .bind ih.queryRange fun _ => ih.queryClauses
      | join =>
          refine .bind .advance fun _ => .bind ih.queryRange fun _ => .bind (.word _) fun _ => ?_
          refine .bind ih.conditional fun _ => .bind (.word _) fun _ => ?_
          exact .bind ih.conditional fun _ => ih.queryClauses
      | group =>
          refine .bind .advance fun _ => .bind ih.conditional fun _ => .bind (.word _) fun _ => ?_
          exact .bind ih.conditional fun _ => ih.queryClauses
      | into => exact .bind .advance fun _ => .bind (.ident _) fun _ => ih.queryClauses

theorem initializer_succ : Blind Expr.unplaced (Grammar.initializer (fuel + 1))
    (Grammar.initializer (fuel + 1)) := by
  refine .bind (.isAt _) fun isList => .ite ?_ ih.expr
  exact .bind ih.braceList fun items => .pure (by simp)

theorem braceList_succ : Blind (List.map Expr.unplaced) (Grammar.braceList (fuel + 1))
    (Grammar.braceList (fuel + 1)) := by
  refine .bind (.expect _) fun _ => .bind (.commaList _ ih.initializer fuel) fun items => ?_
  exact .bind (.expect _) fun _ => .pure rfl

theorem params_succ : Blind (List.map Param.unplaced) (Grammar.params (fuel + 1))
    (Grammar.params (fuel + 1)) := by
  refine .bind (.expect _) fun _ => .bind (.commaList _ ih.param fuel) fun given => ?_
  exact .bind (.expect _) fun _ => .pure rfl

theorem param_succ :
    Blind Param.unplaced (Grammar.param (fuel + 1)) (Grammar.param (fuel + 1)) := by
  refine .bind .here fun span => .bind (.attributes fuel) fun attrs => .bind .peek fun next => ?_
  refine .ite (.bind .advance fun _ => ?_) ?_
  all_goals
    refine .bind .typeRef fun type => .bind (.ident _) fun name => ?_
    exact .bind (.ifEaten _ ih.expr) fun default => .pure rfl

theorem block_succ : Blind (List.map Stmt.unplaced) (Grammar.block (fuel + 1))
    (Grammar.block (fuel + 1)) := by
  refine .bind (.expect _) fun _ => .bind (.manyUntil _ ih.statement fuel) fun body => ?_
  exact .bind (.expect _) fun _ => .pure rfl

theorem parenthesized_succ : Blind Expr.unplaced (Grammar.parenthesized (fuel + 1))
    (Grammar.parenthesized (fuel + 1)) :=
  .bind (.expect _) fun _ => .bind ih.expr fun _ => .bind (.expect _) fun _ => .pure rfl

theorem statement_succ :
    Blind Stmt.unplaced (Grammar.statement (fuel + 1)) (Grammar.statement (fuel + 1)) := by
  refine .bind .here fun span => .bind .peek fun next => ?_
  cases next with
  | symbol s =>
      cases s with
      | leftBrace => exact .bind ih.block fun body => .pure (by simp)
      | semicolon => exact .bind .advance fun _ => .pure (by simp)
      | leftBracket =>
          exact .bind (.attributes fuel) fun attrs => .bind ih.statement fun stmt => .pure (by simp)
      | _ => exact ih.simpleStatement span _
  | keyword w =>
      cases w with
      | kwIf =>
          refine .bind .advance fun _ => .bind ih.parenthesized fun test => ?_
          refine .bind ih.statement fun yes => .bind (.ifEaten _ ih.statement) fun no => ?_
          exact .pure (by simp)
      | kwWhile =>
          refine .bind .advance fun _ => .bind ih.parenthesized fun test => ?_
          exact .bind ih.statement fun body => .pure (by simp)
      | kwDo =>
          refine .bind .advance fun _ => .bind ih.statement fun body => ?_
          refine .bind (.expect _) fun _ => .bind ih.parenthesized fun test => ?_
          exact .bind (.expect _) fun _ => .pure (by simp)
      | kwFor => exact .bind .advance fun _ => ih.forLoop
      | kwForeach =>
          refine .bind .advance fun _ => .bind (.expect _) fun _ => .bind .typeRef fun type => ?_
          refine .bind (.ident _) fun name => .bind (.expect _) fun _ => ?_
          refine .bind ih.expr fun iterable => .bind (.expect _) fun _ => ?_
          exact .bind ih.statement fun body => .pure (by simp)
      | kwSwitch =>
          refine .bind .advance fun _ => .bind ih.parenthesized fun scrutinee => ?_
          refine .bind (.expect _) fun _ => ?_
          refine .bind (.manyUntil _ ih.switchSection fuel) fun sections => ?_
          exact .bind (.expect _) fun _ => .pure (by simp)
      | kwReturn | kwThrow =>
          refine .bind .advance fun _ => .bind (.unlessAt _ ih.expr) fun value => ?_
          exact .bind (.expect _) fun _ => .pure (by simp)
      | kwBreak | kwContinue | kwDiscard =>
          exact .bind .advance fun _ => .bind (.expect _) fun _ => .pure (by simp)
      | kwTry => exact .bind .advance fun _ => ih.tryStatement span
      | kwGoto =>
          refine .bind .advance fun _ => .bind ih.gotoTarget fun target => ?_
          exact .bind (.expect _) fun _ => .pure (by simp)
      | kwYield =>
          refine .bind .advance fun _ => .bind (.eat _) fun ended => .ite (.pure_bind ?_) ?_
          · exact .bind (.expect _) fun _ => .pure (by simp)
          · refine .bind (.expect _) fun _ => .bind (.map (g := Option.map Expr.unplaced) ih.expr
              fun _ => rfl) fun value => .bind (.expect _) fun _ => .pure (by simp)
      | kwLock =>
          refine .bind .advance fun _ => .bind ih.parenthesized fun target => ?_
          exact .bind ih.statement fun body => .pure (by simp)
      | kwUsing =>
          refine .bind .advance fun _ => .bind (.expect _) fun _ => ?_
          refine .bind .startsDeclaration fun declares => .ite
            (.bind (ih.declaration _) fun decl => ?_)
            (.bind (.map (g := Stmt.unplaced) ih.expr fun _ => by simp) fun decl => ?_)
          all_goals exact .bind (.expect _) fun _ => .bind ih.statement fun body => .pure (by simp)
      | kwUnsafe => exact .bind .advance fun _ => .bind ih.block fun body => .pure (by simp)
      | kwFixed =>
          refine .bind .advance fun _ => .bind (.expect _) fun _ => ?_
          refine .bind (ih.declaration _) fun decl => .bind (.expect _) fun _ => ?_
          exact .bind ih.statement fun body => .pure (by simp)
      | kwConst =>
          refine .bind .advance fun _ => .bind (ih.declaration _) fun decl => ?_
          exact .bind (.expect _) fun _ => .pure rfl
      | _ => exact ih.simpleStatement span _
  | _ => exact ih.simpleStatement span _

theorem simpleStatement_succ (span : Span) (next : Kind) :
    Blind Stmt.unplaced (Grammar.simpleStatement (fuel + 1) span next)
      (Grammar.simpleStatement (fuel + 1) .none next) := by
  refine .bind (.peekAt 1) fun second => ?_
  split
  · refine .bind .advance fun _ => .bind .advance fun _ => ?_
    exact .bind ih.statement fun stmt => .pure (by simp)
  · refine .bind .startsDeclaration fun declares => .ite ?_ ?_
    · exact .bind (ih.declaration _) fun decl => .bind (.expect _) fun _ => .pure rfl
    · exact .bind ih.expr fun value => .bind (.expect _) fun _ => .pure (by simp)

theorem gotoTarget_succ : Blind GotoTarget.unplaced (Grammar.gotoTarget (fuel + 1))
    (Grammar.gotoTarget (fuel + 1)) := by
  refine .bind (.eat _) fun isCase => .ite (.bind ih.expr fun value => .pure rfl) ?_
  refine .bind (.eat _) fun isDefault => .ite (.pure rfl) ?_
  exact .bind (.ident _) fun label => .pure rfl

theorem declaration_succ (isConst : Bool) :
    Blind Stmt.unplaced (Grammar.declaration (fuel + 1) isConst)
      (Grammar.declaration (fuel + 1) isConst) := by
  refine .bind .typeRef fun type => .bind (.sepBy ih.declarator fuel) fun declarators => ?_
  exact .pure (by simp)

theorem declarator_succ : Blind (Declarator.map Expr.unplaced) (Grammar.declarator (fuel + 1))
    (Grammar.declarator (fuel + 1)) :=
  .bind (.ident _) fun _ => .bind (.ifEaten _ ih.initializer) fun _ => .pure rfl

theorem forLoop_succ :
    Blind Stmt.unplaced (Grammar.forLoop (fuel + 1)) (Grammar.forLoop (fuel + 1)) := by
  refine .bind (.expect _) fun _ => .bind (.isAt _) fun bare => ?_
  refine .bind .startsDeclaration fun declares => .ite (.pure_bind ?_) (.ite
    (.bind (ih.declaration _) fun decl => .pure_bind ?_)
    (.bind (.sepBy ih.expr fuel) fun first => .pure_bind ?_))
  all_goals
    refine .bind (.expect _) fun _ => .bind (.unlessAt _ ih.expr) fun test => ?_
    refine .bind (.expect _) fun _ => .bind (.isAt _) fun closed => .ite (.pure_bind ?_)
      (.bind (.sepBy ih.expr fuel) fun step => ?_)
    all_goals exact .bind (.expect _) fun _ => .bind ih.statement fun body => .pure (by simp)

theorem switchSection_succ : Blind SwitchSection.unplaced (Grammar.switchSection (fuel + 1))
    (Grammar.switchSection (fuel + 1)) := by
  refine .bind ih.caseLabels fun labels => ?_
  rw [List.isEmpty_map]
  refine .ite (.bind .peek fun got => .fail _ _) ?_
  exact .bind (.manyUntil _ ih.statement fuel) fun body => .pure rfl

theorem caseLabels_succ : Blind (List.map (CaseLabel.map Expr.unplaced))
    (Grammar.caseLabels (fuel + 1)) (Grammar.caseLabels (fuel + 1)) := by
  refine .bind (.eat _) fun isCase => .ite ?_ ?_
  · refine .bind ih.expr fun value => .bind (.expect _) fun _ => ?_
    exact .bind ih.caseLabels fun rest => .pure rfl
  · refine .bind (.eat _) fun isDefault => .ite ?_ (.pure rfl)
    exact .bind (.expect _) fun _ => .bind ih.caseLabels fun rest => .pure rfl

theorem tryStatement_succ (span : Span) :
    Blind Stmt.unplaced (Grammar.tryStatement (fuel + 1) span)
      (Grammar.tryStatement (fuel + 1) .none) := by
  refine .bind ih.block fun body => .bind (.manyUntil _ ih.catchClause fuel) fun catches => ?_
  refine .bind (.ifEaten _ ih.block) fun final => ?_
  rw [List.isEmpty_map, Option.isNone_map]
  exact .ite (.failAt _ _ _) (.pure (by simp))

theorem catchClause_succ : Blind CatchClause.unplaced (Grammar.catchClause (fuel + 1))
    (Grammar.catchClause (fuel + 1)) := by
  refine .bind (.expect _) fun _ => .bind (.eat _) fun isTyped => .ite ?_ ?_
  · refine .bind .typeRef fun type => .bind .peek fun next => ?_
    split
    · refine .bind .advance fun _ => .pure_bind (.bind (.expect _) fun _ => ?_)
      exact .bind ih.block fun body => .pure rfl
    · refine .pure_bind (.bind (.expect _) fun _ => ?_)
      exact .bind ih.block fun body => .pure rfl
  · exact .bind ih.block fun body => .pure rfl

end BlindBodies

theorem blindBodies : (fuel : Nat) → BlindBodies fuel
  | 0 => by constructor <;> intros <;> exact .fail _ _
  | fuel + 1 =>
    have ih := blindBodies fuel
    { expr := ih.expr_succ
      lambda := ih.lambda_succ
      conditional := ih.conditional_succ
      binary := ih.binary_succ
      binaryRest := ih.binaryRest_succ
      unary := ih.unary_succ
      suffixes := ih.suffixes_succ
      args := ih.args_succ
      arg := ih.arg_succ
      primary := ih.primary_succ
      creation := ih.creation_succ
      anonymousMember := ih.anonymousMember_succ
      queryRange := ih.queryRange_succ
      queryKey := ih.queryKey_succ
      queryClauses := ih.queryClauses_succ
      initializer := ih.initializer_succ
      braceList := ih.braceList_succ
      params := ih.params_succ
      param := ih.param_succ
      block := ih.block_succ
      parenthesized := ih.parenthesized_succ
      statement := ih.statement_succ
      simpleStatement := ih.simpleStatement_succ
      gotoTarget := ih.gotoTarget_succ
      declaration := ih.declaration_succ
      declarator := ih.declarator_succ
      forLoop := ih.forLoop_succ
      switchSection := ih.switchSection_succ
      caseLabels := ih.caseLabels_succ
      tryStatement := ih.tryStatement_succ
      catchClause := ih.catchClause_succ }

end ShaderCompiler.Grammar
