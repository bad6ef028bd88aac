import ShaderCompiler.Proofs.Position.Bodies

namespace ShaderCompiler

namespace Grammar

open Token

namespace Blind

variable (fuel : Nat)

theorem modifiers : Blind (fun u => u) (modifiers fuel) (modifiers fuel) :=
  .bind (.manyUntil _ .advance fuel) fun _ => .pure rfl

theorem methodBody (returnsValue : Bool) : Blind (Option.map (List.map Stmt.unplaced))
    (methodBody returnsValue fuel) (methodBody returnsValue fuel) := by
  refine .bind (.eat _) fun isAbsent => .ite (.pure rfl) ?_
  refine .bind (.eat _) fun isArrow => .ite ?_ ?_
  · refine .bind (blindBodies fuel).expr fun value => .bind (.expect _) fun _ => .pure ?_
    cases returnsValue <;> simp
  · exact .bind (blindBodies fuel).block fun body => .pure rfl

theorem structField : Blind FieldDecl.unplaced (structField fuel) (structField fuel) := by
  refine .bind .here fun span => .bind (.attributes fuel) fun attrs => ?_
  refine .bind (.modifiers fuel) fun _ => .bind .typeRef fun type => .bind (.ident _) fun name => ?_
  refine .bind (.ifEaten _ (blindBodies fuel).initializer) fun init => ?_
  exact .bind (.expect _) fun _ => .pure rfl

theorem structDecl (attrs : List Attribute) (span : Span) :
    Blind StructDecl.unplaced (structDecl attrs span fuel)
      (structDecl (attrs.map Attribute.unplaced) .none fuel) := by
  refine .bind (.expect _) fun _ => .bind (.ident _) fun name => .bind (.expect _) fun _ => ?_
  refine .bind (.manyUntil _ (.structField fuel) fuel) fun fields => .bind (.expect _) fun _ => ?_
  exact .bind (.eat _) fun _ => .pure rfl

theorem constantDecl (attrs : List Attribute) (span : Span) :
    Blind FieldDecl.unplaced (constantDecl attrs span fuel)
      (constantDecl (attrs.map Attribute.unplaced) .none fuel) := by
  refine .bind (.expect _) fun _ => .bind .typeRef fun type => .bind (.ident _) fun name => ?_
  refine .bind (.eat _) fun hasValue => .ite ?_ (.fail _ _)
  refine .bind (blindBodies fuel).initializer fun init => ?_
  exact .bind (.expect _) fun _ => .pure rfl

theorem constructorDecl (attrs returnAttrs : List Attribute) (isStatic : Bool) (span : Span) :
    Blind MethodDecl.unplaced (constructorDecl attrs returnAttrs isStatic span fuel)
      (constructorDecl (attrs.map Attribute.unplaced) (returnAttrs.map Attribute.unplaced) isStatic
        .none fuel) := by
  refine .bind (.ident _) fun name => .bind (blindBodies fuel).params fun given => ?_
  refine .bind (.eat _) fun callsBase => .ite
    (.bind (.expect _) fun _ => .bind (blindBodies fuel).args fun _ => ?_) ?_
  all_goals exact .bind (.methodBody fuel false) fun body => .pure rfl

theorem member (className : String) :
    Blind Member.unplaced (member className fuel) (member className fuel) := by
  refine .bind .here fun span => .bind (.attributeLists fuel) fun (attrs, returnAttrs) => ?_
  refine .bind (.modifiers fuel) fun _ => .bind (.eat _) fun isStatic => ?_
  refine .bind (.modifiers fuel) fun _ => .bind .peek fun next => .bind (.peekAt 1) fun second => ?_
  simp only [List.isEmpty_map]
  refine .ite (.ite ?_ (.failAt _ _ _)) (.ite ?_ (.ite ?_ ?_))
  · exact .bind (.structDecl fuel attrs span) fun decl => .pure rfl
  · exact .bind (.constantDecl fuel attrs span) fun decl => .pure rfl
  · exact .bind (.constructorDecl fuel attrs returnAttrs isStatic span) fun decl => .pure rfl
  · refine .bind .typeRef fun type => .bind (.ident _) fun name => ?_
    refine .bind (.isAt _) fun isMethod => .ite ?_ (.ite ?_ (.failAt _ _ _))
    · refine .bind (blindBodies fuel).params fun given => ?_
      exact .bind (.methodBody fuel _) fun body => .pure rfl
    · refine .bind (.ifEaten _ (blindBodies fuel).initializer) fun init => ?_
      exact .bind (.expect _) fun _ => .pure rfl

theorem classKind (name : String) (isStatic : Bool) (span : Span) :
    Blind (fun kind => kind) (classKind name isStatic span) (classKind name isStatic .none) := by
  refine .bind (.eat _) fun derives => .ite ?_ (.ite (.pure rfl) (.failAt _ _ _))
  refine .bind .here fun baseSpan => .bind (.ident _) fun base => .ite (.failAt _ _ _) ?_
  split
  · exact .pure rfl
  · exact .failAt _ _ _

theorem filterMap_unplaced {γ : Type} {pick : Member → Option γ} {e : γ → γ}
    (h : ∀ m, pick m.unplaced = (pick m).map e) (members : List Member) :
    (members.map Member.unplaced).filterMap pick = (members.filterMap pick).map e := by
  rw [List.filterMap_map, List.map_filterMap]
  exact congrArg (fun p => members.filterMap p) (funext h)

theorem classDecl : Blind ClassDecl.unplaced (classDecl fuel) (classDecl fuel) := by
  refine .bind .here fun span => .bind (.attributes fuel) fun attrs => ?_
  refine .bind (.modifiers fuel) fun _ => .bind (.eat _) fun isStatic => ?_
  refine .bind (.modifiers fuel) fun _ => .bind (.expect _) fun _ => .bind (.ident _) fun name => ?_
  refine .bind (.classKind name isStatic span) fun kind => .bind (.expect _) fun _ => ?_
  refine .bind (.manyUntil _ (.member fuel name) fuel) fun members => ?_
  refine .bind (.expect _) fun _ => .pure ?_
  simp only [ClassDecl.unplaced]
  rw [filterMap_unplaced (e := FieldDecl.unplaced) (by rintro (_ | _ | _) <;> rfl),
    filterMap_unplaced (e := StructDecl.unplaced) (by rintro (_ | _ | _) <;> rfl),
    filterMap_unplaced (e := MethodDecl.unplaced) (by rintro (_ | _ | _) <;> rfl)]

theorem usingDirective : Blind (fun u => u) (usingDirective fuel) (usingDirective fuel) :=
  .bind (.manyUntil _ .advance fuel) fun _ => .expect _

theorem sourceItem : Blind (Option.map ClassDecl.unplaced) (sourceItem fuel) (sourceItem fuel) := by
  refine .bind (.isAt _) fun isUsing => .ite ?_ ?_
  · exact .bind (.usingDirective fuel) fun _ => .pure rfl
  · exact .bind (.classDecl fuel) fun decl => .pure rfl

theorem source : Blind (List.map ClassDecl.unplaced) (source fuel) (source fuel) := by
  refine .bind (.manyUntil _ (.sourceItem fuel) fuel) fun items => .pure ?_
  rw [List.filterMap_map, List.map_filterMap]
  rfl

end Blind

end Grammar

/-- Tokens at no position write the same classes at no position, or fail for the same fault. -/
theorem readClasses_unplaced (tokens : List Token) :
    readClasses (tokens.map Token.unplaced) =
      ((readClasses tokens).map (List.map ClassDecl.unplaced)).mapError ReadError.unplaced := by
  have hfuel : Grammar.fuelFor (tokens.map Token.unplaced) = Grammar.fuelFor tokens := by
    rw [Grammar.fuelFor, Grammar.fuelFor, List.length_map]
  rw [readClasses, readClasses, hfuel, Grammar.Blind.source (Grammar.fuelFor tokens) tokens]
  cases Grammar.source (Grammar.fuelFor tokens) tokens <;> rfl

theorem map_unplaced_of_kinds {ts us : List Token} (h : ts.map Token.kind = us.map Token.kind) :
    ts.map Token.unplaced = us.map Token.unplaced := by
  have hkinds (ts : List Token) :
      ts.map Token.unplaced = (ts.map Token.kind).map fun kind => ⟨kind, .none⟩ := by
    rw [List.map_map]
    rfl
  rw [hkinds, hkinds, h]

end ShaderCompiler
