import ShaderCompiler.Grammar.Class
import ShaderCompiler.MethodBody
import ShaderCompiler.Tree.Visit

namespace ShaderCompiler

def Token.unplaced (t : Token) : Token := { t with span := .none }

def ReadError.unplaced (e : ReadError) : ReadError := { e with line := 0, column := 0 }

def TypeRef.unplaced (t : TypeRef) : TypeRef := { t with span := .none }

def Attribute.unplaced (a : Attribute) : Attribute := { a with span := .none }

@[simp] theorem TypeRef.name_unplaced (t : TypeRef) : t.unplaced.name = t.name := rfl

@[simp] theorem Attribute.name_unplaced (a : Attribute) : a.unplaced.name = a.name := rfl

mutual

def Expr.unplaced : Expr → Expr
  | .assign op target value => .assign op target.unplaced value.unplaced
  | .binary op lhs rhs => .binary op lhs.unplaced rhs.unplaced
  | .unary op operand => .unary op operand.unplaced
  | .call receiver name args => .call (unplacedExpr? receiver) name (unplacedArgs args)
  | .member target name => .member target.unplaced name
  | .construct type args => .construct type.unplaced (unplacedArgs args)
  | .newArray element size none => .newArray element.unplaced (unplacedExpr? size) none
  | .newArray element size (some items) =>
      .newArray element.unplaced (unplacedExpr? size) (some (unplacedExprs items))
  | .arrayInit items => .arrayInit (unplacedExprs items)
  | .index target index => .index target.unplaced index.unplaced
  | .cast type operand => .cast type.unplaced operand.unplaced
  | .conditional test yes no => .conditional test.unplaced yes.unplaced no.unplaced
  | .ident name => .ident name
  | .self => .self
  | .literal value => .literal value
  | .base _ => .base .none
  | .null _ => .null .none
  | .lambda params (.expr e) _ => .lambda params (.expr e.unplaced) .none
  | .lambda params (.block body) _ => .lambda params (.block (unplacedStmts body)) .none
  | .query _ => .query .none
  | .typeTest op operand type _ => .typeTest op operand.unplaced type.unplaced .none
  | .typeOf type _ => .typeOf type.unplaced .none
  | .sizeOf type _ => .sizeOf type.unplaced .none
  | .deref operand _ => .deref operand.unplaced .none
  | .addressOf operand _ => .addressOf operand.unplaced .none
  | .arrow target name _ => .arrow target.unplaced name .none
  | .stackAlloc type size _ => .stackAlloc type.unplaced size.unplaced .none
  | .anonymous members _ => .anonymous (unplacedMembers members) .none

def unplacedExpr? : Option Expr → Option Expr
  | none => none
  | some e => some e.unplaced

def unplacedExprs : List Expr → List Expr
  | [] => []
  | e :: rest => e.unplaced :: unplacedExprs rest

def unplacedArgs : List (Arg Expr) → List (Arg Expr)
  | [] => []
  | ⟨label, e⟩ :: rest => ⟨label, e.unplaced⟩ :: unplacedArgs rest

def unplacedMembers : List (String × Expr) → List (String × Expr)
  | [] => []
  | (name, e) :: rest => (name, e.unplaced) :: unplacedMembers rest

def Stmt.unplaced : Stmt → Stmt
  | .block body => .block (unplacedStmts body)
  | .empty => .empty
  | .ifElse test yes no => .ifElse test.unplaced yes.unplaced (unplacedStmt? no)
  | .whileLoop test body => .whileLoop test.unplaced body.unplaced
  | .doWhile body test => .doWhile body.unplaced test.unplaced
  | .forLoop init test step body =>
      .forLoop (unplacedStmts init) (unplacedExpr? test) (unplacedExprs step) body.unplaced
  | .switch scrutinee sections => .switch scrutinee.unplaced (unplacedSections sections)
  | .ret value => .ret (unplacedExpr? value)
  | .brk => .brk
  | .cont => .cont
  | .discard => .discard
  | .declare isConst type declarators =>
      .declare isConst type.unplaced (unplacedDeclarators declarators)
  | .eval e => .eval e.unplaced
  | .tryCatch body catches none _ =>
      .tryCatch (unplacedStmts body) (unplacedCatches catches) none .none
  | .tryCatch body catches (some final) _ =>
      .tryCatch (unplacedStmts body) (unplacedCatches catches) (some (unplacedStmts final)) .none
  | .throw value _ => .throw (unplacedExpr? value) .none
  | .foreach type name iterable body _ =>
      .foreach type.unplaced name iterable.unplaced body.unplaced .none
  | .lock target body _ => .lock target.unplaced body.unplaced .none
  | .using resource body _ => .using resource.unplaced body.unplaced .none
  | .goto (.label name) _ => .goto (.label name) .none
  | .goto (.value e) _ => .goto (.value e.unplaced) .none
  | .goto .default _ => .goto .default .none
  | .labeled label stmt _ => .labeled label stmt.unplaced .none
  | .yield value _ => .yield (unplacedExpr? value) .none
  | .unmanaged body _ => .unmanaged (unplacedStmts body) .none
  | .fixed decl body _ => .fixed decl.unplaced body.unplaced .none
  | .attributed attributes stmt _ =>
      .attributed (attributes.map Attribute.unplaced) stmt.unplaced .none

def unplacedStmt? : Option Stmt → Option Stmt
  | none => none
  | some s => some s.unplaced

def unplacedStmts : List Stmt → List Stmt
  | [] => []
  | s :: rest => s.unplaced :: unplacedStmts rest

def unplacedSections : List (SwitchSection Expr Stmt) → List (SwitchSection Expr Stmt)
  | [] => []
  | ⟨labels, body⟩ :: rest =>
      ⟨unplacedLabels labels, unplacedStmts body⟩ :: unplacedSections rest

def unplacedLabels : List (CaseLabel Expr) → List (CaseLabel Expr)
  | [] => []
  | .value e :: rest => .value e.unplaced :: unplacedLabels rest
  | .default :: rest => .default :: unplacedLabels rest

def unplacedDeclarators : List (Declarator Expr) → List (Declarator Expr)
  | [] => []
  | ⟨name, init⟩ :: rest => ⟨name, unplacedExpr? init⟩ :: unplacedDeclarators rest

def unplacedCatches : List (CatchClause Stmt) → List (CatchClause Stmt)
  | [] => []
  | ⟨type, name, body⟩ :: rest =>
      ⟨type.map TypeRef.unplaced, name, unplacedStmts body⟩ :: unplacedCatches rest

end

attribute [simp] Expr.unplaced Stmt.unplaced

def Arg.unplaced (a : Arg Expr) : Arg Expr := ⟨a.label, a.value.unplaced⟩

def SwitchSection.unplaced (s : SwitchSection Expr Stmt) : SwitchSection Expr Stmt :=
  ⟨s.labels.map (CaseLabel.map Expr.unplaced), s.body.map Stmt.unplaced⟩

def CatchClause.unplaced (c : CatchClause Stmt) : CatchClause Stmt :=
  ⟨c.type.map TypeRef.unplaced, c.name, c.body.map Stmt.unplaced⟩

def GotoTarget.unplaced : GotoTarget Expr → GotoTarget Expr
  | .label name => .label name
  | .value e => .value e.unplaced
  | .default => .default

@[simp] theorem unplacedExpr?_eq (e : Option Expr) : unplacedExpr? e = e.map Expr.unplaced := by
  cases e <;> rfl

@[simp] theorem unplacedStmt?_eq (s : Option Stmt) : unplacedStmt? s = s.map Stmt.unplaced := by
  cases s <;> rfl

@[simp] theorem unplacedExprs_eq (es : List Expr) : unplacedExprs es = es.map Expr.unplaced := by
  induction es with
  | nil => rfl
  | cons e es ih => rw [unplacedExprs, ih, List.map_cons]

@[simp] theorem unplacedArgs_eq (args : List (Arg Expr)) :
    unplacedArgs args = args.map Arg.unplaced := by
  induction args with
  | nil => rfl
  | cons a args ih =>
      rw [unplacedArgs, ih]
      rfl

@[simp] theorem unplacedMembers_eq (members : List (String × Expr)) :
    unplacedMembers members = members.map (Prod.map id Expr.unplaced) := by
  induction members with
  | nil => rfl
  | cons m members ih =>
      rw [unplacedMembers, ih]
      rfl

@[simp] theorem unplacedStmts_eq (body : List Stmt) :
    unplacedStmts body = body.map Stmt.unplaced := by
  induction body with
  | nil => rfl
  | cons s body ih => rw [unplacedStmts, ih, List.map_cons]

@[simp] theorem unplacedLabels_eq (labels : List (CaseLabel Expr)) :
    unplacedLabels labels = labels.map (CaseLabel.map Expr.unplaced) := by
  induction labels with
  | nil => rfl
  | cons label labels ih =>
      cases label <;>
        · rw [unplacedLabels, ih]
          rfl

@[simp] theorem unplacedDeclarators_eq (ds : List (Declarator Expr)) :
    unplacedDeclarators ds = ds.map (Declarator.map Expr.unplaced) := by
  induction ds with
  | nil => rfl
  | cons d ds ih =>
      rw [unplacedDeclarators, ih, unplacedExpr?_eq]
      rfl

@[simp] theorem unplacedSections_eq (sections : List (SwitchSection Expr Stmt)) :
    unplacedSections sections = sections.map SwitchSection.unplaced := by
  induction sections with
  | nil => rfl
  | cons s sections ih =>
      rw [unplacedSections, ih, unplacedLabels_eq, unplacedStmts_eq]
      rfl

@[simp] theorem unplacedCatches_eq (catches : List (CatchClause Stmt)) :
    unplacedCatches catches = catches.map CatchClause.unplaced := by
  induction catches with
  | nil => rfl
  | cons c catches ih =>
      rw [unplacedCatches, ih, unplacedStmts_eq]
      rfl

@[simp] theorem Expr.unplaced_newArray (element : TypeRef) (size : Option Expr)
    (items : Option (List Expr)) : (newArray element size items).unplaced =
      .newArray element.unplaced (size.map unplaced) (items.map (List.map unplaced)) := by
  cases items <;> simp

@[simp] theorem Stmt.unplaced_tryCatch (body : List Stmt) (catches : List (CatchClause Stmt))
    (final : Option (List Stmt)) (span : Span) : (tryCatch body catches final span).unplaced =
      .tryCatch (body.map unplaced) (catches.map CatchClause.unplaced)
        (final.map (List.map unplaced)) .none := by
  cases final <;> simp

@[simp] theorem Stmt.unplaced_goto (target : GotoTarget Expr) (span : Span) :
    (goto target span).unplaced = .goto target.unplaced .none := by
  cases target <;> simp [GotoTarget.unplaced]

def Param.unplaced (p : Param) : Param where
  attributes := p.attributes.map Attribute.unplaced
  passing := p.passing
  type := p.type.unplaced
  name := p.name
  default := p.default.map Expr.unplaced

def FieldDecl.unplaced (f : FieldDecl) : FieldDecl where
  attributes := f.attributes.map Attribute.unplaced
  isConst := f.isConst
  type := f.type.unplaced
  name := f.name
  init := f.init.map Expr.unplaced

def StructDecl.unplaced (s : StructDecl) : StructDecl where
  attributes := s.attributes.map Attribute.unplaced
  name := s.name
  fields := s.fields.map FieldDecl.unplaced

def MethodDecl.unplaced (m : MethodDecl) : MethodDecl where
  attributes := m.attributes.map Attribute.unplaced
  returnAttributes := m.returnAttributes.map Attribute.unplaced
  isStatic := m.isStatic
  returnType := m.returnType.map TypeRef.unplaced
  name := m.name
  params := m.params.map Param.unplaced
  body := m.body.map (List.map Stmt.unplaced)
  isConstructor := m.isConstructor

def MethodBody.unplaced (m : MethodBody) : MethodBody where
  name := m.name
  isConstructor := m.isConstructor
  params := m.params.map Param.unplaced
  returnType := m.returnType.map TypeRef.unplaced
  returnAttributes := m.returnAttributes.map Attribute.unplaced
  body := m.body.map Stmt.unplaced

def ClassDecl.unplaced (c : ClassDecl) : ClassDecl where
  name := c.name
  kind := c.kind
  attributes := c.attributes.map Attribute.unplaced
  fields := c.fields.map FieldDecl.unplaced
  structs := c.structs.map StructDecl.unplaced
  methods := c.methods.map MethodDecl.unplaced

def Grammar.Member.unplaced : Grammar.Member → Grammar.Member
  | .field decl => .field decl.unplaced
  | .struct decl => .struct decl.unplaced
  | .method decl => .method decl.unplaced

end ShaderCompiler
