import Mathlib.Logic.Relation
import ShaderCompiler.Proofs.Emission.Reasons

namespace ShaderCompiler

inductive Node
  | type (t : TypeRef)
  | param (p : Param)
  | expr (e : Expr)
  | stmt (s : Stmt)

namespace Node

def ofExpr : Expr → List Node
  | .assign _ a b | .binary _ a b | .index a b => [expr a, expr b]
  | .unary _ a | .member a _ | .deref a _ | .addressOf a _ | .arrow a _ _ => [expr a]
  | .call receiver _ args => receiver.toList.map expr ++ args.map (expr ·.value)
  | .construct t args => type t :: args.map (expr ·.value)
  | .newArray t size items => type t :: (size.toList ++ items.getD []).map expr
  | .arrayInit items => items.map expr
  | .cast t a => [type t, expr a]
  | .conditional a b c => [expr a, expr b, expr c]
  | .lambda _ (.expr e) _ => [expr e]
  | .lambda _ (.block body) _ => body.map stmt
  | .typeTest _ a t _ => [expr a, type t]
  | .typeOf t _ | .sizeOf t _ => [type t]
  | .stackAlloc t a _ => [type t, expr a]
  | .anonymous members _ => members.map (expr ·.2)
  | .ident _ | .self | .literal _ | .base _ | .null _ | .query _ => []

def ofSection (s : SwitchSection Expr Stmt) : List Node :=
  (s.labels.filterMap CaseLabel.value?).map expr ++ s.body.map stmt

def ofStmt : Stmt → List Node
  | .block body | .unmanaged body _ => body.map stmt
  | .ifElse test yes no => expr test :: stmt yes :: no.toList.map stmt
  | .whileLoop e s | .doWhile s e | .lock e s _ => [expr e, stmt s]
  | .forLoop init test step body =>
      init.map stmt ++ (test.toList ++ step).map expr ++ [stmt body]
  | .switch scrutinee sections => expr scrutinee :: sections.flatMap ofSection
  | .ret value | .throw value _ | .yield value _ => value.toList.map expr
  | .declare _ t declarators => type t :: (declarators.filterMap (·.init)).map expr
  | .eval e | .goto (.value e) _ => [expr e]
  | .tryCatch body catches final _ =>
      body.map stmt ++
        catches.flatMap (fun c => c.type.toList.map type ++ c.body.map stmt) ++
        (final.getD []).map stmt
  | .foreach t _ e s _ => [type t, expr e, stmt s]
  | .using resource s _ => [stmt resource, stmt s]
  | .fixed decl s _ => [stmt decl, stmt s]
  | .labeled _ s _ | .attributed _ s _ => [stmt s]
  | .empty | .brk | .cont | .discard | .goto (.label _) _ | .goto .default _ => []

def children : Node → List Node
  | type _ => []
  | param p => type p.type :: p.default.toList.map expr
  | expr e => ofExpr e
  | stmt s => ofStmt s

/-- A call that passes one string on as it is: bare, on `this`, on the class itself or on the base
class of a stage. -/
def IsPassthrough (ctx : ClassContext) : Node → Prop
  | expr (.call receiver name args) => isVerbatimCall ctx receiver name args = true
  | _ => False

/-- The nodes of each family of constructs. A string belongs to the node above it, which decides
whether it has a form. There are none for recursion. -/
inductive IsOf (ctx : ClassContext) : Construct → Node → Prop
  | tryCatch (body : List Stmt) (catches : List (CatchClause Stmt)) (final : Option (List Stmt))
      (span : Span) : IsOf ctx .exceptions (stmt (.tryCatch body catches final span))
  | throw (value : Option Expr) (span : Span) : IsOf ctx .exceptions (stmt (.throw value span))
  | lambda (params : List String) (body : LambdaBody Expr Stmt) (span : Span) :
      IsOf ctx .lambdas (expr (.lambda params body span))
  | query (span : Span) : IsOf ctx .queries (expr (.query span))
  | typeTest (op : TypeTestOp) (operand : Expr) (t : TypeRef) (span : Span) :
      IsOf ctx .typeTests (expr (.typeTest op operand t span))
  | typeOf (t : TypeRef) (span : Span) : IsOf ctx .typeOf (expr (.typeOf t span))
  | sizeOf (t : TypeRef) (span : Span) : IsOf ctx .sizeOf (expr (.sizeOf t span))
  | pointer (t : TypeRef) (h : t.pointer = true) : IsOf ctx .pointers (type t)
  | deref (operand : Expr) (span : Span) : IsOf ctx .pointers (expr (.deref operand span))
  | addressOf (operand : Expr) (span : Span) : IsOf ctx .pointers (expr (.addressOf operand span))
  | arrow (target : Expr) (name : String) (span : Span) :
      IsOf ctx .pointers (expr (.arrow target name span))
  | unmanaged (body : List Stmt) (span : Span) : IsOf ctx .unmanaged (stmt (.unmanaged body span))
  | fixed (decl body : Stmt) (span : Span) : IsOf ctx .fixedBlocks (stmt (.fixed decl body span))
  | stackAlloc (t : TypeRef) (size : Expr) (span : Span) :
      IsOf ctx .stackAlloc (expr (.stackAlloc t size span))
  | goto (target : GotoTarget Expr) (span : Span) : IsOf ctx .goto (stmt (.goto target span))
  | labeled (label : String) (s : Stmt) (span : Span) :
      IsOf ctx .labels (stmt (.labeled label s span))
  | yield (value : Option Expr) (span : Span) : IsOf ctx .iterators (stmt (.yield value span))
  | null (span : Span) : IsOf ctx .null (expr (.null span))
  | anonymous (members : List (String × Expr)) (span : Span) :
      IsOf ctx .anonymousTypes (expr (.anonymous members span))
  | labelledCall (receiver : Option Expr) (name : String) (args : List (Arg Expr))
      (h : ∃ a ∈ args, a.label.isSome) :
      IsOf ctx .namedArguments (expr (.call receiver name args))
  | labelledConstruct (t : TypeRef) (args : List (Arg Expr)) (h : ∃ a ∈ args, a.label.isSome) :
      IsOf ctx .namedArguments (expr (.construct t args))
  | defaulted (p : Param) (h : p.default.isSome) : IsOf ctx .defaultArguments (param p)
  | attributed (attrs : List Attribute) (s : Stmt) (span : Span) :
      IsOf ctx .attributes (stmt (.attributed attrs s span))
  | lock (target : Expr) (body : Stmt) (span : Span) :
      IsOf ctx .lockBlocks (stmt (.lock target body span))
  | using (resource body : Stmt) (span : Span) :
      IsOf ctx .usingBlocks (stmt (.using resource body span))
  | foreach (t : TypeRef) (name : String) (iterable : Expr) (body : Stmt) (span : Span) :
      IsOf ctx .foreachLoops (stmt (.foreach t name iterable body span))
  | base (span : Span) : IsOf ctx .baseAccess (expr (.base span))
  | string (n : Node) (text : String) (h : expr (.literal (.str text)) ∈ n.children)
      (hn : ¬ n.IsPassthrough ctx) : IsOf ctx .strings n

/-- The second node is the first or somewhere below it. -/
def Holds (n : Node) : Node → Prop :=
  Relation.ReflTransGen (fun parent child => child ∈ parent.children) n

def Shows (ctx : ClassContext) (n : Node) (c : Construct) : Prop :=
  ∃ n', n.Holds n' ∧ IsOf ctx c n'

variable {ctx : ClassContext} {c : Construct} {n child : Node}

theorem Shows.self (h : IsOf ctx c n) : n.Shows ctx c := ⟨n, .refl, h⟩

theorem Shows.of_child (h : child.Shows ctx c) (hchild : child ∈ n.children) : n.Shows ctx c := by
  obtain ⟨n', hholds, hof⟩ := h
  exact ⟨n', hholds.head hchild, hof⟩

theorem shows_type {t : TypeRef} (h : c ∈ t.rejections) : (type t).Shows ctx c := by
  rw [TypeRef.rejections] at h
  split at h
  · next hpointer =>
      rw [List.mem_singleton.mp h]
      exact .self (.pointer t hpointer)
  · cases h

theorem shows_of_type {t : TypeRef} (h : c ∈ t.rejections) (ht : type t ∈ n.children) :
    n.Shows ctx c :=
  (shows_type h).of_child ht

theorem exists_label {args : List (Arg Expr)} (h : c ∈ labelRejections args) :
    c = .namedArguments ∧ ∃ a ∈ args, a.label.isSome := by
  rw [labelRejections] at h
  split at h
  · next hlabel => exact ⟨List.mem_singleton.mp h, List.any_eq_true.mp hlabel⟩
  · cases h

def ShownBy (ctx : ClassContext) (e : Expr) (c : Construct) : Prop :=
  ∀ n : Node, ¬ n.IsPassthrough ctx → expr e ∈ n.children → n.Shows ctx c

theorem ShownBy.of_shows {e : Expr} (h : (expr e).Shows ctx c) : ShownBy ctx e c :=
  fun _ _ hchild => h.of_child hchild

theorem ShownBy.of_child {e child : Expr} (h : ShownBy ctx child c)
    (hchild : expr child ∈ ofExpr e) (hpass : ¬ (expr e).IsPassthrough ctx) : ShownBy ctx e c :=
  .of_shows (h (expr e) hpass hchild)

theorem rejections_of_answersBare {receiver : Expr} (h : answersBare ctx (some receiver) = true) :
    receiver.rejections ctx = [] := by
  cases receiver with
  | self | ident => rw [Expr.rejections]
  | _ => cases h

end Node

open Node

variable {ctx : ClassContext} {c : Construct}

mutual

theorem shownBy_expr : (e : Expr) → c ∈ e.rejections ctx → ShownBy ctx e c
  | .assign _ a b, h | .binary _ a b, h | .index a b, h => by
      rw [Expr.rejections, List.mem_append] at h
      obtain h | h := h
      · exact (shownBy_expr a h).of_child (by simp [ofExpr]) id
      · exact (shownBy_expr b h).of_child (by simp [ofExpr]) id
  | .unary _ a, h | .member a _, h => by
      rw [Expr.rejections] at h
      exact (shownBy_expr a h).of_child (by simp [ofExpr]) id
  | .call none name args, h => by
      rw [Expr.rejections, List.mem_append] at h
      obtain h | h := h
      · obtain ⟨rfl, hlabel⟩ := exists_label h
        exact .of_shows (.self (.labelledCall none name args hlabel))
      · split at h
        · cases h
        · next hpass =>
            obtain ⟨a, ha, hshown⟩ := exists_shownBy_args args h
            exact hshown.of_child (by simpa [ofExpr] using ⟨a, ha, rfl⟩) hpass
  | .call (some receiver) name args, h => by
      rw [Expr.rejections, List.mem_append, List.mem_append] at h
      obtain (h | h) | h := h
      · -- on what a string is passed on to, there is nothing to refuse
        refine (shownBy_expr receiver h).of_child (by simp [ofExpr]) fun hpass => ?_
        rw [rejections_of_answersBare (Bool.and_eq_true_iff.mp hpass).1] at h
        cases h
      · obtain ⟨rfl, hlabel⟩ := exists_label h
        exact .of_shows (.self (.labelledCall (some receiver) name args hlabel))
      · split at h
        · cases h
        · next hpass =>
            obtain ⟨a, ha, hshown⟩ := exists_shownBy_args args h
            exact hshown.of_child (by simpa [ofExpr] using Or.inr ⟨a, ha, rfl⟩) hpass
  | .construct t args, h => by
      rw [Expr.rejections, List.mem_append, List.mem_append] at h
      obtain (h | h) | h := h
      · exact .of_shows (shows_of_type h (by simp [children, ofExpr]))
      · obtain ⟨rfl, hlabel⟩ := exists_label h
        exact .of_shows (.self (.labelledConstruct t args hlabel))
      · obtain ⟨a, ha, hshown⟩ := exists_shownBy_args args h
        exact hshown.of_child (by simpa [ofExpr] using ⟨a, ha, rfl⟩) id
  | .newArray t none none, h => by
      rw [Expr.rejections] at h
      exact .of_shows (shows_of_type h (by simp [children, ofExpr]))
  | .newArray t (some size) none, h => by
      rw [Expr.rejections, List.mem_append] at h
      obtain h | h := h
      · exact .of_shows (shows_of_type h (by simp [children, ofExpr]))
      · exact (shownBy_expr size h).of_child (by simp [ofExpr]) id
  | .newArray t none (some items), h => by
      rw [Expr.rejections, List.mem_append] at h
      obtain h | h := h
      · exact .of_shows (shows_of_type h (by simp [children, ofExpr]))
      · obtain ⟨e, he, hshown⟩ := exists_shownBy_items items h
        exact hshown.of_child (by simpa [ofExpr] using he) id
  | .newArray t (some size) (some items), h => by
      rw [Expr.rejections, List.mem_append, List.mem_append] at h
      obtain (h | h) | h := h
      · exact .of_shows (shows_of_type h (by simp [children, ofExpr]))
      · exact (shownBy_expr size h).of_child (by simp [ofExpr]) id
      · obtain ⟨e, he, hshown⟩ := exists_shownBy_items items h
        exact hshown.of_child (by simpa [ofExpr] using Or.inr he) id
  | .arrayInit items, h => by
      rw [Expr.rejections] at h
      obtain ⟨e, he, hshown⟩ := exists_shownBy_items items h
      exact hshown.of_child (by simpa [ofExpr] using he) id
  | .cast t a, h => by
      rw [Expr.rejections, List.mem_append] at h
      obtain h | h := h
      · exact .of_shows (shows_of_type h (by simp [children, ofExpr]))
      · exact (shownBy_expr a h).of_child (by simp [ofExpr]) id
  | .conditional a b d, h => by
      rw [Expr.rejections, List.mem_append, List.mem_append] at h
      obtain (h | h) | h := h
      · exact (shownBy_expr a h).of_child (by simp [ofExpr]) id
      · exact (shownBy_expr b h).of_child (by simp [ofExpr]) id
      · exact (shownBy_expr d h).of_child (by simp [ofExpr]) id
  | .literal (.str text), h => by
      rw [Expr.rejections] at h
      rw [List.mem_singleton.mp h]
      -- the node above is the one that belongs to the family
      exact fun n hpass hchild => .self (.string n text hchild hpass)
  | .literal (.bool _), h | .literal (.int _), h | .literal (.uint _), h
  | .literal (.float _), h | .literal (.double _), h | .ident _, h | .self, h => by
      simp [Expr.rejections] at h
  | .base _, h | .null _, h | .lambda _ _ _, h | .query _, h | .typeTest _ _ _ _, h
  | .typeOf _ _, h | .sizeOf _ _, h | .deref _ _, h | .addressOf _ _, h | .arrow _ _ _, h
  | .stackAlloc _ _ _, h | .anonymous _ _, h => by
      rw [Expr.rejections] at h
      rw [List.mem_singleton.mp h]
      exact .of_shows (.self (by constructor))

theorem exists_shownBy_args : (args : List (Arg Expr)) → c ∈ rejectionsOfArgs ctx args →
    ∃ a ∈ args, ShownBy ctx a.value c
  | [], h => by
      rw [rejectionsOfArgs] at h
      cases h
  | ⟨label, e⟩ :: rest, h => by
      rw [rejectionsOfArgs, List.mem_append] at h
      obtain h | h := h
      · exact ⟨_, List.mem_cons_self, shownBy_expr e h⟩
      · obtain ⟨a, ha, hshown⟩ := exists_shownBy_args rest h
        exact ⟨a, List.mem_cons_of_mem _ ha, hshown⟩

theorem exists_shownBy_items : (items : List Expr) → c ∈ rejectionsOfItems ctx items →
    ∃ e ∈ items, ShownBy ctx e c
  | [], h => by
      rw [rejectionsOfItems] at h
      cases h
  | e :: rest, h => by
      rw [rejectionsOfItems, List.mem_append] at h
      obtain h | h := h
      · exact ⟨e, List.mem_cons_self, shownBy_expr e h⟩
      · obtain ⟨e', he', hshown⟩ := exists_shownBy_items rest h
        exact ⟨e', List.mem_cons_of_mem _ he', hshown⟩

end

theorem shows_of_exprs {n : Node} {es : List Expr} (h : c ∈ es.flatMap (Expr.rejections ctx))
    (hchildren : ∀ e ∈ es, expr e ∈ n.children) (hpass : ¬ n.IsPassthrough ctx) :
    n.Shows ctx c := by
  obtain ⟨e, he, h⟩ := List.mem_flatMap.mp h
  exact shownBy_expr e h n hpass (hchildren e he)

mutual

theorem shows_stmt : (s : Stmt) → c ∈ s.rejections ctx → (stmt s).Shows ctx c
  | .block body, h => by
      rw [Stmt.rejections] at h
      obtain ⟨s, hs, hshown⟩ := exists_shows_stmts body h
      exact hshown.of_child (by simpa [children, ofStmt] using hs)
  | .ifElse test yes none, h => by
      rw [Stmt.rejections, List.mem_append] at h
      obtain h | h := h
      · exact shownBy_expr test h _ id (by simp [children, ofStmt])
      · exact (shows_stmt yes h).of_child (by simp [children, ofStmt])
  | .ifElse test yes (some no), h => by
      rw [Stmt.rejections, List.mem_append, List.mem_append] at h
      obtain (h | h) | h := h
      · exact shownBy_expr test h _ id (by simp [children, ofStmt])
      · exact (shows_stmt yes h).of_child (by simp [children, ofStmt])
      · exact (shows_stmt no h).of_child (by simp [children, ofStmt])
  | .whileLoop test body, h => by
      rw [Stmt.rejections, List.mem_append] at h
      obtain h | h := h
      · exact shownBy_expr test h _ id (by simp [children, ofStmt])
      · exact (shows_stmt body h).of_child (by simp [children, ofStmt])
  | .doWhile body test, h => by
      rw [Stmt.rejections, List.mem_append] at h
      obtain h | h := h
      · exact (shows_stmt body h).of_child (by simp [children, ofStmt])
      · exact shownBy_expr test h _ id (by simp [children, ofStmt])
  | .forLoop init test step body, h => by
      rw [Stmt.rejections, List.mem_append, List.mem_append, List.mem_append] at h
      obtain ((h | h) | h) | h := h
      · obtain ⟨s, hs, hshown⟩ := exists_shows_stmts init h
        exact hshown.of_child (by simp [children, ofStmt, hs])
      · exact shows_of_exprs h (by simp +contextual [children, ofStmt]) id
      · obtain ⟨e, he, hshown⟩ := exists_shownBy_items step h
        exact hshown _ id (by simp [children, ofStmt, he])
      · exact (shows_stmt body h).of_child (by simp [children, ofStmt])
  | .switch scrutinee sections, h => by
      rw [Stmt.rejections, List.mem_append] at h
      obtain h | h := h
      · exact shownBy_expr scrutinee h _ id (by simp [children, ofStmt])
      · exact shows_sections sections h _ fun n hn => List.mem_cons_of_mem _ hn
  | .ret value, h => by
      rw [Stmt.rejections] at h
      exact shows_of_exprs h (by simp [children, ofStmt]) id
  | .declare _ t declarators, h => by
      rw [Stmt.rejections, List.mem_append] at h
      obtain h | h := h
      · exact shows_of_type h (by simp [children, ofStmt])
      · exact shows_of_exprs h (by simp +contextual [children, ofStmt]) id
  | .eval e, h => by
      rw [Stmt.rejections] at h
      exact shownBy_expr e h _ id (by simp [children, ofStmt])
  | .empty, h | .brk, h | .cont, h | .discard, h => by simp [Stmt.rejections] at h
  | .tryCatch _ _ _ _, h | .throw _ _, h | .foreach _ _ _ _ _, h | .lock _ _ _, h
  | .using _ _ _, h | .goto _ _, h | .labeled _ _ _, h | .yield _ _, h | .unmanaged _ _, h
  | .fixed _ _ _, h | .attributed _ _ _, h => by
      rw [Stmt.rejections] at h
      rw [List.mem_singleton.mp h]
      exact .self (by constructor)

theorem exists_shows_stmts : (body : List Stmt) → c ∈ rejectionsIn ctx body →
    ∃ s ∈ body, (stmt s).Shows ctx c
  | [], h => by
      rw [rejectionsIn] at h
      cases h
  | s :: rest, h => by
      rw [rejectionsIn, List.mem_append] at h
      obtain h | h := h
      · exact ⟨s, List.mem_cons_self, shows_stmt s h⟩
      · obtain ⟨s', hs', hshown⟩ := exists_shows_stmts rest h
        exact ⟨s', List.mem_cons_of_mem _ hs', hshown⟩

theorem shows_sections : (sections : List (SwitchSection Expr Stmt)) →
    c ∈ rejectionsInSections ctx sections → (s : Stmt) →
    (∀ n ∈ sections.flatMap ofSection, n ∈ (stmt s).children) → (stmt s).Shows ctx c
  | [], h, s, _ => by
      rw [rejectionsInSections] at h
      cases h
  | ⟨labels, body⟩ :: rest, h, s, hchildren => by
      rw [rejectionsInSections, List.mem_append, List.mem_append] at h
      obtain (h | h) | h := h
      · refine shows_of_exprs h (fun e he => hchildren _ ?_) id
        rw [List.flatMap_cons, ofSection]
        exact List.mem_append_left _ (List.mem_append_left _ (List.mem_map_of_mem he))
      · obtain ⟨s', hs', hshown⟩ := exists_shows_stmts body h
        refine hshown.of_child (hchildren _ ?_)
        rw [List.flatMap_cons, ofSection]
        exact List.mem_append_left _ (List.mem_append_right _ (List.mem_map_of_mem hs'))
      · refine shows_sections rest h s fun n hn => hchildren n ?_
        rw [List.flatMap_cons]
        exact List.mem_append_right _ hn

end

namespace MethodBody

def roots (m : MethodBody) : List Node :=
  m.returnType.toList.map .type ++ m.params.map .param ++ m.body.map .stmt

/-- The node is somewhere in the method. -/
def Holds (m : MethodBody) (n : Node) : Prop := ∃ root ∈ m.roots, root.Holds n

theorem shows_param {p : Param} (h : c ∈ p.rejections) : (param p).Shows ctx c := by
  rw [Param.rejections, List.mem_append] at h
  obtain h | h := h
  · exact shows_of_type h (by simp [children])
  · split at h
    · next hdefault =>
        rw [List.mem_singleton.mp h]
        exact .self (.defaulted p hdefault)
    · cases h

theorem exists_shows_root {m : MethodBody} (h : c ∈ m.rejections ctx) :
    ∃ root ∈ m.roots, root.Shows ctx c := by
  rw [rejections, List.mem_append, List.mem_append] at h
  obtain (h | h) | h := h
  · obtain ⟨t, ht, h⟩ := List.mem_flatMap.mp h
    exact ⟨type t, by simpa [roots] using ht, shows_type h⟩
  · obtain ⟨p, hp, h⟩ := List.mem_flatMap.mp h
    exact ⟨param p, by simpa [roots] using hp, shows_param h⟩
  · obtain ⟨s, hs, hshown⟩ := exists_shows_stmts m.body h
    exact ⟨stmt s, by simpa [roots] using hs, hshown⟩

/-- A method that is refused for a construct holds a node of its family. No method is refused for
recursion, which has none. -/
theorem exists_isOf_of_refused {m : MethodBody} {indent : String} {d : Diagnostic}
    (h : emitFunction ctx indent m = .error d) (hc : d.construct? = some c) :
    c ≠ .recursion ∧ ∃ n, m.Holds n ∧ n.IsOf ctx c := by
  obtain ⟨root, hroot, n, hn, hof⟩ :=
    exists_shows_root (errsWithin_emitFunction ctx indent m d c h hc)
  refine ⟨?_, n, ⟨root, hroot, hn⟩, hof⟩
  rintro rfl
  cases hof

end MethodBody

/-- `void f() { Glsl("a"); if (true) { int x = "b"; } }` -/
def quotingMethod : MethodBody where
  name := "f"
  body :=
    [.eval (.call none "Glsl" [⟨none, .literal (.str "a")⟩]),
     .ifElse (.literal (.bool true))
       (.block [.declare false ⟨"int", false, false, .none⟩ [⟨"x", some (.literal (.str "b"))⟩]])
       none]

/-- The string that is passed on is not the one for which the method is refused. -/
theorem exists_isOf_quotingMethod :
    ∃ d, emitFunction ⟨"C", none, [], [], []⟩ "" quotingMethod = .error d ∧
      d.construct? = some .strings ∧
      ∃ n, quotingMethod.Holds n ∧ n.IsOf ⟨"C", none, [], [], []⟩ .strings := by
  have hrun : ∃ d, emitFunction ⟨"C", none, [], [], []⟩ "" quotingMethod = .error d ∧
      d.construct? = some .strings := ⟨_, rfl, rfl⟩
  obtain ⟨d, hd, hc⟩ := hrun
  exact ⟨d, hd, hc, (MethodBody.exists_isOf_of_refused hd hc).2⟩

end ShaderCompiler
