import ShaderCompiler.Normal.Form
import ShaderCompiler.Proofs.Normal.Numbering
import ShaderCompiler.Proofs.Normal.Operators
import ShaderCompiler.Proofs.Sequencing

namespace ShaderCompiler

/-- Names stay as they are, except that declared ones may be numbered. -/
def Renaming.Within (declared : List String) (r : Renaming) : Prop :=
  ∀ b ∈ r.scope, b.2 = b.1 ∨ b.1 ∈ declared ∧ ∃ n, b.2 = localName n

def RenamedWithin (declared : List String) (e e' : Expr) : Prop :=
  ∃ r : Renaming, r.Within declared ∧ e' = renameExpr r e

section

variable {taken declared : List String} {r : Renaming}

theorem Renaming.Within.apply_of_notMem (h : r.Within declared) {name : String}
    (hn : name ∉ declared) : r.apply name = name := by
  rw [apply]
  cases hl : r.scope.lookup name with
  | none => rfl
  | some new => exact (h _ (mem_of_lookup hl)).resolve_right fun hd => hn hd.1

theorem Renaming.Within.apply_cases (h : r.Within declared) (name : String) :
    r.apply name = name ∨ ∃ n, r.apply name = localName n := by
  rw [apply]
  cases hl : r.scope.lookup name with
  | none => exact Or.inl rfl
  | some new => exact (h _ (mem_of_lookup hl)).imp id And.right

theorem Renaming.Within.declare (h : r.Within declared) {name : String} (hn : name ∈ declared) :
    (r.declare taken name).2.Within declared :=
  List.forall_mem_cons.mpr ⟨Or.inr ⟨hn, _, rfl⟩, h⟩

theorem forall₂_renameExpr (h : r.Within declared) (es : List Expr) :
    List.Forall₂ (RenamedWithin declared) es (es.map (renameExpr r)) := by
  rw [List.forall₂_map_right_iff, List.forall₂_same]
  exact fun e _ => ⟨r, h, rfl⟩

theorem forall₂_renameExpr_option (h : r.Within declared) (e : Option Expr) :
    List.Forall₂ (RenamedWithin declared) e.toList (e.map (renameExpr r)).toList := by
  rw [Option.toList_map]
  exact forall₂_renameExpr h e.toList

theorem within_declarators (h : r.Within declared) (ds : List (Declarator Expr))
    (hd : ds.map (·.name) ⊆ declared) :
    List.Forall₂ (RenamedWithin declared) (ds.filterMap (·.init))
        ((renameDeclarators taken r ds).1.filterMap (·.init)) ∧
      (renameDeclarators taken r ds).2.Within declared := by
  induction ds generalizing r with
  | nil => exact ⟨.nil, h⟩
  | cons d ds ih =>
      obtain ⟨hname, hrest⟩ := List.cons_subset.mp hd
      obtain ⟨hes, hr⟩ := ih (h.declare hname) hrest
      refine ⟨?_, hr⟩
      rw [renameDeclarators, List.filterMap_cons, List.filterMap_cons]
      cases d.init with
      | none => exact hes
      | some e => exact .cons ⟨r, h, rfl⟩ hes

mutual

theorem within_stmt {r : Renaming} (h : r.Within declared) : (s : Stmt) → s.declared ⊆ declared →
    List.Forall₂ (RenamedWithin declared) s.exprs (renameStmt taken r s).1.exprs ∧
      (renameStmt taken r s).2.Within declared
  | .block body, hd => ⟨(within_stmts h body hd).1, h⟩
  | .ifElse test yes none, hd => ⟨.cons ⟨r, h, rfl⟩ (within_stmt h yes hd).1, h⟩
  | .ifElse test yes (some no), hd => by
      obtain ⟨hdy, hdn⟩ := List.append_subset.mp hd
      have hyes := within_stmt h yes hdy
      have hleft : (r.leave (renameStmt taken r yes).2).Within declared := h
      exact ⟨List.rel_append (.cons ⟨r, h, rfl⟩ hyes.1) (within_stmt hleft no hdn).1, h⟩
  | .whileLoop test body, hd => ⟨.cons ⟨r, h, rfl⟩ (within_stmt h body hd).1, h⟩
  | .doWhile body test, hd => ⟨.cons ⟨r, h, rfl⟩ (within_stmt h body hd).1, h⟩
  | .forLoop init test step body, hd => by
      obtain ⟨hdi, hdb⟩ := List.append_subset.mp hd
      obtain ⟨hinit, hr⟩ := within_stmts h init hdi
      have hbody := (within_stmt hr body hdb).1
      have htest := List.rel_append hinit (forall₂_renameExpr_option hr test)
      exact ⟨List.rel_append (List.rel_append htest (forall₂_renameExpr hr step)) hbody, h⟩
  | .switch scrutinee sections, hd =>
      ⟨.cons ⟨r, h, rfl⟩ (within_sections h sections hd).1, h⟩
  | .ret value, _ => ⟨forall₂_renameExpr_option h value, h⟩
  | .declare _ _ declarators, hd => within_declarators h declarators hd
  | .eval e, _ => ⟨.cons ⟨r, h, rfl⟩ .nil, h⟩
  | .empty, _ | .brk, _ | .cont, _ | .discard, _ | .tryCatch _ _ _ _, _ | .throw _ _, _
  | .foreach _ _ _ _ _, _ | .lock _ _ _, _ | .using _ _ _, _ | .goto _ _, _ | .labeled _ _ _, _
  | .yield _ _, _ | .unmanaged _ _, _ | .fixed _ _ _, _ | .attributed _ _ _, _ => ⟨.nil, h⟩

theorem within_stmts {r : Renaming} (h : r.Within declared) : (stmts : List Stmt) →
    declaredIn stmts ⊆ declared →
    List.Forall₂ (RenamedWithin declared) (exprsOf stmts)
        (exprsOf (renameStmts taken r stmts).1) ∧
      (renameStmts taken r stmts).2.Within declared
  | [], _ => ⟨.nil, h⟩
  | s :: rest, hd => by
      obtain ⟨hds, hdr⟩ := List.append_subset.mp hd
      obtain ⟨hs, hr⟩ := within_stmt h s hds
      obtain ⟨hrest, hr'⟩ := within_stmts hr rest hdr
      exact ⟨List.rel_append hs hrest, hr'⟩

theorem within_sections {r : Renaming} (h : r.Within declared) :
    (sections : List (SwitchSection Expr Stmt)) → declaredInSections sections ⊆ declared →
    List.Forall₂ (RenamedWithin declared) (exprsOfSections sections)
        (exprsOfSections (renameSections taken r sections).1) ∧
      (renameSections taken r sections).2.Within declared
  | [], _ => ⟨.nil, h⟩
  | ⟨labels, body⟩ :: rest, hd => by
      obtain ⟨hdb, hdr⟩ := List.append_subset.mp hd
      obtain ⟨hbody, hr⟩ := within_stmts h body hdb
      obtain ⟨hrest, hr'⟩ := within_sections hr rest hdr
      have hlabels := forall₂_renameExpr h (labels.filterMap CaseLabel.value?)
      rw [← filterMap_value_map] at hlabels
      exact ⟨List.rel_append (List.rel_append hlabels hbody) hrest, hr'⟩

end

end

theorem MethodBody.forall₂_withLocals (m : MethodBody) :
    List.Forall₂ (RenamedWithin m.declared) (exprsOf m.body) (exprsOf m.withLocals.body) := by
  have hstart : m.initialRenaming.Within m.declared := by
    intro b hb
    obtain ⟨p, -, rfl⟩ := List.mem_map.mp (List.mem_reverse.mp hb)
    exact Or.inl rfl
  exact (within_stmts hstart m.body (List.Subset.refl _)).1

theorem visited_node {r : Renaming} {e : Expr} {inner inner' : List Expr}
    (hv : e.visited = inner ++ [e]) (hv' : (renameExpr r e).visited = inner' ++ [renameExpr r e])
    (hi : inner' = inner.map (renameExpr r)) :
    (renameExpr r e).visited = e.visited.map (renameExpr r) := by
  rw [hv', hv, hi, List.map_append, List.map_singleton]

mutual

theorem visited_renameExpr (r : Renaming) : (e : Expr) →
    (renameExpr r e).visited = e.visited.map (renameExpr r)
  | .assign op target value => visited_node rfl rfl (by
      rw [List.map_append, ← visited_renameExpr r target, ← visited_renameExpr r value]
      rfl)
  | .binary op lhs rhs => visited_node rfl rfl (by
      rw [List.map_append, ← visited_renameExpr r lhs, ← visited_renameExpr r rhs]
      rfl)
  | .unary op operand => visited_node rfl rfl (visited_renameExpr r operand)
  | .call none name args => visited_node rfl rfl (visitedArgs_map r args)
  | .call (some receiver) name args => visited_node rfl rfl (by
      rw [List.map_append, ← visited_renameExpr r receiver, ← visitedArgs_map r args]
      rfl)
  | .member target name => visited_node rfl rfl (visited_renameExpr r target)
  | .construct type args => visited_node rfl rfl (visitedArgs_map r args)
  | .newArray element none none => rfl
  | .newArray element (some size) none => visited_node rfl rfl (visited_renameExpr r size)
  | .newArray element none (some items) => visited_node rfl rfl (visitedItems_map r items)
  | .newArray element (some size) (some items) => visited_node rfl rfl (by
      rw [List.map_append, ← visited_renameExpr r size, ← visitedItems_map r items]
      rfl)
  | .arrayInit items => visited_node rfl rfl (visitedItems_map r items)
  | .index target index => visited_node rfl rfl (by
      rw [List.map_append, ← visited_renameExpr r target, ← visited_renameExpr r index]
      rfl)
  | .cast type operand => visited_node rfl rfl (visited_renameExpr r operand)
  | .conditional test yes no => visited_node rfl rfl (by
      rw [List.map_append, List.map_append, ← visited_renameExpr r test,
        ← visited_renameExpr r yes, ← visited_renameExpr r no]
      rfl)
  | .lambda params (.expr e) span => visited_node rfl rfl (visited_renameExpr r e)
  | .lambda _ (.block _) _ | .ident _ | .self | .literal _ | .base _ | .null _ | .query _
  | .typeTest _ _ _ _ | .typeOf _ _ | .sizeOf _ _ | .deref _ _ | .addressOf _ _ | .arrow _ _ _
  | .stackAlloc _ _ _ | .anonymous _ _ => rfl

theorem visitedArgs_map (r : Renaming) : (args : List (Arg Expr)) →
    visitedArgs (mapArgs (renameIdent r) args) = (visitedArgs args).map (renameExpr r)
  | [] => rfl
  | ⟨_, e⟩ :: rest => by
      rw [mapArgs, visitedArgs, visitedArgs, List.map_append, ← visited_renameExpr r e,
        visitedArgs_map r rest]
      rfl

theorem visitedItems_map (r : Renaming) : (items : List Expr) →
    visitedItems (mapItems (renameIdent r) items) = (visitedItems items).map (renameExpr r)
  | [] => rfl
  | e :: rest => by
      rw [mapItems, visitedItems, visitedItems, List.map_append, ← visited_renameExpr r e,
        visitedItems_map r rest]
      rfl

end

theorem mention?_renameExpr {r : Renaming} {e : Expr} {name : String}
    (h : e.mention? = some name) (hn : r.apply name = name) :
    (renameExpr r e).mention? = some name := by
  unfold Expr.mention? at h
  split at h
  · cases h
    exact congrArg some hn
  · cases h
    rfl
  · cases h

namespace MethodBody

variable (m : MethodBody)

theorem mem_mentions_withLocals {name : String} (h : name ∈ m.mentions)
    (hd : name ∉ m.declared) : name ∈ m.withLocals.mentions := by
  obtain ⟨e, he, hname⟩ := List.mem_flatMap.mp h
  obtain ⟨x, hx, hm⟩ := List.mem_filterMap.mp hname
  obtain ⟨_, he', r, hr, rfl⟩ := exists_mem_of_forall₂ m.forall₂_withLocals he
  have hx' : renameExpr r x ∈ (renameExpr r e).visited := by
    rw [visited_renameExpr]
    exact List.mem_map_of_mem hx
  have hm' := mention?_renameExpr hm (hr.apply_of_notMem hd)
  exact List.mem_flatMap.mpr ⟨_, he', List.mem_filterMap.mpr ⟨_, hx', hm'⟩⟩

theorem notMem_taken_of_numbered {name : String}
    (h : name ∈ numbered m.taken 0 m.declared.length) : name ∉ m.taken := by
  obtain ⟨k, -, rfl⟩ := List.mem_map.mp h
  exact localName_freeIndex_notMem m.taken _

theorem taken_subset_withLocals : m.taken ⊆ m.withLocals.taken := by
  intro name hname
  obtain ⟨hused, hdeclared⟩ := List.mem_filter.mp hname
  have hd : name ∉ m.declared := by simpa using hdeclared
  have hd' : name ∉ m.withLocals.declared := by
    rw [declared_withLocals]
    exact fun hn => m.notMem_taken_of_numbered hn hname
  refine List.mem_filter.mpr ⟨?_, by simpa using hd'⟩
  rcases List.mem_append.mp hused with hp | hm
  · exact List.mem_append_left _ hp
  · exact List.mem_append_right _ (m.mem_mentions_withLocals hm hd)

theorem localName_notMem_withLocals {k : Nat} (hk : k < m.declared.length) :
    localName (freshIndex m.taken k) ∉ m.withLocals.taken := by
  intro hname
  have hd : localName (freshIndex m.taken k) ∉ m.withLocals.declared := by
    simpa using (List.mem_filter.mp hname).2
  apply hd
  rw [declared_withLocals]
  exact List.mem_map.mpr ⟨k, List.mem_range'_1.mpr ⟨Nat.zero_le k, by omega⟩, rfl⟩

end MethodBody

theorem freeIndex_eq_of {taken : List String} {n k : Nat} (hle : n ≤ k)
    (hfree : localName k ∉ taken) (hbelow : ∀ j, n ≤ j → j < k → localName j ∈ taken) :
    freeIndex taken taken.length n = k := by
  rcases Nat.lt_trichotomy (freeIndex taken taken.length n) k with hlt | heq | hgt
  · exact absurd (hbelow _ (le_freeIndex taken _ n) hlt) (localName_freeIndex_notMem taken n)
  · exact heq
  · exact absurd (mem_of_freeIndex taken hle hgt) hfree

/-- Avoiding more names, but none of the first ones that were given, changes none of these. -/
theorem nextIndex_congr {taken taken' : List String} (hsub : taken ⊆ taken') {n : Nat}
    (hfree : ∀ k < n, localName (freshIndex taken k) ∉ taken') :
    ∀ k ≤ n, nextIndex taken' k = nextIndex taken k := by
  intro k
  induction k with
  | zero => exact fun _ => rfl
  | succ k ih =>
      intro hk
      have hnext := ih (by omega)
      have hfresh : freeIndex taken' taken'.length (nextIndex taken k) = freshIndex taken k :=
        freeIndex_eq_of (le_freeIndex taken _ _) (hfree k (by omega))
          fun j hj hlt => hsub (mem_of_freeIndex taken hj hlt)
      rw [nextIndex, nextIndex, hnext, hfresh]
      rfl

theorem numbered_congr {taken taken' : List String} (hsub : taken ⊆ taken') {n : Nat}
    (hfree : ∀ k < n, localName (freshIndex taken k) ∉ taken') :
    numbered taken' 0 n = numbered taken 0 n := by
  apply List.map_congr_left
  intro k hk
  obtain ⟨-, hk⟩ := List.mem_range'_1.mp hk
  have hnext := nextIndex_congr hsub hfree (k + 1) (by omega)
  -- The number after a fresh one is where the search goes on.
  have hfresh : freshIndex taken' k + 1 = freshIndex taken k + 1 := hnext
  rw [Nat.succ.inj hfresh]

theorem MethodBody.withLocals_withLocals (m : MethodBody) :
    m.withLocals.withLocals = m.withLocals := by
  apply withLocals_of_isNumbered
  have hfree : ∀ k < m.declared.length,
      localName (freshIndex m.taken k) ∉ m.withLocals.taken :=
    fun k hk => m.localName_notMem_withLocals hk
  rw [IsNumbered, declared_withLocals, length_numbered,
    numbered_congr m.taken_subset_withLocals hfree]

theorem isBuiltin_localName (n : Nat) : Vocabulary.isBuiltin (localName n) = false := by
  have hhead : (localName n).toList.head? = some 'l' := by simp [localName]
  have haliases : ∀ a ∈ Vocabulary.aliases, a.1.toList.head? ≠ some 'l' := by decide
  have hall : ∀ t ∈ Vocabulary.all, t.name.toList.head? ≠ some 'l' := by decide +kernel
  have hlookup : Vocabulary.aliases.lookup (localName n) = none := by
    apply List.lookup_eq_none_iff.mpr
    intro a ha
    have hne : localName n ≠ a.1 := fun he => haliases a ha (he ▸ hhead)
    simpa using hne
  have hfind : Vocabulary.find? (localName n) = none := by
    apply List.find?_eq_none.mpr
    intro t ht
    have hne : t.name ≠ localName n := fun he => hall t ht (he ▸ hhead)
    simpa using hne
  rw [Vocabulary.isBuiltin, Vocabulary.lookup?, hlookup, Option.getD_none, hfind]
  rfl

theorem ident_of_renameExpr {r : Renaming} {e : Expr} {name : String}
    (h : renameExpr r e = .ident name) : ∃ old, e = .ident old ∧ r.apply old = name := by
  cases e with
  | ident old => exact ⟨old, rfl, Expr.ident.inj h⟩
  | call receiver => cases receiver <;> cases h
  | newArray element size items => cases size <;> cases items <;> cases h
  | lambda params body => cases body <;> cases h
  | _ => cases h

theorem isOperatorCall_of_renameExpr {declared : List String} {r : Renaming}
    (hr : r.Within declared) {e : Expr} (h : (renameExpr r e).isOperatorCall = true) :
    e.isOperatorCall = true := by
  cases e with
  | call receiver name args =>
      cases receiver with
      | none => cases h
      | some receiver =>
          have he : renameExpr r (.call (some receiver) name args) =
              .call (some (renameExpr r receiver)) name (mapArgs (renameIdent r) args) := rfl
          rw [he] at h
          obtain ⟨new, hnew⟩ := exists_ident_of_isOperatorCall h
          obtain ⟨owner, rfl, rfl⟩ := ident_of_renameExpr hnew
          rw [hnew, mapArgs_eq_map] at h
          simp only [Expr.isOperatorCall, List.all_map, List.length_map, Function.comp_def] at h ⊢
          rcases hr.apply_cases owner with hold | ⟨n, hlocal⟩
          · rwa [hold] at h
          · rw [hlocal, isBuiltin_localName] at h
            cases h
  | newArray element size items => cases size <;> cases items <;> cases h
  | lambda params body => cases body <;> cases h
  | _ => cases h

namespace MethodBody

theorem IsCanonical.withLocals {m : MethodBody} (h : m.IsCanonical) :
    m.withLocals.IsCanonical := by
  intro e' he' x' hx'
  obtain ⟨e, he, r, hr, rfl⟩ := exists_mem_of_forall₂ m.forall₂_withLocals.flip he'
  rw [visited_renameExpr] at hx'
  obtain ⟨x, hx, rfl⟩ := List.mem_map.mp hx'
  have hcall := h e he x hx
  rw [Bool.eq_false_iff] at hcall ⊢
  exact fun hcall' => hcall (isOperatorCall_of_renameExpr hr hcall')

/-- Each of the two passes and both together change nothing when they are run again. After the
first no visited call of an operator method is left, and after the second the locals bear the fresh
names in order. -/
theorem normalize_idempotent (m : MethodBody) :
    (m.withOperators.withOperators = m.withOperators ∧
      ∀ e ∈ exprsOf m.withOperators.body, ∀ x ∈ e.visited, x.isOperatorCall = false) ∧
    (m.withLocals.withLocals = m.withLocals ∧
      m.withLocals.declared =
        (List.range m.declared.length).map fun k => localName (freshIndex m.taken k)) ∧
    m.normalize.normalize = m.normalize := by
  have hcanonical := m.isCanonical_withOperators
  have hnormal : m.normalize.withOperators = m.normalize :=
    withOperators_of_isCanonical hcanonical.withLocals
  refine ⟨⟨withOperators_of_isCanonical hcanonical, hcanonical⟩,
    ⟨m.withLocals_withLocals, ?_⟩, ?_⟩
  · rw [declared_withLocals, numbered, List.range_eq_range']
  · calc m.normalize.normalize
        = m.normalize.withLocals := by rw [normalize, hnormal]
      _ = m.normalize := m.withOperators.withLocals_withLocals

end MethodBody

/-- `float a = float.Add(float.Negate(local0), p); { float a = a; }`, where `local0` is a field. -/
def negatedSum : MethodBody where
  name := "f"
  params := [{ type := ⟨"float", false, false, .none⟩, name := "p" }]
  body :=
    [.declare false ⟨"float", false, false, .none⟩
       [⟨"a", some (.call (some (.ident "float")) "Add"
         [⟨none, .call (some (.ident "float")) "Negate" [⟨none, .ident "local0"⟩]⟩,
          ⟨none, .ident "p"⟩])⟩],
     .block [.declare false ⟨"float", false, false, .none⟩ [⟨"a", some (.ident "a")⟩]]]

theorem normalize_negatedSum :
    negatedSum.normalize.declared = ["local1", "local2"] ∧
      (∃ e ∈ exprsOf negatedSum.withOperators.body, ∃ x ∈ e.visited,
        x = .binary .add (.unary .neg (.ident "local0")) (.ident "p") ∧
          x.isOperatorCall = false) ∧
      negatedSum.normalize.normalize = negatedSum.normalize := by
  obtain ⟨⟨-, hcanonical⟩, -, hagain⟩ := negatedSum.normalize_idempotent
  refine ⟨by decide +kernel, ⟨_, List.mem_cons_self, _, ?_, rfl, ?_⟩, hagain⟩
  · exact List.mem_append_right _ (List.mem_singleton_self _)
  · exact hcanonical _ List.mem_cons_self _
      (List.mem_append_right _ (List.mem_singleton_self _))

end ShaderCompiler
