import ShaderCompiler.Emission.Function
import ShaderCompiler.Proofs.Normal.Alpha
import ShaderCompiler.Proofs.Normal.Renaming

namespace ShaderCompiler

def Expr.callee? : Expr → Option String
  | .call none name _ => some name
  | _ => none

def Occurrence.free? (o : Occurrence) : Option String :=
  match o.mention with
  | .value name => if (o.scope.lookup name).isNone then some name else none
  | _ => none

namespace MethodBody

def callees (m : MethodBody) : List String :=
  (exprsOf m.body).flatMap fun e => e.visited.filterMap Expr.callee?

def freeNames (m : MethodBody) : List String := m.occurrences.filterMap Occurrence.free?

/-- No local is named like a parameter, a name that is used free, or a function that is called
without a receiver. -/
def LocalsApart (m : MethodBody) : Prop :=
  ∀ name ∈ m.declared, name ∉ m.params.map (·.name) ∧ name ∉ m.freeNames ∧ name ∉ m.callees

instance (m : MethodBody) : Decidable m.LocalsApart :=
  inferInstanceAs (Decidable (∀ name ∈ m.declared, _))

end MethodBody

/-- Two expressions in the same place: related names among the values that are mentioned, calls of
one function, or expressions that mention nothing themselves. -/
inductive VisitPair (ρ : Pairing) (ms ms' : List Mention) : Expr → Expr → Prop
  | ident {x y : String} (h : SameName ρ x y) (hx : .value x ∈ ms) (hy : .value y ∈ ms') :
      VisitPair ρ ms ms' (.ident x) (.ident y)
  | call (name : String) (args args' : List (Arg Expr)) :
      VisitPair ρ ms ms' (.call none name args) (.call none name args')
  | other {e e' : Expr} (he : e.mention? = none) (he' : e'.mention? = none) :
      VisitPair ρ ms ms' e e'

section Visited

variable {ρ : Pairing}

theorem VisitPair.mono {ms ms' ns ns' : List Mention} (hms : ms ⊆ ns) (hms' : ms' ⊆ ns')
    {e e' : Expr} (h : VisitPair ρ ms ms' e e') : VisitPair ρ ns ns' e e' := by
  cases h with
  | ident h hx hy => exact .ident h (hms hx) (hms' hy)
  | call name args args' => exact .call name args args'
  | other he he' => exact .other he he'

def VisitedAlike (ρ : Pairing) (ms ms' : List Mention) (es es' : List Expr) : Prop :=
  List.Forall₂ (VisitPair ρ ms ms') es es'

theorem VisitedAlike.mono {ms ms' ns ns' : List Mention} {es es' : List Expr}
    (h : VisitedAlike ρ ms ms' es es') (hms : ms ⊆ ns) (hms' : ms' ⊆ ns') :
    VisitedAlike ρ ns ns' es es' :=
  h.imp fun _ _ => VisitPair.mono hms hms'

theorem VisitedAlike.append {ms ms' ns ns' : List Mention} {es es' fs fs' : List Expr}
    (h : VisitedAlike ρ ms ms' es es') (hs : VisitedAlike ρ ns ns' fs fs') :
    VisitedAlike ρ (ms ++ ns) (ms' ++ ns') (es ++ fs) (es' ++ fs') :=
  List.rel_append (h.mono (List.subset_append_left _ _) (List.subset_append_left _ _))
    (hs.mono (List.subset_append_right _ _) (List.subset_append_right _ _))

theorem VisitedAlike.node {ms ms' : List Mention} {es es' : List Expr} {e e' : Expr}
    (h : VisitedAlike ρ ms ms' es es') (he : e.mention? = none) (he' : e'.mention? = none) :
    VisitedAlike ρ ms ms' (es ++ [e]) (es' ++ [e']) :=
  List.rel_append h (.cons (.other he he') .nil)

theorem AlphaExpr.eq_self_iff {e e' : Expr} (h : AlphaExpr ρ e e') : e = .self ↔ e' = .self := by
  cases h <;> simp

mutual

theorem AlphaExpr.visitedAlike : {e e' : Expr} → AlphaExpr ρ e e' →
    VisitedAlike ρ e.mentioned e'.mentioned e.visited e'.visited
  | _, _, .assign op ht hv => (ht.visitedAlike.append hv.visitedAlike).node rfl rfl
  | _, _, .binary op ha hb => (ha.visitedAlike.append hb.visitedAlike).node rfl rfl
  | _, _, .unary op ha => ha.visitedAlike.node rfl rfl
  | _, _, .call name hargs =>
      List.rel_append
        (hargs.visitedAlike.mono (List.subset_cons_self _ _) (List.subset_cons_self _ _))
        (.cons (.call name _ _) .nil)
  | _, _, .callOn name he hargs =>
      ((he.visitedAlike.append hargs.visitedAlike).mono (List.subset_cons_self _ _)
        (List.subset_cons_self _ _)).node rfl rfl
  | .member e _, .member e' _, .member name he => by
      by_cases hself : e = .self
      · have hself' := he.eq_self_iff.mp hself
        subst hself hself'
        exact .cons (.other rfl rfl) (.cons (.other rfl rfl) .nil)
      · have hself' : e' ≠ .self := fun h => hself (he.eq_self_iff.mpr h)
        rw [mentioned_member hself, mentioned_member hself']
        exact he.visitedAlike.node rfl rfl
  | _, _, .construct type hargs => hargs.visitedAlike.node rfl rfl
  | _, _, .newArray element => .cons (.other rfl rfl) .nil
  | _, _, .newArrayOf element hn => hn.visitedAlike.node rfl rfl
  | _, _, .newArrayWith element hes => hes.visitedAlike.node rfl rfl
  | _, _, .newArrayOfWith element hn hes => (hn.visitedAlike.append hes.visitedAlike).node rfl rfl
  | _, _, .arrayInit hes => hes.visitedAlike.node rfl rfl
  | _, _, .index ha hi => (ha.visitedAlike.append hi.visitedAlike).node rfl rfl
  | _, _, .cast type he => he.visitedAlike.node rfl rfl
  | _, _, .conditional hc ha hb =>
      ((hc.visitedAlike.append ha.visitedAlike).append hb.visitedAlike).node rfl rfl
  | _, _, .ident h => .cons (.ident h List.mem_cons_self List.mem_cons_self) .nil
  | _, _, .self => .cons (.other rfl rfl) .nil
  | _, _, .literal l => .cons (.other rfl rfl) .nil

theorem AlphaArgs.visitedAlike : {args args' : List (Arg Expr)} → AlphaArgs ρ args args' →
    VisitedAlike ρ (mentionedArgs args) (mentionedArgs args') (visitedArgs args) (visitedArgs args')
  | _, _, .nil => .nil
  | _, _, .cons label he hargs => he.visitedAlike.append hargs.visitedAlike

theorem AlphaItems.visitedAlike : {es es' : List Expr} → AlphaItems ρ es es' →
    VisitedAlike ρ (mentionedItems es) (mentionedItems es') (visitedItems es) (visitedItems es')
  | _, _, .nil => .nil
  | _, _, .cons he hes => he.visitedAlike.append hes.visitedAlike

end

end Visited

/-- What two bodies have around them: the scope of the parameters, and all locals of the one and of
the other. -/
structure Surrounding where
  params : Scope
  left : List String
  right : List String

/-- The pairs are locals of the two bodies, and nothing else is in force over the parameters. -/
structure InForce (w : Surrounding) (ρ : Pairing) (scope scope' : Scope) : Prop where
  left : ∀ x, x ∉ ρ.map Prod.fst → scope.lookup x = w.params.lookup x
  right : ∀ y, y ∉ ρ.map Prod.snd → scope'.lookup y = w.params.lookup y
  declared : ∀ p ∈ ρ, p.1 ∈ w.left ∧ p.2 ∈ w.right

def Paired (w : Surrounding) (os os' : List Occurrence) (e e' : Expr) : Prop :=
  ∃ ρ scope scope', InForce w ρ scope scope' ∧ AlphaExpr ρ e e' ∧
    (∀ m ∈ e.mentioned, ⟨scope, m⟩ ∈ os) ∧ ∀ m ∈ e'.mentioned, ⟨scope', m⟩ ∈ os'

def PairedAll (w : Surrounding) (os os' : List Occurrence) (es es' : List Expr) : Prop :=
  List.Forall₂ (Paired w os os') es es'

section Scopes

variable {w : Surrounding} {ρ : Pairing} {sc sc' : Scoping}

theorem InForce.declare (h : InForce w ρ sc.scope sc'.scope) {x y : String} (hx : x ∈ w.left)
    (hy : y ∈ w.right) : InForce w ((x, y) :: ρ) (sc.declare x).scope (sc'.declare y).scope where
  left a ha := by
    rw [List.map_cons, List.mem_cons, not_or] at ha
    exact (lookup_cons_of_ne ha.1).trans (h.left a ha.2)
  right b hb := by
    rw [List.map_cons, List.mem_cons, not_or] at hb
    exact (lookup_cons_of_ne hb.1).trans (h.right b hb.2)
  declared := List.forall_mem_cons.mpr ⟨⟨hx, hy⟩, h.declared⟩

theorem PairedAll.mono {os os' us us' : List Occurrence} {es es' : List Expr}
    (h : PairedAll w os os' es es') (hos : os ⊆ us) (hos' : os' ⊆ us') :
    PairedAll w us us' es es' := by
  refine h.imp fun e e' hpair => ?_
  obtain ⟨ρ, scope, scope', hforce, he, hmem, hmem'⟩ := hpair
  exact ⟨ρ, scope, scope', hforce, he, fun m hm => hos (hmem m hm), fun m hm => hos' (hmem' m hm)⟩

theorem PairedAll.append {os os' us us' : List Occurrence} {es es' fs fs' : List Expr}
    (h : PairedAll w os os' es es') (hs : PairedAll w us us' fs fs') :
    PairedAll w (os ++ us) (os' ++ us') (es ++ fs) (es' ++ fs') :=
  List.rel_append (h.mono (List.subset_append_left _ _) (List.subset_append_left _ _))
    (hs.mono (List.subset_append_right _ _) (List.subset_append_right _ _))

theorem InForce.paired (h : InForce w ρ sc.scope sc'.scope) {e e' : Expr} (he : AlphaExpr ρ e e') :
    PairedAll w (sc.occurrencesOf e) (sc'.occurrencesOf e') [e] [e'] :=
  .cons ⟨ρ, sc.scope, sc'.scope, h, he, fun _ hm => List.mem_map_of_mem hm,
    fun _ hm => List.mem_map_of_mem hm⟩ .nil

theorem InForce.pairedAll (h : InForce w ρ sc.scope sc'.scope) {es es' : List Expr}
    (hes : List.Forall₂ (AlphaExpr ρ) es es') :
    PairedAll w (es.flatMap sc.occurrencesOf) (es'.flatMap sc'.occurrencesOf) es es' := by
  induction hes with
  | nil => exact .nil
  | cons he _ ih => exact (h.paired he).append ih

theorem InForce.pairedOption (h : InForce w ρ sc.scope sc'.scope) {e e' : Option Expr}
    (he : Option.Rel (AlphaExpr ρ) e e') :
    PairedAll w (e.toList.flatMap sc.occurrencesOf) (e'.toList.flatMap sc'.occurrencesOf)
      e.toList e'.toList := by
  cases he with
  | none => exact .nil
  | some he => exact h.pairedAll (.cons he .nil)

theorem forall₂_values {labels labels' : List (CaseLabel Expr)}
    (h : List.Forall₂ (AlphaLabel ρ) labels labels') :
    List.Forall₂ (AlphaExpr ρ) (labels.filterMap CaseLabel.value?)
      (labels'.filterMap CaseLabel.value?) := by
  induction h with
  | nil => exact .nil
  | cons hlabel _ ih =>
      cases hlabel with
      | value he => exact .cons he ih
      | default => exact ih

end Scopes

/-- Parts that hold related expressions in scopes that agree, up to the scopes behind them. -/
structure Traced (w : Surrounding) (ρ : Pairing) (es es' : List Expr)
    (p p' : List Occurrence × Scoping) : Prop where
  exprs : PairedAll w p.1 p'.1 es es'
  after : InForce w ρ p.2.scope p'.2.scope

section Traces

variable {w : Surrounding}

theorem AlphaDeclarators.traced {ρ ρ' : Pairing} {ds ds' : List (Declarator Expr)}
    (hds : AlphaDeclarators ρ ds ds' ρ') {sc sc' : Scoping}
    (h : InForce w ρ sc.scope sc'.scope) (hd : ds.map (·.name) ⊆ w.left)
    (hd' : ds'.map (·.name) ⊆ w.right) :
    Traced w ρ' (ds.filterMap (·.init)) (ds'.filterMap (·.init))
      (sc.occurrencesOfDeclarators ds) (sc'.occurrencesOfDeclarators ds') := by
  induction hds generalizing sc sc' with
  | nil => exact ⟨.nil, h⟩
  | @cons ρ ρ' init init' ds ds' x y hinit _ ih =>
      obtain ⟨hx, hd⟩ := List.cons_subset.mp hd
      obtain ⟨hy, hd'⟩ := List.cons_subset.mp hd'
      obtain ⟨hrest, hafter⟩ := ih (h.declare hx hy) hd hd'
      refine ⟨?_, hafter⟩
      have hall := (h.pairedOption hinit).append hrest
      cases hinit with
      | none => exact hall
      | some he => exact hall

mutual

theorem AlphaStmt.traced {ρ ρ' : Pairing} {sc sc' : Scoping} (h : InForce w ρ sc.scope sc'.scope) :
    {s s' : Stmt} → AlphaStmt ρ s s' ρ' → s.declared ⊆ w.left → s'.declared ⊆ w.right →
      Traced w ρ' s.exprs s'.exprs (s.occurrences sc) (s'.occurrences sc')
  | _, _, .block hb, hd, hd' => ⟨(hb.traced h hd hd').exprs, h⟩
  | _, _, .empty _, _, _ | _, _, .brk _, _, _ | _, _, .cont _, _, _ | _, _, .discard _, _, _ =>
      ⟨.nil, h⟩
  | _, _, .ifThen hc hs, hd, hd' => ⟨(h.paired hc).append (hs.traced h hd hd').exprs, h⟩
  | .ifElse _ s _, .ifElse _ s' _, .ifElse hc hs ht, hd, hd' => by
      obtain ⟨hds, hdt⟩ := List.append_subset.mp hd
      obtain ⟨hds', hdt'⟩ := List.append_subset.mp hd'
      have hleft : InForce w ρ (sc.leave (s.occurrences sc).2).scope
          (sc'.leave (s'.occurrences sc').2).scope := h
      have hyes := (h.paired hc).append (hs.traced h hds hds').exprs
      exact ⟨hyes.append (ht.traced hleft hdt hdt').exprs, h⟩
  | _, _, .whileLoop hc hs, hd, hd' => ⟨(h.paired hc).append (hs.traced h hd hd').exprs, h⟩
  | _, _, .doWhile hs hc, hd, hd' => by
      -- The test is listed first among the expressions and last among the occurrences.
      have hall := (h.paired hc).append (hs.traced h hd hd').exprs
      exact ⟨hall.mono List.perm_append_comm.subset List.perm_append_comm.subset, h⟩
  | _, _, .forLoop hinit htest hstep hs, hd, hd' => by
      obtain ⟨hdi, hds⟩ := List.append_subset.mp hd
      obtain ⟨hdi', hds'⟩ := List.append_subset.mp hd'
      obtain ⟨hinits, hinner⟩ := hinit.traced h hdi hdi'
      have hheader := (hinits.append (hinner.pairedOption htest)).append (hinner.pairedAll hstep)
      exact ⟨hheader.append (hs.traced hinner hds hds').exprs, h⟩
  | _, _, .switch he hsecs, hd, hd' => ⟨(h.paired he).append (hsecs.traced h hd hd').exprs, h⟩
  | _, _, .ret he, _, _ => ⟨h.pairedOption he, h⟩
  | _, _, .declare isConst type hds, hd, hd' => hds.traced h hd hd'
  | _, _, .eval he, _, _ => ⟨h.paired he, h⟩

theorem AlphaStmts.traced {ρ ρ' : Pairing} {sc sc' : Scoping} (h : InForce w ρ sc.scope sc'.scope) :
    {b b' : List Stmt} → AlphaStmts ρ b b' ρ' → declaredIn b ⊆ w.left → declaredIn b' ⊆ w.right →
      Traced w ρ' (exprsOf b) (exprsOf b') (occurrencesIn sc b) (occurrencesIn sc' b')
  | _, _, .nil _, _, _ => ⟨.nil, h⟩
  | _, _, .cons hs hb, hd, hd' => by
      obtain ⟨hds, hdb⟩ := List.append_subset.mp hd
      obtain ⟨hds', hdb'⟩ := List.append_subset.mp hd'
      obtain ⟨hstmt, hnext⟩ := hs.traced h hds hds'
      obtain ⟨hrest, hafter⟩ := hb.traced hnext hdb hdb'
      exact ⟨hstmt.append hrest, hafter⟩

theorem AlphaSections.traced {ρ ρ' : Pairing} {sc sc' : Scoping}
    (h : InForce w ρ sc.scope sc'.scope) : {secs secs' : List (SwitchSection Expr Stmt)} →
      AlphaSections ρ secs secs' ρ' → declaredInSections secs ⊆ w.left →
      declaredInSections secs' ⊆ w.right →
      Traced w ρ' (exprsOfSections secs) (exprsOfSections secs') (occurrencesInSections sc secs)
        (occurrencesInSections sc' secs')
  | _, _, .nil _, _, _ => ⟨.nil, h⟩
  | _, _, .cons hlabels hb hsecs, hd, hd' => by
      obtain ⟨hdb, hds⟩ := List.append_subset.mp hd
      obtain ⟨hdb', hds'⟩ := List.append_subset.mp hd'
      obtain ⟨hbody, hnext⟩ := hb.traced h hdb hdb'
      obtain ⟨hrest, hafter⟩ := hsecs.traced hnext hds hds'
      have hvalues := h.pairedAll (forall₂_values hlabels)
      exact ⟨(hvalues.append hbody).append hrest, hafter⟩

end

end Traces

theorem SameName.cases {ρ : Pairing} {x y : String} (h : SameName ρ x y) :
    (x, y) ∈ ρ ∨ x = y ∧ x ∉ ρ.map Prod.fst ∧ y ∉ ρ.map Prod.snd := by
  induction h with
  | free x => exact Or.inr ⟨rfl, by simp, by simp⟩
  | here x y ρ => exact Or.inl List.mem_cons_self
  | there hx hy _ ih =>
      refine ih.imp (List.mem_cons_of_mem _) fun ⟨heq, hx', hy'⟩ => ⟨heq, ?_, ?_⟩
      · simpa [hx] using hx'
      · simpa [hy] using hy'

def NamesAgree (w : Surrounding) (x y : String) : Prop :=
  x ∈ w.left ∧ y ∈ w.right ∨ x = y ∧ x ∉ w.left ∧ y ∉ w.right

theorem filter_eq_of_namesAgree {w : Surrounding} {l l' : List String}
    (h : List.Forall₂ (NamesAgree w) l l') :
    l.filter (!w.left.contains ·) = l'.filter (!w.right.contains ·) := by
  induction h with
  | nil => rfl
  | cons hxy _ ih =>
      rcases hxy with ⟨hx, hy⟩ | ⟨rfl, hx, hy⟩
      · rw [List.filter_cons_of_neg (by simpa using hx),
          List.filter_cons_of_neg (by simpa using hy), ih]
      · rw [List.filter_cons_of_pos (by simpa using hx),
          List.filter_cons_of_pos (by simpa using hy), ih]

theorem forall₂_mem {α β : Type} {R : α → β → Prop} {l : List α} {l' : List β}
    (h : List.Forall₂ R l l') : List.Forall₂ (fun a b => a ∈ l ∧ b ∈ l' ∧ R a b) l l' := by
  induction h with
  | nil => exact .nil
  | cons hab _ ih =>
      refine .cons ⟨List.mem_cons_self, List.mem_cons_self, hab⟩ (ih.imp fun a b h => ?_)
      exact ⟨List.mem_cons_of_mem _ h.1, List.mem_cons_of_mem _ h.2.1, h.2.2⟩

namespace MethodBody

theorem LocalsApart.notMem_declared {m : MethodBody} (hm : m.LocalsApart) {scope : Scope}
    {x : String} (ho : ⟨scope, .value x⟩ ∈ m.occurrences)
    (hscope : scope.lookup x = m.paramScope.lookup x) : x ∉ m.declared := by
  intro hx
  obtain ⟨hparam, hfree, -⟩ := hm x hx
  cases hl : m.paramScope.lookup x with
  | none =>
      refine hfree (List.mem_filterMap.mpr ⟨_, ho, ?_⟩)
      simp [Occurrence.free?, hscope, hl]
  | some d =>
      obtain ⟨p, hp, he⟩ := List.mem_map.mp (List.mem_reverse.mp (mem_of_lookup hl))
      exact hparam (List.mem_map.mpr ⟨p, hp, (Prod.mk.inj he).1⟩)

theorem LocalsApart.callee_notMem_declared {m : MethodBody} (hm : m.LocalsApart) {e : Expr}
    (he : e ∈ exprsOf m.body) {name : String} {args : List (Arg Expr)}
    (hcall : .call none name args ∈ e.visited) : name ∉ m.declared := by
  intro hname
  refine (hm name hname).2.2 (List.mem_flatMap.mpr ⟨e, he, ?_⟩)
  exact List.mem_filterMap.mpr ⟨_, hcall, rfl⟩

theorem namesAgree_of_paired {m m' : MethodBody} (hm : m.LocalsApart) (hm' : m'.LocalsApart)
    (hparams : m'.paramScope = m.paramScope) {e e' : Expr} (he : e ∈ exprsOf m.body)
    (he' : e' ∈ exprsOf m'.body)
    (h : Paired ⟨m.paramScope, m.declared, m'.declared⟩ m.occurrences m'.occurrences e e') :
    List.Forall₂ (NamesAgree ⟨m.paramScope, m.declared, m'.declared⟩)
      (e.visited.filterMap Expr.mention?) (e'.visited.filterMap Expr.mention?) := by
  obtain ⟨ρ, scope, scope', hforce, halpha, hmem, hmem'⟩ := h
  refine List.rel_filterMap ?_ (forall₂_mem halpha.visitedAlike)
  rintro x x' ⟨hx, hx', hpair⟩
  cases hpair with
  | ident hname hvalue hvalue' =>
      refine .some ?_
      rcases hname.cases with hdeclared | ⟨rfl, hleft, hright⟩
      · exact Or.inl (hforce.declared _ hdeclared)
      · -- No local is in force under the name, so it stands for a parameter or is used free.
        refine Or.inr ⟨rfl, ?_, ?_⟩
        · exact hm.notMem_declared (hmem _ hvalue) (hforce.left _ hleft)
        · refine hm'.notMem_declared (hmem' _ hvalue') ?_
          rw [hforce.right _ hright, hparams]
  | call name args args' =>
      refine .some (Or.inr ⟨rfl, ?_, ?_⟩)
      · exact hm.callee_notMem_declared he hx
      · exact hm'.callee_notMem_declared he' hx'
  | other hnone hnone' =>
      rw [hnone, hnone']
      exact .none

theorem taken_eq_of_alpha {m : MethodBody} {body : List Stmt} {ρ : Pairing}
    (h : AlphaStmts [] m.body body ρ) (hm : m.LocalsApart) (hm' : { m with body }.LocalsApart) :
    { m with body }.taken = m.taken := by
  let w : Surrounding := ⟨m.paramScope, m.declared, { m with body }.declared⟩
  have hstart : InForce w [] m.paramScope m.paramScope := ⟨fun _ _ => rfl, fun _ _ => rfl, nofun⟩
  have htraced : Traced w ρ (exprsOf m.body) (exprsOf body)
      (occurrencesIn ⟨m.paramScope, 0⟩ m.body) (occurrencesIn ⟨m.paramScope, 0⟩ body) :=
    h.traced hstart (List.Subset.refl _) (List.Subset.refl _)
  have hmentions : List.Forall₂ (NamesAgree w) m.mentions { m with body }.mentions := by
    refine List.rel_flatMap (forall₂_mem htraced.exprs) ?_
    intro e e' ⟨he, he', hpair⟩
    exact namesAgree_of_paired hm hm' rfl he he' hpair
  have hparams : List.Forall₂ (NamesAgree w) (m.params.map (·.name)) (m.params.map (·.name)) := by
    refine List.forall₂_same.mpr fun name hname => Or.inr ⟨rfl, ?_, ?_⟩
    · exact fun hd => (hm name hd).1 hname
    · exact fun hd => (hm' name hd).1 hname
  exact (filter_eq_of_namesAgree (List.rel_append hparams hmentions)).symm

/-- Bodies that differ in the names of their locals only are renamed to the same body, and so have
the same function in every class. -/
theorem emitFunction_withLocals_eq_of_alpha {m : MethodBody} {body : List Stmt} {ρ : Pairing}
    (h : AlphaStmts [] m.body body ρ) (hm : m.LocalsApart) (hm' : { m with body }.LocalsApart) :
    { m with body }.withLocals = m.withLocals ∧
      ∀ (ctx : ClassContext) (indent : String),
        emitFunction ctx indent { m with body }.withLocals =
          emitFunction ctx indent m.withLocals := by
  have hstart : m.initialRenaming.Couples [] m.initialRenaming := by
    refine ⟨rfl, fun x y hxy => ?_⟩
    cases hxy with
    | free => rfl
  have hbody : (renameStmts m.taken m.initialRenaming m.body).1 =
      (renameStmts m.taken m.initialRenaming body).1 := (h.renamedAlike hstart).1
  have hsame : { m with body }.withLocals = m.withLocals := by
    unfold withLocals
    rw [taken_eq_of_alpha h hm hm', hbody]
    rfl
  exact ⟨hsame, fun ctx indent => by rw [hsame]⟩

end MethodBody

/-- `float a = p; { float a = a; local0 = f(a); }`, where `local0` is a field. -/
def shadowedLocal : MethodBody where
  name := "shade"
  params := [{ type := ⟨"float", false, false, .none⟩, name := "p" }]
  body :=
    [.declare false ⟨"float", false, false, .none⟩ [⟨"a", some (.ident "p")⟩],
     .block
       [.declare false ⟨"float", false, false, .none⟩ [⟨"a", some (.ident "a")⟩],
        .eval (.assign .assign (.ident "local0") (.call none "f" [⟨none, .ident "a"⟩]))]]

/-- `float b = p; { float c = b; local0 = f(c); }` -/
def unshadowedBody : List Stmt :=
  [.declare false ⟨"float", false, false, .none⟩ [⟨"b", some (.ident "p")⟩],
   .block
     [.declare false ⟨"float", false, false, .none⟩ [⟨"c", some (.ident "b")⟩],
      .eval (.assign .assign (.ident "local0") (.call none "f" [⟨none, .ident "c"⟩]))]]

theorem alphaStmts_unshadowedBody :
    AlphaStmts [] shadowedLocal.body unshadowedBody [("a", "b")] := by
  have hinner : AlphaStmts [("a", "b")]
      [.declare false ⟨"float", false, false, .none⟩ [⟨"a", some (.ident "a")⟩],
       .eval (.assign .assign (.ident "local0") (.call none "f" [⟨none, .ident "a"⟩]))]
      [.declare false ⟨"float", false, false, .none⟩ [⟨"c", some (.ident "b")⟩],
       .eval (.assign .assign (.ident "local0") (.call none "f" [⟨none, .ident "c"⟩]))]
      [("a", "c"), ("a", "b")] := by
    have hfield : SameName [("a", "c"), ("a", "b")] "local0" "local0" :=
      .there (by decide) (by decide) (.there (by decide) (by decide) (.free _))
    refine .cons (.declare _ _ (.cons "a" "c" (.some (.ident (.here _ _ _))) (.nil _))) ?_
    refine .cons (.eval (.assign _ (.ident hfield) (.call _ (.cons _ ?_ .nil)))) (.nil _)
    exact .ident (.here _ _ _)
  refine .cons (.declare _ _ (.cons "a" "b" (.some (.ident (.free _))) (.nil _))) ?_
  exact .cons (.block hinner) (.nil _)

theorem withLocals_unshadowedBody :
    AlphaStmts [] shadowedLocal.body unshadowedBody [("a", "b")] ∧
      shadowedLocal.LocalsApart ∧ { shadowedLocal with body := unshadowedBody }.LocalsApart ∧
      shadowedLocal.withLocals.declared = ["local1", "local2"] ∧
      { shadowedLocal with body := unshadowedBody }.withLocals = shadowedLocal.withLocals ∧
      ∀ (ctx : ClassContext) (indent : String),
        emitFunction ctx indent { shadowedLocal with body := unshadowedBody }.withLocals =
          emitFunction ctx indent shadowedLocal.withLocals := by
  have hm : shadowedLocal.LocalsApart := by decide
  have hm' : { shadowedLocal with body := unshadowedBody }.LocalsApart := by decide
  exact ⟨alphaStmts_unshadowedBody, hm, hm', by decide +kernel,
    MethodBody.emitFunction_withLocals_eq_of_alpha alphaStmts_unshadowedBody hm hm'⟩

end ShaderCompiler
