import ShaderCompiler.Proofs.Association
import ShaderCompiler.Proofs.Normal.Layers

namespace ShaderCompiler

def Referent.shift (n : Nat) : Referent → Referent
  | .binder k => .binder (k + n)
  | d => d

theorem Referent.shift_of_not_isBinder {d : Referent} (h : d.isBinder = false) (n : Nat) :
    d.shift n = d := by
  cases d with
  | binder k => cases h
  | param | global | function => rfl

theorem Referent.shift_injective (n : Nat) : Function.Injective (Referent.shift n) := by
  intro d e h
  cases d <;> cases e <;> simp_all [Referent.shift]

theorem Referent.isBinder_shift (d : Referent) (n : Nat) : (d.shift n).isBinder = d.isBinder := by
  cases d <;> rfl

/-- A change of what lies under the locals, with their numbers moved. -/
structure ScopeMap where
  scope : Scope → Scope
  offset : Nat
  cons : ∀ name k rest,
    scope ((name, .binder k) :: rest) = (name, .binder (k + offset)) :: scope rest

namespace ScopeMap

variable (φ : ScopeMap)

def occurrence (o : Occurrence) : Occurrence := ⟨φ.scope o.scope, o.mention⟩

def scoping (sc : Scoping) : Scoping := ⟨φ.scope sc.scope, sc.count + φ.offset⟩

def both (p : List Occurrence × Scoping) : List Occurrence × Scoping :=
  (p.1.map φ.occurrence, φ.scoping p.2)

theorem leave_scoping (outer inner : Scoping) :
    (φ.scoping outer).leave (φ.scoping inner) = φ.scoping (outer.leave inner) := rfl

theorem declare_scoping (sc : Scoping) (name : String) :
    (φ.scoping sc).declare name = φ.scoping (sc.declare name) := by
  simp only [Scoping.declare, scoping, φ.cons, Nat.add_right_comm]

theorem occurrencesOf_scoping (sc : Scoping) (e : Expr) :
    (φ.scoping sc).occurrencesOf e = (sc.occurrencesOf e).map φ.occurrence := by
  simp only [Scoping.occurrencesOf, List.map_map]
  rfl

theorem flatMap_scoping (sc : Scoping) (es : List Expr) :
    es.flatMap (φ.scoping sc).occurrencesOf =
      (es.flatMap sc.occurrencesOf).map φ.occurrence := by
  rw [List.map_flatMap]
  exact congrArg (es.flatMap ·) (funext (φ.occurrencesOf_scoping sc))

theorem occurrencesOfDeclarators_scoping (sc : Scoping) (ds : List (Declarator Expr)) :
    (φ.scoping sc).occurrencesOfDeclarators ds = φ.both (sc.occurrencesOfDeclarators ds) := by
  induction ds generalizing sc with
  | nil => rfl
  | cons d ds ih =>
      simp only [Scoping.occurrencesOfDeclarators, declare_scoping, ih, flatMap_scoping, both,
        List.map_append]

mutual

theorem occurrences_scoping (sc : Scoping) : (s : Stmt) →
    s.occurrences (φ.scoping sc) = φ.both (s.occurrences sc)
  | .block body => by
      simp only [Stmt.occurrences, occurrencesIn_scoping sc body, both, leave_scoping]
  | .ifElse test yes none => by
      simp only [Stmt.occurrences, occurrences_scoping sc yes, occurrencesOf_scoping, both,
        leave_scoping, List.map_append]
  | .ifElse test yes (some no) => by
      simp only [Stmt.occurrences, occurrences_scoping sc yes, occurrencesOf_scoping, both,
        leave_scoping, occurrences_scoping (sc.leave (yes.occurrences sc).2) no, List.map_append]
  | .whileLoop test body => by
      simp only [Stmt.occurrences, occurrences_scoping sc body, occurrencesOf_scoping, both,
        leave_scoping, List.map_append]
  | .doWhile body test => by
      simp only [Stmt.occurrences, occurrences_scoping sc body, occurrencesOf_scoping, both,
        leave_scoping, List.map_append]
  | .forLoop init test step body => by
      simp only [Stmt.occurrences, occurrencesIn_scoping sc init, both,
        occurrences_scoping (occurrencesIn sc init).2 body, flatMap_scoping, leave_scoping,
        List.map_append]
  | .switch scrutinee sections => by
      simp only [Stmt.occurrences, occurrencesInSections_scoping sc sections,
        occurrencesOf_scoping, both, leave_scoping, List.map_append]
  | .ret value => by simp only [Stmt.occurrences, flatMap_scoping, both]
  | .declare _ _ declarators => occurrencesOfDeclarators_scoping φ sc declarators
  | .eval e => by simp only [Stmt.occurrences, occurrencesOf_scoping, both]
  | .empty | .brk | .cont | .discard | .tryCatch _ _ _ _ | .throw _ _ | .foreach _ _ _ _ _
  | .lock _ _ _ | .using _ _ _ | .goto _ _ | .labeled _ _ _ | .yield _ _ | .unmanaged _ _
  | .fixed _ _ _ | .attributed _ _ _ => rfl

theorem occurrencesIn_scoping (sc : Scoping) : (stmts : List Stmt) →
    occurrencesIn (φ.scoping sc) stmts = φ.both (occurrencesIn sc stmts)
  | [] => rfl
  | s :: rest => by
      simp only [occurrencesIn, occurrences_scoping sc s, both,
        occurrencesIn_scoping (s.occurrences sc).2 rest, List.map_append]

theorem occurrencesInSections_scoping (sc : Scoping) :
    (sections : List (SwitchSection Expr Stmt)) →
      occurrencesInSections (φ.scoping sc) sections = φ.both (occurrencesInSections sc sections)
  | [] => rfl
  | ⟨labels, body⟩ :: rest => by
      simp only [occurrencesInSections, occurrencesIn_scoping sc body, both, flatMap_scoping,
        occurrencesInSections_scoping (occurrencesIn sc body).2 rest, List.map_append]

end

end ScopeMap

section

variable (f : Expr → Expr)

theorem scoping_declarators (sc : Scoping) (ds : List (Declarator Expr)) :
    (sc.occurrencesOfDeclarators (ds.map (Declarator.map f))).2 =
      (sc.occurrencesOfDeclarators ds).2 := by
  induction ds generalizing sc with
  | nil => rfl
  | cons d ds ih => exact ih (sc.declare d.name)

mutual

theorem scoping_mapExprs (sc : Scoping) : (s : Stmt) →
    ((s.mapExprs f).occurrences sc).2 = (s.occurrences sc).2
  | .block body => by
      simp only [Stmt.mapExprs, Stmt.occurrences, scoping_mapStmts sc body]
  | .ifElse _ yes none => by
      simp only [Stmt.mapExprs, Stmt.occurrences, scoping_mapExprs sc yes]
  | .ifElse _ yes (some no) => by
      simp only [Stmt.mapExprs, Stmt.occurrences, scoping_mapExprs sc yes,
        scoping_mapExprs (sc.leave (yes.occurrences sc).2) no]
  | .whileLoop _ body => by
      simp only [Stmt.mapExprs, Stmt.occurrences, scoping_mapExprs sc body]
  | .doWhile body _ => by
      simp only [Stmt.mapExprs, Stmt.occurrences, scoping_mapExprs sc body]
  | .forLoop init _ _ body => by
      simp only [Stmt.mapExprs, Stmt.occurrences, scoping_mapStmts sc init,
        scoping_mapExprs (occurrencesIn sc init).2 body]
  | .switch _ sections => by
      simp only [Stmt.mapExprs, Stmt.occurrences, scoping_mapSections sc sections]
  | .declare _ _ declarators => scoping_declarators f sc declarators
  | .ret _ | .eval _ | .empty | .brk | .cont | .discard | .tryCatch _ _ _ _ | .throw _ _
  | .foreach _ _ _ _ _ | .lock _ _ _ | .using _ _ _ | .goto _ _ | .labeled _ _ _ | .yield _ _
  | .unmanaged _ _ | .fixed _ _ _ | .attributed _ _ _ => rfl

theorem scoping_mapStmts (sc : Scoping) : (stmts : List Stmt) →
    (occurrencesIn sc (mapStmts f stmts)).2 = (occurrencesIn sc stmts).2
  | [] => rfl
  | s :: rest => by
      simp only [mapStmts, occurrencesIn, scoping_mapExprs sc s,
        scoping_mapStmts (s.occurrences sc).2 rest]

theorem scoping_mapSections (sc : Scoping) : (sections : List (SwitchSection Expr Stmt)) →
    (occurrencesInSections sc (mapSections f sections)).2 = (occurrencesInSections sc sections).2
  | [] => rfl
  | ⟨_, body⟩ :: rest => by
      simp only [mapSections, occurrencesInSections, scoping_mapStmts sc body,
        scoping_mapSections (occurrencesIn sc body).2 rest]

end

end

/-- The locals that statements leave in scope, and the count of all that they declare. -/
def localsAfter (stmts : List Stmt) : Scoping := (occurrencesIn ⟨[], 0⟩ stmts).2

theorem localsAfter_mapStmts (f : Expr → Expr) (stmts : List Stmt) :
    localsAfter (mapStmts f stmts) = localsAfter stmts :=
  scoping_mapStmts f ⟨[], 0⟩ stmts

def Scoping.Counted (sc : Scoping) : Prop := ∀ b ∈ sc.scope, ∃ k < sc.count, b.2 = .binder k

theorem Scoping.Counted.declare {sc : Scoping} (h : sc.Counted) (name : String) :
    (sc.declare name).Counted := by
  refine List.forall_mem_cons.mpr ⟨⟨sc.count, Nat.lt_succ_self _, rfl⟩, fun b hb => ?_⟩
  obtain ⟨k, hk, hd⟩ := h b hb
  exact ⟨k, Nat.lt_succ_of_lt hk, hd⟩

theorem Scoping.Counted.declarators {sc : Scoping} (h : sc.Counted) (ds : List (Declarator Expr)) :
    (sc.occurrencesOfDeclarators ds).2.Counted := by
  induction ds generalizing sc with
  | nil => exact h
  | cons d ds ih => exact ih (h.declare d.name)

def ScopeMap.onto (sc : Scoping) : ScopeMap where
  scope l := l.map (fun b => (b.1, b.2.shift sc.count)) ++ sc.scope
  offset := sc.count
  cons _ _ _ := rfl

theorem le_count_occurrences (sc : Scoping) (s : Stmt) :
    sc.count ≤ (s.occurrences sc).2.count := by
  have hstart : (ScopeMap.onto sc).scoping ⟨[], 0⟩ = sc := by
    simp only [ScopeMap.scoping, ScopeMap.onto, Nat.zero_add]
    rfl
  have h := (ScopeMap.onto sc).occurrences_scoping ⟨[], 0⟩ s
  rw [hstart] at h
  rw [h]
  exact Nat.le_add_left _ _

theorem Scoping.Counted.stmts {sc : Scoping} (h : sc.Counted) (stmts : List Stmt) :
    (occurrencesIn sc stmts).2.Counted := by
  induction stmts generalizing sc with
  | nil => exact h
  | cons s stmts ih =>
      have hleave (hscope : (s.occurrences sc).2.scope = sc.scope) :
          (s.occurrences sc).2.Counted := by
        intro b hb
        rw [hscope] at hb
        obtain ⟨k, hk, hd⟩ := h b hb
        exact ⟨k, Nat.lt_of_lt_of_le hk (le_count_occurrences sc s), hd⟩
      apply ih
      cases s with
      | declare isConst type declarators => exact h.declarators declarators
      | ifElse test yes no => cases no <;> exact hleave rfl
      | _ => exact hleave rfl

theorem counted_localsAfter (stmts : List Stmt) : (localsAfter stmts).Counted := by
  have hstart : Scoping.Counted ⟨[], 0⟩ := nofun
  exact hstart.stmts stmts

theorem isBinder_localsAfter (stmts : List Stmt) :
    ∀ b ∈ (localsAfter stmts).scope, b.2.isBinder = true := by
  intro b hb
  obtain ⟨k, -, hd⟩ := counted_localsAfter stmts b hb
  rw [hd]
  rfl

/-- What is in scope once the locals of earlier statements lie under those of the later ones. -/
def Scope.over (before : Scoping) (scope : Scope) : Scope :=
  (scope.filter (·.2.isBinder)).map (fun b => (b.1, b.2.shift before.count)) ++ before.scope ++
    scope.filter (!·.2.isBinder)

def ScopeMap.over (before : Scoping) : ScopeMap where
  scope := Scope.over before
  offset := before.count
  cons name k rest := by simp [Scope.over, Referent.isBinder, Referent.shift]

def ScopeMap.under (outer : Scope) : ScopeMap where
  scope := (· ++ outer)
  offset := 0
  cons _ _ _ := rfl

def Occurrence.over (before : Scoping) (o : Occurrence) : Occurrence :=
  (ScopeMap.over before).occurrence o

theorem Scope.over_append {l ps : Scope} (before : Scoping)
    (hl : ∀ b ∈ l, b.2.isBinder = true) (hp : ∀ b ∈ ps, b.2 = .param b.1) :
    Scope.over before (l ++ ps) =
      l.map (fun b => (b.1, b.2.shift before.count)) ++ before.scope ++ ps := by
  have hparams : ∀ b ∈ ps, b.2.isBinder = false := by
    intro b hb
    rw [hp b hb]
    rfl
  rw [Scope.over, List.filter_append, List.filter_append, List.filter_eq_self.mpr hl,
    List.filter_eq_nil_iff.mpr (by simpa using hparams), List.append_nil,
    List.filter_eq_nil_iff.mpr (by simpa using hl), List.nil_append,
    List.filter_eq_self.mpr (by simpa using hparams)]

theorem Scope.Layered.over {scope : Scope} (h : scope.Layered) {before : Scoping}
    (hb : ∀ b ∈ before.scope, b.2.isBinder = true) : (Scope.over before scope).Layered := by
  obtain ⟨l, ps, rfl, hl, hp⟩ := h
  refine ⟨_, ps, Scope.over_append before hl hp, ?_, hp⟩
  refine List.forall_mem_append.mpr ⟨?_, hb⟩
  intro b hmem
  obtain ⟨a, ha, rfl⟩ := List.mem_map.mp hmem
  rw [Referent.isBinder_shift]
  exact hl a ha

theorem mem_of_mem_over {scope : Scope} {before : Scoping} {b : String × Referent}
    (hbefore : ∀ b ∈ before.scope, b.2.isBinder = true) (hd : b.2.isBinder = false)
    (h : b ∈ Scope.over before scope) : b ∈ scope := by
  rw [Scope.over, List.mem_append, List.mem_append, List.mem_map] at h
  obtain (⟨a, ha, rfl⟩ | hb) | hb := h
  · rw [Referent.isBinder_shift, (List.mem_filter.mp ha).2] at hd
    cases hd
  · rw [hbefore b hb] at hd
    cases hd
  · exact (List.mem_filter.mp hb).1

/-- Behind other statements the mentions in statements are the same, over the locals of those. -/
theorem occurrencesIn_localsAfter {ps : Scope} (hp : ∀ b ∈ ps, b.2 = .param b.1)
    (stmts body : List Stmt) :
    (occurrencesIn (occurrencesIn ⟨ps, 0⟩ stmts).2 body).1 =
      (occurrencesIn ⟨ps, 0⟩ body).1.map (Occurrence.over (localsAfter stmts)) := by
  have hbefore : (occurrencesIn ⟨ps, 0⟩ stmts).2 =
      (ScopeMap.over (localsAfter stmts)).scoping ⟨ps, 0⟩ := by
    have hunder := congrArg Prod.snd ((ScopeMap.under ps).occurrencesIn_scoping ⟨[], 0⟩ stmts)
    have hover := Scope.over_append (l := []) (localsAfter stmts) nofun hp
    have hscope : (ScopeMap.over (localsAfter stmts)).scoping ⟨ps, 0⟩ =
        (ScopeMap.under ps).scoping (localsAfter stmts) := by
      simp only [ScopeMap.scoping, ScopeMap.over, ScopeMap.under, Nat.zero_add, Nat.add_zero]
      exact congrArg (Scoping.mk · _) hover
    rw [hscope]
    exact hunder
  rw [hbefore, ScopeMap.occurrencesIn_scoping]
  rfl

/-- A bare name that is none of the statements' own locals, but that of a local before them. -/
def Occurrence.IsHiddenBy (before : Scope) (o : Occurrence) : Prop :=
  o.mention = .value o.mention.name ∧ o.referent.isBinder = false ∧
    (before.lookup o.mention.name).isSome = true

instance (before : Scope) (o : Occurrence) : Decidable (o.IsHiddenBy before) :=
  inferInstanceAs (Decidable (_ ∧ _))

theorem lookup_shift (l : Scope) (n : Nat) (name : String) :
    List.lookup name (l.map fun b => (b.1, b.2.shift n)) = (l.lookup name).map (·.shift n) := by
  induction l with
  | nil => rfl
  | cons b l ih =>
      obtain ⟨x, d⟩ := b
      simp only [List.map_cons, List.lookup_cons]
      cases name == x with
      | true => rfl
      | false => exact ih

section

variable {o : Occurrence} {before : Scoping}

theorem lookup_over (h : o.scope.Layered) (before : Scoping) (name : String) :
    ∃ own outer : Option Referent, (∀ d ∈ own, d.isBinder = true) ∧
      (∀ d ∈ outer, d.isBinder = false) ∧ o.scope.lookup name = own.or outer ∧
      (o.over before).scope.lookup name =
        ((own.map (·.shift before.count)).or (before.scope.lookup name)).or outer := by
  obtain ⟨scope, mention⟩ := o
  obtain ⟨l, ps, rfl, hl, hp⟩ := h
  refine ⟨l.lookup name, ps.lookup name, ?_, ?_, List.lookup_append, ?_⟩
  · intro d hd
    exact hl _ (mem_of_lookup hd)
  · intro d hd
    have hd : d = .param name := hp _ (mem_of_lookup hd)
    rw [hd]
    rfl
  · show (Scope.over before (l ++ ps)).lookup name = _
    rw [Scope.over_append before hl hp, List.lookup_append, List.lookup_append, lookup_shift]

theorem referent_over_of_isHiddenBy (h : o.scope.Layered)
    (hb : ∀ b ∈ before.scope, b.2.isBinder = true) (hhidden : o.IsHiddenBy before.scope) :
    ∃ k, before.scope.lookup o.mention.name = some (.binder k) ∧
      (o.over before).referent = .binder k := by
  obtain ⟨hvalue, hd, hfound⟩ := hhidden
  obtain ⟨d, hfound⟩ := Option.isSome_iff_exists.mp hfound
  obtain ⟨k, rfl⟩ : ∃ k, d = .binder k := by
    have hd := hb _ (mem_of_lookup hfound)
    cases d with
    | binder k => exact ⟨k, rfl⟩
    | param | global | function => cases hd
  refine ⟨k, hfound, ?_⟩
  obtain ⟨own, outer, hown, -, hlookup, hover⟩ := lookup_over h before o.mention.name
  have hreferent : o.referent = (own.or outer).getD (.global o.mention.name) := by
    rw [Occurrence.referent, hvalue, ← hlookup]
    rfl
  -- Were it a local of the statements themselves, it would not be hidden.
  have hnone : own = none := by
    cases own with
    | none => rfl
    | some d =>
        rw [hreferent, Option.some_or, Option.getD_some, hown d rfl] at hd
        cases hd
  have hmention : (o.over before).mention = .value o.mention.name := hvalue
  rw [Occurrence.referent, hmention]
  show ((o.over before).scope.lookup o.mention.name).getD _ = _
  rw [hover, hnone, hfound]
  rfl

theorem referent_over_of_not_isHiddenBy (h : o.scope.Layered)
    (hhidden : ¬ o.IsHiddenBy before.scope) :
    (o.over before).referent = o.referent.shift before.count := by
  obtain ⟨scope, mention⟩ := o
  cases mention with
  | field name | callee name => rfl
  | value name =>
      obtain ⟨own, outer, -, houter, hlookup, hover⟩ := lookup_over h before name
      have hreferent : Occurrence.referent ⟨scope, .value name⟩ =
          (own.or outer).getD (.global name) := by
        rw [← hlookup]
        rfl
      have hmoved : (Occurrence.over before ⟨scope, .value name⟩).referent =
          (((own.map (·.shift before.count)).or (before.scope.lookup name)).or outer).getD
            (.global name) := by
        rw [← hover]
        rfl
      rw [hreferent, hmoved]
      cases own with
      | some d => rfl
      | none =>
          rw [Option.none_or] at hreferent
          have hnot : (outer.getD (.global name)).isBinder = false := by
            cases outer with
            | none => rfl
            | some d => exact houter d rfl
          have hnone : before.scope.lookup name = none := by
            by_contra hsome
            rw [← hreferent] at hnot
            exact hhidden ⟨rfl, hnot, Option.isSome_iff_ne_none.mpr hsome⟩
          rw [hnone, Option.map_none, Option.none_or, Option.none_or,
            Referent.shift_of_not_isBinder hnot]

end

end ShaderCompiler
