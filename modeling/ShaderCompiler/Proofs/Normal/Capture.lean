import ShaderCompiler.Proofs.Association
import ShaderCompiler.Proofs.Normal.Layers
import ShaderCompiler.Proofs.Normal.Renaming

namespace ShaderCompiler

theorem newName_param (taken : List String) (m : MethodBody) {b : String × Referent}
    (hb : b ∈ m.paramScope) : newName taken b = b.1 := by
  obtain ⟨p, -, rfl⟩ := List.mem_map.mp (List.mem_reverse.mp hb)
  rfl

theorem renaming_paramScope (taken : List String) (m : MethodBody) :
    Scoping.renaming taken ⟨m.paramScope, 0⟩ = m.initialRenaming := by
  simp only [Scoping.renaming, Scope.newNames, MethodBody.initialRenaming, nextIndex,
    MethodBody.paramScope, List.map_reverse, List.map_map]
  rfl

theorem renamed_paramScope (taken : List String) (m : MethodBody) :
    Scoping.renamed taken ⟨m.paramScope, 0⟩ = ⟨m.paramScope, 0⟩ := by
  have hm : m.paramScope.renamed taken = m.paramScope.map id := by
    apply List.map_congr_left
    intro b hb
    rw [newName_param taken m hb]
    rfl
  rw [Scoping.renamed, hm, List.map_id]

theorem occurrences_withLocals (m : MethodBody) :
    m.withLocals.occurrences = m.occurrences.map (Occurrence.renamed m.taken) := by
  have h := (follows_stmts m.taken ⟨m.paramScope, 0⟩ m.body).occurrences
  rw [renaming_paramScope, renamed_paramScope] at h
  exact h

section

variable (taken : List String)

/-- A declaration in scope is spelt like the mention in the renamed body, and the mention is of
something else. -/
def Occurrence.IsCaptured (o : Occurrence) : Prop :=
  o.referent.isBinder = false ∧
    ∃ b ∈ o.scope, newName taken b = o.mention.name ∧ b.2 ≠ o.referent

instance (o : Occurrence) : Decidable (o.IsCaptured taken) :=
  inferInstanceAs (Decidable (_ ∧ _))

theorem lookup_newNames (scope : Scope) (name : String) :
    (scope.newNames taken).lookup name =
      (scope.lookup name).map fun d => newName taken (name, d) := by
  induction scope with
  | nil => rfl
  | cons b scope ih =>
      obtain ⟨x, d⟩ := b
      rw [Scope.newNames, List.map_cons, List.lookup_cons, List.lookup_cons]
      by_cases hx : name == x
      · obtain rfl : name = x := by simpa using hx
        simp
      · simpa [hx, Scope.newNames] using ih

theorem lookup_renamed_binder {scope : Scope} (h : scope.Layered) {name : String} {k : Nat}
    (hk : (name, .binder k) ∈ scope) :
    (scope.renamed taken).lookup (localName (freshIndex taken k)) = some (.binder k) := by
  obtain ⟨l, ps, rfl, hl, hp⟩ := h
  have hm : (name, .binder k) ∈ l := by
    rcases List.mem_append.mp hk with hm | hm
    · exact hm
    · exact absurd (hp _ hm) nofun
  have hf : (Scope.renamed taken l).lookup (localName (freshIndex taken k)) =
      some (.binder k) := by
    obtain ⟨d, hd⟩ := Option.ne_none_iff_exists'.mp (lookup_map_ne_none (f := newName taken) hm)
    obtain ⟨⟨x, e⟩, hb, hn, rfl⟩ := exists_of_lookup_map hd
    cases e with
    | binder j =>
        obtain rfl := (freshIndex_strictMono taken).injective (localName_injective hn)
        exact hd
    | param | global | function => cases hl _ hb
  rw [Scope.renamed, List.map_append, List.lookup_append]
  rw [Scope.renamed] at hf
  rw [hf, Option.some_or]

theorem newName_of_not_isBinder {b : String × Referent} (h : b.2.isBinder = false) :
    newName taken b = b.1 := by
  obtain ⟨x, d⟩ := b
  cases d with
  | binder k => cases h
  | param | global | function => rfl

theorem Scope.Layered.eq_param {scope : Scope} (h : scope.Layered) {b : String × Referent}
    (hb : b ∈ scope) (hd : b.2.isBinder = false) : b.2 = .param (newName taken b) := by
  obtain ⟨l, ps, rfl, hl, hp⟩ := h
  rcases List.mem_append.mp hb with hm | hm
  · rw [hl b hm] at hd
    cases hd
  · rw [newName_of_not_isBinder taken hd]
    exact hp b hm

theorem isBinder_of_lookup_renamed {scope : Scope} (h : scope.Layered) {b : String × Referent}
    (hb : b ∈ scope) (hd : b.2.isBinder = true) {d : Referent}
    (hf : (scope.renamed taken).lookup (newName taken b) = some d) : d.isBinder = true := by
  obtain ⟨l, ps, rfl, hl, hp⟩ := h
  have hm : b ∈ l := by
    rcases List.mem_append.mp hb with hm | hm
    · exact hm
    · rw [hp b hm] at hd
      cases hd
  obtain ⟨e, he⟩ := Option.ne_none_iff_exists'.mp (lookup_map_ne_none (f := newName taken) hm)
  rw [Scope.renamed, List.map_append, List.lookup_append, he, Option.some_or] at hf
  obtain rfl := Option.some.inj hf
  obtain ⟨c, hc, -, rfl⟩ := exists_of_lookup_map he
  exact hl c hc

/-- A name that is no local's keeps its meaning exactly if nothing else in scope is spelt like it
after renaming. -/
theorem lookup_renamed_iff {scope : Scope} (h : scope.Layered) {name : String} {d e : Referent}
    (hd : d.isBinder = false) (hs : (name, d) ∈ scope ∨ d = e) :
    ((scope.renamed taken).lookup name).getD e = d ↔
      ∀ b ∈ scope, newName taken b = name → b.2 = d := by
  constructor
  · rintro hg b hb rfl
    obtain ⟨c, hc⟩ := Option.ne_none_iff_exists'.mp (lookup_map_ne_none (f := newName taken) hb)
    have hf : (scope.renamed taken).lookup (newName taken b) = some c := hc
    obtain rfl : c = d := by simpa [hf] using hg
    have hbd : b.2.isBinder = false := by
      rw [Bool.eq_false_iff]
      intro hx
      rw [isBinder_of_lookup_renamed taken h hb hx hf] at hd
      cases hd
    obtain ⟨b', hb', hn, rfl⟩ := exists_of_lookup_map hc
    rw [h.eq_param taken hb hbd, h.eq_param taken hb' hd, hn]
  · intro hall
    cases hf : (scope.renamed taken).lookup name with
    | some c =>
        obtain ⟨b, hb, hn, rfl⟩ := exists_of_lookup_map hf
        exact hall b hb hn
    | none =>
        rcases hs with hm | rfl
        · have hn : newName taken (name, d) = name := newName_of_not_isBinder taken hd
          have hne := lookup_map_ne_none (f := newName taken) hm
          rw [hn] at hne
          exact absurd hf hne
        · rfl

end

theorem not_isCaptured_iff {taken : List String} {o : Occurrence}
    (hd : o.referent.isBinder = false) : ¬ o.IsCaptured taken ↔
      ∀ b ∈ o.scope, newName taken b = o.mention.name → b.2 = o.referent := by
  simp [Occurrence.IsCaptured, hd]

section

variable {taken : List String} {o : Occurrence}

theorem emittedReferent_of_not_isBinder (hd : o.referent.isBinder = false) :
    (o.renamed taken).emittedReferent =
      ((o.scope.renamed taken).lookup o.mention.name).getD o.mention.outer := by
  have hmention : o.mention.renamed (o.scope.newNames taken) = o.mention := by
    obtain ⟨scope, mention⟩ := o
    cases mention with
    | field | callee => rfl
    | value name =>
        cases hl : scope.lookup name with
        | none => simp [Mention.renamed, lookup_newNames, hl]
        | some d =>
            have hr : Occurrence.referent ⟨scope, .value name⟩ = d := by
              simp [Occurrence.referent, hl]
            rw [hr] at hd
            simp [Mention.renamed, lookup_newNames, hl,
              newName_of_not_isBinder taken (b := (name, d)) hd]
  rw [Occurrence.renamed, hmention]
  rfl

theorem mem_scope_or_eq_outer (o : Occurrence) :
    (o.mention.name, o.referent) ∈ o.scope ∨ o.referent = o.mention.outer := by
  obtain ⟨scope, mention⟩ := o
  cases mention with
  | field | callee => exact Or.inr rfl
  | value name =>
      cases hl : scope.lookup name with
      | none => exact Or.inr (by simp [Occurrence.referent, hl, Mention.outer])
      | some d => exact Or.inl (by simpa [Occurrence.referent, hl, Mention.name] using mem_of_lookup hl)

theorem emittedReferent_of_isBinder (h : o.scope.Layered) (hd : o.referent.isBinder = true) :
    (o.renamed taken).emittedReferent = o.referent := by
  obtain ⟨scope, mention⟩ := o
  cases mention with
  | field | callee => cases hd
  | value name =>
      cases hl : scope.lookup name with
      | none => simp [Occurrence.referent, hl, Referent.isBinder] at hd
      | some d =>
          have hr : Occurrence.referent ⟨scope, .value name⟩ = d := by
            simp [Occurrence.referent, hl]
          rw [hr] at hd ⊢
          obtain ⟨k, rfl⟩ : ∃ k, d = .binder k := by
            cases d with
            | binder k => exact ⟨k, rfl⟩
            | param | global | function => cases hd
          have hn : Mention.renamed (scope.newNames taken) (.value name) =
              .value (localName (freshIndex taken k)) := by
            simp [Mention.renamed, lookup_newNames, hl, newName]
          rw [Occurrence.renamed, hn, Occurrence.emittedReferent, Mention.name,
            lookup_renamed_binder taken h (mem_of_lookup hl)]
          rfl

/-- A mention keeps its meaning through renaming and emission exactly if it is not captured. -/
theorem emittedReferent_renamed_iff (h : o.scope.Layered) :
    (o.renamed taken).emittedReferent = o.referent ↔ ¬ o.IsCaptured taken := by
  cases hd : o.referent.isBinder with
  | true =>
      refine iff_of_true (emittedReferent_of_isBinder h hd) fun hc => ?_
      rw [hc.1] at hd
      cases hd
  | false =>
      rw [not_isCaptured_iff hd, emittedReferent_of_not_isBinder hd]
      exact lookup_renamed_iff taken h hd (mem_scope_or_eq_outer o)

end

/-- The mention is of no local, and the declaration of `d` is the first in scope that is spelt like
it in the renamed body: a local, or a parameter where no local is. -/
structure Occurrence.IsCapturedBy (taken : List String) (o : Occurrence) (d : Referent) : Prop where
  outside : o.referent.isBinder = false
  other : d ≠ o.referent
  spelt : ∃ b ∈ o.scope, newName taken b = o.mention.name ∧ b.2 = d
  first : d.isBinder = false →
    ∀ b ∈ o.scope, newName taken b = o.mention.name → b.2.isBinder = false

section

variable {taken : List String} {o : Occurrence} {d : Referent}

theorem emittedReferent_of_isCapturedBy (h : o.scope.Layered) (hc : o.IsCapturedBy taken d) :
    (o.renamed taken).emittedReferent = d := by
  obtain ⟨b, hb, hn, rfl⟩ := hc.spelt
  obtain ⟨e, he⟩ := Option.ne_none_iff_exists'.mp (lookup_map_ne_none (f := newName taken) hb)
  have hfound : (o.scope.renamed taken).lookup (newName taken b) = some e := he
  rw [emittedReferent_of_not_isBinder hc.outside, ← hn, hfound, Option.getD_some]
  obtain ⟨c, hmem, hname, rfl⟩ := exists_of_lookup_map he
  cases hd : b.2.isBinder with
  | true =>
      have hbinder := isBinder_of_lookup_renamed taken h hb hd hfound
      obtain ⟨x, d⟩ := b
      obtain ⟨y, e⟩ := c
      cases d with
      | param | global | function => cases hd
      | binder j =>
          cases e with
          | param | global | function => cases hbinder
          | binder k =>
              rw [(freshIndex_strictMono taken).injective (localName_injective hname)]
  | false =>
      rw [h.eq_param taken hb hd, h.eq_param taken hmem (hc.first hd c hmem (hname.trans hn)), hname]

theorem isCapturedBy_of_isCaptured (h : o.scope.Layered) (hc : o.IsCaptured taken) :
    o.IsCapturedBy taken (o.renamed taken).emittedReferent := by
  have hother : (o.renamed taken).emittedReferent ≠ o.referent :=
    fun he => (emittedReferent_renamed_iff h).mp he hc
  have houtside := hc.1
  obtain ⟨-, b, hb, hn, -⟩ := hc
  obtain ⟨e, he⟩ := Option.ne_none_iff_exists'.mp (lookup_map_ne_none (f := newName taken) hb)
  rw [hn] at he
  have hfound : (o.scope.renamed taken).lookup o.mention.name = some e := he
  have hreferent : (o.renamed taken).emittedReferent = e := by
    rw [emittedReferent_of_not_isBinder houtside, hfound, Option.getD_some]
  rw [hreferent] at hother ⊢
  refine ⟨houtside, hother, exists_of_lookup_map he, ?_⟩
  intro hd c hmem hname
  rw [Bool.eq_false_iff]
  intro hbinder
  rw [← hname] at hfound
  rw [isBinder_of_lookup_renamed taken h hmem hbinder hfound] at hd
  cases hd

end

/-- A captured name is spelt like a numbered local and is not among the names that numbering avoids,
or it is a parameter's and the mention is not a bare one. -/
theorem name_of_isCaptured {taken : List String} {o : Occurrence} (h : o.scope.Layered)
    (hc : o.IsCaptured taken) :
    (∃ n, o.mention.name = localName n ∧ localName n ∉ taken) ∨
      (∀ x, o.mention ≠ .value x) ∧ (o.mention.name, .param o.mention.name) ∈ o.scope := by
  obtain ⟨hd, ⟨y, d⟩, hb, hn, hne⟩ := hc
  cases hbd : d.isBinder with
  | true =>
      cases d with
      | binder k => exact Or.inl ⟨_, hn.symm, localName_freeIndex_notMem taken _⟩
      | param | global | function => cases hbd
  | false =>
      obtain rfl : y = o.mention.name := by
        rw [← hn, newName_of_not_isBinder taken (b := (y, d)) hbd]
      obtain rfl : d = .param o.mention.name := by
        rw [← hn]
        exact h.eq_param taken hb hbd
      refine Or.inr ⟨?_, hb⟩
      intro x hx
      apply hne
      -- A bare name that a parameter binds and no local hides is that parameter.
      have hr : o.referent = (o.scope.lookup x).getD (.global x) := by
        rw [Occurrence.referent, hx]
      rw [hx, Mention.name] at hb ⊢
      cases hl : o.scope.lookup x with
      | none => exact absurd hl (lookup_ne_none_of_mem hb)
      | some e =>
          rw [hl, Option.getD_some] at hr
          rw [hr] at hd ⊢
          have he := h.eq_param taken (mem_of_lookup hl) hd
          rw [newName_of_not_isBinder taken (b := (x, e)) hd] at he
          exact he.symm

/-- The renamed body, once emitted, means what the body meant, name by name, exactly if no mention
of a parameter, a field, an instance or a function is captured. Only names that numbering does not
avoid are, and names behind `this` or before arguments that are parameters', too. -/
theorem emittedReferents_withLocals_iff (m : MethodBody) :
    (m.withLocals.emittedReferents = m.referents ↔
      ∀ o ∈ m.occurrences, ¬ o.IsCaptured m.taken) ∧
    ∀ o ∈ m.occurrences, o.IsCaptured m.taken →
      (∃ n, o.mention.name = localName n ∧ localName n ∉ m.taken) ∨
        (∀ x, o.mention ≠ .value x) ∧ (o.mention.name, .param o.mention.name) ∈ o.scope := by
  constructor
  · rw [MethodBody.emittedReferents, MethodBody.referents, occurrences_withLocals, List.map_map,
      List.map_inj_left]
    refine forall₂_congr fun o ho => ?_
    exact emittedReferent_renamed_iff (layered_of_mem_occurrences ho)
  · intro o ho hc
    exact name_of_isCaptured (layered_of_mem_occurrences ho) hc

/-- `float a; { float local0; } local0 = a;`, where the last name is that of a field. -/
def shadowedField : MethodBody where
  name := "main"
  body :=
    [.declare false ⟨"float", false, false, .none⟩ [⟨"a", none⟩],
     .block [.declare false ⟨"float", false, false, .none⟩ [⟨"local0", none⟩]],
     .eval (.assign .assign (.ident "local0") (.ident "a"))]

/-- A field that shares its name with a local of an inner block is captured. -/
theorem emittedReferents_shadowedField :
    shadowedField.referents = [.global "local0", .binder 0] ∧
      shadowedField.withLocals.emittedReferents = [.binder 0, .binder 0] ∧
      ∃ o ∈ shadowedField.occurrences, o.IsCaptured shadowedField.taken ∧
        ((∃ n, o.mention.name = localName n ∧ localName n ∉ shadowedField.taken) ∨
          (∀ x, o.mention ≠ .value x) ∧ (o.mention.name, .param o.mention.name) ∈ o.scope) := by
  have hbefore : shadowedField.referents = [.global "local0", .binder 0] := by decide +kernel
  have hafter : shadowedField.withLocals.emittedReferents = [.binder 0, .binder 0] := by
    decide +kernel
  obtain ⟨hiff, hnames⟩ := emittedReferents_withLocals_iff shadowedField
  have hcaptured : ∃ o ∈ shadowedField.occurrences, o.IsCaptured shadowedField.taken := by
    by_contra hnone
    have hsame := hiff.mpr fun o ho hc => hnone ⟨o, ho, hc⟩
    rw [hbefore, hafter] at hsame
    cases hsame
  obtain ⟨o, ho, hc⟩ := hcaptured
  exact ⟨hbefore, hafter, o, ho, hc, hnames o ho hc⟩

end ShaderCompiler
