import Mathlib.Data.List.Perm.Basic
import ShaderCompiler.Order.Functions
import ShaderCompiler.Proofs.Order.Cycles
import ShaderCompiler.Proofs.Sequencing

namespace ShaderCompiler

open Relation

/-- One function of a list calls another, by its name. -/
def CallsIn (functions : List ShaderFunction) (f g : ShaderFunction) : Prop :=
  g ∈ functions ∧ g.name ∈ f.calls

structure Orderable (functions : List ShaderFunction) : Prop where
  entry : ∀ f ∈ functions, "main" ∉ f.calls
  acyclic : ∀ f ∈ functions, ¬ TransGen (CallsIn functions) f f

theorem Orderable.perm {functions functions' : List ShaderFunction}
    (hperm : functions'.Perm functions) (h : Orderable functions) : Orderable functions' := by
  have hcalls : CallsIn functions' = CallsIn functions := by
    funext f g
    rw [CallsIn, CallsIn, hperm.mem_iff]
  refine ⟨fun f hf => h.entry f (hperm.mem_iff.mp hf), fun f hf => ?_⟩
  rw [hcalls]
  exact h.acyclic f (hperm.mem_iff.mp hf)

def CalleesFirst (functions : List ShaderFunction) : Prop :=
  ∀ (i j : Nat) (f g : ShaderFunction), functions[i]? = some f → functions[j]? = some g →
    g.name ∈ f.calls → j < i

/-- No entry point stands before a function that is none. -/
def EntriesLast (functions : List ShaderFunction) : Prop :=
  ∃ others entries, functions = others ++ entries ∧ (∀ f ∈ others, f.isEntryPoint = false) ∧
    ∀ f ∈ entries, f.isEntryPoint = true

section Positions

variable {owner : String} {functions : List ShaderFunction}

theorem mem_positionsOf {name : String} {i : Nat} :
    i ∈ positionsOf functions name ↔ ∃ f, functions[i]? = some f ∧ f.name = name := by
  simp only [positionsOf, List.mem_filter, List.mem_range, Option.any_eq_true, beq_iff_eq]
  refine ⟨fun h => h.2, ?_⟩
  rintro ⟨f, hf, hname⟩
  exact ⟨(List.getElem?_eq_some_iff.mp hf).1, f, hf, hname⟩

theorem needs_iff {i j : Nat} : (functionGraph owner functions).Needs i j ↔
    ∃ f g, functions[i]? = some f ∧ functions[j]? = some g ∧ g.name ∈ f.calls := by
  unfold NeedGraph.Needs functionGraph
  dsimp only
  cases functions[i]? with
  | none => simp
  | some f =>
      dsimp only
      constructor
      · rintro ⟨ns, hns, hj⟩
        obtain rfl := Except.ok.inj hns
        obtain ⟨k, hk, hkj⟩ := List.mem_map.mp hj
        obtain rfl := Except.ok.inj hkj
        obtain ⟨name, hname, hk⟩ := List.mem_flatMap.mp hk
        obtain ⟨g, hg, rfl⟩ := mem_positionsOf.mp hk
        exact ⟨f, g, rfl, hg, hname⟩
      · rintro ⟨f', g, hf, hg, hname⟩
        obtain rfl := Option.some.inj hf
        exact ⟨_, rfl, List.mem_map_of_mem
          (List.mem_flatMap.mpr ⟨g.name, hname, mem_positionsOf.mpr ⟨g, hg, rfl⟩⟩)⟩

theorem mem_of_transGen_callsIn {f g : ShaderFunction} (h : TransGen (CallsIn functions) f g) :
    g ∈ functions := by
  cases h with
  | single h => exact h.1
  | tail _ h => exact h.1

theorem transGen_needs {i j : Nat} {f g : ShaderFunction} (hi : functions[i]? = some f)
    (hj : functions[j]? = some g) (h : TransGen (CallsIn functions) f g) :
    TransGen (functionGraph owner functions).Needs i j := by
  induction h generalizing j with
  | single h => exact .single (needs_iff.mpr ⟨f, _, hi, hj, h.2⟩)
  | tail hreach h ih =>
      obtain ⟨k, hk⟩ := List.mem_iff_getElem?.mp (mem_of_transGen_callsIn hreach)
      exact (ih hk).tail (needs_iff.mpr ⟨_, _, hk, hj, h.2⟩)

theorem transGen_callsIn {i j : Nat} {f g : ShaderFunction} (hi : functions[i]? = some f)
    (hj : functions[j]? = some g) (h : TransGen (functionGraph owner functions).Needs i j) :
    TransGen (CallsIn functions) f g := by
  induction h generalizing g with
  | single h =>
      obtain ⟨f', g', hf, hg, hcall⟩ := needs_iff.mp h
      obtain rfl := Option.some.inj (hi.symm.trans hf)
      obtain rfl := Option.some.inj (hj.symm.trans hg)
      exact .single ⟨List.mem_of_getElem? hj, hcall⟩
  | tail _ h ih =>
      obtain ⟨f', g', hf, hg, hcall⟩ := needs_iff.mp h
      obtain rfl := Option.some.inj (hj.symm.trans hg)
      exact (ih hf).tail ⟨List.mem_of_getElem? hj, hcall⟩

theorem mem_visitRoots {i : Nat} : i ∈ visitRoots functions ↔ i < functions.length := by
  simp only [visitRoots, List.mem_append, List.mem_filter, List.mem_range, Bool.not_eq_true',
    ← and_or_left, and_iff_left_iff_imp]
  exact fun _ => (Bool.eq_false_or_eq_true _).symm

theorem lt_of_needs {i j : Nat} (h : (functionGraph owner functions).Needs i j) :
    j < functions.length := by
  obtain ⟨f, g, -, hg, -⟩ := needs_iff.mp h
  exact (List.getElem?_eq_some_iff.mp hg).1

theorem exists_of_transGen_needs {i j : Nat}
    (h : TransGen (functionGraph owner functions).Needs i j) : ∃ f, functions[j]? = some f := by
  obtain ⟨k, -, hk⟩ := TransGen.tail'_iff.mp h
  obtain ⟨f, g, -, hg, -⟩ := needs_iff.mp hk
  exact ⟨g, hg⟩

theorem not_breaks {i : Nat} {d : Diagnostic} : ¬ (functionGraph owner functions).Breaks i d := by
  unfold NeedGraph.Breaks functionGraph
  dsimp only
  cases functions[i]? <;> simp

theorem functionOrder_eq_ok {order : List Nat} (h : functionOrder owner functions = .ok order) :
    (∀ f ∈ functions, "main" ∉ f.calls) ∧
      ∃ entered, (functionGraph owner functions).walk (functions.length + 1)
        ((visitRoots functions).map .ok) = (.ok (), ⟨entered, order⟩) := by
  unfold functionOrder at h
  cases hfind : functions.find? (·.calls.contains "main") with
  | some caller =>
      rw [hfind] at h
      cases h
  | none =>
      rw [hfind] at h
      refine ⟨fun f hf => by simpa using List.find?_eq_none.mp hfind f hf, ?_⟩
      dsimp only at h
      match hw : (functionGraph owner functions).walk (functions.length + 1)
          ((visitRoots functions).map .ok) with
      | (.error d, p) =>
          rw [hw] at h
          cases h
      | (.ok _, p) =>
          rw [hw] at h
          cases h
          exact ⟨p.entered, rfl⟩

theorem functionOrder_eq_error {d : Diagnostic} (h : functionOrder owner functions = .error d) :
    (∃ f ∈ functions, "main" ∈ f.calls ∧ d = .invalidUse (.entryPointCalled owner f.name)) ∨
      ∃ f ∈ functions, TransGen (CallsIn functions) f f ∧
        d = .unsupported .recursion (.cycle owner f.name) := by
  unfold functionOrder at h
  cases hfind : functions.find? (·.calls.contains "main") with
  | some caller =>
      rw [hfind] at h
      cases h
      exact Or.inl ⟨caller, List.mem_of_find?_eq_some hfind, by simpa using List.find?_some hfind,
        rfl⟩
  | none =>
      rw [hfind] at h
      dsimp only at h
      match hw : (functionGraph owner functions).walk (functions.length + 1)
          ((visitRoots functions).map .ok) with
      | (.ok _, p) =>
          rw [hw] at h
          cases h
      | (.error e, p) =>
          rw [hw] at h
          cases h
          have hnodes : ∀ i ∈ List.range functions.length, ∀ j,
              (functionGraph owner functions).Needs i j → j ∈ List.range functions.length :=
            fun i _ j hj => List.mem_range.mpr (lt_of_needs hj)
          have hroots (i : Nat)
              (hi : (.ok i : Except Diagnostic Nat) ∈ (visitRoots functions).map .ok) :
              i ∈ List.range functions.length := by
            simpa [mem_visitRoots] using hi
          rcases NeedGraph.walk_error hnodes hroots (by simp) hw with
            hroot | ⟨i, hi, x, hreach, hbreaks | ⟨hcycle, rfl⟩⟩
          · simp at hroot
          · exact absurd hbreaks not_breaks
          · obtain ⟨f, hf⟩ := exists_of_transGen_needs hcycle
            refine Or.inr ⟨f, List.mem_of_getElem? hf, transGen_callsIn hf hf hcycle, ?_⟩
            simp [functionGraph, hf]

theorem functionOrder_ok_of_orderable (owner : String) (h : Orderable functions) :
    ∃ order, functionOrder owner functions = .ok order := by
  cases horder : functionOrder owner functions with
  | ok order => exact ⟨order, rfl⟩
  | error d =>
      rcases functionOrder_eq_error horder with ⟨f, hf, hmain, -⟩ | ⟨f, hf, hcycle, -⟩
      · exact absurd hmain (h.entry f hf)
      · exact absurd hcycle (h.acyclic f hf)

theorem mem_visitRoots_of_reaches {i j : Nat} (hi : i ∈ visitRoots functions)
    (h : ReflTransGen (functionGraph owner functions).Needs i j) : j ∈ visitRoots functions := by
  cases h with
  | refl => exact hi
  | tail _ h => exact mem_visitRoots.mpr (lt_of_needs h)

theorem sorted_of_functionOrder {order : List Nat}
    (h : functionOrder owner functions = .ok order) :
    (functionGraph owner functions).Sorted order ∧ order.Perm (List.range functions.length) := by
  obtain ⟨-, entered, hw⟩ := functionOrder_eq_ok h
  obtain ⟨ms, hms, hadvances⟩ := NeedGraph.walk_ok hw
  obtain rfl := List.map_injective_iff.mpr (fun a b => Except.ok.inj) hms
  refine ⟨hadvances.visiting.sorted, ?_⟩
  refine (List.perm_ext_iff_of_nodup hadvances.visiting.sorted.nodup List.nodup_range).mpr ?_
  intro i
  rw [List.mem_range, ← mem_visitRoots]
  refine ⟨fun hi => ?_, hadvances.finished i⟩
  rcases hadvances.reached i hi with hi | ⟨n, hn, hreach⟩
  · cases hi
  · exact mem_visitRoots_of_reaches hn hreach

theorem orderable_of_functionOrder {order : List Nat}
    (h : functionOrder owner functions = .ok order) : Orderable functions := by
  obtain ⟨hsorted, hperm⟩ := sorted_of_functionOrder h
  refine ⟨(functionOrder_eq_ok h).1, fun f hf hcycle => ?_⟩
  obtain ⟨i, hi⟩ := List.mem_iff_getElem?.mp hf
  have hmem : i ∈ order :=
    hperm.mem_iff.mpr (List.mem_range.mpr (List.getElem?_eq_some_iff.mp hi).1)
  exact hsorted.acyclic i hmem (transGen_needs hi hi hcycle)

/-- Functions that are not called are visited as roots only, so the last roots come last. -/
theorem split_functionOrder {order : List Nat}
    (hentry : ∀ f ∈ functions, f.isEntryPoint = true → f.name = "main")
    (h : functionOrder owner functions = .ok order) :
    ∃ before after, order = before ++ after ∧
      (∀ i ∈ before, functions[i]?.any (·.isEntryPoint) = false) ∧
      ∀ i ∈ after, functions[i]?.any (·.isEntryPoint) = true := by
  obtain ⟨hmain, entered, hw⟩ := functionOrder_eq_ok h
  have hcalled (i j : Nat) (hij : (functionGraph owner functions).Needs i j) :
      functions[j]?.any (·.isEntryPoint) = false := by
    obtain ⟨f, g, hf, hg, hcall⟩ := needs_iff.mp hij
    rw [hg, Option.any_some, Bool.eq_false_iff]
    intro he
    rw [hentry g (List.mem_of_getElem? hg) he] at hcall
    exact hmain f (List.mem_of_getElem? hf) hcall
  rw [NeedGraph.walk, visitRoots, List.map_append] at hw
  obtain ⟨p, hothers, hentries⟩ := NeedGraph.visitAll_append_cases hw
  obtain ⟨after, hafter⟩ : p.order <+: order := NeedGraph.order_prefix_of_visitAll hentries
  obtain ⟨ms, hms, hadvances⟩ := NeedGraph.visitAll_ok_of NeedGraph.visit_ok hothers
    NeedGraph.visiting_start
  obtain rfl := List.map_injective_iff.mpr (fun a b => Except.ok.inj) hms
  refine ⟨p.order, after, hafter.symm, fun i hi => ?_, fun i hi => ?_⟩
  · rcases hadvances.reached i hi with hi | ⟨n, hn, hreach⟩
    · cases hi
    · cases hreach with
      | refl => simpa using (List.mem_filter.mp hn).2
      | tail _ hij => exact hcalled _ i hij
  · -- All other functions are finished with the first roots, and no function is finished twice.
    obtain ⟨hsorted, hperm⟩ := sorted_of_functionOrder h
    have hnodup := hsorted.nodup
    rw [← hafter] at hnodup hperm
    have hlt := hperm.mem_iff.mp (List.mem_append_right _ hi)
    by_contra hother
    refine (List.nodup_append.mp hnodup).2.2 i (hadvances.finished i ?_) i hi rfl
    exact List.mem_filter.mpr ⟨hlt, by simpa using hother⟩

end Positions

theorem filterMap_getElem? {α : Type} {as : List α} {order : List Nat}
    (h : ∀ i ∈ order, i < as.length) (i : Nat) :
    (order.filterMap (as[·]?))[i]? = order[i]?.bind (as[·]?) := by
  induction order generalizing i with
  | nil => rfl
  | cons k order ih =>
      rw [List.forall_mem_cons] at h
      rw [List.filterMap_cons_some (List.getElem?_eq_getElem h.1)]
      cases i with
      | zero => exact (List.getElem?_eq_getElem h.1).symm
      | succ i => exact ih h.2 i

theorem filterMap_range {α : Type} (as : List α) :
    (List.range as.length).filterMap (as[·]?) = as := by
  refine List.ext_getElem? fun i => ?_
  rw [filterMap_getElem? fun i hi => List.mem_range.mp hi]
  by_cases hi : i < as.length
  · rw [List.getElem?_range hi, Option.bind_some]
  · rw [List.getElem?_eq_none (by simpa using hi), List.getElem?_eq_none (by simpa using hi)]
    rfl

theorem calleesFirst_of_sorted {owner : String} {functions : List ShaderFunction}
    {order : List Nat} (h : (functionGraph owner functions).Sorted order)
    (hlt : ∀ i ∈ order, i < functions.length) :
    CalleesFirst (order.filterMap (functions[·]?)) := by
  intro i j f g hf hg hcall
  rw [filterMap_getElem? hlt] at hf hg
  obtain ⟨a, ha, hf⟩ := Option.bind_eq_some_iff.mp hf
  obtain ⟨b, hb, hg⟩ := Option.bind_eq_some_iff.mp hg
  obtain ⟨hi, hai⟩ := List.getElem?_eq_some_iff.mp ha
  have hsplit : order = order.take i ++ a :: order.drop (i + 1) := by
    rw [← hai, ← List.drop_eq_getElem_cons, List.take_append_drop]
  obtain ⟨ns, hns, hbefore⟩ := h.split hsplit
  obtain ⟨ns', hns', hmem⟩ := needs_iff.mpr ⟨f, g, hf, hg, hcall⟩
  obtain rfl := Except.ok.inj (hns.symm.trans hns')
  obtain ⟨m, hm, hbm⟩ := hbefore _ hmem
  obtain rfl := Except.ok.inj hbm
  obtain ⟨k, hk⟩ := List.mem_iff_getElem?.mp hm
  obtain ⟨hki, hkb⟩ : k < i ∧ order[k]? = some b := by
    simpa [List.getElem?_take] using hk
  have hjk : j = k :=
    (List.getElem?_inj (List.getElem?_eq_some_iff.mp hb).1 h.nodup).mp (hb.trans hkb.symm)
  rwa [hjk]

theorem orderFunctions_ok_iff {owner : String} {functions : List ShaderFunction} :
    (∃ ordered, orderFunctions owner functions = .ok ordered) ↔ Orderable functions := by
  constructor
  · rintro ⟨ordered, h⟩
    obtain ⟨order, horder, -⟩ := exists_of_map_ok h
    exact orderable_of_functionOrder horder
  · intro h
    obtain ⟨order, horder⟩ := functionOrder_ok_of_orderable owner h
    exact ⟨_, by rw [orderFunctions, horder]; rfl⟩

theorem orderFunctions_spec {owner : String} {functions ordered : List ShaderFunction}
    (h : orderFunctions owner functions = .ok ordered) :
    ordered.Perm functions ∧ CalleesFirst ordered := by
  obtain ⟨order, horder, rfl⟩ := exists_of_map_ok h
  obtain ⟨hsorted, hperm⟩ := sorted_of_functionOrder horder
  refine ⟨?_, calleesFirst_of_sorted hsorted fun i hi => List.mem_range.mp (hperm.mem_iff.mp hi)⟩
  calc (order.filterMap (functions[·]?)).Perm
        ((List.range functions.length).filterMap (functions[·]?)) := hperm.filterMap _
    _ = functions := filterMap_range functions

theorem entriesLast_of_orderFunctions {owner : String} {functions ordered : List ShaderFunction}
    (hentry : ∀ f ∈ functions, f.isEntryPoint = true → f.name = "main")
    (h : orderFunctions owner functions = .ok ordered) : EntriesLast ordered := by
  obtain ⟨order, horder, rfl⟩ := exists_of_map_ok h
  obtain ⟨before, after, rfl, hbefore, hafter⟩ := split_functionOrder hentry horder
  refine ⟨_, _, List.filterMap_append, fun f hf => ?_, fun f hf => ?_⟩
  · obtain ⟨i, hi, hf⟩ := List.mem_filterMap.mp hf
    simpa [hf] using hbefore i hi
  · obtain ⟨i, hi, hf⟩ := List.mem_filterMap.mp hf
    simpa [hf] using hafter i hi

end ShaderCompiler
