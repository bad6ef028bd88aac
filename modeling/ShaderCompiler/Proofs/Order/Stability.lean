import ShaderCompiler.Proofs.Order.CalleesFirst

namespace ShaderCompiler

open Relation

namespace NeedGraph

variable {κ ε : Type} [DecidableEq κ] {g : NeedGraph κ ε}

theorem visitAll_append {fuel : Nat} {ns ms : List (Except ε κ)} {p q : Progress κ}
    (h : g.visitAll fuel ns p = (.ok (), q)) :
    g.visitAll fuel (ns ++ ms) p = g.visitAll fuel ms q := by
  induction ns generalizing p with
  | nil =>
      cases h
      rfl
  | cons n ns ih =>
      obtain ⟨m, r, rfl, hm, hrest⟩ := visitAll_cons_cases h
      rw [List.cons_append, visitAll_cons_ok g hm]
      exact ih hrest

theorem visitAll_finished {fuel : Nat} {ns : List (Except ε κ)} {p : Progress κ}
    (h : ∀ n ∈ ns, ∃ m ∈ p.order, n = .ok m) : g.visitAll (fuel + 1) ns p = (.ok (), p) := by
  induction ns with
  | nil => rfl
  | cons n ns ih =>
      rw [List.forall_mem_cons] at h
      obtain ⟨⟨m, hm, rfl⟩, hns⟩ := h
      rw [visitAll_cons_ok g (visit_finished g hm)]
      exact ih hns

theorem visit_ready {fuel : Nat} {k : κ} {ns : List (Except ε κ)} {p : Progress κ}
    (hp : g.Visiting [] p) (hk : k ∉ p.order) (hn : g.needs k = .ok ns)
    (hns : ∀ n ∈ ns, ∃ m ∈ p.order, n = .ok m) :
    g.visit (fuel + 2) k p = (.ok (), (p.enter k).finish k) := by
  have he : k ∉ p.entered := by
    intro he
    rcases (hp.entered k).mp he with hpath | ho
    · cases hpath
    · exact hk ho
  have hneeded : g.visitAll (fuel + 1) ns (p.enter k) = (.ok (), p.enter k) :=
    visitAll_finished hns
  rw [visit_fresh g hk he hn, walk_bind_ok hneeded]
  rfl

/-- Nodes in sorted order are finished one after another, each as soon as it is visited. -/
theorem walk_sorted {order : List κ} (h : g.Sorted order) {fuel : Nat}
    (hfuel : order.length < fuel) :
    ∃ entered, g.walk fuel (order.map .ok) = (.ok (), ⟨entered, order⟩) := by
  induction h with
  | nil => exact ⟨[], rfl⟩
  | @snoc order k ns ho hk hn hns ih =>
      rw [List.length_append, List.length_singleton] at hfuel
      obtain ⟨entered, hw⟩ := ih (by omega)
      obtain ⟨fuel, rfl⟩ : ∃ n, fuel = n + 2 := ⟨fuel - 2, by omega⟩
      have hvisiting := (visitAll_ok_of visit_ok hw visiting_start).choose_spec.2.visiting
      have hvisit : g.visit (fuel + 2) k ⟨entered, order⟩ = (.ok (), _) :=
        visit_ready hvisiting hk hn hns
      refine ⟨k :: entered, ?_⟩
      calc g.walk (fuel + 2) ((order ++ [k]).map .ok)
          = g.visitAll (fuel + 2) (order.map .ok ++ [.ok k]) {} := by rw [List.map_append]; rfl
        _ = g.visitAll (fuel + 2) [.ok k] ⟨entered, order⟩ := visitAll_append hw
        _ = (.ok (), ⟨k :: entered, order ++ [k]⟩) := visitAll_cons_ok g hvisit []

end NeedGraph

/-- The functions call each other in a cycle, or one calls itself. -/
def Recursive (functions : List ShaderFunction) : Prop :=
  ∃ f ∈ functions, TransGen (CallsIn functions) f f

section

variable {owner : String} {functions : List ShaderFunction}

theorem orderable_iff (hmain : ∀ f ∈ functions, "main" ∉ f.calls) :
    Orderable functions ↔ ¬ Recursive functions := by
  constructor
  · rintro h ⟨f, hf, hcycle⟩
    exact h.acyclic f hf hcycle
  · intro h
    exact ⟨hmain, fun f hf hcycle => h ⟨f, hf, hcycle⟩⟩

theorem orderFunctions_recursion_iff (hmain : ∀ f ∈ functions, "main" ∉ f.calls) :
    (∃ d, orderFunctions owner functions = .error d ∧ d.construct? = some .recursion) ↔
      Recursive functions := by
  constructor
  · rintro ⟨d, h, -⟩
    by_contra hacyclic
    obtain ⟨order, horder⟩ :=
      functionOrder_ok_of_orderable owner ((orderable_iff hmain).mpr hacyclic)
    rw [orderFunctions, horder] at h
    cases h
  · intro hcyclic
    cases horder : functionOrder owner functions with
    | ok order =>
        have h := orderable_of_functionOrder horder
        exact absurd hcyclic ((orderable_iff hmain).mp h)
    | error d =>
        refine ⟨d, by rw [orderFunctions, horder]; rfl, ?_⟩
        rcases functionOrder_eq_error horder with ⟨f, hf, hcall, -⟩ | ⟨f, -, -, rfl⟩
        · exact absurd hcall (hmain f hf)
        · rfl

theorem sorted_range (h : CalleesFirst functions) {n : Nat} (hn : n ≤ functions.length) :
    (functionGraph owner functions).Sorted (List.range n) := by
  induction n with
  | zero => exact .nil
  | succ n ih =>
      rw [List.range_succ]
      have hf : functions[n]? = some functions[n] := List.getElem?_eq_getElem hn
      have hneeds : (functionGraph owner functions).needs n =
          .ok ((functions[n].calls.flatMap (positionsOf functions)).map .ok) := by
        simp [functionGraph, hf]
      refine .snoc (ih (by omega)) (by simp) hneeds ?_
      intro m hm
      obtain ⟨j, hj, rfl⟩ := List.mem_map.mp hm
      obtain ⟨name, hname, hj⟩ := List.mem_flatMap.mp hj
      obtain ⟨g, hg, rfl⟩ := mem_positionsOf.mp hj
      exact ⟨j, List.mem_range.mpr (h n j _ g hf hg hname), rfl⟩

theorem visitRoots_eq_range (h : EntriesLast functions) :
    visitRoots functions = List.range functions.length := by
  obtain ⟨others, entries, rfl, hothers, hentries⟩ := h
  have hfront : ∀ i ∈ List.range others.length,
      (others ++ entries)[i]?.any (·.isEntryPoint) = false := by
    intro i hi
    have hi := List.mem_range.mp hi
    rw [List.getElem?_append_left hi, List.getElem?_eq_getElem hi, Option.any_some]
    exact hothers _ (List.getElem_mem hi)
  have hback : ∀ i ∈ (List.range entries.length).map (others.length + ·),
      (others ++ entries)[i]?.any (·.isEntryPoint) = true := by
    intro i hi
    obtain ⟨j, hj, rfl⟩ := List.mem_map.mp hi
    have hj := List.mem_range.mp hj
    rw [List.getElem?_append_right (by omega), Nat.add_sub_cancel_left,
      List.getElem?_eq_getElem hj, Option.any_some]
    exact hentries _ (List.getElem_mem hj)
  rw [visitRoots, List.length_append, List.range_add]
  simp only [List.filter_append]
  rw [List.filter_eq_self.mpr fun i hi => by rw [hfront i hi]; rfl,
    List.filter_eq_nil_iff.mpr fun i hi => by simp [hback i hi],
    List.filter_eq_nil_iff.mpr fun i hi => by simp [hfront i hi],
    List.filter_eq_self.mpr hback, List.append_nil, List.nil_append]

/-- A list that has its callees first and its entry points last keeps its order. -/
theorem orderFunctions_eq_self (hmain : ∀ f ∈ functions, "main" ∉ f.calls)
    (hcallees : CalleesFirst functions) (hentries : EntriesLast functions) :
    orderFunctions owner functions = .ok functions := by
  have hfind : functions.find? (·.calls.contains "main") = none := by
    refine List.find?_eq_none.mpr fun f hf => ?_
    simpa using hmain f hf
  have hsorted : (functionGraph owner functions).Sorted (List.range functions.length) :=
    sorted_range hcallees (Nat.le_refl _)
  have hfuel : (List.range functions.length).length < functions.length + 1 := by simp
  obtain ⟨entered, hw⟩ := NeedGraph.walk_sorted hsorted hfuel
  have horder : functionOrder owner functions = .ok (List.range functions.length) := by
    rw [functionOrder, hfind, visitRoots_eq_range hentries]
    dsimp only
    rw [hw]
    rfl
  rw [orderFunctions, horder]
  exact congrArg Except.ok (filterMap_range functions)

end

/-- Where the entry points are the functions called `main` and no function calls them, functions are
refused for recursion exactly if they call each other in a cycle. Otherwise they are put into an
order with callees first and entry points last, and functions in such an order stay where they
are. -/
theorem orderFunctions_exact (owner : String) (functions : List ShaderFunction)
    (hentry : ∀ f ∈ functions, f.isEntryPoint = true ↔ f.name = "main")
    (hmain : ∀ f ∈ functions, "main" ∉ f.calls) :
    ((∃ d, orderFunctions owner functions = .error d ∧ d.construct? = some .recursion) ↔
        Recursive functions) ∧
      (¬ Recursive functions → ∃ ordered, orderFunctions owner functions = .ok ordered ∧
        ordered.Perm functions ∧ CalleesFirst ordered ∧ EntriesLast ordered ∧
        orderFunctions owner ordered = .ok ordered) ∧
      (CalleesFirst functions → EntriesLast functions →
        orderFunctions owner functions = .ok functions) := by
  refine ⟨orderFunctions_recursion_iff hmain, fun hacyclic => ?_, orderFunctions_eq_self hmain⟩
  obtain ⟨ordered, hok⟩ := orderFunctions_ok_iff.mpr ((orderable_iff hmain).mpr hacyclic)
  obtain ⟨hperm, hcallees⟩ := orderFunctions_spec hok
  have hentries := entriesLast_of_orderFunctions (fun f hf => (hentry f hf).mp) hok
  refine ⟨ordered, hok, hperm, hcallees, hentries, ?_⟩
  exact orderFunctions_eq_self (fun f hf => hmain f (hperm.mem_iff.mp hf)) hcallees hentries

def calling (name : String) (calls : List String) : ShaderFunction where
  name := name
  isEntryPoint := name == "main"
  arity := 0
  calls := calls

/-- Overloads of a name are callees together, and functions that call each other are refused. -/
theorem orderFunctions_shadeFunctions :
    (∃ ordered,
      ordered.map (·.name) = ["fresnel", "fresnel", "shade", "unused", "main"] ∧
      orderFunctions "T" [calling "main" ["shade"], calling "shade" ["fresnel"],
        calling "fresnel" [], calling "unused" [], calling "fresnel" []] = .ok ordered ∧
      CalleesFirst ordered ∧ EntriesLast ordered ∧ orderFunctions "T" ordered = .ok ordered) ∧
    Recursive [calling "a" ["b"], calling "b" ["a"], calling "main" ["a"]] := by
  constructor
  · have hnames : (orderFunctions "T" [calling "main" ["shade"], calling "shade" ["fresnel"],
        calling "fresnel" [], calling "unused" [], calling "fresnel" []]).map
          (List.map (·.name)) = .ok ["fresnel", "fresnel", "shade", "unused", "main"] := by
      decide
    obtain ⟨ordered, hok, hnames⟩ := exists_of_map_ok hnames
    obtain ⟨hrecursion, hordered, -⟩ := orderFunctions_exact "T" [calling "main" ["shade"],
      calling "shade" ["fresnel"], calling "fresnel" [], calling "unused" [],
      calling "fresnel" []] (by decide) (by decide)
    have hacyclic := mt hrecursion.mpr (by rintro ⟨d, h, -⟩; rw [hok] at h; cases h)
    obtain ⟨ordered', hok', -, hcallees, hentries, hagain⟩ := hordered hacyclic
    obtain rfl := Except.ok.inj (hok.symm.trans hok')
    exact ⟨ordered, hnames, hok, hcallees, hentries, hagain⟩
  · apply (orderFunctions_exact "T" [calling "a" ["b"], calling "b" ["a"],
      calling "main" ["a"]] (by decide) (by decide)).1.mp
    exact ⟨.unsupported .recursion (.cycle "T" "a"), by decide, rfl⟩

end ShaderCompiler
