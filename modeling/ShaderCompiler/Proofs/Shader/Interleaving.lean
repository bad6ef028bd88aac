import Mathlib.Data.List.Count
import ShaderCompiler.Proofs.Association
import ShaderCompiler.Proofs.Sequencing
import ShaderCompiler.Session

namespace ShaderCompiler

/-- The form in which a tally keeps a number. -/
def stored (n : Nat) : Option Nat := if n = 0 then none else some n

theorem stored_succ (n : Nat) : stored (n + 1) = some (n + 1) := rfl

theorem getD_stored (n : Nat) : (stored n).getD 0 = n := by
  rw [stored]
  split
  · next hn => rw [hn, Option.getD_none]
  · rw [Option.getD_some]

theorem Tally.lookup_set_self (t : Tally) (name : String) (n : Nat) :
    (t.set name n).lookup name = stored n := by
  rw [set, stored]
  by_cases hn : n = 0
  · rw [if_pos hn, if_pos hn, lookup_filter_self]
  · rw [if_neg hn, if_neg hn, List.lookup_cons_self]

theorem Tally.lookup_set_of_ne (t : Tally) {name x : String} (h : x ≠ name) (n : Nat) :
    (t.set name n).lookup x = t.lookup x := by
  rw [set]
  by_cases hn : n = 0
  · rw [if_pos hn, lookup_filter_of_ne h]
  · rw [if_neg hn, lookup_cons_of_ne h, lookup_filter_of_ne h]

namespace Cache

variable {α ε : Type} {c c' : Cache α} {name : String}

theorem of_start_some {a : α} (h : c.start name = (some a, c')) :
    c.get? name = some a ∧ c' = c := by
  rw [start] at h
  split at h
  · next ha =>
      cases h
      exact ⟨ha, rfl⟩
  · cases h

theorem of_start_none (h : c.start name = (none, c')) :
    c.get? name = none ∧ c'.entries = c.entries ∧
      c'.inFlight = c.inFlight.set name ((c.inFlight.lookup name).getD 0 + 1) := by
  rw [start] at h
  split at h
  · cases h
  · next ha =>
      cases h
      exact ⟨ha, rfl, rfl⟩

theorem of_finish_error {e : ε} {answer : Except ε α}
    (h : c.finish name (.error e) = (answer, c')) :
    answer = .error e ∧ c'.entries = c.entries := by
  cases h
  exact ⟨rfl, rfl⟩

theorem of_finish_ok {a : α} {answer : Except ε α}
    (h : c.finish name (.ok a) = (answer, c')) :
    answer = .ok ((c.get? name).getD a) ∧
      c'.get? name = some ((c.get? name).getD a) ∧ ∀ x ≠ name, c'.get? x = c.get? x := by
  unfold finish at h
  cases hget : c.get? name with
  | some first =>
      simp only [hget] at h
      cases h
      exact ⟨rfl, hget, fun x _ => rfl⟩
  | none =>
      simp only [hget] at h
      cases h
      have hnone : c.entries.lookup name = none := hget
      refine ⟨rfl, ?_, fun x hx => ?_⟩
      · rw [get?, List.lookup_append, hnone, List.lookup_cons_self]
        rfl
      · rw [get?, List.lookup_append, lookup_cons_of_ne hx, List.lookup_nil, Option.or_none, get?]

theorem inFlight_of_finish {result answer : Except ε α} {n : Nat}
    (h : c.finish name result = (answer, c')) (hn : c.inFlight.lookup name = some n) :
    c'.inFlight = c.inFlight.set name (n - 1) := by
  unfold finish at h
  simp only [hn] at h
  split at h
  · cases h
    rfl
  · split at h <;> cases h <;> rfl

end Cache

/-- Clients at work on one cache. -/
structure Workshop (ι α : Type) where
  cache : Cache α := {}
  /-- The clients that found nothing and are not done, with the names of what they make. -/
  making : List (ι × String) := []

/-- What a client does: it finds a result, it finds none and goes on to make it, or it is done with
a result of its own and is given an answer. -/
inductive CacheEvent (ι α ε : Type) where
  | hit (client : ι) (name : String) (value : α)
  | miss (client : ι) (name : String)
  | done (client : ι) (name : String) (result answer : Except ε α)

namespace CacheEvent

variable {ι α ε : Type}

def Gives : CacheEvent ι α ε → String → α → Prop
  | hit _ name a, x, b => name = x ∧ a = b
  | miss _ _, _, _ => False
  | done _ name _ answer, x, b => name = x ∧ answer = .ok b

def isMiss (name : String) : CacheEvent ι α ε → Bool
  | miss _ x => x == name
  | _ => false

def isDone (name : String) : CacheEvent ι α ε → Bool
  | done _ x _ _ => x == name
  | _ => false

end CacheEvent

theorem Session.getOrCompile_of_get? {s : Session} {c : ClassDecl} {shader : CompiledShader}
    (h : s.cache.get? c.name = some shader) :
    s.getOrCompile c = (.ok (.memory, shader), s) := by
  rw [Session.getOrCompile, Cache.getOrMake, Cache.start, h]
  rfl

namespace Workshop

variable {ι α ε : Type}

def pending (w : Workshop ι α) (name : String) : Nat := w.making.countP (·.2 == name)

variable {w : Workshop ι α}

theorem pending_pos {i : ι} {name : String} (h : (i, name) ∈ w.making) : 0 < w.pending name :=
  List.countP_pos_iff.mpr ⟨(i, name), h, beq_self_eq_true name⟩

theorem pending_cons_self (w : Workshop ι α) (i : ι) (name : String) (c : Cache α) :
    pending ⟨c, (i, name) :: w.making⟩ name = w.pending name + 1 :=
  List.countP_cons_of_pos (beq_self_eq_true name)

theorem pending_cons_of_ne (w : Workshop ι α) (i : ι) {name x : String} (h : x ≠ name)
    (c : Cache α) : pending ⟨c, (i, name) :: w.making⟩ x = w.pending x :=
  List.countP_cons_of_neg (by simpa using h.symm)

def Counted (w : Workshop ι α) : Prop :=
  ∀ name, w.cache.inFlight.lookup name = stored (w.pending name)

theorem counted_start : ({} : Workshop ι α).Counted := fun _ => rfl

theorem Counted.lookup_of_mem {i : ι} {name : String} (hw : w.Counted)
    (h : (i, name) ∈ w.making) : w.cache.inFlight.lookup name = some (w.pending name) := by
  obtain ⟨n, hn⟩ := Nat.exists_eq_add_one.mpr (pending_pos h)
  rw [hw name, hn, stored_succ]

theorem state_of_counted (h : w.Counted) (name : String) :
    w.cache.state name =
      if (w.cache.get? name).isSome then .cached
      else if 0 < w.pending name then .compiling else .absent := by
  have hcount : (w.cache.inFlight.lookup name).isSome = decide (0 < w.pending name) := by
    rw [h name, stored]
    by_cases hp : w.pending name = 0
    · simp [hp]
    · simp [hp, Nat.pos_of_ne_zero hp]
  rw [Cache.state, hcount]
  simp only [decide_eq_true_eq]

variable [DecidableEq ι]

theorem pending_erase_self {i : ι} {name : String} (h : (i, name) ∈ w.making) (c : Cache α) :
    pending ⟨c, w.making.erase (i, name)⟩ name = w.pending name - 1 := by
  rw [pending, List.countP_erase, if_pos ⟨h, beq_self_eq_true name⟩, pending]

theorem pending_erase_of_ne {i : ι} {name x : String} (h : x ≠ name) (c : Cache α) :
    pending ⟨c, w.making.erase (i, name)⟩ x = w.pending x := by
  have hx : ¬((i, name) ∈ w.making ∧ (name == x) = true) := by
    rintro ⟨-, he⟩
    exact h (beq_iff_eq.mp he).symm
  rw [pending, List.countP_erase, if_neg hx, Nat.sub_zero, pending]

/-- One step of one client. A client that is making something does not look for anything else. -/
inductive Step : Workshop ι α → CacheEvent ι α ε → Workshop ι α → Prop
  | hit {w : Workshop ι α} {i : ι} {name : String} {a : α} {c : Cache α}
      (idle : w.making.lookup i = none) (h : w.cache.start name = (some a, c)) :
      Step w (.hit i name a) ⟨c, w.making⟩
  | miss {w : Workshop ι α} {i : ι} {name : String} {c : Cache α}
      (idle : w.making.lookup i = none) (h : w.cache.start name = (none, c)) :
      Step w (.miss i name) ⟨c, (i, name) :: w.making⟩
  | done {w : Workshop ι α} {i : ι} {name : String} {result answer : Except ε α} {c : Cache α}
      (busy : (i, name) ∈ w.making) (h : w.cache.finish name result = (answer, c)) :
      Step w (.done i name result answer) ⟨c, w.making.erase (i, name)⟩

inductive Run : Workshop ι α → List (CacheEvent ι α ε) → Workshop ι α → Prop
  | nil (w : Workshop ι α) : Run w [] w
  | snoc {w w' w'' : Workshop ι α} {trace : List (CacheEvent ι α ε)} {e : CacheEvent ι α ε}
      (h : Run w trace w') (hs : Step w' e w'') : Run w (trace ++ [e]) w''

variable {w' : Workshop ι α} {e : CacheEvent ι α ε} {trace : List (CacheEvent ι α ε)}

theorem Step.counted (h : Step w e w') (hw : w.Counted) : w'.Counted := by
  cases h with
  | hit _ h =>
      obtain ⟨-, rfl⟩ := Cache.of_start_some h
      exact hw
  | @miss i name c _ h =>
      obtain ⟨-, -, hinFlight⟩ := Cache.of_start_none h
      intro x
      rw [hinFlight, hw name, getD_stored]
      by_cases hx : x = name
      · rw [hx, Tally.lookup_set_self, pending_cons_self]
      · rw [Tally.lookup_set_of_ne _ hx, pending_cons_of_ne w i hx, hw x]
  | @done i name result answer c busy h =>
      have hinFlight := Cache.inFlight_of_finish h (hw.lookup_of_mem busy)
      intro x
      rw [hinFlight]
      by_cases hx : x = name
      · rw [hx, Tally.lookup_set_self, pending_erase_self busy]
      · rw [Tally.lookup_set_of_ne _ hx, pending_erase_of_ne hx, hw x]

theorem Step.keeps (h : Step w e w') {name : String} {a : α}
    (ha : w.cache.get? name = some a) : w'.cache.get? name = some a := by
  cases h with
  | hit _ h =>
      obtain ⟨-, rfl⟩ := Cache.of_start_some h
      exact ha
  | miss _ h =>
      obtain ⟨-, hentries, -⟩ := Cache.of_start_none h
      rw [Cache.get?, hentries]
      exact ha
  | @done i x result answer c _ h =>
      cases result with
      | error e =>
          obtain ⟨-, hentries⟩ := Cache.of_finish_error h
          rw [Cache.get?, hentries]
          exact ha
      | ok b =>
          obtain ⟨-, hself, hother⟩ := Cache.of_finish_ok h
          by_cases hx : name = x
          · rw [hx] at ha ⊢
            rw [hself, ha, Option.getD_some]
          · rw [hother name hx, ha]

theorem Step.get?_of_gives (h : Step w e w') {name : String} {a : α} (hg : e.Gives name a) :
    w'.cache.get? name = some a := by
  cases h with
  | hit _ h =>
      obtain ⟨rfl, rfl⟩ := hg
      obtain ⟨ha, rfl⟩ := Cache.of_start_some h
      exact ha
  | miss => cases hg
  | @done i x result answer c _ h =>
      obtain ⟨rfl, rfl⟩ := hg
      cases result with
      | error e => cases (Cache.of_finish_error h).1
      | ok b =>
          obtain ⟨hanswer, hself, -⟩ := Cache.of_finish_ok h
          rw [hself, Except.ok.inj hanswer]

theorem Step.balance (h : Step w e w') (name : String) :
    [e].countP (CacheEvent.isDone name) + w'.pending name =
      [e].countP (CacheEvent.isMiss name) + w.pending name := by
  cases h with
  | hit => rfl
  | @miss i x c =>
      by_cases hx : name = x
      · rw [hx, pending_cons_self]
        simp [CacheEvent.isDone, CacheEvent.isMiss, Nat.add_comm]
      · rw [pending_cons_of_ne w i hx]
        simp [CacheEvent.isDone, CacheEvent.isMiss, Ne.symm hx]
  | @done i x result answer c busy =>
      by_cases hx : name = x
      · have hpos := pending_pos busy
        rw [hx, pending_erase_self busy]
        simp only [List.countP_singleton, CacheEvent.isDone, CacheEvent.isMiss, beq_self_eq_true,
          if_true, Bool.false_eq_true, if_false]
        omega
      · rw [pending_erase_of_ne hx]
        simp [CacheEvent.isDone, CacheEvent.isMiss, Ne.symm hx]

theorem Run.counted (h : Run w trace w') (hw : w.Counted) : w'.Counted := by
  induction h with
  | nil => exact hw
  | snoc _ hs ih => exact hs.counted ih

theorem Run.keeps (h : Run w trace w') {name : String} {a : α}
    (ha : w.cache.get? name = some a) : w'.cache.get? name = some a := by
  induction h with
  | nil => exact ha
  | snoc _ hs ih => exact hs.keeps ih

theorem Run.get?_of_gives (h : Run w trace w') : ∀ e ∈ trace, ∀ name a, e.Gives name a →
    w'.cache.get? name = some a := by
  induction h with
  | nil => exact nofun
  | snoc _ hs ih =>
      intro e he name a hg
      rcases List.mem_append.mp he with he | he
      · exact hs.keeps (ih e he name a hg)
      · obtain rfl := List.mem_singleton.mp he
        exact hs.get?_of_gives hg

theorem Run.balance (h : Run w trace w') (name : String) :
    trace.countP (CacheEvent.isDone name) + w'.pending name =
      trace.countP (CacheEvent.isMiss name) + w.pending name := by
  induction h with
  | nil => rfl
  | snoc _ hs ih =>
      have hstep := hs.balance name
      rw [List.countP_append, List.countP_append]
      omega

theorem not_miss_of_get? {i : ι} {name : String} {a : α} (ha : w.cache.get? name = some a) :
    ¬ Step w (.miss i name : CacheEvent ι α ε) w' := by
  intro hs
  cases hs with
  | miss _ hm =>
      rw [(Cache.of_start_none hm).1] at ha
      cases ha

theorem of_hit {i : ι} {name : String} {a b : α} (ha : w.cache.get? name = some a)
    (hs : Step w (.hit i name b : CacheEvent ι α ε) w') : b = a ∧ w' = w := by
  cases hs with
  | hit _ hh =>
      obtain ⟨hb, rfl⟩ := Cache.of_start_some hh
      exact ⟨Option.some.inj (hb.symm.trans ha), rfl⟩

/-- Looking for a result and making it if there is none are the steps of one idle client. -/
theorem exists_run_getOrMake (w : Workshop ι α) {i : ι} (idle : w.making.lookup i = none)
    (name : String) (make : Unit → Except ε α) :
    ∃ trace : List (CacheEvent ι α ε),
      Run w trace ⟨(w.cache.getOrMake name make).2, w.making⟩ ∧
        ∀ source a, (w.cache.getOrMake name make).1 = .ok (source, a) →
          ∃ e ∈ trace, e.Gives name a := by
  unfold Cache.getOrMake
  match hs : w.cache.start name with
  | (some a, c) =>
      refine ⟨[.hit i name a], (Run.nil w).snoc (.hit idle hs), ?_⟩
      rintro source b ⟨⟩
      exact ⟨_, List.mem_singleton_self _, rfl, rfl⟩
  | (none, c) =>
      have hfinish : c.finish name (make ()) =
          ((c.finish name (make ())).1, (c.finish name (make ())).2) := rfl
      have hmiss : Run w ([.miss i name] : List (CacheEvent ι α ε)) ⟨c, (i, name) :: w.making⟩ :=
        (Run.nil w).snoc (.miss idle hs)
      have hrun := hmiss.snoc (.done List.mem_cons_self hfinish)
      rw [List.erase_cons_head] at hrun
      refine ⟨_, hrun, ?_⟩
      intro source a ha
      obtain ⟨b, hb, he⟩ := exists_of_map_ok ha
      cases he
      exact ⟨_, List.mem_append_right _ (List.mem_singleton_self _), rfl, hb⟩

/-- What holds of a cache after every run. -/
structure Safe (trace : List (CacheEvent ι α ε)) (w : Workshop ι α) : Prop where
  pending : ∀ name, trace.countP (CacheEvent.isMiss name) =
    trace.countP (CacheEvent.isDone name) + w.pending name
  count : ∀ name, w.cache.inFlight.lookup name =
    if w.pending name = 0 then none else some (w.pending name)
  positive : ∀ i name, (i, name) ∈ w.making → ∃ n, w.cache.inFlight.lookup name = some (n + 1)
  state : ∀ name, w.cache.state name =
    if (w.cache.get? name).isSome then .cached
    else if 0 < w.pending name then .compiling else .absent
  given : ∀ e ∈ trace, ∀ name a, e.Gives name a → w.cache.get? name = some a
  kept : ∀ name a, w.cache.get? name = some a →
    ∀ (more : List (CacheEvent ι α ε)) (w' : Workshop ι α), Run w more w' →
      w'.cache.get? name = some a ∧ ∀ e ∈ more, ∀ b, e.Gives name b → b = a
  failure : ∀ i name (d : ε) answer w', Step w (.done i name (.error d) answer) w' →
    answer = .error d ∧ w'.cache.entries = w.cache.entries
  success : ∀ i name a (answer : Except ε α) w', Step w (.done i name (.ok a) answer) w' →
    answer = .ok ((w.cache.get? name).getD a)
  found : ∀ i name a, w.cache.get? name = some a →
    (∀ w', ¬ Step w (.miss i name : CacheEvent ι α ε) w') ∧
      ∀ b w', Step w (.hit i name b : CacheEvent ι α ε) w' → b = a ∧ w' = w
  lookup : ∀ i, w.making.lookup i = none → ∀ name (make : Unit → Except ε α),
    ∃ more : List (CacheEvent ι α ε), Run w more ⟨(w.cache.getOrMake name make).2, w.making⟩ ∧
      ∀ source a, (w.cache.getOrMake name make).1 = .ok (source, a) → ∃ e ∈ more, e.Gives name a

/-- After any steps of any clients the cache is safe. A lookup that finds an entry leaves the whole
session as it is, its count of the work included. -/
theorem safe_of_run (h : Run {} trace w) :
    Safe trace w ∧ ∀ (s : Session) (c : ClassDecl) (shader : CompiledShader),
      s.cache.get? c.name = some shader → s.getOrCompile c = (.ok (.memory, shader), s) := by
  have hcounted := h.counted counted_start
  refine ⟨?_, ?_⟩
  · constructor
    case pending =>
      intro name
      have hbalance := h.balance name
      rw [hbalance]
      rfl
    case count => exact hcounted
    case positive =>
      intro i name hi
      obtain ⟨n, hn⟩ := Nat.exists_eq_add_one.mpr (pending_pos hi)
      exact ⟨n, by rw [hcounted.lookup_of_mem hi, hn]⟩
    case state => exact state_of_counted hcounted
    case given => exact h.get?_of_gives
    case kept =>
      intro name a ha more w' hmore
      have ha' := hmore.keeps ha
      refine ⟨ha', fun e he b hg => ?_⟩
      rw [hmore.get?_of_gives e he name b hg] at ha'
      exact Option.some.inj ha'
    case failure =>
      intro i name d answer w' hs
      cases hs with
      | done _ hf => exact Cache.of_finish_error hf
    case success =>
      intro i name a answer w' hs
      cases hs with
      | done _ hf => exact (Cache.of_finish_ok hf).1
    case found => exact fun i name a ha => ⟨fun w' => not_miss_of_get? ha, fun b w' => of_hit ha⟩
    case lookup => exact fun i idle name make => exists_run_getOrMake w idle name make
  · exact fun s c shader hs => Session.getOrCompile_of_get? hs

/-- Three clients find nothing. One fails, and the other two are given what the first of them made,
and so is a client that comes later. -/
def sharedTrace : List (CacheEvent Nat String String) :=
  [.miss 0 "Lit", .miss 1 "Lit", .miss 2 "Lit", .done 1 "Lit" (.error "no body") (.error "no body"),
   .done 2 "Lit" (.ok "first") (.ok "first"), .done 0 "Lit" (.ok "second") (.ok "first"),
   .hit 1 "Lit" "first"]

def litShader : CompiledShader where
  name := "Lit"
  stage := .fragment
  reflection := ⟨⟨"Lit", .fragment, "450", false, [], .none⟩, {}⟩
  declarations := ""
  functions := []
  dependencies := []

theorem safe_sharedTrace :
    (∃ w, Run {} sharedTrace w ∧ w.cache.entries = [("Lit", "first")] ∧ Safe sharedTrace w) ∧
      ∃ s : Session, s.cache.get? "Lit" = some litShader ∧
        s.getOrCompile { name := "Lit", kind := .library } = (.ok (.memory, litShader), s) := by
  have h₁ : Run {} (sharedTrace.take 3) ⟨⟨[], [("Lit", 3)]⟩, [(2, "Lit"), (1, "Lit"), (0, "Lit")]⟩ :=
    (((Run.nil _).snoc (.miss rfl rfl)).snoc (.miss rfl rfl)).snoc (.miss rfl rfl)
  have h₂ : Run {} (sharedTrace.take 5) ⟨⟨[("Lit", "first")], [("Lit", 1)]⟩, [(0, "Lit")]⟩ :=
    (h₁.snoc (.done (by decide) rfl)).snoc (.done (by decide) rfl)
  have h₃ : Run {} sharedTrace ⟨⟨[("Lit", "first")], []⟩, []⟩ :=
    (h₂.snoc (.done (by decide) rfl)).snoc (.hit rfl rfl)
  obtain ⟨hsafe, hlookup⟩ := safe_of_run h₃
  let s : Session := { cache := { entries := [("Lit", litShader)] } }
  exact ⟨⟨_, h₃, rfl, hsafe⟩, s, rfl, hlookup s { name := "Lit", kind := .library } litShader rfl⟩

end Workshop

end ShaderCompiler
