import Mathlib.Data.List.Induction
import ShaderCompiler.Proofs.Linker.Keeping
import ShaderCompiler.Session

namespace ShaderCompiler

namespace Effort

theorem add_assoc (a b c : Effort) : a + b + c = a + (b + c) := by
  show add (add a b) c = add a (add b c)
  simp only [add, Nat.add_assoc]

theorem foldl_add (a : Effort) (efforts : List Effort) :
    efforts.foldl add a = a + sum efforts := by
  induction efforts using List.reverseRecOn with
  | nil => rfl
  | append_singleton efforts b ih =>
      rw [sum, List.foldl_append, List.foldl_append, ih]
      exact add_assoc a (sum efforts) b

theorem sum_append (efforts more : List Effort) :
    sum (efforts ++ more) = sum efforts + sum more := by
  rw [sum, List.foldl_append, foldl_add]
  rfl

end Effort

namespace Linker

def cost (l : Linker) (key : FunctionKey) : Effort :=
  ((l.method? key).map (methodEffort ·.2)).getD {}

theorem linkEffort_eq (l : Linker) (settings : Settings) (s : CompiledShader) :
    l.linkEffort settings s = .sum ((l.attempted settings s).map l.cost) := rfl

theorem Extends.cost {l l' : Linker} (h : l.Extends l') {keys : List FunctionKey}
    (hkeys : ∀ key ∈ keys, ∃ c m, l.method? key = some (c, m)) :
    keys.map l'.cost = keys.map l.cost := by
  apply List.map_congr_left
  intro key hkey
  obtain ⟨c, m, hm⟩ := hkeys key hkey
  rw [Linker.cost, Linker.cost, hm, h.method? hm]

end Linker

namespace Session

inductive Request
  | addLibrary (c : ClassDecl)
  | link (shader : CompiledShader)
  | linkFunctions (shader : CompiledShader)

/-- The session after a request, whether it was refused or not. -/
def serve (s : Session) : Request → Session
  | .addLibrary c => (s.addLibrary c).2
  | .link shader => (s.link shader).2
  | .linkFunctions shader => (s.linkFunctions shader).2

def serveAll (s : Session) (requests : List Request) : Session := requests.foldl serve s

def attempted (s : Session) : Request → List FunctionKey
  | .addLibrary _ => []
  | .link shader | .linkFunctions shader => s.linker.attempted s.settings shader

/-- All attempts to compile a library function, in turn. -/
def history (s : Session) : List Request → List FunctionKey
  | [] => []
  | r :: requests => s.attempted r ++ (s.serve r).history requests

theorem serve_cases (s : Session) (r : Request) :
    (∃ c linker, s.linker.addLibrary c = .ok linker ∧ s.attempted r = [] ∧
      s.serve r = { s with linker }) ∨
    (s.attempted r = [] ∧ s.serve r = s) ∨
    ∃ shader, s.attempted r = s.linker.attempted s.settings shader ∧
      s.serve r = s.afterLink shader := by
  cases r with
  | addLibrary c =>
      cases hadd : s.linker.addLibrary c with
      | ok linker => exact Or.inl ⟨c, linker, hadd, rfl, by simp only [serve, addLibrary, hadd]⟩
      | error e => exact Or.inr (Or.inl ⟨rfl, by simp only [serve, addLibrary, hadd]⟩)
  | link shader => exact Or.inr (Or.inr ⟨shader, rfl, rfl⟩)
  | linkFunctions shader => exact Or.inr (Or.inr ⟨shader, rfl, rfl⟩)

/-- The state of a session after some attempts to compile library functions. -/
structure Tracks (s : Session) (past : List FunctionKey) : Prop where
  registered : s.linker.Registered
  kept : s.linker.Kept s.settings
  methods : ∀ key ∈ past, ∃ c m, s.linker.method? key = some (c, m)
  once : ∀ key f, s.linker.function s.settings key = .ok f →
    past.count key = if (s.linker.compiled.lookup key).isSome then 1 else 0
  effort : s.effort = .sum (past.map s.linker.cost)

variable {s : Session} {past : List FunctionKey}

theorem tracks_start (settings : Settings) : Tracks { settings } [] where
  registered := rfl
  kept := nofun
  methods := nofun
  once := fun _ _ _ => rfl
  effort := rfl

theorem Tracks.addLibrary (h : s.Tracks past) {c : ClassDecl} {linker : Linker}
    (hadd : s.linker.addLibrary c = .ok linker) : Tracks { s with linker } past where
  registered := h.registered.addLibrary hadd
  kept := h.kept.addLibrary hadd
  methods := by
    intro key hkey
    obtain ⟨c, m, hm⟩ := h.methods key hkey
    exact ⟨c, m, (Linker.extends_of_addLibrary hadd).method? hm⟩
  once := by
    intro key f hf
    have hext := Linker.extends_of_addLibrary hadd
    have hf' := (h.kept.addLibrary hadd).function ▸ hf
    obtain ⟨-, hnew, rfl⟩ := Linker.addLibrary_eq_ok_iff.mp hadd
    cases hm : s.linker.method? key with
    | some cm =>
        -- the library was there before, and so was the function
        apply h.once key f
        rw [← h.kept.function]
        apply Linker.function_fresh_eq_ok.mpr
        obtain ⟨c', m', hm', hc⟩ := Linker.function_fresh_eq_ok.mp hf'
        rw [hext.method? hm] at hm'
        exact ⟨c', m', hm.trans hm', hc⟩
    | none =>
        have hpast : key ∉ past := by
          intro hkey
          obtain ⟨c', m', hm'⟩ := h.methods key hkey
          rw [hm] at hm'
          cases hm'
        have hlookup : s.linker.compiled.lookup key = none := by
          cases hl : s.linker.compiled.lookup key with
          | none => rfl
          | some g =>
              obtain ⟨c', m', hm', -⟩ := Linker.function_fresh_eq_ok.mp (h.kept key g hl)
              rw [hm] at hm'
              cases hm'
        rw [List.count_eq_zero.mpr hpast]
        show 0 = if (s.linker.compiled.lookup key).isSome then 1 else 0
        rw [hlookup]
        rfl
  effort := by
    rw [(Linker.extends_of_addLibrary hadd).cost h.methods]
    exact h.effort

theorem Tracks.afterLink (h : s.Tracks past) (shader : CompiledShader) :
    (s.afterLink shader).Tracks (past ++ s.linker.attempted s.settings shader) where
  registered := h.registered
  kept := h.kept.afterLink shader
  methods := by
    intro key hkey
    rcases List.mem_append.mp hkey with hkey | hkey
    · exact h.methods key hkey
    · have hentered := (Linker.mem_attempted.mp hkey).1
      obtain ⟨c, m, hm⟩ := Linker.exists_method?_of_entered key hentered
      exact ⟨c, m, hm⟩
  once := by
    intro key f hf
    have hf : s.linker.function s.settings key = .ok f := by
      rw [← h.kept.function]
      exact (h.kept.afterLink shader).function ▸ hf
    have hnodup := s.linker.nodup_attempted s.settings shader
    rw [List.count_append, h.once key f hf]
    show _ = if ((s.linker.afterLink s.settings shader).compiled.lookup key).isSome then 1 else 0
    rw [Linker.lookup_afterLink]
    by_cases hkey : key ∈ s.linker.attempted s.settings shader
    · rw [List.count_eq_one_of_mem hnodup hkey, (Linker.mem_attempted.mp hkey).2, if_pos hkey, hf]
      rfl
    · rw [List.count_eq_zero.mpr hkey, if_neg hkey, Nat.add_zero]
  effort := by
    show s.effort + s.linker.linkEffort s.settings shader =
      .sum ((past ++ s.linker.attempted s.settings shader).map s.linker.cost)
    rw [List.map_append, Effort.sum_append, ← h.effort, Linker.linkEffort_eq]

theorem Tracks.serve (h : s.Tracks past) (r : Request) :
    (s.serve r).Tracks (past ++ s.attempted r) := by
  obtain ⟨c, linker, hadd, hnone, hserve⟩ | ⟨hnone, hserve⟩ | ⟨shader, hsome, hserve⟩ :=
    s.serve_cases r
  · rw [hnone, hserve, List.append_nil]
    exact h.addLibrary hadd
  · rw [hnone, hserve, List.append_nil]
    exact h
  · rw [hsome, hserve]
    exact h.afterLink shader

theorem Tracks.serveAll (h : s.Tracks past) (requests : List Request) :
    (s.serveAll requests).Tracks (past ++ s.history requests) := by
  induction requests generalizing s past with
  | nil =>
      rw [history, List.append_nil]
      exact h
  | cons r requests ih =>
      rw [history, ← List.append_assoc]
      exact ih (h.serve r)

/-- What a session never loses: its settings, its libraries and the functions that it keeps. -/
structure Grows (s s' : Session) : Prop where
  settings : s'.settings = s.settings
  libraries : s.linker.Extends s'.linker
  compiled : ∀ key f, s.linker.compiled.lookup key = some f →
    s'.linker.compiled.lookup key = some f

theorem grows_serve (s : Session) (r : Request) : s.Grows (s.serve r) := by
  obtain ⟨c, linker, hadd, -, hserve⟩ | ⟨-, hserve⟩ | ⟨shader, -, hserve⟩ := s.serve_cases r
  · have hext := Linker.extends_of_addLibrary hadd
    obtain ⟨-, hnew, rfl⟩ := Linker.addLibrary_eq_ok_iff.mp hadd
    rw [hserve]
    exact ⟨rfl, hext, fun _ _ h => h⟩
  · rw [hserve]
    exact ⟨rfl, .refl _, fun _ _ h => h⟩
  · rw [hserve]
    exact ⟨rfl, .refl _, fun _ _ h => Linker.lookup_afterLink_of_some h⟩

theorem grows_serveAll (s : Session) (requests : List Request) :
    s.Grows (s.serveAll requests) := by
  induction requests generalizing s with
  | nil => exact ⟨rfl, .refl _, fun _ _ h => h⟩
  | cons r requests ih =>
      have hstep := s.grows_serve r
      have hrest := ih (s.serve r)
      exact ⟨hrest.settings.trans hstep.settings, hstep.libraries.trans hrest.libraries,
        fun key f h => hrest.compiled key f (hstep.compiled key f h)⟩

theorem afterLink_of_attempted {shader : CompiledShader}
    (h : s.linker.attempted s.settings shader = []) : s.afterLink shader = s := by
  have hlinker : s.linker.afterLink s.settings shader = s.linker := by
    have hnone : ((s.linker.walk s.settings shader).2.entered.reverse.filter fun key =>
        (s.linker.compiled.lookup key).isNone) = [] := by
      rw [List.filter_reverse]
      exact congrArg List.reverse h
    unfold Linker.afterLink
    dsimp only
    rw [hnone, List.filterMap_nil, List.append_nil]
  have heffort : s.effort + s.linker.linkEffort s.settings shader = s.effort := by
    rw [Linker.linkEffort_eq, h]
    rfl
  unfold afterLink
  rw [hlinker, heffort]

theorem exists_walk_of_linked {shader : CompiledShader} {fs : List LinkedFunction}
    (h : s.linker.linked s.settings shader = .ok fs) :
    ∃ p, s.linker.walk s.settings shader = (.ok (), p) := by
  obtain ⟨d, p, -, he⟩ | ⟨p, fs', hwalk, -⟩ := Linker.linked_cases s.linker s.settings shader
  · rw [he] at h
    cases h
  · exact ⟨p, hwalk⟩

/-- After a shader was linked all that it can come to is kept, whatever is asked for later. -/
theorem attempted_eq_nil (h : s.Tracks past) {shader : CompiledShader} {fs : List LinkedFunction}
    (hlinked : s.linker.linked s.settings shader = .ok fs) (more : List Request) :
    ((s.afterLink shader).serveAll more).linker.attempted
      ((s.afterLink shader).serveAll more).settings shader = [] := by
  obtain ⟨p, hwalk⟩ := exists_walk_of_linked hlinked
  have hgrows := (s.afterLink shader).grows_serveAll more
  have hkept := ((h.afterLink shader).serveAll more).kept
  have hsettings : ((s.afterLink shader).serveAll more).settings = s.settings := hgrows.settings
  rw [hsettings] at hkept ⊢
  apply List.eq_nil_iff_forall_not_mem.mpr
  intro key hkey
  obtain ⟨hentered, hnone⟩ := Linker.mem_attempted.mp hkey
  have hclosed := (Linker.isLeast_of_walk hwalk).1
  have hmem := hclosed.entered hgrows.libraries h.kept hkept key hentered
  obtain ⟨f, hf⟩ := Linker.exists_lookup_afterLink hwalk hmem
  rw [hgrows.compiled key f hf] at hnone
  cases hnone

/-- A session that links as if it kept nothing, and whose work is that of compiling each library
function at most once. -/
structure IsTransparent (s : Session) (past : List FunctionKey) (shader : CompiledShader) :
    Prop where
  asFresh : ∃ fresh, Linker.ofClasses s.linker.libraries = .ok fresh ∧
    fresh.libraries = s.linker.libraries ∧ fresh.compiled = [] ∧
    (s.link shader).1 = ({ s with linker := fresh }.link shader).1 ∧
    (s.linkFunctions shader).1 = ({ s with linker := fresh }.linkFunctions shader).1
  once : ∀ key f, s.linker.function s.settings key = .ok f → past.count key ≤ 1
  effort : s.effort = .sum (past.map s.linker.cost)
  repeated : (∃ source, (s.link shader).1 = .ok source) ∨
      (∃ fs, (s.linkFunctions shader).1 = .ok fs) →
    ∀ r ∈ [Request.link shader, .linkFunctions shader], ∀ more,
      (((s.serve r).serveAll more).link shader).2 = (s.serve r).serveAll more ∧
      (((s.serve r).serveAll more).linkFunctions shader).2 = (s.serve r).serveAll more

theorem isTransparent_serveAll (settings : Settings) (requests : List Request)
    (shader : CompiledShader) :
    (serveAll { settings } requests).IsTransparent (history { settings } requests) shader := by
  have h := (tracks_start settings).serveAll requests
  rw [List.nil_append] at h
  generalize serveAll { settings } requests = s at h ⊢
  generalize history { settings } requests = past at h ⊢
  refine ⟨⟨s.linker.fresh, h.registered, rfl, rfl, h.kept.link.symm, h.kept.linkFunctions.symm⟩,
    ?_, h.effort, ?_⟩
  · intro key f hf
    rw [h.once key f hf]
    split <;> decide
  · intro hok r hr more
    have hlinked : ∃ fs, s.linker.linked s.settings shader = .ok fs := by
      obtain ⟨source, hok⟩ | ⟨fs, hok⟩ := hok
      · obtain ⟨fs, hfs, -⟩ := exists_of_except_bind_ok hok
        exact ⟨fs, hfs⟩
      · obtain ⟨fs, hfs, -⟩ := exists_of_map_ok hok
        exact ⟨fs, hfs⟩
    obtain ⟨fs, hfs⟩ := hlinked
    have hserve : s.serve r = s.afterLink shader := by
      simp only [List.mem_cons, List.not_mem_nil, or_false] at hr
      obtain rfl | rfl := hr <;> rfl
    rw [hserve]
    have hsame := afterLink_of_attempted (attempted_eq_nil h hfs more)
    exact ⟨hsame, hsame⟩

def sumsRequests (spin twice : CompiledShader) : List Request :=
  sumsLinker.libraries.map .addLibrary ++ [.link spin, .link twice, .linkFunctions twice]

/-- Three functions are compiled, one of them for the shader that is refused, and none again. -/
theorem isTransparent_sumsRequests :
    ∃ spin twice, ShaderCompiler.compile {} (callerOf (sumsCall "spin")) = .ok spin ∧
      ShaderCompiler.compile {} (callerOf (sumsCall "twice")) = .ok twice ∧
      history {} (sumsRequests spin twice) = [⟨0, 2⟩, ⟨0, 1⟩, ⟨0, 0⟩] ∧
      (serveAll {} (sumsRequests spin twice)).IsTransparent
        (history {} (sumsRequests spin twice)) twice ∧
      ∀ more, (((serveAll {} (sumsRequests spin twice ++ [.link twice])).serveAll more).link
        twice).2 = (serveAll {} (sumsRequests spin twice ++ [.link twice])).serveAll more := by
  have hrun : (do
      let spin ← ShaderCompiler.compile {} (callerOf (sumsCall "spin"))
      let twice ← ShaderCompiler.compile {} (callerOf (sumsCall "twice"))
      let result := ((serveAll {} (sumsRequests spin twice)).link twice).1
      return (history {} (sumsRequests spin twice), result.toOption.isSome)) =
        (.ok ([⟨0, 2⟩, ⟨0, 1⟩, ⟨0, 0⟩], true) :
          Except Diagnostic (List FunctionKey × Bool)) := by
    decide +kernel
  obtain ⟨spin, hspin, hrun⟩ := exists_of_except_bind_ok hrun
  obtain ⟨twice, htwice, hrun⟩ := exists_of_except_bind_ok hrun
  obtain ⟨hhistory, hlinked⟩ := Prod.mk.inj (Except.ok.inj hrun)
  have htransparent := isTransparent_serveAll {} (sumsRequests spin twice) twice
  refine ⟨spin, twice, hspin, htwice, hhistory, htransparent, ?_⟩
  have hsource : ∃ source,
      ((serveAll {} (sumsRequests spin twice)).link twice).1 = .ok source := by
    cases hlink : ((serveAll {} (sumsRequests spin twice)).link twice).1 with
    | ok source => exact ⟨source, rfl⟩
    | error e =>
        rw [hlink] at hlinked
        cases hlinked
  intro more
  have hserve : serveAll {} (sumsRequests spin twice ++ [.link twice]) =
      (serveAll {} (sumsRequests spin twice)).serve (.link twice) := by
    rw [serveAll, List.foldl_append]
    rfl
  rw [hserve]
  exact (htransparent.repeated (Or.inl hsource) _ List.mem_cons_self more).1

end Session

end ShaderCompiler
