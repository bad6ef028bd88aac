import Mathlib.Data.List.Forall2
import Mathlib.Tactic.Common

namespace ShaderCompiler

variable {σ ε α β : Type} {x : StateT σ (Except ε) α} {f : α → StateT σ (Except ε) β} {s s' : σ}
  {a : α}

theorem bind_ok (h : x s = .ok (a, s')) : (x >>= f) s = f a s' := by
  show StateT.bind x f s = _
  simp only [StateT.bind, h]
  rfl

theorem exists_of_bind_ok {r : β × σ} (h : (x >>= f) s = .ok r) :
    ∃ a s', x s = .ok (a, s') ∧ f a s' = .ok r := by
  have h : StateT.bind x f s = .ok r := h
  unfold StateT.bind at h
  cases hx : x s with
  | error e => simp [hx, bind, Except.bind] at h
  | ok p => exact ⟨p.1, p.2, rfl, by simpa [hx, bind, Except.bind] using h⟩

theorem exists_of_except_bind_ok {y : Except ε α} {g : α → Except ε β} {b : β}
    (h : y >>= g = .ok b) : ∃ a, y = .ok a ∧ g a = .ok b := by
  cases y with
  | error e => cases h
  | ok a => exact ⟨a, rfl, h⟩

theorem of_guard_ok {c : Prop} [Decidable c] {e : ε} {g : PUnit → Except ε β} {b : β}
    (h : (if c then throw e >>= g else g ⟨⟩) = .ok b) : ¬c ∧ g ⟨⟩ = .ok b := by
  split at h
  · cases h
  · next hc => exact ⟨hc, h⟩

theorem exists_of_map_ok {y : Except ε α} {g : α → β} {b : β} (h : y.map g = .ok b) :
    ∃ a, y = .ok a ∧ g a = b := by
  cases y with
  | error e => cases h
  | ok a => exact ⟨a, rfl, Except.ok.inj h⟩

theorem lift_ok {y : Except ε α} (h : y = .ok a) : (liftM y : StateT σ (Except ε) α) s = .ok (a, s) := by
  rw [h]
  rfl

theorem of_lift_ok {y : Except ε α} (h : (liftM y : StateT σ (Except ε) α) s = .ok (a, s')) :
    y = .ok a ∧ s' = s := by
  cases y with
  | error e => cases h
  | ok b =>
      cases h
      exact ⟨rfl, rfl⟩

theorem exists_of_lift_bind_ok {y : Except ε α} {r : β × σ} (h : (liftM y >>= f) s = .ok r) :
    ∃ a, y = .ok a ∧ f a s = .ok r := by
  obtain ⟨a, s', hlift, hr⟩ := exists_of_bind_ok h
  obtain ⟨hy, rfl⟩ := of_lift_ok hlift
  exact ⟨a, hy, hr⟩

theorem modify_ok (g : σ → σ) (s : σ) :
    (modify g : StateT σ (Except ε) PUnit) s = .ok (⟨⟩, g s) := rfl

theorem except_map_bind {γ : Type} (y : Except ε α) (h : α → β) (k : β → Except ε γ) :
    (y.map h >>= k) = y >>= fun a => k (h a) := by
  cases y <;> rfl

theorem except_bind_map {γ : Type} (y : Except ε α) (k : α → Except ε β) (h : β → γ) :
    (y >>= k).map h = y >>= fun a => (k a).map h := by
  cases y <;> rfl

theorem except_mapM_map {γ : Type} (h : α → Except ε β) (k : β → γ) (as : List α) :
    as.mapM (fun a => (h a).map k) = (as.mapM h).map (List.map k) := by
  induction as with
  | nil => rfl
  | cons a as ih =>
      rw [List.mapM_cons, List.mapM_cons, ih]
      cases h a with
      | error e => rfl
      | ok b => cases as.mapM h <;> rfl

theorem exists_of_mapM_cons_ok {h : α → Except ε β} {as : List α} {bs : List β}
    (hall : (a :: as).mapM h = .ok bs) :
    ∃ b bs', h a = .ok b ∧ as.mapM h = .ok bs' ∧ bs = b :: bs' := by
  rw [List.mapM_cons] at hall
  obtain ⟨b, hb, hall⟩ := exists_of_except_bind_ok hall
  obtain ⟨bs', hbs, hall⟩ := exists_of_except_bind_ok hall
  cases hall
  exact ⟨b, bs', hb, hbs, rfl⟩

theorem exists_of_mem_of_mapM_ok {h : α → Except ε β} {as : List α} {bs : List β}
    (hall : as.mapM h = .ok bs) (ha : a ∈ as) : ∃ b ∈ bs, h a = .ok b := by
  induction as generalizing bs with
  | nil => cases ha
  | cons a' as ih =>
      obtain ⟨b, bs', hb, hbs, rfl⟩ := exists_of_mapM_cons_ok hall
      rcases List.mem_cons.mp ha with rfl | ha
      · exact ⟨b, List.mem_cons_self, hb⟩
      · obtain ⟨b', hmem, hb'⟩ := ih hbs ha
        exact ⟨b', List.mem_cons_of_mem _ hmem, hb'⟩

theorem map_eq_of_mapM_ok {γ : Type} {h : α → Except ε β} {k : α → γ} {k' : β → γ}
    {as : List α} {bs : List β} (hk : ∀ a b, h a = .ok b → k' b = k a)
    (hall : as.mapM h = .ok bs) : bs.map k' = as.map k := by
  induction as generalizing bs with
  | nil =>
      cases hall
      rfl
  | cons a as ih =>
      obtain ⟨b, bs', hb, hbs, rfl⟩ := exists_of_mapM_cons_ok hall
      rw [List.map_cons, List.map_cons, hk a b hb, ih hbs]

theorem mapM_eq_ok_iff {h : α → Except ε β} {as : List α} {bs : List β} :
    as.mapM h = .ok bs ↔ List.Forall₂ (fun a b => h a = .ok b) as bs := by
  constructor
  · intro hall
    induction as generalizing bs with
    | nil =>
        cases hall
        exact .nil
    | cons a as ih =>
        obtain ⟨b, bs', hb, hbs, rfl⟩ := exists_of_mapM_cons_ok hall
        exact .cons hb (ih hbs)
  · intro hall
    induction hall with
    | nil => rfl
    | cons hb _ ih =>
        rw [List.mapM_cons, hb, ih]
        rfl

theorem exists_mem_of_forall₂ {α β : Type} {R : α → β → Prop} {l : List α} {l' : List β}
    (h : List.Forall₂ R l l') {a : α} (ha : a ∈ l) : ∃ b ∈ l', R a b := by
  induction h with
  | nil => cases ha
  | @cons a₀ b₀ l l' hab _ ih =>
      rcases List.mem_cons.mp ha with rfl | ha
      · exact ⟨b₀, List.mem_cons_self, hab⟩
      · obtain ⟨b, hb, hr⟩ := ih ha
        exact ⟨b, List.mem_cons_of_mem b₀ hb, hr⟩

theorem forM_eq_ok {h : α → Except ε Unit} {as : List α} (hall : as.forM h = .ok ()) :
    ∀ a ∈ as, h a = .ok () := by
  induction as with
  | nil => exact nofun
  | cons a as ih =>
      have hall : (h a >>= fun _ => as.forM h) = .ok () := hall
      obtain ⟨⟨⟩, ha, has⟩ := exists_of_except_bind_ok hall
      exact List.forall_mem_cons.mpr ⟨ha, ih has⟩

section MapError

variable {δ : Type} (g : ε → δ)

@[simp] theorem mapError_bind (y : Except ε α) (k : α → Except ε β) :
    (y >>= k).mapError g = y.mapError g >>= fun a => (k a).mapError g := by
  cases y <;> rfl

theorem mapError_eq_ok {g : ε → δ} {y : Except ε α} (h : y.mapError g = .ok a) : y = .ok a := by
  cases y with
  | error e => cases h
  | ok b => exact congrArg Except.ok (Except.ok.inj h)

@[simp] theorem mapError_pure (a : α) : (pure a : Except ε α).mapError g = pure a := rfl

@[simp] theorem mapError_throw (e : ε) :
    (throw e : Except ε α).mapError g = throw (g e) := rfl

@[simp] theorem mapError_ite (c : Prop) [Decidable c] (y z : Except ε α) :
    (if c then y else z).mapError g = if c then y.mapError g else z.mapError g := by
  split <;> rfl

theorem mapError_map (y : Except ε α) (h : α → β) :
    (y.map h).mapError g = (y.mapError g).map h := by
  cases y <;> rfl

theorem mapError_mapM (h : α → Except ε β) (as : List α) :
    (as.mapM h).mapError g = as.mapM fun a => (h a).mapError g := by
  induction as with
  | nil => rfl
  | cons a as ih =>
      simp only [List.mapM_cons, mapError_bind, mapError_pure, ih]

theorem mapError_foldlM (h : β → α → Except ε β) (b : β) (as : List α) :
    (as.foldlM h b).mapError g = as.foldlM (fun b a => (h b a).mapError g) b := by
  induction as generalizing b with
  | nil => rfl
  | cons a as ih => simp only [List.foldlM_cons, mapError_bind, ih]

end MapError

end ShaderCompiler
