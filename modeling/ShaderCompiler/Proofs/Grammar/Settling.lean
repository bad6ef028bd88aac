import ShaderCompiler.Proofs.Grammar.Steps

namespace ShaderCompiler.Grammar

open Token

variable {α β : Type} {tokens ts : List Token} {fuel depth : Nat}

def isEof : Kind → Bool
  | .eof => true
  | _ => false

def isTooDeep : ReadFault → Bool
  | .tooDeep => true
  | _ => false

theorem isEof_eq_false {kind : Kind} : isEof kind = false ↔ kind ≠ .eof := by
  cases kind <;> simp [isEof]

theorem ne_tooDeep {fault : ReadFault} (h : isTooDeep fault = false) : fault ≠ .tooDeep := by
  rintro rfl
  cases h

/-- The tokens that are left of a list, with the end of it still among them. -/
structure Within (tokens ts : List Token) : Prop where
  suffix : ts <:+ tokens
  ends : ts.getLast?.map Token.kind = some .eof

def IsPlace (tokens : List Token) (line column : Nat) : Prop :=
  ∃ t ∈ tokens, t.span.line = line ∧ t.span.column = column

namespace Within

theorem exists_cons (h : Within tokens ts) : ∃ t rest, ts = t :: rest := by
  cases ts with
  | nil => cases h.ends
  | cons t rest => exact ⟨t, rest, rfl⟩

theorem length_pos (h : Within tokens ts) : 0 < ts.length := by
  obtain ⟨t, rest, rfl⟩ := h.exists_cons
  exact Nat.succ_pos _

theorem tail (h : Within tokens ts) (hne : isEof (nextKind ts) = false) :
    Within tokens ts.tail := by
  obtain ⟨t, rest, rfl⟩ := h.exists_cons
  refine ⟨(List.suffix_cons t rest).trans h.suffix, ?_⟩
  cases rest with
  | nil => exact absurd (Option.some.inj h.ends) (isEof_eq_false.mp hne)
  | cons u rest =>
      rw [← h.ends, List.tail_cons, List.getLast?_cons_cons]

theorem isPlace_here (h : Within tokens ts) :
    IsPlace tokens ((ts.head?.map Token.span).getD .none).line
      ((ts.head?.map Token.span).getD .none).column := by
  obtain ⟨t, rest, rfl⟩ := h.exists_cons
  exact ⟨t, h.suffix.subset List.mem_cons_self, rfl, rfl⟩

end Within

/-- What a reader does at the tokens `ts` with this fuel, and `r'` is the same reader with one unit
more. A value costs at least `least` tokens. The fuel may run out if there are less than sixteen
units for each token and `depth` more. -/
def SettlesAt (tokens : List Token) (fuel depth : Nat) (least : α → Nat) (r r' : Reader α)
    (ts : List Token) : Prop :=
  match r ts with
  | .ok (a, rest) =>
      r' ts = .ok (a, rest) ∧ Within tokens rest ∧ rest.length + least a ≤ ts.length
  | .error e =>
      IsPlace tokens e.line e.column ∧
        (e.fault = .tooDeep ∧ fuel < 16 * ts.length + depth ∨
          e.fault ≠ .tooDeep ∧ r' ts = .error e)

/-- Wherever it stands, the reader settles and takes at least one token. -/
structure Takes (tokens : List Token) (fuel depth : Nat) (r r' : Reader α) : Prop where
  shallow : depth ≤ 15
  settles : ∀ ts, Within tokens ts → SettlesAt tokens fuel depth (fun _ => 1) r r' ts

/-- Wherever it stands, the reader settles, though it may take nothing. Behind a token that was
taken the depth is sixteen, more than any reader needs. -/
def Keeps (tokens : List Token) (fuel depth : Nat) (r r' : Reader α) : Prop :=
  ∀ ts, Within tokens ts → SettlesAt tokens fuel depth (fun _ => 0) r r' ts

namespace SettlesAt

variable {least : α → Nat} {r r' : Reader α}

theorem of_ok {a : α} {rest : List Token} (h : r ts = .ok (a, rest)) (h' : r' ts = .ok (a, rest))
    (hrest : Within tokens rest) (hlength : rest.length + least a ≤ ts.length) :
    SettlesAt tokens fuel depth least r r' ts := by
  unfold SettlesAt
  rw [h]
  exact ⟨h', hrest, hlength⟩

theorem of_error {e : ReadError} (h : r ts = .error e) (h' : r' ts = .error e)
    (hplace : IsPlace tokens e.line e.column) (hfault : isTooDeep e.fault = false) :
    SettlesAt tokens fuel depth least r r' ts := by
  unfold SettlesAt
  rw [h]
  exact ⟨hplace, Or.inr ⟨ne_tooDeep hfault, h'⟩⟩

theorem weaken {fuel' depth' : Nat} {least' : α → Nat}
    (h : SettlesAt tokens fuel depth least r r' ts) (hfuel : fuel' + depth ≤ fuel + depth')
    (hleast : ∀ a, least' a ≤ least a) : SettlesAt tokens fuel' depth' least' r r' ts := by
  unfold SettlesAt at h ⊢
  cases hr : r ts with
  | ok p =>
      rw [hr] at h
      obtain ⟨hmore, hrest, hlength⟩ := h
      exact ⟨hmore, hrest, (Nat.add_le_add_left (hleast p.1) _).trans hlength⟩
  | error e =>
      rw [hr] at h
      obtain ⟨hplace, ⟨hfault, hshort⟩ | hmore⟩ := h
      · exact ⟨hplace, Or.inl ⟨hfault, by omega⟩⟩
      · exact ⟨hplace, Or.inr hmore⟩

theorem mono {depth' : Nat} {least' : α → Nat} (h : SettlesAt tokens fuel depth least r r' ts)
    (hdepth : depth ≤ depth') (hleast : ∀ a, least' a ≤ least a) :
    SettlesAt tokens fuel depth' least' r r' ts :=
  h.weaken (Nat.add_le_add_left hdepth fuel) hleast

theorem of_keeps (hts : Within tokens ts) (h : Keeps tokens fuel depth r r') :
    SettlesAt tokens fuel depth (fun _ => 0) r r' ts := h ts hts

theorem keep (h : SettlesAt tokens fuel depth (fun _ => 1) r r' ts) :
    SettlesAt tokens fuel depth (fun _ => 0) r r' ts :=
  h.mono le_rfl fun _ => Nat.zero_le 1

/-- A reader has one unit of fuel more than those that it calls. -/
theorem step (h : SettlesAt tokens fuel depth least r r' ts) :
    SettlesAt tokens (fuel + 1) (depth + 1) least r r' ts :=
  h.weaken (by omega) fun _ => le_rfl

theorem bind_error {x : Reader α} {k : α → Reader β} {e : ReadError} (h : x ts = .error e) :
    (x >>= k) ts = .error e := by
  show StateT.bind x k ts = _
  simp only [StateT.bind, h]
  rfl

theorem bind {taken : α → Nat} {least : β → Nat} {k k' : α → Reader β}
    (h : SettlesAt tokens fuel depth taken r r' ts)
    (hk : ∀ a rest, r ts = .ok (a, rest) → Within tokens rest →
      SettlesAt tokens fuel (depth + 16 * taken a) (fun b => least b - taken a) (k a) (k' a) rest) :
    SettlesAt tokens fuel depth least (r >>= k) (r' >>= k') ts := by
  unfold SettlesAt at h
  cases hr : r ts with
  | error e =>
      rw [hr] at h
      unfold SettlesAt
      rw [bind_error hr]
      obtain ⟨hplace, hdeep | ⟨hfault, hr'⟩⟩ := h
      · exact ⟨hplace, Or.inl hdeep⟩
      · exact ⟨hplace, Or.inr ⟨hfault, bind_error hr'⟩⟩
  | ok p =>
      obtain ⟨a, rest⟩ := p
      rw [hr] at h
      obtain ⟨hr', hrest, hlength⟩ := h
      have hnext := hk a rest hr hrest
      unfold SettlesAt at hnext ⊢
      rw [bind_ok hr, bind_ok hr']
      cases hb : k a rest with
      | ok q =>
          rw [hb] at hnext
          obtain ⟨hmore, hlast, htaken⟩ := hnext
          exact ⟨hmore, hlast, by dsimp only at htaken; omega⟩
      | error e =>
          rw [hb] at hnext
          obtain ⟨hplace, ⟨hfault, hshort⟩ | hmore⟩ := hnext
          -- each token that was taken makes up for sixteen units of depth
          · exact ⟨hplace, Or.inl ⟨hfault, by omega⟩⟩
          · exact ⟨hplace, Or.inr hmore⟩

variable {k k' : α → Reader β} {least : β → Nat}

theorem after (h : SettlesAt tokens fuel depth (fun _ => 0) r r' ts)
    (hk : ∀ a rest, Within tokens rest →
      SettlesAt tokens fuel depth least (k a) (k' a) rest) :
    SettlesAt tokens fuel depth least (r >>= k) (r' >>= k') ts :=
  h.bind fun a rest _ => hk a rest

/-- Behind a reader that has taken a token there is fuel enough for all that follows. -/
theorem next (h : SettlesAt tokens fuel depth (fun _ => 1) r r' ts)
    (hk : ∀ a, Keeps tokens fuel 16 (k a) (k' a)) :
    SettlesAt tokens fuel depth (fun _ => 1) (r >>= k) (r' >>= k') ts :=
  h.bind fun a rest _ hrest => (hk a rest hrest).mono (Nat.le_add_left 16 depth) fun _ => le_rfl

theorem look {x : Reader α} {a : α} (hx : x ts = .ok (a, ts))
    (h : SettlesAt tokens fuel depth least (k a) (k' a) ts) :
    SettlesAt tokens fuel depth least (x >>= k) (x >>= k') ts := by
  unfold SettlesAt at h ⊢
  rw [bind_ok hx, bind_ok hx]
  exact h

theorem ite {c : Prop} [Decidable c] {x y x' y' : Reader β}
    (hx : c → SettlesAt tokens fuel depth least x x' ts)
    (hy : ¬ c → SettlesAt tokens fuel depth least y y' ts) :
    SettlesAt tokens fuel depth least (if c then x else y) (if c then x' else y') ts := by
  by_cases h : c
  · rw [if_pos h, if_pos h]
    exact hx h
  · rw [if_neg h, if_neg h]
    exact hy h

theorem pure (a : α) (hts : Within tokens ts) :
    SettlesAt tokens fuel depth (fun _ => 0) (Pure.pure a) (Pure.pure a) ts :=
  of_ok rfl rfl hts le_rfl

theorem failAt {span : Span} {fault : ReadFault} (hplace : IsPlace tokens span.line span.column)
    (hfault : isTooDeep fault = false) :
    SettlesAt tokens fuel depth least (failAt span fault) (failAt span fault) ts :=
  of_error rfl rfl hplace hfault

theorem here {k k' : Span → Reader β} (hts : Within tokens ts)
    (h : ∀ span, IsPlace tokens span.line span.column →
      SettlesAt tokens fuel depth least (k span) (k' span) ts) :
    SettlesAt tokens fuel depth least (here >>= k) (here >>= k') ts :=
  look rfl (h _ hts.isPlace_here)

theorem fail {fault : ReadFault} (hfault : isTooDeep fault = false) (hts : Within tokens ts) :
    SettlesAt tokens fuel depth least (fail fault) (fail fault) ts :=
  here hts fun _ hplace => failAt hplace hfault

theorem tooDeep {r : Reader β} (hts : Within tokens ts) (hfuel : fuel < 16 * ts.length + depth) :
    SettlesAt tokens fuel depth least (Grammar.fail .tooDeep) r ts :=
  ⟨hts.isPlace_here, Or.inl ⟨rfl, hfuel⟩⟩

theorem exhausted {r : Reader β} (hts : Within tokens ts) (hbound : fuel ≤ 0 + depth + 15) :
    SettlesAt tokens fuel depth least (Grammar.fail .tooDeep) r ts :=
  tooDeep hts (by have := hts.length_pos; omega)

theorem peek {k k' : Kind → Reader β} (h : ∀ kind, nextKind ts = kind →
      SettlesAt tokens fuel depth least (k kind) (k' kind) ts) :
    SettlesAt tokens fuel depth least (peek >>= k) (peek >>= k') ts :=
  look (peek_eq ts) (h _ rfl)

theorem peekAt {k k' : Kind → Reader β} (n : Nat) (h : ∀ kind, nextKind (ts.drop n) = kind →
      SettlesAt tokens fuel depth least (k kind) (k' kind) ts) :
    SettlesAt tokens fuel depth least (peekAt n >>= k) (peekAt n >>= k') ts := by
  refine look ?_ (h _ rfl)
  rw [nextKind, List.head?_drop]
  rfl

section Taking

variable {k k' : Kind → Reader β}

theorem advanceOne (hts : Within tokens ts) (hne : isEof (nextKind ts) = false) :
    SettlesAt tokens fuel depth (fun _ => 1) advance advance ts := by
  obtain ⟨t, rest, rfl⟩ := hts.exists_cons
  exact of_ok rfl rfl (hts.tail hne) le_rfl

theorem advance (hts : Within tokens ts) (hne : isEof (nextKind ts) = false)
    (h : Within tokens ts.tail →
      SettlesAt tokens fuel (depth + 16) (fun _ => 0) (k (nextKind ts)) (k' (nextKind ts))
        ts.tail) :
    SettlesAt tokens fuel depth (fun _ => 1) (advance >>= k) (advance >>= k') ts := by
  refine (advanceOne hts hne).bind fun kind rest hkind hrest => ?_
  obtain ⟨t, rest, rfl⟩ := hts.exists_cons
  cases hkind
  exact h hrest

theorem take (hts : Within tokens ts) (hne : isEof (nextKind ts) = false)
    (hk : ∀ kind, Keeps tokens fuel 16 (k kind) (k' kind)) :
    SettlesAt tokens fuel depth (fun _ => 1) (Grammar.advance >>= k) (Grammar.advance >>= k') ts :=
  advance hts hne fun hrest => (hk _ _ hrest).mono (Nat.le_add_left 16 depth) fun _ => le_rfl

theorem takeTwo {r r' : Reader β} (hts : Within tokens ts) (hfirst : isEof (nextKind ts) = false)
    (hsecond : isEof (nextKind (ts.drop 1)) = false) (hk : Keeps tokens fuel 16 r r') :
    SettlesAt tokens fuel depth (fun _ => 1)
      (do let _ ← Grammar.advance; let _ ← Grammar.advance; r)
      (do let _ ← Grammar.advance; let _ ← Grammar.advance; r') ts := by
  refine advance hts hfirst fun hrest => .keep (take hrest ?_ fun _ => hk)
  rwa [← List.drop_one]

/-- The end is taken only by readers that fail on it, at a token before. -/
theorem takeUnlessEof {span : Span} {fault : ReadFault}
    (hplace : IsPlace tokens span.line span.column) (hfault : isTooDeep fault = false)
    (hend : k .eof = Grammar.failAt span fault) (hend' : k' .eof = Grammar.failAt span fault)
    (hts : Within tokens ts)
    (hk : ∀ kind, Keeps tokens fuel 16 (k kind) (k' kind)) :
    SettlesAt tokens fuel depth (fun _ => 1) (Grammar.advance >>= k)
      (Grammar.advance >>= k') ts := by
  by_cases heof : nextKind ts = .eof
  · obtain ⟨t, rest, rfl⟩ := hts.exists_cons
    have hfails (k : Kind → Reader β) (h : k .eof = Grammar.failAt span fault) :
        (Grammar.advance >>= k) (t :: rest) = .error ⟨fault, span.line, span.column⟩ := by
      rw [bind_ok (advance_cons t rest), ← nextKind_cons t rest, heof, h]
      rfl
    exact of_error (hfails k hend) (hfails k' hend') hplace hfault
  · exact take hts (isEof_eq_false.mpr heof) hk

end Taking

theorem expect {kind : Kind} (hkind : isEof kind = false) (hts : Within tokens ts) :
    SettlesAt tokens fuel depth (fun _ => 1) (expect kind) (expect kind) ts := by
  refine peek fun got hgot => ite (fun h => ?_) fun _ => fail rfl hts
  rw [← hgot, beq_iff_eq] at h
  exact take hts (h ▸ hkind) fun _ _ hrest => pure () hrest

theorem eat {kind : Kind} (hkind : isEof kind = false) (hts : Within tokens ts) :
    SettlesAt tokens fuel depth (fun taken => if taken then 1 else 0) (eat kind) (eat kind) ts := by
  refine peek fun got hgot => ite (fun h => ?_) fun _ => of_ok rfl rfl hts le_rfl
  rw [← hgot, beq_iff_eq] at h
  have htake : SettlesAt tokens fuel depth (fun _ => 1) (do let _ ← Grammar.advance; return true)
      (do let _ ← Grammar.advance; return true) ts :=
    take hts (h ▸ hkind) fun _ _ hrest => pure true hrest
  exact htake.mono le_rfl fun taken => by cases taken <;> decide

theorem eatKeep {kind : Kind} (hkind : isEof kind = false) (hts : Within tokens ts) :
    SettlesAt tokens fuel depth (fun _ => 0) (Grammar.eat kind) (Grammar.eat kind) ts :=
  (eat hkind hts).mono le_rfl fun _ => Nat.zero_le _

theorem eatIf {kind : Kind} {x x' y y' : Reader β} (hkind : isEof kind = false) (hts : Within tokens ts)
    (hleast : ∀ b, least b ≤ 1) (hx : Keeps tokens fuel 16 x x')
    (hy : ∀ ts, Within tokens ts → SettlesAt tokens fuel depth least y y' ts) :
    SettlesAt tokens fuel depth least (do if ← Grammar.eat kind then x else y)
      (do if ← Grammar.eat kind then x' else y') ts := by
  refine (eat hkind hts).bind fun taken rest _ hrest => ?_
  cases taken with
  | true =>
      refine (hx rest hrest).mono (Nat.le_add_left 16 depth) fun b => ?_
      exact (Nat.sub_eq_zero_of_le (hleast b)).le
  | false => exact hy rest hrest

theorem eatOr {kind : Kind} {x x' y y' : Reader β} (hkind : isEof kind = false) (hts : Within tokens ts)
    (hx : Keeps tokens fuel 16 x x')
    (hy : ∀ ts, Within tokens ts → SettlesAt tokens fuel depth (fun _ => 1) y y' ts) :
    SettlesAt tokens fuel depth (fun _ => 1) (do if ← Grammar.eat kind then x else y)
      (do if ← Grammar.eat kind then x' else y') ts :=
  eatIf hkind hts (fun _ => le_rfl) hx hy

theorem ident (what : String) (hts : Within tokens ts) :
    SettlesAt tokens fuel depth (fun _ => 1) (ident what) (ident what) ts := by
  refine peek fun got hgot => ?_
  split
  · exact take hts (hgot ▸ rfl) fun _ _ hrest => pure _ hrest
  · exact fail rfl hts

theorem identTake {k k' : String → Reader β} (what : String) (hts : Within tokens ts)
    (hsecond : isEof (nextKind (ts.drop 1)) = false)
    (hk : ∀ name, Keeps tokens fuel 16 (k name) (k' name)) :
    SettlesAt tokens fuel depth (fun _ => 1)
      (do let name ← Grammar.ident what; let _ ← Grammar.advance; k name)
      (do let name ← Grammar.ident what; let _ ← Grammar.advance; k' name) ts := by
  refine (ident what hts).bind fun name rest hname hrest => ?_
  have htail : rest = ts.drop 1 := by
    obtain ⟨⟨kind, span⟩, left, rfl⟩ := hts.exists_cons
    cases kind with
    | identifier name' =>
        cases hname
        rfl
    | _ => cases hname
  exact (take hrest (htail ▸ hsecond) fun _ => hk name).keep

section Lists

variable {item item' : Reader α} {bound : Nat}

/-- Each item takes a token, so the bound is not reached before the fuel is short. -/
theorem manyUntil {stop : Kind → Bool} (hts : Within tokens ts) (hbound : fuel ≤ bound + depth + 15)
    (hitem : ∀ ts, Within tokens ts → stop (nextKind ts) = false →
      SettlesAt tokens fuel depth (fun _ => 1) item item' ts) :
    SettlesAt tokens fuel depth (fun _ => if stop (nextKind ts) then 0 else 1)
      (manyUntil stop item bound) (manyUntil stop item' (bound + 1)) ts := by
  -- with each item the bound is one less, and the depth sixteen more for the token taken
  induction bound generalizing depth ts with
  | zero => exact exhausted hts hbound
  | succ bound ih =>
      refine peek fun kind hkind => ite (fun hstop => ?_) fun hstop => ?_
      · exact of_ok rfl rfl hts (by simp [hkind, hstop])
      · have hstop : stop (nextKind ts) = false := by rw [hkind, Bool.eq_false_iff.mpr hstop]
        refine (hitem ts hts hstop).bind fun first rest _ hrest => ?_
        have hmore := ih hrest (by omega) fun ts hts hstop =>
          (hitem ts hts hstop).mono (Nat.le_add_right depth 16) fun _ => le_rfl
        refine after (hmore.mono le_rfl fun _ => Nat.zero_le _) fun more rest hrest => ?_
        refine (pure _ hrest).mono le_rfl fun _ => ?_
        split <;> decide

theorem sepBy (hts : Within tokens ts) (hbound : fuel ≤ bound + depth + 15)
    (hitem : ∀ ts, Within tokens ts → SettlesAt tokens fuel depth (fun _ => 1) item item' ts) :
    SettlesAt tokens fuel depth (fun _ => 1) (sepBy item bound) (sepBy item' (bound + 1)) ts := by
  induction bound generalizing depth ts with
  | zero => exact exhausted hts hbound
  | succ bound ih =>
      refine (hitem ts hts).bind fun first rest _ hrest => ?_
      refine after (eatKeep rfl hrest) fun more rest hrest =>
        ite (fun _ => ?_) fun _ => pure _ hrest
      have hmore := ih hrest (by omega) fun ts hts =>
        (hitem ts hts).mono (Nat.le_add_right depth 16) fun _ => le_rfl
      exact hmore.keep.after fun more rest hrest => pure _ hrest

theorem commaList {close : Kind} (hts : Within tokens ts) (hbound : fuel ≤ bound + depth + 15)
    (hitem : ∀ ts, Within tokens ts → SettlesAt tokens fuel depth (fun _ => 1) item item' ts) :
    SettlesAt tokens fuel depth (fun _ => 0) (commaList close item bound)
      (commaList close item' (bound + 1)) ts := by
  induction bound generalizing depth ts with
  | zero => exact exhausted hts hbound
  | succ bound ih =>
      refine look (isAt_eq close ts) (ite (fun _ => pure _ hts) fun _ => ?_)
      refine (hitem ts hts).bind fun first rest _ hrest => ?_
      refine after (eatKeep rfl hrest) fun more rest hrest =>
        ite (fun _ => ?_) fun _ => pure _ hrest
      have hmore := ih hrest (by omega) fun ts hts =>
        (hitem ts hts).mono (Nat.le_add_right depth 16) fun _ => le_rfl
      exact hmore.after fun more rest hrest => pure _ hrest

end Lists

end SettlesAt

def Looks (x : Reader α) : Prop := ∀ ts, ∃ a, x ts = .ok (a, ts)

namespace Looks

theorem pure (a : α) : Looks (Pure.pure a) := fun _ => ⟨a, rfl⟩

theorem peekAt (n : Nat) : Looks (peekAt n) := fun _ => ⟨_, rfl⟩

theorem bind {x : Reader α} {k : α → Reader β} (hx : Looks x) (hk : ∀ a, Looks (k a)) :
    Looks (x >>= k) := by
  intro ts
  obtain ⟨a, ha⟩ := hx ts
  rw [bind_ok ha]
  exact hk a ts

theorem isAt (kind : Kind) : Looks (isAt kind) := fun ts => ⟨_, isAt_eq kind ts⟩

theorem startsLambda : Looks startsLambda := by
  refine bind (peekAt 0) fun next => ?_
  split
  · exact pure _
  · exact bind (peekAt 1) fun _ => pure _
  · exact bind (fun _ => ⟨_, rfl⟩) fun _ => pure _
  · exact pure _

theorem startsCast : Looks startsCast := by
  refine bind (peekAt 0) fun first => bind (peekAt 1) fun second => ?_
  split
  · refine bind (peekAt 2) fun third => bind (peekAt 3) fun fourth => ?_
    split
    · exact pure _
    · exact bind (peekAt 4) fun _ => pure _
    · exact pure _
  · exact pure _

theorem startsDeclaration : Looks startsDeclaration :=
  bind (peekAt 0) fun _ => bind (peekAt 1) fun _ => bind (peekAt 2) fun _ =>
    bind (peekAt 3) fun _ => pure _

end Looks

namespace Keeps

variable {x x' y y' : Reader α} {k k' : α → Reader β}

theorem bind (hx : Keeps tokens fuel depth x x') (hk : ∀ a, Keeps tokens fuel depth (k a) (k' a)) :
    Keeps tokens fuel depth (x >>= k) (x' >>= k') :=
  fun ts hts => (hx ts hts).after fun a rest hrest => hk a rest hrest

theorem pure (a : α) : Keeps tokens fuel depth (Pure.pure a) (Pure.pure a) :=
  fun _ hts => .pure a hts

theorem pure_bind {a : α} (h : Keeps tokens fuel depth (k a) (k' a)) :
    Keeps tokens fuel depth (Pure.pure a >>= k) (Pure.pure a >>= k') := h

theorem ite {c : Prop} [Decidable c] (hx : Keeps tokens fuel depth x x')
    (hy : Keeps tokens fuel depth y y') :
    Keeps tokens fuel depth (if c then x else y) (if c then x' else y') :=
  fun ts hts => .ite (fun _ => hx ts hts) fun _ => hy ts hts

theorem map {f : α → β} (hx : Keeps tokens fuel depth x x') :
    Keeps tokens fuel depth (f <$> x) (f <$> x') := by
  rw [← bind_pure_comp, ← bind_pure_comp]
  exact hx.bind fun a => pure (f a)

theorem look {k k' : α → Reader β} (hx : Looks x)
    (hk : ∀ a, Keeps tokens fuel depth (k a) (k' a)) :
    Keeps tokens fuel depth (x >>= k) (x >>= k') := by
  intro ts hts
  obtain ⟨a, ha⟩ := hx ts
  exact .look ha (hk a ts hts)

theorem here {k k' : Span → Reader β}
    (hk : ∀ span, IsPlace tokens span.line span.column →
      Keeps tokens fuel depth (k span) (k' span)) :
    Keeps tokens fuel depth (here >>= k) (here >>= k') :=
  fun ts hts => .here hts fun span hspan => hk span hspan ts hts

theorem failAt {span : Span} {fault : ReadFault} (hplace : IsPlace tokens span.line span.column)
    (hfault : isTooDeep fault = false) :
    Keeps tokens fuel depth (failAt span fault : Reader α) (failAt span fault) :=
  fun _ _ => .failAt hplace hfault

theorem fail {fault : ReadFault} (hfault : isTooDeep fault = false) :
    Keeps tokens fuel depth (fail fault : Reader α) (fail fault) :=
  fun _ hts => .fail hfault hts

theorem expect {kind : Kind} (hkind : isEof kind = false) :
    Keeps tokens fuel depth (expect kind) (expect kind) :=
  fun _ hts => (SettlesAt.expect hkind hts).keep

theorem eat {kind : Kind} (hkind : isEof kind = false) :
    Keeps tokens fuel depth (eat kind) (eat kind) :=
  fun _ hts => .eatKeep hkind hts

theorem ident (what : String) : Keeps tokens fuel depth (ident what) (ident what) :=
  fun _ hts => (SettlesAt.ident what hts).keep

theorem word (text : String) : Keeps tokens fuel depth (word text) (word text) := by
  intro ts hts
  refine .peek fun got hgot => ?_
  split
  · refine .ite (fun _ => ?_) fun _ => .fail rfl hts
    exact .keep (.take hts (hgot ▸ rfl) fun _ => pure ())
  · exact .fail rfl hts

theorem unlessAt (stop : Kind) (hx : Keeps tokens fuel depth x x') :
    Keeps tokens fuel depth (unlessAt stop x) (unlessAt stop x') :=
  look (.isAt stop) fun _ => .ite (pure _) (hx.bind fun _ => pure _)

theorem ifEaten {start : Kind} (hstart : isEof start = false) (hx : Keeps tokens fuel depth x x') :
    Keeps tokens fuel depth (ifEaten start x) (ifEaten start x') :=
  (eat hstart).bind fun _ => .ite (hx.bind fun _ => pure _) (pure _)

end Keeps

namespace Takes

variable {x x' : Reader α}

theorem early (h : Takes tokens fuel depth x x') {depth' : Nat} (hdepth : depth ≤ depth')
    (hts : Within tokens ts) : SettlesAt tokens fuel depth' (fun _ => 1) x x' ts :=
  (h.settles ts hts).mono hdepth fun _ => le_rfl

theorem late (h : Takes tokens fuel depth x x') : Keeps tokens fuel 16 x x' :=
  fun _ hts => (h.early (by have := h.shallow; omega) hts).keep

theorem step (hdepth : depth < 15)
    (h : ∀ ts, Within tokens ts → SettlesAt tokens fuel depth (fun _ => 1) x x' ts) :
    Takes tokens (fuel + 1) (depth + 1) x x' :=
  ⟨hdepth, fun ts hts => (h ts hts).step⟩

theorem zero (hdepth : depth ≤ 15) : Takes tokens 0 depth (fail .tooDeep) x :=
  ⟨hdepth, fun _ hts => .tooDeep hts (by have := hts.length_pos; omega)⟩

end Takes

namespace Keeps

variable {item item' : Reader α}

theorem step {x x' : Reader α}
    (h : ∀ ts, Within tokens ts → SettlesAt tokens fuel 15 (fun _ => 0) x x' ts) :
    Keeps tokens (fuel + 1) 16 x x' :=
  fun ts hts => (h ts hts).step

theorem zero {x : Reader α} : Keeps tokens 0 16 (Grammar.fail .tooDeep) x :=
  fun _ hts => .tooDeep hts (by omega)

theorem manyUntil (stop : Kind → Bool) (h : Takes tokens fuel depth item item') :
    Keeps tokens fuel 16 (manyUntil stop item fuel) (manyUntil stop item' (fuel + 1)) := by
  intro ts hts
  refine .mono (.manyUntil hts ?_ fun ts hts _ => ?_) le_rfl fun _ => Nat.zero_le _
  · omega
  · exact h.early (Nat.le_succ_of_le h.shallow) hts

theorem sepBy (h : Takes tokens fuel depth item item') :
    Keeps tokens fuel 16 (sepBy item fuel) (sepBy item' (fuel + 1)) :=
  fun _ hts => .keep (.sepBy hts (by omega) fun _ => h.early (Nat.le_succ_of_le h.shallow))

theorem commaList (close : Kind) (h : Takes tokens fuel depth item item') :
    Keeps tokens fuel 16 (commaList close item fuel) (commaList close item' (fuel + 1)) :=
  fun _ hts => .commaList hts (by omega) fun _ => h.early (Nat.le_succ_of_le h.shallow)

end Keeps

end ShaderCompiler.Grammar
