import ShaderCompiler.Proofs.Grammar.Termination

namespace ShaderCompiler

open Token

/-- The value of an argument before its integers become words. -/
inductive WrittenValue where
  | integer (w : Int)
  | other (value : AttrValue)

structure WrittenArg where
  key : Option String
  value : WrittenValue

structure WrittenAttribute where
  name : String
  args : List WrittenArg
  span : Span

/-- What is read of a value: an integer wraps around to a signed word. -/
def WrittenValue.read : WrittenValue → AttrValue
  | .integer w => .int (.ofInt w)
  | .other value => value

def WrittenArg.read (x : WrittenArg) : AttributeArg :=
  match x.key with
  | some key => .named key x.value.read
  | none => .positional x.value.read

def WrittenAttribute.read (x : WrittenAttribute) : Attribute :=
  ⟨x.name, x.args.map WrittenArg.read, x.span⟩

def Token.IsInteger (t : Token) (n : UInt64) : Prop := t.kind = .int n ∨ t.kind = .uint n

def Token.IsFraction (t : Token) (x : Float) : Prop := t.kind = .float x ∨ t.kind = .double x

inductive WritesValue : List Token → WrittenValue → Prop
  | integer {t : Token} {n : UInt64} (h : t.IsInteger n) : WritesValue [t] (.integer n.toNat)
  | negative {sign t : Token} {n : UInt64} (hsign : sign.kind = .symbol .minus)
      (h : t.IsInteger n) : WritesValue [sign, t] (.integer (-n.toNat))
  | fraction {t : Token} {x : Float} (h : t.IsFraction x) : WritesValue [t] (.other (.float x))
  | negativeFraction {sign t : Token} {x : Float} (hsign : sign.kind = .symbol .minus)
      (h : t.IsFraction x) : WritesValue [sign, t] (.other (.float (-x)))
  | text {t : Token} {s : String} (h : t.kind = .string s) : WritesValue [t] (.other (.str s))
  | name {t : Token} {s : String} (h : t.kind = .identifier s) : WritesValue [t] (.other (.ident s))
  | true {t : Token} (h : t.kind = .keyword .kwTrue) : WritesValue [t] (.other (.bool true))
  | false {t : Token} (h : t.kind = .keyword .kwFalse) : WritesValue [t] (.other (.bool false))

inductive WritesArg : List Token → WrittenArg → Prop
  | positional {used : List Token} {x : WrittenValue} (h : WritesValue used x) :
      WritesArg used ⟨none, x⟩
  | named {name equals : Token} {key : String} {used : List Token} {x : WrittenValue}
      (hname : name.kind = .identifier key) (hequals : equals.kind = .symbol .equals)
      (h : WritesValue used x) : WritesArg (name :: equals :: used) ⟨some key, x⟩

inductive WritesArgs : List Token → List WrittenArg → Prop
  | nil : WritesArgs [] []
  | last {used : List Token} {x : WrittenArg} (h : WritesArg used x) : WritesArgs used [x]
  | cons {used more : List Token} {comma : Token} {x : WrittenArg} {xs : List WrittenArg}
      (h : WritesArg used x) (hcomma : comma.kind = .symbol .comma) (hmore : WritesArgs more xs) :
      WritesArgs (used ++ comma :: more) (x :: xs)

inductive WritesAttribute : List Token → WrittenAttribute → Prop
  | bare {t : Token} {name : String} (h : t.kind = .identifier name) :
      WritesAttribute [t] ⟨name, [], t.span⟩
  | applied {t left right : Token} {name : String} {used : List Token} {args : List WrittenArg}
      (h : t.kind = .identifier name) (hleft : left.kind = .symbol .leftParen)
      (hargs : WritesArgs used args) (hright : right.kind = .symbol .rightParen) :
      WritesAttribute (t :: left :: (used ++ [right])) ⟨name, args, t.span⟩

theorem WritesArg.exists_value {used : List Token} {x : WrittenArg} (h : WritesArg used x) :
    ∃ part, part <:+: used ∧ WritesValue part x.value := by
  cases h with
  | positional h => exact ⟨used, List.infix_rfl, h⟩
  | @named name equals _ part _ _ _ h =>
      exact ⟨part, (List.suffix_append [name, equals] part).isInfix, h⟩

theorem WritesArgs.exists_value {used : List Token} {xs : List WrittenArg}
    (h : WritesArgs used xs) : ∀ x ∈ xs, ∃ part, part <:+: used ∧ WritesValue part x.value := by
  induction h with
  | nil => simp
  | last h => simpa using h.exists_value
  | @cons used more comma x xs h _ _ ih =>
      rw [List.forall_mem_cons]
      constructor
      · obtain ⟨part, hpart, hx⟩ := h.exists_value
        exact ⟨part, hpart.trans (List.prefix_append used _).isInfix, hx⟩
      · intro y hy
        obtain ⟨part, hpart, hy⟩ := ih y hy
        have hmore : more <:+ used ++ comma :: more :=
          (List.suffix_cons comma more).trans (List.suffix_append used _)
        exact ⟨part, hpart.trans hmore.isInfix, hy⟩

theorem WritesAttribute.exists_value {used : List Token} {x : WrittenAttribute}
    (h : WritesAttribute used x) :
    ∀ arg ∈ x.args, ∃ part, part <:+: used ∧ WritesValue part arg.value := by
  cases h with
  | bare h => simp
  | @applied t left right _ used _ _ _ hargs _ =>
      intro arg harg
      obtain ⟨part, hpart, hvalue⟩ := hargs.exists_value arg harg
      exact ⟨part, hpart.trans ⟨[t, left], [right], by simp⟩, hvalue⟩

theorem WritesValue.exists_literal {used : List Token} {w : Int}
    (h : WritesValue used (.integer w)) :
    ∃ t ∈ used, ∃ n : UInt64, t.IsInteger n ∧ (w = n.toNat ∨ w = -n.toNat) := by
  cases h with
  | @integer t n h => exact ⟨t, List.mem_cons_self, n, h, Or.inl rfl⟩
  | @negative sign t n _ h =>
      exact ⟨t, List.mem_cons_of_mem sign List.mem_cons_self, n, h, Or.inr rfl⟩

theorem WritesValue.integer_bounds {used : List Token} {w : Int}
    (h : WritesValue used (.integer w)) : -UInt64.size < w ∧ w < UInt64.size := by
  obtain ⟨t, -, n, -, hw⟩ := h.exists_literal
  have hn : n.toNat < UInt64.size := n.toNat_lt
  omega

namespace Grammar

variable {α : Type} {tokens ts rest : List Token} {bound : Nat}

theorem exists_of_advance_ok {kind : Kind} (h : advance ts = .ok (kind, rest))
    (hkind : isEof kind = false) : ∃ t, ts = t :: rest ∧ t.kind = kind := by
  cases ts with
  | nil =>
      cases h
      cases hkind
  | cons t ts =>
      cases h
      exact ⟨t, rfl, rfl⟩

theorem exists_cons_of_nextKind {kind : Kind} (hkind : isEof kind = false)
    (h : nextKind ts = kind) : ∃ t rest, ts = t :: rest ∧ t.kind = kind := by
  cases ts with
  | nil =>
      cases h
      cases hkind
  | cons t rest => exact ⟨t, rest, rfl, h⟩

theorem exists_of_eat_ok {kind : Kind} {eaten : Bool} (hkind : isEof kind = false)
    (h : eat kind ts = .ok (eaten, rest)) :
    (eaten = true ∧ ∃ t, ts = t :: rest ∧ t.kind = kind) ∨ (eaten = false ∧ rest = ts) := by
  by_cases hnext : nextKind ts = kind
  · obtain ⟨t, after, rfl, ht⟩ := exists_cons_of_nextKind hkind hnext
    rw [eat_cons ht] at h
    cases h
    exact Or.inl ⟨rfl, t, rfl, ht⟩
  · rw [eat_of_ne hnext] at h
    cases h
    exact Or.inr ⟨rfl, rfl⟩

theorem exists_of_expect_ok {kind : Kind} {u : Unit} (hkind : isEof kind = false)
    (h : expect kind ts = .ok (u, rest)) : ∃ t, ts = t :: rest ∧ t.kind = kind := by
  by_cases hnext : nextKind ts = kind
  · obtain ⟨t, after, rfl, ht⟩ := exists_cons_of_nextKind hkind hnext
    rw [expect_cons ht] at h
    cases h
    exact ⟨t, rfl, ht⟩
  · rw [expect, bind_ok (peek_eq _), beq_false_of_ne hnext] at h
    cases h

theorem exists_of_ident_ok {what name : String} (h : ident what ts = .ok (name, rest)) :
    ∃ t, ts = t :: rest ∧ t.kind = .identifier name := by
  cases hnext : nextKind ts with
  | identifier name' =>
      obtain ⟨t, after, rfl, ht⟩ := exists_cons_of_nextKind rfl hnext
      rw [ident_cons ht] at h
      cases h
      exact ⟨t, rfl, ht⟩
  | _ =>
      rw [ident, bind_ok (peek_eq _), hnext] at h
      cases h

theorem toInt64_eq_ofInt (n : UInt64) : n.toInt64 = .ofInt n.toNat := by
  rw [Int64.ofInt_eq_ofNat, ← UInt64.toInt64_ofNat', UInt64.ofNat_toNat]

/-- The word of a written integer is what is read. -/
theorem attrValue_of_writesInteger {used : List Token} {w : Int}
    (h : WritesValue used (.integer w)) (rest : List Token) :
    attrValue (used ++ rest) = .ok (.int (.ofInt w), rest) := by
  cases h with
  | @integer t n h =>
      rw [← toInt64_eq_ofInt]
      rcases h with h | h
      all_goals
        have hne : nextKind (t :: rest) ≠ .symbol .minus := by simp [h]
        rw [List.cons_append, List.nil_append, attrValue, bind_ok rfl, bind_ok (eat_of_ne hne),
          bind_ok (advance_cons t rest), h]
        rfl
  | @negative sign t n hsign h =>
      rw [Int64.ofInt_neg, ← toInt64_eq_ofInt]
      rcases h with h | h
      all_goals
        rw [List.cons_append, List.cons_append, List.nil_append, attrValue, bind_ok rfl,
          bind_ok (eat_cons hsign _), bind_ok (advance_cons t rest), h]
        rfl

theorem writesValue_of_attrValue {v : AttrValue} (h : attrValue ts = .ok (v, rest)) :
    ∃ used x, ts = used ++ rest ∧ WritesValue used x ∧ v = x.read := by
  obtain ⟨span, ts₁, hhere, h⟩ := exists_of_bind_ok h
  cases hhere
  obtain ⟨negative, ts₂, heat, h⟩ := exists_of_bind_ok h
  obtain ⟨got, ts₃, hgot, h⟩ := exists_of_bind_ok h
  -- no value begins with the end, so a token was taken
  have hvalue : isEof got = false ∧ ts₃ = rest := by
    cases got with
    | keyword word => cases word <;> cases negative <;> cases h <;> exact ⟨rfl, rfl⟩
    | _ => cases negative <;> cases h <;> exact ⟨rfl, rfl⟩
  obtain ⟨t, rfl, ht⟩ := exists_of_advance_ok hgot hvalue.1
  obtain rfl := hvalue.2
  obtain ⟨rfl, sign, rfl, hsign⟩ | ⟨rfl, rfl⟩ := exists_of_eat_ok rfl heat
  · cases got with
    | int n | uint n =>
        cases h
        refine ⟨[sign, t], .integer (-n.toNat), rfl, .negative hsign (by simp [IsInteger, ht]), ?_⟩
        rw [WrittenValue.read, Int64.ofInt_neg, ← toInt64_eq_ofInt]
        rfl
    | float x | double x =>
        cases h
        exact ⟨[sign, t], _, rfl, .negativeFraction hsign (by simp [IsFraction, ht]), rfl⟩
    | keyword word => cases word <;> cases h
    | _ => cases h
  · cases got with
    | int n | uint n =>
        cases h
        refine ⟨[t], .integer n.toNat, rfl, .integer (by simp [IsInteger, ht]), ?_⟩
        rw [WrittenValue.read, ← toInt64_eq_ofInt]
        rfl
    | float x | double x =>
        cases h
        exact ⟨[t], _, rfl, .fraction (by simp [IsFraction, ht]), rfl⟩
    | string s =>
        cases h
        exact ⟨[t], _, rfl, .text ht, rfl⟩
    | identifier s =>
        cases h
        exact ⟨[t], _, rfl, .name ht, rfl⟩
    | keyword word =>
        cases word with
        | kwTrue =>
            cases h
            exact ⟨[t], _, rfl, .true ht, rfl⟩
        | kwFalse =>
            cases h
            exact ⟨[t], _, rfl, .false ht, rfl⟩
        | _ => cases h
    | _ => cases h

theorem writesArg_of_attributeArg {arg : AttributeArg} (h : attributeArg ts = .ok (arg, rest)) :
    ∃ used x, ts = used ++ rest ∧ WritesArg used x ∧ arg = x.read := by
  rw [attributeArg, bind_ok rfl, bind_ok rfl] at h
  split at h
  · next hnamed =>
      obtain ⟨key, ts₁, hkey, hafter⟩ := exists_of_bind_ok h
      obtain ⟨got, ts₂, hgot, hafter⟩ := exists_of_bind_ok hafter
      obtain ⟨v, ts₃, hv, hafter⟩ := exists_of_bind_ok hafter
      cases hafter
      obtain ⟨used, x, rfl, hx, rfl⟩ := writesValue_of_attrValue hv
      obtain ⟨name, rfl, hname⟩ := exists_of_ident_ok hkey
      obtain ⟨-, hequals⟩ := Bool.and_eq_true_iff.mp hnamed
      cases ts₁ with
      | nil => simp at hequals
      | cons equals ts₁ =>
          cases hgot
          exact ⟨name :: equals :: used, ⟨some key, x⟩, rfl,
            .named hname (eq_of_beq hequals) hx, rfl⟩
  · obtain ⟨v, ts₁, hv, hafter⟩ := exists_of_bind_ok h
    cases hafter
    obtain ⟨used, x, rfl, hx, rfl⟩ := writesValue_of_attrValue hv
    exact ⟨used, ⟨none, x⟩, rfl, .positional hx, rfl⟩

theorem writesArgs_of_commaList {close : Kind} {args : List AttributeArg}
    (h : commaList close attributeArg bound ts = .ok (args, rest)) :
    ∃ used xs, ts = used ++ rest ∧ WritesArgs used xs ∧ args = xs.map WrittenArg.read := by
  induction bound generalizing ts args with
  | zero => cases h
  | succ bound ih =>
      rw [commaList, bind_ok (isAt_eq _ _)] at h
      split at h
      · cases h
        exact ⟨[], [], rfl, .nil, rfl⟩
      · obtain ⟨first, ts₁, hfirst, hnext⟩ := exists_of_bind_ok h
        obtain ⟨eaten, ts₂, heat, hafter⟩ := exists_of_bind_ok hnext
        obtain ⟨used, x, rfl, hx, rfl⟩ := writesArg_of_attributeArg hfirst
        obtain ⟨rfl, comma, rfl, hcomma⟩ | ⟨rfl, rfl⟩ := exists_of_eat_ok rfl heat
        · obtain ⟨others, ts₃, hothers, hdone⟩ := exists_of_bind_ok hafter
          cases hdone
          obtain ⟨more, xs, rfl, hxs, rfl⟩ := ih hothers
          exact ⟨used ++ comma :: more, x :: xs, by simp, .cons hx hcomma hxs, rfl⟩
        · cases hafter
          exact ⟨used, [x], rfl, .last hx, rfl⟩

theorem writesAttribute_of_oneAttribute {a : Attribute}
    (h : oneAttribute bound ts = .ok (a, rest)) :
    ∃ used x, ts = used ++ rest ∧ WritesAttribute used x ∧ a = x.read := by
  rw [oneAttribute, bind_ok rfl] at h
  obtain ⟨name, ts₁, hname, h⟩ := exists_of_bind_ok h
  obtain ⟨t, rfl, ht⟩ := exists_of_ident_ok hname
  obtain ⟨eaten, ts₂, heat, h⟩ := exists_of_bind_ok h
  obtain ⟨rfl, left, rfl, hleft⟩ | ⟨rfl, rfl⟩ := exists_of_eat_ok rfl heat
  · obtain ⟨args, ts₃, hargs, hafter⟩ := exists_of_bind_ok h
    obtain ⟨⟨⟩, ts₄, hclose, hafter⟩ := exists_of_bind_ok hafter
    cases hafter
    obtain ⟨right, rfl, hright⟩ := exists_of_expect_ok rfl hclose
    obtain ⟨used, xs, rfl, hxs, rfl⟩ := writesArgs_of_commaList hargs
    exact ⟨t :: left :: (used ++ [right]), ⟨name, xs, t.span⟩, by simp,
      .applied ht hleft hxs hright, rfl⟩
  · cases h
    exact ⟨[t], ⟨name, [], t.span⟩, rfl, .bare ht, rfl⟩

/-- Each attribute is read of one that is written among the tokens. -/
structure WrittenWithin (tokens : List Token) (attributes : List Attribute)
    (written : List WrittenAttribute) : Prop where
  read : attributes = written.map WrittenAttribute.read
  among : ∀ x ∈ written, ∃ used, used <:+: tokens ∧ WritesAttribute used x

namespace WrittenWithin

variable {as bs : List Attribute} {xs ys : List WrittenAttribute}

theorem nil : WrittenWithin tokens [] [] := ⟨rfl, by simp⟩

theorem append (h : WrittenWithin tokens as xs) (h' : WrittenWithin tokens bs ys) :
    WrittenWithin tokens (as ++ bs) (xs ++ ys) := by
  refine ⟨by rw [h.read, h'.read, List.map_append], fun x hx => ?_⟩
  rcases List.mem_append.mp hx with hx | hx
  · exact h.among x hx
  · exact h'.among x hx

theorem cons {a : Attribute} {x : WrittenAttribute} {used : List Token} (ha : a = x.read)
    (hused : used <:+: tokens) (hx : WritesAttribute used x) (h : WrittenWithin tokens as xs) :
    WrittenWithin tokens (a :: as) (x :: xs) := by
  refine ⟨by rw [ha, h.read, List.map_cons], fun y hy => ?_⟩
  rcases List.mem_cons.mp hy with rfl | hy
  · exact ⟨used, hused, hx⟩
  · exact h.among y hy

end WrittenWithin

theorem writtenWithin_of_sepBy {fuel : Nat} {as : List Attribute} (hts : ts <:+ tokens)
    (h : sepBy (oneAttribute fuel) bound ts = .ok (as, rest)) :
    rest <:+ tokens ∧ ∃ xs, WrittenWithin tokens as xs := by
  induction bound generalizing ts as with
  | zero => cases h
  | succ bound ih =>
      obtain ⟨first, ts₁, hfirst, hnext⟩ := exists_of_bind_ok h
      obtain ⟨eaten, ts₂, heat, hafter⟩ := exists_of_bind_ok hnext
      obtain ⟨used, x, rfl, hx, hread⟩ := writesAttribute_of_oneAttribute hfirst
      have hused : used <:+: tokens := (List.prefix_append used ts₁).isInfix.trans hts.isInfix
      have hts₁ : ts₁ <:+ tokens := (List.suffix_append used ts₁).trans hts
      obtain ⟨rfl, comma, rfl, -⟩ | ⟨rfl, rfl⟩ := exists_of_eat_ok rfl heat
      · obtain ⟨others, ts₃, hothers, hdone⟩ := exists_of_bind_ok hafter
        cases hdone
        obtain ⟨hrest, xs, hxs⟩ := ih ((List.suffix_cons comma ts₂).trans hts₁) hothers
        exact ⟨hrest, x :: xs, .cons hread hused hx hxs⟩
      · cases hafter
        exact ⟨hts₁, [x], .cons hread hused hx .nil⟩

theorem advance_suffix {kind : Kind} (h : advance ts = .ok (kind, rest)) : rest <:+ ts := by
  cases ts with
  | nil =>
      cases h
      exact List.suffix_rfl
  | cons t ts =>
      cases h
      exact List.suffix_cons t _

theorem writtenWithin_of_attributeList {list : Bool × List Attribute} (hts : ts <:+ tokens)
    (h : attributeList bound ts = .ok (list, rest)) :
    rest <:+ tokens ∧ ∃ xs, WrittenWithin tokens list.2 xs := by
  have hlist {forReturn : Bool} {ts' : List Token} (hts' : ts' <:+ tokens)
      (h : (do let attributes ← sepBy (oneAttribute bound) bound
               expect Symbol.rightBracket
               return (forReturn, attributes) : Reader (Bool × List Attribute)) ts' =
        .ok (list, rest)) : rest <:+ tokens ∧ ∃ xs, WrittenWithin tokens list.2 xs := by
    obtain ⟨as, ts₁, has, hafter⟩ := exists_of_bind_ok h
    obtain ⟨⟨⟩, ts₂, hclose, hdone⟩ := exists_of_bind_ok hafter
    cases hdone
    obtain ⟨right, rfl, -⟩ := exists_of_expect_ok rfl hclose
    obtain ⟨hrest, hwritten⟩ := writtenWithin_of_sepBy hts' has
    exact ⟨(List.suffix_cons right rest).trans hrest, hwritten⟩
  obtain ⟨⟨⟩, ts₁, hopen, hafter⟩ := exists_of_bind_ok h
  obtain ⟨left, rfl, -⟩ := exists_of_expect_ok rfl hopen
  have hts₁ : ts₁ <:+ tokens := (List.suffix_cons left ts₁).trans hts
  rw [bind_ok rfl, bind_ok rfl] at hafter
  split at hafter
  · obtain ⟨word, ts₂, hword, hafter⟩ := exists_of_bind_ok hafter
    obtain ⟨colon, ts₃, hcolon, hafter⟩ := exists_of_bind_ok hafter
    exact hlist ((advance_suffix hcolon).trans ((advance_suffix hword).trans hts₁)) hafter
  · exact hlist hts₁ hafter

theorem forall_of_manyUntil {P : List Token → Prop} {Q : α → Prop} {stop : Kind → Bool}
    {item : Reader α} {as : List α}
    (hitem : ∀ ts a rest, P ts → item ts = .ok (a, rest) → P rest ∧ Q a) (hts : P ts)
    (h : manyUntil stop item bound ts = .ok (as, rest)) : P rest ∧ ∀ a ∈ as, Q a := by
  induction bound generalizing ts as with
  | zero => cases h
  | succ bound ih =>
      rw [manyUntil, bind_ok (peek_eq ts)] at h
      split at h
      · cases h
        exact ⟨hts, nofun⟩
      · obtain ⟨first, ts₁, hfirst, hnext⟩ := exists_of_bind_ok h
        obtain ⟨others, ts₂, hothers, hdone⟩ := exists_of_bind_ok hnext
        cases hdone
        obtain ⟨hts₁, hq⟩ := hitem ts first ts₁ hts hfirst
        obtain ⟨hrest, hall⟩ := ih hts₁ hothers
        exact ⟨hrest, List.forall_mem_cons.mpr ⟨hq, hall⟩⟩

theorem writtenWithin_flatMap {lists : List (Bool × List Attribute)}
    (h : ∀ list ∈ lists, ∃ xs, WrittenWithin tokens list.2 xs) :
    ∃ xs, WrittenWithin tokens (lists.flatMap (·.2)) xs := by
  induction lists with
  | nil => exact ⟨[], .nil⟩
  | cons list lists ih =>
      obtain ⟨xs, hxs⟩ := h list List.mem_cons_self
      obtain ⟨ys, hys⟩ := ih fun l hl => h l (List.mem_cons_of_mem list hl)
      exact ⟨xs ++ ys, hxs.append hys⟩

theorem writtenWithin_of_attributes {as : List Attribute} (hts : ts <:+ tokens)
    (h : attributes bound ts = .ok (as, rest)) : ∃ xs, WrittenWithin tokens as xs := by
  rw [attributes, bind_ok rfl] at h
  obtain ⟨⟨own, forReturn⟩, ts₁, hparts, hnext⟩ := exists_of_bind_ok h
  obtain ⟨lists, ts₂, hlists, hdone⟩ := exists_of_bind_ok hparts
  cases hdone
  have hall : ∀ list ∈ lists, ∃ xs, WrittenWithin tokens list.2 xs :=
    (forall_of_manyUntil
      (fun _ _ _ hts hlist => writtenWithin_of_attributeList hts hlist) hts hlists).2
  dsimp only at hnext
  split at hnext
  · cases hnext
    exact writtenWithin_flatMap fun list hlist => hall list (List.mem_filter.mp hlist).1
  · cases hnext

theorem writtenWithin_of_classDecl {fuel : Nat} {c : ClassDecl} (hts : ts <:+ tokens)
    (h : classDecl fuel ts = .ok (c, rest)) : ∃ xs, WrittenWithin tokens c.attributes xs := by
  rw [classDecl, bind_ok rfl] at h
  obtain ⟨attrs, ts₁, hattrs, h⟩ := exists_of_bind_ok h
  have hwritten := writtenWithin_of_attributes hts hattrs
  -- what comes behind the attributes leaves them as they are
  obtain ⟨⟨⟩, ts₂, -, h⟩ := exists_of_bind_ok h
  obtain ⟨isStatic, ts₃, -, h⟩ := exists_of_bind_ok h
  obtain ⟨⟨⟩, ts₄, -, h⟩ := exists_of_bind_ok h
  obtain ⟨⟨⟩, ts₅, -, h⟩ := exists_of_bind_ok h
  obtain ⟨name, ts₆, -, h⟩ := exists_of_bind_ok h
  obtain ⟨kind, ts₇, -, h⟩ := exists_of_bind_ok h
  obtain ⟨⟨⟩, ts₈, -, h⟩ := exists_of_bind_ok h
  obtain ⟨members, ts₉, -, h⟩ := exists_of_bind_ok h
  obtain ⟨⟨⟩, ts₁₀, -, h⟩ := exists_of_bind_ok h
  cases h
  exact hwritten

theorem SettlesAt.within_of_ok {least : α → Nat} {r r' : Reader α} {fuel depth : Nat} {a : α}
    (h : SettlesAt tokens fuel depth least r r' ts) (hok : r ts = .ok (a, rest)) :
    Within tokens rest := by
  unfold SettlesAt at h
  rw [hok] at h
  exact h.2.1

theorem writtenWithin_of_sourceItem {fuel : Nat} {item : Option ClassDecl}
    (hts : Within tokens ts) (h : sourceItem fuel ts = .ok (item, rest)) :
    Within tokens rest ∧ ∀ c ∈ item, ∃ xs, WrittenWithin tokens c.attributes xs := by
  refine ⟨(Takes.sourceItem.settles ts hts).within_of_ok h, ?_⟩
  rw [sourceItem, bind_ok (isAt_eq _ _)] at h
  split at h
  · obtain ⟨⟨⟩, ts₁, -, hdone⟩ := exists_of_bind_ok h
    cases hdone
    exact nofun
  · obtain ⟨c, ts₁, hc, hdone⟩ := exists_of_bind_ok h
    cases hdone
    rintro c ⟨⟩
    exact writtenWithin_of_classDecl hts.suffix hc

end Grammar

/-- The attributes of every class are written among the tokens that it is read from. -/
theorem writtenWithin_of_readClasses {tokens : List Token} {classes : List ClassDecl}
    (hends : Grammar.EndsOnce tokens) (h : readClasses tokens = .ok classes) :
    ∀ c ∈ classes, ∃ xs, Grammar.WrittenWithin tokens c.attributes xs := by
  obtain ⟨⟨_, rest⟩, hsource, rfl⟩ := exists_of_map_ok h
  obtain ⟨items, ts, hitems, hdone⟩ := exists_of_bind_ok hsource
  cases hdone
  have hne : tokens ≠ [] := by
    obtain ⟨before, last, rfl, -, -⟩ := hends
    simp
  have hall := (Grammar.forall_of_manyUntil
    (fun _ _ _ hts hitem => Grammar.writtenWithin_of_sourceItem hts hitem)
    (hends.within List.suffix_rfl hne) hitems).2
  intro c hc
  obtain ⟨item, hitem, hsome⟩ := List.mem_filterMap.mp hc
  exact hall item hitem c hsome

end ShaderCompiler
