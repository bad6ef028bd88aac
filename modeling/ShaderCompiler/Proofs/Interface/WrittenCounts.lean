import ShaderCompiler.Proofs.Grammar.WrittenAttributes
import ShaderCompiler.Proofs.Interface.Legality
import ShaderCompiler.Proofs.Token.Tiling
import ShaderCompiler.Shader.Source

namespace ShaderCompiler

inductive CountSlot where
  | invocations | maxVertices | vertices

namespace CountSlot

def attributeName : CountSlot → String
  | invocations => "GeometryInput"
  | maxVertices => "GeometryOutput"
  | vertices => "TessControl"

def key : CountSlot → String
  | invocations => "Invocations"
  | maxVertices => "MaxVertices"
  | vertices => "Vertices"

def stage : CountSlot → Stage
  | invocations | maxVertices => .geometry
  | vertices => .tessControl

def value? (slot : CountSlot) (a : Attribute) : Option AttrValue :=
  match slot with
  | vertices => (a.named? slot.key).or a.positionals.head?
  | _ => a.named? slot.key

/-- The count that an attribute gives. -/
def counted (slot : CountSlot) (a : Attribute) : Except AttributeFault (Option Nat) :=
  match slot with
  | vertices => a.vertices.map some
  | _ => a.count? slot.key

end CountSlot

def StageLayout.count : StageLayout → CountSlot → Option Nat
  | .geometry _ invocations _ _, .invocations => invocations
  | .geometry _ _ _ maxVertices, .maxVertices => maxVertices
  | .tessControl vertices, .vertices => some vertices
  | _, _ => .none

def HeaderParts.count (p : HeaderParts) : CountSlot → Option Nat
  | .invocations => p.geometryInput.bind (·.2)
  | .maxVertices => p.geometryOutput.bind (·.2)
  | .vertices => p.tessControl

def IsCount (v : Int64) (n : Nat) : Prop := v.toInt = n ∧ n < UInt32.size

section IsCount

variable {v : Int64} {n : Nat}

theorem isCount_iff :
    IsCount v n ↔ (0 ≤ v.toInt ∧ v.toInt < UInt32.size) ∧ v.toInt.toNat = n := by
  unfold IsCount
  omega

theorem guarded_count_iff {ε β : Type} {f : Nat → β} (hf : f.Injective) {e : ε} :
    (if 0 ≤ v.toInt ∧ v.toInt < UInt32.size then Except.ok (f v.toInt.toNat) else .error e) =
      .ok (f n) ↔ IsCount v n := by
  rw [isCount_iff]
  by_cases hrange : 0 ≤ v.toInt ∧ v.toInt < UInt32.size
  · rw [if_pos hrange]
    constructor
    · intro h
      exact ⟨hrange, hf (Except.ok.inj h)⟩
    · rintro ⟨-, rfl⟩
      rfl
  · rw [if_neg hrange]
    constructor
    · intro h
      cases h
    · rintro ⟨h, -⟩
      exact absurd h hrange

theorem exists_word_iff {P : Int64 → Prop} :
    (∃ v', some (AttrValue.int v) = some (.int v') ∧ P v') ↔ P v := by
  simp

end IsCount

namespace Attribute

variable {a : Attribute} {key : String} {n : Nat}

theorem count?_eq_none_iff : a.count? key = .ok none ↔ a.named? key = none := by
  unfold count?
  split
  · next h => simp [h]
  · next v h =>
      rw [h]
      split <;> simp
  · next h => simp [h]

theorem count?_eq_some_iff :
    a.count? key = .ok (some n) ↔ ∃ v, a.named? key = some (.int v) ∧ IsCount v n := by
  rw [count?]
  cases a.named? key with
  | none => simp
  | some value =>
      cases value with
      | int v =>
          rw [exists_word_iff]
          exact guarded_count_iff fun _ _ => Option.some.inj
      | _ => simp

theorem vertices_eq_ok_iff :
    a.vertices = .ok n ↔
      ∃ v, (a.named? "Vertices").or a.positionals.head? = some (.int v) ∧ IsCount v n := by
  rw [vertices]
  cases hnamed : a.named? "Vertices" with
  | none =>
      rw [count?_eq_none_iff.mpr hnamed, Option.none_or]
      cases a.positionals.head? with
      | none => simp [bind, Except.bind, throw, throwThe, MonadExceptOf.throw]
      | some value =>
          cases value with
          | int v =>
              rw [exists_word_iff]
              exact guarded_count_iff Function.injective_id
          | _ => simp [bind, Except.bind, throw, throwThe, MonadExceptOf.throw]
  | some value =>
      rw [Option.some_or, ← hnamed, ← count?_eq_some_iff]
      cases hcount : a.count? "Vertices" with
      | error e => exact ⟨nofun, nofun⟩
      | ok given =>
          cases given with
          | none =>
              rw [count?_eq_none_iff.mp hcount] at hnamed
              cases hnamed
          | some m => exact ⟨fun h => by cases h; rfl, fun h => by cases h; rfl⟩

end Attribute

theorem CountSlot.counted_eq_some_iff {slot : CountSlot} {a : Attribute} {n : Nat} :
    slot.counted a = .ok (some n) ↔ ∃ v, slot.value? a = some (.int v) ∧ IsCount v n := by
  cases slot with
  | invocations => exact Attribute.count?_eq_some_iff
  | maxVertices => exact Attribute.count?_eq_some_iff
  | vertices =>
      refine Iff.trans ?_ Attribute.vertices_eq_ok_iff
      constructor
      · intro h
        obtain ⟨m, hm, hsome⟩ := exists_of_map_ok h
        rw [hm, Option.some.inj hsome]
      · intro h
        rw [counted, h]
        rfl

def lastNamed? {α : Type} (nameOf : α → String) (name : String) (entries : List α) : Option α :=
  entries.reverse.find? (nameOf · == name)

theorem lastNamed?_cons {α : Type} (nameOf : α → String) (name : String) (x : α) (xs : List α) :
    lastNamed? nameOf name (x :: xs) =
      (lastNamed? nameOf name xs).or (if nameOf x = name then some x else none) := by
  rw [lastNamed?, List.reverse_cons, List.find?_append, List.find?_singleton]
  simp only [beq_iff_eq]
  rfl

theorem lastNamed?_map {α β : Type} {nameOf : α → String} {nameOf' : β → String} {f : α → β}
    (hf : ∀ x, nameOf' (f x) = nameOf x) (name : String) (xs : List α) :
    lastNamed? nameOf' name (xs.map f) = (lastNamed? nameOf name xs).map f := by
  rw [lastNamed?, ← List.map_reverse, List.find?_map]
  simp only [Function.comp_def, hf]
  rfl

section Header

variable {c : ClassDecl} {stage : Stage} {p p' : HeaderParts} {a : Attribute}

theorem count_of_add (h : HeaderParts.add c stage p a = .ok p') (slot : CountSlot) :
    (a.name = slot.attributeName ∧ stage = slot.stage ∧ slot.counted a = .ok (p'.count slot)) ∨
      (a.name ≠ slot.attributeName ∧ p'.count slot = p.count slot) := by
  have hother {name : String} (hname : a.name = name) (hslot : name ≠ slot.attributeName)
      (hp : p'.count slot = p.count slot) :
      (a.name = slot.attributeName ∧ stage = slot.stage ∧ slot.counted a = .ok (p'.count slot)) ∨
        (a.name ≠ slot.attributeName ∧ p'.count slot = p.count slot) :=
    Or.inr ⟨hname ▸ hslot, hp⟩
  cases HeaderParts.adds_of_add h with
  | version hname | extension hname | debug hname | tessEvaluation hname =>
      cases slot <;> exact hother hname (by decide) rfl
  | geometryInput hname hstage _ hcount =>
      cases slot with
      | invocations => exact Or.inl ⟨hname, hstage, hcount⟩
      | _ => exact hother hname (by decide) rfl
  | geometryOutput hname hstage _ hcount =>
      cases slot with
      | maxVertices => exact Or.inl ⟨hname, hstage, hcount⟩
      | _ => exact hother hname (by decide) rfl
  | tessControl hname hstage hcount =>
      cases slot with
      | vertices =>
          refine Or.inl ⟨hname, hstage, ?_⟩
          rw [CountSlot.counted, hcount]
          rfl
      | _ => exact hother hname (by decide) rfl

/-- The last attribute of its name decides about a count. -/
theorem count_of_foldlM {attributes : List Attribute}
    (h : attributes.foldlM (HeaderParts.add c stage) p = .ok p') (slot : CountSlot) :
    (∀ a, lastNamed? Attribute.name slot.attributeName attributes = some a →
      stage = slot.stage ∧ slot.counted a = .ok (p'.count slot)) ∧
    (lastNamed? Attribute.name slot.attributeName attributes = none →
      p'.count slot = p.count slot) := by
  induction attributes generalizing p with
  | nil =>
      cases h
      exact ⟨nofun, fun _ => rfl⟩
  | cons b attributes ih =>
      rw [List.foldlM_cons] at h
      obtain ⟨q, hq, h⟩ := exists_of_except_bind_ok h
      obtain ⟨hsome, hnone⟩ := ih h
      rw [lastNamed?_cons]
      cases hlast : lastNamed? Attribute.name slot.attributeName attributes with
      | some a => exact ⟨fun a' ha' => hsome a' (hlast.trans ha'), nofun⟩
      | none =>
          rw [Option.none_or, hnone hlast]
          obtain ⟨hname, hstage, hcount⟩ | ⟨hname, hcount⟩ := count_of_add hq slot
          · rw [if_pos hname]
            refine ⟨?_, nofun⟩
            rintro a ⟨⟩
            exact ⟨hstage, hcount⟩
          · rw [if_neg hname]
            exact ⟨nofun, fun _ => hcount⟩

def StageLayout.Countless (layout : StageLayout) : Prop := ∀ slot, layout.count slot = .none

theorem countless_of_tessEvaluation {layout : StageLayout} (h : a.tessEvaluation = .ok layout) :
    layout.Countless := by
  obtain ⟨parts, -, h⟩ := exists_of_except_bind_ok h
  split at h
  · cases h
    intro slot
    cases slot <;> rfl
  · cases h

theorem countless_of_add (hp : ∀ layout ∈ p.tessEvaluation, layout.Countless)
    (h : HeaderParts.add c stage p a = .ok p') :
    ∀ layout ∈ p'.tessEvaluation, layout.Countless := by
  cases HeaderParts.adds_of_add h with
  | tessEvaluation _ _ hlayout =>
      rintro _ ⟨⟩
      exact countless_of_tessEvaluation hlayout
  | _ => exact hp

theorem countless_of_foldlM {attributes : List Attribute}
    (hp : ∀ layout ∈ p.tessEvaluation, layout.Countless)
    (h : attributes.foldlM (HeaderParts.add c stage) p = .ok p') :
    ∀ layout ∈ p'.tessEvaluation, layout.Countless := by
  induction attributes generalizing p with
  | nil =>
      cases h
      exact hp
  | cons a attributes ih =>
      rw [List.foldlM_cons] at h
      obtain ⟨q, hq, h⟩ := exists_of_except_bind_ok h
      exact ih (countless_of_add hp hq) h

theorem count_of_stageLayout {layout : StageLayout}
    (hp : ∀ layout ∈ p.tessEvaluation, layout.Countless)
    (h : p.stageLayout c stage = .ok layout) (slot : CountSlot) :
    layout.count slot = if stage = slot.stage then p.count slot else none := by
  unfold HeaderParts.stageLayout at h
  split at h
  · cases h
    cases slot <;> rfl
  · cases h
    cases slot <;> rfl
  · split at h
    · cases h
    · cases h
    · next hinput houtput =>
        cases h
        cases slot with
        | invocations => simp [HeaderParts.count, hinput, StageLayout.count, CountSlot.stage]
        | maxVertices => simp [HeaderParts.count, houtput, StageLayout.count, CountSlot.stage]
        | vertices => rfl
  · split at h
    · next hvertices =>
        cases h
        cases slot with
        | vertices => simp [HeaderParts.count, hvertices, StageLayout.count, CountSlot.stage]
        | _ => rfl
    · cases h
  · split at h
    · next hlayout =>
        cases h
        rw [hp layout hlayout slot]
        cases slot <;> rfl
    · cases h

theorem count_of_header {settings : Settings} {header : Header}
    (h : Header.ofClass settings stage c = .ok header) (slot : CountSlot) (n : Nat) :
    header.stageLayout.count slot = some n ↔
      ∃ a, lastNamed? Attribute.name slot.attributeName c.attributes = some a ∧
        slot.counted a = .ok (some n) := by
  obtain ⟨parts, hparts, h⟩ := exists_of_except_bind_ok h
  obtain ⟨layout, hlayout, h⟩ := exists_of_except_bind_ok h
  cases h
  have hcountless : ∀ layout ∈ parts.tessEvaluation, layout.Countless :=
    countless_of_foldlM (by rintro _ ⟨⟩) hparts
  obtain ⟨hsome, hnone⟩ := count_of_foldlM hparts slot
  show layout.count slot = some n ↔ _
  rw [count_of_stageLayout hcountless hlayout slot]
  cases hlast : lastNamed? Attribute.name slot.attributeName c.attributes with
  | none =>
      have hcount : parts.count slot = none := by
        rw [hnone hlast]
        cases slot <;> rfl
      simp [hcount]
  | some a =>
      obtain ⟨hstage, hcounted⟩ := hsome a hlast
      rw [if_pos hstage]
      simp [hcounted]

end Header

namespace WrittenAttribute

def named? (x : WrittenAttribute) (key : String) : Option WrittenValue :=
  x.args.findSome? fun arg =>
    if arg.key.any (Attribute.sameKey · key) then some arg.value else none

def positional? (x : WrittenAttribute) : Option WrittenValue :=
  x.args.findSome? fun arg => if arg.key.isNone then some arg.value else none

theorem named?_read (x : WrittenAttribute) (key : String) :
    x.read.named? key = (x.named? key).map WrittenValue.read := by
  rw [Attribute.named?, named?, read, List.findSome?_map, List.map_findSome?]
  congr 1
  funext arg
  obtain ⟨k, v⟩ := arg
  cases k with
  | none => rfl
  | some k =>
      show (if Attribute.sameKey k key then some v.read else none) =
        (if Attribute.sameKey k key then some v else none).map WrittenValue.read
      split <;> rfl

theorem head?_positionals_read (x : WrittenAttribute) :
    x.read.positionals.head? = x.positional?.map WrittenValue.read := by
  rw [Attribute.positionals, positional?, read, List.head?_filterMap, List.findSome?_map,
    List.map_findSome?]
  congr 1
  funext arg
  obtain ⟨k, v⟩ := arg
  cases k <;> rfl

end WrittenAttribute

namespace CountSlot

def written? (slot : CountSlot) (x : WrittenAttribute) : Option WrittenValue :=
  match slot with
  | vertices => (x.named? slot.key).or x.positional?
  | _ => x.named? slot.key

/-- The last attribute of the count's name has this integer for it. -/
def Writes (slot : CountSlot) (attributes : List WrittenAttribute) (w : Int) : Prop :=
  ∃ x, lastNamed? WrittenAttribute.name slot.attributeName attributes = some x ∧
    slot.written? x = some (.integer w)

theorem value?_read (slot : CountSlot) (x : WrittenAttribute) :
    slot.value? x.read = (slot.written? x).map WrittenValue.read := by
  cases slot with
  | vertices =>
      rw [value?, written?, x.named?_read, x.head?_positionals_read]
      cases x.named? vertices.key <;> rfl
  | _ => exact x.named?_read _

theorem exists_mem_of_written? {slot : CountSlot} {x : WrittenAttribute} {value : WrittenValue}
    (h : slot.written? x = some value) : ∃ arg ∈ x.args, arg.value = value := by
  have hfind {f : WrittenArg → Bool}
      (h : x.args.findSome? (fun arg => if f arg then some arg.value else none) = some value) :
      ∃ arg ∈ x.args, arg.value = value := by
    obtain ⟨arg, harg, hvalue⟩ := List.exists_of_findSome?_eq_some h
    split at hvalue
    · exact ⟨arg, harg, Option.some.inj hvalue⟩
    · cases hvalue
  cases slot with
  | vertices =>
      obtain h | ⟨-, h⟩ := Option.or_eq_some_iff.mp h
      · exact hfind h
      · exact hfind h
  | _ => exact hfind h

end CountSlot

theorem toInt_ofInt_eq_iff (w : Int) :
    (Int64.ofInt w).toInt = w ↔ Int64.minValue.toInt ≤ w ∧ w ≤ Int64.maxValue.toInt := by
  have hmin : Int64.minValue.toInt = -9223372036854775808 := rfl
  have hmax : Int64.maxValue.toInt = 9223372036854775807 := rfl
  have hsize : (Int64.size : Int) = 18446744073709551616 := rfl
  rw [Int64.toInt_ofInt, Int.bmod_def, hsize, hmin, hmax]
  split <;> omega

/-- A count is the written integer, or that integer is below all words and is a whole turn away. -/
theorem isCount_ofInt_iff {w : Int} {n : Nat} (hbounds : -UInt64.size < w ∧ w < UInt64.size) :
    IsCount (.ofInt w) n ↔ n < UInt32.size ∧
      (n : Int) = if w < Int64.minValue.toInt then w + UInt64.size else w := by
  have hmin : Int64.minValue.toInt = -9223372036854775808 := rfl
  have hsize : (Int64.size : Int) = 18446744073709551616 := rfl
  have hwide : UInt64.size = 18446744073709551616 := rfl
  have hnarrow : UInt32.size = 4294967296 := rfl
  rw [IsCount, Int64.toInt_ofInt, Int.bmod_def, hsize, hmin]
  split <;> split <;> omega

namespace CountSlot

variable {slot : CountSlot} {tokens : List Token} {attributes : List Attribute}
  {written : List WrittenAttribute}

/-- What is written for a count stands among the tokens. -/
theorem exists_writesValue (h : Grammar.WrittenWithin tokens attributes written)
    {x : WrittenAttribute} {value : WrittenValue}
    (hx : lastNamed? WrittenAttribute.name slot.attributeName written = some x)
    (hvalue : slot.written? x = some value) :
    ∃ part, part <:+: tokens ∧ WritesValue part value := by
  obtain ⟨arg, harg, rfl⟩ := exists_mem_of_written? hvalue
  obtain ⟨used, htokens, hused⟩ := h.among x (List.mem_reverse.mp (List.mem_of_find?_eq_some hx))
  obtain ⟨part, hpart, hwrites⟩ := hused.exists_value arg harg
  exact ⟨part, hpart.trans htokens, hwrites⟩

theorem counted_iff_writes (h : Grammar.WrittenWithin tokens attributes written) (n : Nat) :
    (∃ a, lastNamed? Attribute.name slot.attributeName attributes = some a ∧
        slot.counted a = .ok (some n)) ↔
      ∃ w, slot.Writes written w ∧ n < UInt32.size ∧
        (n : Int) = if w < Int64.minValue.toInt then w + UInt64.size else w := by
  have hlast : lastNamed? Attribute.name slot.attributeName attributes =
      (lastNamed? WrittenAttribute.name slot.attributeName written).map WrittenAttribute.read := by
    rw [h.read]
    exact lastNamed?_map (fun _ => rfl) _ _
  constructor
  · rintro ⟨a, ha, hcounted⟩
    rw [hlast] at ha
    obtain ⟨x, hx, rfl⟩ := Option.map_eq_some_iff.mp ha
    obtain ⟨v, hv, hcount⟩ := counted_eq_some_iff.mp hcounted
    rw [value?_read] at hv
    obtain ⟨value, hvalue, hread⟩ := Option.map_eq_some_iff.mp hv
    obtain ⟨part, -, hpart⟩ := exists_writesValue h hx hvalue
    cases value with
    | integer w =>
        cases hread
        exact ⟨w, ⟨x, hx, hvalue⟩, (isCount_ofInt_iff hpart.integer_bounds).mp hcount⟩
    | other value =>
        -- only integers are read as words
        cases hread
        cases hpart
  · rintro ⟨w, ⟨x, hx, hvalue⟩, hcount⟩
    obtain ⟨part, -, hpart⟩ := exists_writesValue h hx hvalue
    refine ⟨x.read, by rw [hlast, hx, Option.map_some], counted_eq_some_iff.mpr ?_⟩
    refine ⟨.ofInt w, ?_, (isCount_ofInt_iff hpart.integer_bounds).mpr hcount⟩
    rw [value?_read, hvalue]
    rfl

end CountSlot

theorem Token.endsOnce_of_tokenize {text : String} {tokens : List Token}
    (h : Token.tokenize text = .ok tokens) : Grammar.EndsOnce tokens := by
  have hlaid : Token.Laid text.toList 0 tokens := Token.laid_of_tokensFrom (Nat.zero_le _) h
  obtain ⟨init, stop, rfl, hstop, -, -, hinit⟩ := hlaid.ends
  exact ⟨init, stop, rfl, hstop, fun t ht => (hinit t ht).1⟩

/-- Every integer in an attribute is read, and keeps its value exactly if it is a signed word. A
count in a layout is the integer that is written for it, or that integer is below all signed words
and the count is a whole turn above it. Negation is taken to wrap around: where overflow is checked,
-9223372036854775808 has no value. -/
theorem attribute_integers_wrap (text file : String) :
    (∀ used w, WritesValue used (.integer w) → ∀ rest, ∃ v,
      Grammar.attrValue (used ++ rest) = .ok (.int v, rest) ∧ v.toInt = w.bmod UInt64.size ∧
        (v.toInt = w ↔ Int64.minValue.toInt ≤ w ∧ w ≤ Int64.maxValue.toInt)) ∧
    ∀ classes, readSource text file = .ok classes → ∀ c ∈ classes, ∃ tokens written,
      Token.tokenize text = .ok tokens ∧ Grammar.WrittenWithin tokens c.attributes written ∧
        ∀ settings ctx r, reflect settings ctx c = .ok r → ∀ (slot : CountSlot) (n : Nat),
          r.header.stageLayout.count slot = some n ↔
            ∃ w, slot.Writes written w ∧ n < UInt32.size ∧
              (n : Int) = if w < Int64.minValue.toInt then w + UInt64.size else w := by
  constructor
  · intro used w h rest
    exact ⟨.ofInt w, Grammar.attrValue_of_writesInteger h rest, Int64.toInt_ofInt,
      toInt_ofInt_eq_iff w⟩
  · intro classes h c hc
    obtain ⟨tokens, htokens, hclasses⟩ := exists_of_except_bind_ok (mapError_eq_ok h)
    obtain ⟨written, hwritten⟩ :=
      writtenWithin_of_readClasses (Token.endsOnce_of_tokenize htokens) hclasses c hc
    refine ⟨tokens, written, htokens, hwritten, fun settings ctx r hr slot n => ?_⟩
    obtain ⟨stage, entries, hr⟩ := reflectsTo_of_reflect hr
    exact (count_of_header hr.header slot n).trans (CountSlot.counted_iff_writes hwritten n)

/-- A count that no word holds, and that wraps around to one. -/
def wideCount : String :=
  "[TessControl(-18446744073709551615)] class C : TessControlShader \x7b \x7d"

def wideCountTokens : List Token :=
  [⟨.symbol .leftBracket, ⟨0, 1, 1, 1⟩⟩, ⟨.identifier "TessControl", ⟨1, 12, 1, 2⟩⟩,
   ⟨.symbol .leftParen, ⟨12, 13, 1, 13⟩⟩, ⟨.symbol .minus, ⟨13, 14, 1, 14⟩⟩,
   ⟨.int 18446744073709551615, ⟨14, 34, 1, 15⟩⟩, ⟨.symbol .rightParen, ⟨34, 35, 1, 35⟩⟩,
   ⟨.symbol .rightBracket, ⟨35, 36, 1, 36⟩⟩, ⟨.keyword .kwClass, ⟨37, 42, 1, 38⟩⟩,
   ⟨.identifier "C", ⟨43, 44, 1, 44⟩⟩, ⟨.symbol .colon, ⟨45, 46, 1, 46⟩⟩,
   ⟨.identifier "TessControlShader", ⟨47, 64, 1, 48⟩⟩, ⟨.symbol .leftBrace, ⟨65, 66, 1, 66⟩⟩,
   ⟨.symbol .rightBrace, ⟨67, 68, 1, 68⟩⟩, ⟨.eof, ⟨68, 68, 1, 69⟩⟩]

def wideCountClass : ClassDecl where
  name := "C"
  kind := .shader .tessControl
  attributes := [⟨"TessControl", [.positional (.int 1)], ⟨1, 12, 1, 2⟩⟩]
  fields := []
  structs := []
  methods := []
  span := ⟨0, 1, 1, 1⟩

theorem tokenize_wideCount : Token.tokenize wideCount = .ok wideCountTokens := by
  decide +kernel

theorem readSource_wideCount : readSource wideCount "C" = .ok [wideCountClass] := by
  rw [readSource, tokenize_wideCount]
  rfl

theorem integer_of_mem_wideCountTokens {t : Token} (ht : t ∈ wideCountTokens) {n : UInt64}
    (hn : t.IsInteger n) : n = 18446744073709551615 := by
  have hall : ∀ t ∈ wideCountTokens,
      t.kind = .int 18446744073709551615 ∨ (∀ n, t.kind ≠ .int n) ∧ ∀ n, t.kind ≠ .uint n := by
    simp [wideCountTokens]
  rcases hall t ht with hkind | ⟨hint, huint⟩
  · rcases hn with hn | hn
    · exact (Token.Kind.int.inj (hkind.symm.trans hn)).symm
    · cases hkind.symm.trans hn
  · rcases hn with hn | hn
    · exact absurd hn (hint n)
    · exact absurd hn (huint n)

/-- The word one is accepted as the count, and no token writes a one. -/
theorem attribute_integers_wrap_wideCount :
    ∃ written r, Token.tokenize wideCount = .ok wideCountTokens ∧
      readSource wideCount "C" = .ok [wideCountClass] ∧
      Grammar.WrittenWithin wideCountTokens wideCountClass.attributes written ∧
      CountSlot.vertices.Writes written (-18446744073709551615) ∧
      reflect {} (.ofClass wideCountClass) wideCountClass = .ok r ∧
      r.header.stageLayout = .tessControl 1 := by
  obtain ⟨tokens, written, htokens, hwritten, hcounts⟩ :=
    (attribute_integers_wrap wideCount "C").2 _ readSource_wideCount wideCountClass (by simp)
  obtain rfl : wideCountTokens = tokens := Except.ok.inj (tokenize_wideCount.symm.trans htokens)
  obtain ⟨r, hr, hlayout⟩ : ∃ r, reflect {} (.ofClass wideCountClass) wideCountClass = .ok r ∧
      r.header.stageLayout = .tessControl 1 := ⟨_, rfl, rfl⟩
  refine ⟨written, r, tokenize_wideCount, readSource_wideCount, hwritten, ?_, hr, hlayout⟩
  obtain ⟨w, hwrites, -, hw⟩ := (hcounts _ _ r hr .vertices 1).mp (by rw [hlayout]; rfl)
  -- the only literal of the text is the wide one, so the integer is that or its negation
  obtain ⟨x, hx, hvalue⟩ := hwrites
  obtain ⟨part, hpart, hliteral⟩ := CountSlot.exists_writesValue hwritten hx hvalue
  obtain ⟨t, ht, n, hn, hsign⟩ := hliteral.exists_literal
  have hn : n = 18446744073709551615 := integer_of_mem_wideCountTokens (hpart.subset ht) hn
  have hword : w = -18446744073709551615 := by
    rw [hn] at hsign
    have hvalue : (18446744073709551615 : UInt64).toNat = 18446744073709551615 := rfl
    have hmin : Int64.minValue.toInt = -9223372036854775808 := rfl
    have hwide : UInt64.size = 18446744073709551616 := rfl
    split at hw <;> omega
  exact hword ▸ ⟨x, hx, hvalue⟩

end ShaderCompiler
