import ShaderCompiler.Assembly.Declarations
import ShaderCompiler.Decimal.Reading
import ShaderCompiler.Proofs.Interface.Legality

namespace ShaderCompiler

def Expr.listed? : Expr → Option (List Expr)
  | .arrayInit items => some items
  | .newArray _ _ items => items
  | _ => none

def Expr.IsBareCreation (e : Expr) : Prop := ∃ element size, e = .newArray element (some size) none

def decimal? (text : String) : Option Nat :=
  if !text.toList.isEmpty && text.toList.all Char.isDigit then
    some (Decimal.natOfDigits text.toList)
  else none

theorem decimal?_toString (n : Nat) : decimal? (toString n) = some n := by
  have hdigits : (toString n).toList = Nat.toDigits 10 n := by simp
  have hall : (Nat.toDigits 10 n).all Char.isDigit = true := by
    apply List.all_eq_true.mpr
    intro c hc
    exact Nat.isDigit_of_mem_toDigits (by omega) (by omega) hc
  have hne : (Nat.toDigits 10 n).isEmpty = false :=
    List.isEmpty_eq_false_iff.mpr Nat.toDigits_ne_nil
  rw [decimal?, hdigits, hne, hall, Decimal.natOfDigits, Nat.ofDigitChars_ten_toDigits]
  rfl

theorem arrayText_ne_empty (element : String) (values : List String) :
    arrayText element values ≠ "" := by
  intro h
  have hlength := congrArg String.length h
  simp [arrayText] at hlength

def RendersTo (f : Frame) (hint : Option ScalarKind) (e : Expr) (text : String) : Prop :=
  ∃ u r u', render f hint e u = .ok (r, u') ∧ r.text = text

theorem rendersTo_of_renderItems {f : Frame} {hint : Option ScalarKind} {items : List Expr}
    {u u' : Uses} {texts : List String} (h : renderItems f hint items u = .ok (texts, u')) :
    List.Forall₂ (RendersTo f hint) items texts := by
  induction items generalizing u texts with
  | nil =>
      cases h
      exact .nil
  | cons e items ih =>
      rw [renderItems] at h
      obtain ⟨r, u₁, hr, h⟩ := exists_of_bind_ok h
      obtain ⟨rest, u₂, hrest, h⟩ := exists_of_bind_ok h
      cases h
      exact .cons ⟨u, r, u₁, hr, rfl⟩ (ih hrest)

theorem of_listedParts {f : Frame} {element name : String} {hint : Option ScalarKind}
    {items : List Expr} {u u' : Uses} {parts : ArrayParts}
    (h : listedParts f element hint name items u = .ok (parts, u')) :
    items ≠ [] ∧ ∃ values, List.Forall₂ (RendersTo f hint) items values ∧
      parts.init = some (arrayText element values) := by
  rw [listedParts] at h
  split at h
  · cases h
  · next hne =>
      obtain ⟨values, u₁, hvalues, h⟩ := exists_of_bind_ok h
      cases h
      exact ⟨by simpa using hne, values, rendersTo_of_renderItems hvalues, rfl⟩

def fieldFrame (ctx : ClassContext) (owner : String) : Frame where
  env := { context := ctx }
  member := owner

theorem of_initializer {ctx : ClassContext} {owner text : String} {type : ValueType} {e : Expr}
    (harray : type.array = true) (h : initializer ctx owner type e = .ok text) :
    ∃ element parts u, ctx.resolveType type.name = .ok element ∧
      arrayParts (fieldFrame ctx owner) element (literalHint (some type)) owner (some e) {} =
        .ok (parts, u) ∧
      text = parts.init.getD "" := by
  unfold initializer at h
  obtain ⟨⟨value, u⟩, hvalue, h⟩ := exists_of_except_bind_ok h
  rw [if_pos harray] at hvalue
  obtain ⟨element, helement, hvalue⟩ := exists_of_lift_bind_ok hvalue
  obtain ⟨parts, u₁, hparts, hvalue⟩ := exists_of_bind_ok hvalue
  cases hvalue
  dsimp only at h
  split at h
  · cases h
    exact ⟨element, parts, u, helement, hparts, rfl⟩
  · cases h

section

variable {rules : InterfaceRules} {field : FieldDecl} {notes : Annotations} {owner : String}
  {s : Section} {v : Variable}

theorem FieldRead.initialized (h : FieldRead rules field notes owner (some (s, v)))
    (hin : s ≠ .inputs) (hout : s ≠ .outputs) :
    initialValue rules.context field owner = .ok v.initializer := by
  cases h with
  | constant _ _ _ _ hinit | global _ _ _ _ hinit | uniform _ _ _ _ hinit => exact hinit
  | input => exact absurd rfl hin
  | output => exact absurd rfl hout
  | builtIn => exact absurd rfl hin

/-- What an array field with an initial value is declared with. -/
structure ArrayDeclared (ctx : ClassContext) (field : FieldDecl) (v : Variable) : Prop where
  listed : ∀ items, field.init.bind Expr.listed? = some items → items ≠ [] ∧
    ∃ owner element values, ctx.resolveType (ValueType.ofRef field.type).name = .ok element ∧
      List.Forall₂ (RendersTo (fieldFrame ctx owner) (literalHint (some (.ofRef field.type))))
        items values ∧
      v.initializer = some (arrayText element values)
  size : ∀ items, field.init.bind Expr.listed? = some items →
    v.arraySize = some ((arraySizeOf? field.attributes).getD (toString items.length))
  bare : ∀ e ∈ field.init, e.IsBareCreation → v.initializer = some ""
  given : ∀ e ∈ field.init, e.isArrayValue = true → e.listed?.isSome = true ∨ e.IsBareCreation

theorem initializerLength?_of_listed? {e : Expr} {items : List Expr} (h : e.listed? = some items) :
    initializerLength? e = some items.length := by
  cases e with
  | arrayInit es =>
      cases h
      rfl
  | newArray element size es =>
      obtain rfl : es = some items := h
      cases size <;> rfl
  | _ => cases h

theorem arrayParts_of_listed? (f : Frame) (element : String) (hint : Option ScalarKind)
    (name : String) {e : Expr} {items : List Expr} (h : e.listed? = some items) :
    arrayParts f element hint name (some e) = listedParts f element hint name items := by
  cases e with
  | arrayInit es =>
      cases h
      rfl
  | newArray type size es =>
      obtain rfl : es = some items := h
      cases size <;> rfl
  | _ => cases h

theorem arrayDeclared_of_fieldEntry (h : fieldEntry rules field = .ok (some (s, v)))
    (hin : s ≠ .inputs) (hout : s ≠ .outputs) (harray : field.type.array = true) :
    ArrayDeclared rules.context field v := by
  obtain ⟨notes, owner, hnotes, hread⟩ := fieldRead_of_fieldEntry h
  have hsize := hread.declared.2
  have hinit := hread.initialized hin hout
  rw [initialValue] at hinit
  refine ⟨fun items hitems => ?_, fun items hitems => ?_, fun e he hbare => ?_,
    fun e he hvalue => ?_⟩
  · obtain ⟨e, he, hlisted⟩ := Option.bind_eq_some_iff.mp hitems
    rw [he] at hinit
    obtain ⟨text, htext, htext'⟩ := exists_of_map_ok hinit
    obtain ⟨element, parts, u, helement, hparts, rfl⟩ := of_initializer harray htext
    rw [arrayParts_of_listed? _ _ _ _ hlisted] at hparts
    obtain ⟨hne, values, hvalues, hparts⟩ := of_listedParts hparts
    rw [hparts] at htext'
    exact ⟨hne, owner, element, values, helement, hvalues, htext'.symm⟩
  · obtain ⟨e, he, hlisted⟩ := Option.bind_eq_some_iff.mp hitems
    rw [fieldSize, harray, hnotes.arraySize, he] at hsize
    cases hattr : arraySizeOf? field.attributes with
    | some size =>
        rw [hattr] at hsize
        exact (Except.ok.inj hsize).symm
    | none =>
        rw [hattr, Option.bind_some, initializerLength?_of_listed? hlisted] at hsize
        exact (Except.ok.inj hsize).symm
  · obtain ⟨type, size, rfl⟩ := hbare
    rw [he] at hinit
    obtain ⟨text, htext, htext'⟩ := exists_of_map_ok hinit
    obtain ⟨element, parts, u, -, hparts, rfl⟩ := of_initializer harray htext
    rw [arrayParts] at hparts
    obtain ⟨r, u₁, -, hparts⟩ := exists_of_bind_ok hparts
    cases hparts
    exact htext'.symm
  · rw [he] at hinit
    obtain ⟨text, htext, -⟩ := exists_of_map_ok hinit
    obtain ⟨element, parts, u, -, hparts, -⟩ := of_initializer harray htext
    cases e with
    | arrayInit items => exact Or.inl rfl
    | newArray type size items =>
        cases items with
        | some items => exact Or.inl rfl
        | none =>
            cases size with
            | some size => exact Or.inr ⟨type, size, rfl⟩
            | none => cases hparts
    | _ => cases hvalue

/-- Size and initial value of an array agree: each listed value is written out and counted by the
size, and where none is listed there is no initial value. -/
structure Agrees (field : FieldDecl) (v : Variable) : Prop where
  listed : ∀ items, field.init.bind Expr.listed? = some items →
    (∃ element values, values.length = items.length ∧
      v.initializer = some (arrayText element values)) ∧
    ∀ n, v.arraySize.bind decimal? = some n → n = items.length
  bare : ∀ e ∈ field.init, e.IsBareCreation → v.initializer = none
  nonempty : v.initializer ≠ some ""

theorem ArrayDeclared.agrees_iff {ctx : ClassContext} (h : ArrayDeclared ctx field v)
    (hvalue : field.init.any Expr.isArrayValue = true) :
    Agrees field v ↔ ∃ items, field.init.bind Expr.listed? = some items ∧
      ∀ n, (arraySizeOf? field.attributes).bind decimal? = some n → n = items.length := by
  obtain ⟨e, he, hvalue⟩ := Option.any_eq_true _ _ |>.mp hvalue
  constructor
  · intro hagrees
    rcases h.given e he hvalue with hlisted | hbare
    · obtain ⟨items, hitems⟩ := Option.isSome_iff_exists.mp hlisted
      have hitems : field.init.bind Expr.listed? = some items := by
        rw [he, Option.bind_some, hitems]
      refine ⟨items, hitems, fun n hn => ?_⟩
      obtain ⟨size, hsize, hdecimal⟩ := Option.bind_eq_some_iff.mp hn
      apply (hagrees.listed items hitems).2
      rw [h.size items hitems, hsize, Option.bind_some, Option.getD_some, hdecimal]
    · exact absurd (h.bare e he hbare) hagrees.nonempty
  · rintro ⟨items, hitems, hattribute⟩
    obtain ⟨-, owner, element, values, -, hvalues, hinit⟩ := h.listed items hitems
    refine ⟨fun items' hitems' => ?_, ?_, ?_⟩
    · obtain rfl := Option.some.inj (hitems.symm.trans hitems')
      refine ⟨⟨element, values, hvalues.length_eq.symm, hinit⟩, fun n hn => ?_⟩
      rw [h.size items hitems, Option.bind_some] at hn
      cases hsize : arraySizeOf? field.attributes with
      | some size =>
          rw [hsize] at hn hattribute
          exact hattribute n hn
      | none =>
          rw [hsize, Option.getD_none, decimal?_toString] at hn
          exact (Option.some.inj hn).symm
    · rintro e' he' ⟨type, size, rfl⟩
      rw [Option.mem_def.mp he'] at hitems
      cases hitems
    · rw [hinit]
      exact fun hempty => arrayText_ne_empty element values (Option.some.inj hempty)

end

/-- In an accepted class, an array constant, uniform or global with an array as its initial value is
declared with the listed values and their count, or the size of an attribute; with an empty text for
a creation without values. So its size and initial value agree exactly if values are listed and no
attribute gives another number. -/
theorem arrayFields_of_reflect {settings : Settings} {ctx : ClassContext} {c : ClassDecl}
    {r : Reflection} (h : reflect settings ctx c = .ok r) :
    ∃ stage entries, c.stage? = some stage ∧
      List.Forall₂ (fun field entry => fieldEntry (r.rules settings ctx stage) field = .ok entry)
        c.fields entries ∧
      r.interface = .ofEntries r.interface.structs (entries.filterMap id) ∧
      ∀ field s v, fieldEntry (r.rules settings ctx stage) field = .ok (some (s, v)) →
        s ≠ .inputs → s ≠ .outputs → field.type.array = true →
        field.init.any Expr.isArrayValue = true →
        ArrayDeclared ctx field v ∧
          (Agrees field v ↔ ∃ items, field.init.bind Expr.listed? = some items ∧
            ∀ n, (arraySizeOf? field.attributes).bind decimal? = some n → n = items.length) := by
  obtain ⟨stage, entries, hr⟩ := reflectsTo_of_reflect h
  refine ⟨stage, entries, hr.staged, hr.fields, hr.interface, ?_⟩
  intro field s v hentry hin hout harray hvalue
  have hdeclared := arrayDeclared_of_fieldEntry hentry hin hout harray
  exact ⟨hdeclared, hdeclared.agrees_iff hvalue⟩

def arrayField (name : String) (attributes : List Attribute) (init : Expr) : FieldDecl where
  attributes := attributes
  type := { name := "int", array := true }
  name := name
  init := some init

def pairInit : Expr := .arrayInit [.literal (.int 1), .literal (.int 2)]

def bareInit : Expr := .newArray { name := "int" } (some (.literal (.int 4))) none

def sizedFour : List Attribute := [{ name := "ArraySize", args := [.positional (.int 4)] }]

/-- `int[] a = { 1, 2 }; int[] b = new int[4]; [ArraySize(4)] int[] c = { 1, 2 };` -/
def arraysShader : ClassDecl where
  name := "Arrays"
  kind := .shader .fragment
  fields := [arrayField "a" [] pairInit, arrayField "b" [] bareInit,
    arrayField "c" sizedFour pairInit]

/-- Only the first of the three agrees with itself. -/
theorem arrayFields_arraysShader :
    ∃ r a b c, reflect {} (.ofClass arraysShader) arraysShader = .ok r ∧
      r.interface.globals = [a, b, c] ∧ a.declaration = "int a[2] = int[2](1, 2);" ∧
      b.declaration = "int b[4] = ;" ∧ c.declaration = "int c[4] = int[2](1, 2);" ∧
      Agrees (arrayField "a" [] pairInit) a ∧ ¬ Agrees (arrayField "b" [] bareInit) b ∧
      ¬ Agrees (arrayField "c" sizedFour pairInit) c := by
  have h : reflect {} (.ofClass arraysShader) arraysShader = .ok _ := rfl
  obtain ⟨stage, entries, hstage, -, -, hall⟩ := arrayFields_of_reflect h
  obtain rfl : stage = .fragment := (Option.some.inj hstage).symm
  refine ⟨_, _, _, _, h, rfl, by decide +kernel, by decide +kernel, by decide +kernel, ?_, ?_, ?_⟩
  · apply (hall (arrayField "a" [] pairInit) .globals _ rfl (by decide) (by decide) rfl rfl).2.mpr
    exact ⟨_, rfl, nofun⟩
  · intro hagrees
    obtain ⟨items, hitems, -⟩ := (hall (arrayField "b" [] bareInit) .globals _ rfl (by decide)
      (by decide) rfl rfl).2.mp hagrees
    cases hitems
  · intro hagrees
    obtain ⟨items, hitems, hsize⟩ := (hall (arrayField "c" sizedFour pairInit) .globals _ rfl
      (by decide) (by decide) rfl rfl).2.mp hagrees
    cases hitems
    have hattribute : arraySizeOf? sizedFour = some (toString 4) := by decide
    have hfour : (arraySizeOf? sizedFour).bind decimal? = some 4 := by
      rw [hattribute, Option.bind_some, decimal?_toString]
    cases hsize 4 hfour

end ShaderCompiler
