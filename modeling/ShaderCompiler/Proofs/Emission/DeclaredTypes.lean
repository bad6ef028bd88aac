import ShaderCompiler.Proofs.Emission.Functions
import ShaderCompiler.Proofs.Interface.Legality
import ShaderCompiler.Proofs.Typing.Spelling

namespace ShaderCompiler

open Vocabulary (spelling isSecondSpelling)

section

variable {ctx : ClassContext} {name target : String}

theorem of_resolveType_spelling (h : ctx.resolveType (spelling name) = .ok target) :
    target = spelling name ∧ ∃ direct, ctx.resolveType name = .ok direct := by
  rw [ClassContext.resolveType, Vocabulary.toTarget?_spelling] at h
  rw [ClassContext.resolveType]
  cases htarget : Vocabulary.toTarget? name with
  | some t =>
      rw [htarget, Vocabulary.spelling_of_target htarget] at h
      rw [Vocabulary.spelling_of_target htarget]
      refine ⟨?_, by split <;> exact ⟨_, rfl⟩⟩
      split at h <;> exact (Except.ok.inj h).symm
  | none =>
      -- a name outside the vocabulary is a struct, and is spelled as it is
      rw [htarget, Vocabulary.spelling_of_unknown htarget] at h
      rw [Vocabulary.spelling_of_unknown htarget]
      split at h
      · next hstruct => exact ⟨(Except.ok.inj h).symm, name, if_pos hstruct⟩
      · cases h

/-- The spelling of a known type is the resolved type, unless a struct is named by a second
spelling. -/
theorem spelling_eq_iff (h : ctx.resolveType name = .ok target) :
    spelling name = target ↔ ¬(ctx.isStruct name = true ∧ isSecondSpelling name = true) := by
  rw [ClassContext.resolveType] at h
  split at h
  · next hstruct =>
      obtain rfl : name = target := Except.ok.inj h
      rw [hstruct, eq_self_iff_true, true_and, Bool.not_eq_true,
        Vocabulary.isSecondSpelling_eq_false]
  · next hstruct =>
      split at h
      · next t htarget =>
          obtain rfl : t = target := Except.ok.inj h
          exact iff_of_true (Vocabulary.spelling_of_target htarget) fun hboth => hstruct hboth.1
      · cases h

end

section

variable {rules : InterfaceRules} {field : FieldDecl} {v : Variable}

theorem type_of_fieldEntry {s : Section} (h : fieldEntry rules field = .ok (some (s, v))) :
    rules.context.resolveType field.type.name = .ok v.type := by
  obtain ⟨notes, owner, -, hread⟩ := fieldRead_of_fieldEntry h
  exact hread.declared.1

end

structure LocalDecl where
  isConst : Bool
  type : TypeRef
  declarators : List (Declarator Expr)

mutual

def Stmt.locals : Stmt → List LocalDecl
  | .block body => localsIn body
  | .ifElse _ yes none => yes.locals
  | .ifElse _ yes (some no) => yes.locals ++ no.locals
  | .whileLoop _ body => body.locals
  | .doWhile body _ => body.locals
  | .forLoop init _ _ body => localsIn init ++ body.locals
  | .switch _ sections => localsInSections sections
  | .declare isConst type declarators => [⟨isConst, type, declarators⟩]
  | _ => []

def localsIn : List Stmt → List LocalDecl
  | [] => []
  | s :: rest => s.locals ++ localsIn rest

def localsInSections : List (SwitchSection Expr Stmt) → List LocalDecl
  | [] => []
  | ⟨_, body⟩ :: rest => localsIn body ++ localsInSections rest

end

theorem locals_ifElse (test : Expr) (yes : Stmt) (no : Option Stmt) :
    (Stmt.ifElse test yes no).locals = yes.locals ++ no.elim [] Stmt.locals := by
  cases no with
  | none => rw [Stmt.locals, Option.elim_none, List.append_nil]
  | some no => rw [Stmt.locals, Option.elim_some]

namespace LocalDecl

/-- The declaration as text: each part begins with a declared name. -/
def Reads (d : LocalDecl) (text : String) : Prop :=
  ∃ parts, List.Forall₂ (fun x part => ∃ rest, part = x.name ++ rest) d.declarators parts ∧
    text = (if d.isConst then "const " else "") ++ spelling d.type.name ++ " " ++
      String.intercalate ", " parts

/-- The line holds the declaration: it is a statement, or stands first in the header of a loop. -/
inductive StandsIn (d : LocalDecl) : String → Prop
  | statement {text : String} (h : d.Reads text) : StandsIn d (text ++ ";")
  | header {text : String} {inits : List String} (rest : String) (h : d.Reads text)
      (hmem : text ∈ inits) :
      StandsIn d ("for (" ++ String.intercalate ", " inits ++ ";" ++ rest)

end LocalDecl

/-- Each of the locals with a type of their own has its line. -/
def WritesLocals (ctx : ClassContext) (locals : List LocalDecl) (lines : List Line) : Prop :=
  ∀ d ∈ locals, d.type.name ≠ "var" →
    (∃ target, ctx.resolveType d.type.name = .ok target) ∧
      ∃ text ∈ lines.map (·.text), d.StandsIn text

namespace WritesLocals

variable {ctx : ClassContext} {locals more : List LocalDecl} {lines behind : List Line}

theorem nil : WritesLocals ctx [] lines := nofun

theorem single {d : LocalDecl} {line : Line}
    (h : d.type.name ≠ "var" →
      (∃ target, ctx.resolveType d.type.name = .ok target) ∧ d.StandsIn line.text) :
    WritesLocals ctx [d] [line] := by
  intro d' hd hvar
  obtain rfl := List.mem_singleton.mp hd
  obtain ⟨hknown, hline⟩ := h hvar
  exact ⟨hknown, line.text, List.mem_singleton_self _, hline⟩

theorem mono (h : WritesLocals ctx locals lines)
    (hsub : lines.map (·.text) ⊆ behind.map (·.text)) : WritesLocals ctx locals behind := by
  intro d hd hvar
  obtain ⟨hknown, text, htext, hline⟩ := h d hd hvar
  exact ⟨hknown, text, hsub htext, hline⟩

theorem append_left (h : WritesLocals ctx locals lines) (more : List Line) :
    WritesLocals ctx locals (lines ++ more) := by
  apply h.mono
  rw [List.map_append]
  exact List.subset_append_left _ _

theorem append_right (h : WritesLocals ctx locals lines) (before : List Line) :
    WritesLocals ctx locals (before ++ lines) := by
  apply h.mono
  rw [List.map_append]
  exact List.subset_append_right _ _

theorem append (h : WritesLocals ctx locals lines) (h' : WritesLocals ctx more behind) :
    WritesLocals ctx (locals ++ more) (lines ++ behind) := by
  intro d hd
  rcases List.mem_append.mp hd with hd | hd
  · exact h.append_left behind d hd
  · exact h'.append_right lines d hd

theorem nest (h : WritesLocals ctx locals lines) :
    WritesLocals ctx locals (lines.map Line.nest) := by
  apply h.mono
  rw [List.map_map]
  exact List.Subset.refl _

theorem opened (h : WritesLocals ctx locals lines) (opening : String) :
    WritesLocals ctx locals (Line.opened opening lines) :=
  h.nest.append_right [.flat opening]

end WritesLocals

theorem DeclaresName.text {f : Frame} {type : ValueType} {target text : String}
    {d : Declarator Expr} {u v : Uses} (h : DeclaresName f type target d u text v) :
    ∃ rest, text = d.name ++ rest := by
  cases h with
  | @array name _ _ _ size text =>
      exact ⟨"[" ++ size ++ "]" ++ " = " ++ text, by simp only [String.append_assoc]⟩
  | @sizedArray name _ _ _ size => exact ⟨"[" ++ size ++ "]", by simp only [String.append_assoc]⟩
  | @value name _ _ _ r =>
      exact ⟨" = " ++ r.fit Precedence.assign, by simp only [String.append_assoc]⟩
  | bare => exact ⟨"", String.append_empty.symm⟩

theorem DeclaresNames.texts {f : Frame} {type : ValueType} {target : String}
    {ds : List (Declarator Expr)} {u v : Uses} {texts : List String}
    (h : DeclaresNames type target f ds u texts v) :
    List.Forall₂ (fun d text => ∃ rest, text = d.name ++ rest) ds texts := by
  induction h with
  | nil => exact .nil
  | cons hname _ ih => exact .cons hname.text ih

theorem DeclaresLocals.reads {f : Frame} {isConst : Bool} {type : TypeRef} {ds : List (Declarator Expr)}
    {u v : Uses} {text : String} (h : DeclaresLocals f isConst type ds u text v)
    (hvar : type.name ≠ "var") :
    (∃ target, f.context.resolveType type.name = .ok target) ∧
      LocalDecl.Reads ⟨isConst, type, ds⟩ text := by
  cases h with
  | @intro t target texts _ _ htype htarget hnames =>
      rw [Frame.declaredAs, if_neg hvar] at htype
      obtain rfl := Option.some.inj htype
      obtain ⟨rfl, hknown⟩ := of_resolveType_spelling htarget
      refine ⟨hknown, texts, hnames.texts, ?_⟩
      cases isConst with
      | true => simp only [if_true, String.append_assoc]
      | false => simp only [Bool.false_eq_true, if_false, String.empty_append, String.append_assoc]

theorem EmitsInits.reads {f : Frame} {init : List Stmt} {u v : Uses} {texts : List String}
    (h : EmitsInits f init u texts v) :
    ∀ d ∈ localsIn init, d.type.name ≠ "var" →
      (∃ target, f.context.resolveType d.type.name = .ok target) ∧
        ∃ text ∈ texts, d.Reads text := by
  induction h with
  | nil => exact nofun
  | @declare f isConst type ds rest _ _ _ text _ hdeclared _ ih =>
      intro d hd hvar
      rw [localsIn, Stmt.locals, List.singleton_append] at hd
      rcases List.mem_cons.mp hd with rfl | hd
      · obtain ⟨hknown, hreads⟩ := hdeclared.reads hvar
        exact ⟨hknown, text, List.mem_cons_self, hreads⟩
      · obtain ⟨hknown, t, ht, hreads⟩ := ih d hd hvar
        rw [Frame.context_after] at hknown
        exact ⟨hknown, t, List.mem_cons_of_mem _ ht, hreads⟩
  | eval _ _ ih =>
      intro d hd hvar
      obtain ⟨hknown, t, ht, hreads⟩ := ih d hd hvar
      exact ⟨hknown, t, List.mem_cons_of_mem _ ht, hreads⟩

theorem EmitsInits.writesLocals {f : Frame} {init : List Stmt} {u v : Uses} {texts : List String}
    (h : EmitsInits f init u texts v) (test step : String) :
    WritesLocals f.context (localsIn init) [.flat ("for (" ++ String.intercalate ", " texts ++
      ";" ++ test ++ ";" ++ step ++ ") \x7b")] := by
  intro d hd hvar
  obtain ⟨hknown, text, htext, hreads⟩ := h.reads d hd hvar
  refine ⟨hknown, _, List.mem_singleton_self _, ?_⟩
  have hline := LocalDecl.StandsIn.header (test ++ ";" ++ step ++ ") \x7b") hreads htext
  simpa only [Line.flat, String.append_assoc] using hline

mutual

theorem Emits.writesLocals {f : Frame} {braced : Bool} {s : Stmt} {u v : Uses}
    {lines : List Line} : Emits f braced s u lines v → WritesLocals f.context s.locals lines
  | .declare hdeclared => by
      apply WritesLocals.single
      intro hvar
      obtain ⟨hknown, hreads⟩ := hdeclared.reads hvar
      exact ⟨hknown, .statement hreads⟩
  | .block hbody => by
      split
      · exact (hbody.writesLocals.opened _).append_left _
      · exact hbody.writesLocals
  | .ifElse _ hyes hno => by
      rw [locals_ifElse]
      exact ((hyes.writesLocals.opened _).append hno.writesLocals).append_left _
  | .whileLoop _ hbody | .doWhile hbody _ => (hbody.writesLocals.opened _).append_left _
  | .forLoop hinit _ _ hbody => by
      have hbody := hbody.writesLocals
      rw [Frame.context_afterAll] at hbody
      exact ((hinit.writesLocals _ _).append hbody.nest).append_left _
  | .switch _ hsections => (hsections.writesLocals.append_right [_]).append_left _
  | .empty | .retNone | .ret _ | .brk | .cont | .discard _ | .eval _ => .nil

theorem EmitsElse.writesLocals {f : Frame} {no : Option Stmt} {u v : Uses} {lines : List Line} :
    EmitsElse f no u lines v → WritesLocals f.context (no.elim [] Stmt.locals) lines
  | .none => .nil
  | .elseIf _ hyes hno => by
      rw [Option.elim_some, locals_ifElse]
      exact (hyes.writesLocals.opened _).append hno.writesLocals
  | .other _ hbody => hbody.writesLocals.opened _

theorem EmitsAll.writesLocals {f : Frame} {body : List Stmt} {u v : Uses} {lines : List Line} :
    EmitsAll f body u lines v → WritesLocals f.context (localsIn body) lines
  | .nil => .nil
  | .cons hs hrest => by
      have hmore := hrest.writesLocals
      rw [Frame.context_after] at hmore
      exact hs.writesLocals.append hmore

theorem EmitsSections.writesLocals {f : Frame} {sections : List (SwitchSection Expr Stmt)}
    {u v : Uses} {lines : List Line} :
    EmitsSections f sections u lines v → WritesLocals f.context (localsInSections sections) lines
  | .nil => .nil
  | .cons _ hbody hrest => by
      have hmore := hrest.writesLocals
      rw [Frame.context_afterAll] at hmore
      exact (hbody.writesLocals.nest.append_right _).append hmore

end

/-- The text of a function: its header has the resolved types, its body the spellings. -/
def WritesTypes (ctx : ClassContext) (indent : String) (m : MethodBody) (text : String) : Prop :=
  ∃ result params body, WritesResult ctx result m.returnType ∧
    List.Forall₂ (WritesParam ctx) m.params params ∧ WritesLocals ctx (localsIn m.body) body ∧
    text = renderLines indent
      (Line.opened (result ++ " " ++ m.name ++ "(" ++ String.intercalate ", " params ++ ") \x7b")
        body ++ [.flat "\x7d"])

theorem writesTypes_of_emitFunction {ctx : ClassContext} {indent : String} {m : MethodBody}
    {f : ShaderFunction} (h : emitFunction ctx indent m = .ok f) :
    WritesTypes ctx indent m f.text := by
  obtain ⟨lines, htext, ⟨-, hresult, -, hparams, hbody⟩⟩ := emitsFunction_of_emitFunction h
  have hlocals := hbody.writesLocals
  rw [context_bindParams] at hlocals
  exact ⟨_, _, _, hresult, hparams, hlocals, htext⟩

/-- A field, a result and a parameter are written with the resolved type, a local with the spelling
of its type; the two differ exactly for a struct that is named by a second spelling. -/
theorem types_agree_iff (ctx : ClassContext) :
    (∀ (rules : InterfaceRules) (field : FieldDecl) (s : Section) (v : Variable),
      rules.context = ctx → fieldEntry rules field = .ok (some (s, v)) →
        ctx.resolveType field.type.name = .ok v.type) ∧
    (∀ (indent : String) (m : MethodBody) (f : ShaderFunction),
      emitFunction ctx indent m = .ok f → WritesTypes ctx indent m f.text) ∧
    ∀ name target, ctx.resolveType name = .ok target →
      (spelling name = target ↔ ¬(ctx.isStruct name = true ∧ isSecondSpelling name = true)) := by
  refine ⟨?_, ?_, ?_⟩
  · rintro rules field s v rfl h
    exact type_of_fieldEntry h
  · intro indent m f h
    exact writesTypes_of_emitFunction h
  · intro name target h
    exact spelling_eq_iff h

def sampleContext (type : String) : ClassContext :=
  .ofClass { name := "Sampled", kind := .shader .fragment,
             structs := [{ name := type, fields := [{ type := { name := "int" }, name := "n" }] }] }

def sampleField (type : String) : FieldDecl where
  type := { name := type }
  name := "last"

def sampleMethod (type : String) : MethodBody where
  name := "kept"
  params := [{ type := { name := type }, name := "p" }]
  returnType := some { name := type }
  body := [.declare false { name := type } [⟨"q", some (.ident "p")⟩], .ret (some (.ident "q"))]

/-- A struct `Sample` is itself in all places. A struct `Single` is a number where a local is
declared. -/
theorem types_of_sampleMethod :
    (∃ v f, fieldEntry ⟨sampleContext "Sample", .fragment, false, false⟩ (sampleField "Sample") =
        .ok (some (.globals, v)) ∧
      emitFunction (sampleContext "Sample") "  " (sampleMethod "Sample") = .ok f ∧
      v.type = "Sample" ∧ spelling "Sample" = v.type ∧
      f.text = "Sample kept(Sample p) \x7b\n  Sample q = p;\n  return q;\n\x7d\n" ∧
      WritesTypes (sampleContext "Sample") "  " (sampleMethod "Sample") f.text) ∧
    ∃ v f, fieldEntry ⟨sampleContext "Single", .fragment, false, false⟩ (sampleField "Single") =
        .ok (some (.globals, v)) ∧
      emitFunction (sampleContext "Single") "  " (sampleMethod "Single") = .ok f ∧
      v.type = "Single" ∧ spelling "Single" ≠ v.type ∧
      f.text = "Single kept(Single p) \x7b\n  float q = p;\n  return q;\n\x7d\n" ∧
      WritesTypes (sampleContext "Single") "  " (sampleMethod "Single") f.text := by
  obtain ⟨hfields, hfunctions, hagree⟩ := types_agree_iff (sampleContext "Sample")
  obtain ⟨hfields', hfunctions', hagree'⟩ := types_agree_iff (sampleContext "Single")
  have hv : fieldEntry ⟨sampleContext "Sample", .fragment, false, false⟩ (sampleField "Sample") =
      .ok (some (.globals, _)) := rfl
  have hv' : fieldEntry ⟨sampleContext "Single", .fragment, false, false⟩ (sampleField "Single") =
      .ok (some (.globals, _)) := rfl
  have hf : emitFunction (sampleContext "Sample") "  " (sampleMethod "Sample") = .ok _ := rfl
  have hf' : emitFunction (sampleContext "Single") "  " (sampleMethod "Single") = .ok _ := rfl
  refine ⟨⟨_, _, hv, hf, rfl, ?_, by decide +kernel, hfunctions _ _ _ hf⟩,
    _, _, hv', hf', rfl, ?_, by decide +kernel, hfunctions' _ _ _ hf'⟩
  · exact (hagree _ _ (hfields _ _ _ _ rfl hv)).mpr (by decide)
  · exact fun h => (hagree' _ _ (hfields' _ _ _ _ rfl hv')).mp h (by decide)

end ShaderCompiler
