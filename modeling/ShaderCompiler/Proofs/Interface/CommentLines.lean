import Mathlib.Tactic.Common
import ShaderCompiler.Assembly.Declarations

namespace ShaderCompiler

/-- The lines of a text. What follows the last line break is one more line, empty or not. -/
def linesOf (text : String) : List (List Char) := text.toList.splitOn '\n'

def isIndent (c : Char) : Bool := c == ' ' || c == '\t'

def isCommentLine (line : List Char) : Bool := ['/', '/'].isPrefixOf (line.dropWhile isIndent)

def codeLines (lines : List (List Char)) : List (List Char) := lines.filter (!isCommentLine ·)

def dropComments (text : String) : String :=
  String.ofList (['\n'].intercalate (codeLines (linesOf text)))

inductive Interspersed : List (List Char) → List (List Char) → Prop
  | nil : Interspersed [] []
  | keep (line : List Char) {plain lines : List (List Char)} (h : Interspersed plain lines) :
      Interspersed (line :: plain) (line :: lines)
  | comment {line : List Char} {plain lines : List (List Char)} (hc : isCommentLine line = true)
      (h : Interspersed plain lines) : Interspersed plain (line :: lines)

/-- The second text is the first with whole comment lines added. -/
def AddsComments (plain text : String) : Prop := Interspersed (linesOf plain) (linesOf text)

/-- Every line after the first is a comment by itself. -/
def StaysComment (comment : Option String) : Prop :=
  ∀ c ∈ comment, ∀ line ∈ (linesOf c).tail, isCommentLine line = true

theorem linesOf_append_newline (text rest : String) :
    linesOf (text ++ "\n" ++ rest) = linesOf text ++ linesOf rest := by
  unfold linesOf
  rw [String.toList_append, String.toList_append, List.append_assoc]
  exact List.splitOn_append_cons_self _ _

theorem linesOf_of_notMem {text : String} (h : '\n' ∉ text.toList) :
    linesOf text = [text.toList] :=
  List.splitOn_eq_singleton h

theorem linesOf_append {before : String} (h : '\n' ∉ before.toList) (text : String) :
    linesOf (before ++ text) = (linesOf text).modifyHead (before.toList ++ ·) := by
  unfold linesOf
  rw [String.toList_append]
  generalize before.toList = cs at h
  induction cs with
  | nil =>
      rw [List.nil_append]
      cases text.toList.splitOn '\n' <;> rfl
  | cons c cs ih =>
      have hc : c ≠ '\n' := fun e => h (e ▸ List.mem_cons_self)
      have hcs : '\n' ∉ cs := fun m => h (List.mem_cons_of_mem _ m)
      rw [List.cons_append, List.splitOn_cons_eq_if_modifyHead, if_neg (by simpa using hc), ih hcs]
      cases text.toList.splitOn '\n' <;> rfl

theorem linesOf_ne_nil (text : String) : linesOf text ≠ [] :=
  List.splitOn_ne_nil _ _

theorem newline_notMem_of_mem_linesOf {text : String} {line : List Char} (h : line ∈ linesOf text) :
    '\n' ∉ line := by
  unfold linesOf at h
  generalize text.toList = cs at h
  induction cs generalizing line with
  | nil =>
      obtain rfl : line = [] := by simpa using h
      exact List.not_mem_nil
  | cons c cs ih =>
      rw [List.splitOn_cons_eq_if_modifyHead] at h
      split at h
      · rcases List.mem_cons.mp h with rfl | h
        · exact List.not_mem_nil
        · exact ih h
      · next hc =>
          cases hs : cs.splitOn '\n' with
          | nil => exact absurd hs (List.splitOn_ne_nil _ _)
          | cons first rest =>
              rw [hs] at h ih
              rcases List.mem_cons.mp h with rfl | h
              · have hne : '\n' ≠ c := fun e => hc (beq_iff_eq.mpr e.symm)
                exact List.not_mem_cons_of_ne_of_not_mem hne (ih List.mem_cons_self)
              · exact ih (List.mem_cons_of_mem _ h)

theorem linesOf_dropComments {text : String} (h : codeLines (linesOf text) ≠ []) :
    linesOf (dropComments text) = codeLines (linesOf text) := by
  rw [linesOf, dropComments, String.toList_ofList]
  refine List.splitOn_intercalate _ (fun line hline => ?_) h
  exact newline_notMem_of_mem_linesOf (List.mem_filter.mp hline).1

theorem isCommentLine_append {indent : List Char} (h : ∀ c ∈ indent, isIndent c = true)
    (line : List Char) : isCommentLine (indent ++ line) = isCommentLine line := by
  unfold isCommentLine
  rw [List.dropWhile_append_of_pos h]

theorem codeLines_append (lines lines' : List (List Char)) :
    codeLines (lines ++ lines') = codeLines lines ++ codeLines lines' :=
  List.filter_append lines lines'

theorem Interspersed.codeLines_eq {plain lines : List (List Char)} (h : Interspersed plain lines) :
    codeLines lines = codeLines plain := by
  induction h with
  | nil => rfl
  | keep line _ ih => rw [← List.singleton_append, codeLines_append, ih, ← codeLines_append]; rfl
  | comment hc _ ih =>
      rw [codeLines, List.filter_cons, hc]
      exact ih

theorem Interspersed.comments {comments plain lines : List (List Char)}
    (hc : ∀ line ∈ comments, isCommentLine line = true) (h : Interspersed plain lines) :
    Interspersed plain (comments ++ lines) := by
  induction comments with
  | nil => exact h
  | cons line comments ih =>
      obtain ⟨hline, hrest⟩ := List.forall_mem_cons.mp hc
      exact .comment hline (ih hrest)

structure CommentedLine where
  indent : String := ""
  comment : Option String := none
  line : String

namespace CommentedLine

def text (l : CommentedLine) : String := commentLine l.indent l.comment ++ l.line ++ "\n"

def uncommented (l : CommentedLine) : CommentedLine := { l with comment := none }

/-- The first line of the comment and the further ones. -/
def commentLines (l : CommentedLine) : List (List Char) :=
  (l.comment.map fun c => linesOf (l.indent ++ "// " ++ c)).getD []

structure IsOneLine (l : CommentedLine) : Prop where
  indent : ∀ c ∈ l.indent.toList, isIndent c = true
  line : '\n' ∉ l.line.toList

variable {l : CommentedLine} {ls : List CommentedLine}

theorem linesOf_text_append (h : l.IsOneLine) (rest : String) :
    linesOf (l.text ++ rest) = l.commentLines ++ l.line.toList :: linesOf rest := by
  unfold text commentLines
  cases l.comment with
  | none =>
      rw [commentLine, String.empty_append, linesOf_append_newline, linesOf_of_notMem h.line]
      rfl
  | some c =>
      have happend : commentLine l.indent (some c) ++ l.line ++ "\n" ++ rest =
          l.indent ++ "// " ++ c ++ "\n" ++ (l.line ++ "\n" ++ rest) := by
        simp only [commentLine, String.append_assoc]
      rw [happend, linesOf_append_newline, linesOf_append_newline, linesOf_of_notMem h.line]
      rfl

theorem linesOf_join (h : ∀ l ∈ ls, l.IsOneLine) : linesOf (String.join (ls.map text)) =
    ls.flatMap (fun l => l.commentLines ++ [l.line.toList]) ++ [[]] := by
  induction ls with
  | nil => rfl
  | cons l ls ih =>
      obtain ⟨hl, hls⟩ := List.forall_mem_cons.mp h
      rw [List.map_cons, String.join_cons, linesOf_text_append hl, ih hls]
      simp

theorem commentLines_iff (h : l.IsOneLine) :
    (∀ line ∈ l.commentLines, isCommentLine line = true) ↔ StaysComment l.comment := by
  unfold commentLines StaysComment
  cases l.comment with
  | none => simp
  | some c =>
      have hbefore : '\n' ∉ (l.indent ++ "// ").toList := by
        intro hmem
        rcases List.mem_append.mp (String.toList_append ▸ hmem) with hmem | hmem
        · exact absurd (h.indent _ hmem) (by decide)
        · exact absurd hmem (by decide)
      simp only [Option.map_some, Option.getD_some, linesOf_append hbefore]
      cases hc : linesOf c with
      | nil => exact absurd hc (linesOf_ne_nil c)
      | cons first rest =>
          have hfirst : isCommentLine ((l.indent ++ "// ").toList ++ first) = true := by
            rw [String.toList_append, List.append_assoc, isCommentLine_append h.indent]
            rfl
          rw [List.modifyHead_cons, List.forall_mem_cons]
          simp [hc, hfirst, -String.toList_append]

theorem IsOneLine.uncommented (h : l.IsOneLine) : l.uncommented.IsOneLine := ⟨h.indent, h.line⟩

theorem linesOf_join_uncommented (h : ∀ l ∈ ls, l.IsOneLine) :
    linesOf (String.join ((ls.map uncommented).map text)) =
      ls.map (fun l => l.line.toList) ++ [[]] := by
  induction ls with
  | nil => rfl
  | cons l ls ih =>
      obtain ⟨hl, hls⟩ := List.forall_mem_cons.mp h
      rw [List.map_cons, List.map_cons, String.join_cons, linesOf_text_append hl.uncommented,
        ih hls]
      rfl

theorem interspersed_of_staysComment (h : ∀ l ∈ ls, l.IsOneLine)
    (hstays : ∀ l ∈ ls, StaysComment l.comment) :
    Interspersed (ls.map (fun l => l.line.toList) ++ [[]])
      (ls.flatMap (fun l => l.commentLines ++ [l.line.toList]) ++ [[]]) := by
  induction ls with
  | nil => exact .keep [] .nil
  | cons l ls ih =>
      obtain ⟨hl, hls⟩ := List.forall_mem_cons.mp h
      obtain ⟨hc, hcs⟩ := List.forall_mem_cons.mp hstays
      rw [List.map_cons, List.flatMap_cons, List.cons_append, List.append_assoc,
        List.append_assoc]
      exact .comments ((commentLines_iff hl).mpr hc) (.keep _ (ih hls hcs))

theorem length_codeLines_le (ls : List CommentedLine) :
    (codeLines (ls.map fun l => l.line.toList)).length ≤
      (codeLines (ls.flatMap fun l => l.commentLines ++ [l.line.toList])).length := by
  have hsub : (ls.map fun l => l.line.toList).Sublist
      (ls.flatMap fun l => l.commentLines ++ [l.line.toList]) := by
    induction ls with
    | nil => exact .slnil
    | cons l ls ih =>
        rw [List.map_cons, List.flatMap_cons, List.append_assoc]
        exact (ih.cons_cons _).trans (List.sublist_append_right _ _)
  exact (hsub.filter _).length_le

theorem staysComment_of_length_le (h : ∀ l ∈ ls, l.IsOneLine)
    (hcode : (codeLines (ls.flatMap fun l => l.commentLines ++ [l.line.toList])).length ≤
      (codeLines (ls.map fun l => l.line.toList)).length) :
    ∀ l ∈ ls, StaysComment l.comment := by
  induction ls with
  | nil => exact nofun
  | cons l ls ih =>
      obtain ⟨hl, hls⟩ := List.forall_mem_cons.mp h
      have hle := length_codeLines_le ls
      have hmap : (l :: ls).map (fun l => l.line.toList) =
          [l.line.toList] ++ ls.map fun l => l.line.toList := rfl
      rw [hmap, List.flatMap_cons] at hcode
      simp only [codeLines_append, List.length_append] at hcode
      have hnone : codeLines l.commentLines = [] := by
        apply List.length_eq_zero_iff.mp
        omega
      refine List.forall_mem_cons.mpr ⟨?_, ih hls (by omega)⟩
      apply (commentLines_iff hl).mp
      simpa [codeLines] using hnone

theorem addsComments_iff (h : ∀ l ∈ ls, l.IsOneLine) :
    AddsComments (String.join ((ls.map uncommented).map text)) (String.join (ls.map text)) ↔
      ∀ l ∈ ls, StaysComment l.comment := by
  unfold AddsComments
  rw [linesOf_join h, linesOf_join_uncommented h]
  constructor
  · intro hadds
    have hcode := hadds.codeLines_eq
    rw [codeLines_append, codeLines_append] at hcode
    apply staysComment_of_length_le h
    exact Nat.le_of_eq (congrArg List.length (List.append_cancel_right hcode))
  · exact interspersed_of_staysComment h

/-- Where no line is a comment itself, the comments can be deleted exactly if they add nothing but
comment lines. -/
theorem dropComments_eq_iff (h : ∀ l ∈ ls, l.IsOneLine)
    (hcode : ∀ l ∈ ls, isCommentLine l.line.toList = false) :
    dropComments (String.join (ls.map text)) = String.join ((ls.map uncommented).map text) ↔
      ∀ l ∈ ls, StaysComment l.comment := by
  have hplain : codeLines (ls.map (fun l => l.line.toList) ++ [[]]) =
      ls.map (fun l => l.line.toList) ++ [[]] := by
    apply List.filter_eq_self.mpr
    intro line hline
    rcases List.mem_append.mp hline with hline | hline
    · obtain ⟨l, hl, rfl⟩ := List.mem_map.mp hline
      simp [hcode l hl]
    · obtain rfl := List.mem_singleton.mp hline
      rfl
  rw [← addsComments_iff h]
  constructor
  · intro hdrop
    rw [addsComments_iff h]
    have hlines := congrArg linesOf hdrop
    rw [linesOf_dropComments, linesOf_join h, linesOf_join_uncommented h, ← hplain,
      codeLines_append, codeLines_append] at hlines
    · apply staysComment_of_length_le h
      exact Nat.le_of_eq (congrArg List.length (List.append_cancel_right hlines))
    · rw [linesOf_join h, codeLines_append]
      exact List.append_ne_nil_of_right_ne_nil _ (by decide)
  · intro hadds
    unfold dropComments
    rw [hadds.codeLines_eq, linesOf_join_uncommented h, hplain, ← linesOf_join_uncommented h,
      linesOf, List.intercalate_splitOn, String.ofList_toList]

end CommentedLine

def OneLine (text : String) : Prop := '\n' ∉ text.toList

instance : DecidablePred OneLine := fun text => inferInstanceAs (Decidable ('\n' ∉ text.toList))

theorem oneLine_append {a b : String} : OneLine (a ++ b) ↔ OneLine a ∧ OneLine b := by
  simp [OneLine]

theorem OneLine.intercalate {sep : String} (hsep : OneLine sep) {texts : List String}
    (h : ∀ t ∈ texts, OneLine t) : OneLine (String.intercalate sep texts) := by
  induction texts with
  | nil => exact List.not_mem_nil
  | cons t texts ih =>
      obtain ⟨ht, htexts⟩ := List.forall_mem_cons.mp h
      cases texts with
      | nil => rwa [String.intercalate_singleton]
      | cons u texts =>
          rw [String.intercalate_cons_cons]
          exact oneLine_append.mpr ⟨oneLine_append.mpr ⟨ht, hsep⟩, ih htexts⟩

/-- A line that begins with the text is no comment. -/
def beginsCode (text : String) : Bool := text.toList.head?.any fun c => !isIndent c && c != '/'

section

variable {text : String}

theorem beginsCode_append (h : beginsCode text = true) (rest : String) :
    beginsCode (text ++ rest) = true := by
  unfold beginsCode at h ⊢
  rw [String.toList_append]
  cases hc : text.toList with
  | nil =>
      rw [hc] at h
      cases h
  | cons c cs => simpa [hc] using h

theorem isCommentLine_of_beginsCode (h : beginsCode text = true) :
    isCommentLine text.toList = false := by
  unfold beginsCode at h
  unfold isCommentLine
  cases hc : text.toList with
  | nil => rfl
  | cons c cs =>
      obtain ⟨hindent, hslash⟩ : isIndent c = false ∧ c ≠ '/' := by simpa [hc] using h
      rw [List.dropWhile_cons_of_neg (by simp [hindent])]
      simp [List.isPrefixOf, Ne.symm hslash]

theorem beginsCode_intercalate (h : beginsCode text = true) {before : List String}
    (hbefore : ∀ t ∈ before, beginsCode t = true) (sep : String) (texts : List String) :
    beginsCode (String.intercalate sep (before ++ text :: texts)) = true := by
  have hcons {t : String} (ht : beginsCode t = true) (ts : List String) :
      beginsCode (String.intercalate sep (t :: ts)) = true := by
    cases ts with
    | nil => rwa [String.intercalate_singleton]
    | cons u ts =>
        rw [String.intercalate_cons_cons, String.append_assoc]
        exact beginsCode_append ht _
  cases before with
  | nil => exact hcons h texts
  | cons t ts => exact hcons (hbefore t List.mem_cons_self) _

end

theorem Layout.beginsCode_text (l : Layout) : beginsCode l.text = true :=
  beginsCode_append (beginsCode_append (by decide) _) _

theorem staysComment_of_oneLine {c : String} (h : OneLine c) : StaysComment (some c) := by
  rintro _ ⟨⟩ line hline
  rw [linesOf_of_notMem h] at hline
  cases hline

namespace Variable

def uncommented (v : Variable) : Variable := { v with comment := none }

structure IsOneLine (v : Variable) : Prop where
  type : OneLine v.type
  name : OneLine v.name
  arraySize : ∀ size ∈ v.arraySize, OneLine size
  layout : OneLine v.layout.text
  initializer : ∀ init ∈ v.initializer, OneLine init
  debugComment : ∀ note ∈ v.debugComment, OneLine note

variable {v : Variable}

theorem IsOneLine.declarator (h : v.IsOneLine) : OneLine v.declarator := by
  unfold Variable.declarator
  cases hs : v.arraySize with
  | none => exact h.name
  | some size =>
      have hsize := h.arraySize size hs
      simp only [oneLine_append]
      exact ⟨⟨⟨h.name, by decide⟩, hsize⟩, by decide⟩

theorem IsOneLine.member (h : v.IsOneLine) : IsOneLine { v with qualifier := none } :=
  ⟨h.type, h.name, h.arraySize, h.layout, h.initializer, h.debugComment⟩

theorem forall_mem_modifiers {p : String → Prop} (hlayout : p v.layout.text) (hconst : p "const")
    (hkeyword : ∀ q : Qualifier, p q.keyword) :
    ∀ word ∈ (if v.layout.isEmpty then [] else [v.layout.text]) ++
      (if v.isConst then ["const"] else []) ++ (v.qualifier.map Qualifier.keyword).toList,
      p word := by
  intro word hword
  rcases List.mem_append.mp hword with hword | hword
  · rcases List.mem_append.mp hword with hword | hword
    · split at hword
      · cases hword
      · exact List.mem_singleton.mp hword ▸ hlayout
    · split at hword
      · exact List.mem_singleton.mp hword ▸ hconst
      · cases hword
  · obtain ⟨q, -, rfl⟩ := Option.map_eq_some_iff.mp (Option.mem_toList.mp hword)
    exact hkeyword q

theorem IsOneLine.declaration (h : v.IsOneLine) : OneLine v.declaration := by
  unfold Variable.declaration
  simp only [oneLine_append]
  refine ⟨⟨⟨.intercalate (by decide) ?_, ?_⟩, by decide⟩, ?_⟩
  · refine List.forall_mem_append.mpr ⟨forall_mem_modifiers h.layout (by decide) ?_, ?_⟩
    · intro q
      cases q <;> decide
    · exact List.forall_mem_cons.mpr ⟨h.type, List.forall_mem_singleton.mpr h.declarator⟩
  · cases hi : v.initializer with
    | none => exact List.not_mem_nil
    | some init => exact oneLine_append.mpr ⟨by decide, h.initializer init hi⟩
  · cases hd : v.debugComment with
    | none => exact List.not_mem_nil
    | some note => exact oneLine_append.mpr ⟨by decide, h.debugComment note hd⟩

theorem beginsCode_declaration (h : beginsCode v.type = true) :
    beginsCode v.declaration = true := by
  unfold declaration
  rw [String.append_assoc, String.append_assoc]
  refine beginsCode_append (beginsCode_intercalate h ?_ _ _) _
  refine forall_mem_modifiers v.layout.beginsCode_text (by decide) fun q => ?_
  cases q <;> decide

def commentedLine (v : Variable) : CommentedLine where
  comment := v.comment
  line := v.declaration

def commentedMember (indent : String) (v : Variable) : CommentedLine where
  indent := indent
  comment := v.comment
  line := indent ++ { v with qualifier := none }.declaration

end Variable

theorem variableLines_eq (vs : List Variable) :
    variableLines vs = String.join ((vs.map Variable.commentedLine).map CommentedLine.text) := by
  rw [List.map_map]
  rfl

namespace InterfaceStruct

def uncommented (s : InterfaceStruct) : InterfaceStruct :=
  { s with comment := none, members := s.members.map Variable.uncommented }

def openingLine (s : InterfaceStruct) : String :=
  match s.block with
  | some q =>
      (if s.layout.isEmpty then "" else s.layout.text ++ " ") ++ q.keyword ++ " " ++ s.name ++ " \x7b"
  | none => "struct " ++ s.name ++ " \x7b"

def closingLine (s : InterfaceStruct) : String :=
  match s.block, s.instanceName with
  | some _, some name => "\x7d " ++ name ++ ";"
  | _, _ => "\x7d;"

def commentedLines (indent : String) (s : InterfaceStruct) : List CommentedLine :=
  { comment := s.comment, line := s.openingLine } ::
    s.members.map (Variable.commentedMember indent) ++ [{ line := s.closingLine }]

theorem opening_eq (s : InterfaceStruct) : s.opening = s.openingLine ++ "\n" := by
  unfold opening openingLine
  cases s.block with
  | none => simp [String.append_assoc]
  | some q => simp [String.append_assoc]

theorem closing_eq (s : InterfaceStruct) : s.closing = s.closingLine ++ "\n" := by
  unfold closing closingLine
  cases s.block with
  | none => rfl
  | some q => cases s.instanceName <;> simp [String.append_assoc]

theorem text_eq (indent : String) (s : InterfaceStruct) :
    s.text indent = String.join ((s.commentedLines indent).map CommentedLine.text) := by
  have hmember : CommentedLine.text ∘ Variable.commentedMember indent = memberLines indent := by
    funext v
    simp only [Function.comp_apply, CommentedLine.text, Variable.commentedMember, memberLines,
      String.append_assoc]
  have hfirst : CommentedLine.text { comment := s.comment, line := s.openingLine } =
      commentLine "" s.comment ++ s.opening := by
    rw [opening_eq, ← String.append_assoc]
    rfl
  have hlast : CommentedLine.text { line := s.closingLine } = s.closing := by
    rw [closing_eq, CommentedLine.text, commentLine, String.empty_append]
  unfold commentedLines
  rw [List.map_append, List.map_cons, List.map_map, hmember, hfirst, List.map_singleton, hlast,
    List.cons_append, String.join_cons, String.join_append, String.join_cons, String.join_nil,
    String.append_empty, ← String.append_assoc]
  rfl

structure IsOneLine (s : InterfaceStruct) : Prop where
  name : OneLine s.name
  layout : OneLine s.layout.text
  instanceName : ∀ name ∈ s.instanceName, OneLine name
  members : ∀ v ∈ s.members, v.IsOneLine

variable {s : InterfaceStruct}

theorem IsOneLine.openingLine (h : s.IsOneLine) : OneLine s.openingLine := by
  unfold InterfaceStruct.openingLine
  cases s.block with
  | none => exact oneLine_append.mpr ⟨oneLine_append.mpr ⟨by decide, h.name⟩, by decide⟩
  | some q =>
      simp only [oneLine_append]
      refine ⟨⟨⟨⟨?_, by cases q <;> decide⟩, by decide⟩, h.name⟩, by decide⟩
      split
      · decide
      · exact oneLine_append.mpr ⟨h.layout, by decide⟩

theorem IsOneLine.closingLine (h : s.IsOneLine) : OneLine s.closingLine := by
  unfold InterfaceStruct.closingLine
  cases s.block with
  | none => exact (by decide : OneLine "\x7d;")
  | some q =>
      cases hn : s.instanceName with
      | none => exact (by decide : OneLine "\x7d;")
      | some name =>
          exact oneLine_append.mpr
            ⟨oneLine_append.mpr ⟨by decide, h.instanceName name hn⟩, by decide⟩

theorem beginsCode_openingLine (s : InterfaceStruct) : beginsCode s.openingLine = true := by
  unfold openingLine
  cases s.block with
  | none => exact beginsCode_append (beginsCode_append (by decide) _) _
  | some q =>
      simp only [String.append_assoc]
      split
      · rw [String.empty_append]
        exact beginsCode_append (by cases q <;> decide) _
      · exact beginsCode_append (beginsCode_append s.layout.beginsCode_text _) _

theorem beginsCode_closingLine (s : InterfaceStruct) : beginsCode s.closingLine = true := by
  unfold closingLine
  cases s.block with
  | none => exact (by decide : beginsCode "\x7d;" = true)
  | some q =>
      cases s.instanceName with
      | none => exact (by decide : beginsCode "\x7d;" = true)
      | some name => exact beginsCode_append (beginsCode_append (by decide) _) _

theorem isOneLine_commentedLines (h : s.IsOneLine) {indent : String}
    (hindent : ∀ c ∈ indent.toList, isIndent c = true) :
    ∀ l ∈ s.commentedLines indent, l.IsOneLine := by
  have hbreak : OneLine indent := fun hmem => absurd (hindent _ hmem) (by decide)
  refine List.forall_mem_append.mpr ⟨List.forall_mem_cons.mpr ⟨?_, ?_⟩, ?_⟩
  · exact ⟨nofun, h.openingLine⟩
  · intro l hl
    obtain ⟨v, hv, rfl⟩ := List.mem_map.mp hl
    exact ⟨hindent, oneLine_append.mpr ⟨hbreak, (h.members v hv).member.declaration⟩⟩
  · exact List.forall_mem_singleton.mpr ⟨nofun, h.closingLine⟩

theorem isCommentLine_commentedLines {indent : String}
    (hindent : ∀ c ∈ indent.toList, isIndent c = true)
    (htype : ∀ v ∈ s.members, beginsCode v.type = true) :
    ∀ l ∈ s.commentedLines indent, isCommentLine l.line.toList = false := by
  refine List.forall_mem_append.mpr ⟨List.forall_mem_cons.mpr ⟨?_, ?_⟩, ?_⟩
  · exact isCommentLine_of_beginsCode s.beginsCode_openingLine
  · intro l hl
    obtain ⟨v, hv, rfl⟩ := List.mem_map.mp hl
    have hmember : beginsCode { v with qualifier := none }.declaration = true :=
      Variable.beginsCode_declaration (htype v hv)
    rw [Variable.commentedMember, String.toList_append, isCommentLine_append hindent]
    exact isCommentLine_of_beginsCode hmember
  · exact List.forall_mem_singleton.mpr (isCommentLine_of_beginsCode s.beginsCode_closingLine)

theorem uncommented_commentedLines (indent : String) (s : InterfaceStruct) :
    (s.commentedLines indent).map CommentedLine.uncommented =
      s.uncommented.commentedLines indent := by
  simp only [commentedLines, uncommented, List.map_append, List.map_cons, List.map_map]
  rfl

theorem forall_staysComment_iff (indent : String) (s : InterfaceStruct) :
    (∀ l ∈ s.commentedLines indent, StaysComment l.comment) ↔
      StaysComment s.comment ∧ ∀ v ∈ s.members, StaysComment v.comment := by
  have hlast : StaysComment none := nofun
  unfold commentedLines
  rw [List.forall_mem_append, List.forall_mem_cons, List.forall_mem_map,
    List.forall_mem_singleton]
  exact and_iff_left hlast

end InterfaceStruct

/-- Comments add nothing but comment lines, and can be deleted again, exactly if every further line
of each is a comment by itself; a comment without a line break has none. -/
theorem comments_add_lines_iff (vs : List Variable) (s : InterfaceStruct) (indent : String)
    (hvs : ∀ v ∈ vs, v.IsOneLine) (hs : s.IsOneLine)
    (hindent : ∀ c ∈ indent.toList, isIndent c = true) :
    (AddsComments (variableLines (vs.map Variable.uncommented)) (variableLines vs) ↔
      ∀ v ∈ vs, StaysComment v.comment) ∧
    (AddsComments (s.uncommented.text indent) (s.text indent) ↔
      StaysComment s.comment ∧ ∀ v ∈ s.members, StaysComment v.comment) ∧
    ((∀ v ∈ vs, beginsCode v.type = true) →
      (dropComments (variableLines vs) = variableLines (vs.map Variable.uncommented) ↔
        ∀ v ∈ vs, StaysComment v.comment)) ∧
    ((∀ v ∈ s.members, beginsCode v.type = true) →
      (dropComments (s.text indent) = s.uncommented.text indent ↔
        StaysComment s.comment ∧ ∀ v ∈ s.members, StaysComment v.comment)) ∧
    ∀ c, OneLine c → StaysComment (some c) := by
  have hplain : (vs.map Variable.uncommented).map Variable.commentedLine =
      (vs.map Variable.commentedLine).map CommentedLine.uncommented := by
    rw [List.map_map, List.map_map]
    rfl
  have hlines : ∀ l ∈ vs.map Variable.commentedLine, l.IsOneLine :=
    List.forall_mem_map.mpr fun v hv => ⟨nofun, (hvs v hv).declaration⟩
  have hstays : (∀ l ∈ vs.map Variable.commentedLine, StaysComment l.comment) ↔
      ∀ v ∈ vs, StaysComment v.comment := List.forall_mem_map
  have hmembers := InterfaceStruct.isOneLine_commentedLines hs hindent
  rw [variableLines_eq, variableLines_eq, hplain, InterfaceStruct.text_eq, InterfaceStruct.text_eq,
    ← InterfaceStruct.uncommented_commentedLines, ← s.forall_staysComment_iff indent, ← hstays]
  refine ⟨CommentedLine.addsComments_iff hlines, CommentedLine.addsComments_iff hmembers, ?_, ?_,
    fun c => staysComment_of_oneLine⟩
  · intro htype
    refine CommentedLine.dropComments_eq_iff hlines (List.forall_mem_map.mpr fun v hv => ?_)
    exact isCommentLine_of_beginsCode (Variable.beginsCode_declaration (htype v hv))
  · intro htype
    exact CommentedLine.dropComments_eq_iff hmembers
      (InterfaceStruct.isCommentLine_commentedLines hindent htype)

/-- The second line of the comment becomes a line of the program. -/
def brokenComment : Variable where
  type := "float"
  name := "x"
  qualifier := some .uniform
  comment := some "a\nb"

def longComment : InterfaceStruct where
  name := "Light"
  block := none
  instanceName := none
  members := [{ type := "float", name := "power", comment := some "in watt\n  // per lamp" }]

theorem comments_add_lines_brokenComment :
    ¬AddsComments (variableLines [brokenComment.uncommented]) (variableLines [brokenComment]) ∧
      dropComments (longComment.text "    ") = longComment.uncommented.text "    " := by
  have hbroken : brokenComment.IsOneLine :=
    ⟨by decide, by decide, nofun, by decide, nofun, nofun⟩
  have hlong : longComment.IsOneLine :=
    ⟨by decide, by decide, nofun, List.forall_mem_singleton.mpr
      ⟨by decide, by decide, nofun, by decide, nofun, nofun⟩⟩
  obtain ⟨hadds, -, -, hdrop, -⟩ := comments_add_lines_iff [brokenComment] longComment "    "
    (List.forall_mem_singleton.mpr hbroken) hlong (List.all_eq_true.mp (by decide))
  constructor
  · intro h
    exact absurd (hadds.mp h brokenComment List.mem_cons_self "a\nb" rfl) (by decide)
  · refine (hdrop (by decide)).mpr ⟨nofun, List.forall_mem_singleton.mpr ?_⟩
    rintro _ ⟨⟩
    decide

end ShaderCompiler
