import Mathlib.Data.List.Induction
import Mathlib.Data.List.TakeWhile
import ShaderCompiler.Proofs.Sequencing
import ShaderCompiler.Token.Lexer

namespace ShaderCompiler

/-- The line of a place: the line breaks before it, counted from one. -/
def lineAt (text : List Char) (offset : Nat) : Nat := 1 + (text.take offset).count '\n'

/-- The column of a place: the characters since the last line break before it, counted from one. -/
def columnAt (text : List Char) (offset : Nat) : Nat :=
  1 + ((text.take offset).reverse.takeWhile (· ≠ '\n')).length

namespace Position

def atOffset (text : List Char) (offset : Nat) : Position := origin.after (text.take offset)

theorem after_append (p : Position) (passed more : List Char) :
    p.after (passed ++ more) = (p.after passed).after more :=
  List.foldl_append

theorem after_origin (passed : List Char) : origin.after passed =
    ⟨passed.length, 1 + passed.count '\n',
      1 + (passed.reverse.takeWhile (· ≠ '\n')).length⟩ := by
  induction passed using List.reverseRecOn with
  | nil => rfl
  | append_singleton passed c ih =>
      rw [after_append, ih]
      show next _ c = _
      rw [next, List.length_append, List.count_append, List.reverse_append]
      by_cases hc : c = '\n'
      · rw [if_pos hc, hc]
        rfl
      · rw [if_neg hc]
        simp [hc, Nat.add_assoc]

theorem atOffset_eq {text : List Char} {offset : Nat} (h : offset ≤ text.length) :
    atOffset text offset = ⟨offset, lineAt text offset, columnAt text offset⟩ := by
  rw [atOffset, after_origin, List.length_take_of_le h]
  rfl

theorem upTo_atOffset {text rest : List Char} {offset : Nat} (hoffset : offset ≤ text.length)
    (h : rest <:+ text.drop offset) :
    (atOffset text offset).upTo (text.drop offset) rest =
      atOffset text (text.length - rest.length) := by
  have hle := h.length_le
  rw [List.length_drop] at hle
  have hsum : text.length - rest.length = offset + (text.length - offset - rest.length) := by
    omega
  rw [upTo, atOffset, atOffset, ← after_append, List.length_drop, hsum, List.take_add]

end Position

namespace Token

/-- Blanks and comments before the text `next`. A line comment goes on to the end of its line, and a
block comment to the first end mark. -/
inductive Trivia (next : List Char) : List Char → Prop
  | nil : Trivia next []
  | blank {c : Char} {rest : List Char} :
      Text.isBlank c = true → Trivia next rest → Trivia next (c :: rest)
  | line {body rest : List Char} :
      '\n' ∉ body → (∀ c ∈ (rest ++ next).head?, c = '\n') → Trivia next rest →
      Trivia next ('/' :: '/' :: (body ++ rest))
  | block {body rest : List Char} :
      ¬ ['*', '/'] <:+: body → Trivia next rest →
      Trivia next ('/' :: '*' :: (body ++ '*' :: '/' :: rest))

theorem exists_of_closeComment {text rest : List Char} (h : closeComment text = some rest) :
    ∃ body, text = body ++ '*' :: '/' :: rest ∧ ¬ ['*', '/'] <:+: body := by
  fun_induction closeComment text with
  | case1 r =>
      obtain rfl : r = rest := by simpa using h
      exact ⟨[], rfl, by simp⟩
  | case2 c r hopen ih =>
      obtain ⟨body, rfl, hbody⟩ := ih h
      refine ⟨c :: body, rfl, ?_⟩
      rw [List.infix_cons_iff]
      -- an end mark at the front would have ended the comment
      rintro (⟨more, hmore⟩ | hinfix)
      · obtain ⟨rfl, rfl⟩ := List.cons.inj hmore
        exact hopen _ rfl rfl
      · exact hbody hinfix
  | case3 => cases h

theorem exists_of_skipTrivia {text rest : List Char} (h : skipTrivia text = .ok rest) :
    ∃ gap, text = gap ++ rest ∧ Trivia rest gap := by
  fun_induction skipTrivia text with
  | case1 r ih =>
      obtain ⟨gap, hgap, htrivia⟩ := ih h
      refine ⟨'/' :: '/' :: (r.takeWhile (· ≠ '\n') ++ gap), ?_, .line ?_ ?_ htrivia⟩
      · rw [List.cons_append, List.cons_append, List.append_assoc, ← hgap,
          List.takeWhile_append_dropWhile]
      · intro hmem
        simpa using List.mem_takeWhile_imp hmem
      · rw [← hgap]
        intro c hc
        have hhead := List.head?_dropWhile_not (fun c => decide (c ≠ '\n')) r
        rw [Option.mem_def.mp hc] at hhead
        simpa using hhead
  | case2 r after hc ih =>
      obtain ⟨gap, rfl, htrivia⟩ := ih h
      obtain ⟨body, rfl, hbody⟩ := exists_of_closeComment hc
      exact ⟨'/' :: '*' :: (body ++ '*' :: '/' :: gap), by simp, .block hbody htrivia⟩
  | case3 => cases h
  | case4 c r _ _ hblank ih =>
      obtain ⟨gap, rfl, htrivia⟩ := ih h
      exact ⟨c :: gap, rfl, .blank hblank htrivia⟩
  | case5 c r => exact ⟨[], Except.ok.inj h, .nil⟩
  | case6 => exact ⟨[], Except.ok.inj h, .nil⟩

theorem literal_ne_eof (n : Decimal.Numeral) (fractional : Bool) (suffix : String) :
    literal n fractional suffix ≠ .ok .eof := by
  intro h
  unfold literal floatLiteral wordLiteral at h
  repeat' split at h
  all_goals cases h

theorem scanNumber_ne_eof (text after : List Char) : scanNumber text ≠ .ok (.eof, after) := by
  intro h
  have hhex (digits : List Char) : scanHex digits ≠ .ok (.eof, after) := by
    intro h
    unfold scanHex at h
    grind
  unfold scanNumber at h
  split at h
  · exact hhex _ h
  · exact hhex _ h
  · obtain ⟨kind, hkind, he⟩ := exists_of_map_ok h
    cases he
    exact literal_ne_eof _ _ _ hkind

theorem ofWord_ne_eof (word : String) : ofWord word ≠ .eof := by
  unfold ofWord
  split
  · exact nofun
  · split <;> exact nofun

theorem scan_ne_eof (c : Char) (rest after : List Char) : scan c rest ≠ .ok (.eof, after) := by
  intro h
  unfold scan at h
  split at h
  · split at h <;> cases h
  · split at h
    · exact scanNumber_ne_eof _ _ h
    · split at h
      · cases h
      · split at h
        · exact ofWord_ne_eof _ (Prod.mk.inj (Except.ok.inj h)).1
        · split at h <;> cases h

structure Gap (text : List Char) (start stop : Nat) : Prop where
  start_le : start ≤ stop
  stop_le : stop ≤ text.length
  trivia : Trivia (text.drop stop) ((text.take stop).drop start)

structure Placed (text : List Char) (span : Span) : Prop where
  line : span.line = lineAt text span.start
  column : span.column = columnAt text span.start

/-- Scanning at the start of the token gives its kind and stops at its end. -/
structure Covers (text : List Char) (t : Token) : Prop where
  start_lt : t.span.start < t.span.stop
  ne_eof : t.kind ≠ .eof
  scanned : ∃ c rest, text.drop t.span.start = c :: rest ∧
    scan c rest = .ok (t.kind, text.drop t.span.stop)

/-- Tokens laid side by side on a text, from an offset to its end. -/
inductive Laid (text : List Char) : Nat → List Token → Prop
  | last {offset : Nat} {t : Token} : Gap text offset t.span.start → Placed text t.span →
      t.kind = .eof → t.span.start = text.length → t.span.stop = text.length → Laid text offset [t]
  | token {offset : Nat} {t : Token} {rest : List Token} : Gap text offset t.span.start →
      Placed text t.span → Covers text t → Laid text t.span.stop rest → Laid text offset (t :: rest)

section Steps

variable {text rest : List Char} {offset : Nat}

theorem gap_of_skipTrivia (hoffset : offset ≤ text.length)
    (h : skipTrivia (text.drop offset) = .ok rest) :
    Gap text offset (text.length - rest.length) := by
  have hle := (skipTrivia_suffix h).length_le
  rw [List.length_drop] at hle
  obtain ⟨gap, hgap, htrivia⟩ := exists_of_skipTrivia h
  have hrest := List.suffix_iff_eq_drop.mp
    ((skipTrivia_suffix h).trans (List.drop_suffix offset text))
  have hslice : (text.take (text.length - rest.length)).drop offset = gap := by
    rw [List.drop_take, hgap]
    apply List.take_left'
    have hlength := congrArg List.length hgap
    rw [List.length_drop, List.length_append] at hlength
    omega
  refine ⟨by omega, by omega, ?_⟩
  rw [hslice, ← hrest]
  exact htrivia

theorem covers_of_scan {c : Char} {after : List Char} {kind : Kind} {start line column : Nat}
    (hstart : text.drop start = c :: rest) (h : scan c rest = .ok (kind, after)) :
    Covers text ⟨kind, ⟨start, text.length - after.length, line, column⟩⟩ := by
  have hafter : after <:+ text := by
    refine ((scan_suffix h).trans (List.suffix_cons c rest)).trans ?_
    rw [← hstart]
    exact List.drop_suffix start text
  refine ⟨?_, ?_, c, rest, hstart, ?_⟩
  · have hlength := congrArg List.length hstart
    have hle := (scan_suffix h).length_le
    rw [List.length_drop, List.length_cons] at hlength
    show start < text.length - after.length
    omega
  · rintro rfl
    exact scan_ne_eof c rest after h
  · rw [h, ← List.suffix_iff_eq_drop.mp hafter]

theorem laid_of_tokensFrom {tokens : List Token} (hoffset : offset ≤ text.length)
    (h : tokensFrom (.atOffset text offset) (text.drop offset) = .ok tokens) :
    Laid text offset tokens := by
  generalize hpos : Position.atOffset text offset = pos at h
  generalize hremaining : text.drop offset = remaining at h
  fun_induction tokensFrom pos remaining generalizing offset tokens with
  | case1 => cases h
  | case2 pos remaining hskip =>
      rename_i start
      subst hpos hremaining
      have hgap : Gap text offset text.length := gap_of_skipTrivia hoffset hskip
      have hstart : start = .atOffset text text.length :=
        Position.upTo_atOffset hoffset (skipTrivia_suffix hskip)
      rw [hstart, Position.atOffset_eq hgap.stop_le] at h
      cases h
      exact .last hgap ⟨rfl, rfl⟩ rfl rfl rfl
  | case3 => cases h
  | case4 pos remaining c rest hskip start kind after hscan =>
      rename_i stop ih
      subst hpos hremaining
      have hgap := gap_of_skipTrivia hoffset hskip
      have hbegin := List.suffix_iff_eq_drop.mp
        ((skipTrivia_suffix hskip).trans (List.drop_suffix offset text))
      have hafter : after <:+ text.drop (text.length - (c :: rest).length) := by
        rw [← hbegin]
        exact (scan_suffix hscan).trans (List.suffix_cons c rest)
      have hend := List.suffix_iff_eq_drop.mp (hafter.trans (List.drop_suffix _ text))
      have hstart : start = .atOffset text (text.length - (c :: rest).length) :=
        Position.upTo_atOffset hoffset (skipTrivia_suffix hskip)
      have hstop : stop = .atOffset text (text.length - after.length) := by
        rw [← Position.upTo_atOffset hgap.stop_le hafter, ← hstart, ← hbegin]
      obtain ⟨more, hmore, rfl⟩ := exists_of_map_ok h
      have hlaid := ih (Nat.sub_le _ _) hstop.symm hend.symm hmore
      rw [hstart, hstop, Position.atOffset_eq hgap.stop_le, Position.atOffset_eq (Nat.sub_le _ _)]
      exact .token hgap ⟨rfl, rfl⟩ (covers_of_scan hbegin.symm hscan) hlaid

end Steps

/-- What it means that tokens tile a text. -/
structure Tiles (text : List Char) (tokens : List Token) : Prop where
  /-- The end mark is the last token and no other, and stands behind the last character. -/
  ends : ∃ init stop, tokens = init ++ [stop] ∧ stop.kind = .eof ∧
    stop.span.start = text.length ∧ stop.span.stop = text.length ∧
    ∀ t ∈ init, t.kind ≠ .eof ∧ t.span.start < t.span.stop
  first : ∀ t ∈ tokens.head?, Gap text 0 t.span.start
  between : ∀ t u, [t, u] <:+: tokens → Gap text t.span.stop u.span.start
  placed : ∀ t ∈ tokens, Placed text t.span
  scanned : ∀ t ∈ tokens, t.kind ≠ .eof → Covers text t

namespace Laid

variable {text : List Char} {offset : Nat} {tokens : List Token}

theorem ends (h : Laid text offset tokens) : ∃ init stop, tokens = init ++ [stop] ∧
    stop.kind = .eof ∧ stop.span.start = text.length ∧ stop.span.stop = text.length ∧
    ∀ t ∈ init, t.kind ≠ .eof ∧ t.span.start < t.span.stop := by
  induction h with
  | @last _ t _ _ hkind hstart hstop => exact ⟨[], t, rfl, hkind, hstart, hstop, nofun⟩
  | @token _ t rest _ _ hcovers _ ih =>
      obtain ⟨init, stop, rfl, hkind, hstart, hstop, hinit⟩ := ih
      refine ⟨t :: init, stop, rfl, hkind, hstart, hstop, ?_⟩
      intro u hu
      rcases List.mem_cons.mp hu with rfl | hu
      · exact ⟨hcovers.ne_eof, hcovers.start_lt⟩
      · exact hinit u hu

theorem first (h : Laid text offset tokens) : ∀ t ∈ tokens.head?, Gap text offset t.span.start := by
  cases h with
  | last hgap | token hgap =>
      rintro t ⟨⟩
      exact hgap

theorem between (h : Laid text offset tokens) :
    ∀ t u, [t, u] <:+: tokens → Gap text t.span.stop u.span.start := by
  induction h with
  | last =>
      intro t u hinfix
      simpa using hinfix.length_le
  | @token _ t rest _ _ _ hrest ih =>
      intro a b hinfix
      rcases List.infix_cons_iff.mp hinfix with ⟨more, hmore⟩ | hinfix
      · obtain ⟨rfl, rfl⟩ := List.cons.inj hmore
        exact hrest.first b rfl
      · exact ih a b hinfix

theorem placed (h : Laid text offset tokens) : ∀ t ∈ tokens, Placed text t.span := by
  induction h with
  | last _ hplaced => simpa using hplaced
  | token _ hplaced _ _ ih => exact List.forall_mem_cons.mpr ⟨hplaced, ih⟩

theorem scanned (h : Laid text offset tokens) : ∀ t ∈ tokens, t.kind ≠ .eof → Covers text t := by
  induction h with
  | last _ _ hkind => simp [hkind]
  | token _ _ hcovers _ ih => exact List.forall_mem_cons.mpr ⟨fun _ => hcovers, ih⟩

end Laid

/-- The tokens of every source that can be cut into tokens tile it. -/
theorem tiles_of_tokenize {source : String} {tokens : List Token}
    (h : tokenize source = .ok tokens) : Tiles source.toList tokens := by
  have hlaid : Laid source.toList 0 tokens := laid_of_tokensFrom (Nat.zero_le _) h
  exact ⟨hlaid.ends, hlaid.first, hlaid.between, hlaid.placed, hlaid.scanned⟩

/-- A string goes over a line break, and comments stand between and behind the tokens. -/
theorem tiles_brokenString :
    ∃ tokens, tokenize "@if/* a\n*/+= \"b\n\\n\"// c" = .ok tokens ∧
      tokens = [⟨.identifier "if", ⟨0, 3, 1, 1⟩⟩, ⟨.symbol .plusEq, ⟨10, 12, 2, 3⟩⟩,
        ⟨.string "b\n\n", ⟨13, 19, 2, 6⟩⟩, ⟨.eof, ⟨23, 23, 3, 8⟩⟩] ∧
      Tiles "@if/* a\n*/+= \"b\n\\n\"// c".toList tokens := by
  have h : tokenize "@if/* a\n*/+= \"b\n\\n\"// c" =
      .ok [⟨.identifier "if", ⟨0, 3, 1, 1⟩⟩, ⟨.symbol .plusEq, ⟨10, 12, 2, 3⟩⟩,
        ⟨.string "b\n\n", ⟨13, 19, 2, 6⟩⟩, ⟨.eof, ⟨23, 23, 3, 8⟩⟩] := by
    decide +kernel
  exact ⟨_, h, rfl, tiles_of_tokenize h⟩

end Token

end ShaderCompiler
