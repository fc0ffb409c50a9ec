/-
Line ends and language lines of a program file. A program is read from the tokens of its lines, and
a language line has none. So lines of this kind may be added wherever a line may start, even inside
a list, and every line end may be LF, CRLF or CR: the program that is read stays the same, or the
failure does. Two line ends can become one, a CR before an LF; the line between them is empty, and
an empty line has no tokens either.
-/
import Mathlib.Logic.Relation
import PassCheck.Proofs.Pass.Source
import PassCheck.Proofs.Sexp.Seam
import PassCheck.Proofs.World.Tracing

namespace PassCheck.Sexp

open PassCheck.Text

/-! ## Tokens line by line -/

/-- A text is its last line, or a line with its end and more lines. -/
theorem line_induction {P : List Char → Prop} (last : ∀ l, '\n' ∉ l → P l)
    (line : ∀ l rest, '\n' ∉ l → P rest → P (l ++ '\n' :: rest)) (text : List Char) : P text := by
  induction hn : text.length using Nat.strongRecOn generalizing text with
  | ind n ih =>
    by_cases h : '\n' ∈ text
    · obtain ⟨l, rest, rfl, hl⟩ := List.eq_append_cons_of_mem h
      refine line l rest hl (ih rest.length ?_ rest rfl)
      rw [← hn, List.length_append, List.length_cons]; omega
    · exact last text h

theorem lines_of_not_mem {l : List Char} (h : '\n' ∉ l) (hne : l ≠ []) : lines l = [l] := by
  unfold lines
  induction l with
  | nil => exact absurd rfl hne
  | cons c l ih =>
    rw [List.mem_cons, not_or] at h
    have hc : (c == '\n') = false := beq_eq_false_iff_ne.2 (Ne.symm h.1)
    rw [cutAfter, hc, if_neg Bool.false_ne_true]
    cases l with
    | nil => rfl
    | cons d l => rw [ih h.2 (by simp)]

theorem lines_line {l : List Char} (h : '\n' ∉ l) : lines (l ++ ['\n']) = [l ++ ['\n']] := by
  unfold lines
  induction l with
  | nil => rfl
  | cons c l ih =>
    rw [List.mem_cons, not_or] at h
    have hc : (c == '\n') = false := beq_eq_false_iff_ne.2 (Ne.symm h.1)
    rw [List.cons_append, cutAfter, hc, if_neg Bool.false_ne_true, ih h.2]

theorem dropLangLines_append {a : List Char} (h : Whole a) (b : List Char) :
    dropLangLines (a ++ b) = dropLangLines a ++ dropLangLines b := by
  rw [dropLangLines, lines_append h, List.filter_append, List.flatten_append]; rfl

theorem dropLangLines_line {l : List Char} (h : '\n' ∉ l) :
    dropLangLines (l ++ ['\n']) = if isLangLine (l ++ ['\n']) then [] else l ++ ['\n'] := by
  rw [dropLangLines, lines_line h]
  cases hl : isLangLine (l ++ ['\n']) <;> simp [hl]

/-- The tokens that a program is read from. -/
def programTokens (text : List Char) : List Token := tokenize (dropLangLines text)

/-- The tokens of one line of a program. -/
def lineTokens (l : List Char) : List Token := if isLangLine (l ++ ['\n']) then [] else tokenize l

theorem programTokens_line {l : List Char} (h : '\n' ∉ l) (rest : List Char) :
    programTokens (l ++ '\n' :: rest) = lineTokens l ++ programTokens rest := by
  rw [programTokens, programTokens, lineTokens, List.append_cons,
    dropLangLines_append (whole_line l), dropLangLines_line h]
  split
  · rfl
  · rw [List.append_assoc, List.singleton_append, tokenize_append_newline]

theorem programTokens_newline (rest : List Char) :
    programTokens ('\n' :: rest) = programTokens rest := by
  have h : lineTokens [] = [] := tokenize_nil
  have hline := programTokens_line (l := []) (by simp) rest
  rwa [h] at hline

/-! ## Language lines -/

/-- What a language line starts with. -/
def langTag : List Char := ['#', 'l', 'a', 'n', 'g']

theorem isLangLine_iff {l : List Char} : isLangLine l = true ↔ ∃ rest, l = langTag ++ rest := by
  rw [isLangLine, List.isPrefixOf_iff_prefix]
  exact ⟨fun ⟨rest, h⟩ => ⟨rest, h.symm⟩, fun ⟨rest, h⟩ => ⟨rest, h.symm⟩⟩

/-- One more line that starts with the tag, whole and with its end, is put at the start of a text or
right behind a line end. A line holds no line end of any style but its own. -/
inductive AddsLangLine : List Char → List Char → Prop
  | intro {before after rest : List Char} : Whole before → '\n' ∉ rest → '\r' ∉ rest →
    AddsLangLine (before ++ after) (before ++ (langTag ++ rest ++ ['\n']) ++ after)

theorem AddsLangLine.dropLangLines_eq {a b : List Char} (h : AddsLangLine a b) :
    dropLangLines b = dropLangLines a := by
  cases h with
  | @intro before after rest hb hn _ =>
    have hline : '\n' ∉ langTag ++ rest := by simp [langTag, hn]
    have hlang : isLangLine (langTag ++ rest ++ ['\n']) = true :=
      isLangLine_iff.2 ⟨rest ++ ['\n'], List.append_assoc ..⟩
    rw [dropLangLines_append (whole_append hb (whole_line _)), dropLangLines_append hb,
      dropLangLines_line hline, hlang, if_pos rfl, List.append_nil, dropLangLines_append hb]

theorem AddsLangLine.no_cr {a b : List Char} (h : AddsLangLine a b) (ha : '\r' ∉ a) : '\r' ∉ b := by
  cases h with
  | intro hb hn hr => simp_all [langTag]

/-- Any number of language lines may be added one after another. -/
theorem dropLangLines_of_added {a b : List Char} (h : Relation.ReflTransGen AddsLangLine a b)
    (ha : '\r' ∉ a) : dropLangLines b = dropLangLines a ∧ '\r' ∉ b := by
  induction h with
  | refl => exact ⟨rfl, ha⟩
  | tail _ hstep ih => exact ⟨hstep.dropLangLines_eq.trans ih.1, hstep.no_cr ih.2⟩

/-- Somewhere in a text a line starts with the tag. -/
def HasLangLine (text : List Char) : Prop :=
  ∃ before after, Whole before ∧ text = before ++ (langTag ++ after)

theorem dropLangLines_eq_self {text : List Char} (h : ¬ HasLangLine text) :
    dropLangLines text = text := by
  induction text using line_induction with
  | last l hl =>
    by_cases hne : l = []
    · rw [hne]; rfl
    · have hlang : isLangLine l = false := by
        rw [← Bool.not_eq_true, isLangLine_iff]
        rintro ⟨rest, rfl⟩
        exact h ⟨[], rest, nofun, rfl⟩
      rw [dropLangLines, lines_of_not_mem hl hne]
      simp [hlang]
  | line l rest hl ih =>
    have hlang : isLangLine (l ++ ['\n']) = false := by
      rw [← Bool.not_eq_true, isLangLine_iff]
      rintro ⟨more, hmore⟩
      refine h ⟨[], more ++ rest, nofun, ?_⟩
      rw [List.nil_append, ← List.append_assoc, ← hmore, ← List.append_cons]
    have hrest : ¬ HasLangLine rest := by
      rintro ⟨before, after, hb, rfl⟩
      refine h ⟨l ++ ['\n'] ++ before, after, whole_append (whole_line l) hb, ?_⟩
      rw [List.append_cons, List.append_assoc _ before]
    rw [List.append_cons, dropLangLines_append (whole_line l), dropLangLines_line hl, hlang,
      if_neg Bool.false_ne_true, ih hrest]

/-! ## Line ends -/

/-- The styles of line ends. -/
inductive LineEnd where
  | lf
  | crlf
  | cr

def LineEnd.chars : LineEnd → List Char
  | .lf => ['\n']
  | .crlf => ['\r', '\n']
  | .cr => ['\r']

/-- A text with other line ends, one after another; where none is given it stays LF. -/
def restyle : List LineEnd → List Char → List Char
  | _, [] => []
  | ends, c :: cs =>
    if c = '\n' then (ends.headD .lf).chars ++ restyle ends.tail cs else c :: restyle ends cs

theorem restyle_append (ends : List LineEnd) {l : List Char} (h : '\n' ∉ l) (rest : List Char) :
    restyle ends (l ++ rest) = l ++ restyle ends rest := by
  induction l with
  | nil => rfl
  | cons c l ih =>
    rw [List.mem_cons, not_or] at h
    rw [List.cons_append, restyle, if_neg (Ne.symm h.1), ih h.2, List.cons_append]

theorem unifyNewlines_append {l : List Char} (h : '\r' ∉ l) (rest : List Char) :
    unifyNewlines (l ++ rest) = l ++ unifyNewlines rest := by
  induction l with
  | nil => rfl
  | cons c l ih =>
    rw [List.mem_cons, not_or] at h
    have hc : unifyNewlines (c :: (l ++ rest)) = c :: unifyNewlines (l ++ rest) := by
      rw [unifyNewlines]
      · rintro cs rfl; exact absurd rfl h.1
      · rintro rfl; exact absurd rfl h.1
    rw [List.cons_append, hc, ih h.2, List.cons_append]

/-- A line end is read as LF. A CR may take the line end behind it along, and then a line without
tokens is lost. -/
theorem unifyNewlines_lineEnd (e : LineEnd) (rest : List Char) :
    ∃ more, unifyNewlines (e.chars ++ rest) = '\n' :: more ∧
      programTokens more = programTokens (unifyNewlines rest) := by
  have hlf : ∀ cs, unifyNewlines ('\n' :: cs) = '\n' :: unifyNewlines cs := fun cs => by
    rw [unifyNewlines] <;> nofun
  cases e with
  | lf => exact ⟨_, hlf rest, rfl⟩
  | crlf => exact ⟨_, rfl, rfl⟩
  | cr =>
    by_cases hr : ∃ rest', rest = '\n' :: rest'
    · obtain ⟨rest', rfl⟩ := hr
      exact ⟨unifyNewlines rest', rfl, by rw [hlf, programTokens_newline]⟩
    · refine ⟨unifyNewlines rest, ?_, rfl⟩
      show unifyNewlines ('\r' :: rest) = _
      rw [unifyNewlines]
      exact fun rest' h => hr ⟨rest', h⟩

/-- With other line ends, a text has the same tokens when it is read. -/
theorem programTokens_restyle {text : List Char} (h : '\r' ∉ text) :
    ∀ ends, programTokens (unifyNewlines (restyle ends text)) = programTokens text := by
  induction text using line_induction with
  | last l hl =>
    intro ends
    have hsame := restyle_append ends hl []
    rw [List.append_nil, restyle, List.append_nil] at hsame
    rw [hsame, unifyNewlines_eq_self h]
  | line l rest hl ih =>
    intro ends
    obtain ⟨hlr, hrest⟩ : '\r' ∉ l ∧ '\r' ∉ rest := by simpa using h
    obtain ⟨more, hmore, htokens⟩ :=
      unifyNewlines_lineEnd (ends.headD .lf) (restyle ends.tail rest)
    rw [restyle_append ends hl, restyle, if_pos rfl, unifyNewlines_append hlr, hmore,
      programTokens_line hl, htokens, ih hrest, programTokens_line hl]

/-! ## Programs -/

theorem readAll_dropLangLines (text : List Char) :
    readAll (dropLangLines text) = readTokens (programTokens text) := rfl

theorem programOf_congr {text text' : List Char} (h : programTokens text = programTokens text')
    (path : String) : Check.programOf path text = Check.programOf path text' := by
  rw [Check.programOf, Check.programOf, readProgramText, readProgramText, readAll_dropLangLines,
    readAll_dropLangLines, h]

/-- The path of a program has no part in what is read, except that it is named when there is not
exactly one value. -/
theorem programOf_cases (text : List Char) :
    (∃ d, ∀ path, Check.programOf path text = .ok (program (.tuple []) d)) ∨
    (∃ e, ∀ path, Check.programOf path text = .error e) ∨
    ∃ n, ∀ path, Check.programOf path text = .error (.unreadable (.programCount path n)) := by
  cases hr : readAll (dropLangLines text) with
  | error e =>
    exact .inr (.inl ⟨.ofRead e, fun path => by rw [Check.programOf, readProgramText, hr]⟩)
  | ok ds =>
    rcases ds with _ | ⟨d, _ | ⟨b, ds⟩⟩
    · exact .inr (.inr ⟨0, fun path => by rw [Check.programOf, readProgramText, hr]; rfl⟩)
    · exact .inl ⟨d, fun path => by rw [Check.programOf, readProgramText, hr]⟩
    · refine .inr (.inr ⟨(d :: b :: ds).length, fun path => ?_⟩)
      rw [Check.programOf, readProgramText, hr]; rfl

theorem programOf_eq_ok_iff {path : String} {text : List Char} {d : Datum} :
    Check.programOf path text = .ok (program (.tuple []) d) ↔
      readAll (dropLangLines text) = .ok [d] := by
  rw [Check.programOf, readProgramText]
  cases hr : readAll (dropLangLines text) with
  | error e => simp
  | ok ds =>
    rcases ds with _ | ⟨d', _ | ⟨b, ds⟩⟩
    · simp
    · simp [program]
    · simp

theorem readProgram_of_holds {path : String} {w : World} {text : List Char}
    (hw : w.Holds path (String.ofList text).toUTF8) :
    (Check.readProgram path w).1 = Check.programOf path (unifyNewlines text) := by
  rw [Check.readProgram_apply, hw]
  show (textOf (String.ofList text).toUTF8 >>= Check.programOf path) = _
  rw [textOf, decodeText?_toUTF8_unified, String.toList_ofList]
  rfl

/-- Line ends and language lines do not matter. A file holds a text without CR. Another one holds it
with language lines added and each line end in a style of its own. Both are read as the same program,
or both fail in the same way: with failures of one kind, which are the same failure if the paths are
the same. If no line of the text starts with the tag, a program is read exactly if the text itself
holds exactly one value, its body. -/
theorem readProgram_same_for_lines {path path' : String} {w w' : World} {text text' : List Char}
    (ends : List LineEnd) (hcr : '\r' ∉ text)
    (hadd : Relation.ReflTransGen AddsLangLine text text')
    (hw : w.Holds path (String.ofList text).toUTF8)
    (hw' : w'.Holds path' (String.ofList (restyle ends text')).toUTF8) :
    ((∃ d, (Check.readProgram path w).1 = .ok (program (.tuple []) d) ∧
        (Check.readProgram path' w').1 = .ok (program (.tuple []) d)) ∨
      ∃ e e', (Check.readProgram path w).1 = .error e ∧
        (Check.readProgram path' w').1 = .error e' ∧ e'.SameKind e ∧ (path' = path → e' = e)) ∧
    (¬ HasLangLine text → ∀ d,
      (Check.readProgram path' w').1 = .ok (program (.tuple []) d) ↔ readAll text = .ok [d]) := by
  obtain ⟨hdrop, hcr'⟩ := dropLangLines_of_added hadd hcr
  have htokens : programTokens (unifyNewlines (restyle ends text')) = programTokens text := by
    rw [programTokens_restyle hcr', programTokens, hdrop, programTokens]
  have hread : (Check.readProgram path w).1 = Check.programOf path text := by
    rw [readProgram_of_holds hw, unifyNewlines_eq_self hcr]
  have hread' : (Check.readProgram path' w').1 = Check.programOf path' text := by
    rw [readProgram_of_holds hw', programOf_congr htokens]
  constructor
  · rw [hread, hread']
    rcases programOf_cases text with ⟨d, h⟩ | ⟨e, h⟩ | ⟨n, h⟩
    · exact .inl ⟨d, h path, h path'⟩
    · exact .inr ⟨e, e, h path, h path', .refl e, fun _ => rfl⟩
    · exact .inr ⟨_, _, h path, h path', .unreadable _ _, fun hp => by rw [hp]⟩
  · intro hlang d
    rw [hread', programOf_eq_ok_iff, dropLangLines_eq_self hlang]

/-- A sum over three lines, the second of them empty. -/
def plainText : List Char := "(+ 1\n\n2)\n".toList

/-- The same sum with a language line in front and one inside the list. -/
def taggedText : List Char := "#lang r\n(+ 1\n#lang s\n\n2)\n".toList

/-- The CR behind the inner language line and the LF of the empty line are one line end. -/
def mixedEnds : List LineEnd := [.crlf, .cr, .cr, .lf, .crlf]

def styledFiles : Files :=
  ⟨[(["a.rkt"], .file (String.ofList plainText).toUTF8),
    (["b.rkt"], .file (String.ofList (restyle mixedEnds taggedText)).toUTF8)]⟩

theorem readProgram_same_for_lines_mixed :
    restyle mixedEnds taggedText = "#lang r\r\n(+ 1\r#lang s\r\n2)\r\n".toList ∧
    Relation.ReflTransGen AddsLangLine plainText taggedText ∧
    (Check.readProgram "b.rkt" (World.start styledFiles)).1 =
      .ok (program (.tuple []) (.tuple [.str "+", .int 1, .int 2])) := by
  have hinner : AddsLangLine plainText "(+ 1\n#lang s\n\n2)\n".toList :=
    @AddsLangLine.intro "(+ 1\n".toList "\n2)\n".toList " s".toList (whole_line "(+ 1".toList)
      (by decide) (by decide)
  have houter : AddsLangLine "(+ 1\n#lang s\n\n2)\n".toList taggedText :=
    @AddsLangLine.intro [] _ " r".toList nofun (by decide) (by decide)
  have hadd : Relation.ReflTransGen AddsLangLine plainText taggedText :=
    (Relation.ReflTransGen.single hinner).tail houter
  have hlang : ¬ HasLangLine plainText := by
    rintro ⟨before, after, -, h⟩
    have hmem : '#' ∈ plainText := by rw [h]; simp [langTag]
    exact absurd hmem (by decide)
  have hread : readAll plainText = .ok [.tuple [.str "+", .int 1, .int 2]] := by
    have ht : tokenize plainText = [.opening .round, .atom ['+'], .atom ['1'], .atom ['2'],
        .closing .round] := by decide +kernel
    have hone : readOne [.opening .round, .atom ['+'], .atom ['1'], .atom ['2'], .closing .round] =
        .ok (.tuple [.str "+", .int 1, .int 2], []) := rfl
    rw [readAll, ht, readTokens_of_readOne hone, readTokens]; rfl
  have hplain : (World.start styledFiles).Holds "a.rkt" (String.ofList plainText).toUTF8 := rfl
  have hstyled : (World.start styledFiles).Holds "b.rkt"
      (String.ofList (restyle mixedEnds taggedText)).toUTF8 := rfl
  have h := readProgram_same_for_lines mixedEnds (by decide) hadd hplain hstyled
  exact ⟨by decide, hadd, (h.2 hlang _).2 hread⟩

end PassCheck.Sexp
