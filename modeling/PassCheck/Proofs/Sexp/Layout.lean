/-
The layout of a text does not matter. A scanner that takes the longest piece of one class after
another, and would stop at a character that starts no piece, comes to the end of every text; the
pieces that are not white space or comments are the tokens. Laid out again, with anything between
two tokens that separates them, the tokens make a text with the same tokens, which is read alike.
-/
import PassCheck.Proofs.Sexp.Seam

namespace PassCheck.Sexp

open PassCheck.Text

/-! ## Scanning by classes -/

/-- One or more characters of a kind, as many as there are at the start of a text. -/
def many? (p : Char → Bool) (cs : List Char) : Option (List Char) :=
  if cs.takeWhile p = [] then none else some (cs.takeWhile p)

/-- One character of a kind at the start of a text. -/
def one? (p : Char → Bool) (cs : List Char) : Option (List Char) :=
  cs.head?.bind fun c => if p c then some [c] else none

/-- A comment at the start of a text: a semicolon and the rest of its line. -/
def comment? : List Char → Option (List Char)
  | ';' :: cs => some (';' :: cs.takeWhile (· != '\n'))
  | _ => none

/-- The characters that never stand in an atom, apart from white space. -/
def delimiters : List Char := ['(', ')', '[', ']', ';', '\'']

/-- A character that is neither white space nor a delimiter. -/
def isWordChar (c : Char) : Bool := !isBlank c && !delimiters.contains c

/-- White space or a comment at the start of a text. -/
def gap? (cs : List Char) : Option (List Char) := (many? isBlank cs).or (comment? cs)

/-- A token at the start of a text, by the first class that takes something: opening brackets,
closing brackets, the quote mark, atoms. -/
def lexeme? (cs : List Char) : Option (List Char) :=
  (one? (['(', '['].contains ·) cs).or <| (one? ([')', ']'].contains ·) cs).or <|
    (one? (· == '\'') cs).or (many? isWordChar cs)

/-- The runs of a scanner from a place of a text to its end: the texts of the tokens, or the place of
a character that starts no piece. A scanner that does not advance has no run. -/
inductive Scans : Nat → List Char → Except Nat (List (List Char)) → Prop
  | done (pos : Nat) : Scans pos [] (.ok [])
  | gap {pos : Nat} {cs piece : List Char} {r : Except Nat (List (List Char))} :
    gap? cs = some piece → Scans (pos + piece.length) (cs.drop piece.length) r → Scans pos cs r
  | token {pos : Nat} {cs piece : List Char} {r : Except Nat (List (List Char))} :
    gap? cs = none → lexeme? cs = some piece →
    Scans (pos + piece.length) (cs.drop piece.length) r → Scans pos cs (r.map (piece :: ·))
  | stuck {pos : Nat} {cs : List Char} :
    cs ≠ [] → gap? cs = none → lexeme? cs = none → Scans pos cs (.error pos)

theorem isWordChar_eq (c : Char) : isWordChar c = isAtomChar c := by
  rw [Bool.eq_iff_iff, isAtomChar_iff, punctuation?_eq_none_iff]
  simp only [isWordChar, delimiters, Bool.and_eq_true, Bool.not_eq_true', List.contains_eq_mem,
    decide_eq_false_iff_not, List.mem_cons, List.not_mem_nil, or_false, not_or]
  tauto

theorem many?_cons_of_pos {p : Char → Bool} {c : Char} (h : p c = true) (cs : List Char) :
    many? p (c :: cs) = some (c :: cs.takeWhile p) := by
  simp [many?, h]

theorem many?_cons_of_neg {p : Char → Bool} {c : Char} (h : p c = false) (cs : List Char) :
    many? p (c :: cs) = none := by
  simp [many?, h]

theorem gap?_blank {c : Char} (h : isBlank c = true) (cs : List Char) :
    gap? (c :: cs) = some (c :: cs.takeWhile isBlank) := by
  rw [gap?, many?_cons_of_pos h, Option.some_or]

theorem gap?_comment (cs : List Char) :
    gap? (';' :: cs) = some (';' :: cs.takeWhile (· != '\n')) := by
  rw [gap?, many?_cons_of_neg (by decide)]; rfl

theorem gap?_eq_none {c : Char} (hb : isBlank c = false) (hc : c ≠ ';') (cs : List Char) :
    gap? (c :: cs) = none := by
  rw [gap?, many?_cons_of_neg hb, Option.none_or]
  unfold comment?
  split
  · rename_i h; cases h; exact absurd rfl hc
  · rfl

theorem lexeme?_punctuation {c : Char} {t : Token} (h : Token.punctuation? c = some t)
    (cs : List Char) : lexeme? (c :: cs) = some t.chars := by
  unfold Token.punctuation? at h
  split_ifs at h with h1 h2 h3 h4 h5
  all_goals cases h
  · cases eq_of_beq h1; rfl
  · cases eq_of_beq h2; rfl
  · cases eq_of_beq h3; rfl
  · cases eq_of_beq h4; rfl
  · cases eq_of_beq h5; rfl

theorem lexeme?_atom {c : Char} (h : isAtomChar c = true) (cs : List Char) :
    lexeme? (c :: cs) = some (c :: cs.takeWhile isAtomChar) := by
  have hp := punctuation?_eq_none_iff.1 (isAtomChar_iff.1 h).2.2
  simp only [List.mem_cons, List.not_mem_nil, or_false, not_or] at hp
  have hword : many? isWordChar (c :: cs) = some (c :: cs.takeWhile isAtomChar) := by
    rw [many?_cons_of_pos ((isWordChar_eq c).trans h), funext isWordChar_eq]
  simp [lexeme?, one?, hp, hword]

theorem drop_takeWhile {α : Type} (p : α → Bool) (l : List α) :
    l.drop (l.takeWhile p).length = l.dropWhile p := by
  have h : (l.takeWhile p ++ l.dropWhile p).drop (l.takeWhile p).length = l.dropWhile p :=
    List.drop_left
  rwa [List.takeWhile_append_dropWhile] at h

theorem tokenize_dropWhile_blank (cs : List Char) :
    tokenize (cs.dropWhile isBlank) = tokenize cs := by
  induction cs with
  | nil => rfl
  | cons c cs ih =>
    cases h : isBlank c with
    | false => rw [List.dropWhile_cons_of_neg (by simp [h])]
    | true => rw [List.dropWhile_cons_of_pos h, ih, tokenize_blank h]

/-- Every scan comes to the end, and what it finds are the tokens. -/
theorem scans_tokenize (cs : List Char) :
    ∀ pos, Scans pos cs (.ok ((tokenize cs).map Token.chars)) := by
  induction hn : cs.length using Nat.strongRecOn generalizing cs with
  | ind n ih =>
    intro pos
    cases cs with
    | nil => rw [tokenize_nil]; exact .done pos
    | cons c cs =>
      have hdrop : ∀ p, (cs.dropWhile p).length < n := fun p => by
        rw [← hn]; exact Nat.lt_succ_of_le (List.dropWhile_sublist p).length_le
      cases hb : isBlank c with
      | true =>
        refine .gap (gap?_blank hb cs) ?_
        rw [List.length_cons, List.drop_succ_cons, drop_takeWhile, tokenize_blank hb,
          ← tokenize_dropWhile_blank]
        exact ih _ (hdrop isBlank) _ rfl _
      | false =>
        by_cases hc : c = ';'
        · subst hc
          refine .gap (gap?_comment cs) ?_
          rw [List.length_cons, List.drop_succ_cons, drop_takeWhile, tokenize_comment]
          exact ih _ (hdrop (· != '\n')) _ rfl _
        · have hgap := gap?_eq_none hb hc cs
          cases ht : Token.punctuation? c with
          | some t =>
            have hsize : t.chars.length = 1 := by
              unfold Token.punctuation? at ht
              split_ifs at ht <;> cases ht <;> rfl
            have hscan := ih cs.length (hn ▸ Nat.lt_succ_self _) cs rfl (pos + 1)
            rw [tokenize_punctuation ht]
            exact .token hgap (lexeme?_punctuation ht cs) (by rw [hsize]; exact hscan)
          | none =>
            have ha : isAtomChar c = true := isAtomChar_iff.2 ⟨hb, hc, ht⟩
            rw [tokenize_atom ha]
            refine .token (r := .ok _) hgap (lexeme?_atom ha cs) ?_
            rw [Token.chars, List.length_cons, List.drop_succ_cons, drop_takeWhile]
            exact ih _ (hdrop isAtomChar) _ rfl _

/-- A scanner has no choice. -/
theorem Scans.unique {pos : Nat} {cs : List Char} {r r' : Except Nat (List (List Char))}
    (h : Scans pos cs r) (h' : Scans pos cs r') : r = r' := by
  induction h generalizing r' with
  | done pos =>
    cases h' with
    | done => rfl
    | gap hg => cases hg
    | token _ hl => cases hl
    | stuck hne => exact absurd rfl hne
  | gap hg _ ih =>
    cases h' with
    | done => cases hg
    | gap hg' h' => cases hg.symm.trans hg'; exact ih h'
    | token hg' => cases hg.symm.trans hg'
    | stuck _ hg' => cases hg.symm.trans hg'
  | token hg hl _ ih =>
    cases h' with
    | done => cases hl
    | gap hg' => cases hg.symm.trans hg'
    | token _ hl' h' => cases hl.symm.trans hl'; rw [ih h']
    | stuck _ _ hl' => cases hl.symm.trans hl'
  | stuck hne hg hl =>
    cases h' with
    | done => exact absurd rfl hne
    | gap hg' => cases hg.symm.trans hg'
    | token _ hl' => cases hl.symm.trans hl'
    | stuck => rfl

theorem scans_iff {pos : Nat} {cs : List Char} {r : Except Nat (List (List Char))} :
    Scans pos cs r ↔ r = .ok ((tokenize cs).map Token.chars) :=
  ⟨fun h => h.unique (scans_tokenize cs pos), fun h => h ▸ scans_tokenize cs pos⟩

/-! ## Texts of tokens -/

/-- The texts of tokens: a bracket, the quote mark, or a run of word characters. -/
def IsTokenText (cs : List Char) : Prop :=
  cs ∈ [['('], [')'], ['['], [']'], ['\'']] ∨
    cs ≠ [] ∧ ∀ c ∈ cs, isBlank c = false ∧ c ∉ delimiters

/-- A token is a mark of punctuation, or an atom of atom characters. -/
theorem mem_tokenize_cases {text : List Char} {t : Token} (h : t ∈ tokenize text) :
    (∃ c, Token.punctuation? c = some t ∧ t.chars = [c]) ∨
      ∃ cs, t = .atom cs ∧ cs ≠ [] ∧ ∀ c ∈ cs, isAtomChar c = true := by
  cases t with
  | opening b => left; cases b <;> exact ⟨_, rfl, rfl⟩
  | closing b => left; cases b <;> exact ⟨_, rfl, rfl⟩
  | quote => exact .inl ⟨'\'', rfl, rfl⟩
  | atom cs => exact .inr ⟨cs, rfl, atom_of_mem_tokenize h⟩

theorem isTokenText_of_mem {text : List Char} {t : Token} (h : t ∈ tokenize text) :
    IsTokenText t.chars := by
  rcases mem_tokenize_cases h with ⟨c, hc, ht⟩ | ⟨cs, rfl, hne, hcs⟩
  · left
    have hmem : c ∈ ['(', '[', ')', ']', '\''] := by
      by_contra hno
      rw [punctuation?_eq_none_iff.2 hno] at hc; cases hc
    rw [ht]
    simpa [or_left_comm, or_assoc] using hmem
  · refine .inr ⟨hne, fun c hc => ?_⟩
    have hword := (isWordChar_eq c).trans (hcs c hc)
    simpa [isWordChar] using hword

/-- A token is known by its text. -/
theorem ofChars_chars_of_mem {text : List Char} {t : Token} (h : t ∈ tokenize text) :
    Token.ofChars t.chars = t := by
  rcases mem_tokenize_cases h with ⟨c, hc, ht⟩ | ⟨cs, rfl, hne, hcs⟩
  · rw [ht, Token.ofChars, hc]; rfl
  · rw [Token.chars]
    unfold Token.ofChars
    split
    · rename_i c
      rw [(isAtomChar_iff.1 (hcs c List.mem_cons_self)).2.2]; rfl
    · rfl

/-- The text of a token, before a text that ends an atom, is that token again. -/
theorem tokenize_chars_append {text rest : List Char} {t : Token} (h : t ∈ tokenize text)
    (hr : EndsAtom rest) : tokenize (t.chars ++ rest) = t :: tokenize rest := by
  rcases mem_tokenize_cases h with ⟨c, hc, ht⟩ | ⟨cs, rfl, hne, hcs⟩
  · rw [ht, List.singleton_append, tokenize_punctuation hc]
  · exact tokenize_atom_append hne hcs hr

/-! ## Separators -/

/-- What separates tokens: white space and comments with the ends of their lines, at least one. -/
inductive Separator : List Char → Prop
  | blank {c : Char} : isBlank c = true → Separator [c]
  | comment {cs : List Char} : '\n' ∉ cs → Separator (';' :: cs ++ ['\n'])
  | append {s s' : List Char} : Separator s → Separator s' → Separator (s ++ s')

theorem Separator.endsAtom {s : List Char} (h : Separator s) : ∀ rest, EndsAtom (s ++ rest) := by
  induction h with
  | blank hb => exact fun rest => endsAtom_cons (by simp [isAtomChar, hb])
  | comment => exact fun rest => endsAtom_cons (by decide)
  | append _ _ ih _ => exact fun rest => by rw [List.append_assoc]; exact ih _

theorem Separator.tokenize_append {s : List Char} (h : Separator s) :
    ∀ rest, tokenize (s ++ rest) = tokenize rest := by
  induction h with
  | blank hb => exact fun rest => tokenize_blank hb rest
  | @comment cs hcs =>
    intro rest
    have hend : cs.dropWhile (· != '\n') = [] :=
      List.dropWhile_eq_nil_iff.2 fun c hc => bne_iff_ne.2 fun e => hcs (e ▸ hc)
    rw [List.append_assoc, List.singleton_append, tokenize_append_newline, tokenize_comment, hend,
      tokenize_nil, List.nil_append]
  | append _ _ ih ih' => exact fun rest => by rw [List.append_assoc, ih, ih']

/-- Tokens laid out with the given separators, one between two neighbours. -/
def layOut : List (List Char) → List Token → List Char
  | s :: seps, t :: u :: ts => t.chars ++ (s ++ layOut seps (u :: ts))
  | _, ts => ts.flatMap Token.chars

theorem tokenize_layOut {text : List Char} :
    ∀ {seps : List (List Char)} {ts : List Token}, (∀ t ∈ ts, t ∈ tokenize text) →
      (∀ s ∈ seps, Separator s) → seps.length = ts.length - 1 → tokenize (layOut seps ts) = ts
  | [], [], _, _, _ => tokenize_nil
  | [], [t], hts, _, _ => by
    have h := tokenize_chars_append (hts t List.mem_cons_self) endsAtom_nil
    rwa [tokenize_nil] at h
  | [], _ :: _ :: _, _, _, hlen => by simp at hlen
  | _ :: _, [], _, _, hlen => by simp at hlen
  | _ :: _, [_], _, _, hlen => by simp at hlen
  | s :: seps, t :: u :: ts, hts, hseps, hlen => by
    have hs := hseps s List.mem_cons_self
    rw [layOut, tokenize_chars_append (hts t List.mem_cons_self) (hs.endsAtom _),
      hs.tokenize_append, tokenize_layOut (fun v hv => hts v (List.mem_cons_of_mem t hv))
        (fun v hv => hseps v (List.mem_cons_of_mem s hv)) (by simpa using hlen)]

/-- The layout of a text does not matter. Every text has tokens: scanning it comes to the end and
never to a character that starts nothing. Each token is a bracket, the quote mark or a word, and is
known by its text. Laid out with any separators, the tokens of a text give a text with the same
tokens, and so with the same values or the same error. -/
theorem tokens_keep_in_any_layout (text : List Char) :
    (∀ r, Scans 0 text r ↔ r = .ok ((tokenize text).map Token.chars)) ∧
    (∀ t ∈ tokenize text, IsTokenText t.chars ∧ Token.ofChars t.chars = t) ∧
    ∀ seps : List (List Char), (∀ s ∈ seps, Separator s) →
      seps.length = (tokenize text).length - 1 →
      tokenize (layOut seps (tokenize text)) = tokenize text ∧
        readAll (layOut seps (tokenize text)) = readAll text := by
  refine ⟨fun r => scans_iff, fun t ht => ⟨isTokenText_of_mem ht, ofChars_chars_of_mem ht⟩, ?_⟩
  intro seps hseps hlen
  have h := tokenize_layOut (fun t ht => ht) hseps hlen
  exact ⟨h, by rw [readAll, readAll, h]⟩

/-- A comment ends the atom before it, and a line end and a comment of one's own do for a blank. -/
theorem tokens_keep_in_any_layout_commented :
    Separator ";(\n".toList ∧ Separator "\t".toList ∧
    tokenize "[a;]\n'b".toList = [.opening .square, .atom ['a'], .quote, .atom ['b']] ∧
    tokenize "[;(\na\t';(\nb".toList = tokenize "[a;]\n'b".toList := by
  have hc : Separator ";(\n".toList := @Separator.comment ['('] (by decide)
  have hb : Separator "\t".toList := .blank (by decide)
  have ht : tokenize "[a;]\n'b".toList = [.opening .square, .atom ['a'], .quote, .atom ['b']] := by
    decide +kernel
  have hseps : ∀ s ∈ [";(\n".toList, "\t".toList, ";(\n".toList], Separator s := by
    simp only [List.mem_cons, List.not_mem_nil, or_false]
    rintro s (rfl | rfl | rfl)
    exacts [hc, hb, hc]
  have h := ((tokens_keep_in_any_layout "[a;]\n'b".toList).2.2 _ hseps (by rw [ht]; rfl)).1
  rw [ht] at h
  exact ⟨hc, hb, ht, by rw [ht]; exact h⟩

end PassCheck.Sexp
