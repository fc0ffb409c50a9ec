/-
Reading a text that goes on. The tokens of two texts with a line end between them are those of the
first followed by those of the second. So a text that can be read leaves what follows to be read by
itself; a text that ends too early can be completed; and any other error stays, whatever follows.

Reading tokens within frames either ends among them, in the same way whatever follows, or arrives at
their end with frames still open, within which the reading of what follows goes on. The frames that
are open tell the tokens that complete them.
-/
import PassCheck.Proofs.Sexp.Grammar
import PassCheck.Proofs.Sexp.Tokens

namespace PassCheck.Sexp

/-! ## Tokens across a line end -/

section

variable {α : Type} {p : α → Bool} {c : α}

theorem takeWhile_append_stop (h : p c = false) (l r : List α) :
    (l ++ c :: r).takeWhile p = l.takeWhile p := by
  induction l with
  | nil => simp [h]
  | cons x l ih => by_cases hx : p x = true <;> simp [hx, ih]

theorem dropWhile_append_stop (h : p c = false) (l r : List α) :
    (l ++ c :: r).dropWhile p = l.dropWhile p ++ c :: r := by
  induction l with
  | nil => simp [h]
  | cons x l ih => by_cases hx : p x = true <;> simp [hx, ih]

end

/-- No token reaches over a line end, and it closes a comment. -/
theorem tokenize_append_newline (a b : List Char) :
    tokenize (a ++ '\n' :: b) = tokenize a ++ tokenize b := by
  induction a using tokenize.induct with
  | case1 =>
    rw [List.nil_append, tokenize_blank (by decide), tokenize_nil, List.nil_append]
  | case2 c a hb ih => rw [List.cons_append, tokenize_blank hb, tokenize_blank hb, ih]
  | case3 c a hb hc ih =>
    cases eq_of_beq hc
    rw [List.cons_append, tokenize_comment, tokenize_comment, dropWhile_append_stop (by decide), ih]
  | case4 c a hb hc t ht ih =>
    rw [List.cons_append, tokenize_punctuation ht, tokenize_punctuation ht, ih, List.cons_append]
  | case5 c a hb hc hp ih =>
    have ha : isAtomChar c = true := isAtomChar_iff.2 ⟨by simpa using hb, by simpa using hc, hp⟩
    rw [List.cons_append, tokenize_atom ha, tokenize_atom ha, takeWhile_append_stop (by decide),
      dropWhile_append_stop (by decide), ih, List.cons_append]

/-! ## Errors at the end and errors that stay -/

/-- The text ended where something had to follow. -/
inductive ReadError.AtEnd : ReadError → Prop
  | unexpectedEnd : AtEnd .unexpectedEnd
  | missing (b : Bracket) : AtEnd (.missing b)

/-- Something in the text is wrong, whatever follows. -/
inductive ReadError.Lasting : ReadError → Prop
  | mismatch (expected found : Bracket) : Lasting (.mismatch expected found)
  | unbalanced (b : Bracket) : Lasting (.unbalanced b)
  | longInteger (digits : Nat) : Lasting (.longInteger digits)

theorem ReadError.AtEnd.not_lasting {e : ReadError} (h : e.AtEnd) : ¬ e.Lasting := by
  cases h <;> exact nofun

theorem atEnd_endError (frames : List Frame) : (endError frames).AtEnd := by
  unfold endError
  split
  · exact .missing _
  · exact .unexpectedEnd

theorem lasting_of_atomValue {cs : List Char} {e : ReadError} (h : atomValue cs = .error e) :
    e.Lasting := by
  unfold atomValue at h
  split at h
  · cases h
  · split at h
    · cases h
    · split at h
      · split at h
        · cases h
        · cases h; exact .longInteger _
      · cases h

/-! ## Reading on within frames -/

/-- What becomes of tokens that are read within frames when more tokens follow: frames stay open, a
value is finished, or reading fails. -/
inductive Continues (ts : List Token) (frames : List Frame) : Prop
  | opened (inner : List Frame) (h : ∀ us, readWithin (ts ++ us) frames = readWithin us inner)
  | value (d : Datum) (rest : List Token)
    (h : ∀ us, readWithin (ts ++ us) frames = .ok (d, rest ++ us))
  | fails (e : ReadError) (he : e.Lasting) (h : ∀ us, readWithin (ts ++ us) frames = .error e)

/-- A token in front that only leads to other frames. -/
theorem Continues.cons {t : Token} {ts : List Token} {frames frames' : List Frame}
    (h : Continues ts frames') (ht : ∀ us, readWithin (t :: us) frames = readWithin us frames') :
    Continues (t :: ts) frames := by
  cases h with
  | opened inner h => exact .opened inner fun us => (ht _).trans (h us)
  | value d rest h => exact .value d rest fun us => (ht _).trans (h us)
  | fails e he h => exact .fails e he fun us => (ht _).trans (h us)

/-- A token in front that finishes a value. -/
theorem Continues.resume {t : Token} {ts : List Token} {frames outer : List Frame} {v : Datum}
    (ih : ∀ frames, Continues ts frames)
    (ht : ∀ us, readWithin (t :: us) frames = resume v outer us) : Continues (t :: ts) frames := by
  unfold Sexp.resume at ht
  split at ht
  · rename_i d _; exact .value d ts fun us => ht _
  · exact (ih _).cons ht

theorem continues (ts : List Token) : ∀ frames, Continues ts frames := by
  induction ts with
  | nil => exact fun frames => .opened frames fun us => rfl
  | cons t ts ih =>
    intro frames
    cases t with
    | opening b => exact (ih _).cons fun us => readWithin_opening b us frames
    | quote => exact (ih _).cons fun us => readWithin_quote us frames
    | closing b =>
      rcases frames with _ | ⟨⟨b', items⟩ | _, frames⟩
      · refine .fails _ (.unbalanced b) fun us => ?_
        rw [List.cons_append, readWithin]
        intro b' items frames' h; cases h
      · by_cases hb : b = b'
        · subst hb
          exact .resume ih fun us => readWithin_closing b us items frames
        · refine .fails _ (.mismatch b' b) fun us => ?_
          rw [List.cons_append, readWithin, if_neg hb]
      · refine .fails _ (.unbalanced b) fun us => ?_
        rw [List.cons_append, readWithin]
        intro b' items frames' h; cases h
    | atom cs =>
      cases ha : atomValue cs with
      | error e =>
        refine .fails e (lasting_of_atomValue ha) fun us => ?_
        rw [List.cons_append, readWithin, ha]
      | ok v => exact .resume ih fun us => readWithin_atom ha us frames

/-! ## Completing what is open -/

/-- The brackets that close frames. -/
def closers : List Frame → List Token
  | [] => []
  | .quote :: frames => closers frames
  | .group b _ :: frames => .closing b :: closers frames

/-- Tokens that complete frames: where a value must follow, any value does. -/
def completion : List Frame → List Token
  | .group b items :: frames => closers (.group b items :: frames)
  | frames => .atom ['x'] :: closers frames

theorem resume_closers (frames : List Frame) :
    ∀ v, ∃ d, resume v frames (closers frames) = .ok (d, []) := by
  induction frames with
  | nil => exact fun v => ⟨v, rfl⟩
  | cons f frames ih =>
    intro v
    cases f with
    | quote => exact ih (quoteForm v)
    | group b items =>
      obtain ⟨d, hd⟩ := ih (.tuple (v :: items).reverse)
      exact ⟨d, by rw [resume_group, closers, readWithin_closing, hd]⟩

theorem readWithin_completion (frames : List Frame) :
    ∃ d, readWithin (completion frames) frames = .ok (d, []) := by
  have hx : atomValue ['x'] = .ok (.str "x") := rfl
  unfold completion
  split
  · rename_i b items frames
    obtain ⟨d, hd⟩ := resume_closers frames (.tuple items.reverse)
    exact ⟨d, by rw [closers, readWithin_closing, hd]⟩
  · obtain ⟨d, hd⟩ := resume_closers frames (.str "x")
    exact ⟨d, by rw [readWithin_atom hx, hd]⟩

theorem closers_text (frames : List Frame) :
    EndsAtom ((closers frames).flatMap Token.chars) ∧
      tokenize ((closers frames).flatMap Token.chars) = closers frames := by
  induction frames with
  | nil => exact ⟨endsAtom_nil, tokenize_nil⟩
  | cons f frames ih =>
    cases f with
    | quote => exact ih
    | group b items =>
      have hp : Token.punctuation? b.closing = some (.closing b) := by cases b <;> rfl
      have hc : isAtomChar b.closing = false := by cases b <;> decide
      refine ⟨endsAtom_cons hc, ?_⟩
      rw [closers, List.flatMap_cons, Token.chars, List.singleton_append, tokenize_punctuation hp, ih.2]

/-- The tokens that complete frames are the tokens of a text. -/
theorem tokenize_completion (frames : List Frame) :
    tokenize ((completion frames).flatMap Token.chars) = completion frames := by
  unfold completion
  split
  · exact (closers_text _).2
  · obtain ⟨he, ht⟩ := closers_text frames
    have hx : ∀ c ∈ ['x'], isAtomChar c = true := List.forall_mem_singleton.2 (by decide)
    rw [List.flatMap_cons, Token.chars, tokenize_atom_append (by simp) hx he, ht]

/-! ## Whole texts -/

/-- What becomes of all tokens of a text when more tokens follow. -/
inductive ContinuesAll (ts : List Token) : Prop
  | all (ds : List Datum) (h : ∀ us, readTokens (ts ++ us) = (readTokens us).map (ds ++ ·))
  | opened (inner : List Frame) (he : readTokens ts = .error (endError inner))
    (h : ∀ us, (∃ d, readWithin us inner = .ok (d, [])) → ∃ ds, readTokens (ts ++ us) = .ok ds)
  | fails (e : ReadError) (he : e.Lasting) (h : ∀ us, readTokens (ts ++ us) = .error e)

theorem continuesAll (ts : List Token) : ContinuesAll ts := by
  induction hn : ts.length using Nat.strongRecOn generalizing ts with
  | ind n ih =>
    cases ts with
    | nil => exact .all [] fun us => by rw [List.nil_append]; cases readTokens us <;> rfl
    | cons t ts =>
      cases continues (t :: ts) [] with
      | opened inner h =>
        refine .opened inner ?_ fun us ⟨d, hd⟩ => ⟨[d], ?_⟩
        · refine readTokens_of_error (by simp) ?_
          rw [readOne, ← List.append_nil (t :: ts), h, readWithin]
        · rw [readTokens_of_readOne ((h us).trans hd), readTokens]; rfl
      | fails e he h =>
        exact .fails e he fun us => readTokens_of_error (by simp) (h us)
      | value d rest h =>
        have hone : readOne (t :: ts) = .ok (d, rest) := by
          simpa [readOne] using h []
        have hlt := length_lt_of_readWithin hone
        have hstep : ∀ us, readTokens (t :: ts ++ us) = (readTokens (rest ++ us)).map (d :: ·) :=
          fun us => readTokens_of_readOne (h us)
        cases ih rest.length (by omega) rest rfl with
        | all ds h =>
          refine .all (d :: ds) fun us => ?_
          rw [hstep, h]
          cases readTokens us <;> rfl
        | opened inner he h =>
          refine .opened inner ?_ fun us hus => ?_
          · have := hstep []
            rw [List.append_nil, List.append_nil] at this
            rw [this, he]; rfl
          · obtain ⟨ds, hds⟩ := h us hus
            exact ⟨d :: ds, by rw [hstep, hds]; rfl⟩
        | fails e he h =>
          refine .fails e he fun us => ?_
          rw [hstep, h]; rfl

/-- A text is read, and what follows it is read by itself. -/
def ReadsOn (a : List Char) : Prop :=
  ∃ xs, readAll a = .ok xs ∧ ∀ b, readAll (a ++ '\n' :: b) = (readAll b).map (xs ++ ·)

/-- A text ends too early, and something completes it. -/
def CanBeCompleted (a : List Char) : Prop :=
  ∃ e, readAll a = .error e ∧ e.AtEnd ∧ ∃ b ys, readAll (a ++ '\n' :: b) = .ok ys

/-- A text is wrong, and it stays wrong in the same way whatever follows. -/
def StaysWrong (a : List Char) : Prop :=
  ∃ e, readAll a = .error e ∧ e.Lasting ∧ ∀ b, readAll (a ++ '\n' :: b) = .error e

/-- Every text is of exactly one of the three kinds. -/
theorem readAll_append_trichotomy (a : List Char) :
    (ReadsOn a ∧ ¬ CanBeCompleted a ∧ ¬ StaysWrong a) ∨
    (¬ ReadsOn a ∧ CanBeCompleted a ∧ ¬ StaysWrong a) ∨
    (¬ ReadsOn a ∧ ¬ CanBeCompleted a ∧ StaysWrong a) := by
  have happ : ∀ b, readAll (a ++ '\n' :: b) = readTokens (tokenize a ++ tokenize b) :=
    fun b => by rw [readAll, tokenize_append_newline]
  -- the kinds exclude each other already by what becomes of the text alone
  have hok : ReadsOn a → ¬ CanBeCompleted a ∧ ¬ StaysWrong a := by
    rintro ⟨xs, h, -⟩
    constructor
    · rintro ⟨e, h', -⟩; rw [h] at h'; cases h'
    · rintro ⟨e, h', -⟩; rw [h] at h'; cases h'
  have herr : CanBeCompleted a → ¬ StaysWrong a := by
    rintro ⟨e, h, he, -⟩ ⟨e', h', he', -⟩
    rw [h] at h'
    cases h'
    exact he.not_lasting he'
  cases continuesAll (tokenize a) with
  | all ds h =>
    have hread : ReadsOn a := by
      refine ⟨ds, ?_, fun b => (happ b).trans (h _)⟩
      rw [readAll, ← List.append_nil (tokenize a), h, readTokens]
      exact congrArg _ (List.append_nil ds)
    exact .inl ⟨hread, hok hread⟩
  | opened inner he h =>
    have hcomplete : CanBeCompleted a := by
      obtain ⟨ds, hds⟩ := h (completion inner) (readWithin_completion inner)
      refine ⟨_, he, atEnd_endError inner, (completion inner).flatMap Token.chars, ds, ?_⟩
      rw [happ, tokenize_completion, hds]
    exact .inr (.inl ⟨fun hr => (hok hr).1 hcomplete, hcomplete, herr hcomplete⟩)
  | fails e he h =>
    have hwrong : StaysWrong a := by
      refine ⟨e, ?_, he, fun b => (happ b).trans (h _)⟩
      rw [readAll, ← List.append_nil (tokenize a), h]
    exact .inr (.inr ⟨fun hr => (hok hr).2 hwrong, fun hc => herr hc hwrong, hwrong⟩)

end PassCheck.Sexp
