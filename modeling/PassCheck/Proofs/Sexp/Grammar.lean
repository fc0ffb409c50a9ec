/-
The grammar of values over tokens, and the reader against it. A value is an atom, a quote mark
before a value, or values between two brackets of one kind; the reader accepts exactly the tokens
that derive a value, in one way only, and what it refuses for any reason but an integer of too many
digits is malformed.

The reader keeps open brackets and quote marks on a stack of frames. `Closes` says what a stack still
asks of the tokens once the value inside it is known; a successful read of tokens within a stack is
then a derivation followed by such a closing.
-/
import PassCheck.Proofs.Number.Decimal
import PassCheck.Failure

namespace PassCheck.Sexp

/-! ## The grammar -/

mutual

/-- A run of tokens derives a value. -/
inductive Derives : List Token → Datum → Prop
  | atom {cs : List Char} {v : Datum} : atomValue cs = .ok v → Derives [.atom cs] v
  | quote {ts : List Token} {d : Datum} : Derives ts d → Derives (.quote :: ts) (quoteForm d)
  | group {ts : List Token} {ds : List Datum} (b : Bracket) :
    DerivesAll ts ds → Derives (.opening b :: ts ++ [.closing b]) (.tuple ds)

/-- A run of tokens splits into derivations of values, one after another. -/
inductive DerivesAll : List Token → List Datum → Prop
  | nil : DerivesAll [] []
  | cons {ts us : List Token} {d : Datum} {ds : List Datum} :
    Derives ts d → DerivesAll us ds → DerivesAll (ts ++ us) (d :: ds)

end

/-- Induction on both kinds of derivations at once. -/
theorem derives_ind {P : List Token → Datum → Prop} {Q : List Token → List Datum → Prop}
    (atom : ∀ cs v, atomValue cs = .ok v → P [.atom cs] v)
    (quote : ∀ ts d, P ts d → P (.quote :: ts) (quoteForm d))
    (group : ∀ b ts ds, Q ts ds → P (.opening b :: ts ++ [.closing b]) (.tuple ds))
    (nil : Q [] []) (cons : ∀ ts us d ds, P ts d → Q us ds → Q (ts ++ us) (d :: ds)) :
    (∀ ts d, Derives ts d → P ts d) ∧ ∀ ts ds, DerivesAll ts ds → Q ts ds := by
  have step : ∀ {ts d} (h : Derives ts d), P ts d := @Derives.rec (fun ts d _ => P ts d)
    (fun ts ds _ => Q ts ds) (atom _ _) (fun _ h => quote _ _ h) (fun b _ h => group b _ _ h) nil
    (fun _ _ h hs => cons _ _ _ _ h hs)
  have run : ∀ {ts ds} (h : DerivesAll ts ds), Q ts ds := @DerivesAll.rec (fun ts d _ => P ts d)
    (fun ts ds _ => Q ts ds) (atom _ _) (fun _ h => quote _ _ h) (fun b _ h => group b _ _ h) nil
    (fun _ _ h hs => cons _ _ _ _ h hs)
  exact ⟨fun _ _ h => step h, fun _ _ h => run h⟩

/-! ## Every derivation is read -/

/-- Reading goes on within the frames once a value inside them is finished. -/
def resume (v : Datum) (frames : List Frame) (ts : List Token) :
    Except ReadError (Datum × List Token) :=
  match plug v frames with
  | .done d => .ok (d, ts)
  | .more frames => readWithin ts frames

theorem resume_nil (v : Datum) (ts : List Token) : resume v [] ts = .ok (v, ts) := rfl

theorem resume_quote (v : Datum) (frames : List Frame) (ts : List Token) :
    resume v (.quote :: frames) ts = resume (quoteForm v) frames ts := rfl

theorem resume_group (v : Datum) (b : Bracket) (items : List Datum) (frames : List Frame)
    (ts : List Token) :
    resume v (.group b items :: frames) ts = readWithin ts (.group b (v :: items) :: frames) := rfl

theorem readWithin_opening (b : Bracket) (ts : List Token) (frames : List Frame) :
    readWithin (.opening b :: ts) frames = readWithin ts (.group b [] :: frames) := by
  rw [readWithin]

theorem readWithin_quote (ts : List Token) (frames : List Frame) :
    readWithin (.quote :: ts) frames = readWithin ts (.quote :: frames) := by
  rw [readWithin]

theorem readWithin_closing (b : Bracket) (ts : List Token) (items : List Datum) (frames : List Frame) :
    readWithin (.closing b :: ts) (.group b items :: frames) =
      resume (.tuple items.reverse) frames ts := by
  rw [readWithin, if_pos rfl]; rfl

theorem readWithin_atom {cs : List Char} {v : Datum} (h : atomValue cs = .ok v) (ts : List Token)
    (frames : List Frame) : readWithin (.atom cs :: ts) frames = resume v frames ts := by
  rw [readWithin, h]; rfl

/-- The tokens of a derivation are read as its value, whatever is open and whatever follows. -/
theorem readWithin_derives :
    (∀ ts d, Derives ts d → ∀ frames rest, readWithin (ts ++ rest) frames = resume d frames rest) ∧
    ∀ ts ds, DerivesAll ts ds → ∀ b items frames rest,
      readWithin (ts ++ rest) (.group b items :: frames) =
        readWithin rest (.group b (ds.reverse ++ items) :: frames) := by
  refine derives_ind ?_ ?_ ?_ ?_ ?_
  · intro cs v h frames rest
    exact readWithin_atom h rest frames
  · intro ts d ih frames rest
    rw [List.cons_append, readWithin_quote, ih, resume_quote]
  · intro b ts ds ih frames rest
    rw [List.append_assoc, List.cons_append, List.cons_append, readWithin_opening, ih,
      List.nil_append, List.append_nil, readWithin_closing, List.reverse_reverse]
  · intro b items frames rest
    rfl
  · intro ts us d ds ih ihs b items frames rest
    rw [List.append_assoc, ih, resume_group, ihs, List.reverse_cons, List.append_assoc]
    rfl

theorem readOne_of_derives {ts : List Token} {d : Datum} (h : Derives ts d) (rest : List Token) :
    readOne (ts ++ rest) = .ok (d, rest) := by
  rw [readOne, readWithin_derives.1 ts d h, resume_nil]

/-! ## Whatever is read has a derivation -/

/-- The tokens that are left to close the frames around a value, and the whole value they make. -/
def Closes : List Frame → Datum → List Token → Datum → Prop
  | [], v, us, d => us = [] ∧ v = d
  | .quote :: frames, v, us, d => Closes frames (quoteForm v) us d
  | .group b items :: frames, v, us, d => ∃ ts ds us', us = ts ++ .closing b :: us' ∧
    DerivesAll ts ds ∧ Closes frames (.tuple ((v :: items).reverse ++ ds)) us' d

/-- The tokens that complete a stack of frames: a value and its closing, or, when a bracket is
innermost, its end. -/
inductive Completes (frames : List Frame) : List Token → Datum → Prop
  | value {ts us : List Token} {v d : Datum} :
    Derives ts v → Closes frames v us d → Completes frames (ts ++ us) d
  | close {b : Bracket} {items : List Datum} {outer : List Frame} {us : List Token} {d : Datum} :
    frames = .group b items :: outer → Closes outer (.tuple items.reverse) us d →
    Completes frames (.closing b :: us) d

theorem Completes.of_opening {b : Bracket} {frames : List Frame} {ts : List Token} {d : Datum}
    (h : Completes (.group b [] :: frames) ts d) : Completes frames (.opening b :: ts) d := by
  cases h with
  | @value ts us v d hv hc =>
    obtain ⟨us, ds, us', rfl, hds, hc⟩ := hc
    have := Completes.value (.group b (.cons hv hds)) hc
    simpa using this
  | close he hc =>
    cases he
    exact .value (.group b .nil) hc

theorem Completes.of_quote {frames : List Frame} {ts : List Token} {d : Datum}
    (h : Completes (.quote :: frames) ts d) : Completes frames (.quote :: ts) d := by
  cases h with
  | value hv hc => exact .value (.quote hv) hc
  | close he _ => cases he

theorem Completes.closes_group {b : Bracket} {v : Datum} {items : List Datum} {frames : List Frame}
    {ts : List Token} {d : Datum} (h : Completes (.group b (v :: items) :: frames) ts d) :
    Closes (.group b items :: frames) v ts d := by
  cases h with
  | @value ts us x d hv hc =>
    obtain ⟨us, ds, us', rfl, hds, hc⟩ := hc
    refine ⟨ts ++ us, x :: ds, us', by simp, .cons hv hds, ?_⟩
    simpa using hc
  | close he hc =>
    cases he
    exact ⟨[], [], _, rfl, .nil, by simpa using hc⟩

/-- What a finished value leads to closes the frames around it, if the rest of the reading does. -/
theorem closes_of_resume {ts rest : List Token} {d : Datum}
    (ih : ∀ frames, readWithin ts frames = .ok (d, rest) →
      ∃ used, ts = used ++ rest ∧ Completes frames used d) :
    ∀ {frames : List Frame} {v : Datum}, resume v frames ts = .ok (d, rest) →
      ∃ used, ts = used ++ rest ∧ Closes frames v used d := by
  intro frames
  induction frames with
  | nil =>
    intro v h
    rw [resume_nil] at h
    cases h
    exact ⟨[], rfl, rfl, rfl⟩
  | cons f frames ihf =>
    intro v h
    cases f with
    | quote =>
      rw [resume_quote] at h
      obtain ⟨used, hts, hc⟩ := ihf h
      exact ⟨used, hts, hc⟩
    | group b items =>
      rw [resume_group] at h
      obtain ⟨used, hts, hc⟩ := ih _ h
      exact ⟨used, hts, hc.closes_group⟩

/-- What is read within frames is a run of tokens that completes them. -/
theorem completes_of_readWithin {ts rest : List Token} {d : Datum} : ∀ {frames : List Frame},
    readWithin ts frames = .ok (d, rest) → ∃ used, ts = used ++ rest ∧ Completes frames used d := by
  induction ts with
  | nil => intro frames h; simp [readWithin] at h
  | cons t ts ih =>
    intro frames h
    cases t with
    | opening b =>
      rw [readWithin_opening] at h
      obtain ⟨used, rfl, hc⟩ := ih h
      exact ⟨.opening b :: used, rfl, hc.of_opening⟩
    | quote =>
      rw [readWithin_quote] at h
      obtain ⟨used, rfl, hc⟩ := ih h
      exact ⟨.quote :: used, rfl, hc.of_quote⟩
    | closing b =>
      rcases frames with _ | ⟨⟨b', items⟩ | _, frames⟩
      · simp [readWithin] at h
      · by_cases hb : b = b'
        · subst hb
          rw [readWithin_closing] at h
          obtain ⟨used, rfl, hc⟩ := closes_of_resume (fun _ => ih) h
          exact ⟨.closing b :: used, rfl, .close rfl hc⟩
        · rw [readWithin, if_neg hb] at h; cases h
      · simp [readWithin] at h
    | atom cs =>
      cases ha : atomValue cs with
      | error e => rw [readWithin, ha] at h; cases h
      | ok v =>
        rw [readWithin_atom ha] at h
        obtain ⟨used, rfl, hc⟩ := closes_of_resume (fun _ => ih) h
        exact ⟨.atom cs :: used, rfl, .value (.atom ha) hc⟩

theorem derives_of_readOne {ts rest : List Token} {d : Datum} (h : readOne ts = .ok (d, rest)) :
    ∃ used, ts = used ++ rest ∧ Derives used d := by
  obtain ⟨used, rfl, hc⟩ := completes_of_readWithin h
  cases hc with
  | @value ts us v d hv hc =>
    obtain ⟨rfl, rfl⟩ := hc
    exact ⟨ts, by simp, hv⟩
  | close he _ => cases he

/-- Reading one value takes exactly the tokens of a derivation. -/
theorem readOne_eq_ok_iff {ts rest : List Token} {d : Datum} :
    readOne ts = .ok (d, rest) ↔ ∃ used, ts = used ++ rest ∧ Derives used d :=
  ⟨derives_of_readOne, fun ⟨_, hts, h⟩ => hts ▸ readOne_of_derives h rest⟩

/-! ## Positions -/

theorem Derives.ne_nil {ts : List Token} {d : Datum} (h : Derives ts d) : ts ≠ [] := by
  cases h <;> simp

/-- Reading at a position takes exactly a derivation that starts there. -/
theorem readAt_eq_ok_iff {ts : List Token} {pos next : Nat} {d : Datum} :
    readAt ts pos = .ok (d, next) ↔ pos < next ∧ next ≤ ts.length ∧ Derives (ts.extract pos next) d := by
  unfold readAt
  constructor
  · intro h
    split at h
    · cases h
    · rename_i d rest hr
      cases h
      obtain ⟨used, hts, hd⟩ := readOne_eq_ok_iff.1 hr
      have hlen : used.length + rest.length = ts.length - pos := by
        rw [← List.length_append, ← hts, List.length_drop]
      have hpos := List.length_pos_of_ne_nil hd.ne_nil
      refine ⟨by omega, by omega, ?_⟩
      rw [List.extract_eq_take_drop, hts, show ts.length - rest.length - pos = used.length by omega,
        List.take_left]
      exact hd
  · rintro ⟨h1, h2, hd⟩
    rw [List.extract_eq_take_drop] at hd
    have hr := readOne_eq_ok_iff.2 ⟨_, (List.take_append_drop (next - pos) (ts.drop pos)).symm, hd⟩
    rw [hr]
    have hlen : ts.length - ((ts.drop pos).drop (next - pos)).length = next := by
      rw [List.length_drop, List.length_drop]; omega
    simp only [hlen]

/-! ## Whole texts -/

theorem readTokens_of_readOne {ts rest : List Token} {d : Datum} (h : readOne ts = .ok (d, rest)) :
    readTokens ts = (readTokens rest).map (d :: ·) := by
  cases ts with
  | nil => cases h
  | cons t ts =>
    rw [readTokens]
    split
    · rename_i he; rw [h] at he; cases he
    · rename_i hr
      rw [h] at hr
      cases hr
      cases readTokens rest <;> rfl

theorem readTokens_of_error {ts : List Token} {e : ReadError} (hne : ts ≠ [])
    (h : readOne ts = .error e) : readTokens ts = .error e := by
  cases ts with
  | nil => exact absurd rfl hne
  | cons t ts =>
    rw [readTokens]
    split
    · rename_i he; rw [h] at he; cases he; rfl
    · rename_i hr; rw [h] at hr; cases hr

/-- Reading all tokens gives exactly the values that they split into. -/
theorem readTokens_eq_ok_iff {ts : List Token} {ds : List Datum} :
    readTokens ts = .ok ds ↔ DerivesAll ts ds := by
  constructor
  · intro h
    induction hn : ts.length using Nat.strongRecOn generalizing ts ds with
    | ind n ih =>
      cases ts with
      | nil => rw [readTokens] at h; cases h; exact .nil
      | cons t ts =>
        cases hr : readOne (t :: ts) with
        | error e => rw [readTokens_of_error (by simp) hr] at h; cases h
        | ok r =>
          obtain ⟨d, rest⟩ := r
          rw [readTokens_of_readOne hr] at h
          cases hds : readTokens rest with
          | error e => rw [hds] at h; cases h
          | ok rs =>
            rw [hds] at h
            cases h
            have hlt := length_lt_of_readWithin hr
            obtain ⟨used, hts, hd⟩ := derives_of_readOne hr
            rw [hts]
            exact .cons hd (ih rest.length (by omega) hds rfl)
  · intro h
    induction ds generalizing ts with
    | nil => cases h; rw [readTokens]
    | cons d ds ih =>
      cases h with
      | cons hd hds => rw [readTokens_of_readOne (readOne_of_derives hd _), ih hds]; rfl

/-! ## What is refused -/

/-- An atom that is no numeral of too many digits. -/
def ShortNumeral (cs : List Char) : Prop :=
  Integer.isPlain cs = true → (Integer.splitSign cs).2.length ≤ Integer.digitLimit

theorem atomValue_of_short {cs : List Char} (h : ShortNumeral cs) : ∃ v, atomValue cs = .ok v := by
  unfold atomValue
  split
  · exact ⟨_, rfl⟩
  · split
    · exact ⟨_, rfl⟩
    · split
      · rename_i hp
        cases hn : Integer.ofPlain? cs with
        | none => exact absurd ((Integer.ofPlain?_eq_none_iff hp).1 hn) (Nat.not_lt.2 (h hp))
        | some n => exact ⟨_, rfl⟩
      · exact ⟨_, rfl⟩

/-- No numeral among the tokens has too many digits. -/
def ShortNumerals (ts : List Token) : Prop := ∀ cs, Token.atom cs ∈ ts → ShortNumeral cs

/-- Without a numeral of too many digits the reader only refuses malformed tokens. -/
theorem readWithin_error {ts : List Token} {e : ReadError} (hs : ShortNumerals ts) :
    ∀ {frames : List Frame}, readWithin ts frames = .error e → Failure.ofRead e = .unreadable e := by
  induction ts with
  | nil =>
    intro frames h
    rw [readWithin] at h
    cases h
    unfold endError
    split <;> rfl
  | cons t ts ih =>
    have ih := @ih fun cs hcs => hs cs (List.mem_cons_of_mem _ hcs)
    -- after a finished value either all is done or the reading of the rest has failed
    have hres : ∀ (v : Datum) (frames : List Frame), resume v frames ts = .error e →
        Failure.ofRead e = .unreadable e := by
      intro v frames h
      unfold resume at h
      split at h
      · cases h
      · exact ih h
    intro frames h
    cases t with
    | opening b => rw [readWithin_opening] at h; exact ih h
    | quote => rw [readWithin_quote] at h; exact ih h
    | closing b =>
      rcases frames with _ | ⟨⟨b', items⟩ | _, frames⟩
      · simp only [readWithin] at h; cases h; rfl
      · by_cases hb : b = b'
        · subst hb; rw [readWithin_closing] at h; exact hres _ _ h
        · rw [readWithin, if_neg hb] at h; cases h; rfl
      · simp only [readWithin] at h; cases h; rfl
    | atom cs =>
      obtain ⟨v, hv⟩ := atomValue_of_short (hs cs List.mem_cons_self)
      rw [readWithin_atom hv] at h
      exact hres _ _ h

theorem readAt_error {ts : List Token} {pos : Nat} {e : ReadError} (hs : ShortNumerals ts)
    (h : readAt ts pos = .error e) : Failure.ofRead e = .unreadable e := by
  unfold readAt at h
  split at h
  · rename_i hr
    cases h
    exact readWithin_error (fun cs hcs => hs cs (List.mem_of_mem_drop hcs)) hr
  · cases h

theorem readTokens_error {ts : List Token} {e : ReadError} (hs : ShortNumerals ts)
    (h : readTokens ts = .error e) : Failure.ofRead e = .unreadable e := by
  induction hn : ts.length using Nat.strongRecOn generalizing ts with
  | ind n ih =>
    cases ts with
    | nil => rw [readTokens] at h; cases h
    | cons t ts =>
      cases hr : readOne (t :: ts) with
      | error e' =>
        rw [readTokens_of_error (by simp) hr] at h
        cases h
        exact readWithin_error hs hr
      | ok r =>
        obtain ⟨d, rest⟩ := r
        obtain ⟨used, hts, hd⟩ := derives_of_readOne hr
        rw [readTokens_of_readOne hr] at h
        cases hds : readTokens rest with
        | ok rs => rw [hds] at h; cases h
        | error e' =>
          rw [hds] at h
          cases h
          have hlt := length_lt_of_readWithin hr
          exact ih rest.length (by omega) (fun cs hcs => hs cs (by rw [hts]; simp [hcs])) hds rfl

/-- The reader accepts exactly its grammar. At a position it reads the one value that is derived by
the tokens from there to the position after it, and otherwise fails because the tokens are
malformed; a whole text is read as the values that its tokens split into, and otherwise fails in the
same way. -/
theorem readAt_readAll_iff_derives :
    (∀ (ts : List Token) (pos : Nat), ShortNumerals ts →
      (∀ d next, readAt ts pos = .ok (d, next) ↔
        pos < next ∧ next ≤ ts.length ∧ Derives (ts.extract pos next) d) ∧
      (∀ d next d' next', pos < next ∧ next ≤ ts.length ∧ Derives (ts.extract pos next) d →
        pos < next' ∧ next' ≤ ts.length ∧ Derives (ts.extract pos next') d' →
        d = d' ∧ next = next') ∧
      ((¬ ∃ d next, pos < next ∧ next ≤ ts.length ∧ Derives (ts.extract pos next) d) →
        ∃ e, readAt ts pos = .error e ∧ Failure.ofRead e = .unreadable e)) ∧
    ∀ text : List Char, ShortNumerals (tokenize text) →
      (∀ ds, readAll text = .ok ds ↔ DerivesAll (tokenize text) ds) ∧
      ((¬ ∃ ds, DerivesAll (tokenize text) ds) →
        ∃ e, readAll text = .error e ∧ Failure.ofRead e = .unreadable e) := by
  refine ⟨fun ts pos hs => ⟨fun d next => readAt_eq_ok_iff, ?_, ?_⟩, fun text hs => ⟨fun ds => ?_, ?_⟩⟩
  · intro d next d' next' h h'
    rw [← readAt_eq_ok_iff] at h h'
    rw [h] at h'
    cases h'
    exact ⟨rfl, rfl⟩
  · intro hno
    cases hr : readAt ts pos with
    | error e => exact ⟨e, rfl, readAt_error hs hr⟩
    | ok r => exact absurd ⟨r.1, r.2, readAt_eq_ok_iff.1 hr⟩ hno
  · exact readTokens_eq_ok_iff
  · intro hno
    cases hr : readAll text with
    | error e => exact ⟨e, rfl, readTokens_error hs hr⟩
    | ok ds => exact absurd ⟨ds, readTokens_eq_ok_iff.1 hr⟩ hno

/-- The tokens of `) ( 'x [-7] )`, the first of which closes nothing. -/
def strayThenQuoted : List Token :=
  [.closing .round, .opening .round, .quote, .atom ['x'], .opening .square, .atom ['-', '7'],
    .closing .square, .closing .round]

/-- Nothing is derived at the stray bracket, and behind it one value is, up to the end. -/
theorem readAt_strayThenQuoted : ShortNumerals strayThenQuoted ∧
    (¬ ∃ d next, 0 < next ∧ next ≤ 8 ∧ Derives (strayThenQuoted.extract 0 next) d) ∧
    Derives (strayThenQuoted.extract 1 8)
      (.tuple [quoteForm (.str "x"), .tuple [.int (-7)]]) := by
  have hs : ShortNumerals strayThenQuoted := by
    intro cs hcs
    have : cs = ['x'] ∨ cs = ['-', '7'] := by simpa [strayThenQuoted] using hcs
    rcases this with rfl | rfl <;> exact fun _ => by decide
  refine ⟨hs, ?_, ?_⟩
  · rintro ⟨d, next, h⟩
    have := ((readAt_readAll_iff_derives.1 strayThenQuoted 0 hs).1 d next).2 h
    cases this
  · have hr : readAt strayThenQuoted 1 =
        .ok (.tuple [quoteForm (.str "x"), .tuple [.int (-7)]], 8) := rfl
    exact (((readAt_readAll_iff_derives.1 strayThenQuoted 1 hs).1 _ _).1 hr).2.2

end PassCheck.Sexp
