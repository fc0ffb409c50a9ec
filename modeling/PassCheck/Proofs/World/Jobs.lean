/-
Running jobs one after another. A job that succeeds hands its value and its world to the next one; a
job that fails ends the sequence. On top of these two facts stand the jobs that only write to an
output stream or read the clock: they succeed, and neither the files nor what the clock will show
later is changed by them. Two jobs agree if they do the same up to the wording of their failures.
-/
import PassCheck.Proofs.Datum.Parts
import PassCheck.World.Trace

namespace PassCheck

namespace Job

variable {α β : Type}

theorem bind_of_ok {x : Job α} {f : α → Job β} {w w' : World} {a : α} (h : x w = (.ok a, w')) :
    (x >>= f) w = f a w' := by
  show (ExceptT.bindCont f (x w).1) (x w).2 = _
  rw [h]; rfl

theorem bind_of_error {x : Job α} {f : α → Job β} {w w' : World} {e : Failure}
    (h : x w = (.error e, w')) : (x >>= f) w = (.error e, w') := by
  show (ExceptT.bindCont f (x w).1) (x w).2 = _
  rw [h]; rfl

/-- If two jobs succeed one after the other, both do. -/
theorem exists_of_bind_ok {x : Job α} {f : α → Job β} {w w' : World} {b : β}
    (h : (x >>= f) w = (.ok b, w')) : ∃ a w₁, x w = (.ok a, w₁) ∧ f a w₁ = (.ok b, w') := by
  cases hx : x w with
  | mk r w₁ =>
    cases r with
    | error e => rw [bind_of_error hx] at h; cases h
    | ok a => exact ⟨a, w₁, rfl, by rwa [bind_of_ok hx] at h⟩

/-- Jobs one after another have one result in two worlds if each of them has. -/
theorem bind_fst_congr {x : Job α} {f : α → Job β} {w v : World}
    (h : (x v).1 = (x w).1) (hf : ∀ a v' w', (f a v').1 = (f a w').1) :
    ((x >>= f) v).1 = ((x >>= f) w).1 := by
  rcases hw : x w with ⟨r, w₁⟩
  rcases hv : x v with ⟨r', v₁⟩
  obtain rfl : r' = r := by rw [hw, hv] at h; exact h
  cases r' with
  | error e => rw [bind_of_error hw, bind_of_error hv]
  | ok a => rw [bind_of_ok hw, bind_of_ok hv]; exact hf a v₁ w₁

theorem tryCatch_of_ok {x : Job α} {f : Failure → Job α} {w w' : World} {a : α}
    (h : x w = (.ok a, w')) : tryCatch x f w = (.ok a, w') := by
  show ExceptT.tryCatch x f w = _
  simp only [ExceptT.tryCatch, ExceptT.mk, bind, StateT.bind]
  rw [h]; rfl

theorem tryCatch_of_error {x : Job α} {f : Failure → Job α} {w w' : World} {e : Failure}
    (h : x w = (.error e, w')) : tryCatch x f w = f e w' := by
  show ExceptT.tryCatch x f w = _
  simp only [ExceptT.tryCatch, ExceptT.mk, bind, StateT.bind]
  rw [h]

@[simp] theorem pure_apply (a : α) (w : World) : (pure a : Job α) w = (.ok a, w) := rfl

@[simp] theorem throw_apply (e : Failure) (w : World) : (throw e : Job α) w = (.error e, w) := rfl

@[simp] theorem get_apply (w : World) : (get : Job World) w = (.ok w, w) := rfl

@[simp] theorem modify_apply (f : World → World) (w : World) :
    (modify f : Job PUnit) w = (.ok ⟨⟩, f w) := rfl

@[simp] theorem lift_apply (r : Except Failure α) (w : World) : lift r w = (r, w) := rfl

theorem readClock_apply (w : World) : readClock w =
    (match w.clock.advance.shown with
      | .infinite _ => .error .overflow
      | shown => .ok shown, { w with clock := w.clock.advance }) := by
  rw [readClock, bind_of_ok (modify_apply _ w), bind_of_ok (get_apply _)]
  dsimp only
  cases w.clock.advance.shown <;> rfl

theorem writeText_fst (path text : String) (w : World) :
    (writeText path text w).1 = (w.files.write path text.toUTF8).map fun _ => () := by
  rw [writeText]
  cases w.files.write path text.toUTF8 <;> rfl

theorem written_apply {text? : Option String} {t : String} (h : text? = some t) (w : World) :
    written text? w = (.ok t, w) := by
  rw [h]; rfl

end Job

theorem exists_of_isOk {α : Type} {r : Except Failure α} (h : r.isOk = true) : ∃ a, r = .ok a := by
  cases r with
  | error e => cases h
  | ok a => exact ⟨a, rfl⟩

/-- The message of a failure that only has a message. -/
def plainMessage? {α : Type} : Except Failure α → Option String
  | .error (.plain message) => some message
  | _ => none

theorem eq_of_plainMessage? {α : Type} {r : Except Failure α} {message : String}
    (h : plainMessage? r = some message) : r = .error (.plain message) := by
  unfold plainMessage? at h
  split at h <;> cases h
  rfl

/-- The report of a failure of the checker's own family. -/
def reported? {α : Type} : Except Failure α → Option Report
  | .error (.report r) => some r
  | _ => none

theorem exists_of_reported? {α : Type} {r : Except Failure α} (h : (reported? r).isSome = true) :
    ∃ report, r = .error (.report report) := by
  obtain ⟨report, hr⟩ := Option.isSome_iff_exists.1 h
  unfold reported? at hr
  split at hr <;> cases hr
  exact ⟨report, rfl⟩

/-! ## Jobs without reports -/

/-- A job never fails with a report. -/
def Job.NoReport {α : Type} (job : Job α) : Prop := ∀ w r, (job w).1 ≠ .error (.report r)

namespace Job

variable {α β : Type}

theorem noReport_pure (a : α) : NoReport (pure a : Job α) := nofun

theorem noReport_throw {e : Failure} (h : ∀ r, e ≠ .report r) : NoReport (throw e : Job α) :=
  fun _ r he => h r (Except.error.inj he)

theorem NoReport.bind {x : Job α} {f : α → Job β} (hx : NoReport x) (hf : ∀ a, NoReport (f a)) :
    NoReport (x >>= f) := by
  intro w r
  have h1 := hx w r
  rcases h : x w with ⟨e | a, w1⟩
  · rw [h] at h1
    rw [bind_of_error h]
    rintro ⟨⟩; exact h1 rfl
  · rw [bind_of_ok h]; exact hf a w1 r

theorem noReport_written (text? : Option String) : NoReport (written text?) := by
  intro w r
  cases text? <;> nofun

theorem noReport_readLine : NoReport readLine := by
  intro w r
  rw [readLine, bind_of_ok (get_apply w)]
  split
  · nofun
  · cases w.input.broken <;> nofun

end Job

/-! ## Worlds with given files and a clock that can be read -/

/-- The next `n` readings of a clock can be shown. -/
def Clock.Shows : Nat → Clock → Prop
  | 0, _ => True
  | n + 1, c => (∀ negative, c.advance.shown ≠ .infinite negative) ∧ Shows n c.advance

/-- A world with the given files whose clock can be read `n` times. -/
structure World.Ready (files : Files) (n : Nat) (w : World) : Prop where
  files : w.files = files
  clock : w.clock.Shows n

variable {files : Files} {n : Nat} {w : World}

theorem Job.readClock_ready (h : w.Ready files (n + 1)) :
    ∃ x w', Job.readClock w = (.ok x, w') ∧ w'.Ready files n := by
  refine ⟨w.clock.advance.shown, { w with clock := w.clock.advance }, ?_, h.files, h.clock.2⟩
  rw [readClock_apply]
  have hs := h.clock.1
  cases hx : w.clock.advance.shown with
  | infinite negative => exact absurd hx (hs negative)
  | _ => rfl

theorem Tracer.line_ready (t : Tracer) (text : String) (h : w.Ready files n) :
    ∃ w', t.line text w = (.ok (), w') ∧ w'.Ready files n := by
  rw [line]
  split
  · exact ⟨_, rfl, h.files, h.clock⟩
  · exact ⟨_, rfl, h.files, h.clock⟩

/-- Tracing a value that can be written succeeds. -/
theorem Tracer.trace_ready (t : Tracer) (label : String) {value : Datum}
    (hv : t.enabled = true → value.Writable) (h : w.Ready files n) :
    ∃ w', t.trace (.str label) value w = (.ok (), w') ∧ w'.Ready files n := by
  rw [trace]
  split
  · rename_i he
    obtain ⟨text, ht⟩ := Datum.layout?_of_writable (hv he)
    obtain ⟨w1, h1, hw1⟩ := t.line_ready (label ++ ":") h
    obtain ⟨w2, h2, hw2⟩ := t.line_ready text hw1
    refine ⟨w2, ?_, hw2⟩
    have hl : (Datum.str label).display? = some label := rfl
    rw [Job.bind_of_ok (Job.written_apply hl w), Job.bind_of_ok h1,
      Job.bind_of_ok (Job.written_apply ht w1), h2]
  · exact ⟨w, rfl, h⟩

/-- Tracing changes no file, whether it succeeds or not. -/
theorem Tracer.trace_files (t : Tracer) (label : String) (value : Datum) (w : World) :
    (t.trace (.str label) value w).2.files = w.files := by
  rw [trace]
  split
  · have hw : w.Ready w.files 0 := ⟨rfl, trivial⟩
    have hl : (Datum.str label).display? = some label := rfl
    obtain ⟨w1, h1, hw1⟩ := t.line_ready (label ++ ":") hw
    rw [Job.bind_of_ok (Job.written_apply hl w), Job.bind_of_ok h1]
    cases ht : value.layout? with
    | none => exact hw1.files
    | some text =>
      obtain ⟨w2, h2, hw2⟩ := t.line_ready text hw1
      rw [Job.bind_of_ok (Job.written_apply rfl w1), h2]
      exact hw2.files
  · rfl

theorem softAssert_apply (cond : Datum) (s : String) (w : World) :
    ∃ w', softAssert cond (.str s) w = (.ok cond, w') := by
  unfold softAssert
  cases cond.truthy <;> exact ⟨_, rfl⟩

theorem Tracer.choose_apply (given : Option Tracer) (w : World) :
    Tracer.choose given w = (.ok (given.getD w.tracer), w) := by
  cases given <;> rfl

/-! ## Jobs that agree -/

/-- Failures of one kind. What they say may differ. -/
inductive Failure.SameKind : Failure → Failure → Prop
  | refl (e : Failure) : SameKind e e
  | report {r r' : Report} : r.kind = r'.kind → SameKind (.report r) (.report r')
  | unreadable (e e' : Sexp.ReadError) : SameKind (.unreadable e) (.unreadable e')
  | plain (m m' : String) : SameKind (.plain m) (.plain m')
  | badValue (m m' : Option String) : SameKind (.badValue m) (.badValue m')

theorem Failure.SameKind.not_report {e e' : Failure} (h : e.SameKind e')
    (he : ∀ r, e' ≠ .report r) : ∀ r, e ≠ .report r := by
  rintro r rfl
  cases h with
  | refl => exact he r rfl
  | report => exact he _ rfl

/-- One result, or two failures of one kind. -/
inductive SameOutcome {α : Type} : Except Failure α → Except Failure α → Prop
  | ok (a : α) : SameOutcome (.ok a) (.ok a)
  | error {e e' : Failure} : e.SameKind e' → SameOutcome (.error e) (.error e')

theorem SameOutcome.refl {α : Type} : ∀ r : Except Failure α, SameOutcome r r
  | .ok a => .ok a
  | .error e => .error (.refl e)

theorem SameOutcome.eq_ok {α : Type} {r : Except Failure α} {a : α} (h : SameOutcome r (.ok a)) :
    r = .ok a := by
  cases h; rfl

namespace Job

variable {α β : Type}

/-- Jobs that in every world have the same outcome and lead to the same world. -/
structure Agrees (x y : Job α) : Prop where
  outcome : ∀ w, SameOutcome (x w).1 (y w).1
  world : ∀ w, (x w).2 = (y w).2

theorem Agrees.refl (x : Job α) : Agrees x x := ⟨fun w => .refl (x w).1, fun _ => rfl⟩

theorem Agrees.of_ok {x y : Job α} (h : Agrees x y) {w w' : World} {a : α}
    (hy : y w = (.ok a, w')) : x w = (.ok a, w') := by
  have ho := h.outcome w
  have hw := h.world w
  rw [hy] at ho hw
  exact Prod.ext ho.eq_ok hw

theorem Agrees.of_error {x y : Job α} (h : Agrees x y) {w w' : World} {e : Failure}
    (hy : y w = (.error e, w')) : ∃ e', x w = (.error e', w') ∧ e'.SameKind e := by
  have ho := h.outcome w
  have hw := h.world w
  rcases hx : x w with ⟨r, w₁⟩
  rw [hx, hy] at ho hw
  cases hw
  cases ho with
  | error he => exact ⟨_, rfl, he⟩

theorem Agrees.bind {x y : Job α} {f g : α → Job β} (h : Agrees x y)
    (hf : ∀ a, Agrees (f a) (g a)) : Agrees (x >>= f) (y >>= g) := by
  have key : ∀ w, SameOutcome ((x >>= f) w).1 ((y >>= g) w).1 ∧
      ((x >>= f) w).2 = ((y >>= g) w).2 := by
    intro w
    have ho := h.outcome w
    have hw := h.world w
    rcases hx : x w with ⟨e | a, w1⟩ <;> rcases hy : y w with ⟨e' | a', w2⟩ <;> rw [hx, hy] at ho hw
    · rw [bind_of_error hx, bind_of_error hy]
      cases ho with
      | error he => exact ⟨.error he, hw⟩
    · cases ho
    · cases ho
    · cases ho
      cases hw
      rw [bind_of_ok hx, bind_of_ok hy]
      exact ⟨(hf a).outcome w1, (hf a).world w1⟩
  exact ⟨fun w => (key w).1, fun w => (key w).2⟩

theorem Agrees.withInput {x y : Job α} (h : Agrees x y) (input : Input) :
    Agrees (withInput input x) (withInput input y) := by
  refine ⟨fun w => h.outcome { w with input := input }, fun w => ?_⟩
  have hw := h.world { w with input := input }
  show { (x { w with input := input }).2 with input := w.input } = _
  rw [hw]; rfl

end Job

end PassCheck
