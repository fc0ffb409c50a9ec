/-
Where the verdict of a check comes from. Reading, timing, tracing, transforming and interpreting may
fail, but what they fail with is no report. So a check that ends with a result or a report has done
all of that and come to a comparison; such a check can be taken apart round by round.
-/
import PassCheck.Proofs.Pass.Source

namespace PassCheck

/-- A value or a report, as opposed to any other failure. -/
def Verdict {α : Type} (r : Except Failure α) : Prop :=
  ∀ e, r = .error e → ∃ report, e = .report report

theorem verdict_ok {α : Type} (a : α) : Verdict (.ok a : Except Failure α) := nofun

theorem verdict_report {α : Type} (report : Report) :
    Verdict (.error (.report report) : Except Failure α) := by
  rintro e ⟨⟩
  exact ⟨report, rfl⟩

/-! ## Jobs that come to no verdict -/

namespace Job

variable {α β : Type} {w : World}

/-- A job that never reports, and changes no file. -/
structure Plain (job : Job α) : Prop where
  noReport : NoReport job
  files : ∀ w, (job w).2.files = w.files

theorem plain_pure (a : α) : Plain (pure a : Job α) := ⟨noReport_pure a, fun _ => rfl⟩

theorem plain_throw {e : Failure} (h : ∀ r, e ≠ .report r) : Plain (throw e : Job α) :=
  ⟨noReport_throw h, fun _ => rfl⟩

theorem plain_lift {r : Except Failure α} (h : ∀ report, r ≠ .error (.report report)) :
    Plain (lift r) :=
  ⟨fun _ => h, fun _ => rfl⟩

theorem plain_get : Plain (get : Job World) := ⟨nofun, fun _ => rfl⟩

theorem plain_modify {f : World → World} (h : ∀ w, (f w).files = w.files) :
    Plain (modify f : Job PUnit) :=
  ⟨nofun, h⟩

theorem Plain.bind {x : Job α} {f : α → Job β} (hx : Plain x) (hf : ∀ a, Plain (f a)) :
    Plain (x >>= f) := by
  refine ⟨hx.noReport.bind fun a => (hf a).noReport, fun w => ?_⟩
  have h1 := hx.files w
  rcases h : x w with ⟨e | a, w1⟩
  · rw [h] at h1
    rwa [bind_of_error h]
  · rw [h] at h1
    rw [bind_of_ok h, (hf a).files, h1]

theorem Plain.withInput {job : Job α} (h : Plain job) (input : Input) :
    Plain (withInput input job) :=
  ⟨fun w => h.noReport (w.withInput input), fun w => h.files (w.withInput input)⟩

theorem OnInput.plain {job : Job α} (h : OnInput job) (hr : NoReport job) : Plain job := by
  refine ⟨hr, fun w => ?_⟩
  rw [h.apply w]

theorem plain_readClock : Plain readClock := by
  refine Plain.bind (plain_modify ?_) fun _ => plain_get.bind fun w => ?_
  · intro w; rfl
  · split
    · exact plain_throw nofun
    · exact plain_pure _

theorem plain_stamp (d : Datum) : Plain (stamp d) := by
  unfold stamp
  split
  · refine Plain.bind (plain_modify ?_) fun _ => plain_get.bind fun w => plain_pure _
    intro w; rfl
  · exact plain_pure _

/-- If a job that comes to no verdict is followed by one, it has succeeded. -/
theorem Plain.exists_of_bind {x : Job α} {f : α → Job β} (hx : Plain x)
    (h : Verdict ((x >>= f) w).1) :
    ∃ a w₁, x w = (.ok a, w₁) ∧ w₁.files = w.files ∧ (x >>= f) w = f a w₁ := by
  have hfiles := hx.files w
  rcases hr : x w with ⟨e | a, w₁⟩
  · rw [bind_of_error hr] at h
    obtain ⟨report, rfl⟩ := h e rfl
    exact absurd (congrArg Prod.fst hr) (hx.noReport w report)
  · rw [hr] at hfiles
    exact ⟨a, w₁, rfl, hfiles, bind_of_ok hr⟩

end Job

theorem Verdict.of_bind {α β : Type} {x : Job α} {f : α → Job β} {w : World}
    (h : Verdict ((x >>= f) w).1) : Verdict (x w).1 := by
  intro e he
  rw [Job.bind_of_error (Prod.ext he rfl)] at h
  exact h e rfl

theorem Tracer.plain_trace (t : Tracer) (label : String) (value : Datum) :
    Job.Plain (t.trace (.str label) value) := by
  refine ⟨?_, t.trace_files label value⟩
  have hline : ∀ text, Job.NoReport (t.line text) := by
    intro text
    unfold line
    split <;> nofun
  unfold trace
  split
  · exact (Job.noReport_written _).bind fun l => (hline (l ++ ":")).bind fun _ =>
      (Job.noReport_written _).bind hline
  · exact Job.noReport_pure ()

/-! ## Files -/

namespace Files

variable {fs : Files}

theorem walk_ne_report (report : Report) (here : Place) (names : List String) :
    fs.walk here names ≠ .error (.report report) := by
  fun_induction walk fs here names with
  | case4 => assumption
  | case5 => assumption
  | case7 => assumption
  | _ => nofun

theorem locate_ne_report (path : String) (report : Report) :
    fs.locate path ≠ .error (.report report) := by
  unfold locate
  dsimp only
  split
  · nofun
  · split
    · nofun
    · split
      · nofun
      · exact walk_ne_report report _ _

theorem read_ne_report (path : String) (report : Report) :
    fs.read path ≠ .error (.report report) := by
  intro h
  unfold read at h
  cases hl : fs.locate path with
  | error e =>
    rw [hl] at h
    cases h
    exact locate_ne_report path report hl
  | ok p =>
    rw [hl] at h
    dsimp only [bind, Except.bind] at h
    split at h <;> cases h

end Files

theorem Job.plain_readBytes (path : String) : Job.Plain (Job.readBytes path) :=
  ⟨fun _ => Files.read_ne_report path, fun _ => rfl⟩

/-! ## Checks -/

namespace Check

variable {inputPath : String} {timed : Bool} {program : Datum} {w : World}

theorem plain_readProgram (path : String) : Job.Plain (readProgram path) := by
  have htext : Job.Plain (Job.readText path) := by
    refine (Job.plain_readBytes path).bind fun content => ?_
    split
    · exact Job.plain_pure _
    · exact Job.plain_throw nofun
  refine htext.bind fun text => ?_
  split
  · exact Job.plain_pure _
  · rename_i e _
    exact Job.plain_throw fun report => by cases e <;> nofun

theorem plain_runTransform {p : Pass Routine} (h : Job.Plain (p.transform [program])) :
    Job.Plain (runTransform timed p program) := by
  refine Job.plain_readClock.bind fun start => h.bind fun output => ?_
  split
  · refine Job.plain_readClock.bind fun stop => Job.Plain.bind (Job.plain_modify ?_) fun _ =>
      Job.plain_pure output
    intro w; rfl
  · exact Job.plain_pure output

theorem plain_runInterpreter {i : Routine} (h : Job.Plain (i [program])) (path : Option String) :
    Job.Plain (runInterpreter i program path) := by
  cases path with
  | none => exact h
  | some path =>
    refine Job.plain_get.bind fun w => ?_
    split
    · exact (Job.plain_readBytes path).bind fun content => h.withInput (.ofBytes content)
    · exact h

/-- The transform of a pass has succeeded when it was timed. -/
theorem exists_of_runTransform_ok {p : Pass Routine} {output : Datum} {w₁ : World}
    (h : runTransform timed p program w = (.ok output, w₁)) :
    ∃ v, (p.transform [program] v).1 = .ok output := by
  obtain ⟨start, v, -, h⟩ := Job.exists_of_bind_ok h
  obtain ⟨d, v', hd, h⟩ := Job.exists_of_bind_ok h
  refine ⟨v, ?_⟩
  rw [hd]
  cases timed with
  | false => cases h; rfl
  | true =>
    obtain ⟨_, _, -, h⟩ := Job.exists_of_bind_ok h
    obtain ⟨_, _, -, h⟩ := Job.exists_of_bind_ok h
    cases h
    rfl

/-- An interpreter that has found a result in a check did so in some world; and what stands at the
input path, if anything, could be read. -/
theorem exists_of_runInterpreter_ok {i : Routine} {d : Datum} {w₁ : World}
    (h : runInterpreter i program (some inputPath) w = (.ok d, w₁)) :
    (∃ v, (i [program] v).1 = .ok d) ∧ w.files.AbsentOrFile inputPath := by
  cases hp : w.files.present inputPath with
  | false =>
    rw [runInterpreter_of_absent _ _ hp] at h
    exact ⟨⟨w, by rw [h]⟩, .inl hp⟩
  | true =>
    cases hr : w.files.read inputPath with
    | error e => rw [runInterpreter_of_unreadable _ _ hp hr] at h; cases h
    | ok content =>
      rw [runInterpreter_of_holds _ _ hr] at h
      have hfound : (i [program] (w.withInput (.ofBytes content))).1 = .ok d := congrArg Prod.fst h
      exact ⟨⟨_, hfound⟩, .inr ⟨content, hr⟩⟩

/-- A comparison that lets the check go on found no difference and did nothing. -/
theorem of_compare_ok {compiler : String} {p : Pass Routine} {last : Option Datum}
    {found : Datum} {w' : World}
    (h : compare compiler p last found program w = (.ok (), w')) :
    (∀ l ∈ last, found.same l = true) ∧ w' = w := by
  cases last with
  | none => cases h; exact ⟨nofun, rfl⟩
  | some l =>
    rw [compare] at h
    split at h
    · rename_i hs
      cases h
      exact ⟨fun x hx => Option.some.inj hx ▸ hs, rfl⟩
    · obtain ⟨_, _, -, h⟩ := Job.exists_of_bind_ok h
      obtain ⟨_, _, -, h⟩ := Job.exists_of_bind_ok h
      obtain ⟨_, _, -, h⟩ := Job.exists_of_bind_ok h
      cases h

/-- One round of a check that comes to a verdict. The transform has succeeded and so has the
interpreter, and the verdict is that of the rest, from the comparison on. -/
theorem exists_of_chain_verdict {compiler : String} {t : Tracer} {p : Pass Routine}
    {ps : List (Pass Routine)} {i : Routine} {last : Option Datum} (hi : p.interpreter = some i)
    (htransform : Job.Plain (p.transform [program])) (hinterp : ∀ d, Job.Plain (i [d]))
    (h : Verdict (chain compiler t timed inputPath (p :: ps) program last w).1) :
    ∃ output found w₁, (∃ v, (p.transform [program] v).1 = .ok output) ∧
      (∃ v, (i [output] v).1 = .ok found) ∧ w.files.AbsentOrFile inputPath ∧
      chain compiler t timed inputPath (p :: ps) program last w =
        (compare compiler p last found output >>= fun _ =>
          chain compiler t timed inputPath ps output (some found)) w₁ := by
  rw [chain] at h ⊢
  obtain ⟨output, w₁, h₁, hw₁, heq₁⟩ := (plain_runTransform htransform).exists_of_bind h
  rw [heq₁] at h ⊢
  obtain ⟨-, w₂, -, hw₂, heq₂⟩ := (t.plain_trace _ output).exists_of_bind h
  rw [heq₂, hi] at h ⊢
  dsimp only at h ⊢
  obtain ⟨found, w₃, h₃, -, heq₃⟩ := (plain_runInterpreter (hinterp output) _).exists_of_bind h
  rw [heq₃] at h ⊢
  obtain ⟨-, w₄, -, -, heq₄⟩ := (t.plain_trace _ found).exists_of_bind h
  obtain ⟨hfound, hfile⟩ := exists_of_runInterpreter_ok h₃
  rw [hw₂, hw₁] at hfile
  exact ⟨output, found, w₄, exists_of_runTransform_ok h₁, hfound, hfile, heq₄⟩

end Check

end PassCheck
