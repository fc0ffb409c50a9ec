/-
Jobs and standard input: those that have nothing to do with it, and those that do nothing else than
read it. A job of the first kind does the same whatever the input is and hands the input on as it
found it, at least as long as there is a file at a given path; output, the clock and tracing are of
this kind, and so is any job at all once it runs on an input of its own. A job of the second kind is the same
function of the input in every world, or even a constant. All these kinds are closed under sequence.
-/
import PassCheck.Proofs.World.Jobs

namespace PassCheck

/-- The world with another input. -/
abbrev World.withInput (w : World) (input : Input) : World := { w with input := input }

/-- The file at a path has this content. -/
def World.Holds (path : String) (content : ByteArray) (w : World) : Prop :=
  w.files.read path = .ok content

/-- There is a file at a path. -/
def World.HasFile (path : String) (w : World) : Prop := ∃ content, w.Holds path content

namespace Job

/-! ## Jobs that spare the input -/

/-- While there is a file at the path, a job neither reads nor changes the input, and there still is
one after it. -/
structure Spares (path : String) {α : Type} (job : Job α) : Prop where
  hasFile : ∀ w, w.HasFile path → (job w).2.HasFile path
  input : ∀ w, w.HasFile path → ∀ input,
    job (w.withInput input) = ((job w).1, (job w).2.withInput input)

variable {path : String} {α β : Type} {w : World}

theorem Spares.input_eq {job : Job α} (h : Spares path job) (hw : w.HasFile path) :
    (job w).2.input = w.input := by
  have hself := h.input w hw w.input
  exact congrArg (fun r => r.2.input) hself

theorem spares_pure (a : α) : Spares path (pure a : Job α) :=
  ⟨fun _ hw => hw, fun _ _ _ => rfl⟩

theorem spares_throw (e : Failure) : Spares path (throw e : Job α) :=
  ⟨fun _ hw => hw, fun _ _ _ => rfl⟩

theorem spares_lift (r : Except Failure α) : Spares path (lift r) :=
  ⟨fun _ hw => hw, fun _ _ _ => rfl⟩

theorem Spares.bind {x : Job α} {f : α → Job β} (hx : Spares path x)
    (hf : ∀ a, Spares path (f a)) : Spares path (x >>= f) := by
  constructor
  · intro w hw
    have h1 := hx.hasFile w hw
    rcases h : x w with ⟨_ | a, w1⟩
    · rw [bind_of_error h]; rwa [h] at h1
    · rw [bind_of_ok h]; rw [h] at h1; exact (hf a).hasFile w1 h1
  · intro w hw input
    have h1 := hx.hasFile w hw
    have h2 := hx.input w hw input
    rcases h : x w with ⟨e | a, w1⟩
    · rw [h] at h2
      rw [bind_of_error h, bind_of_error h2]
    · rw [h] at h1 h2
      rw [bind_of_ok h, bind_of_ok h2]
      exact (hf a).input w1 h1 input

/-- Jobs in sequence may be replaced one by one, as there is a file all along. -/
theorem Spares.bind_eq {x y : Job α} {f g : α → Job β} (hx : Spares path x)
    (hxy : ∀ w, w.HasFile path → x w = y w)
    (hfg : ∀ a w, w.HasFile path → f a w = g a w) (hw : w.HasFile path) :
    (x >>= f) w = (y >>= g) w := by
  have h1 := hx.hasFile w hw
  have h2 := hxy w hw
  rcases h : x w with ⟨e | a, w1⟩
  · rw [bind_of_error h, bind_of_error (h2.symm.trans h)]
  · rw [h] at h1
    rw [bind_of_ok h, bind_of_ok (h2.symm.trans h)]
    exact hfg a w1 h1

/-- A change of the world that no file and no input takes part in. -/
theorem spares_modify {f : World → World} (hfiles : ∀ w, (f w).files = w.files)
    (hinput : ∀ w input, f (w.withInput input) = (f w).withInput input) :
    Spares path (modify f : Job PUnit) := by
  refine ⟨fun w hw => ?_, fun w _ input => ?_⟩
  · obtain ⟨content, hc⟩ := hw
    refine ⟨content, ?_⟩
    show (f w).files.read path = _
    rw [hfiles]; exact hc
  · rw [modify_apply, modify_apply, hinput]

theorem spares_print (line : String) : Spares path (print line) :=
  spares_modify (fun _ => rfl) fun _ _ => rfl

theorem spares_printErr (line : String) : Spares path (printErr line) :=
  spares_modify (fun _ => rfl) fun _ _ => rfl

theorem spares_noteLap (lap : Lap) : Spares path (noteLap lap) :=
  spares_modify (fun _ => rfl) fun _ _ => rfl

theorem spares_readClock : Spares path readClock := by
  constructor
  · intro w hw
    rw [readClock_apply]; exact hw
  · intro w _ input
    rw [readClock_apply, readClock_apply]

theorem spares_written (text? : Option String) : Spares path (written text?) :=
  spares_lift _

/-- A job on an input of its own spares the old one. -/
theorem spares_withInput {job : Job α} (input : Input)
    (h : ∀ w, w.HasFile path → (job w).2.HasFile path) :
    Spares path (withInput input job) :=
  ⟨fun w hw => h (w.withInput input) hw, fun _ _ _ => rfl⟩

/-! ## Jobs on the input -/

/-- A job only reads the input: it does in every world what it does in one with the same input. -/
def OnInput (job : Job α) : Prop :=
  ∀ w v : World, job (v.withInput w.input) = ((job w).1, v.withInput (job w).2.input)

theorem OnInput.apply {job : Job α} (h : OnInput job) (w : World) :
    job w = ((job w).1, w.withInput (job w).2.input) := h w w

theorem OnInput.result_eq {job : Job α} (h : OnInput job) {w w' : World}
    (hw : w.input = w'.input) : (job w).1 = (job w').1 := by
  have h' := h w w'
  rw [hw] at h'
  exact (congrArg Prod.fst h').symm

theorem OnInput.hasFile {job : Job α} (h : OnInput job) (hw : w.HasFile path) :
    (job w).2.HasFile path := by
  rw [h.apply w]; exact hw

theorem onInput_pure (a : α) : OnInput (pure a : Job α) := fun _ _ => rfl

theorem onInput_throw (e : Failure) : OnInput (throw e : Job α) := fun _ _ => rfl

theorem onInput_lift (r : Except Failure α) : OnInput (lift r) := fun _ _ => rfl

theorem OnInput.bind {x : Job α} {f : α → Job β} (hx : OnInput x) (hf : ∀ a, OnInput (f a)) :
    OnInput (x >>= f) := by
  intro w v
  have h1 := hx w v
  rcases h : x w with ⟨e | a, w1⟩
  · rw [h] at h1
    rw [bind_of_error h, bind_of_error h1]
  · rw [h] at h1
    rw [bind_of_ok h, bind_of_ok h1]
    exact hf a w1 v

theorem onInput_readLine : OnInput readLine := by
  intro w v
  unfold readLine
  rw [bind_of_ok (get_apply w), bind_of_ok (get_apply (v.withInput w.input))]
  split <;> rfl

theorem onInput_readRest : OnInput readRest := by
  intro w v
  unfold readRest
  rw [bind_of_ok (get_apply w), bind_of_ok (get_apply (v.withInput w.input))]
  cases w.input.broken <;> rfl

/-- A job that only computes has one outcome for all worlds. -/
def Computes (job : Job α) : Prop := ∃ r, ∀ w, job w = (r, w)

theorem computes_lift (r : Except Failure α) : Computes (lift r) := ⟨r, fun _ => rfl⟩

theorem Computes.bind {x : Job α} {f : α → Job β} (hx : Computes x) (hf : ∀ a, Computes (f a)) :
    Computes (x >>= f) := by
  obtain ⟨r, hr⟩ := hx
  cases r with
  | error e => exact ⟨.error e, fun w => bind_of_error (hr w)⟩
  | ok a =>
    obtain ⟨s, hs⟩ := hf a
    exact ⟨s, fun w => (bind_of_ok (hr w)).trans (hs w)⟩

end Job

namespace Tracer

variable {path : String}

theorem spares_line (t : Tracer) (text : String) : Job.Spares path (t.line text) := by
  unfold line
  split
  · exact Job.spares_printErr text
  · exact Job.spares_print text

theorem spares_trace (t : Tracer) (label value : Datum) :
    Job.Spares path (t.trace label value) := by
  unfold trace
  split
  · exact (Job.spares_written _).bind fun l => (t.spares_line _).bind fun _ =>
      (Job.spares_written _).bind fun text => t.spares_line text
  · exact Job.spares_pure ()

theorem spares_choose (given : Option Tracer) : Job.Spares path (choose given) := by
  refine ⟨fun w hw => ?_, fun w _ input => ?_⟩
  · rw [choose_apply]; exact hw
  · rw [choose_apply, choose_apply]

end Tracer

end PassCheck
