/-
Jobs that compute and write to the output streams, and do nothing else. What such a job results in
and writes is the same in every world. Tracing is of this kind, and so is a sequence of such jobs.
-/
import PassCheck.Proofs.World.Input

namespace PassCheck

/-- The world after more was written to the two output streams. -/
abbrev World.saying (w : World) (out err : String) : World :=
  { w with out := w.out ++ out, err := w.err ++ err }

theorem World.saying_empty (w : World) : w.saying "" "" = w := by
  simp only [saying, String.append_empty]

theorem World.saying_saying (w : World) (out err out' err' : String) :
    (w.saying out err).saying out' err' = w.saying (out ++ out') (err ++ err') := by
  simp only [saying, String.append_assoc]

namespace Job

variable {α β : Type}

/-- In every world a job has this result and writes these texts, and nothing else changes. -/
def Prints (job : Job α) (r : Except Failure α) (out err : String) : Prop :=
  ∀ w, job w = (r, w.saying out err)

/-- A job that only computes and writes to the output streams. -/
def OnlyPrints (job : Job α) : Prop := ∃ r out err, job.Prints r out err

theorem Computes.onlyPrints {job : Job α} (h : Computes job) : OnlyPrints job := by
  obtain ⟨r, hr⟩ := h
  exact ⟨r, "", "", fun w => by rw [hr w, w.saying_empty]⟩

theorem onlyPrints_pure (a : α) : OnlyPrints (pure a : Job α) :=
  (computes_lift (.ok a)).onlyPrints

theorem print_apply (line : String) (w : World) :
    print line w = (.ok (), w.saying (line ++ "\n") "") := by
  rw [print, modify_apply, World.saying, String.append_empty, String.append_assoc]

theorem onlyPrints_print (line : String) : OnlyPrints (print line) :=
  ⟨.ok (), line ++ "\n", "", print_apply line⟩

theorem onlyPrints_printErr (line : String) : OnlyPrints (printErr line) := by
  refine ⟨.ok ⟨⟩, "", line ++ "\n", fun w => ?_⟩
  rw [printErr, modify_apply, World.saying, String.append_empty, String.append_assoc]

theorem OnlyPrints.bind {x : Job α} {f : α → Job β} (hx : OnlyPrints x)
    (hf : ∀ a, OnlyPrints (f a)) : OnlyPrints (x >>= f) := by
  obtain ⟨r, out, err, hx⟩ := hx
  cases r with
  | error e => exact ⟨.error e, out, err, fun w => bind_of_error (hx w)⟩
  | ok a =>
    obtain ⟨s, out', err', hf⟩ := hf a
    refine ⟨s, out ++ out', err ++ err', fun w => ?_⟩
    rw [bind_of_ok (hx w), hf, World.saying_saying]

/-- What a job writes to standard output. -/
def wrote (job : Job α) (w : World) : String :=
  String.ofList ((job w).2.out.toList.drop w.out.toList.length)

theorem wrote_eq {job : Job α} {w : World} {text : String} (h : (job w).2.out = w.out ++ text) :
    job.wrote w = text := by
  rw [wrote, h, String.toList_append, List.drop_left, String.ofList_toList]

end Job

theorem Tracer.onlyPrints_line (t : Tracer) (text : String) : Job.OnlyPrints (t.line text) := by
  unfold line
  split
  · exact Job.onlyPrints_printErr text
  · exact Job.onlyPrints_print text

theorem Tracer.onlyPrints_trace (t : Tracer) (label value : Datum) :
    Job.OnlyPrints (t.trace label value) := by
  unfold trace
  split
  · refine (Job.computes_lift _).onlyPrints.bind fun l => (t.onlyPrints_line _).bind fun _ => ?_
    exact (Job.computes_lift _).onlyPrints.bind fun text => t.onlyPrints_line text
  · exact Job.onlyPrints_pure ()

end PassCheck
