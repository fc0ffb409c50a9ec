/-
Tracing does not interfere. A check of passes, or a compilation, with a tracer that is on ends as it
does with one that is off: with the same result or failure, the same laps and clock, the same files
and error output, and the same input left to read. Only standard output differs. The characters that
the quiet run printed stand among those of the loud one, and so do its lines if no value is traced in
the middle of a line.

Both runs are followed together, step by step (`chain_alike`, `transformAll_alike`). Everything that
is asked for is asked of the quiet run, call by call. With a tracer that is given, a routine does not
look at what was printed; it may ask for the tracer of the world or switch it. With the tracer of the
world, it gets at that tracer by tracing only.
-/
import PassCheck.Build.Compile
import PassCheck.Proofs.Lint.Constant
import PassCheck.Proofs.Pass.Discreet
import PassCheck.Proofs.Pass.Verdict

namespace PassCheck

/-- What is asked of a quiet run that started when the output was `base`. -/
structure Terms where
  grain : Grain
  base : String
  /-- Asked of every routine that is called. -/
  calls : Job Datum → World → Prop

namespace Terms

/-- Asked of every value that is traced. -/
def traces (c : Terms) : Datum → World → Prop := c.grain.Traceable c.base

/-- The terms of a run whose tracer is given: routines only add to standard output. -/
def given (grain : Grain) (base : String) : Terms := ⟨grain, base, fun job v => job.Appends v⟩

/-- The terms of a run with the tracer of the world: routines get at it by tracing only. -/
def own (grain : Grain) (base : String) : Terms := ⟨grain, base, fun job v => job.Traces grain base v⟩

/-- The worlds of a quiet and a loud run. -/
abbrev Hushed (c : Terms) (T : Tracer → Tracer → Prop) : World → World → Prop :=
  World.Hushed c.grain c.base T

end Terms

variable {c : Terms} {T : Tracer → Tracer → Prop} {quiet loud : Tracer} {v w : World}
  {passes : List (Pass Routine)} {program : Datum}

/-! ## Compiling -/

namespace Build

end Build

/-! ## Checking -/

namespace Check

variable {timed : Bool} {inputPath : String}

end Check

/-! ## Terms that are met from every world -/

variable {I : String → Tracer → Prop}

/-- From every world where an invariant holds, a job is called on the terms, keeps the invariant and
gives a value that can be written. -/
structure Job.Fits (c : Terms) (I : String → Tracer → Prop) (job : Job Datum) : Prop where
  calls : ∀ v, I v.out v.tracer → c.calls job v
  keeps : job.Maintains I
  writes : ∀ v d, (job v).1 = .ok d → d.Writable

/-- A routine that fits on every value that can be written. -/
def Routine.Fits (c : Terms) (I : String → Tracer → Prop) (r : Routine) : Prop :=
  ∀ d, d.Writable → (r [d]).Fits c I

/-- Both routines of a pass fit. -/
structure Pass.Fits (c : Terms) (I : String → Tracer → Prop) (p : Pass Routine) : Prop where
  transform : p.transform.Fits c I
  interpreter : ∀ i ∈ p.interpreter, i.Fits c I

namespace Build

end Build

namespace Check

variable {timed : Bool} {inputPath : String}

/-- The passes and everything else that the options of a check name fit. -/
structure Fits (c : Terms) (I : String → Tracer → Prop) (passes : List (Pass Routine))
    (o : Options) : Prop where
  passes : ∀ p ∈ passes, p.Fits c I
  checker : ∀ f ∈ o.typeChecker, f.Fits c I
  initial : ∀ i ∈ o.initialInterpreter, i.Fits c I
  reader : ∀ path, (o.reader path).Fits c I

end Check

/-! ## Quiet and loud runs from one world -/

end PassCheck
