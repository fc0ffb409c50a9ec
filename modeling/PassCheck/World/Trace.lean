/-
Tracing: labelled values on an output stream, when the tracer is enabled.
-/
import PassCheck.Datum.Layout
import PassCheck.World.Basic

namespace PassCheck

namespace Tracer

/-- Writes a line to the tracer's stream. -/
def line (t : Tracer) (text : String) : Job Unit :=
  if t.toErr then Job.printErr text else Job.print text

/-- Shows a label alone. -/
def note (t : Tracer) (label : Datum) : Job Unit :=
  if t.enabled then do
    t.line (← Job.written label.display?)
  else pure ()

/-- Shows a label and, on the lines after it, a value. The label is written before the value is
laid out. -/
def trace (t : Tracer) (label value : Datum) : Job Unit :=
  if t.enabled then do
    let l ← Job.written label.display?
    t.line (l ++ ":")
    t.line (← Job.written value.layout?)
  else pure ()

/-- Chooses a tracer: the given one, or else the world's. -/
def choose (given : Option Tracer) : Job Tracer :=
  match given with
  | some t => pure t
  | none => do return (← get).tracer

end Tracer

/-- Warns on the error output when a condition does not hold. The condition is handed back. -/
def softAssert (cond message : Datum) : Job Datum := do
  if !cond.truthy then
    Job.printErr ("warning: " ++ (← Job.written message.display?))
  return cond

end PassCheck
