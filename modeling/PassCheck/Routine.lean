/-
Routines: functions on values that run as jobs. Transforms, interpreters, type checkers and handlers
are routines.
-/
import PassCheck.World.Basic

namespace PassCheck

/-- A routine takes its arguments and runs as a job. -/
abbrev Routine := List Datum → Job Datum

namespace Routine

/-- A routine of exactly one argument. -/
def unary (f : Datum → Job Datum) : Routine
  | [d] => f d
  | _ => throw .badType

/-- A routine of one argument that only computes. -/
def pure (f : Datum → Except Failure Datum) : Routine := unary fun d => Job.lift (f d)

end Routine

/-! ## Pairs -/

/-- The two items of a value that holds exactly two. -/
def unpackPair (d : Datum) : Except Failure (Datum × Datum) :=
  match d.visit? with
  | none => .error .badType
  | some [a, b] => .ok (a, b)
  | some _ => .error (.badValue none)

/-- Applies a routine to every item and collects the first and the second parts of its results. -/
def mapPairs (f : Datum → Job Datum) : List Datum → Job (List Datum × List Datum)
  | [] => pure ([], [])
  | d :: ds => do
    let (a, b) ← Job.lift (unpackPair (← f d))
    let (as, bs) ← mapPairs f ds
    return (a :: as, b :: bs)

/-- `mapPairs` over any value that can be visited. -/
def mapPairsIn (f : Datum → Job Datum) (xs : Datum) : Job (List Datum × List Datum) :=
  match xs.visit? with
  | none => throw .badType
  | some ds => mapPairs f ds

/-- The first and the second parts of a collection of pairs. -/
def unzip (pairs : Datum) : Job (List Datum × List Datum) := mapPairsIn pure pairs

/-! ## Dispatch -/

/-- Handlers by tag. -/
structure Dispatcher where
  handlers : List (String × Routine)

/-- Calls the handler of a tagged sequence on the extra arguments and the rest of the sequence. -/
def Dispatcher.dispatch (t : Dispatcher) (value : Datum) (extra : List Datum) : Job Datum :=
  match value with
  | .seq _ (.str tag :: args) =>
    match t.handlers.lookup tag with
    | some handler => handler (extra ++ args)
    | none => throw (.report (.dispatch value))
  | _ => throw (.report (.dispatch value))

end PassCheck
