/-
Timing every pass over the tests of a family: each test is checked several times, and every
transform gives a row with its run and its time in milliseconds.
-/
import PassCheck.Pass.Check

namespace PassCheck.Timing

/-- One measurement. -/
structure Row where
  test : String
  pass : String
  run : Nat
  runtime : Floating
deriving DecidableEq, Inhabited

/-- The seconds of a lap. -/
def seconds (lap : Lap) : Floating := lap.stop.sub lap.start

/-- The milliseconds of a lap. -/
def milliseconds (lap : Lap) : Floating := (seconds lap).mul (.exact 1000)

/-- Runs a job and gives the laps that it notes. -/
def lapsOf {α : Type} (job : Job α) : Job (List Lap) := do
  modify fun w => { w with laps := [] }
  let _ ← job
  return (← get).laps

/-- Says which run of a test comes next, out of `total`. -/
def announce (compiler test : String) (total : Int) (k : Nat) : Job Unit := do
  let run ← Job.written (Integer.text? (k + 1))
  let runs ← Job.written (Integer.text? total)
  Job.print ("processing: " ++ compiler ++ " " ++ test ++ " " ++ run ++ "/" ++ runs ++ " ...")

/-- Checks a test in the runs that are left, from the run `k` on. -/
def measureRuns (compiler : String) (passes : List (Pass Routine)) (o : Check.Options)
    (test : String) (total : Int) : (left k : Nat) → Job (List Row)
  | 0, _ => return []
  | left + 1, k => do
    announce compiler test total k
    let laps ← lapsOf (Check.run compiler passes test { o with timed := true })
    let rows := laps.map fun lap => ⟨test, lap.pass, k, milliseconds lap⟩
    return rows ++ (← measureRuns compiler passes o test total left (k + 1))

/-- Measures tests, one after another. -/
def measureTests (compiler : String) (passes : List (Pass Routine)) (o : Check.Options)
    (runs : Int) : List String → Job (List Row)
  | [] => return []
  | t :: ts => do
    let rows ← measureRuns compiler passes o t runs runs.toNat 0
    return rows ++ (← measureTests compiler passes o runs ts)

/-- The number of runs when no other is given. -/
def defaultRuns : Int := 5

/-- Measures the tests of a family. -/
def measure (compiler : String) (passes : List (Pass Routine)) (family : String) (indices : Datum)
    (runs : Int) (o : Check.Options) : Job (List Row) := do
  let tests ← Job.lift (Family.expand family indices)
  measureTests compiler passes o runs tests

end PassCheck.Timing
