/-
The command that times the passes of a compiler over a family of tests, prints the medians and writes
them as a table and as a plot.
-/
import PassCheck.Command.Exit
import PassCheck.Timing.Figure
import PassCheck.Timing.Table

namespace PassCheck.Command.Time

/-- The command line: a family and indices, a compiler, the number of runs, the output. -/
def grammar : Grammar where
  program := "timing.py"
  usage :=
    "usage: timing.py [-h] [--compiler COMPILER] [--run RUN] [--out OUT]\n" ++
    "                 family indices [indices ...]\n"
  help :=
    "\ntime compiler passes over a test family\n" ++
    "\npositional arguments:\n" ++
    "  family               test family, e.g. var\n" ++
    "  indices              test numbers\n" ++
    "\noptions:\n" ++
    "  -h, --help           show this help message and exit\n" ++
    "  --compiler COMPILER  module:attribute of the compiler\n" ++
    "  --run RUN            runs per test\n" ++
    "  --out OUT            output file name without extension\n"
  positionals := [⟨"family", false, .text⟩, ⟨"indices", true, .integer⟩]
  flags :=
    [helpFlag, compilerFlag, ⟨["--run"], .value .integer⟩, ⟨["--out"], .value .text⟩]

/-- The output file name when no other is given. -/
def defaultOutput : String := "pass_timing"

/-- Measures as the command line asks. The number of runs is looked at by the first test. -/
def measureChosen (passes : List (Pass Routine)) (s : Settings) : Job (List Timing.Row) :=
  match s.value "--run" (.int Timing.defaultRuns), s.items "indices" with
  | .int runs, is =>
    Timing.measure s.compilerName passes (s.text "family") (.list is) runs
      { Check.Options.plain with tracer := some ⟨false, false⟩ }
  | _, [] => return []
  | _, _ => throw .badType

/-- Times the passes of the compiler that `load` finds, without tracing, and prints and writes the
medians that a library of tables gives. -/
def run (lib : Timing.Tables) (load : Loader) (args : List String) : Job Exit :=
  withSettings grammar args fun s => reporting do
    let passes ← load.passes s.compiler
    let summary := Timing.summarize lib (← measureChosen passes s)
    Job.print (Timing.Table.render summary)
    let out ← Job.written (s.value "--out" (.str defaultOutput)).display?
    Timing.writeCsv (out ++ ".csv") summary
    let _ ← Timing.plot summary (out ++ ".png") Timing.Figure.defaultTitle
    return .normal

end PassCheck.Command.Time
