/-
The command that runs the tests of a family: pass by pass against the interpreters, then built and
run natively, or only one of the two. The first failing test ends it.
-/
import PassCheck.Build.Batch
import PassCheck.Command.Exit

namespace PassCheck.Command.Tests

/-- What is run. -/
inductive Mode where
  | interp
  | compile
  | both
  | neither
deriving DecidableEq, Inhabited

namespace Mode

/-- The mode that the command line gives. -/
def ofValue : Datum → Mode
  | .str "interp" => .interp
  | .str "compile" => .compile
  | .str "both" => .both
  | _ => .neither

/-- Whether a mode checks pass by pass. -/
def checks : Mode → Bool
  | .interp | .both => true
  | _ => false

/-- Whether a mode builds and runs natively. -/
def builds : Mode → Bool
  | .compile | .both => true
  | _ => false

end Mode

/-- The command line: a family and indices, what to run and with what. -/
def grammar : Grammar where
  program := "run-tests.py"
  usage :=
    "usage: run-tests.py [-h] [--mode \x7binterp,compile,both\x7d] [--compiler COMPILER]\n" ++
    "                    [--tests-dir TESTS_DIR] [--runtime RUNTIME] [--trace]\n" ++
    "                    family indices [indices ...]\n"
  help :=
    "\npositional arguments:\n" ++
    "  family                test family, e.g. var\n" ++
    "  indices               test numbers or all\n" ++
    "\noptions:\n" ++
    "  -h, --help            show this help message and exit\n" ++
    "  --mode \x7binterp,compile,both\x7d\n" ++
    "  --compiler COMPILER   module:attribute of the compiler\n" ++
    "  --tests-dir TESTS_DIR\n" ++
    "  --runtime RUNTIME     runtime object file\n" ++
    "  --trace\n"
  positionals := [⟨"family", false, .text⟩, ⟨"indices", true, .text⟩]
  flags :=
    [helpFlag, ⟨["--mode"], .value (.choice ["interp", "compile", "both"])⟩, compilerFlag,
      ⟨["--tests-dir"], .value .text⟩, ⟨["--runtime"], .value .text⟩, traceFlag]

/-- Whether the indices ask for all tests that are there. -/
def asksForAll : List Datum → Bool
  | [.str s] => s.toList.map Char.toLower == "all".toList
  | _ => false

/-- The integers of indices given as texts. -/
def readIndices : List Datum → Except Failure (List Int)
  | [] => .ok []
  | .str s :: ds =>
    match Integer.ofText? s with
    | none => .error (.badValue none)
    | some n => do return n :: (← readIndices ds)
  | _ :: _ => .error .badType

/-- The text of a directory. What is no text cannot be part of a path. -/
def directory : Datum → Except Failure String
  | .str dir => .ok dir
  | _ => .error .badType

/-- Finds out which tests to run, and says so. -/
def chooseIndices (family : String) (testsDir : Datum) (indices : List Datum) : Job (List Int) := do
  if asksForAll indices then
    let dir ← Job.lift (directory testsDir)
    let is ← Job.lift (Family.discover (← get).files family dir)
    Job.print ("*** RUN ALL " ++ family ++ " TESTS! ***")
    return is
  else
    let is ← Job.lift (readIndices indices)
    let shown ← Job.written (Datum.list (is.map .int)).literal?
    Job.print ("*** RUN " ++ family ++ " TESTS " ++ shown ++ "! ***")
    return is

/-- Runs tests in a mode. -/
def runTests (compiler : String) (passes : List (Pass Routine)) (mode : Mode)
    (family testsDir : String) (runtime : Datum) (indices : List Int) : Job Unit := do
  let is := Datum.list (indices.map .int)
  if mode.checks then
    let _ ← Check.runFamily compiler passes family is
      { Check.Options.plain with testsDir := testsDir }
  if mode.builds then
    let _ ← Batch.runFamily compiler passes family is
      { Batch.Options.plain with testsDir := testsDir, runtime := runtime }

/-- Runs tests as the command line asks. The tests directory is looked at by the first test. -/
def runChosen (passes : List (Pass Routine)) (s : Settings) (testsDir : Datum) (is : List Int) :
    Job Unit := do
  let mode := Mode.ofValue (s.value "--mode" (.str "both"))
  if is.isEmpty || mode == .neither then return ()
  let dir ← Job.lift (directory testsDir)
  runTests s.compilerName passes mode (s.text "family") dir
    (s.value "--runtime" (.str Batch.defaultRuntime)) is

/-- Runs the tests with the compiler that `load` finds. -/
def run (load : Loader) (args : List String) : Job Exit :=
  withSettings grammar args fun s => do
    applyTrace s
    let testsDir := s.value "--tests-dir" (.str Check.defaultTestsDir)
    let is ← chooseIndices (s.text "family") testsDir (s.items "indices")
    reporting do
      let passes ← load.passes s.compiler
      runChosen passes s testsDir is
      Job.print ("*** " ++ Nat.repr is.length ++ " " ++ s.text "family" ++ " TESTS PASSED! ***")
      return .normal

end PassCheck.Command.Tests
