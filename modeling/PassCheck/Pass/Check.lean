/-
Checking a compiler pass by pass: after every pass that has an interpreter, the result of its output
must equal the result found just before. The first pass that changes the result is blamed.
-/
import PassCheck.Pass.Basic
import PassCheck.Pass.Family
import PassCheck.Sexp.Printer
import PassCheck.Sexp.Program
import PassCheck.World.Trace

namespace PassCheck.Check

/-- Reads a program from its source path. -/
abbrev Reader := String → Job Datum

/-- Reads a program file. -/
def readProgram : Reader := fun path => do
  let text ← Job.readText path
  match Sexp.readProgramText path text with
  | .ok p => return p
  | .error e => throw (.ofRead e)

/-- The directory of tests that is used when no other is given. -/
def defaultTestsDir : String := "tests"

/-- How a test is checked. -/
structure Options where
  testsDir : String
  typeChecker : Option Routine
  initialInterpreter : Option Routine
  tracer : Option Tracer
  /-- Whether the time of every transform is noted. -/
  timed : Bool
  reader : Reader

/-- Checking without type checker, initial interpreter, timing or a tracer of its own. -/
def Options.plain : Options where
  testsDir := defaultTestsDir
  typeChecker := none
  initialInterpreter := none
  tracer := none
  timed := false
  reader := readProgram

/-- Runs an interpreter on a program. When there is an input file, it reads from the beginning of
that file, and the old input is back afterwards. -/
def runInterpreter (interp : Routine) (program : Datum) (inputPath : Option String) : Job Datum := do
  match inputPath with
  | none => interp [program]
  | some path =>
    if (← get).files.present path then
      let content ← Job.readBytes path
      Job.withInput (.ofBytes content) (interp [program])
    else interp [program]

/-- Runs a transform; with a timed check, notes the time it took. The clock is read in any case. -/
def runTransform (timed : Bool) (p : Pass Routine) (program : Datum) : Job Datum := do
  let start ← Job.readClock
  let output ← p.transform [program]
  if timed then
    let stop ← Job.readClock
    Job.noteLap ⟨p.name, start, stop⟩
  return output

/-- Blames a pass: the program it made is shown on the error output. -/
def blame (compiler : String) (p : Pass Routine) (expected actual program : Datum) : Job Unit := do
  Job.printErr (compiler ++ " failed on pass " ++ p.name ++ ", ast:")
  Job.printErr (← Job.written (Sexp.show? program))
  throw (.report (.mismatch (.str compiler) (.str p.name) expected actual program))

/-- Compares a result with the one found before, if there is one. -/
def compare (compiler : String) (p : Pass Routine) (before : Option Datum) (result program : Datum) :
    Job Unit :=
  match before with
  | none => pure ()
  | some expected =>
    if result.same expected then pure () else blame compiler p expected result program

/-- Runs the passes one after another on a program, given the result found last. -/
def chain (compiler : String) (tracer : Tracer) (timed : Bool) (inputPath : String) :
    List (Pass Routine) → Datum → Option Datum → Job (Option Datum)
  | [], _, result => return result
  | p :: ps, program, result => do
    let output ← runTransform timed p program
    tracer.trace (.str (p.name ++ " output")) output
    match p.interpreter with
    | none => chain compiler tracer timed inputPath ps output result
    | some interp =>
      let found ← runInterpreter interp output (some inputPath)
      tracer.trace (.str (p.name ++ " result")) found
      compare compiler p result found output
      chain compiler tracer timed inputPath ps output (some found)

/-- The result of the source program, when there is an initial interpreter. -/
def initialResult (tracer : Tracer) (interp : Option Routine) (inputPath : String)
    (program : Datum) : Job (Option Datum) :=
  match interp with
  | none => return none
  | some interp => do
    let result ← runInterpreter interp program (some inputPath)
    tracer.trace (.str "source program result") result
    return some result

/-- Runs a type checker, if there is one; only its failure counts. -/
def checkType (checker : Option Routine) (program : Datum) : Job Unit :=
  match checker with
  | none => pure ()
  | some checker => do let _ ← checker [program]

/-- Checks a compiler on one test. The result is the one found last, or nothing. -/
def run (compiler : String) (passes : List (Pass Routine)) (test : String) (o : Options) :
    Job Datum := do
  let tracer ← Tracer.choose o.tracer
  let inputPath := Family.inputPath test o.testsDir
  let program ← o.reader (Family.sourcePath test o.testsDir)
  tracer.trace (.str (compiler ++ " " ++ test ++ " source program")) program
  checkType o.typeChecker program
  let result ← initialResult tracer o.initialInterpreter inputPath program
  let result ← chain compiler tracer o.timed inputPath passes program result
  return result.getD .null

/-- Checks a compiler on tests, one after another; the first failure ends it. The results so far are
kept by test name. -/
def runAll (compiler : String) (passes : List (Pass Routine)) (o : Options) :
    List String → List (Datum × Datum) → Job (List (Datum × Datum))
  | [], results => return results
  | test :: tests, results => do
    let result ← run compiler passes test o
    Job.print (compiler ++ " passed interp test " ++ test)
    runAll compiler passes o tests (Datum.setEntry (.str test) result results)

/-- Checks a compiler on the tests of a family. -/
def runFamily (compiler : String) (passes : List (Pass Routine)) (family : String)
    (indices : Datum) (o : Options) : Job (List (Datum × Datum)) := do
  let tests ← Job.lift (Family.expand family indices)
  runAll compiler passes o tests []

end PassCheck.Check
