/-
Native tests: every test of a family is compiled, linked and run, and must exit with code 42. The
first failure ends the batch.
-/
import PassCheck.Build.Backend
import PassCheck.Build.Compile

namespace PassCheck.Batch

open Check (Reader)

/-- The exit code of a test that passes. -/
def successCode : Int := 42

/-- The runtime that is used when no other is given. -/
def defaultRuntime : String := "runtime.o"

/-- How tests are built and run. -/
structure Options where
  backend : Backend
  testsDir : String
  runtime : Datum
  reader : Reader
  tracer : Option Tracer

/-- Building with the standard toolchain. -/
def Options.plain : Options where
  backend := Toolchain.standard.backend
  testsDir := Check.defaultTestsDir
  runtime := .str defaultRuntime
  reader := Check.readProgram
  tracer := none

/-- Runs the executable of a test. An executable that cannot be run is an exit without a code. -/
def runTest (o : Options) (test executable : String) : Job Datum := fun w =>
  match o.backend.run executable (Family.inputPath test o.testsDir) w with
  | (.error e, w') =>
    (.error (if e.isSystem then .report (.exitCode (.str test) .null) else e), w')
  | r => r

/-- Builds and runs one test. -/
def test (compiler : String) (passes : List (Pass Routine)) (o : Options) (test : String) :
    Job Unit := do
  let assembly ← Build.compileFile passes (Family.sourcePath test o.testsDir) o.reader o.tracer
  let executable ← o.backend.link assembly o.runtime
  let code ← runTest o test executable
  if code.same (.int successCode) then
    Job.print (compiler ++ " passed compiler test " ++ test)
  else throw (.report (.exitCode (.str test) code))

/-- Builds and runs tests, one after another, and gives their names. -/
def runAll (compiler : String) (passes : List (Pass Routine)) (o : Options) :
    List String → Job (List String)
  | [] => return []
  | t :: ts => do
    test compiler passes o t
    let passed ← runAll compiler passes o ts
    return t :: passed

/-- Builds and runs the tests of a family. -/
def runFamily (compiler : String) (passes : List (Pass Routine)) (family : String)
    (indices : Datum) (o : Options) : Job (List String) := do
  let tests ← Job.lift (Family.expand family indices)
  runAll compiler passes o tests

end PassCheck.Batch
