/-
Compiling: the transforms of all passes, one after another, and the assembly file of a source file.
-/
import PassCheck.Pass.Check

namespace PassCheck.Build

open Check (Reader)

/-- The assembly file of a source file: its extension becomes `.s`. -/
def outputPath (source : String) : String :=
  String.ofList ((Path.splitExtension source.toList).1 ++ ['.', 's'])

/-- Runs the transforms one after another, tracing every output. -/
def transformAll (tracer : Tracer) : List (Pass Routine) → Datum → Job Datum
  | [], program => return program
  | p :: ps, program => do
    let output ← p.transform [program]
    tracer.trace (.str (p.name ++ " output")) output
    transformAll tracer ps output

/-- Runs the transforms of passes on a program. -/
def compile (passes : List (Pass Routine)) (program : Datum) (tracer : Option Tracer) :
    Job Datum := do
  let t ← Tracer.choose tracer
  transformAll t passes program

/-- Compiles a source file and writes its assembly file. Nothing is written unless the last pass
gives text. -/
def compileFile (passes : List (Pass Routine)) (source : String) (reader : Reader)
    (tracer : Option Tracer) : Job String := do
  let program ← reader source
  match ← compile passes program tracer with
  | .str text =>
    Job.writeText (outputPath source) (text ++ "\n")
    return outputPath source
  | value => throw (.report (.nonTextual (.str source) value))

end PassCheck.Build
