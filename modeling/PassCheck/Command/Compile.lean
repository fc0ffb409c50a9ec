/-
The command that compiles one source file to assembly.
-/
import PassCheck.Build.Compile
import PassCheck.Command.Exit

namespace PassCheck.Command.Compile

/-- The command line: a source file, a compiler, tracing. -/
def grammar : Grammar where
  program := "driver.py"
  usage := "usage: driver.py [-h] [--compiler COMPILER] [--trace] source\n"
  help :=
    "\ncompile one test program to x86 assembly\n" ++
    "\npositional arguments:\n" ++
    "  source               source program, e.g. tests/var_1.rkt\n" ++
    "\noptions:\n" ++
    "  -h, --help           show this help message and exit\n" ++
    "  --compiler COMPILER  module:attribute of the compiler\n" ++
    "  --trace              print every intermediate program\n"
  positionals := [⟨"source", false, .text⟩]
  flags := [helpFlag, compilerFlag, traceFlag]

/-- Compiles the source file with the compiler that `load` finds. -/
def run (load : Loader) (args : List String) : Job Exit :=
  withSettings grammar args fun s => do
    applyTrace s
    reporting do
      let passes ← load.passes s.compiler
      let output ← Build.compileFile passes (s.text "source") Check.readProgram none
      Job.print ("wrote " ++ output)
      return .normal

end PassCheck.Command.Compile
