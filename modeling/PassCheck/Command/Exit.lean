/-
How a command ends: normally, with a code, or with a message. Reports of the checker end it with a
message; any other failure is not handled.
-/
import PassCheck.Command.Options
import PassCheck.Pass.Basic

namespace PassCheck.Command

/-- How a command ends. -/
inductive Exit where
  | normal
  | code (n : Nat)
  | message (text : String)
deriving DecidableEq, Inhabited

/-- Ends a command with the message of a report. -/
def reporting (job : Job Exit) : Job Exit := fun w =>
  match job w with
  | (.error (.report r), w') => (r.message?.map fun m => .message ("Error: " ++ m), w')
  | r => r

/-- Reads a command line and runs a command with what it gives. Help goes to standard output with
code 0; a wrong command line leads to the usage and code 2. -/
def withSettings (g : Grammar) (args : List String) (command : Settings → Job Exit) : Job Exit :=
  match g.parse args with
  | .ok settings => command settings
  | .error .help => do
    Job.putOut (g.usage ++ g.help)
    return .code 0
  | .error (.wrong message) => do
    Job.putErr (g.usage ++ g.program ++ ": error: " ++ message ++ "\n")
    return .code 2

/-- The option that asks for help. -/
def helpFlag : Flag := ⟨["-h", "--help"], .help⟩

/-- The option that names the compiler. -/
def compilerFlag : Flag := ⟨["--compiler"], .value .text⟩

/-- The compiler that is used when no other is given. -/
def defaultCompiler : String := "compiler:Compiler"

/-- The name of the compiler, as the command line gives it. -/
def Settings.compiler (s : Settings) : Datum := s.value "--compiler" (.str defaultCompiler)

/-- The name of the compiler, when it is a text. -/
def Settings.compilerName (s : Settings) : String :=
  match s.compiler with
  | .str name => name
  | _ => ""

/-- How a command finds the passes of a compiler. -/
abbrev Loader := String → Job (List (Pass Routine))

/-- The passes of the compiler that the command line names. A name must be a text. -/
def Loader.passes (load : Loader) (compiler : Datum) : Job (List (Pass Routine)) :=
  match compiler with
  | .str spec => load spec
  | _ => throw .noAttribute

/-- The option that switches tracing on. -/
def traceFlag : Flag := ⟨["--trace"], .switch⟩

/-- Switches tracing on when the command line asks for it. -/
def applyTrace (s : Settings) : Job Unit :=
  if s.given "--trace" then modify fun w => { w with tracer := { w.tracer with enabled := true } }
  else pure ()

end PassCheck.Command
