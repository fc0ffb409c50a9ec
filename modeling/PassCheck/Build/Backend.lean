/-
Backends: what turns an assembly file into an executable and runs it. One starts the tools of the
system; one is a simulated machine that knows a single instruction; one follows a script.
-/
import PassCheck.Datum.Equality
import PassCheck.Text.After
import PassCheck.World.Basic

namespace PassCheck

/-- A backend. Running gives an exit code. The runtime is handed on as it is given. -/
structure Backend where
  link : (assembly : String) → (runtime : Datum) → Job String
  run : (executable inputPath : String) → Job Datum

/-! ## The tools of the system -/

/-- A compiler command: its name, its flags and the executable it makes. -/
structure Toolchain where
  command : String
  flags : List String
  executable : String
deriving DecidableEq, Inhabited

namespace Toolchain

/-- The toolchain that is used when no other is given. -/
def standard : Toolchain := ⟨"gcc", ["-g", "-std=c99"], "a.out"⟩

/-- The command that links an assembly file with the runtime. -/
def linkCommand (t : Toolchain) (assembly : String) (runtime : Datum) : List Datum :=
  (t.command :: t.flags).map .str ++ [runtime, .str assembly, .str "-o", .str t.executable]

/-- The report of a link command that did not succeed. -/
def linkFailure (command : List Datum) (code : Datum) : Failure :=
  .report (.externalTool (.list command) code)

/-- Starts a command by the texts of its parts. -/
def start (command : List Datum) : Job Datum := do
  Job.startTool (← Job.lift (commandTexts command)) none

/-- Starts the link command. -/
def startLink (command : List Datum) : Job Datum := fun w =>
  match start command w with
  | (.error e, w') =>
    (.error (if e.isSystem then linkFailure command .null else e), w')
  | r => r

/-- Links an assembly file; only exit code 0 is a success. -/
def link (t : Toolchain) (assembly : String) (runtime : Datum) : Job String := do
  let command := t.linkCommand assembly runtime
  let code ← startLink command
  if code.same (.int 0) then return t.executable else throw (linkFailure command code)

/-- An executable without a directory is looked for in the working directory. -/
def located (executable : String) : String :=
  if Path.dir executable = "" then Path.join "." executable else executable

/-- Runs an executable, on its input file when there is one. The file is handed on as it is. -/
def run (executable : String) (inputPath : Option String) : Job Datum := do
  let command := [located executable]
  match inputPath with
  | none => Job.startTool command none
  | some path =>
    if (← get).files.present path then
      let content ← Job.readBytes path
      Job.startTool command (some content.data.toList)
    else Job.startTool command none

/-- The backend of a toolchain. -/
def backend (t : Toolchain) : Backend where
  link := t.link
  run := fun executable inputPath => run executable (some inputPath)

end Toolchain

/-! ## The simulated machine -/

namespace Machine

/-- The numeral of an instruction that starts here: a move of a constant to the result register. -/
def numeralHere? (cs : List Char) : Option (List Char) := do
  let cs ← Text.after? "movq $".toList cs
  let (sign, cs) := match cs with
    | '-' :: cs => (['-'], cs)
    | cs => ([], cs)
  let digits := cs.takeWhile Text.isDigit
  if digits.isEmpty then none
  else do
    let _ ← Text.after? ", %rax".toList (cs.dropWhile Text.isDigit)
    return sign ++ digits

/-- The numeral of the first move to the result register. -/
def numeral? : List Char → Option (List Char)
  | [] => none
  | c :: cs =>
    match numeralHere? (c :: cs) with
    | some n => some n
    | none => numeral? cs

/-- The exit code of a program: the constant that it moves to the result register first. -/
def exitCode (program : List Char) : Except Failure Int :=
  match numeral? program with
  | none => .error .noAttribute
  | some n =>
    match Integer.ofText? (String.ofList n) with
    | some code => .ok code
    | none => .error (.badValue none)

/-- Loads an assembly file into the machine. -/
def link (assembly : String) (_runtime : Datum) : Job String := do
  let text ← Job.readText assembly
  modify fun w => { w with loaded := text }
  return assembly ++ ".out"

/-- Runs the program that is loaded. -/
def run (executable inputPath : String) : Job Datum := do
  Job.noteCall (.run executable inputPath)
  let code ← Job.lift (exitCode (← get).loaded)
  return .int code

/-- The simulated machine as a backend. -/
def backend : Backend := ⟨link, run⟩

end Machine

/-! ## The scripted backend -/

/-- A backend that follows a script: linking may fail, and runs take the outcomes the world holds
ready. -/
structure Scripted where
  linkFails : Bool
  executable : Option String
deriving DecidableEq, Inhabited

namespace Scripted

/-- The exit code of a test that passes. -/
def success : Int := 42

/-- Notes the link and answers as the script says. -/
def link (s : Scripted) (assembly : String) (runtime : Datum) : Job String := do
  Job.noteCall (.link assembly runtime)
  if s.linkFails then
    throw (.report (.externalTool (.list [.str "ld", .str assembly]) (.int 1)))
  return s.executable.getD (assembly ++ ".out")

/-- Notes the run and gives the next answer of the script. -/
def run (executable inputPath : String) : Job Datum := do
  Job.noteCall (.run executable inputPath)
  let next := (← get).runs.head?
  modify fun w => { w with runs := w.runs.tail }
  match next with
  | none => return .int success
  | some (.exits code) => return code
  | some .cannotStart => throw .system

/-- The script as a backend. -/
def backend (s : Scripted) : Backend := ⟨s.link, run⟩

end Scripted

end PassCheck
