/-
The world a computation runs in: files, standard input, a clock, outside tools that follow a script,
and everything written or called so far. A job runs in the world and may fail; what it did before it
failed stays done.
-/
import PassCheck.Text.Utf8
import PassCheck.World.Files

namespace PassCheck

/-- An input stream: the text that can be read, and whether bytes that are no text follow it. -/
structure Input where
  rest : List Char
  broken : Bool
deriving DecidableEq, Inhabited

namespace Input

/-- The stream over a text. -/
def ofText (cs : List Char) : Input := ⟨cs, false⟩

/-- The stream over the bytes of a file. A CR just before bytes that are no text may be half of a
line end, so it cannot be read. -/
def ofBytes (content : ByteArray) : Input :=
  match decodeText? content with
  | some cs => ofText cs
  | none =>
    let cs := Text.Utf8.readable content.data.toList
    ⟨Text.unifyNewlines (if cs.getLast? == some '\r' then cs.dropLast else cs), true⟩

end Input

/-- How far a clock moves on at each of its readings, in ticks. -/
structure Script where
  step : Nat → Rat
deriving Inhabited

/-- Steps that are followed over and over. -/
def Script.cycle (steps : List Int) : Script :=
  ⟨fun k => (steps.getD (k % steps.length) 0 : Int)⟩

instance : Coe (List Int) Script := ⟨Script.cycle⟩

/-- A clock that follows a script. Its unit is 1/64 second. -/
structure Clock where
  script : Script
  readings : Nat
  total : Rat
deriving Inhabited

/-- The ticks per second. -/
def Clock.rate : Nat := 64

/-- The clock after one more step. -/
def Clock.advance (c : Clock) : Clock :=
  ⟨c.script, c.readings + 1, c.total + c.script.step c.readings⟩

/-- What the clock shows: its total in seconds, as a floating-point number. -/
def Clock.shown (c : Clock) : Floating := Floating.round (c.total / rate)

/-- What happens when an outside tool or the executable of a scripted backend is started. -/
inductive Outcome where
  | exits (code : Datum)
  | cannotStart
deriving Inhabited

/-- A start of an outside tool: its command and the bytes of its input, if it was given one. -/
structure ToolCall where
  command : List String
  input : Option (List UInt8)
deriving DecidableEq, Inhabited

/-- A call of a backend that keeps a log. -/
inductive BackendCall where
  | link (assembly : String) (runtime : Datum)
  | run (executable input : String)
deriving Inhabited

/-- Prints labelled values when it is enabled, to one of the two output streams. -/
structure Tracer where
  enabled : Bool
  toErr : Bool
deriving DecidableEq, Inhabited

/-- One timed transform: the name of its pass and what the clock showed before and after it. -/
structure Lap where
  pass : String
  start : Floating
  stop : Floating
deriving DecidableEq, Inhabited

/-- The world. -/
structure World where
  files : Files
  input : Input
  clock : Clock
  /-- What the next tool starts lead to; after the last one every tool exits with code 0. -/
  tools : List Outcome
  out : String
  err : String
  toolCalls : List ToolCall
  backendCalls : List BackendCall
  /-- The tracer that is used when no other is given. -/
  tracer : Tracer
  /-- The transforms timed so far. -/
  laps : List Lap
  /-- The program that the simulated machine has loaded. -/
  loaded : List Char
  /-- What the next runs of a scripted backend lead to; after the last one every run succeeds. -/
  runs : List Outcome
  /-- How often each numbered sequence routine was called. -/
  calls : List (Nat × Nat)
  /-- The marks given to NaNs so far. -/
  marks : Nat
deriving Inhabited

/-- A world with the given files and nothing done yet. -/
def World.start (files : Files) : World where
  files := files
  input := .ofText []
  clock := ⟨Script.cycle [1], 0, 0⟩
  tools := []
  out := ""
  err := ""
  toolCalls := []
  backendCalls := []
  tracer := ⟨false, false⟩
  laps := []
  loaded := []
  runs := []
  calls := []
  marks := 0

/-- A computation in the world. -/
abbrev Job (α : Type) := ExceptT Failure (StateM World) α

namespace Job

/-- Runs a job in a world. -/
def run {α : Type} (job : Job α) (w : World) : Except Failure α × World := job w

/-- A job that only computes. -/
def lift {α : Type} (r : Except Failure α) : Job α := fun w => (r, w)

/-- The text of a value, or the failure that it has none. -/
def written (text? : Option String) : Job String := lift (PassCheck.written text?)

/-- Gives a NaN a mark of its own; any other value is handed back as it is. -/
def stamp : Datum → Job Datum
  | .float (.nan _) => do
    modify fun w => { w with marks := w.marks + 1 }
    return .float (.nan (← get).marks)
  | d => return d

/-! ## Output -/

/-- Writes a line to standard output. -/
def print (line : String) : Job Unit :=
  modify fun w => { w with out := w.out ++ line ++ "\n" }

/-- Writes a line to the error output. -/
def printErr (line : String) : Job Unit :=
  modify fun w => { w with err := w.err ++ line ++ "\n" }

/-- Writes a text to standard output. -/
def putOut (text : String) : Job Unit :=
  modify fun w => { w with out := w.out ++ text }

/-- Writes a text to the error output. -/
def putErr (text : String) : Job Unit :=
  modify fun w => { w with err := w.err ++ text }

/-! ## Input -/

/-- Reads a line of the input, without its line end. A line must end before bytes that are no
text. -/
def readLine : Job (List Char) := do
  let input := (← get).input
  if input.rest.contains '\n' || (!input.broken && !input.rest.isEmpty) then
    let (line, rest) := Text.takeLine input.rest
    modify fun w => { w with input := { input with rest := rest } }
    return line
  else throw (if input.broken then .undecodable else .endOfInput)

/-- Reads all of the input that is left. -/
def readRest : Job (List Char) := do
  let input := (← get).input
  if input.broken then throw .undecodable
  modify fun w => { w with input := .ofText [] }
  return input.rest

/-- Runs a job on another input and gives the old one back, whether the job fails or not. -/
def withInput {α : Type} (input : Input) (job : Job α) : Job α := fun w =>
  let (r, w') := job { w with input := input }
  (r, { w' with input := w.input })

/-! ## Files -/

/-- The bytes of a file. -/
def readBytes (path : String) : Job ByteArray := fun w => (w.files.read path, w)

/-- The text of a file, its line ends turned into LF. -/
def readText (path : String) : Job (List Char) := do
  match decodeText? (← readBytes path) with
  | some cs => return cs
  | none => throw .undecodable

/-- Writes a file. -/
def writeText (path text : String) : Job Unit := fun w =>
  match w.files.write path text.toUTF8 with
  | .ok files => (.ok (), { w with files := files })
  | .error e => (.error e, w)

/-! ## Clock and tools -/

/-- Reads the clock, which moves it on. A total beyond all floating-point numbers cannot be shown. -/
def readClock : Job Floating := do
  modify fun w => { w with clock := w.clock.advance }
  match (← get).clock.shown with
  | .infinite _ => throw .overflow
  | shown => return shown

/-- Notes a timed transform. -/
def noteLap (lap : Lap) : Job Unit :=
  modify fun w => { w with laps := w.laps ++ [lap] }

/-- Starts an outside tool, waits for it and gives its exit code. -/
def startTool (command : List String) (input : Option (List UInt8)) : Job Datum := do
  let next := (← get).tools.head?
  modify fun w =>
    { w with tools := w.tools.tail, toolCalls := w.toolCalls ++ [{ command, input }] }
  match next with
  | none => return .int 0
  | some (.exits code) => return code
  | some .cannotStart => throw .noFile

/-- Notes a call of a backend. -/
def noteCall (call : BackendCall) : Job Unit :=
  modify fun w => { w with backendCalls := w.backendCalls ++ [call] }

end Job

end PassCheck
