/-
Everything that can go wrong, as causes. `Report` is the family of failures that the checker itself
raises; they keep the values they speak about. The wording stands in `message?`.
-/
import PassCheck.Datum.Literal
import PassCheck.Sexp.Reader

namespace PassCheck

/-- Why a compiler could not be imported. -/
inductive ImportFault where
  /-- No module of this name. -/
  | noModule (text : String)
  /-- The module lacks the attribute. -/
  | noAttribute (text : String)
deriving DecidableEq, Inhabited

/-- The wording of an import fault. -/
def ImportFault.text : ImportFault → String
  | .noModule t => t
  | .noAttribute t => t

/-- The reason a compiler could not be loaded: a value that says so, or an import fault. -/
inductive Reason where
  | given (d : Datum)
  | fault (f : ImportFault)
deriving Inhabited

/-- A failure of the checker's own family. -/
inductive Report where
  | general (args : List Datum)
  | lookup (key : Datum)
  | dispatch (value : Datum)
  | mismatch (compiler pass expected actual program : Datum)
  | nonTextual (source value : Datum)
  | externalTool (command code : Datum)
  | exitCode (test code : Datum)
  | load (spec : Datum) (reason : Reason)
deriving Inhabited

/-- What a computation can fail with. -/
inductive Failure where
  | report (r : Report)
  | unreadable (e : Sexp.ReadError)
  /-- A failure that only has a message. -/
  | plain (message : String)
  /-- A value of the right kind that cannot be used. -/
  | badValue (message : Option String)
  /-- A value of the wrong kind, or a wrong number of arguments. -/
  | badType
  | noKey
  | noIndex
  | noAttribute
  | endOfInput
  /-- Bytes that are no text. -/
  | undecodable
  | noFile
  | isDirectory
  | notDirectory
  /-- Something stands where a directory was to be made. -/
  | fileExists
  /-- Any other failure of the operating system. -/
  | system
  /-- A number too large for the arithmetic asked for. -/
  | overflow
  /-- A text too long to be made. -/
  | outOfMemory
deriving Inhabited

namespace Failure

/-- An integer of too many digits was to be written. -/
def longInteger : Failure := .badValue none

/-- Whether the operating system refused something. -/
def isSystem : Failure → Bool
  | .noFile | .isDirectory | .notDirectory | .fileExists | .system => true
  | _ => false

end Failure

/-- The text of a value, or the failure that it has none. -/
def written (text? : Option String) : Except Failure String :=
  match text? with
  | some t => .ok t
  | none => .error .longInteger

/-! ## Wording -/

/-- The wording of a read error. -/
def Sexp.ReadError.message : Sexp.ReadError → String
  | .unexpectedEnd => "error in parse, unexpected end of input"
  | .missing b => "error in parse, missing " ++ String.ofList [b.closing]
  | .mismatch expected found =>
    "error in parse, expected " ++ String.ofList [expected.closing] ++ " not " ++
      String.ofList [found.closing]
  | .unbalanced b => "error in parse, unbalanced " ++ String.ofList [b.closing]
  | .longInteger digits =>
    "Exceeds the limit (" ++ Nat.repr Integer.digitLimit ++
      " digits) for integer string conversion: value has " ++ Nat.repr digits ++
      " digits; use sys.set_int_max_str_digits() to increase the limit"
  | .count n => "error in read_sexp, expected one datum, found " ++ Nat.repr n
  | .programCount path n =>
    "error in read_program, " ++ path ++ ": expected one expression, found " ++ Nat.repr n

/-- The failure of a text that cannot be read. -/
def Failure.ofRead : Sexp.ReadError → Failure
  | .longInteger _ => .longInteger
  | e => .unreadable e

/-- The display texts of the parts of a command. -/
def commandTexts : List Datum → Except Failure (List String)
  | [] => .ok []
  | d :: ds => do
    let t ← written d.display?
    let ts ← commandTexts ds
    return t :: ts

namespace Report

/-- The wording of a report. It fails when a value in it cannot be written. -/
def message? : Report → Except Failure String
  | .general [] => .ok ""
  | .general [arg] => written arg.display?
  | .general args => written (Datum.tuple args).literal?
  | .lookup key => do
    let k ← written key.literal?
    return "lookup failed, key not found: " ++ k
  | .dispatch value => do
    let v ← written value.literal?
    return "dispatch failed, no handler for: " ++ v
  | .mismatch compiler pass expected actual _ => do
    let c ← written compiler.display?
    let p ← written pass.display?
    let e ← written expected.literal?
    let a ← written actual.literal?
    return "compiler " ++ c ++ ", pass " ++ p ++ ": expected " ++ e ++ ", not " ++ a
  | .nonTextual source value => do
    let s ← written source.display?
    return "compiling " ++ s ++ " did not produce assembly text, got " ++ value.kindName
  | .externalTool command code =>
    match command.visit? with
    | none => .error .badType
    | some parts => do
      let ts ← commandTexts parts
      let c := " ".intercalate ts
      match code with
      | .null => return "could not run: " ++ c
      | code => return c ++ " failed with exit code " ++ (← written code.display?)
  | .exitCode test .null => do
    let t ← written test.display?
    return "test " ++ t ++ " failed, binary could not be run"
  | .exitCode test code => do
    let t ← written test.display?
    let c ← written code.display?
    return "test " ++ t ++ " failed, exit code " ++ c
  | .load spec (.given reason) => do
    let s ← written spec.display?
    let r ← written reason.display?
    return "could not load compiler " ++ s ++ ": " ++ r
  | .load spec (.fault f) => do
    let s ← written spec.display?
    return "could not load compiler " ++ s ++ ": " ++ f.text

/-- The text of a report as far as it can be written. -/
def text (r : Report) : String :=
  match r.message? with
  | .ok m => m
  | .error _ => "a value cannot be written"

/-- The fields of a report; a reason that is an import fault is kept as such. -/
def fields : Report → List (String × Reason)
  | .general _ => []
  | .lookup key => [("key", .given key)]
  | .dispatch value => [("value", .given value)]
  | .mismatch compiler pass expected actual program =>
    [("compiler_name", .given compiler), ("pass_name", .given pass), ("expected", .given expected),
      ("actual", .given actual), ("program", .given program)]
  | .nonTextual source value => [("source", .given source), ("value", .given value)]
  | .externalTool command code => [("command", .given command), ("returncode", .given code)]
  | .exitCode test code => [("test_name", .given test), ("exit_code", .given code)]
  | .load spec reason => [("spec", .given spec), ("reason", reason)]

/-- The arguments a report was made of; the program of a mismatch is not among them. -/
def args : Report → List Reason
  | .general args => args.map .given
  | .lookup key => [.given key]
  | .dispatch value => [.given value]
  | .mismatch compiler pass expected actual _ =>
    [.given compiler, .given pass, .given expected, .given actual]
  | .nonTextual source value => [.given source, .given value]
  | .externalTool command code => [.given command, .given code]
  | .exitCode test code => [.given test, .given code]
  | .load spec reason => [.given spec, reason]

/-! ## Making reports -/

/-- The kinds of reports. -/
inductive Kind where
  | general
  | lookup
  | dispatch
  | mismatch
  | nonTextual
  | externalTool
  | exitCode
  | load
deriving DecidableEq, Inhabited

/-- The kind of a report. -/
def kind : Report → Kind
  | .general _ => .general
  | .lookup _ => .lookup
  | .dispatch _ => .dispatch
  | .mismatch .. => .mismatch
  | .nonTextual .. => .nonTextual
  | .externalTool .. => .externalTool
  | .exitCode .. => .exitCode
  | .load .. => .load

/-- Makes a report from arguments. The program of a mismatch and the code of a tool failure may be
left out; any other number of arguments is refused. -/
def Kind.make : Kind → List Datum → Except Failure Report
  | .general, args => .ok (.general args)
  | .lookup, [key] => .ok (.lookup key)
  | .dispatch, [value] => .ok (.dispatch value)
  | .mismatch, [c, p, e, a] => .ok (.mismatch c p e a .null)
  | .mismatch, [c, p, e, a, program] => .ok (.mismatch c p e a program)
  | .nonTextual, [source, value] => .ok (.nonTextual source value)
  | .externalTool, [command] => .ok (.externalTool command .null)
  | .externalTool, [command, code] => .ok (.externalTool command code)
  | .exitCode, [test, code] => .ok (.exitCode test code)
  | .load, [spec, reason] => .ok (.load spec (.given reason))
  | _, _ => .error .badType

end Report

/-- A failure in one line, for a reader. -/
def Failure.text : Failure → String
  | .report r => r.text
  | .unreadable e => e.message
  | .plain message => message
  | .badValue (some message) => message
  | .badValue none => "a value cannot be used"
  | .badType => "a value of the wrong kind"
  | .noKey => "no such key"
  | .noIndex => "no such index"
  | .noAttribute => "no such attribute"
  | .endOfInput => "end of input"
  | .undecodable => "bytes that are no text"
  | .noFile => "no such file"
  | .isDirectory => "a directory stands in place of a file"
  | .notDirectory => "a file stands in place of a directory"
  | .fileExists => "a file stands where a directory was to be made"
  | .system => "the operating system refused"
  | .overflow => "a number is too large"
  | .outOfMemory => "a text is too long"

end PassCheck
