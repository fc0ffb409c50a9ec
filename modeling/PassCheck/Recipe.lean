/-
A stock of routines that stand in for the parts of a compiler: the passes of the tiny language,
readers of the input, constants, sequences of prepared answers, and routines that only fail.
-/
import PassCheck.Lint.Passes
import PassCheck.Routine
import PassCheck.Sexp.Printer
import PassCheck.World.Trace

namespace PassCheck

/-- A stock routine. -/
inductive Recipe where
  | shrink
  | fold
  | codegen
  | foldWrong
  | interpret
  | identity
  | printSexp
  | listify
  | readInt
  | readLine
  | readAll
  /-- The pair of the argument with itself. -/
  | dup
  /-- The pair with its parts exchanged. -/
  | swap
  /-- The pair of the successor and the double. -/
  | succDouble
  /-- All arguments as a tuple. -/
  | args
  | none
  /-- Exactly two arguments as a tuple. -/
  | two
  | sum
  | const (value : Datum)
  /-- The argument behind a tag. -/
  | wrap (tag : Datum)
  /-- Writes a line and hands the argument on. -/
  | print (line : Datum)
  /-- Traces the argument under a label and hands it on. -/
  | trace (label : Datum)
  /-- Prepared answers, one per call; the last one repeats. The number tells sequences apart. -/
  | seq (id : Nat) (values : List Datum)
  | fail (failure : Failure)

namespace Recipe

/-- The item of a value at a small index. -/
def item (i : Nat) : Datum → Except Failure Datum
  | .seq _ items =>
    match items[i]? with
    | some d => .ok d
    | .none => .error .noIndex
  | .str s =>
    match s.toList[i]? with
    | some c => .ok (.str (String.ofList [c]))
    | .none => .error .noIndex
  | .dict entries =>
    match Datum.entry? (.int i) entries with
    | some d => .ok d
    | .none => .error .noKey
  | _ => .error .badType

/-- An arithmetic operation on two values. -/
def arith (op : Number → Number → Option Number) (a b : Datum) : Except Failure Datum :=
  match a.number?, b.number? with
  | some x, some y =>
    match op x y with
    | some r => .ok (.ofNumber r)
    | .none => .error .overflow
  | _, _ => .error .badType

/-- The sum of values, from the left. -/
def total : Datum → List Datum → Except Failure Datum
  | acc, [] => .ok acc
  | acc, d :: ds => do
    let acc ← arith Number.add acc d
    total acc ds

/-- The answer of a numbered sequence to its next call. -/
def nextOf (id : Nat) (values : List Datum) : Job Datum := do
  let k := ((← get).calls.lookup id).getD 0
  modify fun w => { w with calls := (id, k + 1) :: w.calls.filter fun e => e.1 != id }
  match values[min k (values.length - 1)]? with
  | some d => return d
  | .none => throw .noIndex

/-- The routine of a recipe. -/
def routine : Recipe → Routine
  | .shrink => Routine.unary fun d => return Lint.shrink d
  | .fold => Routine.unary fun d => return Lint.fold d
  | .codegen => Routine.unary Lint.codegen
  | .foldWrong => Routine.unary Lint.foldWrong
  | .interpret => Routine.unary Lint.interpret
  | .identity => Routine.unary fun d => return d
  | .printSexp => Routine.unary fun d => do return .str (← Job.written (Sexp.print? d))
  | .listify => Routine.unary fun d => return d.listify
  | .readInt => Routine.unary fun _ => do return .int (← Lint.readInt)
  | .readLine => Routine.unary fun _ => do return .str (String.ofList (← Job.readLine))
  | .readAll => Routine.unary fun _ => do return .str (String.ofList (← Job.readRest))
  | .dup => Routine.unary fun d => return .tuple [d, d]
  | .swap => Routine.pure fun d => do
    let second ← item 1 d
    let first ← item 0 d
    return .tuple [second, first]
  | .succDouble => Routine.unary fun d => do
    let succ ← Job.lift (arith Number.add d (.int 1))
    let double ← Job.lift (arith Number.mul d (.int 2))
    return .tuple [← Job.stamp succ, ← Job.stamp double]
  | .args => fun ds => return .tuple ds
  | .none => fun _ => return .null
  | .two => fun ds => if ds.length = 2 then return .tuple ds else throw .badType
  | .sum => fun ds => do Job.stamp (← Job.lift (total (.int 0) ds))
  | .const v => fun _ => return v
  | .wrap tag => Routine.unary fun d => return .tuple [tag, d]
  | .print line => Routine.unary fun d => do
    Job.print (← Job.written line.display?)
    return d
  | .trace label => Routine.unary fun d => do
    let t ← Tracer.choose .none
    t.trace label d
    return d
  | .seq id values => fun _ => nextOf id values
  | .fail failure => fun _ => throw failure

end Recipe

end PassCheck
