/-
The passes of the compiler for the tiny language: `shrink` removes subtraction, `fold` computes
constant parts, `codegen` writes the assembly of a folded program. `foldWrong` is a faulty `fold`
that is off by one.
-/
import PassCheck.Lint.Eval
import PassCheck.Sexp.Program

namespace PassCheck.Lint

open Sexp (program)

/-! ## Shrinking -/

mutual

/-- Writes `(- a b)` as `(+ a (- b))`, everywhere but in operator position. -/
def shrinkExp : Datum → Datum
  | .seq _ [.str "-", a, b] => .tuple [.str "+", shrinkExp a, .tuple [.str "-", shrinkExp b]]
  | .seq _ (op :: args) => .tuple (op :: shrinkAll args)
  | e => e
termination_by structural e => e

/-- `shrinkExp` on every argument. -/
def shrinkAll : List Datum → List Datum
  | [] => []
  | e :: es => shrinkExp e :: shrinkAll es
termination_by structural es => es

end

/-- Shrinks the body of a program; anything else becomes nothing. -/
def shrink : Datum → Datum
  | .seq _ [.str "Program", info, body] => program info (shrinkExp body)
  | _ => .null

/-! ## Folding -/

/-- The negation of a folded operand. -/
def foldNeg (a : Datum) : Datum :=
  match a.toInt? with
  | some n => .int (-n)
  | none => .tuple [.str "-", a]

/-- The sum of two folded operands. -/
def foldAdd (a b : Datum) : Datum :=
  match a.toInt?, b.toInt? with
  | some m, some n => .int (m + n)
  | _, _ => .tuple [.str "+", a, b]

/-- Computes negations and sums of integers. Booleans count as integers. -/
def foldExp : Datum → Datum
  | .seq _ [.str "-", a] => foldNeg (foldExp a)
  | .seq _ [.str "+", a, b] => foldAdd (foldExp a) (foldExp b)
  | e => e
termination_by structural e => e

/-- Folds the body of a program; anything else becomes nothing. -/
def fold : Datum → Datum
  | .seq _ [.str "Program", info, body] => program info (foldExp body)
  | _ => .null

/-- One more than a number. -/
def successor (d : Datum) : Except Failure Datum :=
  match d.number? with
  | none => .error .badType
  | some n =>
    match n.add (.int 1) with
    | some r => .ok (.ofNumber r)
    | none => .error .overflow

/-- Folds the body of a program and adds one to it. -/
def foldWrong : Datum → Job Datum
  | .seq _ [.str "Program", info, body] => do
    let e ← Job.lift (successor (foldExp body))
    return program info (← Job.stamp e)
  | _ => return .null

/-! ## Code generation -/

/-- The assembly of a program that returns the number written as `n`. -/
def assembly (n : String) : String :=
  "\t.globl main\nmain:\n\tmovq $" ++ n ++ ", %rax\n\tretq"

/-- The assembly of a folded program. -/
def codegen (p : Datum) : Job Datum :=
  match p with
  | .seq _ [.str "Program", _, .int n] => do
    return .str (assembly (← Job.written (Datum.int n).display?))
  | .seq _ [.str "Program", _, .bool b] => do
    return .str (assembly (← Job.written (Datum.bool b).display?))
  | p => reject "error in codegen, not folded: " p

end PassCheck.Lint
