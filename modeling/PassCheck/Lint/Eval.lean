/-
A tiny integer language: integers, `(read)`, `(- e)`, `(+ e e)` and `(- e e)`. Forms may be tuples
or lists. `eval` gives an expression its meaning; `read` takes an integer from a line of the input.
-/
import PassCheck.World.Basic

namespace PassCheck.Lint

/-- Fails with a message that ends in the literal text of a value. -/
def reject {α : Type} (message : String) (d : Datum) : Job α := do
  let t ← Job.written d.literal?
  throw (.plain (message ++ t))

/-- Reads an integer from a line of the input. -/
def readInt : Job Int := do
  let line ← Job.readLine
  match Integer.ofText? (String.ofList line) with
  | some n => return n
  | none => throw (.badValue none)

/-- The value of an expression. Operands are evaluated from left to right. -/
def eval : Datum → Job Int
  | .int n => return n
  | .seq _ [.str "read"] => readInt
  | .seq _ [.str "-", a] => do
    let x ← eval a
    return -x
  | .seq _ [.str "+", a, b] => do
    let x ← eval a
    let y ← eval b
    return x + y
  | .seq _ [.str "-", a, b] => do
    let x ← eval a
    let y ← eval b
    return x - y
  | e => reject "error in interp_exp, unexpected: " e
termination_by structural e => e

/-- The result of a program: the value of its body. Anything else has no result. -/
def interpret : Datum → Job Datum
  | .seq _ [.str "Program", _, body] => do return .int (← eval body)
  | _ => return .null

end PassCheck.Lint
