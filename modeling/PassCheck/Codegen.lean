/-
Small tools of code generation: rounding a size up to an alignment, and the name of a symbol on a
platform.
-/
import PassCheck.Datum.Basic
import PassCheck.Failure
import PassCheck.Template

namespace PassCheck.Codegen

/-- The number of an operand, or the failure that it is none. -/
def operand (d : Datum) : Except Failure Number :=
  match d.number? with
  | some n => .ok n
  | none => .error .badType

/-- The result of an arithmetic operation, or the failure that it is too large. -/
def fits (r : Option Number) : Except Failure Number :=
  match r with
  | some n => .ok n
  | none => .error .overflow

/-- The remainder of a size. A text has none: it is a template, and filling it in makes no
number. -/
def remainder (n : Datum) (a : Number) : Except Failure Number :=
  match n with
  | .str template => do
    Template.check template a
    throw .badType
  | n => do
    let m ← operand n
    fits (m.mod a)

/-- The least multiple of `alignment` that is not below `n`; a multiple is handed back as it is. -/
def align (n alignment : Datum) : Except Failure Datum := do
  let a ← operand alignment
  if a.atMost (.int 0) then
    let t ← written alignment.display?
    throw (.badValue (some ("error in align, alignment must be positive: " ++ t)))
  let r ← remainder n a
  if r.same (.int 0) then return n
  let m ← operand n
  let gap ← fits (a.sub r)
  return .ofNumber (← fits (m.add gap))

/-- The name of a symbol: one platform puts an underscore in front. -/
def labelName (name : String) (platform : Option String) : String :=
  if platform = some "darwin" then "_" ++ name else name

end PassCheck.Codegen
