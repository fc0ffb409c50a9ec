/-
Measurements from the rows of a table that anything may stand in. Rows without the name of a test or
of a pass belong to no group and are left out; in the columns of numbers nothing is NaN.
-/
import PassCheck.Timing.Summary

namespace PassCheck.Timing

/-- A row of a table: a test, a pass, and what stands in the columns of numbers. -/
structure Record where
  test : String
  pass : String
  run : Datum
  runtime : Datum
deriving Inhabited

namespace Record

/-- A name; nothing and NaN are none. -/
def name? : Datum → Except Failure (Option String)
  | .str s => .ok (some s)
  | .null | .float (.nan _) => .ok none
  | _ => .error .badType

/-- The row that some cells make up. What is missing at their end is nothing. -/
def ofCells? (cells : List Datum) : Except Failure (Option Record) :=
  match cells ++ List.replicate rowColumns.length .null with
  | test :: pass :: run :: runtime :: _ => do
    match ← name? test, ← name? pass with
    | some t, some p => return some ⟨t, p, run, runtime⟩
    | _, _ => return none
  | _ => .ok none

/-- The rows of a table. The longest must have a cell in every column, and none beyond. -/
def ofTable (table : List (List Datum)) : Except Failure (List Record) :=
  let width := (table.map List.length).foldl max 0
  if table.isEmpty || width = rowColumns.length then
    return (← table.mapM ofCells?).filterMap id
  else .error (.badValue none)

/-- A cell in a column of numbers. -/
def number : Datum → Except Failure Floating
  | .null => .ok .undefined
  | d =>
    match d.number? with
    | none => .error .badType
    | some n =>
      match n.toFloating? with
      | some x => .ok x
      | none => .error .overflow

/-- The measurement in a row. -/
def row (r : Record) : Except Failure Row := do
  let _ ← number r.run
  return ⟨r.test, r.pass, (r.run.toInt?.getD 0).toNat, ← number r.runtime⟩

/-- Whether a value is an integer and no boolean. -/
def isInteger : Datum → Bool
  | .int _ => true
  | _ => false

/-- Whether a value is a floating-point number. -/
def isFloating : Datum → Bool
  | .float _ => true
  | _ => false

/-- Whether cells have no common kind of number: booleans go with integers, and with other numbers
only in their company. -/
def isMixed (cells : List Datum) : Bool :=
  cells.any Datum.isBool && cells.any isFloating && !cells.any isInteger

/-- Whether the numbers of a test and a pass have a common kind. -/
def isUniform (records : List Record) (test pass : String) : Bool :=
  let group := records.filter fun r => r.test == test && r.pass == pass
  !isMixed (group.map (·.run)) && !isMixed (group.map (·.runtime))

end Record

/-- The measurements of a table. -/
def rowsOf (table : List (List Datum)) : Except Failure (List Row) := do
  let records ← Record.ofTable table
  let rows ← records.mapM Record.row
  if records.all fun r => Record.isUniform records r.test r.pass then return rows
  else throw .badType

end PassCheck.Timing
