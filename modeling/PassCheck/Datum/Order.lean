/-
The order in which the keys of a dictionary are laid out: values that can be compared are, others
go by the name of their kind (no value first, then numbers, texts, tuples). With a NaN among the keys
this is no order, so the result depends on how the keys are sorted.
-/
import PassCheck.Datum.Equality

namespace PassCheck.Datum

/-- Order of two values the first of which is a number. -/
def lessNumber? (a b : Datum) : Option Bool := do
  let x ← a.number?
  let y ← b.number?
  return x.below y

mutual

/-- Strict order of two values; none when they cannot be compared. -/
def less? : Datum → Datum → Option Bool
  | .str a, .str b => some (decide (a < b))
  | .tuple as, .tuple bs => lessAll? as bs
  | .list as, .list bs => lessAll? as bs
  | .bool a, b => lessNumber? (.bool a) b
  | .int a, b => lessNumber? (.int a) b
  | .float a, b => lessNumber? (.float a) b
  | _, _ => none
termination_by structural d => d

/-- Lexicographic order; the first items that differ decide. -/
def lessAll? : List Datum → List Datum → Option Bool
  | [], [] => some false
  | [], _ :: _ => some true
  | _ :: _, [] => some false
  | a :: as, b :: bs => if alike a b then lessAll? as bs else less? a b
termination_by structural ds => ds

end

/-- Order of keys. A NaN is neither before nor after a number. -/
def keyLess (a b : Datum) : Bool :=
  match less? a b with
  | some r => r
  | none => decide (a.kindName < b.kindName)

end PassCheck.Datum
