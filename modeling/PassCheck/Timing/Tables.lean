/-
Tables: what a summary asks of a library of tables, and the library that the program runs with. Rows
are grouped by a column of keys, in order of first appearance, and a column of numbers has a median.
-/
import PassCheck.Number.Floating
import PassCheck.Timing.Select

namespace PassCheck.Timing

/-- A library of tables. -/
structure Tables where
  /-- The groups of equal keys in a column of keys, each with the positions of its rows. -/
  groups : {κ : Type} → [DecidableEq κ] → List κ → List (κ × List Nat)
  /-- The median of a column of numbers. -/
  median : List Floating → Floating

/-! ## Groups -/

/-- The positions of a key in a column. -/
def positionsOf {κ : Type} [DecidableEq κ] (keys : List κ) (key : κ) : List Nat :=
  (List.range keys.length).filter fun i => keys[i]? = some key

/-- The keys of a column in order of first appearance, each with its positions. -/
def groupsOf {κ : Type} [DecidableEq κ] (keys : List κ) : List (κ × List Nat) :=
  keys.eraseDups.map fun key => (key, positionsOf keys key)

/-! ## Medians -/

/-- The exact values of numbers, when all of them have one; the negative zero has none. -/
def exactValues? : List Floating → Option (List Rat)
  | [] => some []
  | .exact q :: xs => (exactValues? xs).map (q :: ·)
  | _ :: _ => none

/-- The middle value of values in increasing order and the one before it, which is the same when
their number is odd. -/
def middles? (qs : List Rat) : Option (Rat × Rat) := do
  let sorted := qs.mergeSort fun p q => p ≤ q
  let upper ← sorted[sorted.length / 2]?
  let lower ← sorted[(sorted.length - 1) / 2]?
  return (lower, upper)

/-- The number halfway between two values. Their sum must be a number of the format. -/
def midpoint (p q : Rat) : Floating :=
  match Floating.round (p + q) with
  | .infinite negative => .infinite negative
  | _ => .exact ((p + q) / 2)

/-- The median of exact values. -/
def exactMedian (qs : List Rat) : Floating :=
  match middles? qs with
  | none => .undefined
  | some (p, q) => if qs.length % 2 = 1 then .exact q else midpoint p q

/-- The median of numbers that have infinities or negative zeros among them, by selection. -/
def selectedMedian (xs : List Floating) : Floating :=
  let (upper, ys) := Select.nth Floating.below (xs.length / 2) xs.toArray
  if xs.length % 2 = 1 then upper
  else (upper.add (Select.nth Floating.below (xs.length / 2 - 1) ys).1).half

/-- The median: the middle number, or the midpoint of the two middle ones. NaN does not count. -/
def medianOf (xs : List Floating) : Floating :=
  let ys := xs.filter fun x => !x.isNan
  match exactValues? ys with
  | some qs => exactMedian qs
  | none => selectedMedian ys

/-- The library that the program runs with. -/
def Tables.standard : Tables := ⟨groupsOf, medianOf⟩

end PassCheck.Timing
