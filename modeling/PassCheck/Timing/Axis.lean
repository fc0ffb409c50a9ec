/-
Axes of a plot. An axis shows the finite numbers it is given with a margin on both sides, and has
ticks at round places: the multiples of a step of one, two, two and a half or five units of some
power of ten. All of it is computed in floating-point numbers, so a tick may miss the round place
by a little.
-/
import PassCheck.Failure
import PassCheck.Number.Shortest

namespace PassCheck.Timing

/-- The part of an axis between two numbers. -/
structure Range where
  lo : Floating
  hi : Floating
deriving DecidableEq, Inhabited

namespace Range

/-- The range of both signs of a number. -/
def around (x : Floating) : Range := ⟨x.neg, x⟩

/-- The larger size of the two ends. -/
def size (r : Range) : Floating := if r.lo.abs.below r.hi.abs then r.hi.abs else r.lo.abs

/-- The distance of the ends. -/
def width (r : Range) : Floating := r.hi.sub r.lo

/-- Whether both ends are finite. -/
def isFinite (r : Range) : Bool := r.lo.isFinite && r.hi.isFinite

/-- The smallest number of full precision. -/
def leastNormal : Floating := .exact (mkRat 1 (Nat.pow 2 1022))

/-- Whether a range is so close to zero that nothing in it can be told apart. -/
def isNil (tiny : Floating) (r : Range) : Bool :=
  r.size.below ((Floating.div (.exact 1000000) tiny).mul leastNormal)

/-- A range with room in it. One that is not finite or too close to zero is replaced, and one that
is too narrow for its size, by the factor `tiny`, is widened by the factor `spread`. -/
def roomy (spread tiny : Floating) (r : Range) : Range :=
  if !r.isFinite || r.isNil tiny then around spread
  else if r.width.atMost (r.size.mul tiny) then
    ⟨r.lo.sub (spread.mul r.lo.abs), r.hi.add (spread.mul r.hi.abs)⟩
  else r

/-- Whether a range shows a number, up to a small part of its width. -/
def shows (r : Range) (x : Floating) : Bool :=
  let slack := r.width.mul (Floating.ofDecimal 1 (-10))
  (r.lo.sub slack).atMost x && x.atMost (r.hi.add slack)

end Range

namespace Axis

/-- The smaller of two numbers. -/
def lower (x y : Floating) : Floating := if y.below x then y else x

/-- The larger of two numbers. -/
def upper (x y : Floating) : Floating := if x.below y then y else x

/-- The range of the finite ones of some numbers. -/
def extent? (xs : List Floating) : Option Range :=
  match xs.filter Floating.isFinite with
  | [] => none
  | x :: xs => some ⟨xs.foldl lower x, xs.foldl upper x⟩

/-- The part of the width that is added at each end. -/
def margin : Floating := Floating.ofDecimal 5 (-2)

/-- The range that shows some numbers. There is no margin when it has no finite width. -/
def limits (xs : List Floating) : Range :=
  match extent? xs with
  | none => widenedBy (Range.around margin)
  | some r => widenedBy (r.roomy margin (Floating.ofDecimal 1 (-15)))
where
  /-- A range with the margin added at both ends. -/
  widenedBy (r : Range) : Range :=
    let room := r.width.mul margin
    let room := if room.isFinite then room else .exact 0
    Range.roomy (Floating.ofDecimal 1 (-12)) (Floating.ofDecimal 1 (-13))
      ⟨r.lo.sub room, r.hi.add room⟩

/-! ## Ticks -/

/-- The most parts that ticks divide a range into. -/
def parts : Floating := .exact 9

/-- The power of ten below a positive number. -/
def decade (q : Rat) : Floating :=
  Floating.ofDecimal 1 (Floating.leading q.num.natAbs q.den)

/-- The steps to choose from, in units of a power of ten. -/
def steps : List Floating :=
  ["0.1", "0.2", "0.25", "0.5", "1", "2", "2.5", "5", "10", "20"].filterMap Floating.ofText?

/-- The exact value of a finite number. -/
def exact (x : Floating) : Except Failure Rat :=
  match x.unsigned with
  | .exact q => .ok q
  | _ => .error (.badValue none)

/-- What ticks count from: zero, unless the range is far from zero for its width. -/
def offset (mean width : Rat) : Floating :=
  if mean.num = 0 || mean.abs / width < 100 then .exact 0
  else if mean.num < 0 then (decade mean.abs).neg else decade mean

/-- How close to a multiple of the step a number must be to count as one, in parts of the step. A
large offset leaves fewer digits to tell them apart. -/
def closeness (offset step : Rat) : Rat :=
  let lost := offset.abs / step * mkRat 1 (Nat.pow 10 12)
  if mkRat 4999 10000 < lost then mkRat 4999 10000
  else if mkRat 1 (Nat.pow 10 10) < lost then lost
  else mkRat 1 (Nat.pow 10 10)

/-- The largest number of steps up to a number. -/
def stepsUpTo (close step x : Rat) : Int :=
  let d := (x / step).floor
  if (x / step - d - 1).abs < close then d + 1 else d

/-- The least number of steps that reach a number. -/
def stepsToReach (close step x : Rat) : Int :=
  let d := (x / step).floor
  if (x / step - d).abs < close then d else d + 1

/-- The multiples of a step that span a range. -/
def multiples (r : Range) (offset step : Floating) : Except Failure (List Floating) := do
  let lo ← exact r.lo
  let unit ← exact step
  let base := (Floating.round (lo / unit).floor).mul step
  let close := closeness (← exact offset) unit
  let first := stepsUpTo close unit (← exact (r.lo.sub base))
  let last := stepsToReach close unit (← exact (r.hi.sub base))
  return (List.range (last + 1 - first).toNat).map fun (i : Nat) =>
    ((Floating.exact ((first + i : Int) : Rat)).mul step).add base

/-- The multiples of the first of some steps that puts at least two of them into a range, or of the
last step. -/
def firstFit (r : Range) (offset : Floating) : List Floating → Except Failure (List Floating)
  | [] => .ok []
  | step :: steps => do
    let ticks ← multiples r offset step
    let shown := ticks.filter fun t => r.lo.atMost t && t.atMost r.hi
    if steps.isEmpty || 2 ≤ shown.length then return ticks else firstFit r offset steps

/-- The steps to try: the least one that gives few enough parts, then smaller ones. -/
def candidates (scale least : Floating) : List Floating :=
  let steps := steps.map (·.mul scale)
  let small := steps.takeWhile fun s => !least.atMost s
  (steps.take (small.length + 1)).reverse

/-- The ticks of an axis that shows a range. There are none when the range is too wide to be
computed with. -/
def ticks (r : Range) : Except Failure (List Floating) := do
  let r := r.roomy (Floating.ofDecimal 1 (-13)) (Floating.ofDecimal 1 (-14))
  let width ← exact r.width.abs
  let mean ← exact (r.hi.add r.lo).half
  let offset := offset mean width
  let part ← exact ((Floating.exact width).div parts)
  let inner : Range := ⟨r.lo.sub offset, r.hi.sub offset⟩
  let found ← firstFit inner offset (candidates (decade part) (inner.width.div parts))
  return found.map (·.add offset)

/-- Checks that the numbers of an axis can be drawn: its range and its ticks must be finite. -/
def check (xs : List Floating) : Except Failure Unit := do
  let found ← ticks (limits xs)
  if found.all Floating.isFinite then return () else throw .overflow

end Axis

end PassCheck.Timing
