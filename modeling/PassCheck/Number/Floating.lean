/-
Binary floating-point numbers of 64 bits, kept by their exact value. Arithmetic is exact and then
rounded once to the nearest number of the format, a tie going to the even significand.
-/
namespace PassCheck

/-- A floating-point number: a finite one is its exact value, and the negative zero stands apart.
Every NaN that is read or computed has a mark of its own, which tells it from the others. -/
inductive Floating where
  | nan (mark : Nat)
  | infinite (negative : Bool)
  | negZero
  | exact (q : Rat)
deriving DecidableEq, Inhabited

namespace Floating

/-! ## Rounding -/

/-- The quotient of two naturals to the nearest natural, a tie going to the even one. -/
def roundDiv (n d : Nat) : Nat :=
  let q := n / d
  let r := n % d
  if 2 * r < d then q
  else if d < 2 * r then q + 1
  else if q % 2 = 0 then q else q + 1

/-- `n / d · 2^(-e)` as a fraction of naturals. -/
def scaled (n d : Nat) (e : Int) : Nat × Nat :=
  if 0 ≤ e then (n, d * Nat.pow 2 e.toNat) else (n * Nat.pow 2 (-e).toNat, d)

/-- The exponent of the last significand bit of `n / d`, at least that of the smallest number. -/
def lastBit (n d : Nat) : Int :=
  let e : Int := (n.log2 : Int) - (d.log2 : Int) - 52
  let (a, b) := scaled n d e
  max (if a / b < Nat.pow 2 52 then e - 1 else e) (-1074)

/-- Significand and exponent of the number nearest to the positive fraction `n / d`. -/
def nearest (n d : Nat) : Nat × Int :=
  let e := lastBit n d
  let (a, b) := scaled n d e
  (roundDiv a b, e)

/-- The value `m · 2^e`. -/
def dyadic (m : Nat) (e : Int) : Rat :=
  if 0 ≤ e then ((m * Nat.pow 2 e.toNat : Nat) : Rat) else mkRat m (Nat.pow 2 (-e).toNat)

/-- The number nearest to a rational; beyond the largest number it is infinite. -/
def round (q : Rat) : Floating :=
  if q.num = 0 then .exact 0
  else
    let (m, e) := nearest q.num.natAbs q.den
    if m = 0 then (if q.num < 0 then .negZero else .exact 0)
    else if Nat.pow 2 2098 ≤ m * Nat.pow 2 (e + 1074).toNat then .infinite (q.num < 0)
    else if q.num < 0 then .exact (-(dyadic m e)) else .exact (dyadic m e)

/-- The number nearest to a value that may lie between two numbers. -/
def rounded : Floating → Floating
  | .exact q => round q
  | x => x

/-! ## Order and sign -/

/-- The number with the negative zero taken for zero. -/
def unsigned : Floating → Floating
  | .negZero => .exact 0
  | x => x

/-- Whether a number is a NaN. -/
def isNan : Floating → Bool
  | .nan _ => true
  | _ => false

/-- Equality of values: NaN equals nothing, the two zeros are equal. -/
def same (x y : Floating) : Bool := !x.isNan && x.unsigned == y.unsigned

/-- Whether two numbers cannot be told apart in a collection: they are equal, or they are the very
same NaN. -/
def alike (x y : Floating) : Bool := x.unsigned == y.unsigned

/-- Strict order of values: NaN is not below and has nothing below it. -/
def below (x y : Floating) : Bool :=
  match x.unsigned, y.unsigned with
  | .nan _, _ | _, .nan _ => false
  | .infinite true, y => y != .infinite true
  | x, .infinite false => x != .infinite false
  | .exact p, .exact q => decide (p < q)
  | _, _ => false

/-- Whether the sign bit is set. -/
def isNegative : Floating → Bool
  | .nan _ => false
  | .infinite n => n
  | .negZero => true
  | .exact q => decide (q.num < 0)

/-- Whether a number is neither infinite nor a NaN. -/
def isFinite : Floating → Bool
  | .nan _ | .infinite _ => false
  | _ => true

/-- The number with its sign changed. -/
def neg : Floating → Floating
  | .nan m => .nan m
  | .infinite n => .infinite (!n)
  | .negZero => .exact 0
  | .exact q => if q.num = 0 then .negZero else .exact (-q)

/-- The number without its sign. -/
def abs (x : Floating) : Floating := if x.isNegative then x.neg else x

/-- Whether a number is not above another; NaN is not comparable. -/
def atMost (x y : Floating) : Bool := x.below y || x.same y

/-! ## Arithmetic

A result that is no number gets the mark zero; whoever keeps the result gives it one of its own. -/

/-- The result of an operation that has none. -/
def undefined : Floating := .nan 0

/-- The rounded sum. Infinities of different signs have none; zeros give zero unless both are
negative. -/
def add (x y : Floating) : Floating :=
  match x, y with
  | .nan _, _ | _, .nan _ => undefined
  | .infinite a, .infinite b => if a == b then .infinite a else undefined
  | .infinite a, _ | _, .infinite a => .infinite a
  | .negZero, .negZero => .negZero
  | .negZero, y => y
  | x, .negZero => x
  | .exact p, .exact q => round (p + q)

/-- The rounded difference. -/
def sub (x y : Floating) : Floating := add x y.neg

/-- The rounded product; its sign is negative when exactly one factor is. -/
def mul (x y : Floating) : Floating :=
  let negative := x.isNegative != y.isNegative
  match x.unsigned, y.unsigned with
  | .nan _, _ | _, .nan _ => undefined
  | .infinite _, .exact q | .exact q, .infinite _ =>
    if q.num = 0 then undefined else .infinite negative
  | .exact p, .exact q =>
    if p.num = 0 || q.num = 0 then (if negative then .negZero else .exact 0) else round (p * q)
  | _, _ => .infinite negative

/-- A zero with a sign. -/
def zero (negative : Bool) : Floating := if negative then .negZero else .exact 0

/-- The rounded quotient; its sign is negative when exactly one part is. Division by zero gives an
infinity. -/
def div (x y : Floating) : Floating :=
  let negative := x.isNegative != y.isNegative
  match x.unsigned, y.unsigned with
  | .exact p, .exact q =>
    if q.num = 0 then (if p.num = 0 then undefined else .infinite negative)
    else if p.num = 0 then zero negative
    else round (p / q)
  | .exact _, .infinite _ => zero negative
  | .infinite _, .exact _ => .infinite negative
  | _, _ => undefined

/-- Half of a number. -/
def half (x : Floating) : Floating := mul x (.exact (mkRat 1 2))

/-- The remainder with the sign of the divisor; the divisor is not zero. -/
def mod (x y : Floating) : Floating :=
  match x.unsigned, y.unsigned with
  | .exact p, .exact q =>
    let t := p - q * ((p / q).num.tdiv (p / q).den : Int)
    if t.num = 0 then (if q.num < 0 then .negZero else .exact 0)
    else if decide (t.num < 0) != decide (q.num < 0) then add (.exact t) (.exact q)
    else .exact t
  | .exact p, .infinite n =>
    if p.num = 0 then (if n then .negZero else .exact 0)
    else if decide (p.num < 0) != n then .infinite n else .exact p
  | _, _ => undefined

end Floating

end PassCheck
