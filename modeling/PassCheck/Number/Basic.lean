/-
Numbers as programs meet them: integers of any size and floating-point numbers, compared by exact
value. Mixed arithmetic is done in floating point.
-/
import PassCheck.Number.Floating

namespace PassCheck

/-- An integer or a floating-point number. -/
inductive Number where
  | int (n : Int)
  | float (x : Floating)
deriving DecidableEq, Inhabited

namespace Number

/-- The exact value, as a floating-point number without limits of size. -/
def value : Number → Floating
  | .int n => .exact (n : Rat)
  | .float x => x.unsigned

/-- Equality of values across the two kinds. -/
def same (a b : Number) : Bool := a.value.same b.value

/-- Strict order of values across the two kinds. -/
def below (a b : Number) : Bool := a.value.below b.value

/-- Order of values across the two kinds; NaN is not comparable. -/
def atMost (a b : Number) : Bool := a.below b || a.same b

/-- The floating-point number nearest to an operand; none when an integer is too large. -/
def toFloating? : Number → Option Floating
  | .int n =>
    match Floating.round (n : Rat) with
    | .infinite _ => none
    | x => some x
  | .float x => some x

/-- Integer operation on two integers, floating-point operation otherwise. -/
def combine (onInt : Int → Int → Int) (onFloat : Floating → Floating → Floating) (a b : Number) :
    Option Number :=
  match a, b with
  | .int m, .int n => some (.int (onInt m n))
  | a, b => do
    let x ← a.toFloating?
    let y ← b.toFloating?
    return .float (onFloat x y)

/-- The sum; none when an integer is too large for a float. -/
def add : Number → Number → Option Number := combine (· + ·) Floating.add

/-- The difference; none when an integer is too large for a float. -/
def sub : Number → Number → Option Number := combine (· - ·) Floating.sub

/-- The product; none when an integer is too large for a float. -/
def mul : Number → Number → Option Number := combine (· * ·) Floating.mul

/-- The remainder with the sign of the divisor. -/
def mod : Number → Number → Option Number := combine Int.fmod Floating.mod

end Number

end PassCheck
