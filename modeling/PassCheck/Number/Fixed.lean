/-
Numbers with a given number of decimal places, positionally or with an exponent: the decimal of that
length nearest to the number, a tie going to the even one.
-/
import PassCheck.Number.Shortest

namespace PassCheck.Floating

/-- The digits of a fraction of naturals with places behind the point. -/
def positional (places n d : Nat) : List Char :=
  let ds := padLeft (places + 1) (Nat.toDigits 10 (roundDiv (n * Nat.pow 10 places) d))
  ds.take (ds.length - places) ++ '.' :: ds.drop (ds.length - places)

/-- A coefficient and the exponent of its leading digit, when rounding led to one digit too many. -/
def carry (places c : Nat) (e : Int) : Nat × Int :=
  if Nat.pow 10 (places + 1) ≤ c then (c / 10, e + 1) else (c, e)

/-- Always with an exponent. -/
def exponentLayout : Layout := ⟨0, 0, 2⟩

/-- The digits of a fraction of naturals with one digit before the point, places behind it, and an
exponent. -/
def scientific (places n d : Nat) : List Char :=
  if n = 0 then exponentLayout.write (List.replicate (places + 1) '0') 0
  else
    let e := leading n d
    let (a, b) := scaledDecimal n d (e - places)
    let (c, e) := carry places (roundDiv a b) e
    exponentLayout.write (Nat.toDigits 10 c) e

end PassCheck.Floating
