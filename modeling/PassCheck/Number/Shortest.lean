/-
The text of a floating-point number: the fewest digits that read back as the number, of those the
nearest, written positionally for exponents from -4 to 15.
-/
import PassCheck.Number.Floating
import PassCheck.Number.Integer

namespace PassCheck.Floating

/-! ## Digits -/

/-- `n / d · 10^(-p)` as a fraction of naturals. -/
def scaledDecimal (n d : Nat) (p : Int) : Nat × Nat :=
  if 0 ≤ p then (n, d * Nat.pow 10 p.toNat) else (n * Nat.pow 10 (-p).toNat, d)

/-- The number of decimal digits of a positive natural. -/
def digitCount (n : Nat) : Nat := (Nat.toDigits 10 n).length

/-- The decimal exponent of the leading digit of the positive fraction `n / d`. -/
def leading (n d : Nat) : Int :=
  if d ≤ n then (digitCount (n / d) : Int) - 1
  else
    match (List.range 400).find? fun j => decide (d ≤ n * Nat.pow 10 j) with
    | some j => -(j : Int)
    | none => -400

/-- Whether the decimal `c · 10^p` rounds to `m · 2^e`: it lies between the midpoints to the two
neighbours, which belong to the interval when `m` is even. Below the smallest significand the lower
neighbour is half as far. -/
def roundsTo (m : Nat) (e : Int) (c : Nat) (p : Int) : Bool :=
  let closed := m % 2 == 0
  let low := if m = Nat.pow 2 52 && e != -1074 then 4 * m - 1 else 4 * m - 2
  let high := 4 * m + 2
  -- compare c · 10^p with low · 2^(e-2) and high · 2^(e-2)
  let up (z : Int) : Nat := z.toNat
  let left := c * Nat.pow 10 (up p) * Nat.pow 2 (up (2 - e))
  let right := Nat.pow 2 (up (e - 2)) * Nat.pow 10 (up (-p))
  let lo := low * right
  let hi := high * right
  if closed then lo ≤ left && left ≤ hi else lo < left && left < hi

/-- The decimal of the given number of digits that is nearest to `n / d` among those that round to
`m · 2^e`, as a coefficient and its power of ten. -/
def candidate (n d m : Nat) (e : Int) (digits : Nat) : Option (Nat × Int) :=
  let p := leading n d - (digits : Int) + 1
  let (a, b) := scaledDecimal n d p
  let c := a / b
  let below := roundsTo m e c p
  let above := roundsTo m e (c + 1) p
  if below && above then some (roundDiv a b, p)
  else if below then some (c, p)
  else if above then some (c + 1, p)
  else none

/-- The first candidate, counting digits from one. -/
def shortest (n d m : Nat) (e : Int) : Nat × Int :=
  match (List.range 17).findSome? fun k => candidate n d m e (k + 1) with
  | some r => r
  | none => (n / d, 0)

/-- Drops trailing zeros of a coefficient. -/
def stripZeros : (fuel : Nat) → Nat → Int → Nat × Int
  | 0, c, p => (c, p)
  | fuel + 1, c, p => if c % 10 = 0 && c != 0 then stripZeros fuel (c / 10) (p + 1) else (c, p)

/-! ## Layout -/

/-- How a decimal is laid out: positionally when the exponent of its leading digit is at least
`positionalFrom` and less than `positionalBelow`, otherwise with an `e`. -/
structure Layout where
  positionalFrom : Int
  positionalBelow : Int
  /-- The least number of digits of an exponent. -/
  exponentDigits : Nat

/-- Positional for exponents from -4 to 15; an exponent has a sign and at least two digits. -/
def plainLayout : Layout := ⟨-4, 16, 2⟩

/-- Pads digits with zeros in front. -/
def padLeft (width : Nat) (ds : List Char) : List Char :=
  List.replicate (width - ds.length) '0' ++ ds

/-- Lays out the digits of a decimal whose leading digit has exponent `e`. -/
def Layout.write (l : Layout) (ds : List Char) (e : Int) : List Char :=
  if l.positionalFrom ≤ e && e < l.positionalBelow then
    if e < 0 then '0' :: '.' :: List.replicate (-e - 1).toNat '0' ++ ds
    else
      let whole := e.toNat + 1
      let ds := ds ++ List.replicate (whole - ds.length) '0'
      let fraction := ds.drop whole
      ds.take whole ++ '.' :: (if fraction.isEmpty then ['0'] else fraction)
  else
    let exponent := padLeft l.exponentDigits (Nat.toDigits 10 e.natAbs)
    let sign := if e < 0 then '-' else '+'
    let tail := ds.drop 1
    ds.take 1 ++ (if tail.isEmpty then [] else '.' :: tail) ++ 'e' :: sign :: exponent

/-- The text of a positive rational, taken as the nearest number of the format. -/
def positiveText (n d : Nat) : List Char :=
  let (m, e) := nearest n d
  let v := dyadic m e
  let (c, p) := shortest v.num.natAbs v.den m e
  let (c, p) := stripZeros 400 c p
  let ds := Nat.toDigits 10 c
  plainLayout.write ds (p + ds.length - 1)

/-- The text of a floating-point number. -/
def text (x : Floating) : String :=
  match x with
  | .nan _ => "nan"
  | .infinite true => "-inf"
  | .infinite false => "inf"
  | .negZero => "-0.0"
  | .exact q =>
    match round q with
    | .exact r =>
      if r.num = 0 then "0.0"
      else
        let cs := positiveText r.num.natAbs r.den
        String.ofList (if r.num < 0 then '-' :: cs else cs)
    | .negZero => "-0.0"
    | .infinite true => "-inf"
    | .infinite false => "inf"
    | .nan _ => "nan"

/-! ## Reading -/

/-- The rational `c · 10^p`. -/
def decimalValue (c : Nat) (p : Int) : Rat :=
  if 0 ≤ p then ((c * Nat.pow 10 p.toNat : Nat) : Rat) else mkRat c (Nat.pow 10 (-p).toNat)

/-- The number nearest to `c · 10^p`. Exponents far outside the format are not worked out. -/
def ofDecimal (c : Nat) (p : Int) : Floating :=
  if c = 0 || p + digitCount c < -400 then .exact 0
  else if 400 < p + digitCount c then .infinite false
  else round (decimalValue c p)

/-- Splits before the first character that `stop` holds of. -/
def splitBefore (stop : Char → Bool) (cs : List Char) : List Char × List Char :=
  (cs.takeWhile fun c => !stop c, cs.dropWhile fun c => !stop c)

/-- The digits of a part of a number that may be empty. -/
def part? (cs : List Char) : Option (List Nat) :=
  if cs.isEmpty then some [] else Integer.digitRun? cs

/-- The exponent behind an `e`; nothing is the exponent zero. -/
def exponent? : List Char → Option Int
  | [] => some 0
  | _ :: cs => do
    let (negative, body) := Integer.splitSign cs
    let ds ← Integer.digitRun? body
    return if negative then -(Integer.ofDigits ds : Int) else (Integer.ofDigits ds : Int)

/-- Reads an unsigned decimal with an optional fraction and exponent. -/
def unsigned? (cs : List Char) : Option Floating := do
  let (mantissa, exponent) := splitBefore (fun c => c == 'e' || c == 'E') cs
  let (whole, fraction) := splitBefore (· == '.') mantissa
  let ws ← part? whole
  let fs ← part? (fraction.drop 1)
  let p ← exponent? exponent
  if ws.isEmpty && fs.isEmpty then none
  else return ofDecimal (Integer.ofDigits (ws ++ fs)) (p - fs.length)

/-- Reads a number without its sign: a decimal, or one of the words for what is none. -/
def magnitude? (cs : List Char) : Option Floating :=
  match String.ofList (cs.map Char.toLower) with
  | "nan" => some undefined
  | "inf" | "infinity" => some (.infinite false)
  | _ => unsigned? cs

/-- Reads a floating-point number, with padding around it and an optional sign. -/
def ofText? (s : String) : Option Floating := do
  let (negative, body) := Integer.splitSign (Integer.trim s.toList)
  let x ← magnitude? body
  return if negative then x.neg else x

end PassCheck.Floating
