/-
Integers as text. An integer of more than `digitLimit` digits is neither read nor written.
-/
import PassCheck.Text.Blank
import PassCheck.Text.Digit

namespace PassCheck.Integer

open PassCheck.Text

/-- The most digits an integer may have when it is read or written. -/
def digitLimit : Nat := 4300

/-! ## Writing -/

/-- The decimal digits of an integer, with a minus sign when it is negative. -/
def decimal (n : Int) : String :=
  if n < 0 then "-" ++ Nat.repr n.natAbs else Nat.repr n.natAbs

/-- An integer that is short enough to be written. -/
def Writable (n : Int) : Prop := n.natAbs < Nat.pow 10 digitLimit

instance (n : Int) : Decidable (Writable n) := inferInstanceAs (Decidable (_ < _))

/-- The text of an integer; none when it has too many digits. -/
def text? (n : Int) : Option String := if Writable n then some (decimal n) else none

/-! ## Reading -/

/-- The number that a list of digits denotes. -/
def ofDigits (ds : List Nat) : Nat := ds.foldl (fun n d => 10 * n + d) 0

/-- The sign in front of a written integer, and what follows it. -/
def splitSign : List Char → Bool × List Char
  | '-' :: cs => (true, cs)
  | '+' :: cs => (false, cs)
  | cs => (false, cs)

/-- The integer of a sign and a list of digits, when there are not too many. -/
def ofSignDigits? (negative : Bool) (ds : List Nat) : Option Int :=
  if ds.length ≤ digitLimit then
    some (if negative then -(ofDigits ds : Int) else (ofDigits ds : Int))
  else none

/-- The digits of a run of digits, where single underscores may stand between two of them. -/
def digitRun? : List Char → Option (List Nat)
  | [] => none
  | [c] => (digitValue? c).map fun d => [d]
  | c :: '_' :: cs => do
    let d ← digitValue? c
    let ds ← digitRun? cs
    return d :: ds
  | c :: cs => do
    let d ← digitValue? c
    let ds ← digitRun? cs
    return d :: ds

/-- Drops padding at both ends. -/
def trim (cs : List Char) : List Char :=
  ((cs.dropWhile isPadding).reverse.dropWhile isPadding).reverse

/-- Reads an integer: padding around it, an optional sign, digits of any script, single underscores
between digits. -/
def ofText? (s : String) : Option Int := do
  let (negative, body) := splitSign (trim s.toList)
  let ds ← digitRun? body
  ofSignDigits? negative ds

/-- Whether a text is an optional sign and at least one digit, and nothing else. -/
def isPlain (cs : List Char) : Bool :=
  let body := (splitSign cs).2
  !body.isEmpty && body.all isDigit

/-- Reads a text that is an optional sign and digits. -/
def ofPlain? (cs : List Char) : Option Int :=
  let (negative, body) := splitSign cs
  ofSignDigits? negative (body.filterMap digitValue?)

end PassCheck.Integer
