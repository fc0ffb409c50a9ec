/-
Summaries as tables to be looked at: columns of equal width under their names, with the number of the
row in front. Long tables show their first and last rows, wide ones leave out the passes.
-/
import PassCheck.Number.Fixed
import PassCheck.Timing.Summary

namespace PassCheck.Timing.Table

/-! ## Times -/

/-- The number of places behind the point. -/
def places : Nat := 6

/-- A time: a minus sign or a blank, and its digits. -/
def signed (digits : Nat → Nat → List Char) (x : Floating) : String :=
  let sign (negative : Bool) : Char := if negative then '-' else ' '
  match x with
  | .nan _ => "NaN"
  | .infinite negative => String.ofList [sign negative, 'i', 'n', 'f']
  | .negZero => String.ofList ('-' :: digits 0 1)
  | .exact q => String.ofList (sign (q.num < 0) :: digits q.num.natAbs q.den)

/-- The number of zeros at the end of a text. -/
def trailingZeros (s : String) : Nat := (s.toList.reverse.takeWhile (· == '0')).length

/-- Times in positional notation, without the zeros that all of them end in. One place stays. -/
def positionalTimes (xs : List Floating) : List String :=
  let digits := signed (Floating.positional places)
  let zeros := (xs.filter Floating.isFinite).map fun x => trailingZeros (digits x)
  let spare := zeros.foldl min (places - 1)
  xs.map fun x =>
    if x.isFinite then String.ofList ((digits x).toList.reverse.drop spare).reverse else digits x

/-- The length up to which large times are written positionally. -/
def longestTime : Nat := places + 6

/-- Whether times are written with an exponent: a small one would lose all its digits, or a large
one makes them too long. -/
def needsExponent (xs : List Floating) (positional : List String) : Bool :=
  let small := Floating.ofDecimal 1 (-6)
  let large := Floating.ofDecimal 1 6
  (xs.any fun x => (Floating.exact 0).below x.abs && x.abs.below small) ||
    ((positional.any fun s => longestTime < s.length) && xs.any fun x => large.below x.abs)

/-- Times, all in one notation. -/
def times (xs : List Floating) : List String :=
  let positional := positionalTimes xs
  if needsExponent xs positional then xs.map (signed (Floating.scientific places)) else positional

/-! ## Columns -/

/-- Blanks before a text, up to a width. -/
def alignRight (width : Nat) (s : String) : String :=
  String.ofList (List.replicate (width - s.length) ' ' ++ s.toList)

/-- Blanks behind a text, up to a width. -/
def alignLeft (width : Nat) (s : String) : String :=
  String.ofList (s.toList ++ List.replicate (width - s.length) ' ')

/-- The length of the longest text. -/
def longest (texts : List String) : Nat := (texts.map String.length).foldl max 0

/-- The widest column. -/
def columnLimit : Nat := 50

/-- A text that is cut to a width. -/
def cut (width : Nat) (s : String) : String :=
  if width < s.length then String.ofList (s.toList.take (width - 3)) ++ "..." else s

/-- A column under its name. -/
def column (name : String) (cells : List String) : List String :=
  let width := min columnLimit (longest (name :: cells))
  (name :: cells).map fun s => alignRight width (cut width s)

/-- A text in a column: tabs and the ends of lines are spelled out. -/
def textCell (s : String) : String :=
  let spell : Char → List Char
    | '\t' => ['\\', 't']
    | '\n' => ['\\', 'n']
    | '\r' => ['\\', 'r']
    | c => [c]
  String.ofList (' ' :: s.toList.flatMap spell)

/-- The column of the numbers of the rows, which has no name. -/
def numberColumn (numbers : List Nat) : List String :=
  let texts := numbers.map Nat.repr
  ("" :: texts).map (alignLeft (longest texts))

/-! ## Tables -/

/-- The number of rows that are shown in full. -/
def rowLimit : Nat := 60

/-- The number of rows at each end of a table that is too long. -/
def endRows : Nat := 5

/-- The width that a line stays below. -/
def lineLimit : Nat := 80

/-- The rows that are shown, with their numbers. -/
def shownRows (rows : List Summary) : List (Summary × Nat) :=
  let numbered := rows.zipIdx
  if rows.length ≤ rowLimit then numbered
  else numbered.take endRows ++ numbered.drop (rows.length - endRows)

/-- A column with dots for the rows that are left out, behind its name and the rows at the start. -/
def withDots (align : Nat → String → String) (cells : List String) : List String :=
  let width := longest cells
  let dots := align width (if 3 < width then "..." else "..")
  cells.take (endRows + 1) ++ dots :: cells.drop (endRows + 1)

/-- The lines of columns, with a blank between two. -/
def sideBySide : List (List String) → List String
  | [] => []
  | [last] => last
  | cells :: more => List.zipWith (fun s t => s ++ " " ++ t) cells (sideBySide more)

/-- The column that stands for those that are left out. -/
def gapColumn (rows : Nat) : List String := List.replicate (rows + 1) " ..."

/-- The table of a summary. -/
def render (rows : List Summary) : String :=
  if rows.isEmpty then
    "Empty DataFrame\nColumns: [" ++ ", ".intercalate summaryColumns ++ "]\nIndex: []"
  else
    let shown := shownRows rows
    let isLong := rowLimit < rows.length
    let finish (align : Nat → String → String) (cells : List String) : List String :=
      if isLong then withDots align cells else cells
    let numbers := finish alignLeft (numberColumn (shown.map (·.2)))
    let tests := finish alignRight (column "test" (shown.map fun r => textCell r.1.test))
    let passes := finish alignRight (column "pass" (shown.map fun r => textCell r.1.pass))
    let runtimes := finish alignRight
      (column " runtime_ms" (times (shown.map fun r => r.1.runtime.rounded)))
    let full := sideBySide [numbers, tests, passes, runtimes]
    let isWide := lineLimit ≤ longest full
    let gap := finish alignRight (gapColumn shown.length)
    let lines := if isWide then sideBySide [numbers, tests, gap, runtimes] else full
    let size := "\n\n[" ++ Nat.repr rows.length ++ " rows x " ++
      Nat.repr summaryColumns.length ++ " columns]"
    "\n".intercalate lines ++ if isLong || isWide then size else ""

end PassCheck.Timing.Table
