/-
Formulas in the texts of a plot. A line of a text with an even number of dollar signs has formulas
between them; a dollar sign behind a backslash does not count. A text whose formulas cannot be read
cannot be drawn.
-/
import PassCheck.Timing.Formula.Reader

namespace PassCheck.Timing.Formula

/-- The formula up to the dollar sign that ends it, and the text after it. A backslash takes the
next character with it; a formula stands on one line. -/
def upToDollar? : List Char → Option (List Char × List Char)
  | '$' :: cs => some ([], cs)
  | '\\' :: c :: cs => if c == '\n' then none else push ['\\', c] (upToDollar? cs)
  | '\\' :: [] | [] => none
  | c :: cs => if c == '\n' || c == '\r' then none else push [c] (upToDollar? cs)
where
  /-- Puts characters before a formula. -/
  push (start : List Char) (r : Option (List Char × List Char)) : Option (List Char × List Char) :=
    r.map fun e => (start ++ e.1, e.2)

/-- Checks the formulas of a line, which starts outside of them. The fuel is the number of
characters. -/
def checkFormulas : (fuel : Nat) → List Char → Except Failure Unit
  | 0, _ | _ + 1, [] => .ok ()
  | fuel + 1, '\\' :: '$' :: cs => checkFormulas fuel cs
  | fuel + 1, '$' :: cs =>
    match upToDollar? cs with
    | none => .error unreadable
    | some (formula, rest) => do
      checkFormula formula
      checkFormulas fuel rest
  | fuel + 1, _ :: cs => checkFormulas fuel cs

/-- The number of dollar signs that are not behind a backslash. -/
def dollars : List Char → Nat
  | [] => 0
  | '\\' :: '$' :: cs => dollars cs
  | c :: cs => dollars cs + if c == '$' then 1 else 0

/-- Checks that a line can be drawn. Tabs count as blanks. -/
def checkLine (cs : List Char) : Except Failure Unit :=
  let cs := cs.map fun c => if c == '\t' then ' ' else c
  if dollars cs = 0 || dollars cs % 2 = 1 then .ok () else checkFormulas cs.length cs

/-- Checks that a text can be drawn: each of its lines can. -/
def check (text : String) : Except Failure Unit :=
  (text.splitOn "\n").forM fun l => checkLine l.toList

end PassCheck.Timing.Formula
