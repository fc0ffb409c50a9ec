/-
Plots of summaries: one line per pass over the tests.
-/
import PassCheck.Timing.Axis
import PassCheck.Timing.Formula
import PassCheck.Timing.Summary

namespace PassCheck.Timing

/-- The line of a pass: its points are tests and times. -/
structure Curve where
  label : String
  points : List (String × Floating)
deriving DecidableEq, Inhabited

namespace Curve

/-- The places of the points that can be drawn, along the axis of tests. -/
def places (c : Curve) : List Floating :=
  (c.points.zipIdx.filter fun e => e.1.2.isFinite).map fun e => .exact (e.2 : Rat)

/-- The test at a place of the axis. Only whole numbers lead to one, and negative ones count from
the end. -/
def testAt (c : Curve) (x : Floating) : String :=
  match x.unsigned with
  | .exact q =>
    let i := if q.num < 0 then q.num + c.points.length else q.num
    if q.den = 1 && 0 ≤ i then ((c.points[i.toNat]?).map (·.1)).getD "" else ""
  | _ => ""

end Curve

/-- A plot. -/
structure Figure where
  title : String
  xLabel : String
  yLabel : String
  curves : List Curve
deriving DecidableEq, Inhabited

namespace Figure

/-- The title when no other is given. -/
def defaultTitle : String := "compilation time per pass"

/-- The line of a pass. -/
def curveOf (rows : List Summary) (pass : String) : Curve :=
  ⟨pass, (rows.filter fun r => r.pass == pass).map fun r => (r.test, r.runtime.rounded)⟩

/-- A line without a label is labelled by its place among the lines. -/
def relabel (c : Curve) (place : Nat) : Curve :=
  if c.label = "" then { c with label := "_child" ++ Nat.repr place } else c

/-- The plot of a summary. A plot without lines has no title and no labels. -/
def ofSummary (rows : List Summary) (title : String) : Figure :=
  let curves := (rows.map (·.pass)).eraseDups.map (curveOf rows)
  let curves := curves.zipIdx.map fun e => relabel e.1 e.2
  if curves.isEmpty then ⟨"", "", "", []⟩ else ⟨title, "test", "runtime_ms", curves⟩

/-- What is drawn, as text: it stands for the picture. -/
def drawing (f : Figure) : String :=
  let point (p : String × Floating) := Text.quoted p.1 ++ " " ++ p.2.text
  let curve (c : Curve) := Text.quoted c.label ++ ": " ++ ", ".intercalate (c.points.map point)
  "\n".intercalate ([f.title, f.xLabel, f.yLabel].map Text.quoted ++ f.curves.map curve)

/-! ## Drawing -/

/-- The tests that are written along the axis: those of the last line, at the ticks that the first
line led to, as far as the axis shows them in the end. -/
def tickLabels (f : Figure) : Except Failure (List String) :=
  match f.curves.head?, f.curves.getLast? with
  | some first, some last => do
    let ticks ← Axis.ticks (Axis.limits first.places)
    let view := Axis.limits (f.curves.flatMap Curve.places)
    return (ticks.filter view.shows).map last.testAt
  | _, _ => return []

/-- Checks that texts can be drawn. -/
def checkTexts (texts : List String) : Except Failure Unit := texts.forM Formula.check

/-- Checks that a plot can be drawn: the tests along one axis, the times along the other, the title
and the labels of the lines. -/
def check (f : Figure) : Except Failure Unit := do
  if f.curves.isEmpty then return ()
  checkTexts (← f.tickLabels)
  Axis.check (f.curves.flatMap fun c => c.points.map (·.2))
  checkTexts (f.title :: f.curves.map (·.label))

/-! ## Files -/

/-- The formats of pictures. -/
def formats : List String :=
  ["avif", "eps", "gif", "jpg", "jpeg", "pdf", "pgf", "png", "ps", "raw", "rgba", "svg", "svgz",
    "tif", "tiff", "webp"]

/-- The format when a file's name has no extension. -/
def defaultFormat : String := "png"

/-- The format and the file of a picture. Without an extension the name gets one, in place of dots
at its end. -/
def target (path : String) : String × String :=
  match (Path.splitExtension path.toList).2.drop 1 with
  | [] =>
    let stem := (path.toList.reverse.dropWhile (· == '.')).reverse
    (defaultFormat, String.ofList stem ++ "." ++ defaultFormat)
  | extension => (String.ofList (extension.map Char.toLower), path)

/-- Saves a picture. It must be drawable and its format known. -/
def save (f : Figure) (path : String) : Job Unit := do
  Job.lift f.check
  let (format, file) := target path
  if !formats.contains format then throw (.badValue none)
  Job.writeText file f.drawing

end Figure

/-- Plots a summary into a file. -/
def plot (rows : List Summary) (path title : String) : Job Figure := do
  let f := Figure.ofSummary rows title
  f.save path
  return f

end PassCheck.Timing
