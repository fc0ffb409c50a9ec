/-
Summaries of measurements: the median time of every pass on every test, in order of first
appearance.
-/
import PassCheck.Timing.Measure
import PassCheck.Timing.Tables

namespace PassCheck.Timing

/-- The median time of a pass on a test. -/
structure Summary where
  test : String
  pass : String
  runtime : Floating
deriving DecidableEq, Inhabited

/-- What a row is about. -/
def Row.key (r : Row) : String × String := (r.test, r.pass)

/-- The medians of both columns of numbers, for a test and a pass. -/
structure Medians where
  test : String
  pass : String
  run : Floating
  runtime : Floating

/-- The rows at some positions of a table. -/
def rowsAt (rows : List Row) (positions : List Nat) : List Row := positions.filterMap (rows[·]?)

/-- Groups measurements by test and pass, and takes the medians of the other columns. -/
def medians (lib : Tables) (rows : List Row) : List Medians :=
  (lib.groups (rows.map Row.key)).map fun (key, positions) =>
    let group := rowsAt rows positions
    ⟨key.1, key.2, lib.median (group.map fun r => .exact r.run),
      lib.median (group.map (·.runtime))⟩

/-- Medians without the column of runs. -/
def Medians.withoutRun (m : Medians) : Summary := ⟨m.test, m.pass, m.runtime⟩

/-- The median time of every test and pass. -/
def summarize (lib : Tables) (rows : List Row) : List Summary :=
  (medians lib rows).map Medians.withoutRun

/-- The names of the columns of measurements. -/
def rowColumns : List String := ["test", "pass", "run", "runtime_ms"]

/-- The names of the columns of a summary. -/
def summaryColumns : List String := ["test", "pass", "runtime_ms"]

/-! ## As comma-separated values -/

/-- A field: in quotes when it holds a comma, a quote or LF, with quotes doubled. -/
def csvField (s : String) : String :=
  let cs := s.toList
  if cs.any fun c => c == ',' || c == '"' || c == '\n' then
    String.ofList ('"' :: cs.flatMap (fun c => if c == '"' then ['"', '"'] else [c]) ++ ['"'])
  else s

/-- A number as a field; NaN is left empty. -/
def csvNumber (x : Floating) : String := if x.isNan then "" else x.text

/-- A line of fields. -/
def csvLine (fields : List String) : String := ",".intercalate fields ++ "\n"

/-- A summary with a line of column names. -/
def csv (rows : List Summary) : String :=
  csvLine summaryColumns ++
    String.join (rows.map fun r =>
      csvLine [csvField r.test, csvField r.pass, csvNumber r.runtime])

/-- Writes a summary to a file; its directory must be there. -/
def writeCsv (path : String) (rows : List Summary) : Job Unit := do
  let dir := Path.dir path
  if !(← get).files.isDir (if dir = "" then "." else dir) then
    throw .system
  Job.writeText path (csv rows)

end PassCheck.Timing
