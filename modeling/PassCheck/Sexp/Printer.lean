/-
Printing values as program text: sequences of both kinds become parenthesised forms.
-/
import PassCheck.Datum.Literal

namespace PassCheck.Sexp

mutual

/-- The program text of a value; none when it holds an integer of too many digits. -/
def print? : Datum → Option String
  | .bool true => some "#t"
  | .bool false => some "#f"
  | .seq _ items => (printAll? items).map fun texts => "(" ++ " ".intercalate texts ++ ")"
  | d => d.display?
termination_by structural d => d

/-- The program texts of all items. -/
def printAll? : List Datum → Option (List String)
  | [] => some []
  | d :: ds => do
    let t ← print? d
    let ts ← printAll? ds
    return t :: ts
termination_by structural ds => ds

end

/-- A program as it is shown in a report: text as it is, a sequence as program text, any other value
as a literal. -/
def show? : Datum → Option String
  | .str s => some s
  | .seq k items => print? (.seq k items)
  | d => d.literal?

end PassCheck.Sexp
