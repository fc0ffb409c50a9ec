/-
The text of a value on one line, in two forms: the literal form quotes strings, the display form
shows a string as it is. A value that holds an integer of too many digits has no text.
-/
import PassCheck.Datum.Basic
import PassCheck.Number.Integer
import PassCheck.Number.Shortest
import PassCheck.Text.Quoted

namespace PassCheck.Datum

open PassCheck.Text

/-- The items of a tuple in parentheses; a single item is followed by a comma. -/
def inParens : List String → String
  | [item] => "(" ++ item ++ ",)"
  | items => "(" ++ ", ".intercalate items ++ ")"

/-- The items of a sequence in its brackets. -/
def bracketed : SeqKind → List String → String
  | .tuple, items => inParens items
  | .list, items => "[" ++ ", ".intercalate items ++ "]"

/-- The entries of a dictionary in braces. -/
def inBraces (entries : List String) : String :=
  "\x7b" ++ ", ".intercalate entries ++ "\x7d"

/-- The fields of an object. -/
def asNamespace (fields : List String) : String :=
  "namespace(" ++ ", ".intercalate fields ++ ")"

mutual

/-- The literal text of a value. -/
def literal? : Datum → Option String
  | .null => some "None"
  | .bool true => some "True"
  | .bool false => some "False"
  | .int n => Integer.text? n
  | .float x => some x.text
  | .str s => some (quoted s)
  | .seq kind items => (literals? items).map (bracketed kind)
  | .dict entries => (entryLiterals? entries).map inBraces
  | .obj fields => (fieldLiterals? fields).map asNamespace
  | .foreign _ text => some text
termination_by structural d => d

/-- The literal texts of all items. -/
def literals? : List Datum → Option (List String)
  | [] => some []
  | d :: ds => do
    let t ← literal? d
    let ts ← literals? ds
    return t :: ts
termination_by structural ds => ds

/-- The literal texts of all entries. -/
def entryLiterals? : List (Datum × Datum) → Option (List String)
  | [] => some []
  | (k, v) :: es => do
    let tk ← literal? k
    let tv ← literal? v
    let ts ← entryLiterals? es
    return (tk ++ ": " ++ tv) :: ts
termination_by structural es => es

/-- The literal texts of all fields; a field without a name is left out. -/
def fieldLiterals? : List (String × Datum) → Option (List String)
  | [] => some []
  | ("", _) :: fs => fieldLiterals? fs
  | (k, v) :: fs => do
    let tv ← literal? v
    let ts ← fieldLiterals? fs
    return (k ++ "=" ++ tv) :: ts
termination_by structural fs => fs

end

/-- The display text of a value: a string is shown as it is. -/
def display? : Datum → Option String
  | .str s => some s
  | d => literal? d

end PassCheck.Datum
