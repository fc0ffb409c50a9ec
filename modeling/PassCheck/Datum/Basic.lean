/-
The values that programs, passes and reports are made of.
-/
import PassCheck.Number.Basic

namespace PassCheck

/-- The two kinds of sequences. They print differently and are never equal. -/
inductive SeqKind where
  | tuple
  | list
deriving DecidableEq, Inhabited

/-- A value. A dictionary keeps its entries in order of insertion, an object its fields. A foreign
value is only handed on: all that is known of it is its kind and its text. -/
inductive Datum where
  | null
  | bool (b : Bool)
  | int (n : Int)
  | float (x : Floating)
  | str (s : String)
  | seq (kind : SeqKind) (items : List Datum)
  | dict (entries : List (Datum × Datum))
  | obj (fields : List (String × Datum))
  | foreign (kind text : String)
deriving Inhabited

namespace Datum

/-- A tuple. -/
@[match_pattern] abbrev tuple (items : List Datum) : Datum := .seq .tuple items

/-- A list. -/
@[match_pattern] abbrev list (items : List Datum) : Datum := .seq .list items

/-- The answer of a comparison that does not know the other value. -/
def undecided : Datum := .foreign "NotImplementedType" "NotImplemented"

/-- The name of a value's kind, as reports give it. -/
def kindName : Datum → String
  | .null => "NoneType"
  | .bool _ => "bool"
  | .int _ => "int"
  | .float _ => "float"
  | .str _ => "str"
  | .tuple _ => "tuple"
  | .list _ => "list"
  | .dict _ => "dict"
  | .obj _ => "SimpleNamespace"
  | .foreign kind _ => kind

/-- Whether a value is a boolean. -/
def isBool : Datum → Bool
  | .bool _ => true
  | _ => false

/-- The integer a value stands for: a boolean counts as zero or one. -/
def toInt? : Datum → Option Int
  | .bool b => some (if b then 1 else 0)
  | .int n => some n
  | _ => none

/-- The number a value stands for. -/
def number? : Datum → Option Number
  | .bool b => some (.int (if b then 1 else 0))
  | .int n => some (.int n)
  | .float x => some (.float x)
  | _ => none

/-- A number as a value. -/
def ofNumber : Number → Datum
  | .int n => .int n
  | .float x => .float x

/-- Whether a value counts as true in a condition. -/
def truthy : Datum → Bool
  | .null => false
  | .bool b => b
  | .int n => n != 0
  | .float x => !x.same (.exact 0)
  | .str s => s != ""
  | .seq _ items => !items.isEmpty
  | .dict entries => !entries.isEmpty
  | .obj _ | .foreign _ _ => true

/-- What a loop over a value visits: the items of a sequence, the characters of a text, the keys of
a dictionary. Other values cannot be visited. -/
def visit? : Datum → Option (List Datum)
  | .seq _ items => some items
  | .str s => some (s.toList.map fun c => .str (String.ofList [c]))
  | .dict entries => some (entries.map (·.1))
  | _ => none

/-- The field of an object. -/
def field? (name : String) : Datum → Option Datum
  | .obj fields => fields.lookup name
  | _ => none

mutual

/-- Every tuple, down to the first value that is none, becomes a list. -/
def listify : Datum → Datum
  | .tuple items => .list (listifyAll items)
  | d => d
termination_by structural d => d

/-- `listify` on every item. -/
def listifyAll : List Datum → List Datum
  | [] => []
  | d :: ds => listify d :: listifyAll ds
termination_by structural ds => ds

end

end Datum

end PassCheck
