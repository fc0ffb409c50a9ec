/-
Lookup in an ordered sequence of pairs. The first pair whose key matches wins; a boolean never
matches a number.
-/
import PassCheck.Datum.Equality
import PassCheck.Failure

namespace PassCheck.Assoc

/-- Whether two keys match: they are equal, and both or neither is a boolean. -/
def keysMatch (a b : Datum) : Bool := a.isBool == b.isBool && a.same b

/-- Key and value of a pair: a sequence of two items, or an object with a key and a value. -/
def pair? : Datum → Option (Datum × Datum)
  | .seq _ [k, v] => some (k, v)
  | d =>
    match d.field? "key", d.field? "value" with
    | some k, some v => some (k, v)
    | _, _ => none

/-- The failure of an entry that is no pair. -/
def notPair (d : Datum) : Failure :=
  match d.literal? with
  | some t => .plain ("error in lookup, not a pair: " ++ t)
  | none => .longInteger

/-- The value of the first pair whose key matches. Entries before it must be pairs. -/
def lookup (key : Datum) : List Datum → Except Failure Datum
  | [] => .error (.report (.lookup key))
  | d :: ds =>
    match pair? d with
    | none => .error (notPair d)
    | some (k, v) => if keysMatch k key then .ok v else lookup key ds

/-- Lookup in any value that can be visited. -/
def lookupIn (key : Datum) (pairs : Datum) : Except Failure Datum :=
  match pairs.visit? with
  | none => .error .badType
  | some ds => lookup key ds

end PassCheck.Assoc
