/-
Equality and hashing of values. Numbers are equal by exact value across booleans, integers and
floating-point numbers; dictionaries and objects are equal regardless of order. A NaN equals
nothing, but inside a collection it is found again: there two values are `alike` when they are equal
or the very same NaN.
-/
import PassCheck.Datum.Basic

namespace PassCheck.Datum

/-- Equality of two values the first of which is a number. -/
def sameNumber (a b : Datum) : Bool :=
  match a.number?, b.number? with
  | some x, some y => x.same y
  | _, _ => false

/-- Whether two values are the very same NaN. -/
def sharedNan : Datum → Datum → Bool
  | .float x, .float y => x.isNan && x.alike y
  | _, _ => false

mutual

/-- Equality of values. -/
def same : Datum → Datum → Bool
  | .null, .null => true
  | .bool a, b => sameNumber (.bool a) b
  | .int a, b => sameNumber (.int a) b
  | .float a, b => sameNumber (.float a) b
  | .str a, .str b => a == b
  | .seq k as, .seq l bs => k == l && sameAll as bs
  | .dict es, .dict fs => es.length == fs.length && sameEntries es fs
  | .obj es, .obj fs => es.length == fs.length && sameFields es fs
  | .foreign k t, .foreign l u => k == l && t == u
  | _, _ => false
termination_by structural d => d

/-- Equality item by item. -/
def sameAll : List Datum → List Datum → Bool
  | [], [] => true
  | a :: as, b :: bs => (same a b || sharedNan a b) && sameAll as bs
  | _, _ => false
termination_by structural ds => ds

/-- Every entry has an equal one among the others. -/
def sameEntries : List (Datum × Datum) → List (Datum × Datum) → Bool
  | [], _ => true
  | (k, v) :: es, fs =>
    (fs.any fun f => (same k f.1 || sharedNan k f.1) && (same v f.2 || sharedNan v f.2)) &&
      sameEntries es fs
termination_by structural es => es

/-- Every field has an equal one among the others. -/
def sameFields : List (String × Datum) → List (String × Datum) → Bool
  | [], _ => true
  | (k, v) :: es, fs =>
    (fs.any fun f => k == f.1 && (same v f.2 || sharedNan v f.2)) && sameFields es fs
termination_by structural es => es

end

/-- Whether two values are the same item, key or vertex of a collection. -/
def alike (a b : Datum) : Bool := same a b || sharedNan a b

mutual

/-- Whether a value may be a key: lists, dictionaries and objects may not, nor a tuple that holds
one. -/
def hashable : Datum → Bool
  | .tuple items => hashableAll items
  | .list _ | .dict _ | .obj _ => false
  | _ => true
termination_by structural d => d

/-- Whether every item may be a key. -/
def hashableAll : List Datum → Bool
  | [] => true
  | d :: ds => hashable d && hashableAll ds
termination_by structural ds => ds

end

/-! ## Dictionaries -/

/-- The value stored under a key. -/
def entry? (key : Datum) (entries : List (Datum × Datum)) : Option Datum :=
  (entries.find? fun e => alike e.1 key).map (·.2)

/-- Stores a value under a key. A key that is already there keeps its place and its first form. -/
def setEntry (key value : Datum) : List (Datum × Datum) → List (Datum × Datum)
  | [] => [(key, value)]
  | e :: es => if alike e.1 key then (e.1, value) :: es else e :: setEntry key value es

end PassCheck.Datum
