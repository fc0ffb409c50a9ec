/-
Compilers as modules offer them: named attributes, among them a list of passes, or names of passes
and a routine for each. An object has its attributes at hand. A class makes an object first, and its
own routines may take part in that and in every search for an attribute.
-/
import PassCheck.Datum.Equality
import PassCheck.Pass.Basic

namespace PassCheck

/-- How routines are kept: how a kept one runs, and how any routine is kept. -/
structure Keeping (ρ : Type) where
  run : ρ → Routine
  keep : Routine → ρ

/-- What a compiler has under a name. -/
inductive Attribute (ρ : Type) where
  | passes (ps : List (Pass ρ))
  | interpreters (table : List (String × ρ))
  | routine (r : ρ)
  /-- A routine that every object has. -/
  | native (f : Routine)
  /-- A plain value; no value counts as empty. -/
  | value (d : Datum)

namespace Attribute

variable {ρ : Type}

/-- A routine that cannot be called. -/
def uncallable : Routine := fun _ => throw .badType

/-- The routine that an attribute is called as. -/
def call (k : Keeping ρ) : Attribute ρ → Routine
  | .routine r => k.run r
  | .native f => f
  | _ => uncallable

/-- The transform that an attribute is taken for; an empty one is none. Whether it can be called
shows only when it is. -/
def transform? (k : Keeping ρ) : Attribute ρ → Option ρ
  | .routine r => some r
  | .value .null => none
  | a => some (k.keep (a.call k))

/-- An attribute as a field of an object, as far as it can be compared. -/
def datum : Attribute ρ → Datum
  | .passes ps => .list (ps.map fun _ => .foreign "Pass" "")
  | .interpreters table => .dict (table.map fun e => (.str e.1, .foreign "function" ""))
  | .routine _ => .foreign "function" ""
  | .native _ => .foreign "method" ""
  | .value d => d

end Attribute

/-- A compiler, or a class of compilers, by its own attributes. -/
structure Compiler (ρ : Type) where
  attributes : List (String × Attribute ρ)

namespace Compiler

variable {ρ : Type}

/-- The attribute that a compiler has of its own. -/
def own? (c : Compiler ρ) (name : String) : Option (Attribute ρ) := c.attributes.lookup name

/-- The compiler whose attributes are fields. -/
def ofFields (fields : List (String × Datum)) : Compiler ρ :=
  ⟨fields.map fun f => (f.1, .value f.2)⟩

/-! ## What every object has -/

/-- The names that every object has. -/
def inherited : List String :=
  ["__class__", "__delattr__", "__dict__", "__dir__", "__doc__", "__eq__", "__format__", "__ge__",
    "__getattribute__", "__getstate__", "__gt__", "__hash__", "__init__", "__init_subclass__",
    "__le__", "__lt__", "__ne__", "__new__", "__reduce__", "__reduce_ex__", "__repr__",
    "__setattr__", "__sizeof__", "__str__", "__subclasshook__"]

/-- The names of the four comparisons by order. -/
def orders : List String := ["__lt__", "__le__", "__gt__", "__ge__"]

/-- The names that every class has besides. -/
def classNames : List String :=
  ["__annotations__", "__base__", "__bases__", "__basicsize__", "__call__", "__dictoffset__",
    "__flags__", "__instancecheck__", "__itemsize__", "__module__", "__mro__", "__name__", "__or__",
    "__prepare__", "__qualname__", "__ror__", "__subclasscheck__", "__subclasses__",
    "__weakrefoffset__", "mro"]

/-- A comparison that knows no value. -/
def undecided : Routine := Routine.unary fun _ => return .undecided

/-- The equality of an object, which knows objects only. -/
def equality (c : Compiler ρ) (negated : Bool) : Routine := Routine.unary fun d =>
  match d with
  | .obj fields =>
    let mine := c.attributes.map fun a => (a.1, a.2.datum)
    return .bool ((Datum.obj mine).same (.obj fields) != negated)
  | _ => return .undecided

/-- A comparison of an object by order, which no two objects have. -/
def order : Routine := Routine.unary fun d =>
  match d with
  | .obj _ => throw .badType
  | _ => return .undecided

/-- What an object has under a name. Two names are the same for every object; its own attributes
come before all others. -/
def objectAttribute? (c : Compiler ρ) (name : String) : Option (Attribute ρ) :=
  if name = "__class__" || name = "__dict__" then some (.native Attribute.uncallable)
  else (c.own? name).or <|
    if name = "__eq__" then some (.native (c.equality false))
    else if name = "__ne__" then some (.native (c.equality true))
    else if orders.contains name then some (.native order)
    else if name = "__subclasshook__" then some (.native undecided)
    else if name = "__hash__" then some (.value .null)
    else if inherited.contains name then some (.native Attribute.uncallable)
    else none

/-- The inequality of an object made from a class: the opposite of the equality of the class, if it
has one. -/
def inequality (k : Keeping ρ) (c : Compiler ρ) : Routine :=
  match c.own? "__eq__" with
  | none => undecided
  | some a => Routine.unary fun d => do return .bool !(← a.call k [d]).truthy

/-- What an object made from a class has under a name. The attributes of its class come first. An
equality of its own takes the hash away. -/
def madeAttribute? (k : Keeping ρ) (c : Compiler ρ) (name : String) : Option (Attribute ρ) :=
  (c.own? name).or <|
    if name = "__ne__" then some (.native (c.inequality k))
    else if name = "__eq__" || name = "__subclasshook__" || orders.contains name then
      some (.native undecided)
    else if name = "__doc__" || name = "__weakref__" ||
        (name = "__hash__" && (c.own? "__eq__").isSome) then some (.value .null)
    else if name = "__module__" || inherited.contains name then
      some (.native Attribute.uncallable)
    else none

/-- What a class itself has under a name. -/
def classAttribute? (c : Compiler ρ) (name : String) : Option (Attribute ρ) :=
  (c.own? name).or <|
    if name = "__doc__" || name = "__text_signature__" || name = "__weakref__" then
      some (.value .null)
    else if inherited.contains name || classNames.contains name then
      some (.native Attribute.uncallable)
    else none

end Compiler

/-- What a module offers under a name. -/
inductive Export (ρ : Type) where
  /-- A compiler as it is. -/
  | object (c : Compiler ρ)
  /-- A class of compilers. -/
  | kind (c : Compiler ρ)
  /-- A compiler made from its class. -/
  | made (c : Compiler ρ)
  /-- A kind of report. -/
  | report (k : Report.Kind)
  /-- The class of modules, which makes nothing without a name. -/
  | moduleClass
  /-- A plain value. -/
  | plain (d : Datum)

namespace Export

variable {ρ : Type}

/-- Something without any attributes that matter. -/
def other : Export ρ := .plain .null

/-- The value that a class is handed on as. -/
def classMark : Datum := .foreign "type" ""

/-- Makes an object from a class. A maker of its own decides alone what becomes of it; otherwise a
class without a setup of its own takes no arguments, and a setup must end with no value. -/
def instantiate (k : Keeping ρ) (c : Compiler ρ) (args : List Datum) : Job (Export ρ) :=
  match c.own? "__new__", c.own? "__init__" with
  | some maker, _ => do
    match ← maker.call k (classMark :: args) with
    | .foreign "type" _ => return .kind c
    | d => return .plain d
  | none, some setup => do
    match ← setup.call k args with
    | .null => return .made c
    | _ => throw .badType
  | none, none => if args.isEmpty then return .made c else throw .badType

/-- Calls what a module offers. Only classes can be called. -/
def call (k : Keeping ρ) (args : List Datum) : Export ρ → Job (Export ρ)
  | .kind c => instantiate k c args
  | .report r => do
    let _ ← Job.lift (r.make args)
    return other
  | _ => throw .badType

/-- Whether something is a class. -/
def isClass : Export ρ → Bool
  | .kind _ | .report _ | .moduleClass => true
  | _ => false

/-- Asks a routine for the attribute of a name. It may say that there is none. -/
def ask (k : Keeping ρ) (a : Attribute ρ) (name : String) : Job (Option (Attribute ρ)) := fun w =>
  match a.call k [.str name] w with
  | (.ok d, w') => (.ok (some (.value d)), w')
  | (.error .noAttribute, w') => (.ok none, w')
  | (.error e, w') => (.error e, w')

/-- Looks for an attribute. A class can take over the search for the attributes of its objects, and
the search for those that were not found. -/
def find (k : Keeping ρ) (name : String) : Export ρ → Job (Option (Attribute ρ))
  | .object c => return c.objectAttribute? name
  | .plain (.obj fields) => return (Compiler.ofFields fields).objectAttribute? name
  | .kind c => return c.classAttribute? name
  | .made c => do
    let found ← match c.own? "__getattribute__" with
      | some a => ask k a name
      | none => pure (c.madeAttribute? k name)
    match found, c.own? "__getattr__" with
    | none, some a => ask k a name
    | found, _ => return found
  | _ => return none

/-- Looks for an attribute that was there before. -/
def get (k : Keeping ρ) (name : String) (e : Export ρ) : Job (Attribute ρ) := do
  match ← e.find k name with
  | some a => return a
  | none => throw .noAttribute

end Export

end PassCheck
