/-
Loading a compiler by name. A name is `module:attribute`; without an attribute it is `Compiler`. A
compiler has a list of passes, or the names of attributes to make passes of.
-/
import PassCheck.Build.Compiler

namespace PassCheck

/-- What modules offer, by the names of the modules and the names of what they offer. -/
abbrev Modules (ρ : Type) := List (String × List (String × Export ρ))

/-- A member of a loaded list of passes. What is no pass can be listed, but not run. -/
inductive Loaded (ρ : Type) where
  | pass (p : Pass ρ)
  | value (d : Datum)

/-- A member of a list of passes, ready to run. A value has no transform; an object may have
something of that name, but it cannot be called. -/
def Loaded.toPass {ρ : Type} (k : Keeping ρ) : Loaded ρ → Pass ρ
  | .pass p => p
  | .value d =>
    let failure := if (d.field? "transform").isSome then Failure.badType else .noAttribute
    ⟨"", k.keep fun _ => throw failure, none⟩

namespace Load

variable {ρ : Type}

/-- The part of a name before the first separator, and the part after it. -/
def cut (separator : Char) (s : String) : String × String :=
  let cs := s.toList
  (String.ofList (cs.takeWhile (· != separator)),
    String.ofList ((cs.dropWhile (· != separator)).drop 1))

/-- A dotted name followed by its leading parts, the longest first. -/
def dottedParts (name : List Char) : List (List Char) :=
  name :: (((List.range name.length).filter fun k => name[k]? == some '.').map name.take).reverse

/-! ## Members of a module -/

/-- What every module has besides what it offers. -/
def standard? (member : String) : Option (Export ρ) :=
  if Compiler.inherited.contains member ||
      ["__annotations__", "__loader__", "__name__", "__package__", "__spec__"].contains member then
    some .other
  else none

/-- What a module has under a name; it may offer a class that is asked for what it lacks. -/
def member? (k : Keeping ρ) (offers : List (String × Export ρ)) (member : String) :
    Job (Option (Export ρ)) :=
  if member = "__class__" then return some .moduleClass
  else if member = "__dict__" then return some .other
  else
    match (offers.lookup member).or (standard? member), offers.lookup "__getattr__" with
    | some e, _ => return some e
    | none, some asked => do return some (← asked.call k [.str member])
    | none, none => return none

/-- Whether a module says that it is not complete yet. -/
def isPartial (offers : List (String × Export ρ)) : Bool :=
  match offers.lookup "__spec__" with
  | some (.object c) | some (.kind c) =>
    match c.own? "_initializing" with
    | some (.value d) => d.truthy
    | some _ => true
    | none => false
  | _ => false

/-- The wording for a member that a module lacks. A module that offers something under the name of
its name has none. -/
def missingMember (offers : List (String × Export ρ)) (name member : String) : String :=
  let lacks := " has no attribute '" ++ member ++ "'"
  if (offers.lookup "__name__").isSome then "module" ++ lacks
  else if isPartial offers then
    "partially initialized module '" ++ name ++ "'" ++ lacks ++
      " (most likely due to a circular import)"
  else "module '" ++ name ++ "'" ++ lacks

/-! ## Modules -/

/-- Whether further modules can be looked for below a module: it has a path of them. A path that
cannot be followed is refused. -/
def isPackage (k : Keeping ρ) (offers : List (String × Export ρ)) : Job Bool := do
  match ← member? k offers "__path__" with
  | none => return false
  | some (.plain .null) => return true
  | some (.plain d) => if d.visit?.isSome then return true else throw .badType
  | some _ => throw .badType

/-- The fault of a name that leads to no module. The name comes first, then its leading parts: the
part before the last dot must be a module, but no module holds further ones. -/
def missingModule (k : Keeping ρ) (modules : Modules ρ) : List String → Job (Option ImportFault)
  | [] => return none
  | [name] =>
    if (modules.lookup name).isSome then return none
    else return some (.noModule ("No module named " ++ Text.quoted name))
  | name :: parent :: parents => do
    if (modules.lookup name).isSome then return none
    match ← missingModule k modules (parent :: parents) with
    | some fault => return some fault
    | none =>
      let text := "No module named " ++ Text.quoted name
      if ← isPackage k ((modules.lookup parent).getD []) then return some (.noModule text)
      return some (.noModule (text ++ "; " ++ Text.quoted parent ++ " is not a package"))

/-- What a module offers under a name, or why it cannot be imported. -/
def importFrom (k : Keeping ρ) (modules : Modules ρ) (name member : String) :
    Job (Except ImportFault (Export ρ)) := do
  match ← missingModule k modules ((dottedParts name.toList).map String.ofList) with
  | some fault => return .error fault
  | none =>
    let offers := (modules.lookup name).getD []
    match ← member? k offers member with
    | some e => return .ok e
    | none => return .error (.noAttribute (missingMember offers name member))

/-- Imports what a spec names. A module name that is empty or starts with a dot cannot be asked for
at all. -/
def importSpec (k : Keeping ρ) (modules : Modules ρ) (spec : String) : Job (Export ρ) := do
  let (name, member) := cut ':' spec
  if name.toList.head? = some '.' then throw .badType
  if name = "" then throw (.badValue none)
  match ← importFrom k modules name (if member = "" then "Compiler" else member) with
  | .ok e => return e
  | .error fault => throw (.report (.load (.str spec) (.fault fault)))

/-! ## Passes -/

/-- The failure of something that is no compiler. -/
def noPasses (spec : String) : Failure :=
  .report (.load (.str spec) (.given (.str "no passes or pass_names")))

/-- The members of a list of passes. -/
def listed : Attribute ρ → Except Failure (List (Loaded ρ))
  | .passes ps => .ok (ps.map .pass)
  | .interpreters table => .ok (table.map fun e => .value (.str e.1))
  | .value d =>
    match d.visit? with
    | some ds => .ok (ds.map .value)
    | none => .error .badType
  | _ => .error .badType

/-- The names in a list of names. -/
def namesOf : Attribute ρ → Except Failure (List Datum)
  | .value d =>
    match d.visit? with
    | some ds => .ok ds
    | none => .error .badType
  | _ => .error .badType

/-- The interpreter of a name in a table of interpreters, which may be absent. What is no table
cannot be searched. -/
def interpreterIn (k : Keeping ρ) (table : Option (Attribute ρ)) (name : String) :
    Except Failure (Option ρ) :=
  match table with
  | none | some (.value .null) => .ok none
  | some (.interpreters table) => .ok (table.lookup name)
  | some (.value (.dict entries)) =>
    .ok ((Datum.entry? (.str name) entries).bind fun d => (Attribute.value d).transform? k)
  | some (.value d) => .error (if (d.field? "get").isSome then .badType else .noAttribute)
  | some _ => .error .noAttribute

/-- The passes of a compiler: its list of passes, or those that its names of passes lead to. -/
def passesOf (k : Keeping ρ) (spec : String) (e : Export ρ) : Job (List (Loaded ρ)) := do
  if (← e.find k "passes").isSome then
    Job.lift (listed (← e.get k "passes"))
  else if (← e.find k "pass_names").isSome then
    let names ← e.get k "pass_names"
    let table ← e.find k "interp_dict"
    let transform? (name : String) : Job (Option ρ) := do
      return (← e.find k name).bind (·.transform? k)
    let interpreter? (name : String) : Job (Option ρ) := Job.lift (interpreterIn k table name)
    let passes ← Pass.ofNames transform? interpreter? (← Job.lift (namesOf names))
    return passes.map .pass
  else throw (noPasses spec)

/-- Loads the passes of a compiler by its name. A class makes a compiler first. -/
def passes (k : Keeping ρ) (modules : Modules ρ) (spec : String) : Job (List (Loaded ρ)) := do
  let e ← importSpec k modules spec
  passesOf k spec (← if e.isClass then e.call k [] else pure e)

/-- Loads the passes of a compiler by its name, ready to run. -/
def runnable (k : Keeping ρ) (modules : Modules ρ) (spec : String) : Job (List (Pass Routine)) := do
  return (← passes k modules spec).map fun p => (p.toPass k).map k.run

/-- The module of reports, which can always be imported. -/
def reportModule : String × List (String × Export ρ) :=
  ("errors",
    [("HarnessError", .report .general), ("LookupFailure", .report .lookup),
      ("DispatchFailure", .report .dispatch), ("PassResultMismatch", .report .mismatch),
      ("NonTextualFinalOutput", .report .nonTextual), ("ExternalToolFailure", .report .externalTool),
      ("UnexpectedExitCode", .report .exitCode), ("CompilerLoadFailure", .report .load),
      ("__file__", .other), ("__cached__", .other), ("__builtins__", .other)])

end Load

end PassCheck
