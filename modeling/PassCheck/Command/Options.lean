/-
Command lines. Options may stand anywhere and may be shortened as long as they stay unique; `--`
ends them. Positional arguments are taken in groups: each run of them fills as many positionals as
it can, and arguments that find no place are reported at the end.
-/
import PassCheck.Failure
import PassCheck.Text.Digit
import PassCheck.Text.Quoted

namespace PassCheck.Command

/-- What a value must be. -/
inductive ValueKind where
  | text
  | integer
  | choice (names : List String)
deriving DecidableEq, Inhabited

/-- What an option does. -/
inductive FlagKind where
  | help
  | switch
  | value (kind : ValueKind)
deriving DecidableEq, Inhabited

/-- An option with its spellings; the last one is its full name. -/
structure Flag where
  names : List String
  kind : FlagKind
deriving DecidableEq, Inhabited

/-- A positional argument; one that takes many comes last. -/
structure Positional where
  name : String
  many : Bool
  kind : ValueKind
deriving DecidableEq, Inhabited

/-- A command line's grammar, with its texts. -/
structure Grammar where
  program : String
  usage : String
  help : String
  positionals : List Positional
  flags : List Flag
deriving DecidableEq, Inhabited

/-- Why a command line leads to nothing: help was asked for, or it is wrong. -/
inductive Stop where
  | help
  | wrong (message : String)
deriving DecidableEq, Inhabited

/-- What was given, by name: a text or an integer, or a list where any number may be given. -/
abbrev Settings := List (String × Datum)

namespace Settings

/-- Gives a name its value, in place of an earlier one. -/
def put (s : Settings) (name : String) (value : Datum) : Settings :=
  (name, value) :: s.filter fun e => e.1 != name

/-- The value given for a name. -/
def value (s : Settings) (name : String) (default : Datum) : Datum := (s.lookup name).getD default

/-- The text given for a name. -/
def text (s : Settings) (name : String) : String :=
  match s.lookup name with
  | some (.str t) => t
  | _ => ""

/-- The values given for a name that takes many. -/
def items (s : Settings) (name : String) : List Datum :=
  match s.lookup name with
  | some (.list ds) => ds
  | _ => []

/-- Whether something was given for a name. -/
def given (s : Settings) (name : String) : Bool := (s.lookup name).isSome

end Settings

/-! ## Values -/

/-- The name of an option in messages. -/
def Flag.title (f : Flag) : String := "/".intercalate f.names

/-- The full name of an option. -/
def Flag.key (f : Flag) : String := f.names.getLastD ""

/-- A wrong argument. -/
def wrongArgument (title message : String) : Stop := .wrong ("argument " ++ title ++ ": " ++ message)

/-- A value of the kind that is asked for. -/
def ValueKind.read (k : ValueKind) (title s : String) : Except Stop Datum :=
  match k with
  | .text => .ok (.str s)
  | .integer =>
    match Integer.ofText? s with
    | some n => .ok (.int n)
    | none => .error (wrongArgument title ("invalid int value: " ++ Text.quoted s))
  | .choice names =>
    if names.contains s then .ok (.str s)
    else
      .error (wrongArgument title ("invalid choice: " ++ Text.quoted s ++ " (choose from " ++
        ", ".intercalate (names.map Text.quoted) ++ ")"))

/-- Values of the kind that is asked for. -/
def ValueKind.readAll (k : ValueKind) (title : String) : List String → Except Stop (List Datum)
  | [] => .ok []
  | s :: ss => do
    let a ← k.read title s
    let as ← k.readAll title ss
    return a :: as

/-- The value of arguments that belong together. The first separator among them is dropped. What
takes one argument has it as its value, but when none is left its value is the empty list. -/
def ValueKind.collect (k : ValueKind) (title : String) (many : Bool) (args : List String) :
    Except Stop Datum := do
  match many, ← k.readAll title (args.erase "--") with
  | false, [d] => return d
  | _, ds => return .list ds

/-! ## Telling options from arguments -/

/-- How an argument is understood as an option: the option, if it is known, the spelling, and the
value that is part of the argument. -/
structure Spelling where
  flag : Option Flag
  name : String
  value : Option String
deriving DecidableEq, Inhabited

/-- What an argument is. -/
inductive Mark where
  | argument
  | separator
  | option (s : Spelling)
deriving DecidableEq, Inhabited

/-- All spellings with their options, in order. -/
def Grammar.spellings (g : Grammar) : List (String × Flag) :=
  g.flags.flatMap fun f => f.names.map fun n => (n, f)

/-- Splits at the first equals sign; the value is absent when there is none. -/
def splitEquals (s : String) : String × Option String :=
  let cs := s.toList
  let name := String.ofList (cs.takeWhile (· != '='))
  match cs.dropWhile (· != '=') with
  | [] => (name, none)
  | _ :: rest => (name, some (String.ofList rest))

/-- A text that looks like a negative number. -/
def looksNegative (cs : List Char) : Bool :=
  -- one line end may follow
  let cs := if cs.getLast? = some '\n' then cs.dropLast else cs
  match cs with
  | '-' :: body =>
    let whole := body.takeWhile Text.isDigit
    match body.dropWhile Text.isDigit with
    | [] => !whole.isEmpty
    | '.' :: fraction => !fraction.isEmpty && fraction.all Text.isDigit
    | _ => false
  | _ => false

/-- The options that a shortened spelling may mean. A spelling with one dash is a short option with
its value attached; one with two dashes is the beginning of a long one. -/
def Grammar.abbreviated (g : Grammar) (arg : String) : List Spelling :=
  if ['-', '-'].isPrefixOf arg.toList then
    let (start, value) := splitEquals arg
    (g.spellings.filter fun e => start.toList.isPrefixOf e.1.toList).map fun e =>
      ⟨some e.2, e.1, value⟩
  else
    let short := String.ofList (arg.toList.take 2)
    g.spellings.filterMap fun e =>
      if e.1 = short then some ⟨some e.2, e.1, some (String.ofList (arg.toList.drop 2))⟩
      else if arg.toList.isPrefixOf e.1.toList then some ⟨some e.2, e.1, none⟩
      else none

/-- What a single argument is, apart from the separator. -/
def Grammar.mark (g : Grammar) (arg : String) : Except Stop Mark :=
  let cs := arg.toList
  if cs.head? != some '-' then .ok .argument
  else
    match g.spellings.lookup arg with
    | some f => .ok (.option ⟨some f, arg, none⟩)
    | none =>
      if cs.length = 1 then .ok .argument
      else
        let (name, value) := splitEquals arg
        match g.spellings.lookup name, value with
        | some f, some v => .ok (.option ⟨some f, name, some v⟩)
        | _, _ =>
          match g.abbreviated arg with
          | [s] => .ok (.option s)
          | [] =>
            if looksNegative cs || cs.contains ' ' then .ok .argument
            else .ok (.option ⟨none, arg, none⟩)
          | ss =>
            .error (.wrong ("ambiguous option: " ++ arg ++ " could match " ++
              ", ".intercalate (ss.map (·.name))))

/-- What the arguments are. After the first separator all are arguments. -/
def Grammar.marks (g : Grammar) : List String → Except Stop (List (String × Mark))
  | [] => .ok []
  | "--" :: args => .ok (("--", .separator) :: args.map fun a => (a, .argument))
  | arg :: args => do
    let m ← g.mark arg
    let ms ← g.marks args
    return (arg, m) :: ms

/-! ## Taking arguments -/

/-- How far the reading of a command line has come. -/
structure Progress where
  settings : Settings
  positionals : List Positional
  extras : List String

/-- How many arguments a positional takes from here: separators do not count as arguments but are
taken along. -/
def Positional.extent? (p : Positional) (marks : List Mark) : Option Nat :=
  let lead := (marks.takeWhile (· == .separator)).length
  match marks.drop lead with
  | .argument :: rest =>
    let more :=
      if p.many then rest.takeWhile fun m => m == .argument || m == .separator
      else rest.takeWhile (· == .separator)
    some (lead + 1 + more.length)
  | _ => none

/-- How many arguments each of the positionals takes, if all of them find some. -/
def extents? : List Positional → List Mark → Option (List Nat)
  | [], _ => some []
  | p :: ps, marks => do
    let n ← p.extent? marks
    let ns ← extents? ps (marks.drop n)
    return n :: ns

/-- How many arguments as many positionals as possible take from here. -/
def bestExtents (ps : List Positional) (marks : List Mark) : List Nat :=
  ((List.range (ps.length + 1)).reverse.findSome? fun k => extents? (ps.take k) marks).getD []

/-- Gives positionals their arguments. -/
def fill : List Positional → List Nat → List (String × Mark) → Settings → Except Stop Settings
  | p :: ps, n :: ns, items, s => do
    let value ← p.kind.collect p.name p.many ((items.take n).map (·.1))
    fill ps ns (items.drop n) (s.put p.name value)
  | _, _, _, s => .ok s

/-- Takes as many positionals as possible; gives what is left of the arguments. -/
def takePositionals (items : List (String × Mark)) (g : Progress) :
    Except Stop (List (String × Mark) × Progress) := do
  let ns := bestExtents g.positionals (items.map (·.2))
  let settings ← fill g.positionals ns items g.settings
  return (items.drop (ns.foldl (· + ·) 0), ⟨settings, g.positionals.drop ns.length, g.extras⟩)

/-- Applies an option that has what it needs. -/
def applyFlag (f : Flag) (value : Option String) (g : Progress) : Except Stop Progress :=
  match f.kind, value with
  | .help, _ => .error .help
  | .switch, _ => .ok { g with settings := g.settings.put f.key (.bool true) }
  | .value k, some v => do
    let value ← k.collect f.title false [v]
    return { g with settings := g.settings.put f.key value }
  | .value _, none => .error (wrongArgument f.title "expected one argument")

/-- The refusal of a value that an option does not take. -/
def ignoredValue (f : Flag) (value : String) : Stop :=
  wrongArgument f.title ("ignored explicit argument " ++ Text.quoted value)

/-- The short options that are written behind one dash. Short options take no values, so a character
that is none of them is refused, with all that follows it. -/
def cluster (g : Grammar) (f : Flag) : List Char → Except Stop (List Flag)
  | [] => .ok [f]
  | c :: cs =>
    match g.spellings.lookup (String.ofList ['-', c]) with
    | none => .error (ignoredValue f (String.ofList (c :: cs)))
    | some f' => do return f :: (← cluster g f' cs)

/-- Applies options without values, one after another. -/
def applySwitches : List Flag → Progress → Except Stop Progress
  | [], g => .ok g
  | f :: fs, g => do applySwitches fs (← applyFlag f none g)

/-- Takes an option from the front of the arguments, with its value. -/
def takeOption (grammar : Grammar) (arg : String) (s : Spelling) (rest : List (String × Mark))
    (g : Progress) : Except Stop (List (String × Mark) × Progress) :=
  match s.flag with
  | none => .ok (rest, { g with extras := g.extras ++ [arg] })
  | some f =>
    match f.kind, s.value with
    | .value _, some v => do return (rest, ← applyFlag f (some v) g)
    | .value _, none =>
      match rest with
      | (v, .argument) :: rest => do return (rest, ← applyFlag f (some v) g)
      | _ => .error (wrongArgument f.title "expected one argument")
    | _, none => do return (rest, ← applyFlag f none g)
    | _, some v =>
      if ['-', '-'].isPrefixOf s.name.toList || v = "" then .error (ignoredValue f v)
      else do
        let fs ← cluster grammar f v.toList
        return (rest, ← applySwitches fs g)

/-- The number of arguments before the next option; none when no option follows. -/
def nextOption? (items : List (String × Mark)) : Option Nat :=
  items.findIdx? fun e => match e.2 with
    | .option _ => true
    | _ => false

/-- Takes positionals and options in turn until the last option, then the remaining positionals.
The fuel is the number of arguments: each round takes at least one. -/
def takeAll (grammar : Grammar) : (fuel : Nat) → List (String × Mark) → Progress →
    Except Stop Progress
  | 0, _, g => .ok g
  | fuel + 1, items, g =>
    match nextOption? items with
    | none => do
      let (rest, g) ← takePositionals items g
      return { g with extras := g.extras ++ rest.map (·.1) }
    | some k => do
      let (rest, g') ← if k = 0 then Except.ok (items, g) else takePositionals items g
      if rest.length < items.length then takeAll grammar fuel rest g'
      else
        let g' := { g' with extras := g'.extras ++ (items.take k).map (·.1) }
        match items.drop k with
        | (arg, .option s) :: rest =>
          let (rest, g') ← takeOption grammar arg s rest g'
          takeAll grammar fuel rest g'
        | _ => return g'

/-- Reads a command line. Missing arguments are reported before superfluous ones. -/
def Grammar.parse (g : Grammar) (args : List String) : Except Stop Settings := do
  let items ← g.marks args
  let p ← takeAll g (items.length + 1) items ⟨[], g.positionals, []⟩
  if !p.positionals.isEmpty then
    throw (.wrong ("the following arguments are required: " ++
      ", ".intercalate (p.positionals.map (·.name))))
  if !p.extras.isEmpty then
    throw (.wrong ("unrecognized arguments: " ++ " ".intercalate p.extras))
  return p.settings

end PassCheck.Command
