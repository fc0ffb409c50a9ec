/-
Reading formulas. A formula is a sequence of tokens: spaces, changes of type, pairs of delimiters,
and pieces with what is raised and lowered behind them. Reading stops with a failure as soon as the
formula as a whole cannot be drawn. Blanks before a token do not count.
-/
import PassCheck.Failure
import PassCheck.Timing.Formula.Piece
import PassCheck.Timing.Formula.Word

namespace PassCheck.Timing.Formula

/-- The failure of a formula that cannot be read. -/
def unreadable : Failure := .badValue none

/-- What must be there. Reading leads to a failure, to nothing of the kind, or to something and the text
after it. -/
def required {α : Type} (r : Except Failure (Option (α × List Char))) : Except Failure (α × List Char) :=
  match r with
  | .ok (some x) => .ok x
  | .ok none => .error unreadable
  | .error e => .error e

/-- Drops blanks. -/
def skip (cs : List Char) : List Char := cs.dropWhile (· == ' ')

/-- A character that must follow. -/
def expect (c : Char) (cs : List Char) : Except Failure (List Char) :=
  match skip cs with
  | d :: cs => if d == c then .ok cs else .error unreadable
  | [] => .error unreadable

/-! ## Without pieces in them -/

/-- A delimiter. -/
def delimiter? (cs : List Char) : Option (String × List Char) := oneOf? delimiters (skip cs)

/-- A delimiter that must follow. -/
def expectDelimiter (cs : List Char) : Except Failure (String × List Char) :=
  match delimiter? cs with
  | some r => .ok r
  | none => .error unreadable

/-- A decimal number that must follow. -/
def expectNumber (cs : List Char) : Except Failure (List Char) :=
  let cs := skip cs
  let unsigned := match cs with
    | '-' :: rest | '+' :: rest => rest
    | cs => cs
  match unsigned.takeWhile Char.isDigit, unsigned.dropWhile Char.isDigit with
  | [], '.' :: rest =>
    if (rest.takeWhile Char.isDigit).isEmpty then .error unreadable
    else .ok (rest.dropWhile Char.isDigit)
  | [], _ => .error unreadable
  | _, '.' :: rest => .ok (rest.dropWhile Char.isDigit)
  | _, rest => .ok rest

/-- A number in braces. -/
def bracedNumber (cs : List Char) : Except Failure (List Char) := do
  expect '}' (← expectNumber (← expect '{' cs))

/-- A delimiter in braces, which may be left out. -/
def bracedDelimiter (cs : List Char) : Except Failure (List Char) := do
  let cs ← expect '{' cs
  expect '}' (((delimiter? cs).map (·.2)).getD cs)

/-- A style in braces, which may be left out: a digit up to three. -/
def bracedStyle (cs : List Char) : Except Failure (List Char) := do
  let cs ← expect '{' cs
  match skip cs with
  | c :: rest => expect '}' (if "0123".toList.contains c then rest else cs)
  | [] => .error unreadable

/-- The text up to the brace that ends it; a backslash takes the next character with it. -/
def textUpToBrace : List Char → Except Failure (List Char × List Char)
  | '}' :: cs => .ok ([], cs)
  | '\\' :: c :: cs => do
    let (text, rest) ← textUpToBrace cs
    return (c :: text, rest)
  | '\\' :: [] | [] => .error unreadable
  | c :: cs => do
    let (text, rest) ← textUpToBrace cs
    return (c :: text, rest)

/-- A hexadecimal digit. -/
def isHex (c : Char) : Bool := "0123456789abcdefABCDEF".toList.contains c

/-- The text after a quoted one whose opening quote is gone. A doubled quote and most characters
behind a backslash belong to it. The fuel is the number of characters. -/
def afterQuoted? (quote : Char) : (fuel : Nat) → List Char → Option (List Char)
  | 0, _ => none
  | fuel + 1, cs =>
    match cs with
    | '\\' :: 'x' :: rest =>
      if (rest.takeWhile isHex).isEmpty then none
      else afterQuoted? quote fuel (rest.dropWhile isHex)
    | '\\' :: _ :: rest => afterQuoted? quote fuel rest
    | '\\' :: [] | [] => none
    | c :: d :: rest =>
      if c == quote then
        if d == quote then afterQuoted? quote fuel rest else some (d :: rest)
      else afterQuoted? quote fuel (d :: rest)
    | [c] => if c == quote then some [] else none

/-- A symbol. A blank is one too. -/
def symbol? (cs : List Char) : Option (Piece × List Char) :=
  match wordOf? symbols cs, cs with
  | some (name, rest), _ =>
    if operators.contains name || relations.contains name then some (.row .several false, rest)
    else some (.symbol (largeSymbols.contains name), rest)
  | none, '\\' :: '#' :: rest =>
    if ((rest.head?).map isLetter).getD false then none else some (.symbol false, rest)
  | none, '\\' :: c :: rest => if escaped.contains c then some (.symbol false, rest) else none
  | none, c :: rest =>
    if isSymbol c then some (if isSpaced c then .row .several false else .symbol false, rest)
    else none
  | none, [] => none

/-- The start of a group: a brace, which may have a kind of type before it. -/
def groupStart? (cs : List Char) : Option (List Char) :=
  let brace? (cs : List Char) := Text.after? ['{'] (skip cs)
  match Text.after? "\\math".toList cs with
  | some rest => (oneOf? fonts (skip rest)).bind fun r => brace? r.2
  | none => brace? cs

/-! ## Pieces -/

/-- A binary operator that starts a text, with what follows it. -/
def afterOperator? (cs : List Char) : Option (List Char) :=
  match wordOf? operators cs, cs with
  | some (_, rest), _ => some rest
  | none, c :: rest => if operatorSigns.contains c then some rest else none
  | none, [] => none

/-- Whether the text of a group starts with a sign that has no room around it there: an operator, or
a comma that stands alone. Nothing is raised or lowered behind it. -/
def startsPlain (inside : List Char) : Bool :=
  match afterOperator? inside, inside with
  | some rest, _ => !((skip rest).head?.map "^_'".toList.contains).getD false
  | none, ',' :: rest => (skip rest).head? == some '}'
  | none, _ => false

/-- The row of the pieces of a group. -/
def groupOf (inside : List Char) (pieces : List Piece) : Piece :=
  if pieces.length = 1 && startsPlain (skip inside) then .rowOf [.symbol false] else .rowOf pieces

/-- The pieces of a group, made bold. -/
def boldOf (inside : List Char) (pieces : List Piece) : Except Failure Piece :=
  if pieces.all Piece.canBeBold then .ok (groupOf inside pieces) else .error unreadable

/-- Whether a script is raised; the others are lowered. -/
inductive Level where
  | raised
  | lowered
deriving DecidableEq, Inhabited

/-- A piece with what is raised and lowered behind it, each at most once. Primes are added to what is
raised, which must then be a row. -/
def withScripts (nucleus : Option Piece) (scripts : List (Level × Piece)) (primes : Nat) :
    Except Failure Piece :=
  let on (level : Level) := (scripts.filter fun s => s.1 == level).map (·.2)
  if 1 < (on .raised).length || 1 < (on .lowered).length then .error unreadable
  else if 0 < primes && !(on .raised).all Piece.isRow then .error .noAttribute
  else
    match nucleus with
    | some p =>
      if p.isLarge then .ok (.row .single false)
      else if p.carriesScripts then .ok (.row .several false)
      else .error unreadable
    | none => .ok (.row .several false)

/-- What a stack of lines is made of: lines of pieces, texts in quotes, and stacks in it. -/
inductive Layer where
  | line
  | quoted
  /-- A stack that is empty or starts with a quoted text or with something else. -/
  | stack (start : Option Bool)
deriving DecidableEq, Inhabited

/-- The stack of some layers. -/
def Layer.stackOf (layers : List Layer) : Layer := .stack (layers.head?.map (· == .quoted))

/-- Why a layer cannot be drawn: it must be a line of pieces, which may be empty. -/
def Layer.fault? : Layer → Option Failure
  | .line | .stack none => none
  | .quoted | .stack (some true) => some .noAttribute
  | .stack (some false) => some .badType

/-- Checks that a stack can be drawn: it has layers, and each of them can be drawn. -/
def checkStack (layers : List Layer) : Except Failure Unit :=
  match layers.findSome? Layer.fault? with
  | some e => .error e
  | none => if layers.isEmpty then .error unreadable else .ok ()

/-- Checks what stands between two delimiters: delimiters in the middle need a piece beside them. -/
def checkInner (items : List Inner) : Except Failure Unit :=
  if !items.isEmpty && !items.contains .piece then .error unreadable
  else if Inner.settled items then .ok ()
  else .error .noAttribute

/-- Drops the line breaks of a stack. -/
def skipBreaks : (fuel : Nat) → List Char → List Char
  | 0, cs => cs
  | fuel + 1, cs =>
    match skip cs with
    | '\\' :: '\\' :: rest => skipBreaks fuel rest
    | _ => cs

/-! ## The grammar

Every function takes a bound on the depth and the length of what it reads. -/

mutual

/-- A token: the pieces that it adds, and what follows. An unknown word cannot be drawn. -/
def token : (fuel : Nat) → List Char → Except Failure (Option (List Piece × List Char))
  | 0, _ => .error unreadable
  | fuel + 1, cs => do
    let cs := skip cs
    match ← simple fuel cs with
    | some r => return some r
    | none =>
      match ← delimited fuel cs with
      | some (p, rest) => return some ([p], rest)
      | none =>
        match cs with
        | '\\' :: c :: _ => if isLetter c then throw unreadable else return none
        | _ => return none
termination_by structural fuel => fuel

/-- A token that is no pair of delimiters. -/
def simple : (fuel : Nat) → List Char → Except Failure (Option (List Piece × List Char))
  | 0, _ => .error unreadable
  | fuel + 1, cs => do
    let cs := skip cs
    match oneOf? spaces cs, Text.after? "\\hspace".toList cs, wordOf? fonts cs with
    | some (_, rest), _, _ => return some ([.gap], rest)
    | none, some rest, _ => return some ([.gap], ← bracedNumber rest)
    | none, none, some (_, rest) => return some ([], rest)
    | none, none, none =>
      match ← scripted fuel cs with
      | some (p, rest) => return some ([p], rest)
      | none => return none
termination_by structural fuel => fuel

/-- A piece with what is raised and lowered behind it and with primes; all but one may be absent. -/
def scripted : (fuel : Nat) → List Char → Except Failure (Option (Piece × List Char))
  | 0, _ => .error unreadable
  | fuel + 1, cs => do
    let nucleus ← placeable fuel cs
    let behind := (nucleus.map (·.2)).getD cs
    let (found, rest) ← scripts fuel behind
    let primes := (skip rest).takeWhile (· == '\'')
    if !found.isEmpty then
      let p ← withScripts (nucleus.map (·.1)) found primes.length
      return some (p, (skip rest).drop primes.length)
    else if cs.head? == some '\'' then
      return some (.row .several false, cs.dropWhile (· == '\''))
    else
      match nucleus with
      | none => return none
      | some (p, rest) =>
        if primes.isEmpty then return some (p, rest)
        return some (← withScripts (some p) [] primes.length, (skip rest).drop primes.length)
termination_by structural fuel => fuel

/-- What is raised and lowered, and the text after it. -/
def scripts : (fuel : Nat) → List Char → Except Failure (List (Level × Piece) × List Char)
  | 0, _ => .error unreadable
  | fuel + 1, cs => do
    let marked := match skip cs with
      | '^' :: rest => some (Level.raised, rest)
      | '_' :: rest => some (Level.lowered, rest)
      | _ => none
    match marked with
    | none => return ([], cs)
    | some (level, rest) =>
      let (p, rest) ← script fuel rest
      let (more, rest) ← scripts fuel rest
      return ((level, p) :: more, rest)
termination_by structural fuel => fuel

/-- The piece that is raised or lowered. A blank is a piece, unless an accent follows it. -/
def script : (fuel : Nat) → List Char → Except Failure (Piece × List Char)
  | 0, _ => .error unreadable
  | fuel + 1, cs =>
    if cs.head? == some ' ' && (accent? (skip cs)).isNone then .ok (.symbol false, cs.drop 1)
    else required (placeable fuel (skip cs))
termination_by structural fuel => fuel

/-- A piece that something can be raised and lowered behind. -/
def placeable : (fuel : Nat) → List Char → Except Failure (Option (Piece × List Char))
  | 0, _ => .error unreadable
  | fuel + 1, cs => do
    match accent? cs with
    | some rest =>
      let (_, rest) ← required (placeable fuel (skip rest))
      return some (.column, rest)
    | none =>
      match symbol? cs, wordOf? functions cs, groupStart? cs with
      | some r, _, _ => return some r
      | none, some (name, rest), _ =>
        return some (.row .several (largeFunctions.contains name), rest)
      | none, none, some inside =>
        let (pieces, rest) ← tokens fuel none inside
        return some (groupOf inside pieces, ← expect '}' rest)
      | none, none, none => command fuel cs
termination_by structural fuel => fuel

/-- A word with groups behind it. Letters may follow the word directly, but then no group does. -/
def command : (fuel : Nat) → List Char → Except Failure (Option (Piece × List Char))
  | 0, _ => .error unreadable
  | fuel + 1, cs => do
    let after (name : String) : Option (List Char) := Text.after? ('\\' :: name.toList) cs
    if let some rest := after "operatorname" then
      let (pieces, rest) ← simples fuel (← expect '{' rest)
      let p := Piece.row (if pieces.isEmpty then .nothing else .several) false
      return some (p, ← expect '}' rest)
    if let some rest := ["frac", "dfrac", "binom"].findSome? after then
      return some (.row .several false, ← group fuel true (← group fuel true rest))
    if let some rest := after "genfrac" then
      let rest ← bracedDelimiter (← bracedDelimiter rest)
      let rest ← bracedStyle (← bracedNumber rest)
      return some (.row .several false, ← group fuel true (← group fuel true rest))
    if let some rest := ["overset", "underset"].findSome? after then
      return some (.row .single false, ← group fuel false (← group fuel false rest))
    if let some rest := after "sqrt" then
      let rest ← match skip rest with
        | '[' :: inside => do
          let (_, outside) ← tokens fuel (some ']') inside
          if outside.length == inside.length then throw unreadable
          expect ']' outside
        | _ => pure rest
      return some (.row .several false, ← group fuel true rest)
    if let some rest := ["overline", "underline"].findSome? after then
      return some (.row .single false, ← group fuel true rest)
    if let some rest := after "text" then
      let (text, rest) ← textUpToBrace (← expect '{' rest)
      return some (.rowOf (text.map fun _ => .symbol false), rest)
    if let some rest := after "boldsymbol" then
      let inside ← expect '{' rest
      let (pieces, rest) ← simples fuel inside
      let rest ← expect '}' rest
      return some (← boldOf inside pieces, rest)
    if let some rest := after "substack" then
      let (stack, rest) ← layers fuel (← expect '{' rest)
      checkStack stack
      return some (.row .single false, rest)
    if let some rest := ["phantom", "llap", "rlap"].findSome? after then
      return some (.row .several false, ← group fuel false rest)
    return none
termination_by structural fuel => fuel

/-- A group in braces, which may have to hold a token. -/
def group : (fuel : Nat) → (filled : Bool) → List Char → Except Failure (List Char)
  | 0, _, _ => .error unreadable
  | fuel + 1, filled, cs => do
    let cs ← expect '{' cs
    if filled then
      let (_, rest) ← required (token fuel cs)
      let (_, rest) ← tokens fuel none rest
      expect '}' rest
    else
      let (_, rest) ← tokens fuel none cs
      expect '}' rest
termination_by structural fuel => fuel

/-- Tokens, as many as there are; some have to stop before a closing character, and must be there. -/
def tokens : (fuel : Nat) → (closing : Option Char) → List Char →
    Except Failure (List Piece × List Char)
  | 0, _, _ => .error unreadable
  | fuel + 1, closing, cs => do
    if closing.isSome && (skip cs).head? == closing then return ([], cs)
    match ← token fuel cs with
    | none => return ([], cs)
    | some (pieces, rest) =>
      let (more, rest) ← tokens fuel closing rest
      return (pieces ++ more, rest)
termination_by structural fuel => fuel

/-- Simple tokens, as many as there are. -/
def simples : (fuel : Nat) → List Char → Except Failure (List Piece × List Char)
  | 0, _ => .error unreadable
  | fuel + 1, cs => do
    match ← simple fuel cs with
    | none => return ([], cs)
    | some (pieces, rest) =>
      let (more, rest) ← simples fuel rest
      return (pieces ++ more, rest)
termination_by structural fuel => fuel

/-- A pair of delimiters with what stands between them. -/
def delimited : (fuel : Nat) → List Char → Except Failure (Option (Piece × List Char))
  | 0, _ => .error unreadable
  | fuel + 1, cs => do
    match Text.after? "\\left".toList cs with
    | none => return none
    | some rest =>
      let (_, rest) ← expectDelimiter rest
      let (items, rest) ← inners fuel rest
      match Text.after? "\\right".toList (skip rest) with
      | none => throw unreadable
      | some rest =>
        let (_, rest) ← expectDelimiter rest
        checkInner items
        return some (.row .several false, rest)
termination_by structural fuel => fuel

/-- What stands between two delimiters. -/
def inners : (fuel : Nat) → List Char → Except Failure (List Inner × List Char)
  | 0, _ => .error unreadable
  | fuel + 1, cs => do
    let cs := skip cs
    let (items, rest) ← match ← simple fuel cs with
      | some (pieces, rest) => pure (pieces.map fun _ => Inner.piece, some rest)
      | none =>
        match ← delimited fuel cs, Text.after? "\\middle".toList cs with
        | some (_, rest), _ => pure ([.piece], some rest)
        | none, some rest => do
          let (d, rest) ← expectDelimiter rest
          pure ([.middle, .delimiter (d != ".")], some rest)
        | none, none => pure ([], none)
    match rest with
    | none => return ([], cs)
    | some rest =>
      let (more, rest) ← inners fuel rest
      return (items ++ more, rest)
termination_by structural fuel => fuel

/-- The layers of a stack, up to the brace that ends it. -/
def layers : (fuel : Nat) → List Char → Except Failure (List Layer × List Char)
  | 0, _ => .error unreadable
  | fuel + 1, cs => do
    let cs := skip cs
    match cs with
    | '}' :: rest => return ([], rest)
    | '{' :: inside =>
      let (inner, rest) ← layers fuel inside
      let (more, rest) ← layers fuel rest
      return (.stackOf inner :: more, rest)
    | _ =>
      let quoted := match cs with
        | '"' :: rest => afterQuoted? '"' rest.length rest
        | '\'' :: rest => afterQuoted? '\'' rest.length rest
        | _ => none
      match quoted with
      | some rest =>
        let (more, rest) ← layers fuel rest
        return (.quoted :: more, rest)
      | none =>
        let (_, rest) ← required (token fuel cs)
        let (_, rest) ← tokens fuel none rest
        let (more, rest) ← layers fuel (skipBreaks rest.length rest)
        return (.line :: more, rest)
termination_by structural fuel => fuel

end

/-- Checks that a formula can be drawn. It may not be empty. -/
def checkFormula (cs : List Char) : Except Failure Unit := do
  let fuel := 12 * (cs.length + 2)
  let (_, rest) ← required (token fuel cs)
  let (_, rest) ← tokens fuel none rest
  if (skip rest).isEmpty then return () else throw unreadable

end PassCheck.Timing.Formula
