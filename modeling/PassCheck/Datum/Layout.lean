/-
Values laid out over lines of eighty columns. A value that fits stays on one line; otherwise its
items go on lines of their own, indented behind the opening bracket, and a long text is broken
after white space. Dictionaries are laid out in the order of their keys.
-/
import PassCheck.Datum.Literal
import PassCheck.Datum.Order
import PassCheck.RunSort
import PassCheck.Text.Blank
import PassCheck.Text.Lines

namespace PassCheck

open PassCheck.Text

/-- A value prepared for layout, with its text on one line. -/
inductive Block where
  /-- Something that is never broken. -/
  | unit (line : String)
  /-- A text, which may be broken into quoted chunks. -/
  | text (chars : List Char)
  /-- Labelled items between an opening and a closing text; the last item leaves room for `reserve`
  columns. -/
  | group (line opening closing : String) (reserve : Nat) (items : List (String × Block))
deriving Inhabited

namespace Block

/-- The text of a block on one line. -/
def line : Block → String
  | .unit l => l
  | .text cs => String.ofList (quotedChars cs)
  | .group l _ _ _ _ => l

/-! ## From values to blocks -/

/-- The closing text of a sequence. -/
def closingOf : SeqKind → Nat → String
  | .tuple, 1 => ",)"
  | .tuple, _ => ")"
  | .list, _ => "]"

/-- The opening text of a sequence. -/
def openingOf : SeqKind → String
  | .tuple => "("
  | .list => "["

/-- Entries of a dictionary in the order of their keys. -/
def sortEntries (entries : List (Datum × String × Block)) : List (Datum × String × Block) :=
  RunSort.sort (fun a b => Datum.keyLess a.1 b.1) entries

/-- A dictionary from its prepared entries. -/
def ofEntries (entries : List (Datum × String × Block)) : Block :=
  let items := (sortEntries entries).map (·.2)
  if items.isEmpty then .unit (Datum.inBraces [])
  else .group (Datum.inBraces (items.map fun i => i.1 ++ i.2.line)) "\x7b" "\x7d" 1 items

mutual

/-- The block of a value; none when it has no text. -/
def ofDatum? : Datum → Option Block
  | .str s => some (.text s.toList)
  | .seq kind items => do
    let blocks ← ofItems? items
    let line := Datum.bracketed kind (blocks.map (·.2.line))
    let closing := closingOf kind items.length
    return .group line (openingOf kind) closing closing.length blocks
  | .dict entries => do
    let blocks ← ofEntries? entries
    return ofEntries blocks
  | .obj fields => do
    let line ← (Datum.obj fields).literal?
    let blocks ← ofFields? fields
    -- the closing parenthesis of an object is not counted
    return .group line "namespace(" ")" 0 blocks
  | d => d.literal?.map .unit
termination_by structural d => d

/-- The blocks of the items of a sequence. -/
def ofItems? : List Datum → Option (List (String × Block))
  | [] => some []
  | d :: ds => do
    let b ← ofDatum? d
    let bs ← ofItems? ds
    return ("", b) :: bs
termination_by structural ds => ds

/-- The blocks of the entries of a dictionary, with their keys. -/
def ofEntries? : List (Datum × Datum) → Option (List (Datum × String × Block))
  | [] => some []
  | (k, v) :: es => do
    let key ← k.literal?
    let b ← ofDatum? v
    let bs ← ofEntries? es
    return (k, key ++ ": ", b) :: bs
termination_by structural es => es

/-- The blocks of the fields of an object. -/
def ofFields? : List (String × Datum) → Option (List (String × Block))
  | [] => some []
  | (k, v) :: fs => do
    let b ← ofDatum? v
    let bs ← ofFields? fs
    return (k ++ "=", b) :: bs
termination_by structural fs => fs

end

/-! ## Breaking a text -/

/-- The parts of a line: a run of characters that are not blank with the blanks after it. -/
def wordsOf (cs : List Char) : List (List Char) :=
  cs.foldr (fun c words =>
    match words with
    | [] => [[c]]
    | word :: rest =>
      -- a blank joins the next part only if that part starts with a blank
      match word with
      | d :: _ => if isBlank c && !isBlank d then [c] :: word :: rest else (c :: word) :: rest
      | [] => [c] :: rest) []

/-- Joins parts while the quoted text stays within `width`; the very last part of the text must
leave room for `reserve` more columns. -/
def joinWords (width reserve : Nat) (lastLine : Bool) : List Char → List (List Char) → List (List Char)
  | current, [] => if current.isEmpty then [] else [current]
  | current, word :: words =>
    let room := if words.isEmpty && lastLine then width - reserve else width
    if (quotedChars (current ++ word)).length > room then
      (if current.isEmpty then [] else [current]) ++ joinWords width reserve lastLine word words
    else joinWords width reserve lastLine (current ++ word) words

/-- The chunks of the lines of a text. -/
def chunks (width reserve : Nat) : List (List Char) → List (List Char)
  | [] => []
  | line :: lines =>
    let room := if lines.isEmpty then width - reserve else width
    (if (quotedChars line).length ≤ room then [line]
      else joinWords width reserve lines.isEmpty [] (wordsOf line)) ++ chunks width reserve lines

/-- A text of more columns than there is room for. A text that is no part of another value gets
parentheses around its chunks. -/
def breakText (width : Nat) (indent allowance : Nat) (outermost : Bool) (cs : List Char) : String :=
  let indent := if outermost then indent + 1 else indent
  let allowance := if outermost then allowance + 1 else allowance
  let parts := (chunks (width - indent) allowance (looseLines cs)).map fun c =>
    String.ofList (quotedChars c)
  match parts with
  | [] | [_] => String.ofList (quotedChars cs)
  | parts =>
    let body := ("\n" ++ String.ofList (List.replicate indent ' ')).intercalate parts
    if outermost then "(" ++ body ++ ")" else body

/-! ## Layout -/

/-- The number of columns of a line. -/
def width : Nat := 80

mutual

/-- Lays out a block that starts at column `indent` and is followed by `allowance` more columns on
its last line. -/
def layout (indent allowance : Nat) (outermost : Bool) : Block → String
  | .unit l => l
  | .text cs =>
    if (quotedChars cs).length + indent + allowance ≤ width then String.ofList (quotedChars cs)
    else breakText width indent allowance outermost cs
  | .group l opening closing reserve items =>
    if l.length + indent + allowance ≤ width then l
    else
      opening ++
        layoutItems (indent + opening.length) (allowance + reserve) items ++ closing
termination_by structural b => b

/-- Lays out items on lines of their own; only the last one is followed by the closing text. -/
def layoutItems (indent allowance : Nat) : List (String × Block) → String
  | [] => ""
  | [(label, b)] => label ++ layout (indent + label.length) allowance false b
  | (label, b) :: items =>
    label ++ layout (indent + label.length) 1 false b ++ ",\n" ++
      String.ofList (List.replicate indent ' ') ++ layoutItems indent allowance items
termination_by structural items => items

end

end Block

/-- The text of a value laid out over lines; none when it holds an integer of too many digits. -/
def Datum.layout? (d : Datum) : Option String :=
  (Block.ofDatum? d).map (Block.layout 0 0 true)

end PassCheck
