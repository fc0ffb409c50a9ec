/-
The drawing of a graph as DOT text. A name that is an identifier or a numeral stands as it is, and
so does one in angle brackets; any other is quoted. One line end after a name does not count when
its form is looked at, but is written with it.
-/
import PassCheck.Graph.Basic

namespace PassCheck.Dot

/-! ## Names -/

/-- A character that may start a plain name. -/
def isLetter (c : Char) : Bool := c.isAlpha || c == '_'

/-- A letter or underscore, then letters, digits and underscores. -/
def isIdentifier : List Char → Bool
  | [] => false
  | c :: cs => isLetter c && cs.all fun d => isLetter d || d.isDigit

/-- Digits with at most one point, at least one digit, and a minus sign that may stand in front. -/
def isNumeral (cs : List Char) : Bool :=
  let body := match cs with
    | '-' :: cs => cs
    | cs => cs
  let whole := body.takeWhile Char.isDigit
  match body.dropWhile Char.isDigit with
  | [] => !whole.isEmpty
  | '.' :: fraction => fraction.all Char.isDigit && !(whole.isEmpty && fraction.isEmpty)
  | _ => false

/-- Words that have a meaning in DOT. -/
def keywords : List String := ["node", "edge", "graph", "digraph", "subgraph", "strict"]

/-- Whether a name stands in angle brackets. -/
def isAngled (cs : List Char) : Bool :=
  2 ≤ cs.length && cs.head? == some '<' && cs.getLast? == some '>'

/-- Writes every quote inside a name with one backslash in front: of the backslashes before it an
even number stays. The first argument counts the backslashes just passed. -/
def escapeQuotes : Nat → List Char → List Char
  | n, [] => List.replicate n '\\'
  | n, '\\' :: cs => escapeQuotes (n + 1) cs
  | n, '"' :: cs => List.replicate (n - n % 2) '\\' ++ '\\' :: '"' :: escapeQuotes 0 cs
  | n, c :: cs => List.replicate n '\\' ++ c :: escapeQuotes 0 cs

/-- A name without the line end that may follow it. -/
def stem (cs : List Char) : List Char := if cs.getLast? == some '\n' then cs.dropLast else cs

/-- A name as DOT takes it. -/
def quote (cs : List Char) : List Char :=
  if isAngled (stem cs) then cs
  else if (isIdentifier (stem cs) || isNumeral (stem cs)) &&
      !keywords.contains (String.ofList (cs.map Char.toLower)) then cs
  else '"' :: escapeQuotes 0 cs ++ ['"']

/-- Splits at the first colon; the second part is empty when there is none. -/
def splitColon (cs : List Char) : List Char × List Char :=
  (cs.takeWhile (· != ':'), (cs.dropWhile (· != ':')).drop 1)

/-- An endpoint: a node, maybe with a place on it, maybe with a compass point. -/
def quoteEndpoint (cs : List Char) : List Char :=
  let (node, rest) := splitColon cs
  if rest.isEmpty then quote node
  else
    let (place, compass) := splitColon rest
    quote node ++ ':' :: quote place ++ (if compass.isEmpty then [] else ':' :: compass)

/-! ## The drawing -/

/-- The lines of the vertices. -/
def vertexLines : List Datum → Option (List String)
  | [] => some []
  | d :: ds => do
    let t ← d.display?
    let ls ← vertexLines ds
    return ("\t" ++ String.ofList (quote t.toList) ++ "\n") :: ls

/-- The lines of the edges. -/
def edgeLines : List (Datum × Datum) → Option (List String)
  | [] => some []
  | (u, v) :: es => do
    let s ← u.display?
    let t ← v.display?
    let ls ← edgeLines es
    let ends := String.ofList (quoteEndpoint s.toList) ++ " -- " ++
      String.ofList (quoteEndpoint t.toList)
    return ("\t" ++ ends ++ "\n") :: ls

/-- The engine that lays out drawings. -/
def engine : String := "neato"

/-- The DOT text of a graph. -/
def draw? (g : Graph) : Option String := do
  let vs ← vertexLines g.names
  let es ← edgeLines g.orderedEdges
  return "graph \x7b\n" ++ String.join vs ++ String.join es ++ "\x7d\n"

end PassCheck.Dot
