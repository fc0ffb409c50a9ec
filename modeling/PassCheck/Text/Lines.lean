/-
Lines of a text. A file's line ends (LF, CRLF, CR) all become LF when it is read, and after that a
line ends at LF only. Breaking a long value over lines uses a wider class of line ends.
-/
import PassCheck.Text.Range

namespace PassCheck.Text

/-- Turns CRLF and a lone CR into LF. -/
def unifyNewlines : List Char → List Char
  | [] => []
  | '\r' :: '\n' :: cs => '\n' :: unifyNewlines cs
  | '\r' :: cs => '\n' :: unifyNewlines cs
  | c :: cs => c :: unifyNewlines cs

/-- Cuts after every character that `ends` holds of; each piece keeps its end. -/
def cutAfter (ends : Char → Bool) : List Char → List (List Char)
  | [] => []
  | c :: cs =>
    if ends c then [c] :: cutAfter ends cs
    else
      match cutAfter ends cs with
      | [] => [[c]]
      | line :: lines => (c :: line) :: lines

/-- The lines of a text, each with its LF; the last one may lack it. -/
def lines : List Char → List (List Char) := cutAfter (· == '\n')

/-- Characters that end a line when a long text is broken: LF, VT, FF, CR, the information
separators, NEL and the two Unicode separators. -/
def isLineEnd (c : Char) : Bool :=
  inRanges [(0x0a, 0x0d), (0x1c, 0x1e), (0x85, 0x85), (0x2028, 0x2029)] c

/-- Joins a piece that ends in CR with a following piece that is a lone LF. -/
def rejoinCrlf : List (List Char) → List (List Char)
  | [] => []
  | piece :: pieces =>
    match rejoinCrlf pieces with
    | ['\n'] :: rest =>
      if piece.getLast? == some '\r' then (piece ++ ['\n']) :: rest else piece :: ['\n'] :: rest
    | rest => piece :: rest

/-- The pieces of a text at the wider class of line ends; CRLF is one end. -/
def looseLines (cs : List Char) : List (List Char) := rejoinCrlf (cutAfter isLineEnd cs)

/-- The first line without its LF, and what follows. -/
def takeLine (cs : List Char) : List Char × List Char :=
  (cs.takeWhile (· != '\n'), (cs.dropWhile (· != '\n')).drop 1)

end PassCheck.Text
