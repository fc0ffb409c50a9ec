/-
Tokens of the program text: brackets of two kinds, the quote mark and atoms. White space and
comments (from a semicolon to the end of the line) separate tokens and are dropped.
-/
import PassCheck.Text.Blank

namespace PassCheck.Sexp

open PassCheck.Text

/-- The two kinds of brackets. -/
inductive Bracket where
  | round
  | square
deriving DecidableEq, Inhabited

/-- The closing character of a bracket. -/
def Bracket.closing : Bracket → Char
  | .round => ')'
  | .square => ']'

/-- The opening character of a bracket. -/
def Bracket.opening : Bracket → Char
  | .round => '('
  | .square => '['

/-- A token. -/
inductive Token where
  | opening (b : Bracket)
  | closing (b : Bracket)
  | quote
  | atom (text : List Char)
deriving DecidableEq, Inhabited

namespace Token

/-- The characters of a token. -/
def chars : Token → List Char
  | .opening b => [b.opening]
  | .closing b => [b.closing]
  | .quote => ['\'']
  | .atom cs => cs

/-- The token that is a single character of punctuation. -/
def punctuation? (c : Char) : Option Token :=
  if c == '(' then some (.opening .round)
  else if c == '[' then some (.opening .square)
  else if c == ')' then some (.closing .round)
  else if c == ']' then some (.closing .square)
  else if c == '\'' then some .quote
  else none

/-- The token of a text: punctuation, or else an atom. -/
def ofChars : List Char → Token
  | [c] => (punctuation? c).getD (.atom [c])
  | cs => .atom cs

end Token

/-- A character that may stand in an atom. -/
def isAtomChar (c : Char) : Bool :=
  !isBlank c && c != ';' && (Token.punctuation? c).isNone

/-- The tokens of a text. Every text has tokens: each character is white space, starts a comment,
is punctuation or belongs to an atom. -/
def tokenize : List Char → List Token
  | [] => []
  | c :: cs =>
    if isBlank c then tokenize cs
    else if c == ';' then tokenize (cs.dropWhile (· != '\n'))
    else
      match Token.punctuation? c with
      | some t => t :: tokenize cs
      | none => .atom (c :: cs.takeWhile isAtomChar) :: tokenize (cs.dropWhile isAtomChar)
termination_by cs => cs.length
decreasing_by
  all_goals rw [List.length_cons]
  · exact Nat.lt_succ_self _
  · exact Nat.lt_succ_of_le (List.dropWhile_sublist _).length_le
  · exact Nat.lt_succ_self _
  · exact Nat.lt_succ_of_le (List.dropWhile_sublist _).length_le

end PassCheck.Sexp
