/-
Path texts: joining, splitting at the last slash, and the extension.
-/
namespace PassCheck.Path

/-- Joins two paths with one slash between them; an absolute second path stands alone. -/
def joinChars (dir name : List Char) : List Char :=
  if name.head? = some '/' then name
  else if dir.isEmpty || dir.getLast? = some '/' then dir ++ name
  else dir ++ '/' :: name

/-- Joins two paths. -/
def join (dir name : String) : String := String.ofList (joinChars dir.toList name.toList)

/-- What follows the last slash. -/
def baseChars (cs : List Char) : List Char := (cs.reverse.takeWhile (· != '/')).reverse

/-- The path up to and with the last slash. -/
def headChars (cs : List Char) : List Char := (cs.reverse.dropWhile (· != '/')).reverse

/-- A path without the slashes at its end, unless there is nothing else. -/
def trimmed (cs : List Char) : List Char :=
  if cs.all (· == '/') then cs else (cs.reverse.dropWhile (· == '/')).reverse

/-- The directory part of a path. -/
def dirChars (cs : List Char) : List Char := trimmed (headChars cs)

/-- The last part of a path. -/
def base (path : String) : String := String.ofList (baseChars path.toList)

/-- The directory part of a path. -/
def dir (path : String) : String := String.ofList (dirChars path.toList)

/-- Splits the last part of a path at its last dot. Leading dots belong to the name, so a name
without a dot after another character has no extension. -/
def splitExtension (cs : List Char) : List Char × List Char :=
  let name := baseChars cs
  let dots := name.takeWhile (· == '.')
  let rest := name.dropWhile (· == '.')
  if rest.contains '.' then
    let ext := (rest.reverse.takeWhile (· != '.')).reverse
    let stem := ((rest.reverse.dropWhile (· != '.')).drop 1).reverse
    (headChars cs ++ dots ++ stem, '.' :: ext)
  else (cs, [])

/-- The names of a path, in order; slashes separate them. -/
def names : List Char → List (List Char)
  | [] => [[]]
  | c :: cs =>
    if c == '/' then [] :: names cs
    else
      match names cs with
      | [] => [[c]]
      | n :: ns => (c :: n) :: ns

end PassCheck.Path
