/-
Wildcard patterns for file names: `*` stands for any characters, `?` for one, `[..]` for one of a
set and `[!..]` for one outside of it. A bracket that is never closed stands for itself.
-/
import PassCheck.World.Files

namespace PassCheck

/-- One element of a pattern. -/
inductive Wild where
  | star
  | any
  | char (c : Char)
  /-- One character inside (or, negated, outside) the closed ranges. -/
  | set (negated : Bool) (ranges : List (Char × Char))
deriving DecidableEq, Inhabited

namespace Wild

/-! ## Sets -/

/-- Cuts the body of a set at the hyphens that may join a range: the search starts at index `from`
and, after a hyphen at `k`, goes on at `k + 3`. -/
def cutHyphens : (fuel : Nat) → (start : Nat) → List Char → List (List Char)
  | 0, _, cs => [cs]
  | fuel + 1, start, cs =>
    match (cs.drop start).findIdx? (· == '-') with
    | none => [cs]
    | some k =>
      let at_ := start + k
      cs.take at_ :: cutHyphens fuel 2 (cs.drop (at_ + 1))

/-- A hyphen at the very end belongs to the piece before it. -/
def closeHyphen : List (List Char) → List (List Char)
  | [] => []
  | [c] => [c]
  | [c, []] => [c ++ ['-']]
  | c :: cs => c :: closeHyphen cs

/-- Removes ranges that run backwards: their two ends go, and the pieces are joined. From the last
piece to the first. -/
def mergeBackward : List (List Char) → List (List Char)
  | [] => []
  | c :: cs =>
    match mergeBackward cs with
    | [] => [c]
    | d :: ds =>
      match c.getLast?, d with
      | some hi, lo :: rest => if lo < hi then (c.dropLast ++ rest) :: ds else c :: d :: ds
      | _, _ => c :: d :: ds

/-- The ranges of pieces joined by hyphens: the last character of a piece and the first of the next
one are the ends of a range, and every other character stands for itself. -/
def rangesOf : (carried : Option Char) → List (List Char) → List (Char × Char)
  | carried, [] => (carried.map fun c => (c, c)).toList
  | carried, piece :: pieces =>
    let (closed, rest) := match carried, piece with
      | some lo, hi :: rest => ([(lo, hi)], rest)
      | some lo, [] => ([(lo, lo), ('-', '-')], [])
      | none, piece => ([], piece)
    if pieces.isEmpty then closed ++ rest.map fun c => (c, c)
    else
      closed ++ rest.dropLast.map (fun c => (c, c)) ++ rangesOf rest.getLast? pieces

/-- The element of a set, from the characters between its brackets. -/
def ofSet (body : List Char) : Wild :=
  let negated := body.head? == some '!'
  if body.contains '-' then
    let pieces := mergeBackward (closeHyphen (cutHyphens body.length (if negated then 2 else 1) body))
    match pieces with
    | ('!' :: piece) :: rest => .set true (rangesOf none (piece :: rest))
    | pieces => .set false (rangesOf none pieces)
  else
    .set negated ((if negated then body.tail else body).map fun c => (c, c))

/-- The length of the body of a set that starts here, up to its closing bracket. A bracket right at
the start, or right after the negation, belongs to the set. -/
def setLength? (cs : List Char) : Option Nat :=
  let skip := match cs with
    | '!' :: ']' :: _ => 2
    | '!' :: _ => 1
    | ']' :: _ => 1
    | _ => 0
  ((cs.drop skip).findIdx? (· == ']')).map (skip + ·)

/-! ## Patterns -/

/-- The elements of a pattern. -/
def parse : (fuel : Nat) → List Char → List Wild
  | 0, _ => []
  | _ + 1, [] => []
  | fuel + 1, '*' :: cs => .star :: parse fuel cs
  | fuel + 1, '?' :: cs => .any :: parse fuel cs
  | fuel + 1, '[' :: cs =>
    match setLength? cs with
    | some n => ofSet (cs.take n) :: parse fuel (cs.drop (n + 1))
    | none => .char '[' :: parse fuel cs
  | fuel + 1, c :: cs => .char c :: parse fuel cs

/-- The pattern of a text. -/
def ofText (cs : List Char) : List Wild := parse cs.length cs

/-- Whether an element other than the star fits a character. -/
def fits : Wild → Char → Bool
  | .star, _ => false
  | .any, _ => true
  | .char d, c => c == d
  | .set negated ranges, c => (ranges.any fun r => r.1 ≤ c && c ≤ r.2) != negated

/-- For every end of a name, whether it or one of the shorter ends is marked. -/
def orLater : List Bool → List Bool
  | [] => []
  | b :: bs =>
    let later := orLater bs
    (b || later.headD false) :: later

/-- For every end of a name, the whole name first and nothing last, whether it starts with a
character that an element fits and what follows the character is in `later`. -/
def step (w : Wild) : List Char → (later : List Bool) → List Bool
  | [], _ => [false]
  | c :: cs, later => (w.fits c && later.tail.headD false) :: step w cs later.tail

/-- For every end of a name, the whole name first and nothing last, whether it fits a pattern. -/
def fitting : List Wild → List Char → List Bool
  | [], cs => List.replicate cs.length false ++ [true]
  | .star :: ws, cs => orLater (fitting ws cs)
  | w :: ws, cs => step w cs (fitting ws cs)

/-- Whether a name fits a pattern as a whole. -/
def accepts (ws : List Wild) (cs : List Char) : Bool := (fitting ws cs).headD false

/-- Whether a text has a character with a special meaning. -/
def isPattern (cs : List Char) : Bool := cs.any fun c => c == '*' || c == '?' || c == '['

end Wild

/-! ## Expansion -/

namespace Files

/-- The names in a directory that fit a pattern. A leading dot must be written out. The working
directory may be left out of the path. -/
def namesLike (fs : Files) (dir : List Char) (pattern : List Char) (onlyDirs : Bool) :
    Except Failure (List (List Char)) :=
  if !askable dir then .error (.badValue none)
  else
    let path := if dir.isEmpty then "." else String.ofList dir
    let nodes := (fs.list path).filter fun e => !onlyDirs || e.2 == .dir
    let hidden := pattern.head? == some '.'
    let ws := Wild.ofText pattern
    .ok ((nodes.map fun e => e.1.toList).filter fun cs =>
      (hidden || cs.head? != some '.') && Wild.accepts ws cs)

/-- The last parts that fit a pattern in a directory. -/
def lastParts (fs : Files) (dir name : List Char) (onlyDirs : Bool) :
    Except Failure (List (List Char)) :=
  if Wild.isPattern name then fs.namesLike dir name onlyDirs
  else if name.isEmpty then .ok (if fs.isDir (String.ofList dir) then [[]] else [])
  else if fs.present (String.ofList (Path.joinChars dir name)) then .ok [name]
  else .ok []

/-- The paths that fit a pattern in the directories that are given. -/
def inDirs (fs : Files) (name : List Char) (onlyDirs : Bool) :
    List (List Char) → Except Failure (List (List Char))
  | [] => .ok []
  | dir :: dirs => do
    let names ← fs.lastParts dir name onlyDirs
    let others ← fs.inDirs name onlyDirs dirs
    return names.map (Path.joinChars dir) ++ others

/-- The paths that fit a pattern, directory by directory. The fuel bounds the number of directories
in the pattern. -/
def expandWithin (fs : Files) : (fuel : Nat) → (onlyDirs : Bool) → List Char →
    Except Failure (List (List Char))
  | 0, _, _ => .ok []
  | fuel + 1, onlyDirs, path => do
    let dir := Path.dirChars path
    let name := Path.baseChars path
    if dir.isEmpty then fs.namesLike [] name onlyDirs
    else
      let dirs ←
        if dir != path && Wild.isPattern dir then expandWithin fs fuel true dir else .ok [dir]
      fs.inDirs name onlyDirs dirs

/-- The paths that fit a pattern. A directory that cannot be asked for is refused. -/
def expand (fs : Files) (pattern : String) : Except Failure (List String) := do
  let cs := pattern.toList
  if Wild.isPattern cs then
    let paths ← fs.expandWithin (cs.length + 1) false cs
    return paths.map String.ofList
  else if fs.present pattern then return [pattern]
  else return []

end Files

end PassCheck
