/-
The pieces that a formula is put together of, as far as they decide whether it can be drawn.
-/
namespace PassCheck.Timing.Formula

/-- How much a row of pieces holds. A single character counts as more than one piece, because the
gap behind it belongs to the row. -/
inductive Filling where
  | nothing
  /-- Only a gap. -/
  | gap
  /-- One piece that is neither a gap nor a character. -/
  | single
  | several
deriving DecidableEq, Inhabited

/-- A piece of a formula. -/
inductive Piece where
  /-- A character; a large one has what is raised above it, and what is lowered below. -/
  | symbol (large : Bool)
  | row (filling : Filling) (large : Bool)
  /-- Pieces on top of each other. -/
  | column
  | gap
deriving DecidableEq, Inhabited

namespace Piece

/-- The row of some pieces. -/
def rowOf : List Piece → Piece
  | [] => .row .nothing false
  | [.symbol _] => .row .several false
  | [.gap] => .row .gap false
  | [_] => .row .single false
  | _ => .row .several false

/-- Whether what is raised and lowered stands above and below a piece. -/
def isLarge : Piece → Bool
  | .symbol large => large
  | .row _ large => large
  | _ => false

/-- Whether a piece can be made bold: in a row, the second piece is looked at. -/
def canBeBold : Piece → Bool
  | .row filling _ => filling == .several
  | _ => true

/-- Whether something can be raised and lowered behind a piece: a lone gap has no character to
stand behind. -/
def carriesScripts (p : Piece) : Bool := p.isLarge || p != .row .gap false

/-- Whether a piece takes further pieces in. -/
def isRow : Piece → Bool
  | .row _ _ => true
  | _ => false

end Piece

/-! ## Between delimiters -/

/-- What stands between two delimiters: pieces, and delimiters in the middle, each behind its
word. -/
inductive Inner where
  | piece
  | middle
  | delimiter (drawn : Bool)
deriving DecidableEq, Inhabited

namespace Inner

/-- Puts the delimiters in the middle in their places, from `i` on: a drawn one becomes a piece and
its word is taken away; for one that is not drawn, the first such goes too, and the item that moves
up is passed over. The fuel is the number of items. -/
def place : (fuel i : Nat) → List Inner → List Inner
  | 0, _, items => items
  | fuel + 1, i, items =>
    match items[i]?, items[i + 1]? with
    | some .middle, some (.delimiter false) =>
      place fuel (i + 1) ((items.erase (.delimiter false)).eraseIdx i)
    | some .middle, some _ => place fuel (i + 1) ((items.set (i + 1) .piece).eraseIdx i)
    | _, _ => place fuel (i + 1) items

/-- Whether every delimiter found its place. -/
def settled (items : List Inner) : Bool := (place items.length 0 items).all (· == .piece)

end Inner

end PassCheck.Timing.Formula
