/-
Selection: the item that would stand at a place if an array were sorted. The array is partitioned in
place round the item that stands there, again and again, until the place is left alone. Items of
which neither is below the other may change places, so for them the order of the array decides.
-/
namespace PassCheck.Timing.Select

variable {α : Type} [Inhabited α] (below : α → α → Bool)

/-- The first place from `i` on whose item is not below `x`. -/
def scanUp (x : α) (xs : Array α) : (fuel i : Nat) → Nat
  | 0, i => i
  | fuel + 1, i => if below (xs.getD i default) x then scanUp x xs fuel (i + 1) else i

/-- The place behind the last item before `j` that `x` is not below. -/
def scanDown (x : α) (xs : Array α) : (j : Nat) → Nat
  | 0 => 0
  | j + 1 => if below x (xs.getD j default) then scanDown x xs j else j + 1

/-- Partitions the items from `i` to before `j` round `x`: what is not below it goes up, what is not
above it goes down. Gives the array and the places where the two ends met. -/
def partition (x : α) : (fuel : Nat) → Array α → (i j : Nat) → Array α × Nat × Nat
  | 0, xs, i, j => (xs, i, j)
  | fuel + 1, xs, i, j =>
    let i := scanUp below x xs xs.size i
    let j := scanDown below x xs j
    if i < j then
      let xs := xs.swapIfInBounds i (j - 1)
      if i + 1 < j - 1 then partition x fuel xs (i + 1) (j - 1)
      else (xs, i + 1, j - 1)
    else (xs, i, j)

/-- Puts the right item at place `k`, looking between `lo` and before `hi`. -/
def settle (k : Nat) : (fuel : Nat) → Array α → (lo hi : Nat) → Array α
  | 0, xs, _, _ => xs
  | fuel + 1, xs, lo, hi =>
    if lo + 1 < hi then
      let (xs, i, j) := partition below (xs.getD k default) xs.size xs lo hi
      settle k fuel xs (if j ≤ k then i else lo) (if k < i then j else hi)
    else xs

/-- The item of a place, and the array in which it stands there. -/
def nth (k : Nat) (xs : Array α) : α × Array α :=
  let ys := settle below k xs.size xs 0 xs.size
  (ys.getD k default, ys)

end PassCheck.Timing.Select
