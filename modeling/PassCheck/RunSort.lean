/-
Stable sorting by natural runs. A list is cut into runs, short ones are filled up by insertion, and
runs that stand side by side are merged, the ones of similar length first. While one of two runs
wins again and again, its items are taken over in leaps. For a true order all this only saves
comparisons; for a relation that is none, the comparisons made decide where the items end up.
-/
namespace PassCheck.RunSort

variable {α : Type} [Inhabited α]

/-! ## Searching -/

/-- The place between `lo` and `hi` where a test first fails, by halving. The fuel is at least the
distance. -/
def halve (test : α → Bool) (xs : Array α) : (fuel lo hi : Nat) → Nat
  | 0, _, hi => hi
  | fuel + 1, lo, hi =>
    if lo < hi then
      let mid := lo + (hi - lo) / 2
      if test (xs.getD mid default) then halve test xs fuel (mid + 1) hi
      else halve test xs fuel lo mid
    else hi

/-- Leaps of one, three, seven and so on, as long as the item there is on this side of the place
looked for. Gives the last distance that was, and the first that was not or is the limit. -/
def leap (near : Nat → Bool) (limit : Nat) : (fuel last next : Nat) → Nat × Nat
  | 0, last, next => (last, min next limit)
  | fuel + 1, last, next =>
    if next < limit && near next then leap near limit fuel next (2 * next + 1)
    else (last, min next limit)

/-- How many of the `n` items from `base` on come before the first that fails a test. The search
leaps away from the item at `hint` and then halves. -/
def gallop (test : α → Bool) (xs : Array α) (base n hint : Nat) : Nat :=
  let item (i : Nat) := xs.getD (base + i) default
  let (lo, hi) :=
    if test (item hint) then
      let (last, next) := leap (fun d => test (item (hint + d))) (n - hint) n 0 1
      (hint + last + 1, hint + next)
    else
      let (last, next) := leap (fun d => !test (item (hint - d))) (hint + 1) n 0 1
      (hint + 1 - next, hint - last)
  halve test xs n (base + lo) (base + hi) - base

/-! ## Merging -/

/-- The wins in a row after which items are taken over in leaps. -/
def leapAfter : Nat := 7

variable (less : α → α → Bool)

/-- What is left of an array from a place on. -/
def rest (xs : Array α) (i : Nat) : Array α := xs.extract i xs.size

/-- Merges two runs from the front: `i` and `j` items of them are in `out`. `leaping` says whether
items are taken over in leaps, `won` and `lost` are the wins in a row of the right and the left run,
and `patience` the wins that make it leap. Gives the patience it ends with too. -/
def mergeFront (left right : Array α) :
    (fuel : Nat) → (leaping : Bool) → (i j won lost patience : Nat) → (out : Array α) →
      Array α × Nat
  | 0, _, i, j, _, _, patience, out => (out ++ rest left i ++ rest right j, patience)
  | fuel + 1, false, i, j, won, lost, patience, out =>
    if less (right.getD j default) (left.getD i default) then
      let out := out.push (right.getD j default)
      if j + 1 = right.size then (out ++ rest left i, patience)
      else mergeFront left right fuel (patience ≤ won + 1) i (j + 1) (won + 1) 0 patience out
    else
      let out := out.push (left.getD i default)
      if i + 2 = left.size then (out ++ rest right j ++ rest left (i + 1), patience)
      else mergeFront left right fuel (patience ≤ lost + 1) (i + 1) j 0 (lost + 1) patience out
  | fuel + 1, true, i, j, _, _, patience, out =>
    let x := right.getD j default
    let k := gallop (fun y => !less x y) left i (left.size - i) 0
    let out := out ++ left.extract i (i + k)
    let i := i + k
    if 0 < k && i + 1 = left.size then (out ++ rest right j ++ rest left i, patience)
    else if i = left.size then (out ++ rest right j, patience)
    else
      let out := out.push x
      let j := j + 1
      if j = right.size then (out ++ rest left i, patience)
      else
        let y := left.getD i default
        let l := gallop (fun x => less x y) right j (right.size - j) 0
        let out := out ++ right.extract j (j + l)
        let j := j + l
        if j = right.size then (out ++ rest left i, patience)
        else
          let out := out.push y
          let i := i + 1
          if i + 1 = left.size then (out ++ rest right j ++ rest left i, patience)
          else if leapAfter ≤ k || leapAfter ≤ l then
            mergeFront left right fuel true i j 0 0 (if 1 < patience then patience - 1 else patience) out
          else mergeFront left right fuel false i j 0 0 (patience + 1) out

/-- The merged run when `i` and `j` items are left at the front of two runs and the others stand in
`out`, the last one first. One of the two numbers is zero. -/
def unreversed (left right : Array α) (i j : Nat) (out : Array α) : Array α :=
  left.extract 0 i ++ right.extract 0 j ++ out.reverse

/-- Merges two runs from the back: `i` and `j` items of them are left, the others are in `out`, the
last one first. -/
def mergeBack (left right : Array α) :
    (fuel : Nat) → (leaping : Bool) → (i j won lost patience : Nat) → (out : Array α) →
      Array α × Nat
  | 0, _, i, j, _, _, patience, out => (unreversed left right i j out, patience)
  | fuel + 1, false, i, j, won, lost, patience, out =>
    let x := right.getD (j - 1) default
    let y := left.getD (i - 1) default
    if less x y then
      let out := out.push y
      if i = 1 then (unreversed left right 0 j out, patience)
      else mergeBack left right fuel (patience ≤ lost + 1) (i - 1) j 0 (lost + 1) patience out
    else
      let out := out.push x
      if j = 2 then (unreversed right left 1 i out, patience)
      else mergeBack left right fuel (patience ≤ won + 1) i (j - 1) (won + 1) 0 patience out
  | fuel + 1, true, i, j, _, _, patience, out =>
    let x := right.getD (j - 1) default
    let kept := gallop (fun y => !less x y) left 0 i (i - 1)
    let k := i - kept
    let out := out ++ (left.extract kept i).reverse
    let i := kept
    if i = 0 then (unreversed left right 0 j out, patience)
    else
      let out := out.push x
      let j := j - 1
      if j = 1 then (unreversed right left 1 i out, patience)
      else
        let y := left.getD (i - 1) default
        let kept := gallop (fun x => less x y) right 0 j (j - 1)
        let l := j - kept
        let out := out ++ (right.extract kept j).reverse
        let j := kept
        if 0 < l && j = 1 then (unreversed right left 1 i out, patience)
        else if j = 0 then (unreversed left right i 0 out, patience)
        else
          let out := out.push y
          let i := i - 1
          if i = 0 then (unreversed left right 0 j out, patience)
          else if leapAfter ≤ k || leapAfter ≤ l then
            mergeBack left right fuel true i j 0 0 (if 1 < patience then patience - 1 else patience) out
          else mergeBack left right fuel false i j 0 0 (patience + 1) out

/-- Merges two runs that overlap, from the end where the shorter one stands. -/
def mergeOverlap (patience : Nat) (left right : Array α) : Array α × Nat :=
  let fuel := left.size + right.size
  if left.size ≤ right.size then
    let out := #[right.getD 0 default]
    if right.size = 1 then (out ++ left, patience)
    else if left.size = 1 then (out ++ rest right 1 ++ left, patience)
    else mergeFront less left right fuel false 0 1 0 0 patience out
  else
    let out := #[left.getD (left.size - 1) default]
    let i := left.size - 1
    if right.size = 1 then (unreversed right left 1 i out, patience)
    else mergeBack less left right fuel false i right.size 0 0 patience out

/-- Merges two runs. What the left one has below the first item of the right one, and what the right
one has above the last item of the left one, stays where it is. -/
def mergeRuns (patience : Nat) (left right : Array α) : Array α × Nat :=
  let k := gallop (fun y => !less (right.getD 0 default) y) left 0 left.size 0
  if k = left.size then (left ++ right, patience)
  else
    let last := left.getD (left.size - 1) default
    let l := gallop (fun x => less x last) right 0 right.size (right.size - 1)
    if l = 0 then (left ++ right, patience)
    else
      let (merged, patience) := mergeOverlap less patience (rest left k) (right.extract 0 l)
      (left.extract 0 k ++ merged ++ rest right l, patience)

/-! ## Runs -/

/-- How many items follow the first one in the run that starts a list: as long as each item is less
than the one before it, or as long as none is. -/
def runLength (descending : Bool) : α → List α → Nat
  | _, [] => 0
  | a, b :: bs => if less b a == descending then runLength descending b bs + 1 else 0

/-- Inserts an item into a sorted run, behind the items that it is not less than. -/
def insert (xs : Array α) (x : α) : Array α :=
  let k := halve (fun y => !less x y) xs xs.size 0 xs.size
  (xs.extract 0 k).push x ++ rest xs k

/-- The run that starts a list, turned round if it is descending, and filled up by insertion if it
is shorter than `least`; and what is left of the list. -/
def takeRun (least : Nat) : List α → Array α × List α
  | [] => (#[], [])
  | [a] => (#[a], [])
  | a :: b :: items =>
    let descending := less b a
    let k := runLength less descending a (b :: items) + 1
    let run := ((a :: b :: items).take k).toArray
    let others := (a :: b :: items).drop k
    ((others.take (least - k)).foldl (insert less) (if descending then run.reverse else run),
      others.drop (least - k))

/-- The least length of a run among `n` items: `n` itself when it is small, and otherwise its
leading six bits, one more if any other bit is set. The fuel is at least the number of bits. -/
def leastRun : (fuel n : Nat) → (odd : Bool) → Nat
  | 0, n, odd => n + odd.toNat
  | fuel + 1, n, odd =>
    if 64 ≤ n then leastRun fuel (n / 2) (odd || n % 2 = 1) else n + odd.toNat

/-- A run with the place where it starts, and the depth of the boundary behind it. -/
structure Run (α : Type) where
  start : Nat
  items : Array α
  depth : Nat

/-- The depth of the boundary between two runs among `n` items: the first binary place in which the
middles of the runs differ, as fractions of the whole. `a` and `b` are the doubled middles. -/
def depthOf (n : Nat) : (fuel a b : Nat) → Nat
  | 0, _, _ => 1
  | fuel + 1, a, b =>
    if n ≤ a then depthOf n fuel (2 * (a - n)) (2 * (b - n)) + 1
    else if n ≤ b then 1
    else depthOf n fuel (2 * a) (2 * b) + 1

/-- Runs side by side, the last one first, and the patience of the next merge. -/
structure Pending (α : Type) where
  runs : List (Run α)
  patience : Nat

/-- Two neighbouring runs as one. -/
def join (patience : Nat) (left right : Run α) : Run α × Nat :=
  let (items, patience) := mergeRuns less patience left.items right.items
  ({ left with items := items }, patience)

/-- Merges the last runs as long as the boundary before the last one is deeper than `depth`. -/
def settle (depth : Nat) : (fuel : Nat) → Pending α → Pending α
  | 0, p => p
  | fuel + 1, p =>
    match p.runs with
    | last :: before :: others =>
      if depth < before.depth then
        let (run, patience) := join less p.patience before last
        settle depth fuel ⟨run :: others, patience⟩
      else p
    | _ => p

/-- Adds a run of `n` items in all. -/
def push (n : Nat) (items : Array α) (p : Pending α) : Pending α :=
  match p.runs with
  | [] => ⟨[⟨0, items, 0⟩], p.patience⟩
  | last :: _ =>
    let middle := 2 * last.start + last.items.size
    let depth := depthOf n (2 * n.log2 + 4) middle (middle + last.items.size + items.size)
    let p := settle less depth p.runs.length p
    match p.runs with
    | [] => p
    | last :: others =>
      ⟨⟨last.start + last.items.size, items, 0⟩ :: { last with depth := depth } :: others, p.patience⟩

/-- Cuts a list of `n` items in all into runs. The fuel is the number of items. -/
def pushAll (n least : Nat) : (fuel : Nat) → List α → Pending α → Pending α
  | 0, _, p => p
  | _ + 1, [], p => p
  | fuel + 1, items, p =>
    let (run, others) := takeRun less least items
    pushAll n least fuel others (push less n run p)

/-- Merges all runs that are left. Of the last three the middle one goes to the shorter side. -/
def finish : (fuel : Nat) → Pending α → Pending α
  | 0, p => p
  | fuel + 1, p =>
    match p.runs with
    | c :: b :: a :: others =>
      if a.items.size < c.items.size then
        let (run, patience) := join less p.patience a b
        finish fuel ⟨c :: run :: others, patience⟩
      else
        let (run, patience) := join less p.patience b c
        finish fuel ⟨run :: a :: others, patience⟩
    | [b, a] =>
      let (run, patience) := join less p.patience a b
      ⟨[run], patience⟩
    | _ => p

/-- Sorts a list. Items of which neither is less keep their order. -/
def sort (items : List α) : List α :=
  let n := items.length
  let p := pushAll less n (leastRun n n false) n items ⟨[], leapAfter⟩
  ((finish less p.runs.length p).runs.reverse.flatMap fun r => r.items.toList)

end PassCheck.RunSort
