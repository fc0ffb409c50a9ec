/-
Medians of measurements. A summary has one row for every test and pass, in the order in which they
appear first, and its time is a median of theirs: at least half of them are at most as long, at
least half are at least as long, and of an even number it is the midpoint of the two middle ones.
Since times in increasing order do not depend on the order they were given in, neither do medians.

All this holds for every library of tables that does what its documentation says (`Documented`). It
says where groups and rows stand, and what a median is in terms of a sorted copy; that groups are
those of all rows of a key, and that half of the values lie on each side, is proved.
-/
import Mathlib.Algebra.Order.Field.Rat
import Mathlib.Data.List.Induction
import Mathlib.Data.List.Perm.Basic
import Mathlib.Data.List.Sort
import Mathlib.Tactic.Linarith
import PassCheck.Timing.Summary

namespace PassCheck.Timing

/-! ## What is documented -/

/-- What a library of tables is documented to do: to group a column of keys without sorting them, and
to give the median of a column of numbers that have exact values. -/
structure Tables.Documented (lib : Tables) : Prop where
  /-- A group holds rows of its own key. -/
  key_eq {κ : Type} [DecidableEq κ] (keys : List κ) : ∀ g ∈ lib.groups keys, ∀ i ∈ g.2,
    keys[i]? = some g.1
  /-- No group is empty. -/
  nonempty {κ : Type} [DecidableEq κ] (keys : List κ) : ∀ g ∈ lib.groups keys, g.2 ≠ []
  /-- There is one group for a key. -/
  one {κ : Type} [DecidableEq κ] (keys : List κ) : ((lib.groups keys).map Prod.fst).Nodup
  /-- Every row is in a group, and in no other. -/
  whole {κ : Type} [DecidableEq κ] (keys : List κ) :
    ((lib.groups keys).flatMap Prod.snd).Perm (List.range keys.length)
  /-- The order of rows is preserved within each group. -/
  within {κ : Type} [DecidableEq κ] (keys : List κ) : ∀ g ∈ lib.groups keys,
    g.2.Pairwise (· < ·)
  /-- Groups that are not sorted appear in the order in which they did in the table. -/
  order {κ : Type} [DecidableEq κ] (keys : List κ) : (lib.groups keys).Pairwise
    fun g g' => ∀ i ∈ g.2.head?, ∀ j ∈ g'.2.head?, i < j
  /-- The median of an odd number of values is the middle one of a sorted copy. -/
  odd (qs sorted : List Rat) (m : Rat) : sorted.Perm qs → sorted.Pairwise (· ≤ ·) →
    qs.length % 2 = 1 → sorted[qs.length / 2]? = some m → lib.median (qs.map .exact) = .exact m
  /-- The median of an even number of values is the average of the two middle ones. -/
  even (qs sorted : List Rat) (lower upper : Rat) : sorted.Perm qs → sorted.Pairwise (· ≤ ·) →
    qs.length % 2 = 0 → sorted[qs.length / 2 - 1]? = some lower →
    sorted[qs.length / 2]? = some upper → lib.median (qs.map .exact) = .exact ((lower + upper) / 2)

/-! ## Groups -/

section

variable {κ : Type} [DecidableEq κ] {keys : List κ} {key : κ}

theorem mem_positionsOf {i : Nat} : i ∈ positionsOf keys key ↔ keys[i]? = some key := by
  rw [positionsOf, List.mem_filter, List.mem_range, decide_eq_true_eq]
  exact ⟨And.right, fun h => ⟨(List.getElem?_eq_some_iff.1 h).1, h⟩⟩

theorem pairwise_positionsOf (keys : List κ) (key : κ) :
    (positionsOf keys key).Pairwise (· < ·) :=
  List.pairwise_lt_range.filter _

/-- The first position of a key is where it appears first. -/
theorem head?_positionsOf (hkey : key ∈ keys) :
    (positionsOf keys key).head? = some (keys.findIdx (· = key)) := by
  have hlt : keys.findIdx (· = key) < keys.length :=
    List.findIdx_lt_length_of_exists ⟨key, hkey, decide_eq_true rfl⟩
  rw [positionsOf, List.head?_filter, List.find?_range_eq_some]
  refine ⟨?_, List.mem_range.2 hlt, fun j hj => ?_⟩
  · have hfound := List.findIdx_getElem (w := hlt)
    rw [decide_eq_true_eq] at hfound ⊢
    rw [List.getElem?_eq_getElem hlt, hfound]
  · have hnot := List.not_of_lt_findIdx hj
    rw [decide_eq_false_iff_not] at hnot
    rw [Bool.not_eq_true', decide_eq_false_iff_not, List.getElem?_eq_getElem (Nat.lt_trans hj hlt)]
    exact fun h => hnot (Option.some.inj h)

variable {lib : Tables}

/-- A group is all positions of its key. -/
theorem Tables.Documented.positions_eq (h : lib.Documented) {g : κ × List Nat}
    (hg : g ∈ lib.groups keys) : g.2 = positionsOf keys g.1 := by
  have hmem : ∀ i, i ∈ g.2 ↔ i ∈ positionsOf keys g.1 := by
    intro i
    rw [mem_positionsOf]
    refine ⟨h.key_eq keys g hg i, fun hi => ?_⟩
    -- the position is in some group, and that group has the same key
    have hrange : i ∈ List.range keys.length := List.mem_range.2 (List.getElem?_eq_some_iff.1 hi).1
    obtain ⟨g', hg', hi'⟩ := List.mem_flatMap.1 ((h.whole keys).mem_iff.2 hrange)
    have hkey : g'.1 = g.1 := Option.some.inj ((h.key_eq keys g' hg' i hi').symm.trans hi)
    rwa [List.inj_on_of_nodup_map (h.one keys) hg' hg hkey] at hi'
  have hlt : ∀ {is : List Nat}, is.Pairwise (· < ·) → is.Nodup := fun his => his.imp Nat.ne_of_lt
  have hsorted := h.within keys g hg
  have hperm := (List.perm_ext_iff_of_nodup (hlt hsorted)
    (hlt (pairwise_positionsOf keys g.1))).2 hmem
  exact hperm.eq_of_pairwise' (hsorted.imp Nat.le_of_lt)
    ((pairwise_positionsOf keys g.1).imp Nat.le_of_lt)

/-- The groups are those of the keys that occur. -/
theorem Tables.Documented.mem_names (h : lib.Documented) :
    key ∈ (lib.groups keys).map Prod.fst ↔ key ∈ keys := by
  constructor
  · intro hkey
    obtain ⟨g, hg, rfl⟩ := List.mem_map.1 hkey
    obtain ⟨i, hi⟩ := List.exists_mem_of_ne_nil _ (h.nonempty keys g hg)
    exact List.mem_of_getElem? (h.key_eq keys g hg i hi)
  · intro hkey
    obtain ⟨i, hi⟩ := List.mem_iff_getElem?.1 hkey
    have hrange : i ∈ List.range keys.length := List.mem_range.2 (List.getElem?_eq_some_iff.1 hi).1
    obtain ⟨g, hg, hig⟩ := List.mem_flatMap.1 ((h.whole keys).mem_iff.2 hrange)
    exact List.mem_map.2 ⟨g, hg, Option.some.inj ((h.key_eq keys g hg i hig).symm.trans hi)⟩

/-- The groups stand in the order in which their keys appear first. -/
theorem Tables.Documented.names_ordered (h : lib.Documented) (keys : List κ) :
    ((lib.groups keys).map Prod.fst).Pairwise
      fun k k' => keys.findIdx (· = k) < keys.findIdx (· = k') := by
  have hfirst : ∀ g ∈ lib.groups keys, g.2.head? = some (keys.findIdx (· = g.1)) := by
    intro g hg
    rw [h.positions_eq hg]
    exact head?_positionsOf (h.mem_names.1 (List.mem_map_of_mem hg))
  rw [List.pairwise_map]
  exact (h.order keys).imp_of_mem fun hg hg' hlt => hlt _ (hfirst _ hg) _ (hfirst _ hg')

end

/-! ## Medians of exact values -/

/-- A median of values: at least half of them are at most the median, at least half are at least the
median, and it is the midpoint of the two middle values when their number is even. -/
structure IsMedian (qs : List Rat) (m : Rat) : Prop where
  half_le : qs.length ≤ 2 * qs.countP (· ≤ m)
  half_ge : qs.length ≤ 2 * qs.countP (m ≤ ·)
  midpoint : qs.length % 2 = 0 → ∃ (sorted : List Rat) (lower upper : Rat),
    sorted.Perm qs ∧ sorted.Pairwise (· ≤ ·) ∧ sorted[qs.length / 2 - 1]? = some lower ∧
    sorted[qs.length / 2]? = some upper ∧ m = (lower + upper) / 2

variable {qs : List Rat} {m v : Rat} {k : Nat}

/-- In increasing values, a place and all before it are at most what stands there. -/
theorem lt_countP_le (hs : qs.Pairwise (· ≤ ·)) (hv : qs[k]? = some v) (hm : v ≤ m) :
    k < qs.countP (· ≤ m) := by
  obtain ⟨hk, rfl⟩ := List.getElem?_eq_some_iff.1 hv
  have hall : (qs.take (k + 1)).countP (· ≤ m) = (qs.take (k + 1)).length := by
    rw [List.countP_eq_length]
    intro x hx
    obtain ⟨i, hi, rfl⟩ := List.getElem_of_mem hx
    rw [List.length_take] at hi
    rw [List.getElem_take, decide_eq_true_eq]
    refine le_trans ?_ hm
    rcases Nat.lt_or_eq_of_le (Nat.le_of_lt_succ (Nat.lt_of_lt_of_le hi (Nat.min_le_left ..)))
      with hik | rfl
    · exact List.pairwise_iff_getElem.1 hs i k _ hk hik
    · exact le_refl _
  have hle := (List.take_sublist (k + 1) qs).countP_le (p := (· ≤ m))
  rw [hall, List.length_take] at hle
  omega

/-- In increasing values, a place and all behind it are at least what stands there. -/
theorem le_countP_ge (hs : qs.Pairwise (· ≤ ·)) (hv : qs[k]? = some v) (hm : m ≤ v) :
    qs.length - k ≤ qs.countP (m ≤ ·) := by
  obtain ⟨hk, rfl⟩ := List.getElem?_eq_some_iff.1 hv
  have hall : (qs.drop k).countP (m ≤ ·) = (qs.drop k).length := by
    rw [List.countP_eq_length]
    intro x hx
    obtain ⟨i, hi, rfl⟩ := List.getElem_of_mem hx
    rw [List.length_drop] at hi
    rw [List.getElem_drop, decide_eq_true_eq]
    refine le_trans hm ?_
    rcases Nat.eq_zero_or_pos i with rfl | hi0
    · exact le_refl _
    · exact List.pairwise_iff_getElem.1 hs k (k + i) hk _ (by omega)
  have hle := (List.drop_sublist k qs).countP_le (p := (m ≤ ·))
  rwa [hall, List.length_drop] at hle

/-- There is a median, and the library gives it. It depends on the sorted values only. -/
theorem Tables.Documented.exists_median {lib : Tables} (h : lib.Documented) (hne : qs ≠ []) :
    ∃ m, IsMedian qs m ∧ ∀ qs' : List Rat, qs'.Perm qs → lib.median (qs'.map .exact) = .exact m := by
  have hpos := List.length_pos_iff.2 hne
  have hperm := List.mergeSort_perm qs fun p q => decide (p ≤ q)
  have hs := List.pairwise_mergeSort' (· ≤ ·) qs
  generalize (qs.mergeSort fun p q => decide (p ≤ q)) = sorted at hperm hs
  have hlen := hperm.length_eq
  have hlow : (qs.length - 1) / 2 < sorted.length := by omega
  have hup : qs.length / 2 < sorted.length := by omega
  obtain ⟨lower, hl⟩ : ∃ q, sorted[(qs.length - 1) / 2]? = some q := ⟨_, List.getElem?_eq_getElem hlow⟩
  obtain ⟨upper, hu⟩ : ∃ q, sorted[qs.length / 2]? = some q := ⟨_, List.getElem?_eq_getElem hup⟩
  -- anything between the two middle values has half of the values on each side
  have hhalf : ∀ {m}, lower ≤ m → m ≤ upper →
      qs.length ≤ 2 * qs.countP (· ≤ m) ∧ qs.length ≤ 2 * qs.countP (m ≤ ·) := by
    intro m hlm hmu
    have h1 := lt_countP_le hs hl hlm
    have h2 := le_countP_ge hs hu hmu
    rw [hperm.countP_eq] at h1 h2
    omega
  rcases Nat.mod_two_eq_zero_or_one qs.length with heven | hodd
  · have hplace : (qs.length - 1) / 2 = qs.length / 2 - 1 := by omega
    have hle : lower ≤ upper := by
      obtain ⟨hlow, rfl⟩ := List.getElem?_eq_some_iff.1 hl
      obtain ⟨hup, rfl⟩ := List.getElem?_eq_some_iff.1 hu
      exact List.pairwise_iff_getElem.1 hs _ _ hlow hup (by omega)
    rw [hplace] at hl
    obtain ⟨h1, h2⟩ := hhalf (m := (lower + upper) / 2) (by linarith) (by linarith)
    refine ⟨_, ⟨h1, h2, fun _ => ⟨sorted, lower, upper, hperm, hs, hl, hu, rfl⟩⟩, fun qs' hqs' => ?_⟩
    have hlen' := hqs'.length_eq
    exact h.even qs' sorted lower upper (hperm.trans hqs'.symm) hs (by omega) (by rwa [hlen'])
      (by rwa [hlen'])
  · have hplace : (qs.length - 1) / 2 = qs.length / 2 := by omega
    rw [hplace, hu] at hl
    obtain rfl := Option.some.inj hl
    obtain ⟨h1, h2⟩ := hhalf (le_refl upper) (le_refl upper)
    refine ⟨upper, ⟨h1, h2, fun heven => by omega⟩, fun qs' hqs' => ?_⟩
    have hlen' := hqs'.length_eq
    exact h.odd qs' sorted upper (hperm.trans hqs'.symm) hs (by omega) (by rwa [hlen'])

/-! ## Summaries of exact times -/

/-- The times in rows are exact. -/
def ExactTimes (rows : List Row) : Prop := ∀ r ∈ rows, ∃ q, r.runtime = .exact q

/-- What a row of a summary is about. -/
def Summary.key (s : Summary) : String × String := (s.test, s.pass)

/-- The times of a pass on a test. -/
def runtimesOf (rows : List Row) (key : String × String) : List Floating :=
  (rows.filter fun r => r.key = key).map Row.runtime

variable {lib : Tables} {rows : List Row}

/-- The rows at all positions of a key are the rows that have it. -/
theorem rowsAt_positionsOf (rows : List Row) (key : String × String) :
    rowsAt rows (positionsOf (rows.map Row.key) key) = rows.filter fun r => r.key = key := by
  rw [rowsAt, positionsOf, List.length_map]
  induction rows using List.reverseRecOn with
  | nil => rfl
  | append_singleton rows r ih =>
    -- the positions before the last row are those without it
    have hbefore : ((List.range rows.length).filter fun i =>
          ((rows ++ [r]).map Row.key)[i]? = some key).filterMap ((rows ++ [r])[·]?) =
        rows.filter fun r => r.key = key := by
      rw [← ih]
      have hget : ∀ i ∈ List.range rows.length, (rows ++ [r])[i]? = rows[i]? := fun i hi =>
        List.getElem?_append_left (List.mem_range.1 hi)
      rw [List.filterMap_congr fun i hi => hget i (List.mem_filter.1 hi).1]
      congr 1
      refine List.filter_congr fun i hi => ?_
      rw [List.getElem?_map, List.getElem?_map, hget i hi]
    rw [List.length_append, List.length_singleton, List.range_succ, List.filter_append,
      List.filterMap_append, hbefore, List.filter_append]
    congr 1
    by_cases hr : r.key = key
    · simp [hr]
    · simp [hr]

/-- A summary has a row for every group, with the median of its times. -/
theorem summarize_eq (hlib : lib.Documented) (rows : List Row) :
    summarize lib rows = ((lib.groups (rows.map Row.key)).map Prod.fst).map
      fun key => ⟨key.1, key.2, lib.median (runtimesOf rows key)⟩ := by
  rw [summarize, medians, List.map_map, List.map_map]
  refine List.map_congr_left fun g hg => ?_
  show Summary.mk g.1.1 g.1.2 (lib.median ((rowsAt rows g.2).map Row.runtime)) = _
  rw [hlib.positions_eq hg, rowsAt_positionsOf]
  rfl

theorem keys_summarize (hlib : lib.Documented) (rows : List Row) :
    (summarize lib rows).map Summary.key = (lib.groups (rows.map Row.key)).map Prod.fst := by
  rw [summarize_eq hlib, List.map_map]
  exact List.map_id _

theorem exists_map_exact {xs : List Floating} (h : ∀ x ∈ xs, ∃ q, x = .exact q) :
    ∃ qs : List Rat, xs = qs.map .exact := by
  induction xs with
  | nil => exact ⟨[], rfl⟩
  | cons x xs ih =>
    obtain ⟨⟨q, rfl⟩, hxs⟩ := List.forall_mem_cons.1 h
    obtain ⟨qs, rfl⟩ := ih hxs
    exact ⟨q :: qs, rfl⟩

/-- The times of a test and a pass are exact values. -/
theorem ExactTimes.runtimesOf_eq (h : ExactTimes rows) (key : String × String) :
    ∃ qs : List Rat, runtimesOf rows key = qs.map .exact := by
  refine exists_map_exact fun x hx => ?_
  obtain ⟨r, hr, rfl⟩ := List.mem_map.1 hx
  exact h r (List.mem_filter.1 hr).1

/-- The median of the times of a test and a pass that appear in the rows, in whatever order these
stand. -/
theorem ExactTimes.exists_median (h : ExactTimes rows) (hlib : lib.Documented)
    {key : String × String} (hkey : key ∈ rows.map Row.key) :
    ∃ qs m, runtimesOf rows key = qs.map .exact ∧ IsMedian qs m ∧
      ∀ rows', rows'.Perm rows → lib.median (runtimesOf rows' key) = .exact m := by
  obtain ⟨qs, hqs⟩ := h.runtimesOf_eq key
  obtain ⟨r, hr, rfl⟩ := List.mem_map.1 hkey
  have hne : qs ≠ [] := by
    rintro rfl
    have hmem : r.runtime ∈ runtimesOf rows r.key :=
      List.mem_map_of_mem (List.mem_filter.2 ⟨hr, decide_eq_true rfl⟩)
    rw [hqs] at hmem; cases hmem
  obtain ⟨m, hmedian, hm⟩ := hlib.exists_median hne
  refine ⟨qs, m, hqs, hmedian, fun rows' hperm => ?_⟩
  have hexact : ExactTimes rows' := fun r hr => h r (hperm.mem_iff.1 hr)
  obtain ⟨qs', hqs'⟩ := hexact.runtimesOf_eq r.key
  have htimes : (qs'.map Floating.exact).Perm (qs.map Floating.exact) := by
    rw [← hqs, ← hqs']
    exact (hperm.filter _).map _
  rw [hqs']
  exact hm qs' ((List.map_perm_map_iff (fun p q e => Floating.exact.inj e)).1 htimes)

/-- With a library that does what it is documented to do, a summary of exact times has exactly one row
for every test and pass that was measured, in the order of their first appearance. Its time is a median
of their times; and in whatever order the measurements are given, the same tests and passes have the
same times. -/
theorem summarize_gives_medians (hlib : lib.Documented) (h : ExactTimes rows) :
    ((summarize lib rows).map Summary.key).Nodup ∧
    (∀ key, key ∈ (summarize lib rows).map Summary.key ↔ ∃ r ∈ rows, r.key = key) ∧
    ((summarize lib rows).map Summary.key).Pairwise
      (fun k k' => rows.findIdx (·.key = k) < rows.findIdx (·.key = k')) ∧
    (∀ s ∈ summarize lib rows, ∃ (qs : List Rat) (m : Rat),
      (rows.filter fun r => r.key = s.key).map Row.runtime = qs.map .exact ∧
      IsMedian qs m ∧ s.runtime = .exact m) ∧
    ∀ rows', rows'.Perm rows → (summarize lib rows').Perm (summarize lib rows) := by
  refine ⟨?_, fun key => ?_, ?_, fun s hs => ?_, fun rows' hperm => ?_⟩
  · rw [keys_summarize hlib]; exact hlib.one _
  · rw [keys_summarize hlib, hlib.mem_names]; exact List.mem_map
  · rw [keys_summarize hlib]
    have hordered := hlib.names_ordered (rows.map Row.key)
    simp only [List.findIdx_map] at hordered
    exact hordered
  · rw [summarize_eq hlib] at hs
    obtain ⟨key, hkey, rfl⟩ := List.mem_map.1 hs
    obtain ⟨qs, m, hqs, hmedian, hm⟩ := h.exists_median hlib (hlib.mem_names.1 hkey)
    exact ⟨qs, m, hqs, hmedian, hm rows (.refl rows)⟩
  · have hnames : ((lib.groups (rows'.map Row.key)).map Prod.fst).Perm
        ((lib.groups (rows.map Row.key)).map Prod.fst) := by
      rw [List.perm_ext_iff_of_nodup (hlib.one _) (hlib.one _)]
      intro key
      rw [hlib.mem_names, hlib.mem_names, (hperm.map Row.key).mem_iff]
    rw [summarize_eq hlib, summarize_eq hlib]
    refine (hnames.map _).trans (List.Perm.of_eq (List.map_congr_left fun key hkey => ?_))
    obtain ⟨_, m, -, -, hm⟩ := h.exists_median hlib (hlib.mem_names.1 hkey)
    rw [hm rows' hperm, hm rows (.refl rows)]

/-! ## A library of exact values -/

section

variable {α : Type} [BEq α] [LawfulBEq α] {l : List α}

/-- Leaving out other items keeps the order of first appearance. -/
theorem idxOf_lt_of_filter {p : α → Bool} {x y : α} (hx : p x = true) (hy : p y = true)
    (h : (l.filter p).idxOf x < (l.filter p).idxOf y) : l.idxOf x < l.idxOf y := by
  induction l with
  | nil => simp at h
  | cons a l ih =>
    by_cases hax : a = x
    · subst hax
      have hne : a ≠ y := by rintro rfl; exact absurd h (Nat.lt_irrefl _)
      rw [List.idxOf_cons_self, List.idxOf_cons_ne _ hne]
      exact Nat.succ_pos _
    · by_cases hay : a = y
      · subst hay
        rw [List.filter_cons_of_pos hy, List.idxOf_cons_self] at h
        exact absurd h (Nat.not_lt_zero _)
      · rw [List.idxOf_cons_ne _ hax, List.idxOf_cons_ne _ hay]
        refine Nat.succ_lt_succ (ih ?_)
        by_cases ha : p a = true
        · rw [List.filter_cons_of_pos ha, List.idxOf_cons_ne _ hax, List.idxOf_cons_ne _ hay] at h
          exact Nat.lt_of_succ_lt_succ h
        · rwa [List.filter_cons_of_neg ha] at h

/-- Items without repetition stand in the order of their first appearance. -/
theorem pairwise_idxOf_eraseDups (l : List α) :
    l.eraseDups.Pairwise fun x y => l.idxOf x < l.idxOf y := by
  induction hn : l.length using Nat.strongRecOn generalizing l with
  | ind n ih =>
    cases l with
    | nil => exact .nil
    | cons a l =>
      have hlt : (l.filter fun b => !b == a).length < n := by
        rw [← hn]; exact Nat.lt_succ_of_le (List.length_filter_le _ l)
      have hmem : ∀ {b}, b ∈ (l.filter fun b => !b == a).eraseDups → (!b == a) = true :=
        fun hb => (List.mem_filter.1 (List.mem_eraseDups.1 hb)).2
      have hne : ∀ {b}, (!b == a) = true → a ≠ b := fun hb e => by simp [e] at hb
      rw [List.eraseDups_cons, List.pairwise_cons]
      refine ⟨fun b hb => ?_, (ih _ hlt _ rfl).imp_of_mem fun {b c} hb hc hbc => ?_⟩
      · rw [List.idxOf_cons_self, List.idxOf_cons_ne _ (hne (hmem hb))]
        exact Nat.succ_pos _
      · rw [List.idxOf_cons_ne _ (hne (hmem hb)), List.idxOf_cons_ne _ (hne (hmem hc))]
        exact Nat.succ_lt_succ (idxOf_lt_of_filter (hmem hb) (hmem hc) hbc)

theorem nodup_eraseDups (l : List α) : l.eraseDups.Nodup :=
  (pairwise_idxOf_eraseDups l).imp fun h e => Nat.ne_of_lt h (congrArg l.idxOf e)

end

/-- Groups as the program runs with them, and medians that are not rounded. -/
def exactTables : Tables where
  groups := groupsOf
  median xs :=
    let sorted := ((exactValues? xs).getD []).insertionSort (· ≤ ·)
    match sorted[(sorted.length - 1) / 2]?, sorted[sorted.length / 2]? with
    | some lower, some upper => .exact ((lower + upper) / 2)
    | _, _ => .undefined

theorem exactValues?_map (qs : List Rat) : exactValues? (qs.map .exact) = some qs := by
  induction qs with
  | nil => rfl
  | cons q qs ih => rw [List.map_cons, exactValues?, ih]; rfl

/-- The middle values are those of any sorted copy. -/
theorem exactTables_median {sorted : List Rat} {lower upper : Rat} (hperm : sorted.Perm qs)
    (hs : sorted.Pairwise (· ≤ ·)) (hl : sorted[(qs.length - 1) / 2]? = some lower)
    (hu : sorted[qs.length / 2]? = some upper) :
    exactTables.median (qs.map .exact) = .exact ((lower + upper) / 2) := by
  have hsorted : qs.insertionSort (· ≤ ·) = sorted :=
    ((List.perm_insertionSort _ qs).trans hperm.symm).eq_of_pairwise'
      (List.pairwise_insertionSort (· ≤ ·) qs) hs
  unfold exactTables
  simp only [exactValues?_map, Option.getD_some, hsorted, hperm.length_eq, hl, hu]

theorem documented_exactTables : exactTables.Documented where
  key_eq keys g hg i hi := by
    obtain ⟨key, -, rfl⟩ := List.mem_map.1 hg
    exact mem_positionsOf.1 hi
  nonempty keys g hg := by
    obtain ⟨key, hkey, rfl⟩ := List.mem_map.1 hg
    obtain ⟨i, hi⟩ := List.mem_iff_getElem?.1 (List.mem_eraseDups.1 hkey)
    exact List.ne_nil_of_mem (mem_positionsOf.2 hi)
  one keys := by
    show ((keys.eraseDups.map _).map Prod.fst).Nodup
    rw [List.map_map]
    exact (List.map_id _).symm ▸ nodup_eraseDups keys
  whole keys := by
    show ((keys.eraseDups.map _).flatMap Prod.snd).Perm _
    rw [List.flatMap_map]
    have hnodup : (keys.eraseDups.flatMap (positionsOf keys)).Nodup := by
      refine List.nodup_flatMap.2 ⟨fun key _ => ?_, (nodup_eraseDups keys).imp fun hne i hi hj => ?_⟩
      · exact (pairwise_positionsOf keys key).imp Nat.ne_of_lt
      · exact hne (Option.some.inj ((mem_positionsOf.1 hi).symm.trans (mem_positionsOf.1 hj)))
    refine (List.perm_ext_iff_of_nodup hnodup List.nodup_range).2 fun i => ?_
    rw [List.mem_flatMap, List.mem_range]
    constructor
    · rintro ⟨key, -, hi⟩
      exact (List.getElem?_eq_some_iff.1 (mem_positionsOf.1 hi)).1
    · intro hi
      have hget := List.getElem?_eq_getElem hi
      exact ⟨keys[i], List.mem_eraseDups.2 (List.getElem_mem hi), mem_positionsOf.2 hget⟩
  within keys g hg := by
    obtain ⟨key, -, rfl⟩ := List.mem_map.1 hg
    exact pairwise_positionsOf keys key
  order keys := by
    refine List.pairwise_map.2 ((pairwise_idxOf_eraseDups keys).imp_of_mem ?_)
    intro k k' hk hk' hlt i hi j hj
    rw [head?_positionsOf (List.mem_eraseDups.1 hk)] at hi
    rw [head?_positionsOf (List.mem_eraseDups.1 hk')] at hj
    cases hi
    cases hj
    exact hlt
  odd qs sorted m hperm hs hodd hm := by
    have hplace : (qs.length - 1) / 2 = qs.length / 2 := by omega
    rw [exactTables_median hperm hs (hplace ▸ hm) hm, add_self_div_two]
  even qs sorted lower upper hperm hs heven hl hu := by
    have hplace : (qs.length - 1) / 2 = qs.length / 2 - 1 := by omega
    exact exactTables_median hperm hs (hplace ▸ hl) hu

/-- Two passes measured in turns; the first one is run twice in every run, under one name. -/
def interleavedRows : List Row :=
  [⟨"f_1", "a", 0, .exact 3⟩, ⟨"f_1", "b", 0, .exact 5⟩, ⟨"f_1", "a", 0, .exact 8⟩,
    ⟨"f_1", "a", 1, .exact 1⟩, ⟨"f_1", "b", 1, .exact 6⟩, ⟨"f_1", "a", 1, .exact 4⟩]

theorem summarize_gives_medians_interleaved : exactTables.Documented ∧ ExactTimes interleavedRows ∧
    summarize exactTables interleavedRows =
      [⟨"f_1", "a", .exact (7 / 2)⟩, ⟨"f_1", "b", .exact (11 / 2)⟩] ∧
    (summarize exactTables interleavedRows.reverse).Perm (summarize exactTables interleavedRows) ∧
    IsMedian [3, 8, 1, 4] (7 / 2) := by
  have h : ExactTimes interleavedRows := by simp [ExactTimes, interleavedRows]
  obtain ⟨-, -, -, hmedian, hperm⟩ := summarize_gives_medians documented_exactTables h
  have hsummary : summarize exactTables interleavedRows =
      [⟨"f_1", "a", .exact (7 / 2)⟩, ⟨"f_1", "b", .exact (11 / 2)⟩] := by decide +kernel
  refine ⟨documented_exactTables, h, hsummary, hperm _ (List.reverse_perm _), ?_⟩
  obtain ⟨qs, m, hqs, hm, htime⟩ := hmedian ⟨"f_1", "a", .exact (7 / 2)⟩ (by rw [hsummary]; simp)
  have hvalues : [3, 8, 1, 4].map Floating.exact = qs.map .exact := hqs
  obtain rfl := List.map_injective_iff.2 (fun p q e => Floating.exact.inj e) hvalues
  rwa [Floating.exact.inj htime]

end PassCheck.Timing
