/-
The order of floating-point numbers and arithmetic on them. What is at least zero stays so under
rounding, so the difference of two numbers in order is at least zero, and a multiple of it is; and
where nothing has to be rounded, arithmetic is exact.
-/
import Mathlib.Algebra.Order.Field.Rat
import Mathlib.Data.Rat.Lemmas
import Mathlib.Tactic.Linarith
import Mathlib.Tactic.Positivity
import PassCheck.Number.Floating

namespace PassCheck.Floating

/-! ## Order -/

theorem exact_atMost_exact {p q : Rat} : (exact p).atMost (.exact q) = true ↔ p ≤ q := by
  rw [le_iff_lt_or_eq]
  simp [atMost, below, same, unsigned, isNan]

theorem exact_atMost_negZero {p : Rat} : (exact p).atMost .negZero = true ↔ p ≤ 0 :=
  exact_atMost_exact

theorem negZero_atMost_exact {q : Rat} : negZero.atMost (.exact q) = true ↔ 0 ≤ q :=
  exact_atMost_exact

theorem zero_atMost_infinite {negative : Bool} :
    (exact 0).atMost (.infinite negative) = true ↔ negative = false := by
  cases negative <;> decide

/-! ## Rounding -/

theorem dyadic_nonneg (m : Nat) (e : Int) : 0 ≤ dyadic m e := by
  unfold dyadic
  split
  · positivity
  · rw [Rat.mkRat_eq_div]
    positivity

theorem round_ne_nan (q : Rat) (mark : Nat) : round q ≠ .nan mark := by
  unfold round
  dsimp only
  repeat' split
  all_goals nofun

/-- Rounding does not lead below zero. -/
theorem zero_atMost_round {q : Rat} (hq : 0 ≤ q) : (exact 0).atMost (round q) = true := by
  have hnum : ¬ q.num < 0 := not_lt.2 (Rat.num_nonneg.2 hq)
  unfold round
  split
  · exact exact_atMost_exact.2 le_rfl
  · dsimp only
    split
    · exact exact_atMost_exact.2 le_rfl
    · split
      · exact zero_atMost_infinite.2 (decide_eq_false hnum)
      · exact exact_atMost_exact.2 (dyadic_nonneg _ _)

/-! ## Differences and multiples -/

/-- A number less one that is at most as large is at least zero. -/
theorem zero_atMost_sub {x y : Floating} (hx : x.isFinite = true) (hy : y.isFinite = true)
    (h : x.atMost y = true) : (exact 0).atMost (y.sub x) = true := by
  cases x with
  | nan mark => cases hx
  | infinite negative => cases hx
  | negZero =>
    cases y with
    | nan mark => cases hy
    | infinite negative => cases hy
    | negZero => decide
    | exact q =>
      show (exact 0).atMost (round (q + 0)) = true
      rw [add_zero]
      exact zero_atMost_round (negZero_atMost_exact.1 h)
  | exact p =>
    rw [sub, neg]
    cases y with
    | nan mark => cases hy
    | infinite negative => cases hy
    | negZero =>
      split
      · decide
      · exact exact_atMost_exact.2 (neg_nonneg.2 (exact_atMost_negZero.1 h))
    | exact q =>
      have hpq := exact_atMost_exact.1 h
      split
      · rename_i hp
        rw [Rat.num_eq_zero.1 hp] at hpq
        exact exact_atMost_exact.2 hpq
      · exact zero_atMost_round (by linarith)

section

variable {k : Rat} (hk : 0 < k)

include hk

theorem isNegative_of_pos : (exact k).isNegative = false :=
  decide_eq_false (not_lt.2 (Rat.num_pos.2 hk).le)

/-- A positive multiple of a number that is at least zero is at least zero. -/
theorem zero_atMost_mul {x : Floating} (hx : (exact 0).atMost x = true) :
    (exact 0).atMost (x.mul (.exact k)) = true := by
  cases x with
  | nan mark => cases hx
  | infinite negative =>
    obtain rfl := zero_atMost_infinite.1 hx
    simp only [mul, unsigned, if_neg (Rat.num_pos.2 hk).ne', isNegative_of_pos hk]
    decide
  | negZero =>
    have hzero : negZero.mul (.exact k) = .negZero := by
      simp [mul, unsigned, isNegative, hk.le]
    rw [hzero]; exact exact_atMost_negZero.2 le_rfl
  | exact q =>
    have hq : 0 ≤ q := exact_atMost_exact.1 hx
    have hpos : (exact q).isNegative = false := decide_eq_false (not_lt.2 (Rat.num_nonneg.2 hq))
    simp only [mul, unsigned, isNegative_of_pos hk, hpos]
    split
    · exact exact_atMost_exact.2 le_rfl
    · exact zero_atMost_round (by positivity)

/-- A multiple that is a number of the format is not rounded. -/
theorem exact_mul_exact {q : Rat} (h : round (q * k) = .exact (q * k)) :
    (exact q).mul (.exact k) = .exact (q * k) := by
  simp only [mul, unsigned, isNegative_of_pos hk]
  split
  · rename_i hzero
    have hq : q = 0 := by simpa [hk.ne'] using hzero
    subst hq
    rw [zero_mul]; rfl
  · exact h

end

/-- A difference that is a number of the format is not rounded. -/
theorem exact_sub_exact {p q : Rat} (h : round (q - p) = .exact (q - p)) :
    (exact q).sub (.exact p) = .exact (q - p) := by
  rw [sub, neg]
  split
  · rename_i hp
    rw [Rat.num_eq_zero.1 hp, sub_zero]
    rfl
  · rw [sub_eq_add_neg] at h ⊢
    exact h

end PassCheck.Floating
