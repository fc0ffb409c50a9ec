/-
Booleans in expressions of the tiny language. Folding counts them as integers, the evaluator rejects
them. So an expression that folds to an integer is built from integers and booleans, and it has a
value exactly if there is no boolean in it; otherwise evaluation stops at the first one.
-/
import PassCheck.Proofs.Lint.Constant

namespace PassCheck.Lint

open Datum (Every)

/-- An expression that is built from integers and booleans by negation, sum and difference. -/
inductive Loose : Datum → Prop
  | int (n : Int) : Loose (.int n)
  | bool (b : Bool) : Loose (.bool b)
  | neg {k : SeqKind} {a : Datum} : Loose a → Loose (.seq k [.str "-", a])
  | add {k : SeqKind} {a b : Datum} : Loose a → Loose b → Loose (.seq k [.str "+", a, b])
  | sub {k : SeqKind} {a b : Datum} : Loose a → Loose b → Loose (.seq k [.str "-", a, b])

variable {k : SeqKind} {a b e : Datum} {v : Int}

/-- Whatever folds to an integer, or to a boolean, is built from integers and booleans. -/
theorem loose_of_toInt? (h : (foldExp (shrinkExp e)).toInt? = some v) : Loose e := by
  induction e generalizing v with
  | int n => exact .int n
  | bool b => exact .bool b
  | seq k items ih =>
    by_cases hform : Form items
    · cases hform with
      | neg a =>
        rw [shrinkExp_neg, foldExp_neg] at h
        obtain ⟨x, hx⟩ := toInt?_of_foldNeg h
        exact .neg (ih a (by simp) hx)
      | add a b =>
        rw [shrinkExp_add, foldExp_add] at h
        obtain ⟨⟨x, hx⟩, y, hy⟩ := toInt?_of_foldAdd h
        exact .add (ih a (by simp) hx) (ih b (by simp) hy)
      | sub a b =>
        rw [shrinkExp_sub, foldExp_add, foldExp_neg] at h
        obtain ⟨⟨x, hx⟩, y, hy⟩ := toInt?_of_foldAdd h
        obtain ⟨z, hz⟩ := toInt?_of_foldNeg hy
        exact .sub (ih a (by simp) hx) (ih b (by simp) hz)
    · obtain ⟨l, ds, hs⟩ := foldExp_shrinkExp_of_not_form (k := k) hform
      rw [hs] at h; cases h
  | _ => cases h

/-! ## Rejection -/

/-- The failure of the evaluator at a boolean. -/
def unexpectedBool (b : Bool) : Failure :=
  .plain ("error in interp_exp, unexpected: " ++ if b then "True" else "False")

/-- An expression that the evaluator rejects for a boolean, whatever the world is. -/
def Rejected (e : Datum) : Prop := ∃ b, ∀ w, eval e w = (.error (unexpectedBool b), w)

/-- An expression that has a value, whatever the world is. -/
def Valued (e : Datum) : Prop := ∃ v, ∀ w, eval e w = (.ok v, w)

theorem rejected_bool (b : Bool) : Rejected (.bool b) := by
  refine ⟨b, fun w => ?_⟩
  cases b <;> rfl

theorem valued_neg (ha : Valued a) : Valued (.seq k [.str "-", a]) := by
  obtain ⟨x, hx⟩ := ha
  exact ⟨-x, fun w => eval_neg (hx w)⟩

theorem valued_add (ha : Valued a) (hb : Valued b) : Valued (.seq k [.str "+", a, b]) := by
  obtain ⟨x, hx⟩ := ha
  obtain ⟨y, hy⟩ := hb
  exact ⟨x + y, fun w => eval_add (hx w) (hy w)⟩

theorem rejected_neg (ha : Rejected a) : Rejected (.seq k [.str "-", a]) := by
  obtain ⟨c, hc⟩ := ha
  exact ⟨c, fun w => by rw [eval]; exact Job.bind_of_error (hc w)⟩

theorem rejected_add_left (ha : Rejected a) (b : Datum) : Rejected (.seq k [.str "+", a, b]) := by
  obtain ⟨c, hc⟩ := ha
  exact ⟨c, fun w => by rw [eval]; exact Job.bind_of_error (hc w)⟩

/-- The left operand is evaluated first, so it has to have a value. -/
theorem rejected_add_right (ha : Valued a) (hb : Rejected b) : Rejected (.seq k [.str "+", a, b]) := by
  obtain ⟨x, hx⟩ := ha
  obtain ⟨c, hc⟩ := hb
  exact ⟨c, fun w => by rw [eval, Job.bind_of_ok (hx w)]; exact Job.bind_of_error (hc w)⟩

theorem every_notBool_int (n : Int) : Every NotBool (.int n) := by
  intro x hx
  cases List.mem_singleton.1 hx
  trivial

theorem every_notBool_str (s : String) : Every NotBool (.str s) := by
  intro x hx
  cases List.mem_singleton.1 hx
  trivial

theorem every_notBool_neg : Every NotBool (.seq k [.str "-", a]) ↔ Every NotBool a := by
  simp [Datum.every_seq, every_notBool_str, NotBool]

theorem every_notBool_binary {op : String} :
    Every NotBool (.seq k [.str op, a, b]) ↔ Every NotBool a ∧ Every NotBool b := by
  simp [Datum.every_seq, every_notBool_str, NotBool]

/-- An expression of integers and booleans has a value after shrinking if there is no boolean in it,
and is rejected otherwise. -/
theorem Loose.valued_or_rejected (h : Loose e) :
    Valued (shrinkExp e) ∧ Every NotBool e ∨ Rejected (shrinkExp e) ∧ ¬ Every NotBool e := by
  induction h with
  | int n => exact .inl ⟨⟨n, fun _ => rfl⟩, every_notBool_int n⟩
  | bool b => exact .inr ⟨rejected_bool b, fun h => h.self⟩
  | neg _ ih =>
    rw [shrinkExp_neg, every_notBool_neg]
    rcases ih with ⟨hv, hn⟩ | ⟨hr, hn⟩
    · exact .inl ⟨valued_neg hv, hn⟩
    · exact .inr ⟨rejected_neg hr, hn⟩
  | add _ _ iha ihb =>
    rw [shrinkExp_add, every_notBool_binary]
    rcases iha with ⟨hva, hna⟩ | ⟨hra, hna⟩
    · rcases ihb with ⟨hvb, hnb⟩ | ⟨hrb, hnb⟩
      · exact .inl ⟨valued_add hva hvb, hna, hnb⟩
      · exact .inr ⟨rejected_add_right hva hrb, fun h => hnb h.2⟩
    · exact .inr ⟨rejected_add_left hra _, fun h => hna h.1⟩
  | sub _ _ iha ihb =>
    rw [shrinkExp_sub, every_notBool_binary]
    rcases iha with ⟨hva, hna⟩ | ⟨hra, hna⟩
    · rcases ihb with ⟨hvb, hnb⟩ | ⟨hrb, hnb⟩
      · exact .inl ⟨valued_add hva (valued_neg hvb), hna, hnb⟩
      · exact .inr ⟨rejected_add_right hva (rejected_neg hrb), fun h => hnb h.2⟩
    · exact .inr ⟨rejected_add_left hra _, fun h => hna h.1⟩

end PassCheck.Lint
