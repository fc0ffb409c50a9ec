/-
Integers as text, there and back. A numeral that is read is an integer that can be written; an
integer that can be written has a decimal text that reads back as the same integer, with and without
the freedom of padding and underscores. A plain numeral is refused exactly when it has too many
digits.
-/
import PassCheck.Number.Integer
import Mathlib.Algebra.Group.Nat.Defs
import Mathlib.Data.List.Basic
import Mathlib.Data.List.Induction

namespace PassCheck

open Text

/-! ## Digits -/

theorem Text.digitValue?_lt {c : Char} {d : Nat} (h : digitValue? c = some d) : d < 10 := by
  unfold digitValue? at h
  split at h
  · rename_i hc
    rw [Bool.and_eq_true, decide_eq_true_eq, decide_eq_true_eq, Char.le_def, Char.le_def,
      UInt32.le_iff_toNat_le, UInt32.le_iff_toNat_le] at hc
    cases h
    have : c.toNat ≤ 57 := hc.2
    omega
  · obtain ⟨z, hz, rfl⟩ := Option.map_eq_some_iff.1 h
    have := List.find?_some hz
    rw [Bool.and_eq_true, decide_eq_true_eq, decide_eq_true_eq] at this
    omega

theorem Text.digitValue?_of_isDigit {c : Char} (h : c.isDigit = true) :
    digitValue? c = some (c.toNat - 48) := by
  unfold Char.isDigit at h
  unfold digitValue?
  rw [if_pos]
  rw [Bool.and_eq_true, decide_eq_true_eq, decide_eq_true_eq] at h ⊢
  exact h

theorem Text.isDigit_of_ascii {c : Char} (h : c.isDigit = true) : Text.isDigit c = true := by
  rw [Text.isDigit, digitValue?_of_isDigit h]; rfl

namespace Integer

theorem ofDigits_append (ds : List Nat) (d : Nat) : ofDigits (ds ++ [d]) = 10 * ofDigits ds + d := by
  simp [ofDigits]

/-- A number is below the power of ten of its digit count. -/
theorem ofDigits_lt {ds : List Nat} (h : ∀ d ∈ ds, d < 10) : ofDigits ds < 10 ^ ds.length := by
  -- from the right, since the digits are taken up from the left
  induction ds using List.reverseRec with
  | nil => simp [ofDigits]
  | append_singleton ds d ih =>
    have hd := h d (by simp)
    have := ih fun x hx => h x (List.mem_append_left _ hx)
    rw [ofDigits_append, List.length_append, List.length_singleton, Nat.pow_succ]
    omega

theorem writable_iff (n : Int) : Writable n ↔ n.natAbs < 10 ^ digitLimit := by
  rw [Writable, Nat.pow_eq]

theorem writable_of_ofSignDigits? {s : Bool} {ds : List Nat} {n : Int} (hd : ∀ d ∈ ds, d < 10)
    (h : ofSignDigits? s ds = some n) : Writable n := by
  unfold ofSignDigits? at h
  split at h
  · rename_i hl
    have hn : n.natAbs = ofDigits ds := by
      cases s <;> cases h <;> simp
    rw [writable_iff, hn]
    exact Nat.lt_of_lt_of_le (ofDigits_lt hd) (Nat.pow_le_pow_right (by decide) hl)
  · cases h

theorem digit_of_mem_filterMap {cs : List Char} : ∀ d ∈ cs.filterMap digitValue?, d < 10 := by
  intro d hd
  obtain ⟨c, -, hc⟩ := List.mem_filterMap.1 hd
  exact digitValue?_lt hc

/-- An integer that is read from a plain numeral can be written. -/
theorem writable_of_ofPlain? {cs : List Char} {n : Int} (h : ofPlain? cs = some n) : Writable n :=
  writable_of_ofSignDigits? digit_of_mem_filterMap h

theorem digit_of_mem_cons {c : Char} {rest? : Option (List Nat)} {ds : List Nat}
    (hrest : ∀ ds, rest? = some ds → ∀ d ∈ ds, d < 10)
    (h : (do let d ← digitValue? c; let ds ← rest?; return d :: ds) = some ds) :
    ∀ d ∈ ds, d < 10 := by
  simp only [Option.bind_eq_bind, Option.bind_eq_some_iff] at h
  obtain ⟨d, hd, rest, hr, h⟩ := h
  cases h
  exact List.forall_mem_cons.2 ⟨digitValue?_lt hd, hrest rest hr⟩

theorem digit_of_digitRun? {cs : List Char} {ds : List Nat} (h : digitRun? cs = some ds) :
    ∀ d ∈ ds, d < 10 := by
  fun_induction digitRun? cs generalizing ds with
  | case1 => cases h
  | case2 c =>
    obtain ⟨d, hd, rfl⟩ := Option.map_eq_some_iff.1 h
    exact List.forall_mem_singleton.2 (digitValue?_lt hd)
  | case3 c cs ih => exact digit_of_mem_cons (fun _ => ih) h
  | case4 c cs _ _ ih => exact digit_of_mem_cons (fun _ => ih) h

/-- An integer that is read from a text can be written. -/
theorem writable_of_ofText? {s : String} {n : Int} (h : ofText? s = some n) : Writable n := by
  unfold ofText? at h
  obtain ⟨ds, hds, h⟩ := Option.bind_eq_some_iff.1 h
  exact writable_of_ofSignDigits? (digit_of_digitRun? hds) h

theorem length_filterMap_digits {cs : List Char} (h : cs.all Text.isDigit = true) :
    (cs.filterMap digitValue?).length = cs.length := by
  induction cs with
  | nil => rfl
  | cons c cs ih =>
    rw [List.all_cons, Bool.and_eq_true] at h
    obtain ⟨d, hd⟩ := Option.isSome_iff_exists.1 h.1
    rw [List.filterMap_cons, hd, List.length_cons, List.length_cons, ih h.2]

/-- A plain numeral is refused exactly when it has too many digits. -/
theorem ofPlain?_eq_none_iff {cs : List Char} (h : isPlain cs = true) :
    ofPlain? cs = none ↔ digitLimit < (splitSign cs).2.length := by
  unfold isPlain at h
  rw [Bool.and_eq_true] at h
  show ofSignDigits? (splitSign cs).1 ((splitSign cs).2.filterMap digitValue?) = none ↔ _
  rw [ofSignDigits?, length_filterMap_digits h.2]
  split <;> simp <;> omega

/-! ## The decimal text -/

theorem toList_decimal (n : Int) :
    (decimal n).toList = (if n < 0 then ['-'] else []) ++ Nat.toDigits 10 n.natAbs := by
  unfold decimal
  split
  · rw [String.toList_append, Nat.toList_repr]; rfl
  · rw [Nat.toList_repr]; rfl

theorem isDigit_of_mem_toDigits {n : Nat} {c : Char} (h : c ∈ Nat.toDigits 10 n) :
    c.isDigit = true := Nat.isDigit_of_mem_toDigits (by decide) (by decide) h

theorem filterMap_toDigits (n : Nat) : ofDigits ((Nat.toDigits 10 n).filterMap digitValue?) = n := by
  have hmap : (Nat.toDigits 10 n).filterMap digitValue? =
      (Nat.toDigits 10 n).map fun c => c.toNat - 48 :=
    List.filterMap_eq_map_iff_forall_eq_some.2 fun c hc =>
      digitValue?_of_isDigit (isDigit_of_mem_toDigits hc)
  rw [hmap, ofDigits, List.foldl_map]
  exact Nat.ofDigitChars_ten_toDigits

/-- A digit is not taken for a sign. -/
theorem splitSign_of_isDigit {c : Char} (h : c.isDigit = true) (cs : List Char) :
    splitSign (c :: cs) = (false, c :: cs) := by
  unfold splitSign
  split
  · rename_i he; cases he; simp at h
  · rename_i he; cases he; simp at h
  · rfl

theorem splitSign_toDigits (n : Nat) :
    splitSign (Nat.toDigits 10 n) = (false, Nat.toDigits 10 n) := by
  cases hd : Nat.toDigits 10 n with
  | nil => exact absurd hd Nat.toDigits_ne_nil
  | cons c cs =>
    exact splitSign_of_isDigit (isDigit_of_mem_toDigits (n := n) (by rw [hd]; exact List.mem_cons_self)) cs

theorem splitSign_decimal (n : Int) :
    splitSign (decimal n).toList = (decide (n < 0), Nat.toDigits 10 n.natAbs) := by
  rw [toList_decimal]
  by_cases h : n < 0
  · rw [if_pos h, decide_eq_true h]; rfl
  · rw [if_neg h, decide_eq_false h]; exact splitSign_toDigits _

theorem ofSignDigits?_decimal {n : Int} (h : Writable n) :
    ofSignDigits? (decide (n < 0)) ((Nat.toDigits 10 n.natAbs).filterMap digitValue?) = some n := by
  have hall : (Nat.toDigits 10 n.natAbs).all Text.isDigit = true :=
    List.all_eq_true.2 fun c hc => isDigit_of_ascii (isDigit_of_mem_toDigits hc)
  have hlen : (Nat.toDigits 10 n.natAbs).length ≤ digitLimit :=
    (Nat.length_toDigits_le_iff (by decide) (by decide)).2 ((writable_iff n).1 h)
  unfold ofSignDigits?
  rw [if_pos (by rw [length_filterMap_digits hall]; exact hlen), filterMap_toDigits]
  by_cases hn : n < 0
  · rw [decide_eq_true hn, if_pos rfl]; congr 1; omega
  · rw [decide_eq_false hn, if_neg (by decide)]; congr 1; omega

/-- The decimal text of an integer is a plain numeral. -/
theorem isPlain_decimal (n : Int) : isPlain (decimal n).toList = true := by
  unfold isPlain
  rw [splitSign_decimal, Bool.and_eq_true]
  refine ⟨?_, List.all_eq_true.2 fun c hc => isDigit_of_ascii (isDigit_of_mem_toDigits hc)⟩
  simp [Nat.toDigits_ne_nil]

/-- The decimal text reads back as a plain numeral. -/
theorem ofPlain?_decimal {n : Int} (h : Writable n) : ofPlain? (decimal n).toList = some n := by
  unfold ofPlain?
  rw [splitSign_decimal]
  exact ofSignDigits?_decimal h

/-- Different integers have different decimal texts. -/
theorem decimal_injective {m n : Int} (h : decimal m = decimal n) : m = n := by
  have hsplit := congrArg (fun s : String => splitSign s.toList) h
  simp only [splitSign_decimal, Prod.mk.injEq, decide_eq_decide] at hsplit
  obtain ⟨hsign, hdigits⟩ := hsplit
  have habs := congrArg (fun cs : List Char => ofDigits (cs.filterMap digitValue?)) hdigits
  simp only [filterMap_toDigits] at habs
  omega

/-! ## Reading the decimal text with its surroundings -/

theorem trim_eq_self {cs : List Char} (h : ∀ c ∈ cs, isPadding c = false) : trim cs = cs := by
  have hdrop : ∀ ds : List Char, (∀ c ∈ ds, isPadding c = false) → ds.dropWhile isPadding = ds := by
    intro ds hds
    cases ds with
    | nil => rfl
    | cons d ds => rw [List.dropWhile_cons, hds d List.mem_cons_self]; rfl
  rw [trim, hdrop cs h, hdrop cs.reverse fun c hc => h c (List.mem_reverse.1 hc), List.reverse_reverse]

theorem isPadding_of_isDigit {c : Char} (h : c.isDigit = true) : isPadding c = false := by
  have hrange : 48 ≤ c.toNat ∧ c.toNat ≤ 57 := by
    unfold Char.isDigit at h
    rw [Bool.and_eq_true, decide_eq_true_eq, decide_eq_true_eq, ge_iff_le,
      UInt32.le_iff_toNat_le, UInt32.le_iff_toNat_le] at h
    exact h
  simp [isPadding, isBlank, inRanges, blankRanges]
  omega

theorem isPadding_decimal (n : Int) : ∀ c ∈ (decimal n).toList, isPadding c = false := by
  intro c hc
  rw [toList_decimal, List.mem_append] at hc
  rcases hc with hc | hc
  · split at hc
    · cases List.mem_singleton.1 hc; decide
    · cases hc
  · exact isPadding_of_isDigit (isDigit_of_mem_toDigits hc)

theorem digitRun?_cons {c d : Char} (cs : List Char) (hd : d.isDigit = true) :
    digitRun? (c :: d :: cs) = (digitValue? c).bind fun x => (digitRun? (d :: cs)).map (x :: ·) := by
  have hne : d ≠ '_' := by rintro rfl; simp at hd
  rw [digitRun?]
  · cases digitValue? c <;> cases digitRun? (d :: cs) <;> rfl
  · intro h; cases h
  · intro _ h; cases h; exact hne rfl

theorem digitRun?_of_isDigit : ∀ {c : Char} {cs : List Char}, (∀ d ∈ c :: cs, d.isDigit = true) →
    digitRun? (c :: cs) = some ((c :: cs).filterMap digitValue?)
  | c, [], h => by
    have hc := digitValue?_of_isDigit (h c List.mem_cons_self)
    rw [digitRun?, hc, List.filterMap_cons_some hc]; rfl
  | c, d :: cs, h => by
    obtain ⟨hc, hds⟩ := List.forall_mem_cons.1 h
    have hc := digitValue?_of_isDigit hc
    rw [digitRun?_cons cs (hds d List.mem_cons_self), digitRun?_of_isDigit hds, hc,
      List.filterMap_cons_some hc]
    rfl

/-- The decimal text reads back where padding and underscores are allowed. -/
theorem ofText?_decimal {n : Int} (h : Writable n) : ofText? (decimal n) = some n := by
  unfold ofText?
  rw [trim_eq_self (isPadding_decimal n), splitSign_decimal]
  have hrun : digitRun? (Nat.toDigits 10 n.natAbs) =
      some ((Nat.toDigits 10 n.natAbs).filterMap digitValue?) := by
    cases hd : Nat.toDigits 10 n.natAbs with
    | nil => exact absurd hd Nat.toDigits_ne_nil
    | cons c cs => exact digitRun?_of_isDigit fun d hm => isDigit_of_mem_toDigits (hd ▸ hm)
  simp only [hrun]
  exact ofSignDigits?_decimal h

/-- An integer with a short decimal text can be written. -/
theorem writable_of_length {n : Int} (h : (decimal n).toList.length ≤ digitLimit) : Writable n := by
  rw [writable_iff, ← Nat.length_toDigits_le_iff (by decide) (by decide)]
  rw [toList_decimal, List.length_append] at h
  omega

end Integer

end PassCheck
