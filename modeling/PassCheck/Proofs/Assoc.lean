/-
Lookup in an ordered sequence of pairs. Each entry has a verdict on a key: its value, that it is no
pair, or none, when the lookup passes over it. A lookup ends with the first verdict, so what stands
behind it does not matter and entries in front shadow those behind.

Matching is transitive and, on keys whose dictionaries and objects hold no key twice, symmetric.
Hence keys that match get the same verdict from every entry and cannot be told apart by a lookup,
except that a failed lookup reports its own key.
-/
import PassCheck.Assoc
import PassCheck.Proofs.Datum.Equality

namespace PassCheck

namespace Datum

/-- Equal values are alike and the first is no NaN. -/
theorem same_iff {a b : Datum} : same a b = true ↔ NotNan a ∧ alike a b = true := by
  constructor
  · intro h
    refine ⟨?_, by rw [alike, h, Bool.true_or]⟩
    cases a with
    | float x =>
      obtain ⟨_, -, hx, -⟩ := (same_number rfl).1 h
      cases x with
      | nan m => exact hx
      | _ => rfl
    | _ => trivial
  · rintro ⟨ha, h⟩
    rwa [same_eq_alike ha]

/-- What is alike to a value that is no NaN is none either. -/
theorem NotNan.of_alike {a b : Datum} (ha : NotNan a) (h : alike a b = true) : NotNan b := by
  cases b with
  | float y =>
    -- only a number is alike to a number, and then their values are equal
    have hsame : same a (.float y) = true := same_iff.2 ⟨ha, h⟩
    cases hx : a.number? with
    | none => cases a <;> simp [same, number?] at hsame hx
    | some x =>
      obtain ⟨_, ⟨⟩, hnan, hvalue⟩ := (same_number hx).1 hsame
      rw [hvalue] at hnan
      cases y with
      | nan m => exact hnan
      | _ => rfl
  | _ => trivial

end Datum

namespace Assoc

open Datum

/-! ## Keys that match -/

theorem keysMatch_iff {a b : Datum} :
    keysMatch a b = true ↔ a.isBool = b.isBool ∧ a.same b = true := by
  rw [keysMatch, Bool.and_eq_true, beq_iff_eq]

theorem keysMatch_trans {a b c : Datum} (hab : keysMatch a b = true) (hbc : keysMatch b c = true) :
    keysMatch a c = true := by
  obtain ⟨hbool, hsame⟩ := keysMatch_iff.1 hab
  obtain ⟨hbool', hsame'⟩ := keysMatch_iff.1 hbc
  obtain ⟨ha, halike⟩ := same_iff.1 hsame
  refine keysMatch_iff.2 ⟨hbool.trans hbool', same_iff.2 ⟨ha, ?_⟩⟩
  exact alike_trans halike (same_iff.1 hsame').2

theorem keysMatch_symm {a b : Datum} (ha : a.Every KeysDistinct) (h : keysMatch a b = true) :
    keysMatch b a = true := by
  obtain ⟨hbool, hsame⟩ := keysMatch_iff.1 h
  obtain ⟨hnan, halike⟩ := same_iff.1 hsame
  exact keysMatch_iff.2 ⟨hbool.symm, same_iff.2 ⟨hnan.of_alike halike, alike_symm ha halike⟩⟩

/-- Nothing matches one of two matching keys and not the other. -/
theorem keysMatch_congr {k k' : Datum} (hk : k.Every KeysDistinct) (h : keysMatch k k' = true)
    (a : Datum) : keysMatch a k = keysMatch a k' := by
  rw [Bool.eq_iff_iff]
  constructor
  · intro ha; exact keysMatch_trans ha h
  · intro ha; exact keysMatch_trans ha (keysMatch_symm hk h)

/-! ## Verdicts -/

/-- The failure of a key that no entry has. -/
abbrev missing (key : Datum) : Except Failure Datum := .error (.report (.lookup key))

/-- What an entry says on a key: its value when its own key matches, or that it is no pair. -/
def verdict? (key d : Datum) : Option (Except Failure Datum) :=
  match pair? d with
  | none => some (.error (notPair d))
  | some (k, v) => if keysMatch k key then some (.ok v) else none

/-- A lookup passes over an entry: it is a pair whose key does not match. -/
def PassesOver (key d : Datum) : Prop := ∃ k v, pair? d = some (k, v) ∧ keysMatch k key = false

/-- A lookup arrives at an entry: it passes over all entries before it. -/
def ArrivesAt (key : Datum) (ds : List Datum) (d : Datum) : Prop :=
  ∃ before after, ds = before ++ d :: after ∧ ∀ e ∈ before, PassesOver key e

theorem verdict?_of_not_pair {key d : Datum} (hd : pair? d = none) :
    verdict? key d = some (.error (notPair d)) := by
  rw [verdict?, hd]

theorem verdict?_of_pair {key d k v : Datum} (hd : pair? d = some (k, v)) :
    verdict? key d = if keysMatch k key then some (.ok v) else none := by
  rw [verdict?, hd]

theorem verdict?_eq_none_iff {key d : Datum} : verdict? key d = none ↔ PassesOver key d := by
  cases hd : pair? d with
  | none => simp [verdict?_of_not_pair hd, PassesOver, hd]
  | some p =>
    obtain ⟨k, v⟩ := p
    simp [verdict?_of_pair hd, PassesOver, hd]

/-- An entry that is no pair is reported by its text, which only a long integer can prevent. -/
theorem notPair_cases (d : Datum) :
    (∃ t, d.literal? = some t ∧ notPair d = .plain ("error in lookup, not a pair: " ++ t)) ∨
    (d.literal? = none ∧ ¬ d.Writable ∧ notPair d = .longInteger) := by
  unfold notPair
  cases ht : d.literal? with
  | some t => exact .inl ⟨t, rfl, rfl⟩
  | none =>
    refine .inr ⟨rfl, fun hw => ?_, rfl⟩
    obtain ⟨t, hsome⟩ := literal?_of_writable hw
    rw [ht] at hsome
    cases hsome

theorem verdict?_cases {key d : Datum} {r : Except Failure Datum} (h : verdict? key d = some r) :
    (∃ k v, pair? d = some (k, v) ∧ keysMatch k key = true ∧ r = .ok v) ∨
    (pair? d = none ∧ r = .error (notPair d)) := by
  cases hd : pair? d with
  | none =>
    rw [verdict?_of_not_pair hd] at h
    exact .inr ⟨rfl, (Option.some.inj h).symm⟩
  | some p =>
    obtain ⟨k, v⟩ := p
    rw [verdict?_of_pair hd] at h
    split at h
    · rename_i hk
      exact .inl ⟨k, v, rfl, hk, (Option.some.inj h).symm⟩
    · cases h

/-- No entry says that a key is missing. -/
theorem ne_missing_of_verdict? {key d : Datum} {r : Except Failure Datum}
    (h : verdict? key d = some r) (key' : Datum) : r ≠ missing key' := by
  rcases verdict?_cases h with ⟨k, v, -, -, rfl⟩ | ⟨-, rfl⟩
  · exact nofun
  · rcases notPair_cases d with ⟨t, -, hf⟩ | ⟨-, -, hf⟩ <;> rw [hf] <;> exact nofun

theorem verdict?_congr {k k' : Datum} (hk : k.Every KeysDistinct) (h : keysMatch k k' = true) :
    verdict? k = verdict? k' := by
  funext d
  unfold verdict?
  split
  · rfl
  · rw [keysMatch_congr hk h]

/-! ## The first verdict -/

/-- A lookup ends with the first verdict. -/
theorem lookup_eq (key : Datum) (ds : List Datum) :
    lookup key ds = (ds.findSome? (verdict? key)).getD (missing key) := by
  induction ds with
  | nil => rfl
  | cons d ds ih =>
    rw [lookup, List.findSome?_cons]
    cases hd : pair? d with
    | none => rw [verdict?_of_not_pair hd]; rfl
    | some p =>
      obtain ⟨k, v⟩ := p
      rw [verdict?_of_pair hd]
      by_cases hk : keysMatch k key = true
      · simp [hk]
      · simp [hk, ih]

theorem arrivesAt_of_findSome? {key : Datum} {ds : List Datum} {r : Except Failure Datum}
    (h : ds.findSome? (verdict? key) = some r) : ∃ d, ArrivesAt key ds d ∧ verdict? key d = some r := by
  obtain ⟨before, d, after, hds, hd, hbefore⟩ := List.findSome?_eq_some_iff.1 h
  exact ⟨d, ⟨before, after, hds, fun e he => verdict?_eq_none_iff.1 (hbefore e he)⟩, hd⟩

theorem lookup_eq_missing_iff {key : Datum} {ds : List Datum} :
    lookup key ds = missing key ↔ ds.findSome? (verdict? key) = none := by
  rw [lookup_eq]
  cases h : ds.findSome? (verdict? key) with
  | none => simp
  | some r =>
    -- the first verdict is not the failure that stands for having none
    obtain ⟨d, -, hd⟩ := arrivesAt_of_findSome? h
    simpa using ne_missing_of_verdict? hd key

/-- Entries in front shadow those behind. -/
theorem lookup_append (key : Datum) (xs ys : List Datum) : lookup key (xs ++ ys) =
    ((xs.findSome? (verdict? key)).or (ys.findSome? (verdict? key))).getD (missing key) := by
  rw [lookup_eq, List.findSome?_append]

/-- Keys that match are interchangeable: lookups for both find the value of the same entry, fail at
the same entry that is no pair (with its text, or without one when an integer in it has too many
digits), or pass over all entries and report each its own key. And a lookup that ends among some
entries ends in the same way whatever follows them; one that finds its key missing goes on. -/
theorem lookup_matches_and_shadows :
    (∀ k k' : Datum, k.Every KeysDistinct → k.isBool = k'.isBool → k.same k' = true →
      ∀ ds : List Datum,
        (∃ d k₀ v, ArrivesAt k ds d ∧ pair? d = some (k₀, v) ∧ keysMatch k₀ k = true ∧
          lookup k ds = .ok v ∧ lookup k' ds = .ok v) ∨
        (∃ d t, ArrivesAt k ds d ∧ pair? d = none ∧ d.literal? = some t ∧
          lookup k ds = .error (.plain ("error in lookup, not a pair: " ++ t)) ∧
          lookup k' ds = .error (.plain ("error in lookup, not a pair: " ++ t))) ∨
        (∃ d, ArrivesAt k ds d ∧ pair? d = none ∧ d.literal? = none ∧ ¬ d.Writable ∧
          lookup k ds = .error .longInteger ∧ lookup k' ds = .error .longInteger) ∨
        ((∀ d ∈ ds, PassesOver k d) ∧ lookup k ds = missing k ∧ lookup k' ds = missing k')) ∧
    ∀ (k : Datum) (xs ys : List Datum),
      (lookup k xs ≠ missing k → lookup k (xs ++ ys) = lookup k xs) ∧
      (lookup k xs = missing k → lookup k (xs ++ ys) = lookup k ys) := by
  constructor
  · intro k k' hk hbool hsame ds
    -- both keys get the same verdicts, so the two lookups end at the same entry
    have hverdict : verdict? k' = verdict? k :=
      (verdict?_congr hk (keysMatch_iff.2 ⟨hbool, hsame⟩)).symm
    rw [lookup_eq k, lookup_eq k', hverdict]
    cases h : ds.findSome? (verdict? k) with
    | none =>
      have hpass := List.findSome?_eq_none_iff.1 h
      exact .inr (.inr (.inr ⟨fun d hd => verdict?_eq_none_iff.1 (hpass d hd), rfl, rfl⟩))
    | some r =>
      obtain ⟨d, harrives, hd⟩ := arrivesAt_of_findSome? h
      rcases verdict?_cases hd with ⟨k₀, v, hpair, hmatch, rfl⟩ | ⟨hpair, rfl⟩
      · exact .inl ⟨d, k₀, v, harrives, hpair, hmatch, rfl, rfl⟩
      · rcases notPair_cases d with ⟨t, ht, hf⟩ | ⟨ht, hlong, hf⟩ <;> rw [hf]
        · exact .inr (.inl ⟨d, t, harrives, hpair, ht, rfl, rfl⟩)
        · exact .inr (.inr (.inl ⟨d, harrives, hpair, ht, hlong, rfl, rfl⟩))
  · intro k xs ys
    rw [lookup_append, Ne, lookup_eq_missing_iff, lookup_eq k xs, lookup_eq k ys]
    cases xs.findSome? (verdict? k) with
    | none => simp
    | some r => simp

/-- A key with a boolean, a negative zero and a dictionary inside. -/
def mixedKey : Datum :=
  .tuple [.bool true, .float .negZero, .dict [(.str "a", .int 2), (.int 1, .null)]]

/-- A key that matches it: other kinds of numbers, the dictionary in another order. -/
def respelledKey : Datum :=
  .tuple [.int 1, .int 0, .dict [(.float (.exact 1), .null), (.str "a", .float (.exact 2))]]

/-- Entries of all kinds: only the third and the fourth match, and the last one is no pair. -/
def mixedEntries : List Datum :=
  [.tuple [.str "a", .int 0],
    .list [.list [.bool true, .int 0, .dict []], .int 1],
    .obj [("value", .str "found"), ("key", .tuple [.float (.exact 1), .bool false,
      .dict [(.str "a", .int 2), (.bool true, .null)]])],
    .tuple [mixedKey, .str "shadowed"],
    .int 7]

theorem lookup_matches_and_shadows_mixed :
    mixedKey.Every KeysDistinct ∧ mixedKey.isBool = respelledKey.isBool ∧
    mixedKey.same respelledKey = true ∧
    lookup respelledKey mixedEntries = .ok (.str "found") ∧
    ∀ ys, lookup mixedKey (mixedEntries ++ ys) = .ok (.str "found") := by
  have hkeys : mixedKey.Every KeysDistinct := by decide +kernel
  have hsame : mixedKey.same respelledKey = true := by decide +kernel
  have hfound : lookup mixedKey mixedEntries = .ok (.str "found") := rfl
  obtain ⟨hmatch, hshadow⟩ := lookup_matches_and_shadows
  refine ⟨hkeys, rfl, hsame, ?_, fun ys => ?_⟩
  · rcases hmatch mixedKey respelledKey hkeys rfl hsame mixedEntries with
      ⟨d, k, v, -, -, -, h, h'⟩ | ⟨d, t, -, -, -, h, -⟩ | ⟨d, -, -, -, -, h, -⟩ | ⟨-, h, -⟩ <;>
      rw [hfound] at h <;> cases h
    exact h'
  · rw [(hshadow mixedKey mixedEntries ys).1 (by rw [hfound]; exact nofun), hfound]

/-- An entry that is no pair and cannot be written. -/
def unwritableEntries : List Datum := [.int (Nat.pow 10 Integer.digitLimit)]

/-- At an entry that cannot be written, lookups for the matching keys 1 and 1.0 neither find a value
nor say that the entry is no pair nor that the key is missing. -/
theorem unwritable_entry_not_told :
    Comparable (.int 1) ∧ Comparable (.float (.exact 1)) ∧
    keysMatch (.int 1) (.float (.exact 1)) = true ∧
    ¬ ((∃ v, lookup (.int 1) unwritableEntries = .ok v ∧
          lookup (.float (.exact 1)) unwritableEntries = .ok v) ∨
      (∃ t, lookup (.int 1) unwritableEntries =
            .error (.plain ("error in lookup, not a pair: " ++ t)) ∧
          lookup (.float (.exact 1)) unwritableEntries =
            .error (.plain ("error in lookup, not a pair: " ++ t))) ∨
      (lookup (.int 1) unwritableEntries = missing (.int 1) ∧
        lookup (.float (.exact 1)) unwritableEntries = missing (.float (.exact 1)))) := by
  -- stated for all such integers, so that the power itself is never computed
  have htext : ∀ n : Nat, Nat.pow 10 Integer.digitLimit ≤ n → Integer.text? n = none :=
    fun n hn => if_neg (Nat.not_lt.2 hn)
  have hfails : lookup (.int 1) unwritableEntries = .error .longInteger := by
    simp only [unwritableEntries, lookup, pair?, field?, notPair, literal?,
      htext _ (Nat.le_refl _)]
  refine ⟨by decide, by decide, by decide, ?_⟩
  rintro (⟨v, h, -⟩ | ⟨t, h, -⟩ | ⟨h, -⟩) <;> rw [hfails] at h <;> cases h

end Assoc

end PassCheck
