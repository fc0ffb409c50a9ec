/-
Wildcard patterns with one star. Whether a name fits is computed for all its ends at once
(`Wild.fitting`); read from the whole name on this is the usual recursion over pattern and name, and
a pattern of plain characters around one star fits the names that start with what stands before it
and end with what stands behind it.
-/
import PassCheck.Pass.Wildcard
import Mathlib.Data.List.Basic

namespace PassCheck.Wild

variable {ws : List Wild} {cs text rest : List Char} {c : Char}

/-! ## From all ends to one name -/

theorem exists_fitting_nil (ws : List Wild) : ∃ b, fitting ws [] = [b] := by
  induction ws with
  | nil => exact ⟨true, rfl⟩
  | cons w ws ih =>
    obtain ⟨b, hb⟩ := ih
    cases w with
    | star => exact ⟨_, by rw [fitting, hb]; rfl⟩
    | _ => exact ⟨false, rfl⟩

/-- What is computed for a name is computed for its ends as well. -/
theorem exists_fitting_cons (ws : List Wild) (c : Char) (cs : List Char) :
    ∃ b, fitting ws (c :: cs) = b :: fitting ws cs := by
  induction ws with
  | nil => exact ⟨false, rfl⟩
  | cons w ws ih =>
    obtain ⟨b, hb⟩ := ih
    cases w with
    | star => exact ⟨_, by rw [fitting, hb, orLater, ← fitting]⟩
    | _ => exact ⟨_, by rw [fitting, hb, step, List.tail_cons, ← fitting] <;> exact nofun⟩

theorem accepts_nil_iff : accepts [] cs = true ↔ cs = [] := by
  cases cs with
  | nil => simp [accepts, fitting]
  | cons c cs => simp [accepts, fitting, List.replicate_succ]

theorem accepts_char_nil : accepts (.char c :: ws) [] = false := rfl

theorem accepts_char_cons {d : Char} :
    accepts (.char d :: ws) (c :: cs) = (c == d && accepts ws cs) := by
  obtain ⟨b, hb⟩ := exists_fitting_cons ws c cs
  rw [accepts, fitting, hb, step, List.headD_cons, List.tail_cons, accepts, fits]
  exact nofun

theorem accepts_star_nil : accepts (.star :: ws) [] = accepts ws [] := by
  obtain ⟨b, hb⟩ := exists_fitting_nil ws
  rw [accepts, accepts, fitting, hb]
  exact Bool.or_false b

theorem accepts_star_cons :
    accepts (.star :: ws) (c :: cs) = (accepts ws (c :: cs) || accepts (.star :: ws) cs) := by
  obtain ⟨b, hb⟩ := exists_fitting_cons ws c cs
  rw [accepts, accepts, accepts, fitting, fitting, hb]
  rfl

/-! ## Plain characters and one star -/

/-- Plain characters stand for themselves. -/
theorem accepts_chars_iff : accepts (text.map .char ++ ws) cs = true ↔
    ∃ rest, cs = text ++ rest ∧ accepts ws rest = true := by
  induction text generalizing cs with
  | nil => simp
  | cons d text ih =>
    cases cs with
    | nil => simp [accepts_char_nil]
    | cons c cs =>
      rw [List.map_cons, List.cons_append, accepts_char_cons, Bool.and_eq_true, beq_iff_eq, ih]
      simp [and_assoc]

/-- A star stands for any characters. -/
theorem accepts_star_iff : accepts (.star :: ws) cs = true ↔
    ∃ front rest, cs = front ++ rest ∧ accepts ws rest = true := by
  induction cs with
  | nil =>
    rw [accepts_star_nil]
    constructor
    · intro h; exact ⟨[], [], rfl, h⟩
    · rintro ⟨front, rest, heq, h⟩
      obtain ⟨-, rfl⟩ := List.append_eq_nil_iff.1 heq.symm
      exact h
  | cons c cs ih =>
    rw [accepts_star_cons, Bool.or_eq_true, ih]
    constructor
    · rintro (h | ⟨front, rest, rfl, h⟩)
      · exact ⟨[], c :: cs, rfl, h⟩
      · exact ⟨c :: front, rest, rfl, h⟩
    · rintro ⟨front, rest, heq, h⟩
      cases front with
      | nil => exact .inl (heq ▸ h)
      | cons d front =>
        rw [List.cons_append, List.cons.injEq] at heq
        exact .inr ⟨front, rest, heq.2, h⟩

theorem isPattern_eq_false_iff :
    isPattern cs = false ↔ ∀ c ∈ cs, c ≠ '*' ∧ c ≠ '?' ∧ c ≠ '[' := by
  simp [isPattern, not_or, and_assoc]

theorem isPattern_append (cs rest : List Char) :
    isPattern (cs ++ rest) = (isPattern cs || isPattern rest) := List.any_append

/-- A text without special characters is a pattern of itself. -/
theorem parse_chars (h : isPattern text = false) (fuel : Nat) :
    parse (text.length + fuel) (text ++ rest) = text.map .char ++ parse fuel rest := by
  rw [isPattern_eq_false_iff] at h
  induction text with
  | nil => rw [List.length_nil, Nat.zero_add]; rfl
  | cons c text ih =>
    obtain ⟨⟨hstar, hany, hset⟩, htext⟩ := List.forall_mem_cons.1 h
    rw [List.length_cons, Nat.add_right_comm, List.cons_append, parse, ih htext]
    · rfl
    all_goals assumption

/-- A pattern with one star fits what starts and ends like it. -/
theorem accepts_ofText_star_iff {front ending : List Char} (hfront : isPattern front = false)
    (hending : isPattern ending = false) :
    accepts (ofText (front ++ '*' :: ending)) cs = true ↔ ∃ mid, cs = front ++ mid ++ ending := by
  have hparse : ofText (front ++ '*' :: ending) =
      front.map .char ++ .star :: (ending.map .char ++ []) := by
    have hend := @parse_chars ending [] hending 0
    rw [ofText, List.length_append, parse_chars hfront, List.length_cons, parse]
    rw [List.append_nil, Nat.add_zero] at hend
    rw [hend]; rfl
  rw [hparse, accepts_chars_iff]
  constructor
  · rintro ⟨_, rfl, hstar⟩
    obtain ⟨mid, _, rfl, hchars⟩ := accepts_star_iff.1 hstar
    obtain ⟨_, rfl, hnil⟩ := accepts_chars_iff.1 hchars
    rw [accepts_nil_iff.1 hnil]
    exact ⟨mid, by simp⟩
  · rintro ⟨mid, rfl⟩
    refine ⟨mid ++ ending, List.append_assoc .., accepts_star_iff.2 ⟨mid, ending, rfl, ?_⟩⟩
    exact accepts_chars_iff.2 ⟨[], (List.append_nil _).symm, rfl⟩

end PassCheck.Wild
