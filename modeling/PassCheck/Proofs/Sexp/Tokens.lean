/-
The tokens of a text. White space and punctuation stand for themselves; a run of atom characters is
one atom, however long it is, up to the next character of another kind. So the tokens of two texts
put together are those of the first followed by those of the second, as long as no atom reaches over
the seam.
-/
import PassCheck.Sexp.Token
import Mathlib.Data.List.TakeWhile
import Mathlib.Tactic.Common

namespace PassCheck.Sexp

open PassCheck.Text

/-- A text after which a preceding atom is over: it is empty or starts with no atom character. -/
def EndsAtom (cs : List Char) : Prop := ∀ c ∈ cs.head?, isAtomChar c = false

theorem endsAtom_nil : EndsAtom [] := by intro c hc; cases hc

theorem endsAtom_cons {c : Char} {cs : List Char} (h : isAtomChar c = false) : EndsAtom (c :: cs) := by
  intro c' hc; cases hc; exact h

theorem isAtomChar_iff {c : Char} :
    isAtomChar c = true ↔ isBlank c = false ∧ c ≠ ';' ∧ Token.punctuation? c = none := by
  simp [isAtomChar, and_assoc]

theorem punctuation?_eq_none_iff {c : Char} :
    Token.punctuation? c = none ↔ c ∉ ['(', '[', ')', ']', '\''] := by
  unfold Token.punctuation?
  split_ifs <;> simp_all

theorem tokenize_nil : tokenize [] = [] := by rw [tokenize]

theorem tokenize_blank {c : Char} (h : isBlank c = true) (cs : List Char) :
    tokenize (c :: cs) = tokenize cs := by
  rw [tokenize, if_pos h]

theorem tokenize_comment (cs : List Char) :
    tokenize (';' :: cs) = tokenize (cs.dropWhile (· != '\n')) := by
  rw [tokenize, if_neg (by decide), if_pos (by decide)]

theorem tokenize_punctuation {c : Char} {t : Token} (h : Token.punctuation? c = some t)
    (cs : List Char) : tokenize (c :: cs) = t :: tokenize cs := by
  have hc : c ∈ ['(', '[', ')', ']', '\''] := by
    by_contra hc
    rw [punctuation?_eq_none_iff.2 hc] at h; cases h
  have hb : isBlank c = false ∧ (c == ';') = false := by
    simp only [List.mem_cons, List.not_mem_nil, or_false] at hc
    rcases hc with rfl | rfl | rfl | rfl | rfl <;> decide
  rw [tokenize, hb.1, hb.2, h]
  simp

theorem tokenize_atom {c : Char} (h : isAtomChar c = true) (cs : List Char) :
    tokenize (c :: cs) =
      .atom (c :: cs.takeWhile isAtomChar) :: tokenize (cs.dropWhile isAtomChar) := by
  obtain ⟨h1, h2, h3⟩ := isAtomChar_iff.1 h
  rw [tokenize, h1, h3]
  simp [h2]

/-- A run of atom characters is one atom when the text after it ends an atom. -/
theorem tokenize_atom_append {cs rest : List Char} (hne : cs ≠ [])
    (h : ∀ c ∈ cs, isAtomChar c = true) (hr : EndsAtom rest) :
    tokenize (cs ++ rest) = .atom cs :: tokenize rest := by
  have hrest : rest.takeWhile isAtomChar = [] ∧ rest.dropWhile isAtomChar = rest := by
    cases rest with
    | nil => exact ⟨rfl, rfl⟩
    | cons r rest => simp [hr r rfl]
  cases cs with
  | nil => exact absurd rfl hne
  | cons c cs =>
    obtain ⟨hc, hcs⟩ := List.forall_mem_cons.1 h
    rw [List.cons_append, tokenize_atom hc, List.takeWhile_append_of_pos hcs,
      List.dropWhile_append_of_pos hcs, hrest.1, hrest.2, List.append_nil]

/-- An atom of a text is not empty and made of atom characters. -/
theorem atom_of_mem_tokenize {text cs : List Char} (h : .atom cs ∈ tokenize text) :
    cs ≠ [] ∧ ∀ c ∈ cs, isAtomChar c = true := by
  induction text using tokenize.induct with
  | case1 => rw [tokenize_nil] at h; cases h
  | case2 c text hb ih => rw [tokenize_blank hb] at h; exact ih h
  | case3 c text hb hc ih =>
    cases eq_of_beq hc
    rw [tokenize_comment] at h
    exact ih h
  | case4 c text hb hc t ht ih =>
    rw [tokenize_punctuation ht] at h
    rcases List.mem_cons.1 h with rfl | h
    · unfold Token.punctuation? at ht
      split_ifs at ht <;> cases ht
    · exact ih h
  | case5 c text hb hc hp ih =>
    have ha : isAtomChar c = true := isAtomChar_iff.2 ⟨by simpa using hb, by simpa using hc, hp⟩
    rw [tokenize_atom ha] at h
    rcases List.mem_cons.1 h with he | h
    · cases he
      refine ⟨by simp, List.forall_mem_cons.2 ⟨ha, fun x hx => ?_⟩⟩
      exact List.mem_takeWhile_imp hx
    · exact ih h

end PassCheck.Sexp
