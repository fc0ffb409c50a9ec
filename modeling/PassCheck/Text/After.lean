/-
What follows a text at the start of another.
-/
namespace PassCheck.Text

/-- The text after a text it must start with. -/
def after? : List Char → List Char → Option (List Char)
  | [], cs => some cs
  | _ :: _, [] => none
  | p :: ps, c :: cs => if p == c then after? ps cs else none

/-- What follows the text that is put together of two. -/
theorem after?_append (p cs : List Char) : after? p (p ++ cs) = some cs := by
  induction p with
  | nil => rfl
  | cons c p ih => simp [after?, ih]

end PassCheck.Text
