/-
The simulated machine runs what the code generator writes: the assembly that returns an integer
exits with that integer.
-/
import PassCheck.Build.Backend
import PassCheck.Lint.Passes
import PassCheck.Proofs.Number.Decimal

namespace PassCheck.Machine

/-- The numeral of a move stands between the instruction and its register. -/
theorem numeralHere?_move {sign digits rest : List Char} (hs : sign = ['-'] ∨ sign = [])
    (hne : digits ≠ []) (hd : ∀ c ∈ digits, c.isDigit = true) :
    numeralHere? ("movq $".toList ++ (sign ++ digits ++ (", %rax".toList ++ rest))) =
      some (sign ++ digits) := by
  have hdigit : ∀ c ∈ digits, Text.isDigit c = true := fun c hc => Text.isDigit_of_ascii (hd c hc)
  have htake : (digits ++ (", %rax".toList ++ rest)).takeWhile Text.isDigit = digits := by
    rw [List.takeWhile_append_of_pos hdigit]
    exact List.append_nil digits
  have hdrop : (digits ++ (", %rax".toList ++ rest)).dropWhile Text.isDigit =
      ", %rax".toList ++ rest := by
    rw [List.dropWhile_append_of_pos hdigit]
    rfl
  have hempty : digits.isEmpty = false := by simpa using hne
  rw [numeralHere?, Text.after?_append]
  rcases hs with rfl | rfl
  · simp only [List.cons_append, List.nil_append, Option.bind_eq_bind, Option.bind_some, htake, hdrop,
      hempty, Text.after?_append]
    rfl
  · cases digits with
    | nil => exact absurd rfl hne
    | cons c cs =>
      -- a digit is no minus sign
      have hc : c ≠ '-' := by rintro rfl; exact absurd (hd '-' List.mem_cons_self) (by decide)
      simp only [List.nil_append, Option.bind_eq_bind, Option.bind_some]
      split
      · rename_i he; cases he; exact absurd rfl hc
      · simp only [htake, hdrop, hempty, Text.after?_append]; rfl

/-- No instruction starts in the lines before the move. -/
theorem numeral?_header (cs : List Char) :
    numeral? ("\t.globl main\nmain:\n\tmovq $".toList ++ cs) = numeral? ("movq $".toList ++ cs) :=
  rfl

theorem numeral?_of_here {cs n : List Char} (h : numeralHere? cs = some n) : numeral? cs = some n := by
  cases cs with
  | nil => cases h
  | cons c cs => rw [numeral?, h]

theorem toList_assembly (n : String) : (Lint.assembly n ++ "\n").toList =
    "\t.globl main\nmain:\n\tmovq $".toList ++ (n.toList ++ (", %rax".toList ++ "\n\tretq\n".toList)) := by
  have hback : ", %rax\n\tretq".toList ++ "\n".toList = ", %rax".toList ++ "\n\tretq\n".toList := by
    decide +kernel
  rw [← hback]
  unfold Lint.assembly
  -- the texts are named, lest they are unfolded character by character
  generalize "\t.globl main\nmain:\n\tmovq $" = front
  generalize ", %rax\n\tretq" = back
  simp only [String.toList_append, List.append_assoc]

/-- The machine finds the numeral of an integer in its assembly. -/
theorem numeral?_assembly (v : Int) :
    numeral? (Lint.assembly (Integer.decimal v) ++ "\n").toList = some (Integer.decimal v).toList := by
  have hsign : (if v < 0 then ['-'] else []) = ['-'] ∨ (if v < 0 then ['-'] else []) = ([] : List Char) := by
    split <;> simp
  rw [toList_assembly, numeral?_header, Integer.toList_decimal]
  exact numeral?_of_here (numeralHere?_move hsign Nat.toDigits_ne_nil
    fun c => Integer.isDigit_of_mem_toDigits (n := v.natAbs))

/-- The assembly that returns an integer exits with it. -/
theorem exitCode_assembly {v : Int} (h : Integer.Writable v) :
    exitCode (Lint.assembly (Integer.decimal v) ++ "\n").toList = .ok v := by
  rw [exitCode, numeral?_assembly]
  simp only [String.ofList_toList, Integer.ofText?_decimal h]

end PassCheck.Machine
