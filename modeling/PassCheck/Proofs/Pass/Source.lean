/-
The files of a test. Reading the source changes nothing and depends on the content of the file only,
and what is read can be written again. An interpreter runs on the content of the input file from its
beginning, or on the standard input if there is no such file.
-/
import PassCheck.Pass.Check
import PassCheck.Proofs.Sexp.RoundTrip
import PassCheck.Proofs.World.Files
import PassCheck.Proofs.World.Input

namespace PassCheck

theorem Text.unifyNewlines_eq_self {cs : List Char} (h : '\r' ∉ cs) : unifyNewlines cs = cs := by
  fun_induction unifyNewlines cs with
  | case1 => rfl
  | case2 cs ih => simp at h
  | case3 cs _ ih => simp at h
  | case4 c cs _ _ ih =>
    rw [List.mem_cons, not_or] at h
    rw [ih h.2]

/-- A file that holds a text is read as that text, up to its line ends. -/
theorem decodeText?_toUTF8_unified (s : String) :
    decodeText? s.toUTF8 = some (Text.unifyNewlines s.toList) := by
  have hs : String.fromUTF8? s.toUTF8 = some s := by
    unfold String.fromUTF8?
    split
    · rfl
    · rename_i hs; exact absurd s.isValidUTF8 (by simpa using hs)
  rw [decodeText?, hs, Option.map_some]

theorem decodeText?_toUTF8 {s : String} (h : '\r' ∉ s.toList) :
    decodeText? s.toUTF8 = some s.toList := by
  rw [decodeText?_toUTF8_unified, Text.unifyNewlines_eq_self h]

/-- The text in the content of a file. -/
def textOf (content : ByteArray) : Except Failure (List Char) :=
  match decodeText? content with
  | some cs => .ok cs
  | none => .error .undecodable

theorem Job.readText_apply (path : String) (w : World) :
    Job.readText path w = (w.files.read path >>= textOf, w) := by
  cases hr : w.files.read path with
  | error e =>
    have hb : Job.readBytes path w = (.error e, w) := by rw [readBytes, hr]
    exact bind_of_error hb
  | ok content =>
    have hb : Job.readBytes path w = (.ok content, w) := by rw [readBytes, hr]
    rw [readText, bind_of_ok hb]
    show _ = (textOf content, w)
    rw [textOf]
    cases decodeText? content <;> rfl

namespace Check

/-- The program in the text of a file. -/
def programOf (path : String) (text : List Char) : Except Failure Datum :=
  match Sexp.readProgramText path text with
  | .ok p => .ok p
  | .error e => .error (.ofRead e)

/-- Reading a program changes nothing and depends on the content of its file only. -/
theorem readProgram_apply (path : String) (w : World) :
    readProgram path w = (w.files.read path >>= textOf >>= programOf path, w) := by
  have ht := Job.readText_apply path w
  cases hr : w.files.read path >>= textOf with
  | error e =>
    rw [hr] at ht
    exact Job.bind_of_error ht
  | ok text =>
    rw [hr] at ht
    rw [readProgram, Job.bind_of_ok ht]
    show _ = (programOf path text, w)
    rw [programOf]
    cases Sexp.readProgramText path text <;> rfl

theorem exists_of_readProgram {path : String} {w : World} {p : Datum}
    (h : (readProgram path w).1 = .ok p) :
    ∃ content text, w.files.read path = .ok content ∧ Sexp.readProgramText path text = .ok p := by
  rw [readProgram_apply] at h
  cases hr : w.files.read path with
  | error e => rw [hr] at h; cases h
  | ok content =>
    rw [hr] at h
    replace h : (textOf content >>= programOf path) = .ok p := h
    cases ht : textOf content with
    | error e => rw [ht] at h; cases h
    | ok text =>
      rw [ht] at h
      replace h : programOf path text = .ok p := h
      rw [programOf] at h
      split at h
      · rename_i hp; cases h; exact ⟨content, text, rfl, hp⟩
      · cases h

/-- The body of a program that is read can be written. -/
theorem writable_of_readProgramText {path : String} {text : List Char} {body : Datum}
    (h : Sexp.readProgramText path text = .ok (Sexp.program (.tuple []) body)) : body.Writable := by
  rw [Sexp.readProgramText] at h
  split at h
  · cases h
  · rename_i hd
    cases h
    exact (Sexp.tree_of_readAll hd body List.mem_cons_self).1.writable
  · cases h

/-- A program that is read has no information yet, and a body that can be written. -/
theorem exists_body_of_readProgram {path : String} {w : World} {p : Datum}
    (h : (readProgram path w).1 = .ok p) :
    ∃ body, p = Sexp.program (.tuple []) body ∧ body.Writable := by
  obtain ⟨content, text, -, ht⟩ := exists_of_readProgram h
  have ht' := ht
  rw [Sexp.readProgramText] at ht
  split at ht
  · cases ht
  · cases ht; exact ⟨_, rfl, writable_of_readProgramText ht'⟩
  · cases ht

theorem readProgram_of_tokens {path : String} {w : World} {d : Datum} (text : String)
    (ts : List Sexp.Token) (hr : w.files.read path = .ok text.toUTF8) (hcr : '\r' ∉ text.toList)
    (hts : Sexp.tokenize (Sexp.dropLangLines text.toList) = ts)
    (hd : Sexp.readOne ts = .ok (d, [])) :
    (readProgram path w).1 = .ok (Sexp.program (.tuple []) d) := by
  rw [readProgram_apply, hr]
  show (textOf text.toUTF8 >>= programOf path) = _
  rw [textOf, decodeText?_toUTF8 hcr]
  show programOf path text.toList = _
  rw [programOf, Sexp.readProgramText, Sexp.readAll, hts, Sexp.readTokens_of_readOne hd,
    Sexp.readTokens]
  rfl

/-! ## Inputs -/

variable {path : String} {content : ByteArray} {w : World}

theorem runInterpreter_of_holds (i : Routine) (program : Datum) (hw : w.Holds path content) :
    runInterpreter i program (some path) w =
      Job.withInput (.ofBytes content) (i [program]) w := by
  have hp : w.files.present path = true := Files.present_of_read hw
  have hread : Job.readBytes path w = (.ok content, w) := by rw [Job.readBytes, hw]
  rw [runInterpreter, Job.bind_of_ok (Job.get_apply w), if_pos hp, Job.bind_of_ok hread]

theorem runInterpreter_of_absent (i : Routine) (program : Datum)
    (hw : w.files.present path = false) :
    runInterpreter i program (some path) w = i [program] w := by
  rw [runInterpreter, Job.bind_of_ok (Job.get_apply w), hw, if_neg Bool.false_ne_true]

/-- What stands at the input path but cannot be read, such as a directory, is refused before the
interpreter is run. -/
theorem runInterpreter_of_unreadable (i : Routine) (program : Datum) {e : Failure}
    (hp : w.files.present path = true) (hr : w.files.read path = .error e) :
    runInterpreter i program (some path) w = (.error e, w) := by
  have hread : Job.readBytes path w = (.error e, w) := by rw [Job.readBytes, hr]
  rw [runInterpreter, Job.bind_of_ok (Job.get_apply w), if_pos hp, Job.bind_of_error hread]

/-- Interpreters that agree on two programs agree on them in a check. -/
theorem agrees_runInterpreter {i j : Routine} {p q : Datum} (h : Job.Agrees (i [p]) (j [q]))
    (inputPath : Option String) :
    Job.Agrees (runInterpreter i p inputPath) (runInterpreter j q inputPath) := by
  cases inputPath with
  | none => exact h
  | some path =>
    refine (Job.Agrees.refl get).bind fun w => ?_
    split
    · exact (Job.Agrees.refl (Job.readBytes path)).bind fun content => h.withInput (.ofBytes content)
    · exact h

/-- An interpreter that finds all results of another one on a program finds them in a check. -/
theorem runInterpreter_of_ok {i j : Routine} {p q d : Datum} {inputPath : Option String} {w' : World}
    (h : ∀ w d w', i [p] w = (.ok d, w') → j [q] w = (.ok d, w'))
    (hi : runInterpreter i p inputPath w = (.ok d, w')) :
    runInterpreter j q inputPath w = (.ok d, w') := by
  cases inputPath with
  | none => exact h w d w' hi
  | some path =>
    cases hp : w.files.present path with
    | false =>
      rw [runInterpreter_of_absent _ _ hp] at hi ⊢
      exact h w d w' hi
    | true =>
      rw [runInterpreter, Job.bind_of_ok (Job.get_apply w), if_pos hp] at hi ⊢
      obtain ⟨content, w₁, hb, hr⟩ := Job.exists_of_bind_ok hi
      rw [Job.bind_of_ok hb]
      rw [Job.withInput] at hr ⊢
      rcases hx : i [p] { w₁ with input := .ofBytes content } with ⟨r, w₂⟩
      rw [hx] at hr
      cases hr
      rw [h _ _ _ hx]

end Check

end PassCheck
