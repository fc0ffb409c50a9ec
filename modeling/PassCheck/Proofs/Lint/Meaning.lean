/-
What an interpreter of the tiny language makes of a rewritten program and of an input file. A shrunk
program comes to the same integer as the program itself, or to a failure of the same kind, and
leaves the same part of the file unread. A folded program without booleans does exactly what the
program does, down to the wording of a failure.

Folding is shown to be right for any way of reading an integer (`evalWith`): it moves, drops and
repeats no reading, whatever a reading does and however it fails.
-/
import PassCheck.Proofs.Lint.Rewrite
import PassCheck.Proofs.Pass.Source
import PassCheck.Recipe

namespace PassCheck

/-! ## Interpreters on an input file -/

namespace Check

variable {i : Routine} {program : Datum}

/-- On an input file of this content, an interpreter comes to a result and leaves a rest of the
input unread. The world is as before when it is done. -/
def ComesTo (i : Routine) (program : Datum) (content : ByteArray) (r : Except Failure Datum)
    (rest : Input) : Prop :=
  ∀ path (w : World), w.Holds path content →
    i [program] (w.withInput (.ofBytes content)) = (r, w.withInput rest) ∧
    runInterpreter i program (some path) w = (r, w)

/-- An interpreter that only reads its input comes to what it comes to in any one world. -/
theorem comesTo_of_onInput (h : Job.OnInput (i [program])) (content : ByteArray) (v : World) :
    ComesTo i program content (i [program] (v.withInput (.ofBytes content))).1
      (i [program] (v.withInput (.ofBytes content))).2.input := by
  intro path w hw
  have hi := h (v.withInput (.ofBytes content)) w
  refine ⟨hi, ?_⟩
  rw [runInterpreter_of_holds i program hw, Job.withInput]
  simp only [hi]

end Check

namespace Lint

open Check (ComesTo runInterpreter)
open Datum (Every)

variable {e : Datum}

/-! ## Readings of any kind -/

/-- The value of an expression, with a job that reads an integer. -/
def evalWith (read : Job Int) : Datum → Job Int
  | .int n => return n
  | .seq _ [.str "read"] => read
  | .seq _ [.str "-", a] => do
    let x ← evalWith read a
    return -x
  | .seq _ [.str "+", a, b] => do
    let x ← evalWith read a
    let y ← evalWith read b
    return x + y
  | .seq _ [.str "-", a, b] => do
    let x ← evalWith read a
    let y ← evalWith read b
    return x - y
  | e => reject "error in interp_exp, unexpected: " e
termination_by structural e => e

theorem eval_eq_evalWith (e : Datum) : eval e = evalWith readInt e := by
  fun_induction eval e with
  | case1 n => rfl
  | case2 k => rfl
  | case3 k a ih => rw [ih]; rfl
  | case4 k a b iha ihb => rw [iha, ihb]; rfl
  | case5 k a b iha ihb => rw [iha, ihb]; rfl
  | case6 e hint hread hneg hadd hsub => rw [evalWith] <;> assumption

/-- Folding brings no boolean about. -/
theorem notBool_foldExp (h : NotBool e) : NotBool (foldExp e) := by
  unfold foldExp
  split
  · unfold foldNeg; split <;> trivial
  · unfold foldAdd; split <;> trivial
  · exact h

/-- What is no boolean and counts as an integer is one. -/
theorem eq_int_of_toInt? {n : Int} (h : NotBool e) (hn : e.toInt? = some n) : e = .int n := by
  cases e with
  | int m => cases hn; rfl
  | bool b => exact absurd h id
  | _ => cases hn

variable {read : Job Int} {k : SeqKind} {a b : Datum}

theorem evalWith_foldNeg (ha : NotBool a) :
    evalWith read (foldNeg a) = evalWith read (.seq k [.str "-", a]) := by
  unfold foldNeg
  split
  · rename_i n hn
    rw [eq_int_of_toInt? ha hn]
    exact (pure_bind n fun x => (pure (-x) : Job Int)).symm
  · rfl

theorem evalWith_foldAdd (ha : NotBool a) (hb : NotBool b) :
    evalWith read (foldAdd a b) = evalWith read (.seq k [.str "+", a, b]) := by
  unfold foldAdd
  split
  · rename_i m n hm hn
    rw [eq_int_of_toInt? ha hm, eq_int_of_toInt? hb hn]
    have hsum : evalWith read (.seq k [.str "+", .int m, .int n]) = pure (m + n) := by
      simp only [evalWith, pure_bind]
    rw [hsum]
    rfl
  · rfl

/-- Without booleans, folding changes neither the value nor the readings nor the failures of an
expression, whatever a reading is. -/
theorem evalWith_foldExp (h : Every NotBool e) (read : Job Int) :
    evalWith read (foldExp e) = evalWith read e := by
  fun_induction foldExp e with
  | case1 k a ih =>
    have ha := (Datum.every_seq.1 h).2 a (by simp)
    rw [evalWith_foldNeg (k := k) (notBool_foldExp ha.self), evalWith, evalWith, ih ha]
  | case2 k a b iha ihb =>
    have ha := (Datum.every_seq.1 h).2 a (by simp)
    have hb := (Datum.every_seq.1 h).2 b (by simp)
    rw [evalWith_foldAdd (k := k) (notBool_foldExp ha.self) (notBool_foldExp hb.self), evalWith,
      evalWith, iha ha, ihb hb]
  | case3 e => rfl

/-! ## Programs -/

theorem routine_interpret (p : Datum) : Recipe.interpret.routine [p] = interpret p := rfl

/-- The result of a program is the value of its body. -/
theorem interpret_apply (k : SeqKind) (info body : Datum) (w : World) :
    interpret (.seq k [.str "Program", info, body]) w =
      ((eval body w).1.map .int, (eval body w).2) := by
  rw [interpret]
  rcases hb : eval body w with ⟨err | n, w₁⟩
  · exact Job.bind_of_error hb
  · exact Job.bind_of_ok hb

/-- What a program comes to on an input file is what its body comes to in any world with that
input. -/
theorem comesTo_program (k : SeqKind) (info body : Datum) (content : ByteArray) (v : World) :
    ComesTo Recipe.interpret.routine (.seq k [.str "Program", info, body]) content
      ((eval body (v.withInput (.ofBytes content))).1.map .int)
      (eval body (v.withInput (.ofBytes content))).2.input := by
  have hin := onInput_interpret (.seq k [.str "Program", info, body])
  rw [← routine_interpret] at hin
  have h := Check.comesTo_of_onInput hin content v
  rwa [routine_interpret, interpret_apply] at h

/-- Shrinking keeps the meaning of a program and its effects, whatever its body is. On every content
of the input file, the shrunk program and the program itself come to the same integer or to failures
of one kind, and both leave the same part of the input unread. Without an input file they do the
same on the standard input. -/
theorem shrink_keeps_meaning (k : SeqKind) (info body : Datum) :
    (∀ content, ∃ (r r' : Except Failure Int) (rest : Input),
      ComesTo Recipe.interpret.routine (shrink (.seq k [.str "Program", info, body])) content
        (r.map .int) rest ∧
      ComesTo Recipe.interpret.routine (.seq k [.str "Program", info, body]) content
        (r'.map .int) rest ∧
      SameOutcome r r') ∧
    ∀ inputPath, Job.Agrees
      (runInterpreter Recipe.interpret.routine (shrink (.seq k [.str "Program", info, body]))
        inputPath)
      (runInterpreter Recipe.interpret.routine (.seq k [.str "Program", info, body])
        inputPath) := by
  refine ⟨fun content => ?_, fun inputPath => ?_⟩
  · have hagrees := eval_shrinkExp_agrees body
    let v := (World.start .empty).withInput (.ofBytes content)
    refine ⟨(eval (shrinkExp body) v).1, (eval body v).1, (eval body v).2.input, ?_, ?_,
      hagrees.outcome v⟩
    · rw [← hagrees.world v]
      exact comesTo_program .tuple info (shrinkExp body) content (World.start .empty)
    · exact comesTo_program k info body content (World.start .empty)
  · refine Check.agrees_runInterpreter ?_ inputPath
    rw [routine_interpret, routine_interpret]
    exact interpret_shrink_agrees _

/-- Folding keeps the meaning of a program without booleans, its failures and its effects. On every
content of the input file, the folded program and the program itself come to the same integer or to
the very same failure, and leave the same part of the input unread; without an input file they are
the same job on the standard input. Nor does it matter how an integer is read: in place of `readInt`
there may be any job, with any failures of its own. -/
theorem fold_keeps_meaning (k : SeqKind) (info : Datum) {body : Datum} (hb : Every NotBool body) :
    (∀ content, ∃ (r : Except Failure Int) (rest : Input),
      ComesTo Recipe.interpret.routine (fold (.seq k [.str "Program", info, body])) content
        (r.map .int) rest ∧
      ComesTo Recipe.interpret.routine (.seq k [.str "Program", info, body]) content
        (r.map .int) rest) ∧
    (∀ inputPath,
      runInterpreter Recipe.interpret.routine (fold (.seq k [.str "Program", info, body]))
          inputPath =
        runInterpreter Recipe.interpret.routine (.seq k [.str "Program", info, body]) inputPath) ∧
    eval body = evalWith readInt body ∧
    ∀ read, evalWith read (foldExp body) = evalWith read body := by
  have heval : eval (foldExp body) = eval body := by
    rw [eval_eq_evalWith, eval_eq_evalWith, evalWith_foldExp hb]
  have hinterpret : Recipe.interpret.routine [fold (.seq k [.str "Program", info, body])] =
      Recipe.interpret.routine [.seq k [.str "Program", info, body]] := by
    rw [routine_interpret, routine_interpret]
    funext w
    show interpret (.seq .tuple [.str "Program", info, foldExp body]) w = _
    rw [interpret_apply, interpret_apply, heval]
  refine ⟨fun content => ?_, fun inputPath => ?_, eval_eq_evalWith body, evalWith_foldExp hb⟩
  · let v := (World.start .empty).withInput (.ofBytes content)
    refine ⟨(eval body v).1, (eval body v).2.input, ?_, ?_⟩
    · rw [← heval]
      exact comesTo_program .tuple info (foldExp body) content (World.start .empty)
    · exact comesTo_program k info body content (World.start .empty)
  · unfold runInterpreter
    rw [hinterpret]

/-- A body that reads an integer and is refused after that, though a part of it can be folded. -/
def refusedBody : Datum :=
  .list [.str "+", .tuple [.str "read"],
    .tuple [.str "+", .tuple [.str "*", .int 1, .int 2],
      .tuple [.str "-", .list [.str "-", .int 3]]]]

def refusedFiles : Files := ⟨[(["f.in"], .file "5\n7\n".toUTF8)]⟩

theorem fold_keeps_meaning_refused : Every NotBool refusedBody ∧
    foldExp refusedBody = .tuple [.str "+", .tuple [.str "read"],
      .tuple [.str "+", .tuple [.str "*", .int 1, .int 2], .int 3]] ∧
    (runInterpreter Recipe.interpret.routine
        (fold (.tuple [.str "Program", .tuple [], refusedBody])) (some "f.in")
        (World.start refusedFiles)).1 =
      .error (.plain "error in interp_exp, unexpected: ('*', 1, 2)") := by
  have hb : Every NotBool refusedBody := by decide +kernel
  refine ⟨hb, rfl, ?_⟩
  rw [(fold_keeps_meaning .tuple (.tuple []) hb).2.1]
  exact eq_of_plainMessage? (by decide +kernel)

end Lint

end PassCheck
