/-
A faulty pass does not get through. Folding that is off by one is put behind shrinking, and the two
are checked. Whatever the source file and the input file hold, the check does not return. It blames
the faulty pass exactly if there is something to be blamed for: the body of the source program is a
constant expression. Any other program fails before the comparison: it cannot be read, it has no
value after shrinking, or it cannot be folded to a number.
-/
import PassCheck.Proofs.Lint.Boolean
import PassCheck.Proofs.Lint.Check
import PassCheck.Proofs.Build.EndToEnd
import PassCheck.Proofs.Pass.Verdict

namespace PassCheck.Lint

open Check (Gives Steps chain compare readings runInterpreter)
open Sexp (program)

/-- A second pass that folds and adds one. -/
def faultyPass : Pass Routine := ⟨"fold", Recipe.foldWrong.routine, some Recipe.interpret.routine⟩

variable {body d e info : Datum} {n : Int} {v v' w : World}

/-! ## Folding wrongly -/

theorem successor_int (n : Int) : successor (.int n) = .ok (.int (n + 1)) := rfl

theorem foldWrong_apply (info : Datum) (h : foldExp e = .int n) (w : World) :
    foldWrong (program info e) w = (.ok (program info (.int (n + 1))), w) := by
  rw [program, foldWrong, h, successor_int]
  rfl

/-- A number with a value is an integer: booleans and floating-point numbers are rejected. -/
theorem eq_int_of_eval (h : eval d v = (.ok n, v')) (hd : d.number? ≠ none) : d = .int n := by
  cases d with
  | int m => cases h; rfl
  | bool b =>
    obtain ⟨f, hf⟩ := reject_apply (α := Int) "error in interp_exp, unexpected: " (.bool b) v
    cases hf.symm.trans h
  | float x =>
    obtain ⟨f, hf⟩ := reject_apply (α := Int) "error in interp_exp, unexpected: " (.float x) v
    cases hf.symm.trans h
  | _ => exact absurd rfl hd

/-- What has a value and can be folded wrongly is folded to that value, and then one is added. -/
theorem of_foldWrong_ok (he : eval e v = (.ok n, v'))
    (h : (foldWrong (program info e) w).1 = .ok d) :
    foldExp e = .int n ∧ d = program info (.int (n + 1)) := by
  have hnumber : (foldExp e).number? ≠ none := by
    intro hn
    have hfails : Job.lift (successor (foldExp e)) w = (.error .badType, w) := by
      rw [Job.lift_apply, successor, hn]
    rw [program, foldWrong, Job.bind_of_error hfails] at h
    cases h
  have hint := eq_int_of_eval (eval_foldExp he) hnumber
  rw [foldWrong_apply info hint] at h
  exact ⟨hint, (Except.ok.inj h).symm⟩

theorem plain_foldWrong (p : Datum) : Job.Plain (foldWrong p) := by
  unfold foldWrong
  split
  · refine (Job.plain_lift ?_).bind fun e => (Job.plain_stamp e).bind fun _ => Job.plain_pure _
    intro report
    unfold successor
    split
    · nofun
    · split <;> nofun
  · exact Job.plain_pure _

theorem plain_interpret (p : Datum) : Job.Plain (interpret p) :=
  (onInput_interpret p).plain (noReport_interpret p)

/-- The result of a program is the value of its body. -/
theorem exists_of_interpret_program (info : Datum) (h : (interpret (program info e) v).1 = .ok d) :
    ∃ n, eval e v = (.ok n, (eval e v).2) ∧ d = .int n := by
  obtain ⟨n, v₁, hn, hd⟩ := Job.exists_of_bind_ok (Prod.ext h rfl)
  cases hd
  exact ⟨n, by rw [hn], rfl⟩

/-- A body that has a value after shrinking, and then folds to an integer, is constant. -/
theorem returns_of_foldExp (he : eval (shrinkExp body) v = (.ok n, v'))
    (hf : foldExp (shrinkExp body) = .int n) : Returns body n := by
  have hint : (foldExp (shrinkExp body)).toInt? = some n := by rw [hf]; rfl
  rcases (loose_of_toInt? hint).valued_or_rejected with ⟨-, hbool⟩ | ⟨⟨b, hb⟩, -⟩
  · have hc := constant_of_toInt? hbool hint
    obtain ⟨m, hm, -, hfold⟩ := hc.exists_value
    cases hf.symm.trans hfold
    exact ⟨hc, hm⟩
  · cases (hb v).symm.trans he

/-! ## Rounds that lead to a verdict -/

section

variable {compiler inputPath : String} {t : Tracer} {timed : Bool} {ps : List (Pass Routine)}
  {last : Option Datum}

theorem exists_of_shrink_round
    (h : Verdict (chain compiler t timed inputPath (shrinkPass :: ps) (program info body) last w).1) :
    ∃ n w₁, (∃ v v', eval (shrinkExp body) v = (.ok n, v')) ∧
      w.files.AbsentOrFile inputPath ∧
      chain compiler t timed inputPath (shrinkPass :: ps) (program info body) last w =
        (compare compiler shrinkPass last (.int n) (program info (shrinkExp body)) >>= fun _ =>
          chain compiler t timed inputPath ps (program info (shrinkExp body)) (some (.int n))) w₁ := by
  obtain ⟨output, found, w₁, ⟨v, hv⟩, ⟨u, hu⟩, hfile, hrun⟩ :=
    Check.exists_of_chain_verdict rfl (Job.plain_pure _) plain_interpret h
  obtain rfl : program info (shrinkExp body) = output := Except.ok.inj hv
  obtain ⟨n, hn, rfl⟩ := exists_of_interpret_program info hu
  exact ⟨n, w₁, ⟨u, _, hn⟩, hfile, hrun⟩

theorem exists_of_faulty_round (he : eval e v = (.ok n, v'))
    (h : Verdict (chain compiler t timed inputPath [faultyPass] (program info e) last w).1) :
    foldExp e = .int n ∧ ∃ w₁,
      chain compiler t timed inputPath [faultyPass] (program info e) last w =
        (compare compiler faultyPass last (.int (n + 1)) (program info (.int (n + 1))) >>= fun _ =>
          pure (some (.int (n + 1)))) w₁ := by
  obtain ⟨output, found, w₁, ⟨u, hu⟩, ⟨u', hu'⟩, -, hrun⟩ :=
    Check.exists_of_chain_verdict rfl (plain_foldWrong (program info e)) plain_interpret h
  obtain ⟨hfold, rfl⟩ := of_foldWrong_ok he hu
  cases hu'
  exact ⟨hfold, w₁, hrun⟩

/-- The faulty pass does not pass: the result has become another one. -/
theorem chain_ne_ok (r : Option Datum) :
    (chain compiler t timed inputPath [shrinkPass, faultyPass] (program info body) last w).1 ≠
      .ok r := by
  intro h
  obtain ⟨n, w₁, ⟨v, v', hv⟩, -, hrun⟩ := exists_of_shrink_round (h ▸ verdict_ok r)
  rw [hrun] at h
  obtain ⟨-, w₂, -, h⟩ := Job.exists_of_bind_ok (Prod.ext h rfl)
  obtain ⟨-, w₃, hrun⟩ := exists_of_faulty_round hv (by rw [h]; exact verdict_ok r)
  obtain ⟨_, w₄, hcompare, -⟩ := Job.exists_of_bind_ok (hrun.symm.trans h)
  have hsame := (Check.of_compare_ok hcompare).1 (.int n) rfl
  rw [Datum.same_int] at hsame
  omega

/-- A verdict on it is only come to for a constant expression, and only if nothing but a file stands
at the input path. -/
theorem returns_of_chain_verdict (h : Verdict
    (chain compiler t timed inputPath [shrinkPass, faultyPass] (program info body) none w).1) :
    (∃ n, Returns body n) ∧
      w.files.AbsentOrFile inputPath := by
  obtain ⟨n, w₁, ⟨v, v', hv⟩, hfile, hrun⟩ := exists_of_shrink_round h
  rw [hrun] at h
  obtain ⟨hfold, -⟩ := exists_of_faulty_round hv h
  exact ⟨⟨n, returns_of_foldExp hv hfold⟩, hfile⟩

end

/-! ## Checks -/

section

variable {test : String} {o : Check.Options}

theorem run_ne_ok (compiler : String) (hreader : o.reader = Check.readProgram) (r : Datum) :
    (Check.run compiler [shrinkPass, faultyPass] test o w).1 ≠ .ok r := by
  intro h
  obtain ⟨t, _, -, h⟩ := Job.exists_of_bind_ok (Prod.ext h rfl)
  obtain ⟨source, _, hsource, h⟩ := Job.exists_of_bind_ok h
  rw [hreader] at hsource
  obtain ⟨body, rfl, -⟩ := Check.exists_body_of_readProgram (congrArg Prod.fst hsource)
  obtain ⟨-, _, -, h⟩ := Job.exists_of_bind_ok h
  obtain ⟨-, _, -, h⟩ := Job.exists_of_bind_ok h
  obtain ⟨last, _, -, h⟩ := Job.exists_of_bind_ok h
  obtain ⟨result, _, hchain, -⟩ := Job.exists_of_bind_ok h
  exact chain_ne_ok result (congrArg Prod.fst hchain)

/-- Without a type checker and an initial interpreter, a check that comes to a verdict has read a
constant expression. -/
theorem returns_of_run_verdict {compiler : String} (ho : Standard o)
    (hinitial : o.initialInterpreter = none)
    (h : Verdict (Check.run compiler [shrinkPass, faultyPass] test o w).1) :
    (∃ body n, (Check.readProgram (Family.sourcePath test o.testsDir) w).1 =
        .ok (program (.tuple []) body) ∧ Returns body n) ∧
      w.files.AbsentOrFile (Family.inputPath test o.testsDir) := by
  rw [Check.run, Job.bind_of_ok (Tracer.choose_apply o.tracer w), ho.reader, ho.checker,
    hinitial] at h
  obtain ⟨source, w₁, h₁, hw₁, heq₁⟩ := (Check.plain_readProgram _).exists_of_bind h
  obtain ⟨body, rfl, -⟩ := Check.exists_body_of_readProgram (congrArg Prod.fst h₁)
  rw [heq₁] at h
  obtain ⟨-, w₂, -, hw₂, heq₂⟩ := (Tracer.plain_trace _ _ _).exists_of_bind h
  rw [heq₂] at h
  obtain ⟨⟨n, hn⟩, hfile⟩ := returns_of_chain_verdict (Verdict.of_bind h)
  rw [hw₂, hw₁] at hfile
  exact ⟨⟨body, n, congrArg Prod.fst h₁, hn⟩, hfile⟩

/-- The steps of shrinking and of the faulty pass from a constant expression on. -/
def faultySteps (body : Datum) (n : Int) : List Check.Step :=
  [⟨program (.tuple []) (shrinkExp body), some (.int n)⟩] ++
    ⟨program (.tuple []) (.int (n + 1)), some (.int (n + 1))⟩ :: []

theorem Returns.faultySteps {files : Files} {inputPath : String} (hr : Returns body n)
    (hfile : files.AbsentOrFile inputPath) :
    Steps files inputPath ([shrinkPass] ++ faultyPass :: []) (program (.tuple []) body)
      (faultySteps body n) := by
  obtain ⟨hshrunk, hfold⟩ := hr.foldExp_shrinkExp
  have hinterp : ∀ {m : Int} {e : Datum}, (∀ v, eval e v = (.ok m, v)) → Gives files
      (runInterpreter Recipe.interpret.routine (program (.tuple []) e) (some inputPath))
      (.int m) := fun he =>
    Check.gives_runInterpreter hfile.exists_content fun v _ => interpret_program (.tuple []) (he v)
  exact .cons (fun _ _ => rfl) (.some (hinterp hshrunk)) <|
    .cons (fun v _ => foldWrong_apply (.tuple []) hfold v) (.some (hinterp fun _ => rfl)) <| .nil _

theorem results_faultySteps (body : Datum) (n : Int) :
    Check.results none (faultySteps body n) = [.int n, .int (n + 1)] := rfl

/-- Behind a constant expression the faulty pass is blamed. -/
theorem Returns.run_blames (compiler : String) (ho : Standard o)
    (hinitial : o.initialInterpreter = none) (hclock : w.clock.Shows (2 * readings o.timed))
    (hread : (Check.readProgram (Family.sourcePath test o.testsDir) w).1 =
      .ok (program (.tuple []) body))
    (hr : Returns body n) (hn : Integer.Writable n) (hsucc : Integer.Writable (n + 1))
    (hfile : w.files.AbsentOrFile (Family.inputPath test o.testsDir)) :
    (Check.run compiler [shrinkPass, faultyPass] test o w).1 = .error (.report (.mismatch
      (.str compiler) (.str "fold") (.int n) (.int (n + 1))
      (program (.tuple []) (.int (n + 1))))) := by
  have hbody : body.Writable := by
    obtain ⟨b, hb, hwritable⟩ := Check.exists_body_of_readProgram hread
    cases hb
    exact hwritable
  have hcheck : Check.PureCheck ([shrinkPass] ++ faultyPass :: []) test o w
      (program (.tuple []) body) none (Lint.faultySteps body n) :=
    { reads := ho.reads hread
      types := ho.types
      interprets := by rw [hinitial]; exact .none
      transforms := hr.faultySteps hfile
      clock := hclock
      source_writable := writable_program hbody
      outputs_writable := by
        simp only [Lint.faultySteps, List.cons_append, List.nil_append, List.forall_mem_cons]
        exact ⟨writable_program (writable_shrinkExp hbody),
          writable_program (Datum.writable_int hsucc), nofun⟩
      results_writable := by
        rw [results_faultySteps]
        simp only [List.forall_mem_cons]
        exact fun _ => ⟨Datum.writable_int hn, Datum.writable_int hsucc, nofun⟩
      comparable := by
        rw [results_faultySteps]
        simp only [List.forall_mem_cons]
        exact ⟨Datum.comparable_int n, Datum.comparable_int (n + 1), nofun⟩ }
  have hdiffers : (Datum.int (n + 1)).same (.int n) = false := by
    rw [Bool.eq_false_iff, Ne, Datum.same_int]
    omega
  obtain ⟨w₁, h₁⟩ := hcheck.run_blames compiler rfl (.singleton _) rfl rfl hdiffers
  exact congrArg Prod.fst (h₁ [])

end

/-- The faulty pass is always caught. No check of program files returns, whatever the files and the
other options are. Without a type checker and an initial interpreter, and if the values can be
written, a check ends in a mismatch exactly if the source file can be read, its body is built from
integers by negation, sum and difference, and nothing but a file stands at the input path. The
mismatch then names the faulty pass, the value, the value plus one, and the program that the pass has
made. -/
theorem faulty_pass_is_caught (compiler test : String) {o : Check.Options} {w : World}
    (hreader : o.reader = Check.readProgram) :
    (∃ e, (Check.run compiler [shrinkPass, faultyPass] test o w).1 = .error e) ∧
    (o.typeChecker = none → o.initialInterpreter = none →
      w.clock.Shows (2 * readings o.timed) →
      (∀ body n, (Check.readProgram (Family.sourcePath test o.testsDir) w).1 =
        .ok (program (.tuple []) body) → Returns body n →
        Integer.Writable n ∧ Integer.Writable (n + 1)) →
      ((∃ c p expected actual made, (Check.run compiler [shrinkPass, faultyPass] test o w).1 =
          .error (.report (.mismatch c p expected actual made))) ↔
        (∃ body, (Check.readProgram (Family.sourcePath test o.testsDir) w).1 =
          .ok (program (.tuple []) body) ∧ Constant body) ∧
        w.files.AbsentOrFile (Family.inputPath test o.testsDir)) ∧
      ∀ c p expected actual made, (Check.run compiler [shrinkPass, faultyPass] test o w).1 =
          .error (.report (.mismatch c p expected actual made)) →
        ∃ body n, (Check.readProgram (Family.sourcePath test o.testsDir) w).1 =
            .ok (program (.tuple []) body) ∧ Returns body n ∧
          c = .str compiler ∧ p = .str "fold" ∧ expected = .int n ∧ actual = .int (n + 1) ∧
          made = program (.tuple []) (.int (n + 1))) := by
  refine ⟨?_, fun hchecker hinitial hclock hvalues => ?_⟩
  · cases h : (Check.run compiler [shrinkPass, faultyPass] test o w).1 with
    | error e => exact ⟨e, rfl⟩
    | ok r => exact absurd h (run_ne_ok compiler hreader r)
  have ho : Standard o := ⟨hreader, hchecker, by rw [hinitial]; nofun⟩
  have hblames : ∀ body n, (Check.readProgram (Family.sourcePath test o.testsDir) w).1 =
      .ok (program (.tuple []) body) → Returns body n →
      w.files.AbsentOrFile (Family.inputPath test o.testsDir) →
      (Check.run compiler [shrinkPass, faultyPass] test o w).1 = .error (.report (.mismatch
        (.str compiler) (.str "fold") (.int n) (.int (n + 1))
        (program (.tuple []) (.int (n + 1))))) := by
    intro body n hread hr hfile
    obtain ⟨hn, hsucc⟩ := hvalues body n hread hr
    exact hr.run_blames compiler ho hinitial hclock hread hn hsucc hfile
  refine ⟨⟨?_, ?_⟩, ?_⟩
  · rintro ⟨c, p, expected, actual, made, h⟩
    obtain ⟨⟨body, n, hread, hr⟩, hfile⟩ :=
      returns_of_run_verdict ho hinitial (h ▸ verdict_report _)
    exact ⟨⟨body, hread, hr.1⟩, hfile⟩
  · rintro ⟨⟨body, hread, hc⟩, hfile⟩
    obtain ⟨n, hn, -⟩ := hc.exists_value
    exact ⟨_, _, _, _, _, hblames body n hread ⟨hc, hn⟩ hfile⟩
  · intro c p expected actual made h
    obtain ⟨⟨body, n, hread, hr⟩, hfile⟩ :=
      returns_of_run_verdict ho hinitial (h ▸ verdict_report _)
    cases h.symm.trans (hblames body n hread hr hfile)
    exact ⟨body, n, hread, hr, rfl, rfl, rfl, rfl, rfl⟩

/-- A constant expression that holds differences, and an input that nothing reads. -/
def faultyFiles : Files :=
  ⟨[(["tests"], .dir), (["tests", "t_1.rkt"], .file "(- [+ 40 -3] (- 5))".toUTF8),
    (["tests", "t_1.in"], .file "7\n".toUTF8)]⟩

def faultyBody : Datum :=
  .tuple [.str "-", .tuple [.str "+", .int 40, .int (-3)], .tuple [.str "-", .int 5]]

theorem faulty_pass_is_caught_constant :
    (Check.readProgram (Family.sourcePath "t_1" Check.Options.plain.testsDir)
      (World.start faultyFiles)).1 = .ok (program (.tuple []) faultyBody) ∧
    Returns faultyBody 42 ∧
    (Check.run "rc" [shrinkPass, faultyPass] "t_1" .plain (World.start faultyFiles)).1 =
      .error (.report (.mismatch (.str "rc") (.str "fold") (.int 42) (.int 43)
        (program (.tuple []) (.int 43)))) := by
  have hread : (Check.readProgram (Family.sourcePath "t_1" Check.Options.plain.testsDir)
      (World.start faultyFiles)).1 = .ok (program (.tuple []) faultyBody) :=
    Check.readProgram_of_tokens "(- [+ 40 -3] (- 5))"
      [.opening .round, .atom ['-'], .opening .square, .atom ['+'], .atom ['4', '0'],
        .atom ['-', '3'], .closing .square, .opening .round, .atom ['-'], .atom ['5'],
        .closing .round, .closing .round]
      rfl (by decide) (by decide +kernel) rfl
  have hr : Returns faultyBody 42 :=
    ⟨.sub (.add (.int 40) (.int (-3))) (.neg (.int 5)), fun _ => rfl⟩
  have hvalue : ∀ body n, (Check.readProgram (Family.sourcePath "t_1" Check.Options.plain.testsDir)
      (World.start faultyFiles)).1 = .ok (program (.tuple []) body) → Returns body n →
      body = faultyBody ∧ n = 42 := by
    intro body n hbody hn
    cases hread.symm.trans hbody
    exact ⟨rfl, Except.ok.inj (congrArg Prod.fst ((hn.2 default).symm.trans (hr.2 default)))⟩
  have hclock : (World.start faultyFiles).clock.Shows 2 := by
    refine ⟨?_, ?_, trivial⟩ <;> decide +kernel
  have hwritable : ∀ body n,
      (Check.readProgram (Family.sourcePath "t_1" Check.Options.plain.testsDir)
        (World.start faultyFiles)).1 = .ok (program (.tuple []) body) → Returns body n →
      Integer.Writable n ∧ Integer.Writable (n + 1) := by
    intro body n hbody hn
    obtain ⟨-, rfl⟩ := hvalue body n hbody hn
    constructor <;> decide +kernel
  obtain ⟨hiff, hfields⟩ := (faulty_pass_is_caught "rc" "t_1" (o := .plain)
    (w := World.start faultyFiles) rfl).2 rfl rfl hclock hwritable
  obtain ⟨c, p, expected, actual, made, hrun⟩ :=
    hiff.2 ⟨⟨faultyBody, hread, hr.1⟩, .inr ⟨_, rfl⟩⟩
  obtain ⟨body, n, hbody, hn, rfl, rfl, rfl, rfl, rfl⟩ := hfields c p expected actual made hrun
  obtain ⟨-, rfl⟩ := hvalue body n hbody hn
  exact ⟨hread, hr, hrun⟩

end PassCheck.Lint
