/-
The command that runs tests, from the command line to its end. With passes that only compute it tells
that all tests passed exactly if they do: every check that is asked for finds a result, and every test
that is to be built is compiled, linked and run with the right codes. If a check fails, nothing was
built. A report ends the command with its message, after all that was written before.

The two phases are batches of their own (`Check.runAll_cases`, `Batch.Reached.runAll_cases`). The
checks leave a world in which only the clock has moved, so the second batch starts as from the
beginning.
-/
import PassCheck.Command.Tests
import PassCheck.Proofs.Build.Native
import PassCheck.Proofs.Lint.Rewrite
import PassCheck.Proofs.Pass.Repeat
import Mathlib.Algebra.Group.Int.Defs

namespace PassCheck

/-! ## How a command ends -/

namespace Command

/-- How a command ends with a failure: with the message of a report, if it can be worded. -/
def ended : Failure → Except Failure Exit
  | .report r => r.message?.map fun m => .message ("Error: " ++ m)
  | e => .error e

theorem ended_ne_normal (e : Failure) : ended e ≠ .ok .normal := by
  cases e with
  | report r =>
    rw [ended]
    cases r.message? <;> simp [Except.map]
  | _ => nofun

theorem reporting_of_error {job : Job Exit} {e : Failure} {w v : World} (h : job w = (.error e, v)) :
    reporting job w = (ended e, v) := by
  unfold reporting
  rw [h]
  cases e <;> rfl

theorem reporting_of_ok {job : Job Exit} {x : Exit} {w v : World} (h : job w = (.ok x, v)) :
    reporting job w = (.ok x, v) := by
  unfold reporting
  rw [h]

end Command

namespace Command.Tests

open Family (nameOf)
open Build (PurePasses)

/-- Indices that could be read can be written. -/
theorem writable_of_readIndices {ds : List Datum} {is : List Int} (h : readIndices ds = .ok is) :
    ∀ i ∈ is, Integer.Writable i := by
  fun_induction readIndices ds generalizing is with
  | case1 => cases h; nofun
  | case2 s ds hn => cases h
  | case3 s ds n hn ih =>
    cases hds : readIndices ds with
    | error e => rw [hds] at h; cases h
    | ok rest =>
      rw [hds] at h
      cases h
      exact List.forall_mem_cons.2 ⟨Integer.writable_of_ofText? hn, ih hds⟩
  | case4 => cases h

/-! ## What a command line asks for -/

/-- What a command line asks for: a compiler with its passes, and tests of a family. -/
structure Request where
  compiler : String
  passes : List (Pass Routine)
  mode : Mode
  family : String
  dir : String
  runtime : String
  indices : List Int
  traced : Bool

namespace Request

/-- A command line asks for explicit tests, and the compiler it names can be loaded. -/
structure AskedBy (q : Request) (load : Loader) (args : List String) (s : Settings) : Prop where
  parses : grammar.parse args = .ok s
  compiler : s.compiler = .str q.compiler
  loads : ∀ w, load q.compiler w = (.ok q.passes, w)
  mode : Mode.ofValue (s.value "--mode" (.str "both")) = q.mode
  family : s.text "family" = q.family
  dir : s.value "--tests-dir" (.str Check.defaultTestsDir) = .str q.dir
  runtime : s.value "--runtime" (.str Batch.defaultRuntime) = .str q.runtime
  explicit : asksForAll (s.items "indices") = false
  indices : readIndices (s.items "indices") = .ok q.indices
  traced : s.given "--trace" = q.traced

variable (q : Request) {load : Loader} {args : List String} {s : Settings} {w v : World}

/-- The world that the tests are run in: tracing may have been switched on. -/
def world (w : World) : World :=
  { w with tracer := { w.tracer with enabled := q.traced || w.tracer.enabled } }

/-- The line that says which tests are run. -/
def heading : String :=
  "*** RUN " ++ q.family ++ " TESTS " ++ (Datum.list (q.indices.map .int)).literal?.getD "" ++
    "! ***"

/-- The line that says that all tests passed. -/
def verdict : String :=
  "*** " ++ Nat.repr q.indices.length ++ " " ++ q.family ++ " TESTS PASSED! ***"

/-- The tests, checked and built as the mode says. -/
def tests : Job Unit :=
  runTests q.compiler q.passes q.mode q.family q.dir (.str q.runtime) q.indices

/-- The check of one test. -/
def check (i : Int) : Job Datum := Check.checkTest q.compiler q.passes q.family q.dir i

/-- Transforms only compute and interpreters only read their input. What stands at the path of an
input file is a file, and a check of a test without one leaves the standard input alone. The clock can
be read as often as passes are run. -/
structure Harmless (w : World) : Prop where
  transforms : PurePasses q.passes
  interpreters : Check.ReadingInterpreters q.passes
  inputs : ∀ i ∈ q.indices, w.files.AbsentOrFile (Family.inputPath (nameOf q.family i) q.dir)
  unread : ∀ i ∈ q.indices, w.files.present (Family.inputPath (nameOf q.family i) q.dir) = false →
    (q.check i (q.world w)).2.input = w.input
  clock : w.clock.Shows (q.indices.length * q.passes.length)

/-- All tests pass what the mode asks for. The tools are started for one test after the other, so the
linker of the test at position `k` is the tool after `2 * k` others. -/
def Succeeds (w : World) : Prop :=
  (q.mode.checks = true → ∀ i ∈ q.indices, ∃ r, (q.check i (q.world w)).1 = .ok r) ∧
  (q.mode.builds = true → ∀ k (hk : k < q.indices.length),
    Batch.Passes q.passes none q.family q.dir (q.world w) (2 * k) q.indices[k])

/-- What the checks of tests that pass write to standard output. -/
def checkReports (w : World) (is : List Int) : String :=
  String.join (is.map (Check.reportOf q.compiler q.passes q.family q.dir (q.world w)))

/-- What builds of tests that pass write to standard output. -/
def buildReports (w : World) (is : List Int) : String :=
  String.join (is.map (Batch.reportOf q.compiler q.passes none q.family q.dir (q.world w)))

/-- What tests that pass write to standard output, first the checks and then the builds. -/
def reports (w : World) : String :=
  (if q.mode.checks then q.checkReports w q.indices else "") ++
    if q.mode.builds then q.buildReports w q.indices else ""

/-- The tests end with a failure, after this was written to standard output: a check fails, or all
checks that are asked for pass and then a build stops. The reports of all tests before stand in what
was written. -/
inductive Fails (w : World) : Failure → String → Prop
  | check {done rest : List Int} {i : Int} {e : Failure} : q.mode.checks = true →
    q.indices = done ++ i :: rest → (∀ j ∈ done, ∃ r, (q.check j (q.world w)).1 = .ok r) →
    (q.check i (q.world w)).1 = .error e →
    Fails w e (q.checkReports w done ++ (q.check i).wrote (q.world w))
  | build {done rest more : List Int} {i : Int} {e : Failure} {started : List ToolCall}
    {said : String} : q.mode.builds = true →
    (q.mode.checks = true → ∀ j ∈ q.indices, ∃ r, (q.check j (q.world w)).1 = .ok r) →
    q.indices = done ++ i :: rest →
    Batch.AllPass q.passes none q.family q.dir (q.world w) 0 done →
    Batch.Stops q.passes none q.family q.dir q.runtime (q.world w) (2 * done.length) i e more
      started said →
    Fails w e ((if q.mode.checks then q.checkReports w q.indices else "") ++
      (q.buildReports w done ++ said))

variable {q}

/-! ## From the command line to the tests -/

theorem AskedBy.applyTrace_apply (hq : q.AskedBy load args s) (w : World) :
    applyTrace s w = (.ok (), q.world w) := by
  unfold applyTrace world
  rw [hq.traced]
  cases q.traced <;> rfl

theorem AskedBy.writable (hq : q.AskedBy load args s) : ∀ i ∈ q.indices, Integer.Writable i :=
  writable_of_readIndices hq.indices

theorem AskedBy.chooseIndices_apply (hq : q.AskedBy load args s) (testsDir : Datum) (w : World) :
    chooseIndices q.family testsDir (s.items "indices") w =
      (.ok q.indices, w.saying (q.heading ++ "\n") "") := by
  have hlist : (Datum.list (q.indices.map .int)).Writable := by
    refine Datum.writable_seq.2 (List.forall_mem_map.2 fun i hi => ?_)
    exact Datum.writable_int (hq.writable i hi)
  obtain ⟨shown, hshown⟩ := Datum.literal?_of_writable hlist
  unfold chooseIndices
  rw [hq.explicit, if_neg Bool.false_ne_true, hq.indices, Job.bind_of_ok (Job.lift_apply _ w),
    Job.bind_of_ok (Job.written_apply hshown w), Job.bind_of_ok (Job.print_apply _ w), heading, hshown]
  rfl

/-- The checks, if the mode asks for them. -/
def checkPhase (q : Request) : Job Unit :=
  if q.mode.checks then do
    let _ ← Check.runFamily q.compiler q.passes q.family (.list (q.indices.map .int))
      { Check.Options.plain with testsDir := q.dir }
  else pure ()

/-- The builds, if the mode asks for them. -/
def buildPhase (q : Request) : Job Unit :=
  if q.mode.builds then do
    let _ ← Batch.runFamily q.compiler q.passes q.family (.list (q.indices.map .int))
      (Batch.native q.dir q.runtime none)
  else pure ()

theorem tests_eq (q : Request) : q.tests = q.checkPhase >>= fun _ => q.buildPhase := by
  have hnative : Batch.native q.dir q.runtime none =
      { Batch.Options.plain with testsDir := q.dir, runtime := .str q.runtime } := rfl
  unfold tests runTests checkPhase buildPhase
  rw [hnative]
  cases q.mode.checks <;> simp

/-- Without tests, or without a mode, there is nothing to run. -/
theorem AskedBy.runChosen_eq (hq : q.AskedBy load args s) (w : World) :
    runChosen q.passes s (.str q.dir) q.indices w = q.tests w := by
  have hname : s.compilerName = q.compiler := by rw [Settings.compilerName, hq.compiler]
  unfold runChosen
  rw [hq.mode]
  split
  · rename_i hnone
    rw [tests_eq]
    rcases Bool.or_eq_true_iff.1 hnone with hempty | hneither
    · have hempty : q.indices = [] := List.isEmpty_iff.1 hempty
      unfold checkPhase buildPhase
      rw [hempty]
      cases q.mode.checks <;> cases q.mode.builds <;> rfl
    · have hneither : q.mode = .neither := beq_iff_eq.1 hneither
      unfold checkPhase buildPhase
      rw [hneither]
      rfl
  · have hdir : Job.lift (directory (.str q.dir)) w = (.ok q.dir, w) := rfl
    rw [Job.bind_of_ok hdir, hname, hq.family, hq.runtime]
    rfl

/-- The command runs its tests and then tells that they passed. -/
theorem AskedBy.run_eq (hq : q.AskedBy load args s) (w : World) :
    run load args w = reporting (q.tests >>= fun _ => Job.print q.verdict >>= fun _ => pure .normal)
      ((q.world w).saying (q.heading ++ "\n") "") := by
  have hload : load.passes s.compiler = pure q.passes := by
    rw [hq.compiler]
    exact funext hq.loads
  have hchosen : runChosen q.passes s (.str q.dir) q.indices = q.tests := funext hq.runChosen_eq
  unfold run withSettings
  rw [hq.parses]
  dsimp only
  rw [Job.bind_of_ok (hq.applyTrace_apply w), hq.family, hq.dir,
    Job.bind_of_ok (hq.chooseIndices_apply _ _)]
  rw [hload, pure_bind, hchosen]
  rfl

/-! ## The two phases -/

theorem Harmless.input_eq (h : q.Harmless w) :
    ∀ i ∈ q.indices, (q.check i (q.world w)).2.input = (q.world w).input := by
  intro i hi
  rcases h.inputs i hi with habsent | ⟨content, hread⟩
  · exact h.unread i hi habsent
  · have hfile : (q.world w).HasFile (Family.inputPath (nameOf q.family i) q.dir) :=
      ⟨content, hread⟩
    unfold check
    exact Check.checkTest_input h.transforms h.interpreters hfile

theorem Harmless.clock_shows (h : q.Harmless w) (hne : q.indices ≠ []) :
    (q.world w).clock.Shows q.passes.length :=
  h.clock.of_length_mul hne

/-- The checks pass as far as they are asked for, or one of them fails. Only the clock has moved. -/
theorem Harmless.checkPhase_cases (h : q.Harmless w) (hindices : ∀ i ∈ q.indices, Integer.Writable i)
    {text : String}
    (hv : World.Since (q.indices.length * q.passes.length) text (q.world w) v) :
    ((q.mode.checks = true → ∀ i ∈ q.indices, ∃ r, (q.check i (q.world w)).1 = .ok r) ∧
      ∃ v', q.checkPhase v = (.ok (), v') ∧ World.Since 0
        (text ++ if q.mode.checks then q.checkReports w q.indices else "") (q.world w) v') ∨
    ∃ e said v', q.Fails w e said ∧ q.checkPhase v = (.error e, v') ∧
      World.Since 0 (text ++ said) (q.world w) v' := by
  unfold checkPhase
  cases hmode : q.mode.checks with
  | false =>
    refine .inl ⟨nofun, v, rfl, ?_⟩
    rw [if_neg Bool.false_ne_true, String.append_empty]
    obtain ⟨c, err, -, hv⟩ := hv
    exact ⟨c, err, trivial, hv⟩
  | true =>
    rw [if_pos rfl, if_pos rfl]
    rw [← Nat.zero_add (_ * _)] at hv
    have hfamily := Check.runFamily_eq_runAll q.compiler q.passes q.family hindices
      { Check.Options.plain with testsDir := q.dir } v
    have hin := h.input_eq
    unfold check at hin
    rcases Check.runAll_cases [] h.transforms h.interpreters hin h.clock_shows hv with
      ⟨hall, found, v', hrun, hv'⟩ | ⟨done, i, rest, e, v', hsplit, hdone, he, hrun, hv'⟩
    · exact .inl ⟨fun _ => hall, v', Job.bind_of_ok (hfamily.trans hrun), hv'⟩
    · exact .inr ⟨e, _, v', .check hmode hsplit hdone he, Job.bind_of_error (hfamily.trans hrun), hv'⟩

/-- A world in which only the clock has moved is one where a batch of builds can start. -/
theorem reached_of_since {text : String} (hv : World.Since 0 text (q.world w) v) :
    Batch.Reached q.passes none q.family q.dir (q.world w) [] [] text v := by
  obtain ⟨c, err, -, rfl⟩ := hv
  exact ⟨⟨rfl, .refl _ _⟩, nofun, nofun, rfl, (List.append_nil _).symm, rfl⟩

/-- After the checks, the builds pass as far as they are asked for, or one of them stops. -/
theorem Harmless.buildPhase_cases (h : q.Harmless w) (hindices : ∀ i ∈ q.indices, Integer.Writable i)
    (hchecks : q.mode.checks = true → ∀ i ∈ q.indices, ∃ r, (q.check i (q.world w)).1 = .ok r)
    {text : String} (hv : World.Since 0
      (text ++ if q.mode.checks then q.checkReports w q.indices else "") (q.world w) v) :
    ((q.mode.builds = true → Batch.AllPass q.passes none q.family q.dir (q.world w) 0 q.indices) ∧
      ∃ v', q.buildPhase v = (.ok (), v') ∧ v'.out = w.out ++ (text ++ q.reports w)) ∨
    ∃ e said v', q.Fails w e said ∧ q.buildPhase v = (.error e, v') ∧
      v'.out = w.out ++ (text ++ said) := by
  have hreached := reached_of_since hv
  unfold buildPhase reports
  cases hmode : q.mode.builds with
  | false =>
    refine .inl ⟨nofun, v, rfl, ?_⟩
    rw [if_neg Bool.false_ne_true, String.append_empty, hreached.out]
    rfl
  | true =>
    have hin : ∀ i ∈ q.indices, (q.world w).files.AbsentOrFile
        (Family.inputPath (nameOf q.family i) q.dir) := h.inputs
    have hfamily := Batch.runFamily_eq_runAll q.compiler q.passes q.family hindices
      (Batch.native q.dir q.runtime none) v
    rw [if_pos rfl, if_pos rfl]
    rcases hreached.runAll_cases q.compiler q.runtime h.transforms hin with
      ⟨hall, v', hrun, h'⟩ | ⟨done, i, rest, e, more, started, said, v', hsplit, hdone, hstop, hrun, h'⟩
    · refine .inl ⟨fun _ => hall, v', Job.bind_of_ok (hfamily.trans hrun), ?_⟩
      rw [h'.out, String.append_assoc]
      rfl
    · rw [List.length_nil, Nat.zero_add] at hstop
      refine .inr ⟨e, _, v', .build hmode hchecks hsplit hdone hstop,
        Job.bind_of_error (hfamily.trans hrun), ?_⟩
      rw [h'.out, String.append_assoc]
      rfl

/-! ## The whole command -/

theorem Fails.not_succeeds {e : Failure} {text : String} (h : q.Fails w e text) : ¬ q.Succeeds w := by
  rintro ⟨hchecks, hbuilds⟩
  cases h with
  | @check done rest i _ hmode hsplit _ he =>
    obtain ⟨r, hr⟩ := hchecks hmode i (by simp [hsplit])
    rw [he] at hr
    cases hr
  | @build done rest more i _ started said hmode _ hsplit _ hstop =>
    -- the test that stopped stands right behind those that passed
    have hlt : done.length < q.indices.length := by simp [hsplit]
    have hpasses := hbuilds hmode done.length hlt
    simp only [hsplit, List.getElem_append_right (Nat.le_refl _), Nat.sub_self,
      List.getElem_cons_zero] at hpasses
    exact hstop.not_passes hpasses

/-- All tests pass and their reports are written, or they end in one of the ways of `Fails`. If a
check fails nothing was built. -/
theorem Harmless.tests_cases (h : q.Harmless w) (hindices : ∀ i ∈ q.indices, Integer.Writable i)
    {text : String}
    (hv : World.Since (q.indices.length * q.passes.length) text (q.world w) v) :
    (q.Succeeds w ∧ ∃ v', q.tests v = (.ok (), v') ∧ v'.out = w.out ++ (text ++ q.reports w)) ∨
    ∃ e said v', q.Fails w e said ∧ q.tests v = (.error e, v') ∧ v'.out = w.out ++ (text ++ said) ∧
      (q.mode.checks = true → (∃ i ∈ q.indices, ∀ d, (q.check i (q.world w)).1 ≠ .ok d) →
        v'.files = w.files ∧ v'.toolCalls = w.toolCalls) := by
  rw [tests_eq]
  rcases h.checkPhase_cases hindices hv with
    ⟨hchecks, v₁, hrun, hv₁⟩ | ⟨e, said, v₁, hfails, hrun, hv₁⟩
  · rw [Job.bind_of_ok hrun]
    rcases h.buildPhase_cases hindices hchecks hv₁ with
      ⟨hbuilds, v₂, hrun₂, hout⟩ | ⟨e, said, v₂, hfails, hrun₂, hout⟩
    · refine .inl ⟨⟨hchecks, fun hmode k hk => ?_⟩, v₂, hrun₂, hout⟩
      have hpasses := Batch.allPass_iff.1 (hbuilds hmode) k hk
      rwa [Nat.zero_add] at hpasses
    · refine .inr ⟨e, said, v₂, hfails, hrun₂, hout, ?_⟩
      -- a build was begun, so no check had failed
      rintro hmode ⟨j, hj, hno⟩
      obtain ⟨r, hr⟩ := hchecks hmode j hj
      exact absurd hr (hno r)
  · obtain ⟨c, err, -, rfl⟩ := hv₁
    exact .inr ⟨e, said, _, hfails, Job.bind_of_error hrun, rfl, fun _ _ => ⟨rfl, rfl⟩⟩

theorem append_verdict_ne (q : Request) (out : String) : out ++ (q.verdict ++ "\n") ≠ out := by
  intro h
  have hlength := congrArg String.length h
  simp only [String.length_append] at hlength
  have hnewline : "\n".length = 1 := rfl
  omega

end Request

/-- The command that runs tests, from end to end. It ends normally exactly if every check that the mode
asks for finds a result and every test that it asks to build is compiled, linked with code 0 and run
with code 42. Then, and only then, it writes the line that all tests passed, after the reports of all
of them; otherwise it leaves the world as the tests did. If the check of any test fails, no file was
written and no tool was started. Any failure ends the command after what was written before it; a
report that can be worded ends it with its message. -/
theorem run_tells_verdict {q : Request} {load : Loader} {args : List String} {s : Settings}
    {w : World} (hq : q.AskedBy load args s) (h : q.Harmless w) :
    ∃ r v, run load args w = (r, v) ∧
      let tested := q.tests ((q.world w).saying (q.heading ++ "\n") "")
      (r = .ok .normal ↔ q.Succeeds w) ∧
      (v.out = tested.2.out ++ (q.verdict ++ "\n") ↔ q.Succeeds w) ∧
      (q.Succeeds w → v = tested.2.saying (q.verdict ++ "\n") "" ∧
        tested.2.out = w.out ++ (q.heading ++ "\n" ++ q.reports w)) ∧
      (q.mode.checks = true → (∃ i ∈ q.indices, ∀ d, (q.check i (q.world w)).1 ≠ .ok d) →
        v.files = w.files ∧ v.toolCalls = w.toolCalls) ∧
      (¬ q.Succeeds w → ∃ e said, q.Fails w e said ∧ tested = (.error e, v) ∧ r = ended e ∧
        v.out = w.out ++ (q.heading ++ "\n" ++ said)) := by
  have hstart : World.Since (q.indices.length * q.passes.length) (q.heading ++ "\n") (q.world w)
      ((q.world w).saying (q.heading ++ "\n") "") := ⟨w.clock, "", h.clock, rfl⟩
  rw [hq.run_eq]
  rcases h.tests_cases hq.writable hstart with ⟨hsucceeds, v, htests, hout⟩ |
    ⟨e, said, v, hfails, htests, hout, hfiles⟩
  · refine ⟨.ok .normal, v.saying (q.verdict ++ "\n") "", ?_, ?_⟩
    · refine reporting_of_ok ?_
      rw [Job.bind_of_ok htests, Job.bind_of_ok (Job.print_apply _ v)]
      rfl
    · rw [htests]
      refine ⟨by simp [hsucceeds], by simp [hsucceeds], fun _ => ⟨rfl, hout⟩, ?_,
        fun hnot => absurd hsucceeds hnot⟩
      rintro hmode ⟨i, hi, hfails⟩
      obtain ⟨r, hr⟩ := hsucceeds.1 hmode i hi
      exact absurd hr (hfails r)
  · have hnot := hfails.not_succeeds
    refine ⟨ended e, v, reporting_of_error (Job.bind_of_error htests), ?_⟩
    rw [htests]
    refine ⟨?_, ?_, fun hs => absurd hs hnot, hfiles, fun _ => ⟨e, said, hfails, rfl, rfl, hout⟩⟩
    · exact ⟨fun hnormal => absurd hnormal (ended_ne_normal e), fun hs => absurd hs hnot⟩
    · exact ⟨fun hprinted => absurd hprinted.symm (q.append_verdict_ne v.out), fun hs => absurd hs hnot⟩

/-- Two tests, one with an input file, and tools that let both pass. -/
def twoTests : World :=
  { World.start ⟨[(["t"], .dir), (["t", "f_2.rkt"], .file "(- 50 8)".toUTF8),
      (["t", "f_2.in"], .file "7\n".toUTF8),
      (["t", "f_3.rkt"], .file "#lang racket\n[+ 1 41]".toUTF8)]⟩ with
    tools := [.exits (.int 0), .exits (.int 42), .exits (.int 0), .exits (.int 42)] }

def twoTestsArgs : List String := ["f", "2", "3", "--compiler", "lint:Compiler", "--tests-dir", "t"]

def twoTestsRequest : Request where
  compiler := "lint:Compiler"
  passes := Lint.routines
  mode := .both
  family := "f"
  dir := "t"
  runtime := "runtime.o"
  indices := [2, 3]
  traced := false

theorem run_tells_verdict_two_tests :
    twoTestsRequest.AskedBy Lint.load twoTestsArgs
      [("--tests-dir", .str "t"), ("--compiler", .str "lint:Compiler"),
        ("indices", .list [.str "2", .str "3"]), ("family", .str "f")] ∧
    twoTestsRequest.Harmless twoTests ∧
    ∃ v, run Lint.load twoTestsArgs twoTests = (.ok .normal, v) ∧
      v.out = "*** RUN f TESTS [2, 3]! ***\nlint:Compiler passed interp test f_2\n" ++
        "lint:Compiler passed interp test f_3\nlint:Compiler passed compiler test f_2\n" ++
        "lint:Compiler passed compiler test f_3\n*** 2 f TESTS PASSED! ***\n" := by
  have hq : twoTestsRequest.AskedBy Lint.load twoTestsArgs
      [("--tests-dir", .str "t"), ("--compiler", .str "lint:Compiler"),
        ("indices", .list [.str "2", .str "3"]), ("family", .str "f")] :=
    ⟨rfl, rfl, fun _ => rfl, rfl, rfl, rfl, rfl, rfl, rfl, rfl⟩
  have h : twoTestsRequest.Harmless twoTests :=
    { transforms := Lint.pure_routines
      interpreters := by
        intro p hp i hi d
        simp only [twoTestsRequest, Lint.routines, Lint.passes, List.map_cons, List.map_nil,
          List.mem_cons, List.not_mem_nil, or_false] at hp
        rcases hp with rfl | rfl | rfl
        · cases hi; exact Lint.onInput_interpret d
        · cases hi; exact Lint.onInput_interpret d
        · cases hi
      inputs := by
        refine List.forall_mem_cons.2 ⟨.inr ⟨"7\n".toUTF8, rfl⟩, ?_⟩
        exact List.forall_mem_singleton.2 (.inl (by decide +kernel))
      unread := by decide +kernel
      clock := by refine ⟨?_, ?_, ?_, ?_, ?_, ?_, trivial⟩ <;> decide +kernel }
  have hchecks : ∀ i ∈ [2, 3], ∃ r,
      (twoTestsRequest.check i (twoTestsRequest.world twoTests)).1 = .ok r := by
    have hok : ∀ i ∈ ([2, 3] : List Int),
        (twoTestsRequest.check i (twoTestsRequest.world twoTests)).1.isOk = true := by
      decide +kernel
    exact fun i hi => exists_of_isOk (hok i hi)
  have hcompiles : ∀ i ∈ [2, 3], Batch.Compilable Lint.routines none "f" "t" twoTests i := by
    have hok : ∀ i ∈ ([2, 3] : List Int), (Build.compileFile Lint.routines
        (Family.sourcePath (nameOf "f" i) "t") Check.readProgram none twoTests).1.isOk = true := by
      decide +kernel
    exact fun i hi => exists_of_isOk (hok i hi)
  have hbuilds : Batch.AllPass Lint.routines none "f" "t" twoTests 0 [2, 3] :=
    ⟨⟨hcompiles 2 (by simp), rfl, rfl⟩, ⟨hcompiles 3 (by simp), rfl, rfl⟩, trivial⟩
  have hsucceeds : twoTestsRequest.Succeeds twoTests := by
    refine ⟨fun _ => hchecks, fun _ k hk => ?_⟩
    rw [← Nat.zero_add (2 * k)]
    exact Batch.allPass_iff.1 hbuilds k hk
  obtain ⟨r, v, hrun, hverdict, hprinted, hout, -, -⟩ := run_tells_verdict hq h
  obtain rfl := hverdict.2 hsucceeds
  refine ⟨hq, h, v, hrun, ?_⟩
  rw [hprinted.2 hsucceeds, (hout hsucceeds).2]
  decide +kernel

/-! ## Reports without a message -/

/-- A test whose result is an integer of too many digits, until the second pass changes it. -/
def unwritableRequest : Request where
  compiler := "m:C"
  passes := [⟨"a", Recipe.identity.routine, some (Recipe.const (.int (10 ^ 4300))).routine⟩,
    ⟨"b", Recipe.identity.routine, some (Recipe.const (.int 5)).routine⟩]
  mode := .interp
  family := "f"
  dir := "tests"
  runtime := "runtime.o"
  indices := [1]
  traced := false

def unwritableWorld : World :=
  .start ⟨[(["tests"], .dir), (["tests", "f_1.rkt"], .file "0".toUTF8)]⟩

def unwritableLoad : Loader := fun _ => pure unwritableRequest.passes

def unwritableArgs : List String := ["f", "1", "--mode", "interp", "--compiler", "m:C"]

/-- A report that cannot be worded does not end the command with a message. -/
theorem unwritable_report_ends_without_message :
    (∃ s, unwritableRequest.AskedBy unwritableLoad unwritableArgs s) ∧
    unwritableRequest.Harmless unwritableWorld ∧
    (∃ report, (unwritableRequest.tests unwritableWorld).1 = .error (.report report)) ∧
    ∀ text, (run unwritableLoad unwritableArgs unwritableWorld).1 ≠ .ok (.message text) := by
  refine ⟨⟨[("--compiler", .str "m:C"), ("--mode", .str "interp"), ("indices", .list [.str "1"]),
      ("family", .str "f")], rfl, rfl, fun _ => rfl, rfl, rfl, rfl, rfl, rfl, rfl, rfl⟩, ?_, ?_, ?_⟩
  · refine ⟨?_, ?_, ?_, by decide +kernel, ?_⟩
    · simp only [PurePasses, unwritableRequest, List.forall_mem_cons]
      exact ⟨fun d => Job.computes_lift (.ok d), fun d => Job.computes_lift (.ok d), nofun⟩
    · simp only [Check.ReadingInterpreters, unwritableRequest, List.forall_mem_cons]
      refine ⟨?_, ?_, nofun⟩ <;> rintro _ ⟨⟩ d <;> exact Job.onInput_pure _
    · exact List.forall_mem_singleton.2 (.inl (by decide +kernel))
    · refine ⟨?_, ?_, trivial⟩ <;> decide +kernel
  · have hreport : (reported? (unwritableRequest.tests unwritableWorld).1).isSome = true := by
      decide +kernel
    exact exists_of_reported? hreport
  · have hnone : (run unwritableLoad unwritableArgs unwritableWorld).1.toOption = none := by
      decide +kernel
    intro text htext
    rw [htext] at hnone
    cases hnone

end Command.Tests

end PassCheck
