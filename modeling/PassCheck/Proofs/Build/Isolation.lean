/-
Tests on the simulated machine are isolated from each other. A test ends in the same way after any
other tests of its family as it ends alone, so a batch ends like its first test that fails, and once
more in the same way if it is run again. Source and input files are never touched; what is written
are the assembly files of the tests that were compiled, and these are all different.

The worlds that a batch passes through are those of `Reached`, and compiling a test does the same in
all of them (`Reached.compileTest_fst`).
-/
import PassCheck.Proofs.Build.Native

namespace PassCheck

/-! ## The machine -/

namespace Machine

theorem link_apply (assembly : String) (runtime : Datum) (w : World) :
    link assembly runtime w =
      match w.files.read assembly >>= textOf with
      | .ok program => (.ok (assembly ++ ".out"), { w with loaded := program })
      | .error e => (.error e, w) := by
  have hread := Job.readText_apply assembly w
  rw [link]
  cases h : w.files.read assembly >>= textOf with
  | ok program => rw [h] at hread; rw [Job.bind_of_ok hread]; rfl
  | error e => rw [h] at hread; rw [Job.bind_of_error hread]

theorem run_apply (executable inputPath : String) (w : World) :
    run executable inputPath w = ((exitCode w.loaded).map .int,
      { w with backendCalls := w.backendCalls ++ [.run executable inputPath] }) := by
  have hnote : Job.noteCall (.run executable inputPath) w = (.ok (),
      { w with backendCalls := w.backendCalls ++ [.run executable inputPath] }) := rfl
  rw [run, Job.bind_of_ok hnote, Job.bind_of_ok (Job.get_apply _)]
  cases exitCode w.loaded <;> rfl

/-- A program that cannot be run is not the fault of the system. -/
theorem isSystem_of_exitCode {program : List Char} {e : Failure} (h : exitCode program = .error e) :
    e.isSystem = false := by
  unfold exitCode at h
  split at h
  · cases h; rfl
  · split at h <;> cases h; rfl

end Machine

namespace Batch

open Family (nameOf filePath)
open Build (PurePasses)

variable {compiler : String} {passes : List (Pass Routine)} {tracer : Option Tracer}
  {family dir : String} {runtime : Datum} {i : Int} {w v v' : World} {compiled : List Int}
  {text : String}

/-- How a test ends on the machine, by the content of its assembly file. -/
def verdict (t : String) (content : Except Failure ByteArray) : Except Failure Unit :=
  match content >>= textOf >>= Machine.exitCode with
  | .error e => .error e
  | .ok code =>
    if code = successCode then .ok () else .error (.report (.exitCode (.str t) (.int code)))

/-- What is done with a test once it is compiled. -/
def judge (compiler dir : String) (runtime : Datum) (tracer : Option Tracer) (t assembly : String) :
    Job Unit := do
  let executable ← Machine.link assembly runtime
  let code ← runTest (onMachine dir runtime tracer) t executable
  if code.same (.int successCode) then Job.print (passedLine compiler t)
  else throw (.report (.exitCode (.str t) code))

theorem runTest_onMachine (dir : String) (runtime : Datum) (tracer : Option Tracer)
    (t executable : String) (w : World) :
    runTest (onMachine dir runtime tracer) t executable w = ((Machine.exitCode w.loaded).map .int,
      { w with backendCalls :=
          w.backendCalls ++ [.run executable (Family.inputPath t dir)] }) := by
  have hrun := Machine.run_apply executable (Family.inputPath t dir) w
  cases hcode : Machine.exitCode w.loaded with
  | ok code =>
    rw [hcode] at hrun
    exact runTest_of_ok (o := onMachine dir runtime tracer) hrun
  | error e =>
    rw [hcode] at hrun
    rw [runTest_of_error (o := onMachine dir runtime tracer) hrun,
      Machine.isSystem_of_exitCode hcode]
    rfl

/-- The verdict depends on the assembly file alone, and no file is changed. -/
theorem judge_apply (compiler dir : String) (runtime : Datum) (tracer : Option Tracer)
    (t assembly : String) (w : World) :
    ∃ loaded calls said, judge compiler dir runtime tracer t assembly w =
      (verdict t (w.files.read assembly),
        { w with loaded := loaded, backendCalls := calls, out := w.out ++ said }) := by
  have hlink := Machine.link_apply assembly runtime w
  let calls := w.backendCalls ++ [.run (assembly ++ ".out") (Family.inputPath t dir)]
  unfold verdict judge
  cases hprogram : w.files.read assembly >>= textOf with
  | error e =>
    rw [hprogram] at hlink
    refine ⟨w.loaded, w.backendCalls, "", ?_⟩
    rw [Job.bind_of_error hlink, String.append_empty]
    rfl
  | ok program =>
    rw [hprogram] at hlink
    rw [Job.bind_of_ok hlink]
    have hrun := runTest_onMachine dir runtime tracer t (assembly ++ ".out")
      { w with loaded := program }
    have hexit : Except.ok program >>= Machine.exitCode = Machine.exitCode program := rfl
    rw [hexit]
    cases hcode : Machine.exitCode program with
    | error e =>
      simp only [hcode] at hrun
      refine ⟨program, calls, "", ?_⟩
      rw [Job.bind_of_error hrun, String.append_empty]
    | ok code =>
      simp only [hcode] at hrun
      rw [Job.bind_of_ok hrun]
      by_cases h42 : code = successCode
      · refine ⟨program, calls, passedLine compiler t ++ "\n", ?_⟩
        simp only [if_pos (Datum.same_int.2 h42), if_pos h42]
        rw [Job.print_apply, World.saying, String.append_empty]
      · refine ⟨program, calls, "", ?_⟩
        simp only [if_neg fun hs => h42 (Datum.same_int.1 hs), if_neg h42]
        rw [String.append_empty]
        rfl

/-! ## One test after others -/

variable {calls : List ToolCall}

/-- Text was written and the machine was used. -/
theorem Reached.judged (h : Reached passes tracer family dir w compiled calls text v)
    (loaded : List Char) (log : List BackendCall) (said : String) :
    Reached passes tracer family dir w compiled calls (text ++ said)
      { v with loaded := loaded, backendCalls := log, out := v.out ++ said } := by
  refine ⟨⟨h.beside.tracer, h.beside.files⟩, h.compilable, h.written, h.tools, h.calls, ?_⟩
  show v.out ++ said = _
  rw [h.out, String.append_assoc]

variable (compiler runtime)

theorem test_eq_judge (passes : List (Pass Routine)) (tracer : Option Tracer) (family dir : String)
    (i : Int) : test compiler passes (onMachine dir runtime tracer) (nameOf family i) =
      (compileTest passes tracer family dir i >>=
        judge compiler dir runtime tracer (nameOf family i)) := rfl

instance : Decidable (Compilable passes tracer family dir w i) :=
  decidable_of_iff ((compileTest passes tracer family dir i w).1.isOk = true)
    ⟨exists_of_isOk, fun ⟨_, hs⟩ => by rw [compileTest, hs]; rfl⟩

theorem compilable_of_passes (h : (test compiler passes (onMachine dir runtime tracer)
    (nameOf family i) w).1 = .ok ()) : Compilable passes tracer family dir w i := by
  rw [test_eq_judge] at h
  rcases hcompile : compileTest passes tracer family dir i w with ⟨e | s, w₁⟩
  · rw [Job.bind_of_error hcompile] at h; cases h
  · exact ⟨s, congrArg Prod.fst hcompile⟩

/-- A test ends after others as it ends alone, and it leaves its assembly file behind if it was
compiled. -/
theorem Reached.test_onMachine (h : Reached passes tracer family dir w compiled calls text v)
    (hpure : PurePasses passes) (i : Int) :
    ∃ said v', test compiler passes (onMachine dir runtime tracer) (nameOf family i) v =
        ((test compiler passes (onMachine dir runtime tracer) (nameOf family i) w).1, v') ∧
      Reached passes tracer family dir w
        (compiled ++ [i].filter (Compilable passes tracer family dir w ·)) calls
        (text ++ said) v' := by
  rw [test_eq_judge]
  rcases compilable_or_error passes tracer family dir w i with hc | ⟨e, he⟩
  · obtain ⟨v₁, hv₁, h₁⟩ := h.compiles hpure hc
    obtain ⟨w₁, hw₁, h₁'⟩ := (reached_start w).compiles hpure hc
    have hcontent : v₁.files.read (assemblyOf family dir i) =
        w₁.files.read (assemblyOf family dir i) :=
      (h₁.written i (by simp)).trans (h₁'.written i (by simp)).symm
    obtain ⟨loaded, log, said, hv⟩ := judge_apply compiler dir runtime tracer (nameOf family i)
      (assemblyOf family dir i) v₁
    obtain ⟨_, _, _, hw⟩ := judge_apply compiler dir runtime tracer (nameOf family i)
      (assemblyOf family dir i) w₁
    rw [Job.bind_of_ok hv₁, Job.bind_of_ok hw₁, hv, hw, hcontent,
      List.filter_cons_of_pos (by simpa using hc)]
    refine ⟨(compileTest passes tracer family dir i).wrote w ++ said,
      { v₁ with loaded := loaded, backendCalls := log, out := v₁.out ++ said }, by dsimp only, ?_⟩
    rw [← String.append_assoc]
    exact h₁.judged loaded log said
  · obtain ⟨v₁, hv₁, h₁⟩ := h.compile_fails hpure he
    have hc : ¬ Compilable passes tracer family dir w i := fun ⟨s, hs⟩ => nomatch hs.symm.trans he
    have hw₁ : compileTest passes tracer family dir i w = (.error e, _) := Prod.ext he rfl
    rw [Job.bind_of_error hv₁, Job.bind_of_error hw₁, List.filter_cons_of_neg (by simpa using hc)]
    exact ⟨_, v₁, rfl, by rwa [List.filter_nil, List.append_nil]⟩

/-! ## A batch -/

/-- After any tests of a family, further ones end in the same way. -/
theorem Reached.runAll_fst {compiled' : List Int} {text' : String} {calls' : List ToolCall}
    (hpure : PurePasses passes) (todo : List Int)
    (h : Reached passes tracer family dir w compiled calls text v)
    (h' : Reached passes tracer family dir w compiled' calls' text' v') :
    (runAll compiler passes (onMachine dir runtime tracer) (todo.map (nameOf family)) v).1 =
      (runAll compiler passes (onMachine dir runtime tracer) (todo.map (nameOf family)) v').1 := by
  induction todo generalizing compiled text v compiled' text' v' with
  | nil => rfl
  | cons i todo ih =>
    obtain ⟨_, v₁, hv, h₁⟩ := h.test_onMachine compiler runtime hpure i
    obtain ⟨_, v₁', hv', h₁'⟩ := h'.test_onMachine compiler runtime hpure i
    rw [List.map_cons, runAll]
    cases hi : (test compiler passes (onMachine dir runtime tracer) (nameOf family i) w).1 with
    | error e =>
      rw [hi] at hv hv'
      rw [Job.bind_of_error hv, Job.bind_of_error hv']
    | ok _ =>
      rw [hi] at hv hv'
      rw [Job.bind_of_ok hv, Job.bind_of_ok hv']
      exact Job.bind_fst_congr (ih h₁ h₁') fun _ _ _ => rfl

/-- A batch passes as a whole, or its first test that fails ends it; each test does so as it does
alone. -/
theorem Reached.runAll_onMachine (hpure : PurePasses passes) (todo : List Int)
    (h : Reached passes tracer family dir w compiled calls text v) :
    ((∀ i ∈ todo, (test compiler passes (onMachine dir runtime tracer) (nameOf family i) w).1 =
        .ok ()) ∧
      ∃ said v',
        runAll compiler passes (onMachine dir runtime tracer) (todo.map (nameOf family)) v =
          (.ok (todo.map (nameOf family)), v') ∧
        Reached passes tracer family dir w (compiled ++ todo) calls (text ++ said) v') ∨
    ∃ done i rest e said v', todo = done ++ i :: rest ∧
      (∀ j ∈ done, (test compiler passes (onMachine dir runtime tracer) (nameOf family j) w).1 =
        .ok ()) ∧
      (test compiler passes (onMachine dir runtime tracer) (nameOf family i) w).1 = .error e ∧
      runAll compiler passes (onMachine dir runtime tracer) (todo.map (nameOf family)) v =
        (.error e, v') ∧
      Reached passes tracer family dir w
        (compiled ++ (done ++ [i]).filter (Compilable passes tracer family dir w ·)) calls
        (text ++ said) v' := by
  induction todo generalizing compiled text v with
  | nil => exact .inl ⟨nofun, "", v, rfl, by rwa [List.append_nil, String.append_empty]⟩
  | cons i todo ih =>
    obtain ⟨said, v₁, hv, h₁⟩ := h.test_onMachine compiler runtime hpure i
    cases hi : (test compiler passes (onMachine dir runtime tracer) (nameOf family i) w).1 with
    | error e =>
      rw [hi] at hv
      refine .inr ⟨[], i, todo, e, said, v₁, rfl, nofun, hi, ?_, h₁⟩
      rw [List.map_cons, runAll, Job.bind_of_error hv]
    | ok _ =>
      rw [hi] at hv
      have hc := compilable_of_passes compiler runtime hi
      rw [List.filter_cons_of_pos (by simpa using hc), List.filter_nil] at h₁
      rcases ih h₁ with ⟨hall, more, v₂, hrun, h₂⟩ |
        ⟨done, j, rest, e, more, v₂, rfl, hdone, hj, hrun, h₂⟩
      · refine .inl ⟨List.forall_mem_cons.2 ⟨hi, hall⟩, said ++ more, v₂, ?_, ?_⟩
        · rw [List.map_cons, runAll, Job.bind_of_ok hv, Job.bind_of_ok hrun]; rfl
        · simpa only [List.append_assoc, String.append_assoc, List.singleton_append] using h₂
      · refine .inr ⟨i :: done, j, rest, e, said ++ more, v₂, rfl,
          List.forall_mem_cons.2 ⟨hi, hdone⟩, hj, ?_, ?_⟩
        · rw [List.map_cons, runAll, Job.bind_of_ok hv, Job.bind_of_error hrun]
        · rw [List.cons_append, List.filter_cons_of_pos (by simpa using hc)]
          simpa only [List.append_assoc, String.append_assoc, List.singleton_append] using h₂

/-- Native tests of integer indices on the simulated machine. -/
def onMachineAll (compiler : String) (passes : List (Pass Routine)) (tracer : Option Tracer)
    (family dir : String) (runtime : Datum) (indices : List Int) : Job (List String) :=
  runFamily compiler passes family (.list (indices.map .int)) (onMachine dir runtime tracer)

/-- The path of the output file of a test. -/
def outputOf (family dir : String) (i : Int) : String := Path.join dir (nameOf family i ++ ".s")

/-- No place was changed but those of the output files of some tests. -/
def OutputsOnly (family dir : String) (is : List Int) (w v : World) : Prop :=
  ∀ p, (∀ i ∈ is, w.files.locate (outputOf family dir i) ≠ .ok p) →
    v.files.node? p = w.files.node? p

theorem Reached.outputsOnly (h : Reached passes tracer family dir w compiled calls text v) :
    OutputsOnly family dir compiled w v := by
  intro p hp
  refine h.beside.files.same p ?_
  rintro ⟨j, hj, hplace⟩
  rw [← Family.join_nameOf] at hplace
  exact hp j hj hplace

/-- Tests of different indices have different output files, by their paths and by the places these
lead to. -/
theorem outputOf_ne {j : Int} (hne : i ≠ j) : outputOf family dir i ≠ outputOf family dir j ∧
    ∀ fs p q, Files.locate fs (outputOf family dir i) = .ok p →
      Files.locate fs (outputOf family dir j) = .ok q → p ≠ q := by
  have htail : Family.fileTail i ".s" ≠ Family.fileTail j ".s" := fun h =>
    hne (Integer.decimal_injective (String.toList_inj.1 (List.append_cancel_right h)))
  rw [outputOf, outputOf, Family.join_nameOf, Family.join_nameOf]
  refine ⟨fun h => htail ?_, fun fs p q => Family.place_ne Family.isTail_s Family.isTail_s htail⟩
  exact List.append_cancel_left (String.ofList_inj.1 h)

/-- An index that cannot be written has no name, so no test is started. -/
theorem onMachineAll_of_not_writable {indices : List Int} (h : ¬ ∀ i ∈ indices, Integer.Writable i)
    (w : World) : onMachineAll compiler passes tracer family dir runtime indices w =
      (.error .longInteger, w) := by
  rw [onMachineAll, runFamily, Family.expand_ints_of_not_writable family h]
  exact Job.bind_of_error rfl

theorem onMachineAll_singleton (hi : Integer.Writable i) (w : World) :
    (onMachineAll compiler passes tracer family dir runtime [i] w).1 =
      (test compiler passes (onMachine dir runtime tracer) (nameOf family i) w).1.map
        fun _ => [nameOf family i] := by
  rw [onMachineAll, runFamily_eq_runAll _ _ _ (List.forall_mem_singleton.2 hi)]
  show (runAll compiler passes _ [nameOf family i] w).1 = _
  rw [runAll]
  rcases htest : test compiler passes (onMachine dir runtime tracer) (nameOf family i) w with
    ⟨e | u, w₁⟩
  · rw [Job.bind_of_error htest]; rfl
  · rw [Job.bind_of_ok htest]; rfl

theorem Reached.onMachineAll_fst {compiled' : List Int} {text' : String} {calls' : List ToolCall}
    (hpure : PurePasses passes) (indices : List Int)
    (h : Reached passes tracer family dir w compiled calls text v)
    (h' : Reached passes tracer family dir w compiled' calls' text' v') :
    (onMachineAll compiler passes tracer family dir runtime indices v).1 =
      (onMachineAll compiler passes tracer family dir runtime indices v').1 := by
  by_cases hwritable : ∀ i ∈ indices, Integer.Writable i
  · rw [onMachineAll, runFamily_eq_runAll _ _ _ hwritable, runFamily_eq_runAll _ _ _ hwritable]
    exact h.runAll_fst compiler runtime hpure indices h'
  · rw [onMachineAll_of_not_writable compiler runtime hwritable,
      onMachineAll_of_not_writable compiler runtime hwritable]

/-- How a batch ends: all its tests pass, or a first one fails, or an index cannot be written. A
test passes or fails alone as it does in the batch. -/
theorem onMachineAll_cases (hpure : PurePasses passes) (tracer : Option Tracer)
    (family dir : String) (indices : List Int) (w : World) :
    ((∀ i ∈ indices, (onMachineAll compiler passes tracer family dir runtime [i] w).1 =
        .ok [nameOf family i]) ∧
      ∃ said v, onMachineAll compiler passes tracer family dir runtime indices w =
          (.ok (indices.map (nameOf family)), v) ∧
        Reached passes tracer family dir w indices [] said v) ∨
    (∃ done i rest e said v, indices = done ++ i :: rest ∧
      (∀ j ∈ done, (onMachineAll compiler passes tracer family dir runtime [j] w).1 =
        .ok [nameOf family j]) ∧
      (onMachineAll compiler passes tracer family dir runtime [i] w).1 = .error e ∧
      onMachineAll compiler passes tracer family dir runtime indices w = (.error e, v) ∧
      Reached passes tracer family dir w
        ((done ++ [i]).filter (Compilable passes tracer family dir w ·)) [] said v) ∨
    (¬ ∀ i ∈ indices, Integer.Writable i) ∧
      onMachineAll compiler passes tracer family dir runtime indices w =
        (.error .longInteger, w) := by
  by_cases hwritable : ∀ i ∈ indices, Integer.Writable i
  · have halone : ∀ i ∈ indices, ∀ r,
        (test compiler passes (onMachine dir runtime tracer) (nameOf family i) w).1 = r →
        (onMachineAll compiler passes tracer family dir runtime [i] w).1 =
          r.map fun _ => [nameOf family i] := by
      rintro i hi _ rfl
      exact onMachineAll_singleton compiler runtime (hwritable i hi) w
    have hbatch : onMachineAll compiler passes tracer family dir runtime indices w =
        runAll compiler passes (onMachine dir runtime tracer) (indices.map (nameOf family)) w :=
      runFamily_eq_runAll _ _ _ hwritable _ _
    rw [hbatch]
    rcases (reached_start w).runAll_onMachine compiler runtime hpure indices with
      ⟨hall, said, v, hrun, h⟩ | ⟨done, i, rest, e, said, v, rfl, hdone, hi, hrun, h⟩
    · exact .inl ⟨fun i hi => halone i hi _ (hall i hi), _, v, hrun, h⟩
    · refine .inr (.inl ⟨done, i, rest, e, _, v, rfl, fun j hj => ?_, ?_, hrun, h⟩)
      · exact halone j (by simp [hj]) _ (hdone j hj)
      · exact halone i (by simp) _ hi
  · exact .inr (.inr ⟨hwritable, onMachineAll_of_not_writable compiler runtime hwritable w⟩)

theorem reached_onMachineAll (hpure : PurePasses passes) (tracer : Option Tracer)
    (family dir : String) (indices : List Int) (w : World) :
    ∃ compiled said, Reached passes tracer family dir w compiled [] said
      (onMachineAll compiler passes tracer family dir runtime indices w).2 := by
  rcases onMachineAll_cases compiler runtime hpure tracer family dir indices w with
    ⟨-, said, v, hrun, h⟩ | ⟨done, i, rest, e, said, v, -, -, -, hrun, h⟩ | ⟨-, hrun⟩
  · rw [hrun]; exact ⟨_, said, h⟩
  · rw [hrun]; exact ⟨_, said, h⟩
  · rw [hrun]; exact ⟨[], "", reached_start w⟩

/-- Native tests on the simulated machine are isolated and touch only their own output files.
Whatever a batch does, sources and inputs of all tests of the family are as before, and different
tests have different output files. If all tests pass when they are run alone, the batch gives all
their names; otherwise it fails like the first test that fails alone. Only output files of tests up
to that one were changed, and its own only if it was compiled. A test ends in the same way after any
batch of tests, and so does the batch when it is run once more. -/
theorem tests_isolated (compiler : String) {passes : List (Pass Routine)}
    (hpure : PurePasses passes) (tracer : Option Tracer) (family dir : String) (runtime : Datum)
    (indices : List Int) (w : World) :
    let batch := onMachineAll compiler passes tracer family dir runtime
    let v := (batch indices w).2
    (∀ i, v.files.read (Family.sourcePath (nameOf family i) dir) =
        w.files.read (Family.sourcePath (nameOf family i) dir) ∧
      v.files.read (Family.inputPath (nameOf family i) dir) =
        w.files.read (Family.inputPath (nameOf family i) dir)) ∧
    (∀ i j, i ≠ j → outputOf family dir i ≠ outputOf family dir j ∧
      ∀ fs p q, Files.locate fs (outputOf family dir i) = .ok p →
        Files.locate fs (outputOf family dir j) = .ok q → p ≠ q) ∧
    ((∀ i ∈ indices, (batch [i] w).1 = .ok [nameOf family i]) ∧
        (batch indices w).1 = .ok (indices.map (nameOf family)) ∧
        OutputsOnly family dir indices w v ∨
      (∃ done i rest e, indices = done ++ i :: rest ∧
        (∀ j ∈ done, (batch [j] w).1 = .ok [nameOf family j]) ∧
        (batch [i] w).1 = .error e ∧ (batch indices w).1 = .error e ∧
        OutputsOnly family dir
          ((done ++ [i]).filter (Compilable passes tracer family dir w ·)) w v) ∨
      (¬ ∀ i ∈ indices, Integer.Writable i) ∧ batch indices w = (.error .longInteger, w)) ∧
    (∀ before i, (batch [i] (batch before w).2).1 = (batch [i] w).1) ∧
    (batch indices v).1 = (batch indices w).1 := by
  intro batch v
  obtain ⟨compiled, said, hv⟩ :=
    reached_onMachineAll compiler runtime hpure tracer family dir indices w
  refine ⟨hv.files_kept, fun i j => outputOf_ne, ?_, fun before i => ?_, ?_⟩
  · rcases onMachineAll_cases compiler runtime hpure tracer family dir indices w with
      ⟨halone, said, v', hrun, h⟩ | ⟨done, i, rest, e, said, v', hsplit, hdone, hi, hrun, h⟩ | hlong
    · have hv' : v = v' := congrArg Prod.snd hrun
      exact .inl ⟨halone, congrArg Prod.fst hrun, hv' ▸ h.outputsOnly⟩
    · have hv' : v = v' := congrArg Prod.snd hrun
      exact .inr (.inl ⟨done, i, rest, e, hsplit, hdone, hi, congrArg Prod.fst hrun,
        hv' ▸ h.outputsOnly⟩)
    · exact .inr (.inr hlong)
  · obtain ⟨_, _, hbefore⟩ :=
      reached_onMachineAll compiler runtime hpure tracer family dir before w
    exact hbefore.onMachineAll_fst compiler runtime hpure [i] (reached_start w)
  · exact hv.onMachineAll_fst compiler runtime hpure indices (reached_start w)

/-- The tests of `sampleFiles` one after another. -/
abbrev sampleBatch : List Int → Job (List String) :=
  onMachineAll "rc" Lint.routines none "f" "t" (.str "runtime.o")

theorem tests_isolated_sample : PurePasses Lint.routines ∧
    (sampleBatch [2] (World.start sampleFiles)).1.isOk = true ∧
    (sampleBatch [2, -1, 3] (World.start sampleFiles)).1.isOk = false ∧
    (sampleBatch [2, -1, 3] (sampleBatch [2, -1, 3] (World.start sampleFiles)).2).1 =
      (sampleBatch [2, -1, 3] (World.start sampleFiles)).1 ∧
    (sampleBatch [3] (sampleBatch [2, -1] (World.start sampleFiles)).2).1 =
      (sampleBatch [3] (World.start sampleFiles)).1 := by
  obtain ⟨-, -, -, hafter, hagain⟩ := tests_isolated "rc" Lint.pure_routines none "f" "t"
    (.str "runtime.o") [2, -1, 3] (World.start sampleFiles)
  exact ⟨Lint.pure_routines, by decide +kernel, by decide +kernel, hagain, hafter [2, -1] 3⟩

end Batch

end PassCheck
