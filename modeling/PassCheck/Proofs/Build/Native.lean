/-
Native tests follow the script of their tools. Each test is compiled, linked and run; a link must
exit with code 0 and a run with code 42, and the first outcome that is another one ends the batch.
What has happened up to then is exact: which tools were started and on what input, which tests were
reported, and which assembly files were written.

The state of a batch is `Reached`. One test is followed by inversion (`Reached.test_cases`): it
passes, or it stops in one of the ways of `Stops`; a batch then is one induction over its tests.
That a test fails to compile as it would alone needs more than that its files are not overwritten: a
path that leads nowhere must go on to lead nowhere, for the same reason. Once a test was compiled the
folder of the family is there, and then only the last name of a path decides
(`Files.locate_eq_of_folder`); before that nothing was written at all.
-/
import PassCheck.Proofs.Build.Compile

namespace PassCheck

/-! ## Starting tools -/

/-- The exit code of an outcome; a tool that cannot be started has none. -/
def Outcome.code : Outcome → Datum
  | .exits code => code
  | .cannotStart => .null

/-- What starting a tool leads to. -/
def Outcome.given : Outcome → Except Failure Datum
  | .exits code => .ok code
  | .cannotStart => .error .noFile

/-- The outcome of the start of a tool that comes after `k` others. -/
def World.scripted (w : World) (k : Nat) : Outcome := w.tools.getD k (.exits (.int 0))

/-- The world after a tool was started. -/
def World.called (w : World) (call : ToolCall) : World :=
  { w with tools := w.tools.tail, toolCalls := w.toolCalls ++ [call] }

theorem Job.startTool_apply (command : List String) (input : Option (List UInt8)) (w : World) :
    Job.startTool command input w = ((w.scripted 0).given, w.called ⟨command, input⟩) := by
  rw [startTool, bind_of_ok (get_apply w), bind_of_ok (modify_apply _ w)]
  unfold World.scripted World.called
  cases w.tools with
  | nil => rfl
  | cons o os => cases o <;> rfl

theorem commandTexts_strs : ∀ ts : List String, commandTexts (ts.map .str) = .ok ts
  | [] => rfl
  | t :: ts => by
    rw [List.map_cons, commandTexts, commandTexts_strs ts]; rfl

/-! ## Linking and running -/

/-- What an executable gets as its input: the bytes of the input file, if there is one. -/
def inputBytes (files : Files) (path : String) : Option (List UInt8) :=
  match files.read path with
  | .ok content => some content.data.toList
  | .error _ => none

theorem inputBytes_of_absent {files : Files} {path : String} (h : files.present path = false) :
    inputBytes files path = none := by
  unfold inputBytes
  split
  · rename_i hread
    rw [Files.present_of_read hread] at h; cases h
  · rfl

namespace Toolchain

variable {w : World}

/-- The start of the linker. -/
def linkCall (t : Toolchain) (assembly runtime : String) : ToolCall :=
  ⟨t.command :: t.flags ++ [runtime, assembly, "-o", t.executable], none⟩

theorem start_linkCommand (t : Toolchain) (assembly runtime : String) (w : World) :
    start (t.linkCommand assembly (.str runtime)) w =
      ((w.scripted 0).given, w.called (t.linkCall assembly runtime)) := by
  have htexts : commandTexts (t.linkCommand assembly (.str runtime)) =
      .ok (t.command :: t.flags ++ [runtime, assembly, "-o", t.executable]) := by
    rw [← commandTexts_strs]
    simp [linkCommand]
  rw [start, htexts, Job.bind_of_ok (Job.lift_apply _ w), Job.startTool_apply]
  rfl

/-- Linking starts one tool and succeeds exactly if that exits with code 0. -/
theorem link_apply (t : Toolchain) (assembly runtime : String) (w : World) :
    t.link assembly (.str runtime) w =
      (if (w.scripted 0).code.same (.int 0) then .ok t.executable
        else .error (linkFailure (t.linkCommand assembly (.str runtime)) (w.scripted 0).code),
      w.called (t.linkCall assembly runtime)) := by
  have hstart := start_linkCommand t assembly runtime w
  rw [link]
  cases ho : w.scripted 0 with
  | cannotStart =>
    rw [ho] at hstart
    have hlink : startLink (t.linkCommand assembly (.str runtime)) w =
        (.error (linkFailure (t.linkCommand assembly (.str runtime)) .null),
          w.called (t.linkCall assembly runtime)) := by
      rw [startLink, hstart]; rfl
    exact Job.bind_of_error hlink
  | exits c =>
    rw [ho] at hstart
    have hlink : startLink (t.linkCommand assembly (.str runtime)) w =
        (.ok c, w.called (t.linkCall assembly runtime)) := by
      rw [startLink, hstart]; rfl
    rw [Job.bind_of_ok hlink, Outcome.code]
    split <;> rfl

/-- Running starts the executable on the content of the input file. -/
theorem run_apply (executable : String) {path : String} (hin : w.files.AbsentOrFile path) :
    run executable (some path) w =
      ((w.scripted 0).given, w.called ⟨[located executable], inputBytes w.files path⟩) := by
  rw [run, Job.bind_of_ok (Job.get_apply w)]
  rcases hin with habsent | ⟨content, hread⟩
  · rw [habsent, if_neg Bool.false_ne_true, Job.startTool_apply, inputBytes_of_absent habsent]
  · have hsome : inputBytes w.files path = some content.data.toList := by rw [inputBytes, hread]
    have hjob : Job.readBytes path w = (.ok content, w) := by rw [Job.readBytes, hread]
    rw [if_pos (Files.present_of_read hread), Job.bind_of_ok hjob, Job.startTool_apply, hsome]

end Toolchain

namespace Batch

open Family (nameOf filePath)
open Build (PurePasses compileFile)

variable {compiler : String} {passes : List (Pass Routine)} {tracer : Option Tracer}
  {family dir runtime : String} {i : Int} {w v v₁ : World}

/-! ## One test -/

/-- Tests with the tools of the system. -/
def native (dir runtime : String) (tracer : Option Tracer) : Options :=
  { Options.plain with testsDir := dir, runtime := .str runtime, tracer := tracer }

/-- The line that reports a test. -/
def passedLine (compiler test : String) : String := compiler ++ " passed compiler test " ++ test

/-- The run of an executable is judged by its exit code alone. -/
theorem runTest_apply (compiler runtime : String) (tracer : Option Tracer) (t executable : String)
    (hin : w.files.AbsentOrFile (Family.inputPath t dir)) :
    (runTest (native dir runtime tracer) t executable >>= fun code =>
      if code.same (.int successCode) then Job.print (passedLine compiler t)
      else throw (.report (.exitCode (.str t) code))) w =
    if (w.scripted 0).code.same (.int successCode) then
      Job.print (passedLine compiler t) (w.called ⟨[Toolchain.located executable],
        inputBytes w.files (Family.inputPath t dir)⟩)
    else (.error (.report (.exitCode (.str t) (w.scripted 0).code)),
      w.called ⟨[Toolchain.located executable], inputBytes w.files (Family.inputPath t dir)⟩) := by
  have hrun := Toolchain.run_apply executable hin
  have hbackend : (native dir runtime tracer).backend.run executable
      (Family.inputPath t (native dir runtime tracer).testsDir) w =
        Toolchain.run executable (some (Family.inputPath t dir)) w := rfl
  cases ho : w.scripted 0 with
  | cannotStart =>
    rw [ho] at hrun
    have htest : runTest (native dir runtime tracer) t executable w =
        (.error (.report (.exitCode (.str t) .null)), w.called ⟨[Toolchain.located executable],
          inputBytes w.files (Family.inputPath t dir)⟩) := by
      rw [runTest, hbackend, hrun]; rfl
    exact Job.bind_of_error htest
  | exits c =>
    rw [ho] at hrun
    have htest : runTest (native dir runtime tracer) t executable w =
        (.ok c, w.called ⟨[Toolchain.located executable],
          inputBytes w.files (Family.inputPath t dir)⟩) := runTest_of_ok (hbackend.trans hrun)
    rw [Job.bind_of_ok htest, Outcome.code]
    split <;> rfl

/-! ## The state of a batch -/

/-- The path of the assembly file of a test. -/
def assemblyOf (family dir : String) (i : Int) : String :=
  Build.outputPath (Family.sourcePath (nameOf family i) dir)

/-- Compiles the source of a test. -/
def compileTest (passes : List (Pass Routine)) (tracer : Option Tracer) (family dir : String)
    (i : Int) : Job String :=
  compileFile passes (Family.sourcePath (nameOf family i) dir) Check.readProgram tracer

/-- The start of the linker for a test. -/
def linkCall (family dir runtime : String) (i : Int) : ToolCall :=
  Toolchain.standard.linkCall (assemblyOf family dir i) runtime

/-- The run of a test, on the content of its own input file. -/
def runCall (family dir : String) (files : Files) (i : Int) : ToolCall :=
  ⟨["./a.out"], inputBytes files (Family.inputPath (nameOf family i) dir)⟩

/-- The two tool starts of a test. -/
def callsOf (family dir runtime : String) (files : Files) (i : Int) : List ToolCall :=
  [linkCall family dir runtime i, runCall family dir files i]

/-- What a test that passes writes to standard output: what compiling it writes, and a line that
reports it. -/
def reportOf (compiler : String) (passes : List (Pass Routine)) (tracer : Option Tracer)
    (family dir : String) (w : World) (i : Int) : String :=
  (compileTest passes tracer family dir i).wrote w ++ (passedLine compiler (nameOf family i) ++ "\n")

/-- The state of a batch that was started in the world `w`: tests that were compiled, tools that were
started, and text that was written to standard output. Each assembly file holds what compiling its
test alone would write, and no other file was changed. -/
structure Reached (passes : List (Pass Routine)) (tracer : Option Tracer) (family dir : String)
    (w : World) (compiled : List Int) (calls : List ToolCall) (text : String) (v : World) : Prop where
  beside : Beside family dir compiled w v
  compilable : ∀ i ∈ compiled, Compilable passes tracer family dir w i
  written : ∀ i ∈ compiled, v.files.read (assemblyOf family dir i) =
    (compileTest passes tracer family dir i w).2.files.read (assemblyOf family dir i)
  tools : v.tools = w.tools.drop calls.length
  calls : v.toolCalls = w.toolCalls ++ calls
  out : v.out = w.out ++ text

variable {compiler : String} {passes : List (Pass Routine)} {tracer : Option Tracer}
  {family dir runtime : String} {i : Int} {w v : World} {compiled : List Int}
  {calls : List ToolCall} {text : String}

theorem reached_start (w : World) : Reached passes tracer family dir w [] [] "" w :=
  ⟨.refl w, nofun, nofun, rfl, (List.append_nil _).symm, String.append_empty.symm⟩

theorem Reached.scripted (h : Reached passes tracer family dir w compiled calls text v) (k : Nat) :
    v.scripted k = w.scripted (calls.length + k) := by
  rw [World.scripted, World.scripted, h.tools, List.getD_eq_getElem?_getD,
    List.getD_eq_getElem?_getD, List.getElem?_drop]

theorem Reached.called (h : Reached passes tracer family dir w compiled calls text v)
    (call : ToolCall) :
    Reached passes tracer family dir w compiled (calls ++ [call]) text (v.called call) := by
  refine ⟨⟨h.beside.tracer, h.beside.files⟩, h.compilable, h.written, ?_, ?_, h.out⟩
  · rw [World.called, h.tools, List.tail_drop, List.length_append, List.length_singleton]
  · rw [World.called, h.calls, List.append_assoc]

theorem Reached.said (h : Reached passes tracer family dir w compiled calls text v)
    (more err : String) :
    Reached passes tracer family dir w compiled calls (text ++ more) (v.saying more err) := by
  refine ⟨⟨h.beside.tracer, h.beside.files⟩, h.compilable, h.written, h.tools, h.calls, ?_⟩
  show v.out ++ more = _
  rw [h.out, String.append_assoc]

/-- Tests of one assembly place are one test. -/
theorem nameOf_eq_of_locate {j : Int} {q : Place}
    (hi : w.files.locate (assemblyOf family dir i) = .ok q)
    (hj : w.files.locate (assemblyOf family dir j) = .ok q) : nameOf family j = nameOf family i := by
  rw [assemblyOf, outputPath_nameOf] at hi hj
  by_contra hne
  refine Family.place_ne Family.isTail_s Family.isTail_s (fun htail => hne ?_) hj hi rfl
  rw [nameOf, nameOf, String.toList_inj.1 (List.append_cancel_right htail)]

/-- Compiling one more test. A file that was written before keeps its content, also if it is written
once more. -/
theorem Reached.compiles (h : Reached passes tracer family dir w compiled calls text v)
    (hpure : PurePasses passes) (hc : Compilable passes tracer family dir w i) :
    ∃ v₁, compileTest passes tracer family dir i v = (.ok (assemblyOf family dir i), v₁) ∧
      Reached passes tracer family dir w (compiled ++ [i]) calls
        (text ++ (compileTest passes tracer family dir i).wrote w) v₁ := by
  obtain ⟨q, content, out, err, hcompiles, hstand, hrun⟩ := hc.compiles hpure
  have hsaid : (compileTest passes tracer family dir i).wrote w = out :=
    Job.wrote_eq (by rw [compileTest, hcompiles.eq])
  have hbeside : Beside family dir (compiled ++ [i]) w v :=
    h.beside.mono fun j hj => List.mem_append_left _ hj
  obtain ⟨hv, hbeside⟩ := hrun _ v hbeside (by simp)
  have hqv : v.files.locate (assemblyOf family dir i) = .ok q :=
    h.beside.files.locate_iff.1 hcompiles.place
  have hfree : v.files.node? q ≠ some .dir := fun hd => hcompiles.free (h.beside.files.noDirs q hd)
  have hput := (Files.Rewritten.refl (· = q) v.files).put rfl hstand hfree content
  have hself : (v.files.put q (.file content)).read (assemblyOf family dir i) =
      (compileTest passes tracer family dir i w).2.files.read (assemblyOf family dir i) := by
    rw [compileTest, hcompiles.eq, Files.read_put hqv hstand hfree content]
    exact (Files.read_put hcompiles.place hstand hcompiles.free content).symm
  have hcompilable : ∀ j ∈ compiled ++ [i], Compilable passes tracer family dir w j :=
    List.forall_mem_append.2 ⟨h.compilable, by simpa using hc⟩
  refine ⟨v.storing q content out err, ?_, hbeside,
    hcompilable, fun j hj => ?_, h.tools, h.calls, ?_⟩
  · rw [compileTest, assemblyOf, outputPath_nameOf]; exact hv
  · show (v.files.put q (.file content)).read (assemblyOf family dir j) = _
    obtain ⟨qj, content', out', err', hj', -⟩ := (hcompilable j hj).compiles hpure
    by_cases hsame : qj = q
    · subst hsame
      have hname := nameOf_eq_of_locate hcompiles.place hj'.place
      have hpath : assemblyOf family dir j = assemblyOf family dir i := by
        rw [assemblyOf, hname, assemblyOf]
      have hjob : compileTest passes tracer family dir j = compileTest passes tracer family dir i := by
        rw [compileTest, hname, compileTest]
      rw [hpath, hjob, hself]
    · have hmem : j ∈ compiled := by
        refine (List.mem_append.1 hj).resolve_right fun hji => hsame ?_
        cases List.mem_singleton.1 hji
        cases hcompiles.place.symm.trans hj'.place
        rfl
      have hread := hput.read_eq (h.beside.files.locate_iff.1 hj'.place) hsame
      exact hread.trans (h.written j hmem)
  · rw [hsaid]
    show v.out ++ out = _
    rw [h.out, String.append_assoc]

/-! ## Input files -/

theorem inputPath_nameOf (family dir : String) (i : Int) :
    Family.inputPath (nameOf family i) dir = filePath family dir i ".in" := Family.join_nameOf ..

theorem isTail_in : Path.IsTail ".in".toList :=
  ⟨by decide, by decide, 'i', by decide, by decide⟩

/-- No assembly ends like an input. -/
theorem fileTail_s_ne_in {j : Int} : Family.fileTail j ".s" ≠ Family.fileTail i ".in" := by
  intro h
  have := congrArg List.getLast? h
  simp [Family.fileTail] at this

theorem not_assemblyPlace_in {is : List Int} {p : Place}
    (hp : w.files.locate (Family.inputPath (nameOf family i) dir) = .ok p) :
    ¬ AssemblyPlace w.files family dir is p := by
  rw [inputPath_nameOf] at hp
  rintro ⟨j, -, hj⟩
  exact Family.place_ne Family.isTail_s isTail_in fileTail_s_ne_in hj hp rfl

theorem Beside.present_input_eq {is : List Int} (h : Beside family dir is w v) (i : Int) :
    v.files.present (Family.inputPath (nameOf family i) dir) =
      w.files.present (Family.inputPath (nameOf family i) dir) := by
  unfold Files.present
  cases hw : w.files.locate (Family.inputPath (nameOf family i) dir) with
  | ok p =>
    rw [h.files.locate_iff.1 hw]
    simp only [h.files.same p (not_assemblyPlace_in hw)]
  | error e =>
    cases hv : v.files.locate (Family.inputPath (nameOf family i) dir) with
    | ok p => rw [h.files.locate_iff.2 hv] at hw; cases hw
    | error e' => rfl

/-! ## One test after others -/

/-- Once a test was compiled the folder of its family is known, and before that nothing was
written: either way a path of the family ends as it did at the start. -/
theorem Reached.locate_eq (h : Reached passes tracer family dir w compiled calls text v)
    {ending : String} (he : Path.IsTail ending.toList) (i : Int) :
    v.files.locate (filePath family dir i ending) =
      w.files.locate (filePath family dir i ending) := by
  cases compiled with
  | nil => exact h.beside.files.locate_eq_of_nowhere (fun _ ⟨_, hj, _⟩ => nomatch hj) _
  | cons j compiled =>
    obtain ⟨p, hp⟩ := (h.compilable j List.mem_cons_self).exists_source
    exact Files.locate_eq_of_folder (Family.isTail_fileTail j Family.isTail_rkt)
      (Family.isTail_fileTail i he) h.beside.files.dirs hp

theorem Reached.read_eq (h : Reached passes tracer family dir w compiled calls text v)
    {ending : String} (he : Path.IsTail ending.toList)
    (hne : ∀ j, Family.fileTail j ".s" ≠ Family.fileTail i ending) :
    v.files.read (filePath family dir i ending) = w.files.read (filePath family dir i ending) := by
  have hlocate := h.locate_eq he i
  cases hp : w.files.locate (filePath family dir i ending) with
  | ok p => exact h.beside.read_eq he hne hp
  | error e =>
    rw [hp] at hlocate
    rw [Files.read_of_locate_error hlocate, Files.read_of_locate_error hp]

/-- Sources and inputs of all tests of the family are as they were. -/
theorem Reached.files_kept (h : Reached passes tracer family dir w compiled calls text v)
    (i : Int) :
    v.files.read (Family.sourcePath (nameOf family i) dir) =
      w.files.read (Family.sourcePath (nameOf family i) dir) ∧
    v.files.read (Family.inputPath (nameOf family i) dir) =
      w.files.read (Family.inputPath (nameOf family i) dir) := by
  rw [Family.sourcePath_nameOf, inputPath_nameOf]
  exact ⟨h.read_eq Family.isTail_rkt fun _ => Family.fileTail_s_ne_rkt,
    h.read_eq isTail_in fun _ => fileTail_s_ne_in⟩

theorem Reached.absentOrFile (h : Reached passes tracer family dir w compiled calls text v)
    (hin : w.files.AbsentOrFile (Family.inputPath (nameOf family i) dir)) :
    v.files.AbsentOrFile (Family.inputPath (nameOf family i) dir) := by
  rcases hin with habsent | ⟨content, hread⟩
  · exact .inl ((h.beside.present_input_eq i).trans habsent)
  · exact .inr ⟨content, (h.files_kept i).2.trans hread⟩

theorem Reached.inputBytes_eq (h : Reached passes tracer family dir w compiled calls text v) :
    inputBytes v.files (Family.inputPath (nameOf family i) dir) =
      inputBytes w.files (Family.inputPath (nameOf family i) dir) := by
  rw [inputBytes, inputBytes, (h.files_kept i).2]

/-- A test is compiled after others with the result it has alone, also if that is a failure. -/
theorem Reached.compileTest_fst (h : Reached passes tracer family dir w compiled calls text v)
    (hpure : PurePasses passes) (i : Int) :
    (compileTest passes tracer family dir i v).1 =
      (compileTest passes tracer family dir i w).1 := by
  obtain ⟨r, out, err, heq⟩ :=
    hpure.compileFile_eq (Family.sourcePath (nameOf family i) dir) tracer w
  have hv := heq v ⟨h.beside.tracer, (h.files_kept i).1⟩
  have hw := heq w ⟨rfl, rfl⟩
  rw [compileTest, hv, hw]
  cases r with
  | error e => rfl
  | ok code =>
    have hlocate := h.locate_eq Family.isTail_s i
    rw [← outputPath_nameOf] at hlocate
    have hwrite : (Job.writeText (Build.outputPath (Family.sourcePath (nameOf family i) dir)) code
          (v.saying out err)).1 =
        (Job.writeText (Build.outputPath (Family.sourcePath (nameOf family i) dir)) code
          (w.saying out err)).1 := by
      rw [Job.writeText_fst, Job.writeText_fst]
      exact h.beside.files.map_write_eq hlocate code.toUTF8
    rw [Job.bind_of_ok (Job.lift_apply _ _), Job.bind_of_ok (Job.lift_apply _ _)]
    exact Job.bind_fst_congr hwrite fun _ _ _ => rfl

/-- A test that cannot be compiled fails after others as it does alone. It leaves nothing behind but
the text that it writes alone. -/
theorem Reached.compile_fails (h : Reached passes tracer family dir w compiled calls text v)
    (hpure : PurePasses passes) {e : Failure}
    (he : (compileTest passes tracer family dir i w).1 = .error e) :
    ∃ v₁, compileTest passes tracer family dir i v = (.error e, v₁) ∧
      Reached passes tracer family dir w compiled calls
        (text ++ (compileTest passes tracer family dir i).wrote w) v₁ := by
  obtain ⟨r, out, err, heq⟩ :=
    hpure.compileFile_eq (Family.sourcePath (nameOf family i) dir) tracer w
  have hfails : ∀ u, Build.SameSource (Family.sourcePath (nameOf family i) dir) w u →
      (compileTest passes tracer family dir i u).1 = .error e →
      compileTest passes tracer family dir i u = (.error e, u.saying out err) := by
    intro u hu hfst
    rw [compileTest, heq u hu] at hfst ⊢
    exact Build.storeAssembly_of_error hfst
  have hsaid : (compileTest passes tracer family dir i).wrote w = out :=
    Job.wrote_eq (by rw [hfails w ⟨rfl, rfl⟩ he])
  refine ⟨v.saying out err, ?_, hsaid ▸ h.said out err⟩
  exact hfails v ⟨h.beside.tracer, (h.files_kept i).1⟩ ((h.compileTest_fst hpure i).trans he)

/-- A test is compiled, or fails to be. -/
theorem compilable_or_error (passes : List (Pass Routine)) (tracer : Option Tracer)
    (family dir : String) (w : World) (i : Int) : Compilable passes tracer family dir w i ∨
      ∃ e, (compileTest passes tracer family dir i w).1 = .error e := by
  unfold Compilable compileTest
  cases (compileFile passes (Family.sourcePath (nameOf family i) dir) Check.readProgram tracer w).1 with
  | ok s => exact .inl ⟨s, rfl⟩
  | error e => exact .inr ⟨e, rfl⟩

/-! ## The end of a test -/

/-- A test passes if its source can be compiled, the next tool, the linker, exits with code 0 and
the one after it, the executable, with code 42. -/
structure Passes (passes : List (Pass Routine)) (tracer : Option Tracer) (family dir : String)
    (w : World) (n : Nat) (i : Int) : Prop where
  compiles : Compilable passes tracer family dir w i
  links : (w.scripted n).code.same (.int 0) = true
  runs : (w.scripted (n + 1)).code.same (.int successCode) = true

/-- How a test stops a batch after `n` tool starts: with which failure, whether it was compiled,
which tools were started for it and what was written to standard output. -/
inductive Stops (passes : List (Pass Routine)) (tracer : Option Tracer)
    (family dir runtime : String) (w : World) (n : Nat) (i : Int) :
    Failure → List Int → List ToolCall → String → Prop
  | compile {e : Failure} : (compileTest passes tracer family dir i w).1 = .error e →
    Stops passes tracer family dir runtime w n i e [] []
      ((compileTest passes tracer family dir i).wrote w)
  | link : Compilable passes tracer family dir w i →
    (w.scripted n).code.same (.int 0) = false →
    Stops passes tracer family dir runtime w n i
      (Toolchain.linkFailure (Toolchain.standard.linkCommand (assemblyOf family dir i) (.str runtime))
        (w.scripted n).code)
      [i] [linkCall family dir runtime i] ((compileTest passes tracer family dir i).wrote w)
  | run : Compilable passes tracer family dir w i → (w.scripted n).code.same (.int 0) = true →
    (w.scripted (n + 1)).code.same (.int successCode) = false →
    Stops passes tracer family dir runtime w n i
      (.report (.exitCode (.str (nameOf family i)) (w.scripted (n + 1)).code))
      [i] (callsOf family dir runtime w.files i) ((compileTest passes tracer family dir i).wrote w)

theorem Stops.not_passes {n : Nat} {e : Failure} {more : List Int} {started : List ToolCall}
    {said : String} (h : Stops passes tracer family dir runtime w n i e more started said) :
    ¬ Passes passes tracer family dir w n i := by
  intro hp
  cases h with
  | compile he =>
    obtain ⟨s, hs⟩ := hp.compiles
    cases hs.symm.trans he
  | link _ hl => rw [hp.links] at hl; cases hl
  | run _ _ hr => rw [hp.runs] at hr; cases hr

/-- One test of a batch passes, or stops it. -/
theorem Reached.test_cases (compiler runtime : String)
    (h : Reached passes tracer family dir w compiled calls text v) (hpure : PurePasses passes)
    (hin : w.files.AbsentOrFile (Family.inputPath (nameOf family i) dir)) :
    (Passes passes tracer family dir w calls.length i ∧
      ∃ v', test compiler passes (native dir runtime tracer) (nameOf family i) v = (.ok (), v') ∧
        Reached passes tracer family dir w (compiled ++ [i])
          (calls ++ callsOf family dir runtime w.files i)
          (text ++ reportOf compiler passes tracer family dir w i) v') ∨
    ∃ e more started said v',
      Stops passes tracer family dir runtime w calls.length i e more started said ∧
      test compiler passes (native dir runtime tracer) (nameOf family i) v = (.error e, v') ∧
      Reached passes tracer family dir w (compiled ++ more) (calls ++ started) (text ++ said) v' := by
  have htest : test compiler passes (native dir runtime tracer) (nameOf family i) =
      (compileTest passes tracer family dir i >>= fun assembly =>
        Toolchain.standard.link assembly (.str runtime) >>= fun executable =>
        runTest (native dir runtime tracer) (nameOf family i) executable >>= fun code =>
        if code.same (.int successCode) then Job.print (passedLine compiler (nameOf family i))
        else throw (.report (.exitCode (.str (nameOf family i)) code))) := rfl
  rw [htest]
  rcases compilable_or_error passes tracer family dir w i with hc | ⟨e, he⟩
  · obtain ⟨v₁, hv₁, h₁⟩ := h.compiles hpure hc
    have hlink := Toolchain.link_apply Toolchain.standard (assemblyOf family dir i) runtime v₁
    rw [h₁.scripted 0, Nat.add_zero] at hlink
    have h₂ := h₁.called (linkCall family dir runtime i)
    rw [Job.bind_of_ok hv₁]
    by_cases hl : (w.scripted calls.length).code.same (.int 0) = true
    · rw [if_pos hl] at hlink
      have hrun := runTest_apply compiler runtime tracer (nameOf family i)
        Toolchain.standard.executable (h₂.absentOrFile hin)
      rw [h₂.scripted 0, List.length_append, List.length_singleton, Nat.add_zero,
        h₂.inputBytes_eq] at hrun
      have h₃ := h₂.called (runCall family dir w.files i)
      rw [List.append_assoc] at h₃
      rw [Job.bind_of_ok hlink]
      by_cases hr : (w.scripted (calls.length + 1)).code.same (.int successCode) = true
      · rw [if_pos hr] at hrun
        refine .inl ⟨⟨hc, hl, hr⟩, _, hrun, ?_⟩
        have h₄ := h₃.said (passedLine compiler (nameOf family i) ++ "\n") ""
        rw [String.append_assoc] at h₄
        refine ⟨⟨h₄.beside.tracer, h₄.beside.files⟩, h₄.compilable, h₄.written, h₄.tools, h₄.calls, ?_⟩
        rw [reportOf, ← h₄.out]
        exact String.append_assoc
      · rw [if_neg hr] at hrun
        exact .inr ⟨_, _, _, _, _, .run hc hl (Bool.eq_false_iff.2 hr), hrun, h₃⟩
    · rw [if_neg hl] at hlink
      exact .inr ⟨_, _, _, _, _, .link hc (Bool.eq_false_iff.2 hl), Job.bind_of_error hlink, h₂⟩
  · obtain ⟨v₁, hv₁, h₁⟩ := h.compile_fails hpure he
    refine .inr ⟨e, [], [], _, v₁, .compile he, Job.bind_of_error hv₁, ?_⟩
    rw [List.append_nil, List.append_nil]
    exact h₁

/-! ## A batch -/

/-- All tests of a list pass, the first of them after `n` tool starts. -/
def AllPass (passes : List (Pass Routine)) (tracer : Option Tracer) (family dir : String)
    (w : World) : Nat → List Int → Prop
  | _, [] => True
  | n, i :: is =>
    Passes passes tracer family dir w n i ∧ AllPass passes tracer family dir w (n + 2) is

theorem allPass_iff {is : List Int} {n : Nat} : AllPass passes tracer family dir w n is ↔
    ∀ k (hk : k < is.length), Passes passes tracer family dir w (n + 2 * k) is[k] := by
  induction is generalizing n with
  | nil => simp [AllPass]
  | cons i is ih =>
    rw [AllPass, ih]
    constructor
    · rintro ⟨hi, his⟩ k hk
      cases k with
      | zero => exact hi
      | succ k =>
        have hnext := his k (Nat.lt_of_succ_lt_succ hk)
        rwa [Nat.add_assoc, Nat.add_comm 2, ← Nat.mul_succ] at hnext
    · intro h
      refine ⟨h 0 (Nat.succ_pos _), fun k hk => ?_⟩
      have hnext := h (k + 1) (Nat.succ_lt_succ hk)
      rwa [Nat.mul_succ, Nat.add_comm (2 * k), ← Nat.add_assoc] at hnext

/-- A batch passes as a whole, or a first test stops it. -/
theorem Reached.runAll_cases (compiler runtime : String) {todo : List Int} (hpure : PurePasses passes)
    (hin : ∀ i ∈ todo, w.files.AbsentOrFile (Family.inputPath (nameOf family i) dir))
    (h : Reached passes tracer family dir w compiled calls text v) :
    (AllPass passes tracer family dir w calls.length todo ∧
      ∃ v', runAll compiler passes (native dir runtime tracer) (todo.map (nameOf family)) v =
          (.ok (todo.map (nameOf family)), v') ∧
        Reached passes tracer family dir w (compiled ++ todo)
          (calls ++ todo.flatMap (callsOf family dir runtime w.files))
          (text ++ String.join (todo.map (reportOf compiler passes tracer family dir w))) v') ∨
    ∃ done i rest e more started said v', todo = done ++ i :: rest ∧
      AllPass passes tracer family dir w calls.length done ∧
      Stops passes tracer family dir runtime w (calls.length + 2 * done.length) i e more started said ∧
      runAll compiler passes (native dir runtime tracer) (todo.map (nameOf family)) v =
        (.error e, v') ∧
      Reached passes tracer family dir w (compiled ++ (done ++ more))
        (calls ++ (done.flatMap (callsOf family dir runtime w.files) ++ started))
        (text ++ (String.join (done.map (reportOf compiler passes tracer family dir w)) ++ said)) v' := by
  induction todo generalizing compiled calls text v with
  | nil =>
    refine .inl ⟨trivial, v, rfl, ?_⟩
    rw [List.flatMap_nil, List.map_nil, String.join_nil, List.append_nil, List.append_nil,
      String.append_empty]
    exact h
  | cons i todo ih =>
    obtain ⟨hi, hrest⟩ := List.forall_mem_cons.1 hin
    rcases h.test_cases compiler runtime hpure hi with
      ⟨hpass, v₁, htest, h₁⟩ | ⟨e, more, started, said, v₁, hstop, htest, h₁⟩
    · have hlen : (calls ++ callsOf family dir runtime w.files i).length = calls.length + 2 :=
        List.length_append
      rcases ih hrest h₁ with ⟨hall, v₂, hrun, h₂⟩ |
        ⟨done, j, rest, e, more, started, said, v₂, rfl, hdone, hstop, hrun, h₂⟩
      · rw [hlen] at hall
        refine .inl ⟨⟨hpass, hall⟩, v₂, ?_, ?_⟩
        · rw [List.map_cons, runAll, Job.bind_of_ok htest, Job.bind_of_ok hrun]; rfl
        · rw [List.flatMap_cons, List.map_cons, String.join_cons]
          simpa only [List.append_assoc, String.append_assoc, List.singleton_append] using h₂
      · rw [hlen] at hdone hstop
        refine .inr ⟨i :: done, j, rest, e, more, started, said, v₂, rfl, ⟨hpass, hdone⟩, ?_, ?_, ?_⟩
        · rwa [List.length_cons, Nat.mul_succ, Nat.add_comm (2 * done.length), ← Nat.add_assoc]
        · rw [List.map_cons, runAll, Job.bind_of_ok htest, Job.bind_of_error hrun]
        · rw [List.flatMap_cons, List.map_cons, String.join_cons]
          simpa only [List.append_assoc, String.append_assoc, List.cons_append,
            List.nil_append] using h₂
    · refine .inr ⟨[], i, todo, e, more, started, said, v₁, rfl, trivial, hstop, ?_, ?_⟩
      · rw [List.map_cons, runAll, Job.bind_of_error htest]
      · simpa only [List.nil_append, List.flatMap_nil, List.map_nil, String.join_nil,
          String.empty_append] using h₁

theorem runFamily_eq_runAll (compiler : String) (passes : List (Pass Routine)) (family : String)
    {indices : List Int} (h : ∀ i ∈ indices, Integer.Writable i) (o : Options) (w : World) :
    runFamily compiler passes family (.list (indices.map .int)) o w =
      runAll compiler passes o (indices.map (nameOf family)) w := by
  rw [runFamily, Family.expand_ints family h]
  exact Job.bind_of_ok rfl

theorem Compilable.writable (h : Compilable passes tracer family dir w i) : Integer.Writable i := by
  obtain ⟨p, hp⟩ := h.exists_source
  exact Family.writable_of_locate Family.isTail_rkt hp

/-- Tool starts alternate between linking, which must exit with code 0, and running, which must exit
with code 42. The outcome of the start after `k` others is the one that lets a batch go on. -/
def Good (w : World) (k : Nat) : Prop :=
  (w.scripted k).code.same (.int (if k % 2 = 0 then 0 else successCode)) = true

instance (w : World) (k : Nat) : Decidable (Good w k) := inferInstanceAs (Decidable (_ = true))

/-- The failure that a bad outcome of a tool start leads to: the linker's command with its code, or
the name of the test with the code of its run. A tool that could not be started has no code. -/
def stopFailure (family dir runtime : String) (w : World) (k : Nat) (i : Int) : Failure :=
  if k % 2 = 0 then
    Toolchain.linkFailure (Toolchain.standard.linkCommand (assemblyOf family dir i) (.str runtime))
      (w.scripted k).code
  else .report (.exitCode (.str (nameOf family i)) (w.scripted k).code)

theorem AllPass.good {is : List Int} (h : AllPass passes tracer family dir w 0 is) :
    ∀ k < 2 * is.length, Good w k := by
  intro k hk
  have hpass := allPass_iff.1 h (k / 2) (by omega)
  rw [Nat.zero_add] at hpass
  unfold Good
  rcases Nat.mod_two_eq_zero_or_one k with heven | hodd
  · have hk : 2 * (k / 2) = k := by omega
    rw [if_pos heven, ← hk]
    exact hpass.links
  · have hk : 2 * (k / 2) + 1 = k := by omega
    rw [if_neg (by omega), ← hk]
    exact hpass.runs

theorem first_bad_unique {k b : Nat} (hk : ¬ Good w k) (hbefore : ∀ j < k, Good w j)
    (hb : ¬ Good w b) (hbefore' : ∀ j < b, Good w j) : k = b := by
  rcases Nat.lt_trichotomy k b with hlt | heq | hgt
  · exact absurd (hbefore' k hlt) hk
  · exact heq
  · exact absurd (hbefore b hgt) hb

/-- The first tool starts of a batch: those of the tests before one, and some of its own. -/
theorem take_calls {files : Files} (done rest : List Int) (m : Nat) :
    (((done ++ i :: rest).flatMap (callsOf family dir runtime files)).take (2 * done.length + m)) =
      done.flatMap (callsOf family dir runtime files) ++
        ((i :: rest).flatMap (callsOf family dir runtime files)).take m := by
  have hlen : (done.flatMap (callsOf family dir runtime files)).length = 2 * done.length := by
    induction done with
    | nil => rfl
    | cons j done ih =>
      rw [List.flatMap_cons, List.length_append, ih, List.length_cons]
      show 2 + _ = _
      omega
  rw [List.flatMap_append, List.take_append, hlen, List.take_of_length_le (by omega)]
  congr 2
  omega

/-- A batch of tests that can all be compiled follows the script of tool outcomes. It starts the
linker and the executable of one test after the other, each executable on the content of its own
input file, and stops right after the first outcome that is not good. If there is none it gives all names;
otherwise the failure is that of the outcome. The tests that are reported are those of which both
outcomes were good, and assembly files were written for these and for the test that stopped the
batch, with the content that compiling each alone would give. -/
theorem runFamily_follows_script (compiler : String) {passes : List (Pass Routine)}
    (tracer : Option Tracer) (family dir runtime : String) {indices : List Int} {w : World}
    (hpure : PurePasses passes) (hcompile : ∀ i ∈ indices, Compilable passes tracer family dir w i)
    (hin : ∀ i ∈ indices, w.files.AbsentOrFile (Family.inputPath (nameOf family i) dir)) :
    ((∀ k < 2 * indices.length, Good w k) →
      ∃ v, runFamily compiler passes family (.list (indices.map .int)) (native dir runtime tracer) w =
          (.ok (indices.map (nameOf family)), v) ∧
        Reached passes tracer family dir w indices
          (indices.flatMap (callsOf family dir runtime w.files))
          (String.join (indices.map (reportOf compiler passes tracer family dir w))) v) ∧
    ∀ k < 2 * indices.length, ¬ Good w k → (∀ j < k, Good w j) →
      ∃ i v, indices[k / 2]? = some i ∧
        runFamily compiler passes family (.list (indices.map .int)) (native dir runtime tracer) w =
          (.error (stopFailure family dir runtime w k i), v) ∧
        Reached passes tracer family dir w (indices.take (k / 2 + 1))
          ((indices.flatMap (callsOf family dir runtime w.files)).take (k + 1))
          (String.join ((indices.take (k / 2)).map (reportOf compiler passes tracer family dir w)) ++
            (compileTest passes tracer family dir i).wrote w) v := by
  rw [runFamily_eq_runAll _ _ _ fun i hi => (hcompile i hi).writable]
  rcases (reached_start w).runAll_cases compiler runtime hpure hin with
    ⟨hall, v, hrun, h⟩ | ⟨done, i, rest, e, more, started, said, v, rfl, hdone, hstop, hrun, h⟩
  · refine ⟨fun _ => ⟨v, hrun, ?_⟩, fun k hk hbad => absurd (hall.good k hk) hbad⟩
    rw [List.nil_append, List.nil_append, String.empty_append] at h
    exact h
  · have hgood := hdone.good
    have hi : i ∈ done ++ i :: rest := by simp
    have hlen : (done ++ i :: rest).length = done.length + 1 + rest.length := by simp; omega
    have htake : (done ++ i :: rest).take (done.length + 1) = done ++ [i] := by
      rw [List.take_append, List.take_of_length_le (by omega)]; simp
    rw [List.length_nil, Nat.zero_add] at hstop
    rw [List.nil_append, List.nil_append, String.empty_append] at h
    cases hstop with
    | compile he =>
      obtain ⟨s, hs⟩ := hcompile i hi
      cases hs.symm.trans he
    | link _ hlink =>
      have hbad : ¬ Good w (2 * done.length) := by
        rw [Good, if_pos (by omega), hlink]; exact Bool.false_ne_true
      refine ⟨fun hall => absurd (hall _ (by omega)) hbad, fun k hk hkbad hkgood => ?_⟩
      obtain rfl := first_bad_unique hkbad hkgood hbad hgood
      have hhalf : 2 * done.length / 2 = done.length := by omega
      refine ⟨i, v, by rw [hhalf]; simp, ?_, ?_⟩
      · rw [stopFailure, if_pos (by omega)]; exact hrun
      · rw [hhalf, htake, take_calls, List.take_left]
        exact h
    | run _ hlink hrunbad =>
      have hbad : ¬ Good w (2 * done.length + 1) := by
        rw [Good, if_neg (by omega), hrunbad]; exact Bool.false_ne_true
      have hbefore : ∀ j < 2 * done.length + 1, Good w j := by
        intro j hj
        rcases Nat.lt_succ_iff_lt_or_eq.1 hj with hlt | rfl
        · exact hgood j hlt
        · rw [Good, if_pos (by omega)]; exact hlink
      refine ⟨fun hall => absurd (hall _ (by omega)) hbad, fun k hk hkbad hkgood => ?_⟩
      obtain rfl := first_bad_unique hkbad hkgood hbad hbefore
      have hhalf : (2 * done.length + 1) / 2 = done.length := by omega
      refine ⟨i, v, by rw [hhalf]; simp, ?_, ?_⟩
      · rw [stopFailure, if_neg (by omega)]; exact hrun
      · rw [hhalf, htake, Nat.add_assoc, take_calls, List.take_left]
        exact h

/-- Two tests, one with an input file; the executable of the second one cannot be started. -/
def nativeWorld : World :=
  { World.start ⟨[(["t"], .dir), (["t", "f_2.rkt"], .file "(- 50 8)".toUTF8),
      (["t", "f_2.in"], .file "7\r\n".toUTF8),
      (["t", "f_-1.rkt"], .file "#lang racket\n[+ 1 (- 8)]".toUTF8)]⟩ with
    tools := [.exits (.int 0), .exits (.int 42), .exits (.int 0), .cannotStart] }

theorem runFamily_follows_script_unstartable :
    (∀ i ∈ [2, -1], Compilable Lint.routines none "f" "t" nativeWorld i) ∧
    (∀ i ∈ [2, -1], nativeWorld.files.AbsentOrFile (Family.inputPath (nameOf "f" i) "t")) ∧
    ¬ Good nativeWorld 3 ∧ (∀ j < 3, Good nativeWorld j) ∧
    ∃ v, runFamily "rc" Lint.routines "f" (.list ([2, -1].map .int)) (native "t" "runtime.o" none)
        nativeWorld = (.error (.report (.exitCode (.str "f_-1") .null)), v) ∧
      v.out = "rc passed compiler test f_2\n" ∧
      v.toolCalls = [⟨["gcc", "-g", "-std=c99", "runtime.o", "t/f_2.s", "-o", "a.out"], none⟩,
        ⟨["./a.out"], some "7\r\n".toUTF8.data.toList⟩,
        ⟨["gcc", "-g", "-std=c99", "runtime.o", "t/f_-1.s", "-o", "a.out"], none⟩,
        ⟨["./a.out"], none⟩] := by
  have hcompile : ∀ i ∈ [2, -1], Compilable Lint.routines none "f" "t" nativeWorld i := by
    have hok : ∀ i ∈ ([2, -1] : List Int), (compileFile Lint.routines
        (Family.sourcePath (nameOf "f" i) "t") Check.readProgram none nativeWorld).1.isOk = true := by
      decide +kernel
    exact fun i hi => exists_of_isOk (hok i hi)
  have hin : ∀ i ∈ [2, -1],
      nativeWorld.files.AbsentOrFile (Family.inputPath (nameOf "f" i) "t") := by
    simp only [List.forall_mem_cons]
    refine ⟨.inr ⟨"7\r\n".toUTF8, rfl⟩, ?_, nofun⟩
    exact .inl (by decide +kernel)
  have hbad : ¬ Good nativeWorld 3 := by decide +kernel
  have hgood : ∀ j < 3, Good nativeWorld j := by decide +kernel
  refine ⟨hcompile, hin, hbad, hgood, ?_⟩
  obtain ⟨i, v, hi, hrun, h⟩ := (runFamily_follows_script "rc" none "f" "t" "runtime.o"
    Lint.pure_routines hcompile hin).2 3 (by decide) hbad hgood
  obtain rfl : -1 = i := Option.some.inj hi
  refine ⟨v, hrun, ?_, ?_⟩
  · rw [h.out]; decide +kernel
  · rw [h.calls]; decide +kernel

end Batch

end PassCheck
