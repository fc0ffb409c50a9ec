/-
The compiler for the tiny language, from source files to exit codes on the simulated machine. A
batch of tests passes exactly if every body is a constant expression of value 42. Otherwise the
first test that is not such decides: its value, if it has one, is the exit code that is reported,
and the checker finds the same value pass by pass; without a value nothing is compiled.

One test is followed through its steps (`compileFile_writes`, `run_assemblyFile`, `test_returns`, or
`compileFile_fails`); along a batch the invariant is that only assembly files of its tests have
changed.
-/
import PassCheck.Build.Batch
import PassCheck.Lint.Compiler
import PassCheck.Proofs.Build.Machine
import PassCheck.Proofs.Build.TestFiles
import PassCheck.Proofs.Lint.Constant
import PassCheck.Proofs.Pass.Chain

namespace PassCheck

/-! ## Compiling one program -/

namespace Lint

open Datum (Every)
open Sexp (program)

/-- The passes of the compiler, ready to run. -/
abbrev routines : List (Pass Routine) := passes.map (Pass.map Recipe.routine)

variable {files : Files} {inputPath : String} {body : Datum} {v : Int} {w : World}

/-- The steps of the compiler from a constant expression on. -/
def stepsOf (body : Datum) (v : Int) : List Check.Step :=
  [⟨program (.tuple []) (shrinkExp body), some (.int v)⟩, ⟨program (.tuple []) (.int v), some (.int v)⟩,
    ⟨.str (assembly (Integer.decimal v)), none⟩]

theorem interpret_program (info : Datum) {e : Datum} (h : eval e w = (.ok v, w)) :
    interpret (program info e) w = (.ok (.int v), w) := by
  rw [program, interpret, Job.bind_of_ok h]; rfl

theorem Returns.foldExp_shrinkExp (h : Returns body v) :
    (∀ w, eval (shrinkExp body) w = (.ok v, w)) ∧ foldExp (shrinkExp body) = .int v := by
  obtain ⟨v', he, hs, hf⟩ := h.1.exists_value
  have hv := (h.2 default).symm.trans (he default)
  cases hv
  exact ⟨hs, hf⟩

/-- On a constant expression the compiler only computes, and each result is the value. -/
theorem Returns.steps (h : Returns body v) (hv : Integer.Writable v)
    (hin : files.isDir inputPath = false) :
    Check.Steps files inputPath routines (program (.tuple []) body) (stepsOf body v) := by
  obtain ⟨hs, hf⟩ := h.foldExp_shrinkExp
  have hinterp : ∀ e, (∀ w, eval e w = (.ok v, w)) → Check.Gives files
      (Check.runInterpreter Recipe.interpret.routine (program (.tuple []) e) (some inputPath))
      (.int v) := fun e he =>
    Check.gives_runInterpreter (Files.exists_read hin) fun w _ =>
      interpret_program (.tuple []) (he w)
  have hfold : fold (program (.tuple []) (shrinkExp body)) = program (.tuple []) (.int v) := by
    rw [program, fold, hf]
  refine .cons (fun _ _ => rfl) (.some (hinterp _ hs)) <| .cons (fun w _ => ?_)
    (.some (hinterp _ fun _ => rfl)) <| .cons (fun w _ => ?_) .none <| .nil _
  · rw [← hfold]; rfl
  · exact codegen_of_writable (.tuple []) hv w

theorem writable_stepsOf (hv : Integer.Writable v) (hb : body.Writable) :
    ∀ s ∈ stepsOf body v, s.output.Writable := by
  simp only [stepsOf, List.forall_mem_cons]
  exact ⟨writable_program (writable_shrinkExp hb), writable_program (Datum.writable_int hv),
    Datum.writable_str _, nofun⟩

theorem shown_stepsOf (hv : Integer.Writable v) (hb : body.Writable) (t : Tracer) :
    Check.Shown t (stepsOf body v) := by
  intro _ s hs
  refine ⟨writable_stepsOf hv hb s hs, fun r hr => ?_⟩
  have : ∀ s ∈ stepsOf body v, ∀ r, s.result = some r → r = .int v := by
    simp [stepsOf, eq_comm]
  rw [this s hs r hr]
  exact Datum.writable_int hv

/-- A constant expression is compiled to the assembly that returns its value. -/
theorem Returns.compile (h : Returns body v) (hv : Integer.Writable v) (hb : body.Writable)
    (tracer : Option Tracer) :
    ∃ w', Build.compile routines (program (.tuple []) body) tracer w =
      (.ok (.str (assembly (Integer.decimal v))), w') ∧ w'.files = w.files := by
  have hw : w.Ready w.files 0 := ⟨rfl, trivial⟩
  -- no interpreter is run, so any input path will do
  have hin : w.files.isDir "" = false := rfl
  obtain ⟨w1, h1, hw1⟩ := Check.transformAll_ready (tracer.getD w.tracer) (h.steps hv hin)
    (shown_stepsOf hv hb _) hw
  exact ⟨w1, by rw [Build.compile, Job.bind_of_ok (Tracer.choose_apply tracer w), h1]; rfl, hw1.files⟩

/-! ## Programs that are not compiled -/

/-- A transform that only computes leads to the failure of the passes after it, unless its output
cannot be shown. -/
theorem transformAll_cons_fails (t : Tracer) {p : Pass Routine} {ps : List (Pass Routine)}
    {d output : Datum} (hp : Check.Gives files (p.transform [d]) output)
    (h : ∀ w, w.files = files → ∃ e w', Build.transformAll t ps output w = (.error e, w') ∧
      w'.files = files) (hw : w.files = files) :
    ∃ e w', Build.transformAll t (p :: ps) d w = (.error e, w') ∧ w'.files = files := by
  have hfiles := t.trace_files (p.name ++ " output") output w
  rw [Build.transformAll, Job.bind_of_ok (hp w hw)]
  cases ht : t.trace (.str (p.name ++ " output")) output w with
  | mk r w1 =>
    rw [ht] at hfiles
    cases r with
    | error e => exact ⟨e, w1, Job.bind_of_error ht, hfiles.trans hw⟩
    | ok _ =>
      obtain ⟨e, w2, h2, hw2⟩ := h w1 (hfiles.trans hw)
      exact ⟨e, w2, (Job.bind_of_ok ht).trans h2, hw2⟩

/-- Any other program is not compiled, and no file changes. -/
theorem compile_fails (hb : Every NotBool body) (h : ∀ v, Returns body v → ¬ Integer.Writable v)
    (tracer : Option Tracer) : ∃ e w', Build.compile routines (program (.tuple []) body) tracer w =
      (.error e, w') ∧ w'.files = w.files := by
  have hcode : ∀ w', w'.files = w.files → ∃ e w'', Build.transformAll (tracer.getD w.tracer)
      [⟨"codegen", Recipe.codegen.routine, none⟩] (program (.tuple []) (foldExp (shrinkExp body))) w' =
        (.error e, w'') ∧ w''.files = w.files := by
    intro w' hw'
    obtain ⟨e, he⟩ := codegen_fails (.tuple []) hb h w'
    exact ⟨e, w', Job.bind_of_error he, hw'⟩
  rw [Build.compile, Job.bind_of_ok (Tracer.choose_apply tracer w)]
  refine transformAll_cons_fails _ (fun _ _ => rfl) (fun w' hw' => ?_) rfl
  exact transformAll_cons_fails _ (fun _ _ => rfl) hcode hw'

end Lint

/-! ## One test -/

/-- The file of the assembly that returns an integer. -/
def assemblyFile (v : Int) : String := Lint.assembly (Integer.decimal v) ++ "\n"

theorem decodeText?_assemblyFile (v : Int) :
    decodeText? (assemblyFile v).toUTF8 = some (assemblyFile v).toList := by
  refine decodeText?_toUTF8 ?_
  have hdec : '\r' ∉ (Integer.decimal v).toList := by
    intro h
    exact absurd (Integer.isPadding_decimal v _ h) (by decide)
  rw [assemblyFile, Machine.toList_assembly]
  simp only [List.mem_append, not_or]
  exact ⟨by decide, hdec, by decide, by decide⟩

namespace Batch

open Family (nameOf filePath)
open Lint (Returns NotBool routines)
open Datum (Every)
open Sexp (program)

variable {path : String} {body : Datum} {v : Int} {w : World} {q : Place}

/-- A constant expression in a file is compiled to its assembly file. -/
theorem compileFile_writes (hread : Check.readProgram path w = (.ok (program (.tuple []) body), w))
    (h : Returns body v) (hv : Integer.Writable v) (hb : body.Writable)
    (hloc : w.files.locate (Build.outputPath path) = .ok q)
    (hq : w.files.node? q ≠ some .dir) (tracer : Option Tracer) :
    ∃ w', Build.compileFile routines path Check.readProgram tracer w =
        (.ok (Build.outputPath path), w') ∧
      w'.files = w.files.put q (.file (assemblyFile v).toUTF8) := by
  obtain ⟨w1, h1, hw1⟩ := h.compile hv hb tracer
  have hwrite : Job.writeText (Build.outputPath path) (assemblyFile v) w1 =
      (.ok (), { w1 with files := w.files.put q (.file (assemblyFile v).toUTF8) }) := by
    rw [Job.writeText, hw1, Files.write_of_locate _ hloc hq]
  refine ⟨{ w1 with files := w.files.put q (.file (assemblyFile v).toUTF8) }, ?_, rfl⟩
  rw [Build.compileFile, Job.bind_of_ok hread, Job.bind_of_ok h1]
  exact Job.bind_of_ok hwrite

/-- Any other program is not compiled, and no file changes. -/
theorem compileFile_fails (hread : Check.readProgram path w = (.ok (program (.tuple []) body), w))
    (hb : Every NotBool body) (h : ∀ v, Returns body v → ¬ Integer.Writable v)
    (tracer : Option Tracer) :
    ∃ e w', Build.compileFile routines path Check.readProgram tracer w = (.error e, w') ∧
      w'.files = w.files := by
  obtain ⟨e, w1, h1, hw1⟩ := Lint.compile_fails hb h tracer (w := w)
  exact ⟨e, w1, by rw [Build.compileFile, Job.bind_of_ok hread, Job.bind_of_error h1], hw1⟩

/-- The machine loads an assembly file and exits with its integer. -/
theorem run_assemblyFile (hv : Integer.Writable v) {s : String} (runtime : Datum)
    (hread : w.files.read s = .ok (assemblyFile v).toUTF8) :
    ∃ exe w1, Machine.link s runtime w = (.ok exe, w1) ∧ w1.files = w.files ∧
      ∀ input, ∃ w2, Machine.run exe input w1 = (.ok (.int v), w2) ∧ w2.files = w.files := by
  have htext : Job.readText s w = (.ok (assemblyFile v).toList, w) := by
    rw [Job.readText_apply, hread]
    show (textOf (assemblyFile v).toUTF8, w) = _
    rw [textOf, decodeText?_assemblyFile]
  refine ⟨s ++ ".out", { w with loaded := (assemblyFile v).toList }, ?_, rfl, fun input => ?_⟩
  · rw [Machine.link, Job.bind_of_ok htext]; rfl
  · obtain ⟨w2, h2, hl, hw2⟩ : ∃ w2, Job.noteCall (.run (s ++ ".out") input)
        { w with loaded := (assemblyFile v).toList } = (.ok (), w2) ∧
        w2.loaded = (assemblyFile v).toList ∧ w2.files = w.files := ⟨_, rfl, rfl, rfl⟩
    have hcode : Job.lift (Machine.exitCode w2.loaded) w2 = (.ok v, w2) := by
      rw [hl, assemblyFile, Machine.exitCode_assembly hv, Job.lift_apply]
    refine ⟨w2, ?_, hw2⟩
    rw [Machine.run, Job.bind_of_ok h2, Job.bind_of_ok (Job.get_apply w2), Job.bind_of_ok hcode]
    rfl

/-- Tests on the simulated machine. -/
def onMachine (dir : String) (runtime : Datum) (tracer : Option Tracer) : Options :=
  ⟨Machine.backend, dir, runtime, Check.readProgram, tracer⟩

theorem runTest_of_ok {o : Options} {t executable : String} {w w' : World} {code : Datum}
    (h : o.backend.run executable (Family.inputPath t o.testsDir) w = (.ok code, w')) :
    runTest o t executable w = (.ok code, w') := by
  rw [runTest, h]

theorem runTest_of_error {o : Options} {t executable : String} {w w' : World} {e : Failure}
    (h : o.backend.run executable (Family.inputPath t o.testsDir) w = (.error e, w')) :
    runTest o t executable w =
      (.error (if e.isSystem then .report (.exitCode (.str t) .null) else e), w') := by
  rw [runTest, h]

theorem test_onMachine (compiler t dir : String) (runtime : Datum) (tracer : Option Tracer) :
    test compiler routines (onMachine dir runtime tracer) t = (do
      let assembly ← Build.compileFile routines (Family.sourcePath t dir) Check.readProgram tracer
      let executable ← Machine.link assembly runtime
      let code ← runTest (onMachine dir runtime tracer) t executable
      if code.same (.int successCode) then Job.print (compiler ++ " passed compiler test " ++ t)
      else throw (.report (.exitCode (.str t) code))) := rfl

/-- A test whose body is a constant expression exits with its value. -/
theorem test_returns {t dir : String} {runtime : Datum} {tracer : Option Tracer}
    (compiler : String)
    (hread : Check.readProgram (Family.sourcePath t dir) w = (.ok (program (.tuple []) body), w))
    (h : Returns body v) (hv : Integer.Writable v) (hb : body.Writable)
    (hloc : w.files.locate (Build.outputPath (Family.sourcePath t dir)) = .ok q)
    (hstand : Files.standing? q = none) (hq : w.files.node? q ≠ some .dir) :
    ∃ w', test compiler routines (onMachine dir runtime tracer) t w =
        (if v = successCode then .ok () else .error (.report (.exitCode (.str t) (.int v))), w') ∧
      w'.files = w.files.put q (.file (assemblyFile v).toUTF8) := by
  obtain ⟨w1, h1, hw1⟩ := compileFile_writes hread h hv hb hloc hq tracer
  have hread' : w1.files.read (Build.outputPath (Family.sourcePath t dir)) =
      .ok (assemblyFile v).toUTF8 := by
    rw [hw1]; exact Files.read_put hloc hstand hq _
  obtain ⟨exe, w2, h2, -, hrun⟩ := run_assemblyFile hv runtime hread'
  obtain ⟨w3, h3, hw3⟩ := hrun (Family.inputPath t dir)
  have h3' : runTest (onMachine dir runtime tracer) t exe w2 = (.ok (.int v), w3) := runTest_of_ok h3
  rw [test_onMachine, Job.bind_of_ok h1, Job.bind_of_ok h2, Job.bind_of_ok h3']
  by_cases hv42 : v = successCode
  · rw [if_pos (Datum.same_int.2 hv42), if_pos hv42]
    exact ⟨_, rfl, hw3.trans hw1⟩
  · rw [if_neg fun hs => hv42 (Datum.same_int.1 hs), if_neg hv42]
    exact ⟨w3, rfl, hw3.trans hw1⟩

/-! ## A batch -/

/-- A test that fails ends the batch, whatever tests come after it. -/
theorem runAll_append_fails {compiler : String} {passes : List (Pass Routine)} {o : Options}
    {t : String} {e : Failure} {w' : World} : ∀ {ts names : List String} {w w₁ : World},
    runAll compiler passes o ts w = (.ok names, w₁) → test compiler passes o t w₁ = (.error e, w') →
    ∀ rest, runAll compiler passes o (ts ++ t :: rest) w = (.error e, w')
  | [], _, _, _, h1, h2, _ => by
    cases h1
    exact Job.bind_of_error h2
  | s :: ts, _, _, _, h1, h2, rest => by
    obtain ⟨_, w₂, hs, h1⟩ := Job.exists_of_bind_ok h1
    obtain ⟨names, w₃, hts, h1⟩ := Job.exists_of_bind_ok h1
    cases h1
    rw [List.cons_append, runAll, Job.bind_of_ok hs]
    exact Job.bind_of_error (runAll_append_fails hts h2 rest)

/-- Tests of a family with readable sources, their bodies without booleans. No directory stands
where their assembly is written or their input is read. -/
structure Sources (family dir : String) (indices : List Int) (body : Int → Datum) (w : World) :
    Prop where
  reads : ∀ i ∈ indices, (Check.readProgram (Family.sourcePath (nameOf family i) dir) w).1 =
    .ok (program (.tuple []) (body i))
  noBool : ∀ i ∈ indices, Every NotBool (body i)
  noAssemblyDir : ∀ i ∈ indices,
    w.files.isDir (Build.outputPath (Family.sourcePath (nameOf family i) dir)) = false
  noInputDir : ∀ i ∈ indices, w.files.isDir (Family.inputPath (nameOf family i) dir) = false

/-- The places of the assembly files of some tests. -/
def AssemblyPlace (fs : Files) (family dir : String) (is : List Int) (q : Place) : Prop :=
  ∃ j ∈ is, fs.locate (filePath family dir j ".s") = .ok q

variable {family dir : String} {indices is : List Int} {bodies : Int → Datum} {w' : World} {i : Int}

theorem Sources.exists_place (h : Sources family dir indices bodies w) (hi : i ∈ indices) :
    ∃ p content, w.files.locate (filePath family dir i ".rkt") = .ok p ∧
      w.files.node? p = some (.file content) := by
  obtain ⟨content, -, hread, -⟩ := Check.exists_of_readProgram (h.reads i hi)
  rw [Family.sourcePath_nameOf] at hread
  obtain ⟨p, hp, hn⟩ := Files.read_eq_ok_iff.1 hread
  exact ⟨p, content, hp, hn⟩

theorem Sources.body_writable (h : Sources family dir indices bodies w) (hi : i ∈ indices) :
    (bodies i).Writable := by
  obtain ⟨-, text, -, htext⟩ := Check.exists_of_readProgram (h.reads i hi)
  exact Check.writable_of_readProgramText htext

/-- Tests read the same sources after assembly files of others were written. -/
theorem Sources.readProgram (h : Sources family dir indices bodies w) (hi : i ∈ indices)
    (hw : Files.Rewritten (AssemblyPlace w.files family dir is) w.files w'.files) :
    Check.readProgram (Family.sourcePath (nameOf family i) dir) w' =
      (.ok (program (.tuple []) (bodies i)), w') := by
  obtain ⟨p, content, hp, hn⟩ := h.exists_place hi
  have hplace : ¬ AssemblyPlace w.files family dir is p := by
    rintro ⟨j, -, hj⟩
    exact Family.place_ne Family.isTail_s Family.isTail_rkt Family.fileTail_s_ne_rkt hj hp rfl
  have hread := Files.read_congr hp (Files.locate_of_hasDirs hw.dirs hp) (hw.same p hplace)
  have h₀ := h.reads i hi
  rw [Check.readProgram_apply, Family.sourcePath_nameOf] at h₀ ⊢
  rw [hread]
  exact Prod.ext h₀ rfl

/-- The assembly file of a test can be written. -/
theorem Sources.exists_assembly (h : Sources family dir indices bodies w) (hi : i ∈ indices) :
    ∃ q, w.files.locate (filePath family dir i ".s") = .ok q ∧ Files.standing? q = none ∧
      w.files.node? q ≠ some .dir := by
  obtain ⟨p, content, hp, -⟩ := h.exists_place hi
  obtain ⟨q, hq, hs⟩ := Family.exists_locate_assembly hp
  have hd := h.noAssemblyDir i hi
  rw [Family.sourcePath_nameOf, Family.outputPath_filePath] at hd
  exact ⟨q, hq, hs, Files.isDir_of_locate hq hd⟩

variable (compiler : String) (runtime : Datum) (tracer : Option Tracer)

/-- One test of a batch: its body is constant, and only its assembly file changes. -/
theorem Sources.test_eq (h : Sources family dir indices bodies w) (hi : i ∈ indices) (his : i ∈ is)
    (hw : Files.Rewritten (AssemblyPlace w.files family dir is) w.files w'.files)
    (hr : Returns (bodies i) v) (hv : Integer.Writable v) :
    ∃ w₁, test compiler routines (onMachine dir runtime tracer) (nameOf family i) w' =
        (if v = successCode then .ok ()
          else .error (.report (.exitCode (.str (nameOf family i)) (.int v))), w₁) ∧
      Files.Rewritten (AssemblyPlace w.files family dir is) w.files w₁.files := by
  obtain ⟨q, hq, hs, hn⟩ := h.exists_assembly hi
  have hn' : w'.files.node? q ≠ some .dir := fun hd => hn (hw.noDirs q hd)
  have hloc : w'.files.locate (Build.outputPath (Family.sourcePath (nameOf family i) dir)) = .ok q := by
    rw [Family.sourcePath_nameOf, Family.outputPath_filePath]
    exact Files.locate_of_hasDirs hw.dirs hq
  obtain ⟨w₁, h₁, hw₁⟩ := test_returns compiler (h.readProgram hi hw) hr hv (h.body_writable hi)
    hloc hs hn'
  exact ⟨w₁, h₁, hw₁ ▸ hw.put ⟨i, his, hq⟩ hs hn' _⟩

/-- Tests of value 42 pass. -/
theorem Sources.runAll_passes (h : Sources family dir indices bodies w) :
    ∀ {todo : List Int} {w' : World},
    (∀ j ∈ todo, j ∈ indices ∧ j ∈ is ∧ Returns (bodies j) successCode) →
    Files.Rewritten (AssemblyPlace w.files family dir is) w.files w'.files →
    ∃ w₁, runAll compiler routines (onMachine dir runtime tracer) (todo.map (nameOf family)) w' =
        (.ok (todo.map (nameOf family)), w₁) ∧
      Files.Rewritten (AssemblyPlace w.files family dir is) w.files w₁.files
  | [], w', _, hw => ⟨w', rfl, hw⟩
  | j :: todo, w', htodo, hw => by
    obtain ⟨⟨hj, his, hr⟩, htodo⟩ := List.forall_mem_cons.1 htodo
    obtain ⟨w₁, h₁, hw₁⟩ := h.test_eq compiler runtime tracer hj his hw hr (by decide +kernel)
    rw [if_pos rfl] at h₁
    obtain ⟨w₂, h₂, hw₂⟩ := runAll_passes h htodo hw₁
    exact ⟨w₂, by rw [List.map_cons, runAll, Job.bind_of_ok h₁, Job.bind_of_ok h₂]; rfl, hw₂⟩

theorem Sources.runFamily_eq (h : Sources family dir indices bodies w) (o : Options) :
    runFamily compiler routines family (.list (indices.map .int)) o w =
      runAll compiler routines o (indices.map (nameOf family)) w := by
  have hwritable : ∀ i ∈ indices, Integer.Writable i := by
    intro i hi
    obtain ⟨p, -, hp, -⟩ := h.exists_place hi
    exact Family.writable_of_locate Family.isTail_rkt hp
  rw [runFamily, Family.expand_ints family hwritable]
  exact Job.bind_of_ok rfl

/-- The check of the passes finds the value of a constant expression. -/
theorem Sources.check_run (h : Sources family dir indices bodies w) (hi : i ∈ indices)
    (hclock : w.clock.Shows routines.length) (hr : Returns (bodies i) v) (hv : Integer.Writable v) :
    (Check.run compiler routines (nameOf family i)
      { Check.Options.plain with testsDir := dir, tracer := tracer } w).1 = .ok (.int v) := by
  have hresults : ∀ r ∈ Check.results none (Lint.stepsOf (bodies i) v), r = .int v := by
    simp [Check.results, Lint.stepsOf]
  have hcheck : Check.PureCheck routines (nameOf family i)
      { Check.Options.plain with testsDir := dir, tracer := tracer } w
      (program (.tuple []) (bodies i)) none (Lint.stepsOf (bodies i) v) :=
    { reads := h.readProgram hi (Files.Rewritten.refl (AssemblyPlace w.files family dir []) w.files)
      types := fun _ hc => by cases hc
      interprets := .none
      transforms := hr.steps hv (h.noInputDir i hi)
      clock := hclock
      source_writable := Lint.writable_program (h.body_writable hi)
      outputs_writable := Lint.writable_stepsOf hv (h.body_writable hi)
      results_writable := fun _ r hmem => hresults r hmem ▸ Datum.writable_int hv
      comparable := fun r hmem => hresults r hmem ▸ Datum.comparable_int v }
  have hsteady : Check.Steady (Check.results none (Lint.stepsOf (bodies i) v)) := by
    refine Check.steady_of_same fun a ha b hb => ?_
    rw [hresults a ha, hresults b hb]
    exact Datum.same_int.2 rfl
  obtain ⟨w₁, h₁⟩ := hcheck.run_steady compiler hsteady
  rw [h₁]; rfl

/-- The assembly file of a test that differs from others stands elsewhere than theirs. -/
theorem Sources.not_assemblyPlace (h : Sources family dir indices bodies w) (hi : i ∈ indices)
    (his : ∀ j ∈ is, j ∈ indices ∧ bodies j ≠ bodies i)
    (hq : w.files.locate (filePath family dir i ".s") = .ok q) :
    ¬ AssemblyPlace w.files family dir is q := by
  rintro ⟨j, hj, hjq⟩
  obtain ⟨hj, hne⟩ := his j hj
  refine Family.place_ne Family.isTail_s Family.isTail_s (fun htail => hne ?_) hjq hq rfl
  -- tests of one name have one source
  have hdec : Integer.decimal j = Integer.decimal i :=
    String.toList_inj.1 (List.append_cancel_right htail)
  have hj' := h.reads j hj
  rw [nameOf, hdec, ← nameOf, h.reads i hi] at hj'
  have hprogram := Except.ok.inj hj'
  simp only [program, Datum.seq.injEq, List.cons.injEq, true_and, and_true] at hprogram
  exact hprogram.symm

/-- A test without a value that can be written ends the batch when it is compiled; its assembly file
stays as it was. -/
theorem Sources.runAll_fails (h : Sources family dir indices bodies w) {done rest : List Int}
    (hsplit : indices = done ++ i :: rest) (hdone : ∀ j ∈ done, Returns (bodies j) successCode)
    (hno : ∀ v, Returns (bodies i) v → ¬ Integer.Writable v) :
    ∃ e w₁ w₂, runAll compiler routines (onMachine dir runtime tracer) (done.map (nameOf family)) w =
        (.ok (done.map (nameOf family)), w₁) ∧
      Build.compileFile routines (Family.sourcePath (nameOf family i) dir) Check.readProgram tracer w₁ =
        (.error e, w₂) ∧
      runAll compiler routines (onMachine dir runtime tracer) (indices.map (nameOf family)) w =
        (.error e, w₂) ∧
      w₂.files.read (Build.outputPath (Family.sourcePath (nameOf family i) dir)) =
        w.files.read (Build.outputPath (Family.sourcePath (nameOf family i) dir)) := by
  have hi : i ∈ indices := by rw [hsplit]; simp
  have hdone' : ∀ j ∈ done, j ∈ indices ∧ j ∈ done ∧ Returns (bodies j) successCode := fun j hj =>
    ⟨by rw [hsplit]; simp [hj], hj, hdone j hj⟩
  obtain ⟨w₁, h₁, hw₁⟩ := h.runAll_passes compiler runtime tracer hdone'
    (Files.Rewritten.refl (AssemblyPlace w.files family dir done) w.files)
  obtain ⟨e, w₂, h₂, hw₂⟩ := compileFile_fails (h.readProgram hi hw₁) (h.noBool i hi) hno tracer
  have htest : test compiler routines (onMachine dir runtime tracer) (nameOf family i) w₁ =
      (.error e, w₂) := by
    rw [test_onMachine]; exact Job.bind_of_error h₂
  refine ⟨e, w₁, w₂, h₁, h₂, ?_, ?_⟩
  · rw [hsplit, List.map_append, List.map_cons]
    exact runAll_append_fails h₁ htest _
  · obtain ⟨q, hq, -, -⟩ := h.exists_assembly hi
    -- a test before it has another body, for that one has the value 42
    have hother : ∀ j ∈ done, j ∈ indices ∧ bodies j ≠ bodies i := fun j hj => by
      refine ⟨(hdone' j hj).1, fun heq => hno successCode (heq ▸ hdone j hj) (by decide +kernel)⟩
    rw [Family.sourcePath_nameOf, Family.outputPath_filePath, hw₂]
    exact Files.read_congr hq (Files.locate_of_hasDirs hw₁.dirs hq)
      (hw₁.same q (h.not_assemblyPlace hi hother hq))

/-- A test of another value ends the batch with its exit code. -/
theorem Sources.runAll_exits (h : Sources family dir indices bodies w) {done rest : List Int}
    (hsplit : indices = done ++ i :: rest) (hdone : ∀ j ∈ done, Returns (bodies j) successCode)
    (hr : Returns (bodies i) v) (hv : Integer.Writable v) (hne : v ≠ successCode) :
    ∃ w₂, runAll compiler routines (onMachine dir runtime tracer) (indices.map (nameOf family)) w =
      (.error (.report (.exitCode (.str (nameOf family i)) (.int v))), w₂) := by
  have hi : i ∈ indices := by rw [hsplit]; simp
  have hdone' : ∀ j ∈ done, j ∈ indices ∧ j ∈ indices ∧ Returns (bodies j) successCode := by
    intro j hj
    have hj' : j ∈ indices := by rw [hsplit]; simp [hj]
    exact ⟨hj', hj', hdone j hj⟩
  obtain ⟨w₁, h₁, hw₁⟩ := h.runAll_passes compiler runtime tracer hdone'
    (Files.Rewritten.refl (AssemblyPlace w.files family dir indices) w.files)
  obtain ⟨w₂, h₂, -⟩ := h.test_eq compiler runtime tracer hi hi hw₁ hr hv
  rw [if_neg hne] at h₂
  refine ⟨w₂, ?_⟩
  rw [hsplit, List.map_append, List.map_cons]
  exact runAll_append_fails h₁ h₂ _

/-- The compiler for the tiny language is correct from end to end. A batch on the simulated machine
returns all names exactly if every body is a constant expression of value 42. Otherwise the first
test that is not such ends it. If its body is a constant expression of another value, that value is
the exit code in the report, and it is what the check of the passes returns. If its body has no
value that can be written, compiling it fails and its assembly file is not written. -/
theorem runFamily_iff_all_return (family dir : String) {indices : List Int} {bodies : Int → Datum}
    {w : World} (h : Sources family dir indices bodies w) :
    ((runFamily compiler routines family (.list (indices.map .int))
        (onMachine dir runtime tracer) w).1 = .ok (indices.map (nameOf family)) ↔
      ∀ i ∈ indices, Returns (bodies i) 42) ∧
    ∀ done i rest, indices = done ++ i :: rest → (∀ j ∈ done, Returns (bodies j) 42) →
      ¬ Returns (bodies i) 42 →
      (∀ v, Returns (bodies i) v → Integer.Writable v →
        (runFamily compiler routines family (.list (indices.map .int))
          (onMachine dir runtime tracer) w).1 =
            .error (.report (.exitCode (.str (nameOf family i)) (.int v))) ∧
        (w.clock.Shows routines.length → (Check.run compiler routines (nameOf family i)
          { Check.Options.plain with testsDir := dir, tracer := tracer } w).1 = .ok (.int v))) ∧
      ((∀ v, Returns (bodies i) v → ¬ Integer.Writable v) → ∃ e w₁ w₂,
        runAll compiler routines (onMachine dir runtime tracer) (done.map (nameOf family)) w =
          (.ok (done.map (nameOf family)), w₁) ∧
        Build.compileFile routines (Family.sourcePath (nameOf family i) dir) Check.readProgram
          tracer w₁ = (.error e, w₂) ∧
        runFamily compiler routines family (.list (indices.map .int))
          (onMachine dir runtime tracer) w = (.error e, w₂) ∧
        w₂.files.read (Build.outputPath (Family.sourcePath (nameOf family i) dir)) =
          w.files.read (Build.outputPath (Family.sourcePath (nameOf family i) dir))) := by
  rw [h.runFamily_eq]
  refine ⟨⟨?_, ?_⟩, ?_⟩
  · intro hrun
    by_contra hall
    obtain ⟨done, i, rest, hsplit, hdone, hi⟩ := Check.exists_first_not hall
    by_cases hval : ∃ v, Returns (bodies i) v ∧ Integer.Writable v
    · obtain ⟨v, hr, hv⟩ := hval
      have hne : v ≠ successCode := by rintro rfl; exact hi hr
      obtain ⟨w₂, h₂⟩ := h.runAll_exits compiler runtime tracer hsplit hdone hr hv hne
      rw [h₂] at hrun; cases hrun
    · have hno : ∀ v, Returns (bodies i) v → ¬ Integer.Writable v := fun v hr hv => hval ⟨v, hr, hv⟩
      obtain ⟨e, w₁, w₂, -, -, h₂, -⟩ := h.runAll_fails compiler runtime tracer hsplit hdone hno
      rw [h₂] at hrun; cases hrun
  · intro hall
    obtain ⟨w₁, h₁, -⟩ := h.runAll_passes compiler runtime tracer
      (fun j hj => ⟨hj, hj, hall j hj⟩)
      (Files.Rewritten.refl (AssemblyPlace w.files family dir indices) w.files)
    rw [h₁]
  · intro done i rest hsplit hdone hi
    refine ⟨fun v hr hv => ⟨?_, ?_⟩, h.runAll_fails compiler runtime tracer hsplit hdone⟩
    · have hne : v ≠ successCode := by rintro rfl; exact hi hr
      obtain ⟨w₂, h₂⟩ := h.runAll_exits compiler runtime tracer hsplit hdone hr hv hne
      rw [h₂]
    · intro hclock
      exact h.check_run compiler tracer (by rw [hsplit]; simp) hclock hr hv

/-- Three sources: of value 42, of value -7, and one that reads. -/
def sampleFiles : Files :=
  ⟨[(["t"], .dir), (["t", "f_2.rkt"], .file "(- 50 8)".toUTF8),
    (["t", "f_-1.rkt"], .file "#lang racket\n[+ 1 (- 8)]".toUTF8),
    (["t", "f_3.rkt"], .file "(read)".toUTF8)]⟩

def sampleBody (i : Int) : Datum :=
  if i = 2 then .tuple [.str "-", .int 50, .int 8]
  else if i = -1 then .tuple [.str "+", .int 1, .tuple [.str "-", .int 8]]
  else .tuple [.str "read"]

theorem runFamily_sample : Sources "f" "t" [2, -1, 3] sampleBody (World.start sampleFiles) ∧
    (runFamily "rc" routines "f" (.list ([2, -1, 3].map .int))
      (onMachine "t" (.str "runtime.o") none) (World.start sampleFiles)).1 =
        .error (.report (.exitCode (.str (nameOf "f" (-1))) (.int (-7)))) ∧
    (Check.run "rc" routines (nameOf "f" (-1)) { Check.Options.plain with testsDir := "t" }
      (World.start sampleFiles)).1 = .ok (.int (-7)) := by
  have hread : ∀ (path text : String) (ts : List Sexp.Token) (d : Datum),
      sampleFiles.read path = .ok text.toUTF8 → '\r' ∉ text.toList →
      Sexp.tokenize (Sexp.dropLangLines text.toList) = ts → Sexp.readOne ts = .ok (d, []) →
      (Check.readProgram path (World.start sampleFiles)).1 = .ok (program (.tuple []) d) := by
    intro path text ts d hr hcr hts hd
    rw [Check.readProgram_apply]
    show (sampleFiles.read path >>= textOf >>= Check.programOf path) = _
    rw [hr]
    show (textOf text.toUTF8 >>= Check.programOf path) = _
    rw [textOf, decodeText?_toUTF8 hcr]
    show Check.programOf path text.toList = _
    rw [Check.programOf, Sexp.readProgramText, Sexp.readAll, hts, Sexp.readTokens_of_readOne hd,
      Sexp.readTokens]
    rfl
  have h : Sources "f" "t" [2, -1, 3] sampleBody (World.start sampleFiles) :=
    { reads := by
        simp only [List.forall_mem_cons]
        refine ⟨hread _ "(- 50 8)" [.opening .round, .atom ['-'], .atom ['5', '0'], .atom ['8'],
            .closing .round] _ rfl (by decide) (by decide +kernel) rfl,
          hread _ "#lang racket\n[+ 1 (- 8)]" [.opening .square, .atom ['+'], .atom ['1'],
            .opening .round, .atom ['-'], .atom ['8'], .closing .round, .closing .square] _ rfl
            (by decide) (by decide +kernel) rfl,
          hread _ "(read)" [.opening .round, .atom ['r', 'e', 'a', 'd'], .closing .round] _ rfl
            (by decide) (by decide +kernel) rfl, by simp⟩
      noBool := by decide +kernel
      noAssemblyDir := by decide +kernel
      noInputDir := by decide +kernel }
  have hclock : (World.start sampleFiles).clock.Shows routines.length := by
    refine ⟨?_, ?_, ?_, trivial⟩ <;> decide +kernel
  have hfirst : ∀ j ∈ [2], Returns (sampleBody j) 42 := by
    intro j hj
    cases List.mem_singleton.1 hj
    exact ⟨.sub (.int 50) (.int 8), fun _ => rfl⟩
  have hsecond : Returns (sampleBody (-1)) (-7) :=
    ⟨.add (.int 1) (.neg (.int 8)), fun _ => rfl⟩
  have hne : ¬ Returns (sampleBody (-1)) 42 := fun h42 => by
    have := (h42.2 default).symm.trans (hsecond.2 default)
    cases this
  have hrun := (runFamily_iff_all_return "rc" (.str "runtime.o") none "f" "t" h).2
    [2] (-1) [3] rfl hfirst hne
  obtain ⟨hexit, hcheck⟩ := hrun.1 (-7) hsecond (by decide +kernel)
  exact ⟨h, hexit, hcheck hclock⟩

end Batch

end PassCheck
