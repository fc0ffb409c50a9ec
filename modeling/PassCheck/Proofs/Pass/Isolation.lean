/-
Each interpreter of a check has the input file for itself. Whatever interpreters before it have
read, it starts at the beginning of the file, so its result is fixed by its program and the content
of the file; and no check, however it ends, touches the standard input it was started with. Passes
may even change the file, as long as they do not remove it.
-/
import PassCheck.Proofs.Pass.Source
import PassCheck.Recipe

namespace PassCheck.Check

open Job (Spares)

variable {path : String} {content : ByteArray} {w : World}

/-! ## Running on the input file -/

/-- An interpreter on a program has a result that depends on the input only, and does not remove the
file. -/
structure ReadsInput (path : String) (job : Job Datum) : Prop where
  hasFile : ∀ w, w.HasFile path → (job w).2.HasFile path
  result : ∀ w w', w.input = w'.input → (job w).1 = (job w').1

theorem readsInput_of_onInput {job : Job Datum} (h : Job.OnInput job) :
    ReadsInput path job :=
  ⟨fun _ hw => h.hasFile hw, fun _ _ hw => h.result_eq hw⟩

/-- What an interpreter finds when it reads a content from its beginning. -/
def answer (content : ByteArray) (i : Routine) (program : Datum) : Except Failure Datum :=
  (i [program] ((World.start .empty).withInput (.ofBytes content))).1

/-- An interpreter that takes its results from its program and the content of the file, whatever the
input is. -/
def fromFile (path : String) (i : Routine) : Routine
  | [program] => fun w =>
    (w.files.read path >>= fun content => answer content i program, (i [program] w).2)
  | ds => i ds

theorem ReadsInput.runInterpreter_eq {i : Routine} {program : Datum}
    (h : ReadsInput path (i [program])) (hw : w.Holds path content) :
    runInterpreter i program (some path) w =
      (answer content i program,
        (i [program] (w.withInput (.ofBytes content))).2.withInput w.input) := by
  have hr : (i [program] (w.withInput (.ofBytes content))).1 = answer content i program :=
    h.result _ _ rfl
  rw [runInterpreter_of_holds i program hw, ← hr]; rfl

theorem ReadsInput.runInterpreter_fromFile {i : Routine} {program : Datum}
    (h : ReadsInput path (i [program])) (hw : w.HasFile path) :
    runInterpreter i program (some path) w =
      runInterpreter (fromFile path i) program (some path) w := by
  obtain ⟨content, hc⟩ := hw
  have hanswer : (w.files.read path >>= fun content => answer content i program) =
      answer content i program := by
    rw [hc]; rfl
  rw [h.runInterpreter_eq hc, runInterpreter_of_holds _ _ hc, ← hanswer]; rfl

theorem ReadsInput.spares {i : Routine} {program : Datum}
    (h : ReadsInput path (i [program])) :
    Spares path (runInterpreter i program (some path)) := by
  constructor
  · rintro w ⟨content, hc⟩
    rw [runInterpreter_of_holds i program hc]
    exact (Job.spares_withInput (.ofBytes content) h.hasFile).hasFile w ⟨content, hc⟩
  · rintro w ⟨content, hc⟩ input
    have hc' : (w.withInput input).Holds path content := hc
    rw [runInterpreter_of_holds i program hc, runInterpreter_of_holds i program hc']
    exact (Job.spares_withInput (.ofBytes content) h.hasFile).input w ⟨content, hc⟩ input

/-! ## One pass -/

/-- A pass whose transform has nothing to do with standard input, and whose interpreter depends on
its program and the input only. -/
structure Separate (path : String) (p : Pass Routine) : Prop where
  transform : ∀ program, Spares path (p.transform [program])
  interpreter : ∀ i ∈ p.interpreter, ∀ program, ReadsInput path (i [program])

/-- The pass with an interpreter that takes its results from the file. -/
def passFromFile (path : String) (p : Pass Routine) : Pass Routine :=
  { p with interpreter := p.interpreter.map (fromFile path) }

theorem Separate.spares_runTransform {p : Pass Routine} (h : Separate path p)
    (timed : Bool) (program : Datum) : Spares path (runTransform timed p program) := by
  unfold runTransform
  refine Job.spares_readClock.bind fun start => (h.transform program).bind fun output => ?_
  cases timed with
  | false => exact Job.spares_pure output
  | true =>
    exact Job.spares_readClock.bind fun stop => (Job.spares_noteLap _).bind fun _ =>
      Job.spares_pure output

theorem spares_blame (compiler : String) (p : Pass Routine) (expected actual program : Datum) :
    Spares path (blame compiler p expected actual program) :=
  (Job.spares_printErr _).bind fun _ => (Job.spares_written _).bind fun text =>
    (Job.spares_printErr text).bind fun _ => Job.spares_throw _

theorem spares_compare (compiler : String) (p : Pass Routine) (before : Option Datum)
    (result program : Datum) : Spares path (compare compiler p before result program) := by
  unfold compare
  split
  · exact Job.spares_pure ()
  · split
    · exact Job.spares_pure ()
    · exact spares_blame compiler p _ result program

/-! ## A run of passes -/

theorem spares_chain (compiler : String) (t : Tracer) (timed : Bool) :
    ∀ {ps : List (Pass Routine)}, (∀ p ∈ ps, Separate path p) →
    ∀ program last, Spares path (chain compiler t timed path ps program last)
  | [], _, _, last => Job.spares_pure last
  | p :: ps, h, program, last => by
    obtain ⟨hp, hps⟩ := List.forall_mem_cons.1 h
    unfold chain
    refine (hp.spares_runTransform timed program).bind fun output =>
      (t.spares_trace _ output).bind fun _ => ?_
    cases hi : p.interpreter with
    | none => exact spares_chain compiler t timed hps output last
    | some i =>
      exact (hp.interpreter i hi output).spares.bind fun found => (t.spares_trace _ found).bind
        fun _ => (spares_compare compiler p last found output).bind fun _ =>
          spares_chain compiler t timed hps output (some found)

/-- The interpreters may take their results from the file. -/
theorem chain_fromFile (compiler : String) (t : Tracer) (timed : Bool) :
    ∀ {ps : List (Pass Routine)}, (∀ p ∈ ps, Separate path p) →
    ∀ program last {w : World}, w.HasFile path →
    chain compiler t timed path ps program last w =
      chain compiler t timed path (ps.map (passFromFile path)) program last w
  | [], _, _, _, _, _ => rfl
  | p :: ps, h, program, last, w, hw => by
    obtain ⟨hp, hps⟩ := List.forall_mem_cons.1 h
    rw [List.map_cons, chain, chain]
    refine (hp.spares_runTransform timed program).bind_eq (fun _ _ => rfl) (fun output w hw => ?_) hw
    refine (t.spares_trace _ output).bind_eq (fun _ _ => rfl) (fun _ w hw => ?_) hw
    cases hi : p.interpreter with
    | none =>
      simp only [passFromFile, hi, Option.map_none]
      exact chain_fromFile compiler t timed hps output last hw
    | some i =>
      simp only [passFromFile, hi, Option.map_some]
      have hr := hp.interpreter i hi output
      refine hr.spares.bind_eq (fun w hw => hr.runInterpreter_fromFile hw) (fun found w hw => ?_) hw
      refine (t.spares_trace _ found).bind_eq (fun _ _ => rfl) (fun _ w hw => ?_) hw
      refine (spares_compare compiler p last found output).bind_eq (fun _ _ => rfl)
        (fun _ w hw => ?_) hw
      exact chain_fromFile compiler t timed hps output (some found) hw

/-! ## A check -/

theorem spares_readProgram (source : String) : Spares path (readProgram source) := by
  refine ⟨fun w hw => ?_, fun w _ input => ?_⟩
  · rw [readProgram_apply]; exact hw
  · rw [readProgram_apply, readProgram_apply]

/-- A check whose reader, type checker and transforms have nothing to do with standard input, and
whose interpreters depend on their programs and the input only. -/
structure Isolated (path : String) (passes : List (Pass Routine)) (o : Options) : Prop where
  reader : ∀ source, Spares path (o.reader source)
  checker : ∀ c ∈ o.typeChecker, ∀ program, Spares path (c [program])
  initial : ∀ i ∈ o.initialInterpreter, ∀ program, ReadsInput path (i [program])
  passes : ∀ p ∈ passes, Separate path p

def Options.fromFile (path : String) (o : Options) : Options :=
  { o with initialInterpreter := o.initialInterpreter.map (Check.fromFile path) }

section

variable {passes : List (Pass Routine)} {test : String} {o : Options}

theorem spares_checkType {checker : Option Routine} {program : Datum}
    (h : ∀ c ∈ checker, Spares path (c [program])) : Spares path (checkType checker program) := by
  cases checker with
  | none => exact Job.spares_pure ()
  | some c => exact (h c rfl).bind fun _ => Job.spares_pure ()

theorem spares_initialResult (t : Tracer) {interp : Option Routine} {program : Datum}
    (h : ∀ i ∈ interp, ReadsInput path (i [program])) :
    Spares path (initialResult t interp path program) := by
  cases interp with
  | none => exact Job.spares_pure none
  | some i =>
    exact (h i rfl).spares.bind fun result => (t.spares_trace _ result).bind fun _ =>
      Job.spares_pure (some result)

theorem initialResult_fromFile (t : Tracer) {interp : Option Routine} {program : Datum}
    (h : ∀ i ∈ interp, ReadsInput path (i [program])) (hw : w.HasFile path) :
    initialResult t interp path program w =
      initialResult t (interp.map (fromFile path)) path program w := by
  cases interp with
  | none => rfl
  | some i =>
    exact (h i rfl).spares.bind_eq (fun w hw => (h i rfl).runInterpreter_fromFile hw)
      (fun _ _ _ => rfl) hw

theorem Isolated.spares_run (compiler : String)
    (h : Isolated (Family.inputPath test o.testsDir) passes o) :
    Spares (Family.inputPath test o.testsDir) (run compiler passes test o) :=
  (Tracer.spares_choose o.tracer).bind fun t => (h.reader _).bind fun program =>
    (t.spares_trace _ program).bind fun _ => (spares_checkType fun c hc => h.checker c hc _).bind
      fun _ => (spares_initialResult t fun i hi => h.initial i hi _).bind fun last =>
        (spares_chain compiler t o.timed h.passes program last).bind fun result =>
          Job.spares_pure (result.getD .null)

theorem Isolated.run_fromFile (compiler : String)
    (h : Isolated (Family.inputPath test o.testsDir) passes o)
    (hw : w.HasFile (Family.inputPath test o.testsDir)) :
    run compiler passes test o w =
      run compiler (passes.map (passFromFile (Family.inputPath test o.testsDir))) test
        (o.fromFile (Family.inputPath test o.testsDir)) w := by
  refine (Tracer.spares_choose o.tracer).bind_eq (fun _ _ => rfl) (fun t w hw => ?_) hw
  refine (h.reader _).bind_eq (fun _ _ => rfl) (fun program w hw => ?_) hw
  refine (t.spares_trace _ program).bind_eq (fun _ _ => rfl) (fun _ w hw => ?_) hw
  refine (spares_checkType fun c hc => h.checker c hc _).bind_eq (fun _ _ => rfl)
    (fun _ w hw => ?_) hw
  have hinitial : ∀ i ∈ o.initialInterpreter, ReadsInput _ (i [program]) :=
    fun i hi => h.initial i hi program
  refine (spares_initialResult t hinitial).bind_eq
    (fun w hw => initialResult_fromFile t hinitial hw) (fun last w hw => ?_) hw
  exact (spares_chain compiler t o.timed h.passes program last).bind_eq
    (fun w hw => chain_fromFile compiler t o.timed h.passes program last hw) (fun _ _ _ => rfl) hw

/-- All interpreters of a check. -/
def interpreters (passes : List (Pass Routine)) (o : Options) : List Routine :=
  o.initialInterpreter.toList ++ passes.filterMap Pass.interpreter

theorem Isolated.readsInput (h : Isolated path passes o) {i : Routine}
    (hi : i ∈ interpreters passes o) (program : Datum) :
    ReadsInput path (i [program]) := by
  rcases List.mem_append.1 hi with hi | hi
  · exact h.initial i (Option.mem_toList.1 hi) program
  · obtain ⟨p, hp, hi⟩ := List.mem_filterMap.1 hi
    exact (h.passes p hp).interpreter i hi program

end

/-- A check isolates the input of its interpreters. Wherever there is an input file, each of them
finds what it finds from the beginning of its content, and hands back the input that was there
before it; so the whole check is the one whose interpreters take their results from the file. The
check itself has nothing to do with the standard input: it does the same for every other input, and
in the end, be it a result or any failure, the input is the one it was started with. -/
theorem run_isolates_input (compiler : String) {passes : List (Pass Routine)} {test : String}
    {o : Options} {w : World} (h : Isolated (Family.inputPath test o.testsDir) passes o)
    (hw : w.HasFile (Family.inputPath test o.testsDir)) :
    (∀ i ∈ interpreters passes o, ∀ program content w',
      w'.Holds (Family.inputPath test o.testsDir) content →
      runInterpreter i program (some (Family.inputPath test o.testsDir)) w' =
        (answer content i program,
          (i [program] (w'.withInput (.ofBytes content))).2.withInput w'.input)) ∧
    run compiler passes test o w =
      run compiler (passes.map (passFromFile (Family.inputPath test o.testsDir))) test
        (o.fromFile (Family.inputPath test o.testsDir)) w ∧
    (∀ input, run compiler passes test o (w.withInput input) =
      ((run compiler passes test o w).1, (run compiler passes test o w).2.withInput input)) ∧
    (run compiler passes test o w).2.input = w.input := by
  have hs := h.spares_run compiler
  refine ⟨fun i hi program content w' hw' => ?_, h.run_fromFile compiler hw, hs.input w hw,
    hs.input_eq hw⟩
  exact (h.readsInput hi program).runInterpreter_eq hw'

/-- Two passes whose interpreters read a line, and one that reads everything. -/
def greedyPasses : List (Pass Routine) :=
  [⟨"a", Recipe.identity.routine, some Recipe.readLine.routine⟩,
    ⟨"b", Recipe.dup.routine, some Recipe.readLine.routine⟩,
    ⟨"c", Recipe.identity.routine, some Recipe.readAll.routine⟩]

def greedyFiles : Files :=
  ⟨[(["tests"], .dir), (["tests", "t_1.rkt"], .file "(read)".toUTF8),
    (["tests", "t_1.in"], .file "7\n8\n".toUTF8)]⟩

theorem run_isolates_input_greedy :
    Isolated (Family.inputPath "t_1" Options.plain.testsDir) greedyPasses Options.plain ∧
    greedyFiles.read (Family.inputPath "t_1" Options.plain.testsDir) = .ok "7\n8\n".toUTF8 ∧
    (run "rc" greedyPasses "t_1" Options.plain
      ((World.start greedyFiles).withInput (.ofText ['9', '\n']))).2.input = .ofText ['9', '\n'] := by
  have h : Isolated (Family.inputPath "t_1" Options.plain.testsDir) greedyPasses Options.plain :=
    { reader := spares_readProgram
      checker := nofun
      initial := nofun
      passes := by
        have hline : ∀ d, Job.OnInput (Recipe.readLine.routine [d]) := fun _ =>
          Job.onInput_readLine.bind fun line => Job.onInput_pure (Datum.str (String.ofList line))
        have hrest : ∀ d, Job.OnInput (Recipe.readAll.routine [d]) := fun _ =>
          Job.onInput_readRest.bind fun rest => Job.onInput_pure (Datum.str (String.ofList rest))
        simp only [greedyPasses, List.forall_mem_cons]
        refine ⟨⟨fun d => Job.spares_pure d, ?_⟩, ⟨fun d => Job.spares_pure (Datum.tuple [d, d]), ?_⟩,
          ⟨fun d => Job.spares_pure d, ?_⟩, nofun⟩
        · rintro i ⟨⟩ d; exact readsInput_of_onInput (hline d)
        · rintro i ⟨⟩ d; exact readsInput_of_onInput (hline d)
        · rintro i ⟨⟩ d; exact readsInput_of_onInput (hrest d) }
  have hread : ((World.start greedyFiles).withInput (.ofText ['9', '\n'])).Holds
      (Family.inputPath "t_1" Options.plain.testsDir) "7\n8\n".toUTF8 := rfl
  exact ⟨h, hread, (run_isolates_input "rc" h ⟨_, hread⟩).2.2.2⟩

end PassCheck.Check
