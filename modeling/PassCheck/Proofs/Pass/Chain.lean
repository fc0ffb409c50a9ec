/-
Checking pass by pass is checking against the first result. A check compares each result with the
one found just before it. For passes that only compute, it blames the first pass whose result
differs from the very first one, and if there is none it returns the last result.

What passes make of a program is a list of steps. On it the check is followed by one induction that
speaks of neighbours only (`chain_agrees`, `chain_blames`); equality of values being an equivalence,
neighbours may be replaced by the first result at the end.
-/
import PassCheck.Build.Compile
import PassCheck.Proofs.Datum.Equality
import PassCheck.Proofs.Pass.Source
import PassCheck.Recipe

namespace PassCheck.Check

/-! ## What passes make of a program -/

/-- In every world with these files a job gives the value, and the world stays as it is. -/
def Gives (files : Files) (job : Job Datum) (d : Datum) : Prop :=
  ∀ w : World, w.files = files → job w = (.ok d, w)

/-- What one pass makes of a program: its output and, if there is an interpreter, the result of the
output. -/
structure Step where
  output : Datum
  result : Option Datum

/-- The steps that passes take from a program on. Transforms and interpreters only compute. -/
inductive Steps (files : Files) (inputPath : String) :
    List (Pass Routine) → Datum → List Step → Prop
  | nil (program : Datum) : Steps files inputPath [] program []
  | cons {p : Pass Routine} {ps : List (Pass Routine)} {program : Datum} {s : Step} {ss : List Step} :
    Gives files (p.transform [program]) s.output →
    Option.Rel (fun i r => Gives files (runInterpreter i s.output (some inputPath)) r) p.interpreter
      s.result →
    Steps files inputPath ps s.output ss → Steps files inputPath (p :: ps) program (s :: ss)

/-- An interpreter that only computes gives its result also when it is run on the input file, if
what stands there can be read. -/
theorem gives_runInterpreter {files : Files} {path : String} {interp : Routine} {program r : Datum}
    (hp : files.present path = true → ∃ content, files.read path = .ok content)
    (h : Gives files (interp [program]) r) :
    Gives files (runInterpreter interp program (some path)) r := by
  intro w hw
  cases hpresent : w.files.present path with
  | false =>
    rw [runInterpreter_of_absent _ _ hpresent]
    exact h w hw
  | true =>
    obtain ⟨content, hc⟩ := hp (hw ▸ hpresent)
    have hholds : w.Holds path content := by rw [World.Holds, hw, hc]
    have hrun := h (w.withInput (.ofBytes content)) hw
    rw [runInterpreter_of_holds _ _ hholds, Job.withInput, hrun]

/-- The results in order, the one of the source program first. -/
def results (initial : Option Datum) (steps : List Step) : List Datum :=
  initial.toList ++ steps.filterMap Step.result

/-- The program after some steps. -/
def outcome (program : Datum) (steps : List Step) : Datum :=
  steps.foldl (fun _ s => s.output) program

variable {files : Files} {inputPath : String} {n : Nat} {w : World}

/-- The steps of passes that are run in two groups. -/
theorem Steps.of_append : ∀ {ps qs : List (Pass Routine)} {ss ts : List Step} {program : Datum},
    Steps files inputPath (ps ++ qs) program (ss ++ ts) → ps.length = ss.length →
    Steps files inputPath ps program ss ∧ Steps files inputPath qs (outcome program ss) ts
  | [], _, [], _, program, h, _ => ⟨.nil program, h⟩
  | _ :: _, _, _ :: _, _, _, .cons h1 h2 h3, hl => by
    obtain ⟨ha, hb⟩ := h3.of_append (Nat.succ.inj hl)
    exact ⟨.cons h1 h2 ha, hb⟩

theorem Steps.length_eq : ∀ {ps : List (Pass Routine)} {program : Datum} {ss : List Step},
    Steps files inputPath ps program ss → ps.length = ss.length
  | _, _, _, .nil _ => rfl
  | _, _, _, .cons _ _ h => congrArg (· + 1) h.length_eq

theorem results_cons_none (last : Option Datum) {s : Step} (ss : List Step) (h : s.result = none) :
    results last (s :: ss) = results last ss := by
  rw [results, List.filterMap_cons_none h, results]

theorem results_cons_some (last : Option Datum) {s : Step} {r : Datum} (ss : List Step)
    (h : s.result = some r) : results last (s :: ss) = last.toList ++ results (some r) ss := by
  rw [results, List.filterMap_cons_some h]; rfl

/-- The readings of the clock for each pass. -/
def readings (timed : Bool) : Nat := if timed then 2 else 1

/-- Everything that a tracer shows of the steps can be written. -/
def Shown (t : Tracer) (steps : List Step) : Prop :=
  t.enabled = true → ∀ s ∈ steps, s.output.Writable ∧ ∀ r, s.result = some r → r.Writable

theorem Shown.head {t : Tracer} {s : Step} {ss : List Step} (h : Shown t (s :: ss)) :
    (t.enabled = true → s.output.Writable) ∧
      ∀ r, s.result = some r → t.enabled = true → r.Writable :=
  ⟨fun he => (h he s List.mem_cons_self).1, fun r hr he => (h he s List.mem_cons_self).2 r hr⟩

theorem Shown.tail {t : Tracer} {s : Step} {ss : List Step} (h : Shown t (s :: ss)) : Shown t ss :=
  fun he x hx => h he x (List.mem_cons_of_mem _ hx)

/-! ## One pass -/

theorem runTransform_ready {timed : Bool} {p : Pass Routine} {program output : Datum}
    (ht : Gives files (p.transform [program]) output) (hw : w.Ready files (n + readings timed)) :
    ∃ w', runTransform timed p program w = (.ok output, w') ∧ w'.Ready files n := by
  cases timed with
  | false =>
    obtain ⟨x, w1, h1, hw1⟩ := Job.readClock_ready hw
    exact ⟨w1, by rw [runTransform, Job.bind_of_ok h1, Job.bind_of_ok (ht w1 hw1.files)]; rfl, hw1⟩
  | true =>
    obtain ⟨x, w1, h1, hw1⟩ := Job.readClock_ready hw
    obtain ⟨y, w2, h2, hw2⟩ := Job.readClock_ready hw1
    refine ⟨{ w2 with laps := w2.laps ++ [⟨p.name, x, y⟩] }, ?_, hw2.files, hw2.clock⟩
    rw [runTransform, Job.bind_of_ok h1, Job.bind_of_ok (ht w1 hw1.files)]
    simp only [if_true]
    rw [Job.bind_of_ok h2]; rfl

/-- One pass of a compilation: the transform is run and its output traced. -/
theorem transformAll_cons (t : Tracer) {p : Pass Routine} {program output : Datum}
    (ht : Gives files (p.transform [program]) output) (hv : t.enabled = true → output.Writable)
    (hw : w.Ready files n) :
    ∃ w', w'.Ready files n ∧ ∀ ps,
      Build.transformAll t (p :: ps) program w = Build.transformAll t ps output w' := by
  obtain ⟨w1, h1, hw1⟩ := t.trace_ready (p.name ++ " output") hv hw
  refine ⟨w1, hw1, fun ps => ?_⟩
  rw [Build.transformAll, Job.bind_of_ok (ht w hw.files), Job.bind_of_ok h1]

/-- Passes that were all run were run one after another. -/
theorem exists_of_transformAll_ok {t : Tracer} {p : Pass Routine} {ps : List (Pass Routine)}
    {program result : Datum} {w' : World}
    (h : Build.transformAll t (p :: ps) program w = (.ok result, w')) :
    ∃ output w₁ w₂, p.transform [program] w = (.ok output, w₁) ∧
      Build.transformAll t ps output w₂ = (.ok result, w') := by
  obtain ⟨output, w₁, hp, h⟩ := Job.exists_of_bind_ok h
  obtain ⟨_, w₂, -, h⟩ := Job.exists_of_bind_ok h
  exact ⟨output, w₁, w₂, hp, h⟩

theorem transformAll_ready (t : Tracer) {ps : List (Pass Routine)} {program : Datum}
    {ss : List Step} (hs : Steps files inputPath ps program ss) (hv : Shown t ss)
    (hw : w.Ready files n) :
    ∃ w', Build.transformAll t ps program w = (.ok (outcome program ss), w') ∧ w'.Ready files n := by
  induction hs generalizing w with
  | nil program => exact ⟨w, rfl, hw⟩
  | cons ht hi hs ih =>
    obtain ⟨w1, hw1, h1⟩ := transformAll_cons t ht hv.head.1 hw
    obtain ⟨w2, h2, hw2⟩ := ih hv.tail hw1
    exact ⟨w2, by rw [h1, h2]; rfl, hw2⟩

theorem compare_agrees (compiler : String) (p : Pass Routine) {last : Option Datum} {r : Datum}
    (program : Datum) (h : ∀ l, last = some l → r.same l = true) (w : World) :
    compare compiler p last r program w = (.ok (), w) := by
  cases last with
  | none => rfl
  | some l => rw [compare, if_pos (h l rfl)]; rfl

theorem compare_blames (compiler : String) (p : Pass Routine) {l r program : Datum}
    (h : r.same l = false) (hp : program.Writable) (w : World) :
    ∃ w', compare compiler p (some l) r program w =
      (.error (.report (.mismatch (.str compiler) (.str p.name) l r program)), w') := by
  obtain ⟨text, ht⟩ := Datum.show?_of_writable hp
  obtain ⟨w1, h1⟩ : ∃ w1, Job.printErr (compiler ++ " failed on pass " ++ p.name ++ ", ast:") w =
    (.ok (), w1) := ⟨_, rfl⟩
  obtain ⟨w2, h2⟩ : ∃ w2, Job.printErr text w1 = (.ok (), w2) := ⟨_, rfl⟩
  refine ⟨w2, ?_⟩
  rw [compare, h, if_neg Bool.false_ne_true, blame, Job.bind_of_ok h1,
    Job.bind_of_ok (Job.written_apply ht w1), Job.bind_of_ok h2, Job.throw_apply]

/-- One round of the check: the transform is run and traced, and a result is compared. -/
theorem chain_cons (compiler : String) (t : Tracer) {timed : Bool} {p : Pass Routine}
    {program : Datum} {s : Step} {ss : List Step}
    (ht : Gives files (p.transform [program]) s.output)
    (hi : Option.Rel (fun i r => Gives files (runInterpreter i s.output (some inputPath)) r)
      p.interpreter s.result)
    (hv : Shown t (s :: ss)) (hw : w.Ready files (n + readings timed)) :
    ∃ w', w'.Ready files n ∧ ∀ ps last, chain compiler t timed inputPath (p :: ps) program last w =
      match s.result with
      | none => chain compiler t timed inputPath ps s.output last w'
      | some r => (compare compiler p last r s.output >>= fun _ =>
          chain compiler t timed inputPath ps s.output (some r)) w' := by
  obtain ⟨w1, h1, hw1⟩ := runTransform_ready ht hw
  obtain ⟨w2, h2, hw2⟩ := t.trace_ready (p.name ++ " output") hv.head.1 hw1
  cases hr : s.result with
  | none =>
    rw [hr] at hi
    cases hp : p.interpreter with
    | some i => rw [hp] at hi; cases hi
    | none =>
      refine ⟨w2, hw2, fun ps last => ?_⟩
      rw [chain, Job.bind_of_ok h1, Job.bind_of_ok h2, hp]
  | some r =>
    rw [hr] at hi
    cases hp : p.interpreter with
    | none => rw [hp] at hi; cases hi
    | some i =>
      rw [hp] at hi
      obtain ⟨w3, h3, hw3⟩ := t.trace_ready (p.name ++ " result") (hv.head.2 r hr) hw2
      have hg : Gives files (runInterpreter i s.output (some inputPath)) r := by cases hi; assumption
      refine ⟨w3, hw3, fun ps last => ?_⟩
      rw [chain, Job.bind_of_ok h1, Job.bind_of_ok h2, hp]
      simp only []
      rw [Job.bind_of_ok (hg w2 hw2.files), Job.bind_of_ok h3]

/-- If the result of a pass cannot be found, the failure is the one of its interpreter. -/
theorem chain_of_error (compiler : String) (t : Tracer) {timed : Bool} {p : Pass Routine}
    {i : Routine} {program output : Datum} (ht : Gives files (p.transform [program]) output)
    (hi : p.interpreter = some i) (hv : t.enabled = true → output.Writable)
    (hw : w.Ready files (n + readings timed)) :
    ∃ w₁ : World, w₁.files = files ∧ ∀ e w₂ ps last,
      runInterpreter i output (some inputPath) w₁ = (.error e, w₂) →
      chain compiler t timed inputPath (p :: ps) program last w = (.error e, w₂) := by
  obtain ⟨w1, h1, hw1⟩ := runTransform_ready ht hw
  obtain ⟨w2, h2, hw2⟩ := t.trace_ready (p.name ++ " output") hv hw1
  refine ⟨w2, hw2.files, fun e w₂ ps last he => ?_⟩
  rw [chain, Job.bind_of_ok h1, Job.bind_of_ok h2, hi]
  exact Job.bind_of_error he

/-! ## A run of passes -/

/-- Each result is the same as the one before it. -/
abbrev Steady (rs : List Datum) : Prop := rs.IsChain fun a b => b.same a = true

theorem steady_cons {last : Option Datum} {r : Datum} {ss : List Step}
    (h : Steady (last.toList ++ results (some r) ss)) :
    (∀ l, last = some l → r.same l = true) ∧ Steady (results (some r) ss) := by
  cases last with
  | none => exact ⟨fun l hl => (nomatch hl), h⟩
  | some l =>
    have h' : Steady (l :: r :: ss.filterMap Step.result) := h
    rw [Steady, List.isChain_cons_cons] at h'
    exact ⟨fun l' hl => Option.some.inj hl ▸ h'.1, h'.2⟩

/-- Passes that keep the result lead to whatever passes come after them. -/
theorem chain_append (compiler : String) (t : Tracer) {timed : Bool} {ps : List (Pass Routine)}
    {program : Datum} {ss : List Step} (hs : Steps files inputPath ps program ss) (hv : Shown t ss) :
    ∀ {last : Option Datum} {w : World}, w.Ready files (n + ps.length * readings timed) →
    Steady (results last ss) →
    ∃ w', w'.Ready files n ∧ ∀ later, chain compiler t timed inputPath (ps ++ later) program last w =
      chain compiler t timed inputPath later (outcome program ss) (results last ss).getLast? w' := by
  induction hs with
  | nil program =>
    intro last w hw _
    refine ⟨w, by simpa using hw, fun later => ?_⟩
    cases last <;> rfl
  | @cons p ps program s ss ht hi hs ih =>
    intro last w hw hc
    have hw' : w.Ready files (n + ps.length * readings timed + readings timed) := by
      rwa [Nat.add_assoc, ← Nat.succ_mul]
    obtain ⟨w1, hw1, h1⟩ := chain_cons compiler t ht hi hv hw'
    cases hr : s.result with
    | none =>
      rw [results_cons_none last ss hr] at hc ⊢
      obtain ⟨w2, hw2, h2⟩ := ih hv.tail hw1 hc
      refine ⟨w2, hw2, fun later => ?_⟩
      rw [List.cons_append, h1, hr]
      exact h2 later
    | some r =>
      rw [results_cons_some last ss hr] at hc ⊢
      obtain ⟨hl, hc⟩ := steady_cons hc
      obtain ⟨w2, hw2, h2⟩ := ih hv.tail hw1 hc
      have hlast : (last.toList ++ results (some r) ss).getLast? = (results (some r) ss).getLast? := by
        rw [List.getLast?_append]; rfl
      refine ⟨w2, hw2, fun later => ?_⟩
      rw [List.cons_append, h1, hr, hlast]
      simp only []
      rw [Job.bind_of_ok (compare_agrees compiler p s.output hl w1)]
      exact h2 later

/-! ## Checks of passes that only compute -/

/-- A check of passes that only compute, with everything it meets: the source program, its result if
there is an initial interpreter, and the steps of the passes. Programs can be written, as can the
results if they are traced; the clock can be read; and no result holds a NaN. -/
structure PureCheck (passes : List (Pass Routine)) (test : String) (o : Options) (w : World)
    (source : Datum) (initial : Option Datum) (steps : List Step) : Prop where
  reads : o.reader (Family.sourcePath test o.testsDir) w = (.ok source, w)
  types : ∀ c, o.typeChecker = some c → ∃ d, Gives w.files (c [source]) d
  interprets : Option.Rel
    (fun i r => Gives w.files (runInterpreter i source (some (Family.inputPath test o.testsDir))) r)
    o.initialInterpreter initial
  transforms : Steps w.files (Family.inputPath test o.testsDir) passes source steps
  clock : w.clock.Shows (passes.length * readings o.timed)
  source_writable : source.Writable
  outputs_writable : ∀ s ∈ steps, s.output.Writable
  results_writable : (o.tracer.getD w.tracer).enabled = true →
    ∀ r ∈ results initial steps, r.Writable
  comparable : ∀ r ∈ results initial steps, r.Comparable

section

variable {passes : List (Pass Routine)} {test : String} {o : Options} {source : Datum}
  {initial : Option Datum} {steps : List Step}

theorem checkType_apply {checker : Option Routine} (h : ∀ c, checker = some c →
    ∃ d, Gives files (c [source]) d) (hw : w.Ready files n) :
    checkType checker source w = (.ok (), w) := by
  cases checker with
  | none => rfl
  | some c =>
    obtain ⟨d, hd⟩ := h c rfl
    rw [checkType, Job.bind_of_ok (hd w hw.files)]; rfl

theorem initialResult_ready (t : Tracer) {interp : Option Routine}
    (hi : Option.Rel (fun i r => Gives files (runInterpreter i source (some inputPath)) r) interp
      initial)
    (hv : t.enabled = true → ∀ r, initial = some r → r.Writable) (hw : w.Ready files n) :
    ∃ w', initialResult t interp inputPath source w = (.ok initial, w') ∧ w'.Ready files n := by
  cases hi with
  | none => exact ⟨w, rfl, hw⟩
  | some hg =>
    rename_i i r
    obtain ⟨w1, h1, hw1⟩ := t.trace_ready "source program result" (fun he => hv he r rfl) hw
    exact ⟨w1, by rw [initialResult, Job.bind_of_ok (hg w hw.files), Job.bind_of_ok h1]; rfl, hw1⟩

theorem PureCheck.shown (h : PureCheck passes test o w source initial steps) :
    Shown (o.tracer.getD w.tracer) steps := by
  intro he s hs
  refine ⟨h.outputs_writable s hs, fun r hr => h.results_writable he r ?_⟩
  exact List.mem_append_right _ (List.mem_filterMap.2 ⟨s, hs, hr⟩)

/-- A check comes to the initial result with the source program. -/
theorem run_eq_initial (compiler : String)
    (hreads : o.reader (Family.sourcePath test o.testsDir) w = (.ok source, w))
    (htypes : ∀ c, o.typeChecker = some c → ∃ d, Gives w.files (c [source]) d)
    (hsource : (o.tracer.getD w.tracer).enabled = true → source.Writable)
    (hclock : w.clock.Shows n) :
    ∃ w', w'.Ready w.files n ∧ ∀ ps, run compiler ps test o w = (do
      let result ← initialResult (o.tracer.getD w.tracer) o.initialInterpreter
        (Family.inputPath test o.testsDir) source
      let result ← chain compiler (o.tracer.getD w.tracer) o.timed
        (Family.inputPath test o.testsDir) ps source result
      return result.getD .null) w' := by
  have hw : w.Ready w.files n := ⟨rfl, hclock⟩
  obtain ⟨w1, h1, hw1⟩ := (o.tracer.getD w.tracer).trace_ready
    (compiler ++ " " ++ test ++ " source program") hsource hw
  refine ⟨w1, hw1, fun ps => ?_⟩
  rw [run, Job.bind_of_ok (Tracer.choose_apply o.tracer w), Job.bind_of_ok hreads,
    Job.bind_of_ok h1, Job.bind_of_ok (checkType_apply htypes hw1)]

/-- A check comes to its passes with the source program and the initial result. -/
theorem run_eq_chain (compiler : String)
    (hreads : o.reader (Family.sourcePath test o.testsDir) w = (.ok source, w))
    (htypes : ∀ c, o.typeChecker = some c → ∃ d, Gives w.files (c [source]) d)
    (hinterprets : Option.Rel (fun i r => Gives w.files
      (runInterpreter i source (some (Family.inputPath test o.testsDir))) r) o.initialInterpreter
      initial)
    (hsource : (o.tracer.getD w.tracer).enabled = true → source.Writable)
    (hinitial : (o.tracer.getD w.tracer).enabled = true → ∀ r, initial = some r → r.Writable)
    (hclock : w.clock.Shows n) :
    ∃ w', w'.Ready w.files n ∧ ∀ ps, run compiler ps test o w = (do
      let result ← chain compiler (o.tracer.getD w.tracer) o.timed
        (Family.inputPath test o.testsDir) ps source initial
      return result.getD .null) w' := by
  obtain ⟨w1, hw1, h1⟩ := run_eq_initial compiler hreads htypes hsource hclock
  obtain ⟨w2, h2, hw2⟩ := initialResult_ready _ hinterprets hinitial hw1
  exact ⟨w2, hw2, fun ps => by rw [h1, Job.bind_of_ok h2]⟩

theorem PureCheck.run_eq (compiler : String) (h : PureCheck passes test o w source initial steps) :
    ∃ w', w'.Ready w.files (passes.length * readings o.timed) ∧
      ∀ ps, run compiler ps test o w = (do
        let result ← chain compiler (o.tracer.getD w.tracer) o.timed
          (Family.inputPath test o.testsDir) ps source initial
        return result.getD .null) w' := by
  have hv : (o.tracer.getD w.tracer).enabled = true → ∀ r, initial = some r → r.Writable := by
    rintro he r rfl; exact h.results_writable he r List.mem_cons_self
  exact run_eq_chain compiler h.reads h.types h.interprets (fun _ => h.source_writable) hv h.clock

/-- Passes that keep the result lead to the last result. -/
theorem PureCheck.run_steady (compiler : String)
    (h : PureCheck passes test o w source initial steps) (hs : Steady (results initial steps)) :
    ∃ w', run compiler passes test o w =
      (.ok ((results initial steps).getLast?.getD .null), w') := by
  obtain ⟨w1, hw1, h1⟩ := h.run_eq compiler
  obtain ⟨w2, -, h2⟩ := chain_append (n := 0) compiler _ h.transforms h.shown
    (by rwa [Nat.zero_add]) hs
  have h2 := h2 []
  rw [List.append_nil] at h2
  exact ⟨w2, by rw [h1, Job.bind_of_ok (h2.trans rfl)]; rfl⟩

/-- The first pass that changes the result is blamed, whatever passes come after it. -/
theorem PureCheck.run_blames (compiler : String) {ps later : List (Pass Routine)}
    {p : Pass Routine} {ss more : List Step} {s : Step} {l r : Datum}
    (h : PureCheck (ps ++ p :: later) test o w source initial (ss ++ s :: more))
    (hlen : ps.length = ss.length) (hs : Steady (results initial ss))
    (hl : (results initial ss).getLast? = some l) (hr : s.result = some r)
    (hd : r.same l = false) :
    ∃ w', ∀ others, run compiler (ps ++ p :: others) test o w =
      (.error (.report (.mismatch (.str compiler) (.str p.name) l r s.output)), w') := by
  obtain ⟨w1, hw1, h1⟩ := h.run_eq compiler
  obtain ⟨hps, hp⟩ := h.transforms.of_append hlen
  have hshown : Shown (o.tracer.getD w.tracer) ss ∧ Shown (o.tracer.getD w.tracer) (s :: more) :=
    ⟨fun he x hx => h.shown he x (List.mem_append_left _ hx),
      fun he x hx => h.shown he x (List.mem_append_right _ hx)⟩
  have hw1' : w1.Ready w.files
      ((later.length * readings o.timed + readings o.timed) + ps.length * readings o.timed) := by
    have : (ps ++ p :: later).length = later.length + 1 + ps.length := by simp; omega
    rwa [this, Nat.add_mul, Nat.succ_mul] at hw1
  obtain ⟨w2, hw2, h2⟩ := chain_append compiler _ hps hshown.1 hw1' hs
  cases hp with
  | cons ht hi _ =>
    obtain ⟨w3, -, h3⟩ := chain_cons compiler _ ht hi hshown.2 hw2
    have hout := h.outputs_writable s (List.mem_append_right _ List.mem_cons_self)
    obtain ⟨w4, h4⟩ := compare_blames compiler p hd hout w3
    refine ⟨w4, fun others => ?_⟩
    have h5 := (h2 (p :: others)).trans (h3 others _)
    rw [hr, hl] at h5
    rw [h1, Job.bind_of_error (h5.trans (Job.bind_of_error h4))]

/-- Compiling with some of the passes gives the program after their steps. -/
theorem PureCheck.compile_eq {ps later : List (Pass Routine)} {ss more : List Step}
    (h : PureCheck (ps ++ later) test o w source initial (ss ++ more)) (hlen : ps.length = ss.length) :
    (Build.compile ps source o.tracer w).1 = .ok (outcome source ss) := by
  have hw : w.Ready w.files 0 := ⟨rfl, trivial⟩
  have hshown : Shown (o.tracer.getD w.tracer) ss :=
    fun he x hx => h.shown he x (List.mem_append_left _ hx)
  obtain ⟨w1, h1, -⟩ := transformAll_ready _ (h.transforms.of_append hlen).1 hshown hw
  rw [Build.compile, Job.bind_of_ok (Tracer.choose_apply o.tracer w), h1]

end

/-! ## Neighbours and the first result -/

/-- If all results are the same as the first one, any two are the same. -/
theorem same_of_same_first {rs : List Datum} (hc : ∀ r ∈ rs, r.Comparable)
    (h : ∀ r₀, rs.head? = some r₀ → ∀ r ∈ rs, r.same r₀ = true) :
    ∀ a ∈ rs, ∀ b ∈ rs, a.same b = true := by
  intro a ha b hb
  cases rs with
  | nil => cases ha
  | cons r₀ rs =>
    have h₀ := hc r₀ List.mem_cons_self
    have hb' := Datum.same_symm (hc b hb) h₀ (h r₀ rfl b hb)
    exact Datum.same_trans (hc a ha) h₀ (h r₀ rfl a ha) hb'

theorem steady_of_same {rs : List Datum} (h : ∀ a ∈ rs, ∀ b ∈ rs, a.same b = true) : Steady rs :=
  (List.pairwise_of_forall_mem_list fun a ha b hb => h b hb a ha).isChain

/-- The pass `p`, run after `ps`, is the first one whose result differs from the first result. -/
structure FirstChange (passes : List (Pass Routine)) (initial : Option Datum) (steps : List Step)
    (ps : List (Pass Routine)) (p : Pass Routine) (ss : List Step) (s : Step) (r₀ r : Datum) :
    Prop where
  passes_eq : ∃ later, passes = ps ++ p :: later
  steps_eq : ∃ more, steps = ss ++ s :: more
  length_eq : ps.length = ss.length
  result : s.result = some r
  first : (results initial ss).head? = some r₀
  before : ∀ x ∈ results initial ss, x.same r₀ = true
  differs : r.same r₀ = false

section

variable {passes : List (Pass Routine)} {initial : Option Datum} {steps : List Step}

theorem results_append (ss : List Step) {s : Step} {r : Datum} (more : List Step)
    (hr : s.result = some r) : results initial (ss ++ s :: more) =
      results initial ss ++ r :: more.filterMap Step.result := by
  rw [results, List.filterMap_append, List.filterMap_cons_some hr, results, List.append_assoc]

theorem exists_split_passes {ss : List Step} {s : Step} {more : List Step}
    (h : passes.length = (ss ++ s :: more).length) :
    ∃ ps p later, passes = ps ++ p :: later ∧ ps.length = ss.length := by
  rw [List.length_append, List.length_cons] at h
  have hlt : ss.length < passes.length := by omega
  refine ⟨passes.take ss.length, passes[ss.length], passes.drop (ss.length + 1), ?_, ?_⟩
  · rw [List.getElem_cons_drop, List.take_append_drop]
  · rw [List.length_take]; omega

/-- What does not hold of all items of a list has a first exception. -/
theorem exists_first_not {α : Type} {P : α → Prop} : ∀ {l : List α}, (¬ ∀ a ∈ l, P a) →
    ∃ before a after, l = before ++ a :: after ∧ (∀ b ∈ before, P b) ∧ ¬ P a
  | [], h => absurd (by simp) h
  | a :: l, h => by
    by_cases ha : P a
    · have hl : ¬ ∀ b ∈ l, P b := fun hl => h (List.forall_mem_cons.2 ⟨ha, hl⟩)
      obtain ⟨before, x, after, rfl, hbefore, hx⟩ := exists_first_not hl
      exact ⟨a :: before, x, after, rfl, List.forall_mem_cons.2 ⟨ha, hbefore⟩, hx⟩
    · exact ⟨[], a, l, rfl, by simp, ha⟩

/-- If some result differs from the first one, there is a first pass with such a result. -/
theorem exists_firstChange (hlen : passes.length = steps.length)
    (hc : ∀ r ∈ results initial steps, r.Comparable) {r₀ r : Datum}
    (h₀ : (results initial steps).head? = some r₀) (hr : r ∈ results initial steps)
    (hd : r.same r₀ = false) :
    ∃ ps p ss s r, FirstChange passes initial steps ps p ss s r₀ r := by
  have hself : r₀.same r₀ = true := Datum.same_refl (hc r₀ (List.mem_of_head? h₀))
  -- the result of the source program is the first one, so it is no difference
  have hinitial : ∀ x ∈ initial.toList, x.same r₀ = true := by
    intro x hx
    cases initial with
    | none => cases hx
    | some i =>
      cases List.mem_singleton.1 hx
      cases h₀
      exact hself
  have hstep : ∃ s ∈ steps, s.result = some r := by
    rcases List.mem_append.1 hr with hi | hi
    · rw [hinitial r hi] at hd; cases hd
    · exact List.mem_filterMap.1 hi
  have hsome : ¬ ∀ s ∈ steps, ∀ x, s.result = some x → x.same r₀ = true := by
    obtain ⟨s, hs, hsr⟩ := hstep
    intro hall
    rw [hall s hs r hsr] at hd; cases hd
  obtain ⟨ss, s, more, rfl, hbefore, hchanged⟩ := exists_first_not hsome
  obtain ⟨x, hx, hxd⟩ : ∃ x, s.result = some x ∧ x.same r₀ = false := by
    simpa using hchanged
  obtain ⟨ps, p, later, hps, hl⟩ := exists_split_passes hlen
  refine ⟨ps, p, ss, s, x, ⟨later, hps⟩, ⟨more, rfl⟩, hl, hx, ?_, ?_, hxd⟩
  · rw [results_append ss more hx] at h₀
    cases hrs : results initial ss with
    | nil =>
      rw [hrs] at h₀
      cases h₀
      rw [hself] at hxd; cases hxd
    | cons y ys => rw [hrs] at h₀; exact h₀
  · intro y hy
    rcases List.mem_append.1 hy with hy | hy
    · exact hinitial y hy
    · obtain ⟨t, ht, hty⟩ := List.mem_filterMap.1 hy
      exact hbefore t ht y hty

end

section

variable {passes : List (Pass Routine)} {test : String} {o : Options} {source : Datum}
  {initial : Option Datum} {steps : List Step}

theorem PureCheck.compile_firstChange {ps : List (Pass Routine)} {p : Pass Routine}
    {ss : List Step} {s : Step} {r₀ r : Datum}
    (h : PureCheck passes test o w source initial steps)
    (hf : FirstChange passes initial steps ps p ss s r₀ r) :
    (Build.compile (ps ++ [p]) source o.tracer w).1 = .ok s.output := by
  obtain ⟨⟨later, rfl⟩, ⟨more, rfl⟩, hlen, -⟩ := hf
  rw [List.append_cons ps, List.append_cons ss] at h
  rw [h.compile_eq (by simp [hlen]), outcome, List.foldl_append]
  rfl

theorem PureCheck.run_firstChange (compiler : String) {ps : List (Pass Routine)}
    {p : Pass Routine} {ss : List Step} {s : Step} {r₀ r : Datum}
    (h : PureCheck passes test o w source initial steps)
    (hf : FirstChange passes initial steps ps p ss s r₀ r) :
    ∃ expected w', (results initial ss).getLast? = some expected ∧ expected.same r₀ = true ∧
      ∀ later, run compiler (ps ++ p :: later) test o w =
        (.error (.report (.mismatch (.str compiler) (.str p.name) expected r s.output)), w') := by
  obtain ⟨⟨later, rfl⟩, ⟨more, rfl⟩, hlen, hr, h₀, hbefore, hd⟩ := hf
  have hc := h.comparable
  rw [results_append ss more hr] at hc
  obtain ⟨hcss, hcr⟩ := List.forall_mem_append.1 hc
  have hsame := same_of_same_first hcss fun r' hr' => by
    cases h₀.symm.trans hr'; exact hbefore
  obtain ⟨l, hl⟩ : ∃ l, (results initial ss).getLast? = some l :=
    Option.isSome_iff_exists.1 (List.getLast?_isSome.2 (List.ne_nil_of_mem (List.mem_of_head? h₀)))
  have hl' := List.mem_of_getLast? hl
  -- a result that is the same as the one before would be the same as the first
  have hdl : r.same l = false := by
    rw [← Bool.not_eq_true]
    intro hrl
    rw [Datum.same_trans (hcr r List.mem_cons_self) (hcss l hl') hrl (hbefore l hl')] at hd
    cases hd
  obtain ⟨w', hw'⟩ := h.run_blames compiler hlen (steady_of_same hsame) hl hr hdl
  exact ⟨l, w', hl, hbefore l hl', hw'⟩

end

/-- A check of passes that only compute is a check against the first result. It fails with a
mismatch exactly if some result differs from the first one. Then it blames the first pass with such
a result, whatever passes come after it, with the result found just before and with the program that
compiling up to that pass gives. Otherwise it returns the last result, and all results are the same. -/
theorem run_compares_with_first (compiler : String) {passes : List (Pass Routine)} {test : String}
    {o : Options} {w : World} {source : Datum} {initial : Option Datum} {steps : List Step}
    (h : PureCheck passes test o w source initial steps) :
    ((∃ c p expected actual program w', run compiler passes test o w =
        (.error (.report (.mismatch c p expected actual program)), w')) ↔
      ∃ r₀, (results initial steps).head? = some r₀ ∧
        ∃ r ∈ results initial steps, r.same r₀ = false) ∧
    (∀ r₀, (results initial steps).head? = some r₀ →
      (∃ r ∈ results initial steps, r.same r₀ = false) →
      ∃ ps p ss s r expected w', FirstChange passes initial steps ps p ss s r₀ r ∧
        (results initial ss).getLast? = some expected ∧ expected.same r₀ = true ∧
        (Build.compile (ps ++ [p]) source o.tracer w).1 = .ok s.output ∧
        ∀ later, run compiler (ps ++ p :: later) test o w =
          (.error (.report (.mismatch (.str compiler) (.str p.name) expected r s.output)), w')) ∧
    ((∀ r₀, (results initial steps).head? = some r₀ →
        ∀ r ∈ results initial steps, r.same r₀ = true) →
      (∃ w', run compiler passes test o w =
        (.ok ((results initial steps).getLast?.getD .null), w')) ∧
      ∀ a ∈ results initial steps, ∀ b ∈ results initial steps, a.same b = true) := by
  refine ⟨⟨?_, ?_⟩, ?_, ?_⟩
  · -- without a difference the check returns a value
    rintro ⟨c, p, expected, actual, program, w', hrun⟩
    by_contra hno
    have hall : ∀ r₀, (results initial steps).head? = some r₀ →
        ∀ r ∈ results initial steps, r.same r₀ = true := by
      intro r₀ h₀ r hr
      rw [← Bool.not_eq_false]
      exact fun hd => hno ⟨r₀, h₀, r, hr, hd⟩
    obtain ⟨w₁, h₁⟩ :=
      h.run_steady compiler (steady_of_same (same_of_same_first h.comparable hall))
    rw [hrun] at h₁; cases h₁
  · rintro ⟨r₀, h₀, r', hr', hd'⟩
    obtain ⟨ps, p, ss, s, r, hf⟩ :=
      exists_firstChange h.transforms.length_eq h.comparable h₀ hr' hd'
    obtain ⟨expected, w', -, -, hrun⟩ := h.run_firstChange compiler hf
    obtain ⟨later, hp⟩ := hf.passes_eq
    exact ⟨_, _, expected, r, s.output, w', hp ▸ hrun later⟩
  · rintro r₀ h₀ ⟨r', hr', hd'⟩
    obtain ⟨ps, p, ss, s, r, hf⟩ :=
      exists_firstChange h.transforms.length_eq h.comparable h₀ hr' hd'
    obtain ⟨expected, w', hl, hsame, hrun⟩ := h.run_firstChange compiler hf
    exact ⟨ps, p, ss, s, r, expected, w', hf, hl, hsame, h.compile_firstChange hf, hrun⟩
  · intro hall
    have hsame := same_of_same_first h.comparable hall
    exact ⟨h.run_steady compiler (steady_of_same hsame), hsame⟩

/-- Four passes: `1`, `True` and `1.0` are one result, nothing at all is another. -/
def mixedPasses : List (Pass Routine) :=
  [⟨"a", Recipe.identity.routine, some (Recipe.const (.bool true)).routine⟩,
    ⟨"b", Recipe.dup.routine, none⟩,
    ⟨"c", Recipe.identity.routine, some (Recipe.const (.float (.exact 1))).routine⟩,
    ⟨"d", (Recipe.wrap (.str "d")).routine, some (Recipe.const .null).routine⟩]

def mixedOptions : Options :=
  { Options.plain with
    reader := fun _ => pure (.int 7)
    initialInterpreter := some (Recipe.const (.int 1)).routine }

def mixedSteps : List Step :=
  [⟨.int 7, some (.bool true)⟩, ⟨.tuple [.int 7, .int 7], none⟩,
    ⟨.tuple [.int 7, .int 7], some (.float (.exact 1))⟩,
    ⟨.tuple [.str "d", .tuple [.int 7, .int 7]], some .null⟩]

theorem run_compares_with_first_mixed :
    PureCheck mixedPasses "t_1" mixedOptions (World.start .empty) (.int 7) (some (.int 1))
      mixedSteps ∧
    ∃ c p expected actual program w', run "rc" mixedPasses "t_1" mixedOptions (World.start .empty) =
      (.error (.report (.mismatch c p expected actual program)), w') := by
  have hconst : ∀ v d, Gives .empty (runInterpreter (Recipe.const v).routine d
      (some (Family.inputPath "t_1" mixedOptions.testsDir))) v := fun v d =>
    gives_runInterpreter (fun hp => absurd hp (by decide +kernel)) fun _ _ => rfl
  have h : PureCheck mixedPasses "t_1" mixedOptions (World.start .empty) (.int 7) (some (.int 1))
      mixedSteps :=
    { reads := rfl
      types := nofun
      interprets := .some (hconst _ _)
      transforms :=
        .cons (fun _ _ => rfl) (.some (hconst _ _)) <| .cons (fun _ _ => rfl) .none <|
        .cons (fun _ _ => rfl) (.some (hconst _ _)) <|
        .cons (fun _ _ => rfl) (.some (hconst _ _)) <| .nil _
      clock := by
        refine ⟨?_, ?_, ?_, ?_, trivial⟩ <;> decide +kernel
      source_writable := by decide +kernel
      outputs_writable := by decide +kernel
      results_writable := nofun
      comparable := by decide +kernel }
  have hnull : .null ∈ results (some (.int 1)) mixedSteps := by simp [results, mixedSteps]
  exact ⟨h, (run_compares_with_first "rc" h).1.2 ⟨.int 1, rfl, .null, hnull, rfl⟩⟩

end PassCheck.Check
