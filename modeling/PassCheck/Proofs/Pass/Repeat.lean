/-
Checks of tests one after another. With transforms that only compute and interpreters that only read
their input, a check is the same again after other checks: they moved the clock and wrote to the
output streams, and a check depends on neither. So a batch of checks comes to the same as each of
its checks alone, up to the first one that fails.

`Repeats` is what carries this through a check: the job is a function of the input, given the files
and the tracer. It is closed under sequence.
-/
import PassCheck.Proofs.Build.Compile
import PassCheck.Proofs.Pass.Isolation

namespace PassCheck

theorem Clock.Shows.mono {c : Clock} {m n : Nat} (h : c.Shows n) (hmn : m ≤ n) : c.Shows m := by
  induction n generalizing m c with
  | zero =>
    obtain rfl : m = 0 := by omega
    exact h
  | succ n ih =>
    cases m with
    | zero => trivial
    | succ m => exact ⟨h.1, ih h.2 (by omega)⟩

theorem Clock.Shows.of_length_mul {α : Type} {xs : List α} {c : Clock} {n : Nat}
    (h : c.Shows (xs.length * n)) (hne : xs ≠ []) : c.Shows n :=
  h.mono (Nat.le_mul_of_pos_left n (List.length_pos_iff.2 hne))

/-- The world after the input and the clock have moved, and more was written. -/
abbrev World.moved (w : World) (input : Input) (c : Clock) (out err : String) : World :=
  { w with input := input, clock := c, out := w.out ++ out, err := w.err ++ err }

theorem World.moved_self (w : World) : w.moved w.input w.clock "" "" = w := by
  simp only [moved, String.append_empty]

theorem World.moved_moved (w : World) (input input' : Input) (c c' : Clock)
    (out err out' err' : String) :
    (w.moved input c out err).moved input' c' out' err' =
      w.moved input' c' (out ++ out') (err ++ err') := by
  simp only [moved, String.append_assoc]

/-! ## Jobs that can be repeated -/

namespace Job

variable {α β : Type} {files : Files} {tracer : Tracer} {k l : Nat}

/-- With these files and this tracer, a job is a function of the input. It reads the clock at most
`k` times and does not care what it shows. -/
def Repeats (files : Files) (tracer : Tracer) (k : Nat) (job : Job α) : Prop :=
  ∀ input, ∃ r input' out err, ∀ n (w : World), w.files = files → w.tracer = tracer →
    w.input = input → w.clock.Shows (n + k) →
    ∃ c, c.Shows n ∧ job w = (r, w.moved input' c out err)

theorem OnlyPrints.repeats {job : Job α} (h : OnlyPrints job) : Repeats files tracer 0 job := by
  obtain ⟨r, out, err, hr⟩ := h
  intro input
  refine ⟨r, input, out, err, fun n w _ _ hin hc => ⟨w.clock, hc, ?_⟩⟩
  rw [hr w, ← hin]

theorem OnInput.repeats {job : Job α} (h : OnInput job) : Repeats files tracer 0 job := by
  intro input
  let v : World := { (default : World) with input := input }
  refine ⟨(job v).1, (job v).2.input, "", "", fun n w _ _ hin hc => ⟨w.clock, hc, ?_⟩⟩
  have hw : job w = ((job v).1, w.withInput (job v).2.input) := by
    subst hin
    exact h v w
  rw [hw]
  simp only [World.moved, String.append_empty]

theorem Repeats.bind {x : Job α} {f : α → Job β} (hx : Repeats files tracer k x)
    (hf : ∀ a, Repeats files tracer l (f a)) : Repeats files tracer (k + l) (x >>= f) := by
  intro input
  obtain ⟨r, input₁, out, err, hx⟩ := hx input
  have hshows : ∀ {n : Nat} {c : Clock}, c.Shows (n + (k + l)) → c.Shows (n + l + k) := by
    intro n c hc
    rwa [Nat.add_assoc, Nat.add_comm l k]
  cases r with
  | error e =>
    refine ⟨.error e, input₁, out, err, fun n w hfiles htracer hin hc => ?_⟩
    -- the readings that the second job would have made are left over
    obtain ⟨c, hc', hw⟩ := hx _ w hfiles htracer hin (hshows hc)
    exact ⟨c, hc'.mono (Nat.le_add_right n l), bind_of_error hw⟩
  | ok a =>
    obtain ⟨s, input₂, out', err', hf⟩ := hf a input₁
    refine ⟨s, input₂, out ++ out', err ++ err', fun n w hfiles htracer hin hc => ?_⟩
    obtain ⟨c₁, hc₁, hw⟩ := hx _ w hfiles htracer hin (hshows hc)
    obtain ⟨c₂, hc₂, hw'⟩ := hf n (w.moved input₁ c₁ out err) hfiles htracer rfl hc₁
    exact ⟨c₂, hc₂, by rw [bind_of_ok hw, hw', World.moved_moved]⟩

/-- A job that does not read the clock comes before others. -/
theorem Repeats.before {x : Job α} {f : α → Job β} (hx : Repeats files tracer 0 x)
    (hf : ∀ a, Repeats files tracer k (f a)) : Repeats files tracer k (x >>= f) := by
  have h := hx.bind hf
  rwa [Nat.zero_add] at h

/-- A job on an input of its own gives the old one back. -/
theorem Repeats.withInput {job : Job α} (h : Repeats files tracer k job) (own : Input) :
    Repeats files tracer k (withInput own job) := by
  intro input
  obtain ⟨r, input', out, err, h⟩ := h own
  refine ⟨r, input, out, err, fun n w hfiles htracer hin hc => ?_⟩
  obtain ⟨c, hc', hw⟩ := h n (w.withInput own) hfiles htracer rfl hc
  refine ⟨c, hc', ?_⟩
  rw [Job.withInput, hw, hin]

end Job

theorem Tracer.repeats_choose {files : Files} {tracer : Tracer} (given : Option Tracer) :
    Job.Repeats files tracer 0 (choose given) := by
  intro input
  refine ⟨.ok (given.getD tracer), input, "", "", fun n w _ htracer hin hc => ⟨w.clock, hc, ?_⟩⟩
  rw [choose_apply, htracer, ← hin, World.moved_self]

namespace Check

open Build (PurePasses)
open Family (nameOf)
open Job (Repeats)

variable {files : Files} {tracer : Tracer} {passes : List (Pass Routine)} {p : Pass Routine}

/-- Passes whose interpreters only read their input. -/
def ReadingInterpreters (passes : List (Pass Routine)) : Prop :=
  ∀ p ∈ passes, ∀ i, p.interpreter = some i → ∀ d, Job.OnInput (i [d])

theorem repeats_readProgram (path : String) : Repeats files tracer 0 (readProgram path) := by
  intro input
  refine ⟨files.read path >>= textOf >>= programOf path, input, "", "",
    fun n w hfiles _ hin hc => ⟨w.clock, hc, ?_⟩⟩
  rw [readProgram_apply, hfiles, ← hin, World.moved_self]

/-- The clock is read before a transform; nobody asks what it showed. -/
theorem repeats_runTransform {d : Datum} (h : Job.Computes (p.transform [d])) :
    Repeats files tracer 1 (runTransform false p d) := by
  obtain ⟨r, hr⟩ := h
  intro input
  refine ⟨r, input, "", "", fun n w hfiles _ hin hc => ⟨w.clock.advance, hc.2, ?_⟩⟩
  have hclock : ∃ x, Job.readClock w = (.ok x, w.moved input w.clock.advance "" "") := by
    rw [Job.readClock_apply]
    have hs := hc.1
    simp only [World.moved, String.append_empty, ← hin]
    cases hx : w.clock.advance.shown with
    | infinite negative => exact absurd hx (hs negative)
    | _ => exact ⟨_, rfl⟩
  obtain ⟨x, hx⟩ := hclock
  rw [runTransform, Job.bind_of_ok hx]
  cases r with
  | error e => exact Job.bind_of_error (hr _)
  | ok d => exact Job.bind_of_ok (hr _)

theorem repeats_runInterpreter {i : Routine} {d : Datum} (h : Job.OnInput (i [d])) (path : String) :
    Repeats files tracer 0 (runInterpreter i d (some path)) := by
  have hrepeats : Repeats files tracer 0 (i [d]) := h.repeats
  cases hp : files.present path with
  | false =>
    intro input
    obtain ⟨r, input', out, err, hr⟩ := hrepeats input
    refine ⟨r, input', out, err, fun n w hfiles htracer hin hc => ?_⟩
    rw [runInterpreter_of_absent i d (hfiles ▸ hp)]
    exact hr n w hfiles htracer hin hc
  | true =>
    intro input
    cases hread : files.read path with
    | error e =>
      refine ⟨.error e, input, "", "", fun n w hfiles _ hin hc => ⟨w.clock, hc, ?_⟩⟩
      rw [runInterpreter_of_unreadable i d (hfiles ▸ hp) (hfiles ▸ hread), ← hin, World.moved_self]
    | ok content =>
      obtain ⟨r, input', out, err, hr⟩ := hrepeats.withInput (.ofBytes content) input
      refine ⟨r, input', out, err, fun n w hfiles htracer hin hc => ?_⟩
      have hw : w.Holds path content := by rw [World.Holds, hfiles, hread]
      rw [runInterpreter_of_holds i d hw]
      exact hr n w hfiles htracer hin hc

theorem onlyPrints_compare (compiler : String) (p : Pass Routine) (before : Option Datum)
    (result d : Datum) : Job.OnlyPrints (compare compiler p before result d) := by
  unfold compare
  cases before with
  | none => exact Job.onlyPrints_pure ()
  | some expected =>
    dsimp only
    split
    · exact Job.onlyPrints_pure ()
    · refine (Job.onlyPrints_printErr _).bind fun _ => ?_
      refine (Job.computes_lift _).onlyPrints.bind fun text => (Job.onlyPrints_printErr text).bind ?_
      exact fun _ => (Job.computes_lift (.error _)).onlyPrints

/-- Passes can be run again; each of them reads the clock once. -/
theorem repeats_chain (compiler : String) (t : Tracer) (path : String) (hpure : PurePasses passes)
    (hread : ReadingInterpreters passes) (d : Datum) (last : Option Datum) :
    Repeats files tracer passes.length (chain compiler t false path passes d last) := by
  induction passes generalizing d last with
  | nil => exact (Job.onlyPrints_pure last).repeats
  | cons p ps ih =>
    obtain ⟨hp, hps⟩ := List.forall_mem_cons.1 hpure
    obtain ⟨hi, his⟩ := List.forall_mem_cons.1 hread
    rw [List.length_cons, Nat.add_comm]
    refine (repeats_runTransform (hp d)).bind fun output => ?_
    refine (t.onlyPrints_trace _ output).repeats.before fun _ => ?_
    cases hinterp : p.interpreter with
    | none => exact ih hps his output last
    | some interp =>
      refine (repeats_runInterpreter (hi interp hinterp output) path).before fun found => ?_
      refine (t.onlyPrints_trace _ found).repeats.before fun _ => ?_
      exact (onlyPrints_compare compiler p last found output).repeats.before fun _ =>
        ih hps his output (some found)

/-- A check can be run again. -/
theorem repeats_run (compiler test dir : String) (given : Option Tracer) (hpure : PurePasses passes)
    (hread : ReadingInterpreters passes) : Repeats files tracer passes.length
      (run compiler passes test { Options.plain with testsDir := dir, tracer := given }) := by
  refine (Tracer.repeats_choose given).before fun t => ?_
  refine (repeats_readProgram _).before fun d => ?_
  refine (t.onlyPrints_trace _ d).repeats.before fun _ => ?_
  refine (Job.onlyPrints_pure ()).repeats.before fun _ => ?_
  refine (Job.onlyPrints_pure none).repeats.before fun first => ?_
  exact (repeats_chain compiler t _ hpure hread d first).bind fun r =>
    (Job.onlyPrints_pure _).repeats

end Check

/-! ## A batch of checks -/

/-- Since the world `w`, only the clock has moved and this text was written to standard output, and
maybe some to the error output. The clock can be read `n` more times. -/
def World.Since (n : Nat) (text : String) (w v : World) : Prop :=
  ∃ c err, c.Shows n ∧ v = w.moved w.input c text err

theorem World.Since.refl {n : Nat} {w : World} (h : w.clock.Shows n) : World.Since n "" w w :=
  ⟨w.clock, "", h, w.moved_self.symm⟩

theorem World.Since.said {n : Nat} {text : String} {w v : World} (h : World.Since n text w v)
    (more : String) : World.Since n (text ++ more) w (v.saying more "") := by
  obtain ⟨c, err, hc, rfl⟩ := h
  refine ⟨c, err, hc, ?_⟩
  simp only [saying, moved, String.append_assoc, String.append_empty]

/-- A job that can be repeated and leaves the input where it was does the same again. -/
theorem Job.Repeats.again {α : Type} {job : Job α} {k n : Nat} {text : String} {w v : World}
    (h : Job.Repeats w.files w.tracer k job) (hin : (job w).2.input = w.input)
    (hclock : w.clock.Shows k) (hv : World.Since (n + k) text w v) :
    ∃ v', job v = ((job w).1, v') ∧ World.Since n (text ++ job.wrote w) w v' := by
  obtain ⟨r, input, out, err, h⟩ := h w.input
  obtain ⟨c, -, hw⟩ := h 0 w rfl rfl rfl (by rwa [Nat.zero_add])
  have hwrote : job.wrote w = out := Job.wrote_eq (by rw [hw])
  obtain rfl : input = w.input := by rw [hw] at hin; exact hin
  obtain ⟨c₁, err₁, hc₁, rfl⟩ := hv
  obtain ⟨c₂, hc₂, hv⟩ := h n (w.moved w.input c₁ text err₁) rfl rfl rfl hc₁
  refine ⟨_, by rw [hv, hw], c₂, err₁ ++ err, hc₂, ?_⟩
  rw [World.moved_moved, hwrote]

namespace Check

open Build (PurePasses)
open Family (nameOf)

variable {compiler : String} {passes : List (Pass Routine)} {family dir : String} {w v : World}

/-- The check of one test of a family. -/
def checkTest (compiler : String) (passes : List (Pass Routine)) (family dir : String) (i : Int) :
    Job Datum :=
  run compiler passes (nameOf family i) { Options.plain with testsDir := dir }

theorem isolated_of_pure (path : String) (hpure : PurePasses passes)
    (hread : ReadingInterpreters passes) :
    Isolated path passes { Options.plain with testsDir := dir } where
  reader := spares_readProgram
  checker := nofun
  initial := nofun
  passes p hp := by
    refine ⟨fun d => ?_, fun i hi d => readsInput_of_onInput (hread p hp i hi d)⟩
    obtain ⟨r, hr⟩ := hpure p hp d
    refine ⟨fun w hw => ?_, fun w _ input => ?_⟩
    · rw [hr w]; exact hw
    · rw [hr w, hr (w.withInput input)]

/-- The check of a test with an input file leaves the standard input alone. -/
theorem checkTest_input {i : Int} (hpure : PurePasses passes) (hread : ReadingInterpreters passes)
    (hfile : w.HasFile (Family.inputPath (nameOf family i) dir)) :
    (checkTest compiler passes family dir i w).2.input = w.input := by
  have hspares : Job.Spares (Family.inputPath (nameOf family i) dir)
      (checkTest compiler passes family dir i) :=
    Isolated.spares_run (o := { Options.plain with testsDir := dir }) compiler
      (isolated_of_pure _ hpure hread)
  exact hspares.input_eq hfile

/-- What a test that passes its check writes to standard output: what the check itself writes, and a
line that reports the test. -/
def reportOf (compiler : String) (passes : List (Pass Routine)) (family dir : String) (w : World)
    (i : Int) : String :=
  (checkTest compiler passes family dir i).wrote w ++
    (compiler ++ " passed interp test " ++ nameOf family i ++ "\n")

theorem runAll_cons (compiler : String) (passes : List (Pass Routine)) (family dir : String)
    (i : Int) (more : List String) (results : List (Datum × Datum)) :
    runAll compiler passes { Options.plain with testsDir := dir } (nameOf family i :: more)
        results = (do
      let result ← checkTest compiler passes family dir i
      Job.print (compiler ++ " passed interp test " ++ nameOf family i)
      runAll compiler passes { Options.plain with testsDir := dir } more
        (Datum.setEntry (.str (nameOf family i)) result results)) := rfl

/-- A check that finds a result adds it to the results and reports its test; the batch goes on. -/
theorem runAll_cons_of_ok {i : Int} {r : Datum} {n : Nat} {text : String} (hpure : PurePasses passes)
    (hread : ReadingInterpreters passes)
    (hi : (checkTest compiler passes family dir i w).2.input = w.input)
    (hclock : w.clock.Shows passes.length) (hv : World.Since (n + passes.length) text w v)
    (hr : (checkTest compiler passes family dir i w).1 = .ok r) :
    ∃ v₁, (∀ more results, runAll compiler passes { Options.plain with testsDir := dir }
        (nameOf family i :: more) results v =
          runAll compiler passes { Options.plain with testsDir := dir } more
            (Datum.setEntry (.str (nameOf family i)) r results) v₁) ∧
      World.Since n (text ++ reportOf compiler passes family dir w i) w v₁ := by
  have hrepeats : Job.Repeats w.files w.tracer passes.length
      (checkTest compiler passes family dir i) :=
    repeats_run compiler (nameOf family i) dir none hpure hread
  obtain ⟨v₁, hrun, hv₁⟩ := hrepeats.again hi hclock hv
  rw [hr] at hrun
  have hsaid := hv₁.said (compiler ++ " passed interp test " ++ nameOf family i ++ "\n")
  refine ⟨v₁.saying (compiler ++ " passed interp test " ++ nameOf family i ++ "\n") "",
    fun more results => ?_, ?_⟩
  · rw [runAll_cons, Job.bind_of_ok hrun, Job.bind_of_ok (Job.print_apply _ v₁)]
  · rwa [reportOf, ← String.append_assoc]

/-- A check that fails ends the batch. -/
theorem runAll_cons_of_error {i : Int} {e : Failure} {n : Nat} {text : String}
    (hpure : PurePasses passes) (hread : ReadingInterpreters passes)
    (hi : (checkTest compiler passes family dir i w).2.input = w.input)
    (hclock : w.clock.Shows passes.length) (hv : World.Since (n + passes.length) text w v)
    (hr : (checkTest compiler passes family dir i w).1 = .error e) :
    ∃ v₁, (∀ more results, runAll compiler passes { Options.plain with testsDir := dir }
        (nameOf family i :: more) results v = (.error e, v₁)) ∧
      World.Since n (text ++ (checkTest compiler passes family dir i).wrote w) w v₁ := by
  have hrepeats : Job.Repeats w.files w.tracer passes.length
      (checkTest compiler passes family dir i) :=
    repeats_run compiler (nameOf family i) dir none hpure hread
  obtain ⟨v₁, hrun, hv₁⟩ := hrepeats.again hi hclock hv
  rw [hr] at hrun
  exact ⟨v₁, fun more results => by rw [runAll_cons, Job.bind_of_error hrun], hv₁⟩

/-- A batch of checks comes to the same as each check alone: all of them find a result, or the first
one that fails ends it. -/
theorem runAll_cases (results : List (Datum × Datum)) {todo : List Int} {n : Nat} {text : String}
    (hpure : PurePasses passes) (hread : ReadingInterpreters passes)
    (hin : ∀ i ∈ todo, (checkTest compiler passes family dir i w).2.input = w.input)
    (hclock : todo ≠ [] → w.clock.Shows passes.length)
    (hv : World.Since (n + todo.length * passes.length) text w v) :
    ((∀ i ∈ todo, ∃ r, (checkTest compiler passes family dir i w).1 = .ok r) ∧
      ∃ found v', runAll compiler passes { Options.plain with testsDir := dir }
          (todo.map (nameOf family)) results v = (.ok found, v') ∧
        World.Since n (text ++ String.join (todo.map (reportOf compiler passes family dir w))) w v') ∨
    ∃ done i rest e v', todo = done ++ i :: rest ∧
      (∀ j ∈ done, ∃ r, (checkTest compiler passes family dir j w).1 = .ok r) ∧
      (checkTest compiler passes family dir i w).1 = .error e ∧
      runAll compiler passes { Options.plain with testsDir := dir } (todo.map (nameOf family))
        results v = (.error e, v') ∧
      World.Since n (text ++ (String.join (done.map (reportOf compiler passes family dir w)) ++
        (checkTest compiler passes family dir i).wrote w)) w v' := by
  induction todo generalizing text results v with
  | nil =>
    refine .inl ⟨nofun, results, v, rfl, ?_⟩
    rw [List.map_nil, String.join_nil, String.append_empty]
    rwa [List.length_nil, Nat.zero_mul, Nat.add_zero] at hv
  | cons i todo ih =>
    obtain ⟨hi, hrest⟩ := List.forall_mem_cons.1 hin
    rw [List.length_cons, Nat.succ_mul, ← Nat.add_assoc] at hv
    have hshows : w.clock.Shows passes.length := hclock (List.cons_ne_nil i todo)
    cases hr : (checkTest compiler passes family dir i w).1 with
    | error e =>
      obtain ⟨v₁, hrun, c, err, hc, hv₁⟩ := runAll_cons_of_error hpure hread hi hshows hv hr
      refine .inr ⟨[], i, todo, e, v₁, rfl, nofun, hr, hrun _ results, ?_⟩
      rw [List.map_nil, String.join_nil, String.empty_append]
      exact ⟨c, err, hc.mono (Nat.le_add_right _ _), hv₁⟩
    | ok r =>
      obtain ⟨v₁, hrun, hv₁⟩ := runAll_cons_of_ok hpure hread hi hshows hv hr
      rw [List.map_cons, hrun, List.map_cons, String.join_cons]
      -- the rest of the batch starts with the report of this test written
      rcases ih _ hrest (fun _ => hshows) hv₁ with ⟨hall, found, v₂, hrest, hv₂⟩ |
        ⟨done, j, rest, e, v₂, rfl, hdone, he, hrest, hv₂⟩
      · refine .inl ⟨List.forall_mem_cons.2 ⟨⟨r, hr⟩, hall⟩, found, v₂, hrest, ?_⟩
        rwa [String.append_assoc] at hv₂
      · refine .inr ⟨i :: done, j, rest, e, v₂, rfl, List.forall_mem_cons.2 ⟨⟨r, hr⟩, hdone⟩, he,
          hrest, ?_⟩
        rw [List.map_cons, String.join_cons]
        simpa only [String.append_assoc] using hv₂

theorem runFamily_eq_runAll (compiler : String) (passes : List (Pass Routine)) (family : String)
    {indices : List Int} (h : ∀ i ∈ indices, Integer.Writable i) (o : Options) (w : World) :
    runFamily compiler passes family (.list (indices.map .int)) o w =
      runAll compiler passes o (indices.map (nameOf family)) [] w := by
  rw [runFamily, Family.expand_ints family h]
  exact Job.bind_of_ok rfl

end Check

end PassCheck
