/-
The laps of a timed check. Each pass reads the clock twice, just before and just after its transform,
and notes one lap; if the routines of a check keep time, nothing else reads the clock. So the laps of
a check that succeeds are those of its passes in their order, each with two readings of its own. Every
stock routine keeps time.
-/
import PassCheck.Proofs.Lint.Rewrite
import PassCheck.Proofs.Pass.Repeat
import PassCheck.Proofs.World.Clock

namespace PassCheck

open Job (KeepsTime)

/-! ## Stock routines -/

theorem Tracer.keepsTime_choose (given : Option Tracer) : KeepsTime (choose given) := by
  intro w
  rw [choose_apply]
  exact .of_eq rfl rfl

theorem Routine.keepsTime_unary {f : Datum → Job Datum} (h : ∀ d, KeepsTime (f d))
    (args : List Datum) : KeepsTime (unary f args) := by
  unfold unary
  split
  · exact h _
  · exact (Job.onInput_throw _).keepsTime

theorem Lint.keepsTime_codegen (p : Datum) : KeepsTime (codegen p) := by
  unfold codegen
  split
  · exact ((Job.onInput_lift _).bind fun _ => Job.onInput_pure _).keepsTime
  · exact ((Job.onInput_lift _).bind fun _ => Job.onInput_pure _).keepsTime
  · exact (onInput_reject _ _).keepsTime

theorem Lint.keepsTime_foldWrong (p : Datum) : KeepsTime (foldWrong p) := by
  unfold foldWrong
  split
  · exact (Job.onInput_lift _).keepsTime.bind fun e => (Job.keepsTime_stamp e).bind fun _ =>
      (Job.onInput_pure _).keepsTime
  · exact (Job.onInput_pure _).keepsTime

namespace Recipe

theorem keepsTime_nextOf (id : Nat) (values : List Datum) : KeepsTime (nextOf id values) := by
  refine Job.keepsTime_get.bind fun _ =>
    KeepsTime.bind (Job.keepsTime_modify (fun _ => rfl) fun _ => rfl) fun _ => ?_
  split
  · exact (Job.onInput_pure _).keepsTime
  · exact (Job.onInput_throw _).keepsTime

/-- No stock routine reads the clock or notes a lap. -/
theorem keepsTime_routine (r : Recipe) (args : List Datum) : KeepsTime (r.routine args) := by
  cases r with
  | print line =>
    refine Routine.keepsTime_unary (fun d => ?_) args
    exact (Job.onInput_lift _).keepsTime.bind fun text =>
      (Job.onlyPrints_print text).keepsTime.bind fun _ => (Job.onInput_pure d).keepsTime
  | trace label =>
    refine Routine.keepsTime_unary (fun d => ?_) args
    exact (Tracer.keepsTime_choose .none).bind fun t =>
      (t.onlyPrints_trace label d).keepsTime.bind fun _ => (Job.onInput_pure d).keepsTime
  | codegen => exact Routine.keepsTime_unary Lint.keepsTime_codegen args
  | foldWrong => exact Routine.keepsTime_unary Lint.keepsTime_foldWrong args
  | interpret =>
    exact Routine.keepsTime_unary (fun p => (Lint.onInput_interpret p).keepsTime) args
  | printSexp =>
    exact Routine.keepsTime_unary (fun _ =>
      ((Job.onInput_lift _).bind fun _ => Job.onInput_pure _).keepsTime) args
  | readInt =>
    exact Routine.keepsTime_unary (fun _ =>
      (Lint.onInput_readInt.bind fun _ => Job.onInput_pure _).keepsTime) args
  | readLine =>
    exact Routine.keepsTime_unary (fun _ =>
      (Job.onInput_readLine.bind fun _ => Job.onInput_pure _).keepsTime) args
  | readAll =>
    exact Routine.keepsTime_unary (fun _ =>
      (Job.onInput_readRest.bind fun _ => Job.onInput_pure _).keepsTime) args
  | succDouble =>
    refine Routine.keepsTime_unary (fun _ => ?_) args
    exact (Job.onInput_lift _).keepsTime.bind fun s => (Job.onInput_lift _).keepsTime.bind fun m =>
      (Job.keepsTime_stamp s).bind fun _ => (Job.keepsTime_stamp m).bind fun _ =>
      (Job.onInput_pure _).keepsTime
  | two =>
    show KeepsTime (if args.length = 2 then _ else _)
    split
    · exact (Job.onInput_pure _).keepsTime
    · exact (Job.onInput_throw _).keepsTime
  | sum => exact (Job.onInput_lift _).keepsTime.bind fun d => Job.keepsTime_stamp d
  | seq id values => exact keepsTime_nextOf id values
  | fail failure => exact (Job.onInput_throw failure).keepsTime
  | args => exact (Job.onInput_pure _).keepsTime
  | none => exact (Job.onInput_pure _).keepsTime
  | const value => exact (Job.onInput_pure value).keepsTime
  | swap => exact Routine.keepsTime_unary (fun _ => (Job.onInput_lift _).keepsTime) args
  | shrink | fold | identity | listify | dup | wrap tag =>
    exact Routine.keepsTime_unary (fun _ => (Job.onInput_pure _).keepsTime) args

end Recipe

namespace Check

/-! ## A timed check -/

/-- The laps of passes on a clock with the given readings: two for each pass. -/
def lapsBy (readings : Nat → Floating) (passes : List (Pass Routine)) : List Lap :=
  passes.mapIdx fun i p => ⟨p.name, readings (2 * i), readings (2 * i + 1)⟩

theorem lapsBy_cons (c : Nat → Floating) (p : Pass Routine) (ps : List (Pass Routine)) :
    lapsBy c (p :: ps) = ⟨p.name, c 0, c 1⟩ :: lapsBy (fun k => c (2 + k)) ps := by
  rw [lapsBy, List.mapIdx_cons, lapsBy]
  congr 1
  refine congrArg (fun f => List.mapIdx f ps) (funext fun i => funext fun q => ?_)
  rw [Nat.mul_succ, Nat.add_comm (2 * i) 2, Nat.add_assoc]

/-- No routine of a check reads the clock or notes a lap. -/
structure Timeless (passes : List (Pass Routine)) (o : Options) : Prop where
  transforms : ∀ p ∈ passes, ∀ d, KeepsTime (p.transform [d])
  interpreters : ∀ p ∈ passes, ∀ i ∈ p.interpreter, ∀ d, KeepsTime (i [d])
  reader : ∀ path, KeepsTime (o.reader path)
  typeChecker : ∀ i ∈ o.typeChecker, ∀ d, KeepsTime (i [d])
  initialInterpreter : ∀ i ∈ o.initialInterpreter, ∀ d, KeepsTime (i [d])

theorem keepsTime_readProgram (path : String) : KeepsTime (readProgram path) := by
  intro w
  rw [readProgram_apply]
  exact .of_eq rfl rfl

theorem keepsTime_runInterpreter {i : Routine} {d : Datum} (h : KeepsTime (i [d]))
    (inputPath : Option String) : KeepsTime (runInterpreter i d inputPath) := by
  unfold runInterpreter
  split
  · exact h
  · refine Job.keepsTime_get.bind fun w => ?_
    split
    · exact KeepsTime.bind (fun _ => .of_eq rfl rfl) fun content => h.withInput (.ofBytes content)
    · exact h

theorem keepsTime_checkType {checker : Option Routine} {d : Datum}
    (h : ∀ i ∈ checker, KeepsTime (i [d])) : KeepsTime (checkType checker d) := by
  unfold checkType
  split
  · exact (Job.onInput_pure ()).keepsTime
  · exact (h _ rfl).bind fun _ => (Job.onInput_pure ()).keepsTime

theorem keepsTime_initialResult (t : Tracer) {interp : Option Routine} {d : Datum}
    (h : ∀ i ∈ interp, KeepsTime (i [d])) (inputPath : String) :
    KeepsTime (initialResult t interp inputPath d) := by
  unfold initialResult
  split
  · exact (Job.onInput_pure none).keepsTime
  · exact (keepsTime_runInterpreter (h _ rfl) _).bind fun r =>
      (t.onlyPrints_trace _ r).keepsTime.bind fun _ => (Job.onInput_pure _).keepsTime

/-- A check of stock routines that reads its program from a file. -/
theorem timeless_recipes (passes : List (Pass Recipe)) (checker first : Option Recipe) {o : Options}
    (hreader : o.reader = readProgram) (hchecker : o.typeChecker = checker.map Recipe.routine)
    (hfirst : o.initialInterpreter = first.map Recipe.routine) :
    Timeless (passes.map (Pass.map Recipe.routine)) o := by
  have hmap : ∀ {r? : Option Recipe}, ∀ i ∈ r?.map Recipe.routine, ∀ d, KeepsTime (i [d]) := by
    intro r? i hi d
    obtain ⟨r, -, rfl⟩ := Option.mem_map.1 hi
    exact r.keepsTime_routine [d]
  refine ⟨fun p hp d => ?_, fun p hp => ?_, hreader ▸ keepsTime_readProgram, hchecker ▸ hmap,
    hfirst ▸ hmap⟩
  · obtain ⟨q, -, rfl⟩ := List.mem_map.1 hp
    exact q.transform.keepsTime_routine [d]
  · obtain ⟨q, -, rfl⟩ := List.mem_map.1 hp
    exact hmap

variable {compiler : String} {w w' : World}

/-- A timed transform takes one lap. -/
theorem runTransform_lapsed {p : Pass Routine} {d output : Datum} (hp : KeepsTime (p.transform [d]))
    (h : runTransform true p d w = (.ok output, w')) :
    w.Lapsed 2 [⟨p.name, w.clock.reading 0, w.clock.reading 1⟩] w' := by
  unfold runTransform at h
  obtain ⟨start, w₁, hstart, h⟩ := Job.exists_of_bind_ok h
  obtain ⟨made, w₂, hstill, h⟩ := hp.exists_of_bind_ok h
  obtain ⟨stop, w₃, hstop, h⟩ := Job.exists_of_bind_ok h
  cases h
  obtain ⟨rfl, hfirst⟩ := Job.readClock_lapsed hstart
  obtain ⟨rfl, hsecond⟩ := Job.readClock_lapsed hstop
  have hmade := hfirst.trans hstill
  rw [hmade.clock.reading]
  exact (hmade.trans hsecond).trans (Job.noteLap_lapsed _ w₃)

/-- Timed passes that succeed take one lap each. -/
theorem chain_lapsed {t : Tracer} {inputPath : String} {passes : List (Pass Routine)} {d : Datum}
    {last result : Option Datum} (htransform : ∀ p ∈ passes, ∀ d, KeepsTime (p.transform [d]))
    (hinterp : ∀ p ∈ passes, ∀ i ∈ p.interpreter, ∀ d, KeepsTime (i [d]))
    (h : chain compiler t true inputPath passes d last w = (.ok result, w')) :
    w.Lapsed (2 * passes.length) (lapsBy w.clock.reading passes) w' := by
  induction passes generalizing d last w with
  | nil => cases h; exact .of_eq rfl rfl
  | cons p ps ih =>
    obtain ⟨hp, hps⟩ := List.forall_mem_cons.1 htransform
    obtain ⟨hi, his⟩ := List.forall_mem_cons.1 hinterp
    -- the passes behind this one see the readings behind its own two
    have hcons : ∀ {w₁}, w.Lapsed 2 [⟨p.name, w.clock.reading 0, w.clock.reading 1⟩] w₁ →
        w₁.Lapsed (2 * ps.length) (lapsBy w₁.clock.reading ps) w' →
        w.Lapsed (2 * (p :: ps).length) (lapsBy w.clock.reading (p :: ps)) w' := by
      intro w₁ hfirst hrest
      rw [funext hfirst.clock.reading] at hrest
      rw [lapsBy_cons, List.length_cons, Nat.mul_succ, Nat.add_comm]
      exact hfirst.trans hrest
    unfold chain at h
    obtain ⟨output, w₁, hrun, h⟩ := Job.exists_of_bind_ok h
    obtain ⟨-, w₂, htrace, h⟩ := (t.onlyPrints_trace _ output).keepsTime.exists_of_bind_ok h
    have hlap := (runTransform_lapsed (hp d) hrun).trans htrace
    cases hint : p.interpreter with
    | none =>
      rw [hint] at h
      exact hcons hlap (ih hps his h)
    | some i =>
      rw [hint] at h
      have hkeeps := keepsTime_runInterpreter (hi i hint output) (some inputPath)
      obtain ⟨found, w₃, h₃, h⟩ := hkeeps.exists_of_bind_ok h
      obtain ⟨-, w₄, h₄, h⟩ := (t.onlyPrints_trace _ found).keepsTime.exists_of_bind_ok h
      obtain ⟨-, w₅, h₅, h⟩ :=
        (onlyPrints_compare compiler p last found output).keepsTime.exists_of_bind_ok h
      exact hcons (hlap.trans ((h₃.after_still h₄).after_still h₅)) (ih hps his h)

/-- A timed check that succeeds notes the laps of its passes. -/
theorem Timeless.run_lapsed {passes : List (Pass Routine)} {o : Options} (ho : Timeless passes o)
    {test : String} {r : Datum}
    (h : run compiler passes test { o with timed := true } w = (.ok r, w')) :
    w.Lapsed (2 * passes.length) (lapsBy w.clock.reading passes) w' := by
  unfold run at h
  obtain ⟨t, w₁, h₁, h⟩ := (Tracer.keepsTime_choose o.tracer).exists_of_bind_ok h
  obtain ⟨program, w₂, h₂, h⟩ := (ho.reader _).exists_of_bind_ok h
  obtain ⟨-, w₃, h₃, h⟩ := (t.onlyPrints_trace _ program).keepsTime.exists_of_bind_ok h
  have htypes := keepsTime_checkType fun i hi => ho.typeChecker i hi program
  obtain ⟨-, w₄, h₄, h⟩ := htypes.exists_of_bind_ok h
  have hinitial := keepsTime_initialResult t (fun i hi => ho.initialInterpreter i hi program)
    (Family.inputPath test o.testsDir)
  obtain ⟨first, w₅, h₅, h⟩ := hinitial.exists_of_bind_ok h
  obtain ⟨result, w₆, hchain, h⟩ := Job.exists_of_bind_ok h
  cases h
  have hbefore := (((h₁.after_still h₂).after_still h₃).after_still h₄).after_still h₅
  have hlaps := chain_lapsed ho.transforms ho.interpreters hchain
  rw [funext hbefore.clock.reading] at hlaps
  simpa using hbefore.after_still hlaps

end Check

end PassCheck
