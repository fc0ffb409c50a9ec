/-
Rows and the clock. Measuring tests is three loops, over the tests, their runs and the passes, which
share one clock. As long as no check fails, each row takes exactly two readings, so the row of a
test, a run and a pass and the two readings of its time all have a place that can be computed.
-/
import PassCheck.Proofs.Pass.Laps
import PassCheck.Timing.Measure

namespace PassCheck.Timing

open Check (Timeless lapsBy)

/-! ## Checks one after another -/

/-- The checks of tests, each with its run, in the order in which they are made. -/
def schedule (runs : Nat) (tests : List String) : List (String × Nat) :=
  tests.flatMap fun test => (List.range runs).map (test, ·)

/-- The check of a test in one of `total` runs: the run is announced, and no lap is noted yet. -/
def checkRun (compiler : String) (passes : List (Pass Routine)) (o : Check.Options) (total : Int)
    (test : String) (k : Nat) : Job Datum := do
  announce compiler test total k
  modify fun w => { w with laps := [] }
  Check.run compiler passes test { o with timed := true }

/-- No check of a list fails when they are made one after another. -/
def ChecksPass (compiler : String) (passes : List (Pass Routine)) (o : Check.Options) (total : Int) :
    List (String × Nat) → World → Prop
  | [], _ => True
  | (test, k) :: checks, w =>
    (checkRun compiler passes o total test k w).1.isOk = true ∧
      ChecksPass compiler passes o total checks (checkRun compiler passes o total test k w).2

/-- The milliseconds from the first to the second reading for a row. -/
def elapsed (readings : Nat → Floating) (j : Nat) : Floating :=
  ((readings (2 * j + 1)).sub (readings (2 * j))).mul (.exact 1000)

theorem elapsed_of_ran {c c' : Clock} {n : Nat} (h : c.Ran (2 * n) c') (j : Nat) :
    elapsed c'.reading j = elapsed c.reading (n + j) := by
  rw [elapsed, elapsed, h.reading, h.reading, Nat.mul_add, Nat.add_assoc]

variable {passes : List (Pass Routine)}

/-- These rows were measured between two worlds: one for every pass of every check, in order, and
two readings of the clock for every row. -/
structure Measured (passes : List (Pass Routine)) (checks : List (String × Nat)) (rows : List Row)
    (w w' : World) : Prop where
  length : rows.length = checks.length * passes.length
  row : ∀ {i p test k pass}, checks[i]? = some (test, k) → passes[p]? = some pass →
    rows[i * passes.length + p]? =
      some ⟨test, pass.name, k, elapsed w.clock.reading (i * passes.length + p)⟩
  clock : w.clock.Ran (2 * rows.length) w'.clock

variable {checks checks' : List (String × Nat)} {rows rows' : List Row} {w w₁ w' : World}

theorem Measured.nil (w : World) : Measured passes [] [] w w :=
  ⟨(Nat.zero_mul _).symm, nofun, rfl, nofun⟩

theorem Measured.append (h : Measured passes checks rows w w₁)
    (h' : Measured passes checks' rows' w₁ w') :
    Measured passes (checks ++ checks') (rows ++ rows') w w' where
  length := by
    rw [List.length_append, List.length_append, Nat.add_mul, h.length, h'.length]
  clock := by
    rw [List.length_append, Nat.mul_add]
    exact h.clock.trans h'.clock
  row {i p test k pass} hcheck hpass := by
    have hp : p < passes.length := (List.getElem?_eq_some_iff.1 hpass).1
    by_cases hi : i < checks.length
    · -- all rows of an earlier check stand before those of the later ones
      rw [List.getElem?_append_left hi] at hcheck
      rw [List.getElem?_append_left, h.row hcheck hpass]
      have hle : (i + 1) * passes.length ≤ checks.length * passes.length :=
        Nat.mul_le_mul_right _ hi
      rw [h.length]
      rw [Nat.succ_mul] at hle
      omega
    · -- the places of a later check are counted from the world in between
      obtain ⟨i, rfl⟩ := Nat.exists_eq_add_of_le (Nat.le_of_not_lt hi)
      rw [List.getElem?_append_right (Nat.le_add_right _ _), Nat.add_sub_cancel_left] at hcheck
      rw [Nat.add_mul, ← h.length, Nat.add_assoc, List.getElem?_append_right (Nat.le_add_right _ _),
        Nat.add_sub_cancel_left, h'.row hcheck hpass, elapsed_of_ran h.clock]

/-- The row at a place holds the milliseconds between the two readings for that place. -/
theorem Measured.runtime (h : Measured passes checks rows w w') {j : Nat} {row : Row}
    (hrow : rows[j]? = some row) : row.runtime = elapsed w.clock.reading j := by
  have hj : j < checks.length * passes.length :=
    h.length ▸ (List.getElem?_eq_some_iff.1 hrow).1
  have hpos : 0 < passes.length := Nat.pos_of_ne_zero fun h0 => by simp [h0] at hj
  -- the place is that of a check and a pass
  have hcheck := List.getElem?_eq_getElem ((Nat.div_lt_iff_lt_mul hpos).2 hj)
  have hpass := List.getElem?_eq_getElem (Nat.mod_lt j hpos)
  have hplace := h.row hcheck hpass
  rw [Nat.div_add_mod', hrow] at hplace
  rw [Option.some.inj hplace]

/-- If the clock does not go backwards, no time is negative. -/
theorem Measured.zero_atMost_runtime (h : Measured passes checks rows w w')
    (hforward : ∀ k, k + 1 < 2 * rows.length →
      (w.clock.reading k).atMost (w.clock.reading (k + 1)) = true) {row : Row} (hrow : row ∈ rows) :
    (Floating.exact 0).atMost row.runtime = true := by
  obtain ⟨j, hj⟩ := List.mem_iff_getElem?.1 hrow
  have hlt := (List.getElem?_eq_some_iff.1 hj).1
  rw [h.runtime hj]
  refine Floating.zero_atMost_mul (by decide) (Floating.zero_atMost_sub ?_ ?_ ?_)
  · exact h.clock.finite _ (by omega)
  · exact h.clock.finite _ (by omega)
  · exact hforward _ (by omega)

/-! ## The loops -/

variable {compiler test : String} {o : Check.Options} {total : Int}

theorem exists_of_checkRun {k : Nat} {r : Datum}
    (h : checkRun compiler passes o total test k w = (.ok r, w')) :
    ∃ w₁, announce compiler test total k w = (.ok (), w₁) ∧
      Check.run compiler passes test { o with timed := true } { w₁ with laps := [] } = (.ok r, w') := by
  obtain ⟨_, w₁, hannounce, h⟩ := Job.exists_of_bind_ok h
  exact ⟨w₁, hannounce, h⟩

theorem onlyPrints_announce (compiler test : String) (total : Int) (k : Nat) :
    Job.OnlyPrints (announce compiler test total k) :=
  (Job.computes_lift _).onlyPrints.bind fun _ =>
    (Job.computes_lift _).onlyPrints.bind fun _ => Job.onlyPrints_print _

/-- A check that succeeds gives the rows of its passes. -/
theorem measured_check (ho : Timeless passes o) {k : Nat} {r : Datum}
    (h : checkRun compiler passes o total test k w = (.ok r, w')) :
    Measured passes [(test, k)] (w'.laps.map fun lap => ⟨test, lap.pass, k, milliseconds lap⟩)
      w w' := by
  obtain ⟨w₁, hannounce, hrun⟩ := exists_of_checkRun h
  have hstill := (onlyPrints_announce compiler test total k).keepsTime w
  rw [hannounce] at hstill
  have hlapsed := ho.run_lapsed hrun
  have hreading : w₁.clock.reading = w.clock.reading := by
    funext j
    rw [hstill.clock.reading, Nat.zero_add]
  have hlaps : w'.laps = lapsBy w.clock.reading passes := by
    rw [← hreading]
    exact hlapsed.laps
  have hlength : w'.laps.length = passes.length := by rw [hlaps, lapsBy, List.length_mapIdx]
  refine ⟨by simp [hlength], fun {i p name run pass} hcheck hpass => ?_, ?_⟩
  · obtain ⟨rfl, hcheck⟩ : i = 0 ∧ (test, k) = (name, run) := by
      cases i with
      | zero => exact ⟨rfl, Option.some.inj hcheck⟩
      | succ i => cases hcheck
    cases hcheck
    rw [Nat.zero_mul, Nat.zero_add, List.getElem?_map, hlaps, lapsBy, List.getElem?_mapIdx, hpass]
    rfl
  · rw [List.length_map, hlength, ← Nat.zero_add (2 * _)]
    exact hstill.clock.trans hlapsed.clock

theorem lapsOf_of_ok {α : Type} {job : Job α} {a : α}
    (h : job { w with laps := [] } = (.ok a, w')) : lapsOf job w = (.ok w'.laps, w') := by
  unfold lapsOf
  rw [Job.bind_of_ok (Job.modify_apply _ w), Job.bind_of_ok h, Job.bind_of_ok (Job.get_apply w')]
  rfl

/-- The runs of a test. Behind them come the checks of other tests. -/
theorem exists_measureRuns (ho : Timeless passes o) {left k : Nat}
    (h : ChecksPass compiler passes o total ((List.range' k left).map (test, ·) ++ checks) w) :
    ∃ rows w', measureRuns compiler passes o test total left k w = (.ok rows, w') ∧
      Measured passes ((List.range' k left).map (test, ·)) rows w w' ∧
      ChecksPass compiler passes o total checks w' := by
  induction left generalizing k w with
  | zero => exact ⟨[], w, rfl, .nil w, h⟩
  | succ left ih =>
    obtain ⟨hok, hrest⟩ := h
    rcases hcheck : checkRun compiler passes o total test k w with ⟨e | r, w₂⟩
    · rw [hcheck] at hok; cases hok
    · rw [hcheck] at hrest
      obtain ⟨rows, w', hruns, hmeasured, hchecks⟩ := ih hrest
      obtain ⟨w₁, hannounce, hrun⟩ := exists_of_checkRun hcheck
      refine ⟨_, w', ?_, (measured_check ho hcheck).append hmeasured, hchecks⟩
      rw [measureRuns, Job.bind_of_ok hannounce, Job.bind_of_ok (lapsOf_of_ok hrun),
        Job.bind_of_ok hruns]
      rfl

theorem exists_measureTests (ho : Timeless passes o) {runs : Nat} {tests : List String}
    (h : ChecksPass compiler passes o runs (schedule runs tests) w) :
    ∃ rows w', measureTests compiler passes o runs tests w = (.ok rows, w') ∧
      Measured passes (schedule runs tests) rows w w' := by
  induction tests generalizing w with
  | nil => exact ⟨[], w, rfl, .nil w⟩
  | cons test tests ih =>
    rw [schedule, List.flatMap_cons, List.range_eq_range'] at h
    obtain ⟨rows, w₁, hruns, hmeasured, hrest⟩ := exists_measureRuns ho h
    rw [← List.range_eq_range'] at hmeasured hrest
    obtain ⟨rows', w', htests, hmeasured'⟩ := ih hrest
    refine ⟨rows ++ rows', w', ?_, hmeasured.append hmeasured'⟩
    rw [measureTests, Int.toNat_natCast, Job.bind_of_ok hruns, Job.bind_of_ok htests]
    rfl

/-- The check of a test in one of its runs stands behind all runs of the tests before. -/
theorem schedule_getElem? {runs b : Nat} (hb : b < runs) {tests : List String} {a : Nat}
    (h : tests[a]? = some test) : (schedule runs tests)[a * runs + b]? = some (test, b) := by
  induction tests generalizing a with
  | nil => cases h
  | cons t tests ih =>
    have hlength : ((List.range runs).map (t, ·)).length = runs := by simp
    rw [schedule, List.flatMap_cons]
    cases a with
    | zero =>
      cases h
      rw [Nat.zero_mul, Nat.zero_add, List.getElem?_append_left (by rw [hlength]; exact hb),
        List.getElem?_map, List.getElem?_range hb]
      rfl
    | succ a =>
      have hplace : (a + 1) * runs + b = runs + (a * runs + b) := by rw [Nat.succ_mul]; omega
      rw [hplace, List.getElem?_append_right (by rw [hlength]; exact Nat.le_add_right _ _), hlength,
        Nat.add_sub_cancel_left]
      exact ih h

theorem length_schedule (runs : Nat) (tests : List String) :
    (schedule runs tests).length = tests.length * runs := by
  simp [schedule, List.length_flatMap, Nat.mul_comm]

/-- Where nothing has to be rounded, the time of a row is exact. -/
theorem elapsed_exact {c : Nat → Floating} {j : Nat} {x y : Rat} (hx : c (2 * j) = .exact x)
    (hy : c (2 * j + 1) = .exact y) (hdiff : Floating.round (y - x) = .exact (y - x))
    (htime : Floating.round (1000 * (y - x)) = .exact (1000 * (y - x))) :
    elapsed c j = .exact (1000 * (y - x)) := by
  rw [elapsed, hx, hy, Floating.exact_sub_exact hdiff]
  rw [mul_comm] at htime ⊢
  exact Floating.exact_mul_exact (by decide) htime

/-- As long as no check fails, measuring gives one row for every test, run and pass, in this order.
The row at a place holds the milliseconds between the two readings of the clock for that place, which
are exact where nothing has to be rounded; and if the clock does not go backwards meanwhile, no time
is negative. -/
theorem measure_follows_clock {family : String} {indices : Datum} {runs : Nat} {tests : List String}
    (hnames : Family.expand family indices = .ok tests) (ho : Timeless passes o)
    (hchecks : ChecksPass compiler passes o runs (schedule runs tests) w) :
    ∃ rows w', measure compiler passes family indices runs o w = (.ok rows, w') ∧
      rows.length = tests.length * runs * passes.length ∧
      (∀ a b p test pass, tests[a]? = some test → b < runs → passes[p]? = some pass →
        let j := (a * runs + b) * passes.length + p
        let start := w.clock.reading (2 * j)
        let stop := w.clock.reading (2 * j + 1)
        ∃ runtime, rows[j]? = some ⟨test, pass.name, b, runtime⟩ ∧
          runtime = (stop.sub start).mul (.exact 1000) ∧
          ∀ x y : Rat, start = .exact x → stop = .exact y →
            Floating.round (y - x) = .exact (y - x) →
            Floating.round (1000 * (y - x)) = .exact (1000 * (y - x)) →
            runtime = .exact (1000 * (y - x))) ∧
      ((∀ k, k + 1 < 2 * rows.length →
          (w.clock.reading k).atMost (w.clock.reading (k + 1)) = true) →
        ∀ row ∈ rows, (Floating.exact 0).atMost row.runtime = true) := by
  obtain ⟨rows, w', hrun, hmeasured⟩ := exists_measureTests ho hchecks
  refine ⟨rows, w', ?_, ?_, ?_, fun hforward row hrow => hmeasured.zero_atMost_runtime hforward hrow⟩
  · rw [measure, hnames, Job.bind_of_ok (Job.lift_apply _ w), hrun]
  · rw [hmeasured.length, length_schedule]
  · intro a b p test pass ha hb hp
    exact ⟨_, hmeasured.row (schedule_getElem? hb ha) hp, rfl, fun x y => elapsed_exact⟩

/-- A pass that is run twice under one name. -/
def twicePasses : List (Pass Routine) :=
  [⟨"fold", .fold, some .interpret⟩, ⟨"fold", .fold, some .interpret⟩].map (Pass.map Recipe.routine)

/-- A world with one test, and with a clock that shows the squares in 1/1024 seconds. -/
def squareWorld : World :=
  { World.start ⟨[(["tests"], .dir), (["tests", "t_1.rkt"], .file "(+ 40 2)".toUTF8)]⟩ with
    clock := Clock.showing fun k => (k * k : Nat) / 1024 }

theorem measure_follows_clock_twice :
    Timeless twicePasses .plain ∧
    ChecksPass "rc" twicePasses .plain 2 (schedule 2 ["t_1", "t_1"]) squareWorld ∧
    ∃ rows w',
      measure "rc" twicePasses "t" (.list [.int 1, .int 1]) 2 .plain squareWorld = (.ok rows, w') ∧
      rows.length = 8 ∧
      rows[5]? = some ⟨"t_1", "fold", 0, .exact (1000 * (121 / 1024 - 100 / 1024))⟩ ∧
      ∀ row ∈ rows, (Floating.exact 0).atMost row.runtime = true := by
  have ho : Timeless twicePasses .plain := Check.timeless_recipes _ none none rfl rfl rfl
  have hchecks : ChecksPass "rc" twicePasses .plain 2 (schedule 2 ["t_1", "t_1"]) squareWorld := by
    refine ⟨?_, ?_, ?_, ?_, trivial⟩ <;> decide +kernel
  have hnames : Family.expand "t" (.list [.int 1, .int 1]) = .ok ["t_1", "t_1"] :=
    (Family.expand_ints "t" (by decide +kernel : ∀ i ∈ [1, 1], Integer.Writable i)).trans
      (congrArg _ (by decide +kernel))
  have hreading : ∀ k, squareWorld.clock.reading k = .round ((k * k : Nat) / 1024) :=
    Clock.reading_showing _
  obtain ⟨rows, w', hrun, hlength, hrow, hforward⟩ := measure_follows_clock hnames ho hchecks
  refine ⟨ho, hchecks, rows, w', hrun, hlength, ?_, hforward fun k hk => ?_⟩
  · obtain ⟨runtime, hplace, -, hexact⟩ := hrow 1 0 1 "t_1" _ rfl (by decide) rfl
    have hruntime : runtime = .exact (1000 * (121 / 1024 - 100 / 1024)) :=
      hexact _ _ ((hreading 10).trans (by decide +kernel)) ((hreading 11).trans (by decide +kernel))
        (by decide +kernel) (by decide +kernel)
    rw [hruntime] at hplace
    exact hplace
  · have hsquares : ∀ k < 15, (Floating.round ((k * k : Nat) / 1024)).atMost
        (.round (((k + 1) * (k + 1) : Nat) / 1024)) = true := by decide +kernel
    rw [hreading, hreading]
    rw [hlength] at hk
    exact hsquares k (Nat.lt_of_succ_lt_succ hk)

end PassCheck.Timing
