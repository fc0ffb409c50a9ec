/-
Readings of the clock. A clock can show any sequence of numbers, one at each reading. From one world
to another the clock was read a number of times and laps were noted; most jobs do neither, and the
readings and laps of jobs in sequence add up.
-/
import Mathlib.Logic.Function.Iterate
import PassCheck.Proofs.Number.Rounding
import PassCheck.Proofs.World.Output

namespace PassCheck

/-! ## Readings -/

namespace Clock

/-- What a clock will show at its `k`-th reading from now. -/
def reading (c : Clock) (k : Nat) : Floating := (advance^[k + 1] c).shown

theorem reading_advance (c : Clock) (n k : Nat) : (advance^[n] c).reading k = c.reading (n + k) := by
  rw [reading, reading, ← Function.iterate_add_apply]
  congr 2
  omega

/-- The clock that shows the given values. -/
def showing (values : Nat → Rat) : Clock :=
  ⟨⟨fun k => rate * (values k - if k = 0 then 0 else values (k - 1))⟩, 0, 0⟩

theorem advance_showing (values : Nat → Rat) (k : Nat) :
    advance^[k + 1] (showing values) = ⟨(showing values).script, k + 1, rate * values k⟩ := by
  induction k with
  | zero =>
    show (⟨_, _, _⟩ : Clock) = _
    simp [showing]
  | succ k ih =>
    rw [Function.iterate_succ_apply', ih, advance]
    simp [showing, mul_sub]

/-- Every sequence of values is shown by some clock, as far as the format can show them. -/
theorem reading_showing (values : Nat → Rat) (k : Nat) :
    (showing values).reading k = .round (values k) := by
  have hrate : (rate : Rat) ≠ 0 := by decide
  rw [reading, advance_showing, shown, mul_div_cancel_left₀ _ hrate]

/-- A clock was read `n` times, and it could be read each time. -/
structure Ran (n : Nat) (c c' : Clock) : Prop where
  now : c' = advance^[n] c
  finite : ∀ k < n, (c.reading k).isFinite = true

variable {m n : Nat} {c c₁ c' : Clock}

theorem Ran.reading (h : c.Ran n c') (k : Nat) : c'.reading k = c.reading (n + k) := by
  rw [h.now, reading_advance]

theorem Ran.trans (h : c.Ran m c₁) (h' : c₁.Ran n c') : c.Ran (m + n) c' where
  now := by rw [h'.now, h.now, ← Function.iterate_add_apply, Nat.add_comm n m]
  finite k hk := by
    by_cases hm : k < m
    · exact h.finite k hm
    · have hlater := h'.finite (k - m) (by omega)
      rwa [h.reading, Nat.add_sub_cancel' (Nat.le_of_not_lt hm)] at hlater

end Clock

/-! ## Time that passes in a world -/

/-- From one world to another the clock was read `n` times, and these laps were noted. -/
structure World.Lapsed (n : Nat) (laps : List Lap) (w w' : World) : Prop where
  clock : w.clock.Ran n w'.clock
  laps : w'.laps = w.laps ++ laps

namespace World.Lapsed

variable {m n : Nat} {laps laps' : List Lap} {w w₁ w' : World}

theorem of_eq (hclock : w'.clock = w.clock) (hlaps : w'.laps = w.laps) : w.Lapsed 0 [] w' :=
  ⟨⟨hclock, nofun⟩, by rw [hlaps, List.append_nil]⟩

theorem trans (h : w.Lapsed m laps w₁) (h' : w₁.Lapsed n laps' w') :
    w.Lapsed (m + n) (laps ++ laps') w' :=
  ⟨h.clock.trans h'.clock, by rw [h'.laps, h.laps, List.append_assoc]⟩

/-- Nothing is read or noted in between. -/
theorem after_still (h : w.Lapsed 0 [] w₁) (h' : w₁.Lapsed n laps w') : w.Lapsed n laps w' := by
  simpa using h.trans h'

end World.Lapsed

/-! ## Jobs that keep time -/

namespace Job

variable {α β : Type}

/-- A job neither reads the clock nor notes a lap. -/
def KeepsTime (job : Job α) : Prop := ∀ w : World, w.Lapsed 0 [] (job w).2

theorem OnlyPrints.keepsTime {job : Job α} (h : OnlyPrints job) : KeepsTime job := by
  obtain ⟨r, out, err, hr⟩ := h
  intro w
  rw [hr w]
  exact .of_eq rfl rfl

theorem OnInput.keepsTime {job : Job α} (h : OnInput job) : KeepsTime job := by
  intro w
  rw [h.apply w]
  exact .of_eq rfl rfl

theorem keepsTime_modify {f : World → World} (hclock : ∀ w, (f w).clock = w.clock)
    (hlaps : ∀ w, (f w).laps = w.laps) : KeepsTime (modify f : Job PUnit) :=
  fun w => .of_eq (hclock w) (hlaps w)

theorem keepsTime_get : KeepsTime (get : Job World) := fun _ => .of_eq rfl rfl

theorem KeepsTime.bind {x : Job α} {f : α → Job β} (hx : KeepsTime x) (hf : ∀ a, KeepsTime (f a)) :
    KeepsTime (x >>= f) := by
  intro w
  have h := hx w
  rcases hw : x w with ⟨e | a, w₁⟩ <;> rw [hw] at h
  · rw [bind_of_error hw]; exact h
  · rw [bind_of_ok hw]; exact h.after_still (hf a w₁)

/-- No time passes before what follows a job that keeps time. -/
theorem KeepsTime.exists_of_bind_ok {x : Job α} {f : α → Job β} (hx : KeepsTime x) {w w' : World}
    {b : β} (h : (x >>= f) w = (.ok b, w')) :
    ∃ a w₁, w.Lapsed 0 [] w₁ ∧ f a w₁ = (.ok b, w') := by
  obtain ⟨a, w₁, hw, h⟩ := Job.exists_of_bind_ok h
  have hstill := hx w
  rw [hw] at hstill
  exact ⟨a, w₁, hstill, h⟩

theorem KeepsTime.withInput {job : Job α} (h : KeepsTime job) (input : Input) :
    KeepsTime (withInput input job) := by
  intro w
  have hrun := h (w.withInput input)
  exact .of_eq hrun.clock.now (by rw [← List.append_nil w.laps]; exact hrun.laps)

theorem keepsTime_stamp (d : Datum) : KeepsTime (stamp d) := by
  unfold stamp
  split
  · refine KeepsTime.bind (keepsTime_modify (fun _ => rfl) fun _ => rfl) fun _ => ?_
    exact keepsTime_get.bind fun _ => (onlyPrints_pure _).keepsTime
  · exact (onlyPrints_pure _).keepsTime

/-- A clock that can be read shows a finite number. -/
theorem readClock_lapsed {w w' : World} {x : Floating} (h : readClock w = (.ok x, w')) :
    x = w.clock.reading 0 ∧ w.Lapsed 1 [] w' := by
  rw [readClock_apply] at h
  obtain ⟨hx, rfl⟩ := Prod.mk.inj h
  have hshown : x = w.clock.reading 0 ∧ x.isFinite = true := by
    show x = w.clock.advance.shown ∧ _
    cases hs : w.clock.advance.shown with
    | nan mark => exact absurd hs (Floating.round_ne_nan _ mark)
    | infinite negative => rw [hs] at hx; cases hx
    | negZero => rw [hs] at hx; cases hx; exact ⟨rfl, rfl⟩
    | exact q => rw [hs] at hx; cases hx; exact ⟨rfl, rfl⟩
  refine ⟨hshown.1, ⟨rfl, fun k hk => ?_⟩, (List.append_nil _).symm⟩
  obtain rfl : k = 0 := by omega
  rw [← hshown.1]; exact hshown.2

theorem noteLap_lapsed (lap : Lap) (w : World) : w.Lapsed 0 [lap] (noteLap lap w).2 :=
  ⟨⟨rfl, nofun⟩, rfl⟩

end Job

end PassCheck
