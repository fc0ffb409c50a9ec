/-
Two runs of one job, a quiet one and a loud one. Their worlds differ in what was printed and in the
tracer, and what the quiet run printed stands in the output of the loud one: its characters do, and
its lines do as long as nothing is traced in the middle of a line. A job that only adds to standard
output, and does not look at the tracer, keeps two worlds like this, and so does tracing a value that
can be written.
-/
import PassCheck.Proofs.World.Output

namespace PassCheck

/-! ## Whole lines -/

namespace Text

/-- A text of whole lines: it is empty or ends in LF. -/
def Whole (cs : List Char) : Prop := ∀ c ∈ cs.getLast?, c = '\n'

variable {a b c : List Char}

theorem whole_append (ha : Whole a) (hb : Whole b) : Whole (a ++ b) := by
  intro x hx
  rw [List.getLast?_append, Option.mem_def] at hx
  cases hl : b.getLast? with
  | none => rw [hl] at hx; exact ha x hx
  | some y => rw [hl] at hx; cases hx; exact hb x hl

theorem whole_line (cs : List Char) : Whole (cs ++ ['\n']) := by
  intro x hx
  simpa using hx.symm

theorem cutAfter_ne_nil {ends : Char → Bool} {x : Char} : cutAfter ends (x :: a) ≠ [] := by
  rw [cutAfter]
  split
  · simp
  · split <;> simp

/-- The lines of whole lines and more are those of both parts. -/
theorem lines_append (h : Whole a) (b : List Char) : lines (a ++ b) = lines a ++ lines b := by
  unfold lines
  induction a with
  | nil => rfl
  | cons x xs ih =>
    cases xs with
    | nil =>
      obtain rfl := h x rfl
      rfl
    | cons y ys =>
      -- the last character is that of the rest
      have htail : Whole (y :: ys) := fun z hz => h z (by rw [List.getLast?_cons_cons]; exact hz)
      rw [List.cons_append, cutAfter, cutAfter, ih htail]
      split
      · rfl
      · obtain ⟨line, rest, hcut⟩ := List.exists_cons_of_ne_nil
          (@cutAfter_ne_nil ys (· == '\n') y)
        rw [hcut]; rfl

/-- Two texts that go on alike from where both stood at the start of a line; of what stands before,
the lines of the first stand in the second in the same order. -/
def Within (a b : List Char) : Prop :=
  ∃ a' b' rest, a = a' ++ rest ∧ b = b' ++ rest ∧ Whole a' ∧ Whole b' ∧
    (lines a').Sublist (lines b')

theorem within_of_whole (ha : Whole a) (hb : Whole b) (h : (lines a).Sublist (lines b)) :
    Within a b :=
  ⟨a, b, [], (List.append_nil a).symm, (List.append_nil b).symm, ha, hb, h⟩

theorem Within.append (h : Within a b) (c : List Char) : Within (a ++ c) (b ++ c) := by
  obtain ⟨a', b', rest, rfl, rfl, ha, hb, hlines⟩ := h
  exact ⟨a', b', rest ++ c, List.append_assoc .., List.append_assoc .., ha, hb, hlines⟩

theorem Within.lines_sublist (h : Within a b) : (lines a).Sublist (lines b) := by
  obtain ⟨a', b', rest, rfl, rfl, ha, hb, hlines⟩ := h
  rw [lines_append ha, lines_append hb]
  exact hlines.append (List.Sublist.refl _)

end Text

/-- How closely outputs are compared: by their characters or by their lines. -/
inductive Grain where
  | characters
  | lines

namespace Grain

/-- The output of a quiet run stands in that of a loud one. -/
def Stands : Grain → List Char → List Char → Prop
  | characters, a, b => a.Sublist b
  | lines, a, b => (Text.lines a).Sublist (Text.lines b)

/-- Both outputs on the way. -/
def Within : Grain → List Char → List Char → Prop
  | characters, a, b => a.Sublist b
  | lines, a, b => Text.Within a b

/-- Where lines are compared, a value is traced at the start of a line. -/
def Free : Grain → List Char → Prop
  | characters, _ => True
  | lines, a => Text.Whole a

variable {grain : Grain} {a b : List Char}

theorem Within.stands (h : grain.Within a b) : grain.Stands a b := by
  cases grain with
  | characters => exact h
  | lines => exact Text.Within.lines_sublist h

theorem within_nil (grain : Grain) : grain.Within [] [] := by
  cases grain with
  | characters => exact .slnil
  | lines => exact Text.within_of_whole nofun nofun .slnil

theorem Within.append (h : grain.Within a b) (c : List Char) :
    grain.Within (a ++ c) (b ++ c) := by
  cases grain with
  | characters => exact List.Sublist.append h (List.Sublist.refl c)
  | lines => exact Text.Within.append h c

end Grain

/-! ## Runs that end alike -/

/-- Two ends of runs: the same result, in worlds that are related. -/
structure EndsAlike {α : Type} (R : World → World → Prop) (p q : Except Failure α × World) : Prop where
  result : p.1 = q.1
  world : R p.2 q.2

namespace EndsAlike

variable {α β : Type} {R : World → World → Prop} {v w : World}

theorem pure (a : α) (h : R v w) :
    EndsAlike R ((Pure.pure a : Job α) v) ((Pure.pure a : Job α) w) := ⟨rfl, h⟩

theorem throw (e : Failure) (h : R v w) :
    EndsAlike R ((MonadExcept.throw e : Job α) v) ((MonadExcept.throw e : Job α) w) := ⟨rfl, h⟩

/-- What follows has to keep the relation only where the first run gets to. -/
theorem bind {x y : Job α} {f g : α → Job β} (h : EndsAlike R (x v) (y w))
    (hf : ∀ a v' w', x v = (.ok a, v') → R v' w' → EndsAlike R (f a v') (g a w')) :
    EndsAlike R ((x >>= f) v) ((y >>= g) w) := by
  obtain ⟨hresult, hworld⟩ := h
  rcases hx : x v with ⟨e | a, v₁⟩ <;> rcases hy : y w with ⟨e' | a', w₁⟩ <;>
    rw [hx, hy] at hresult hworld
  · cases hresult
    rw [Job.bind_of_error hx, Job.bind_of_error hy]
    exact ⟨rfl, hworld⟩
  · cases hresult
  · cases hresult
  · cases hresult
    rw [Job.bind_of_ok hx, Job.bind_of_ok hy]
    exact hf a v₁ w₁ hx hworld

end EndsAlike

/-- Runs that end alike go on alike where a failure is caught. -/
theorem EndsAlike.tryCatch {α : Type} {R : World → World → Prop} {v w : World} {x y : Job α}
    {f g : Failure → Job α} (h : EndsAlike R (x v) (y w))
    (hf : ∀ e v' w', x v = (.error e, v') → R v' w' → EndsAlike R (f e v') (g e w')) :
    EndsAlike R (tryCatch x f v) (tryCatch y g w) := by
  obtain ⟨hresult, hworld⟩ := h
  rcases hx : x v with ⟨e | a, v₁⟩ <;> rcases hy : y w with ⟨e' | a', w₁⟩ <;>
    rw [hx, hy] at hresult hworld
  · cases hresult
    rw [Job.tryCatch_of_error hx, Job.tryCatch_of_error hy]
    exact hf e v₁ w₁ hx hworld
  · cases hresult
  · cases hresult
  · cases hresult
    rw [Job.tryCatch_of_ok hx, Job.tryCatch_of_ok hy]
    exact ⟨rfl, hworld⟩

/-! ## A quiet and a loud world -/

/-- The world with another output and another tracer. -/
abbrev World.resound (w : World) (out : String) (tracer : Tracer) : World :=
  { w with out := out, tracer := tracer }

/-- A quiet and a loud world, with tracers that are related. What was added to the output of the quiet
one, since both were `base`, stands in that of the loud one. Everything else is the same. -/
structure World.Hushed (grain : Grain) (base : String) (T : Tracer → Tracer → Prop) (v w : World) :
    Prop where
  same : w = v.resound w.out w.tracer
  tracer : T v.tracer w.tracer
  out : ∃ a b, v.out = base ++ a ∧ w.out = base ++ b ∧ grain.Within a.toList b.toList

variable {grain : Grain} {base : String} {T : Tracer → Tracer → Prop} {v w : World}

theorem World.Hushed.start (grain : Grain) (w : World) {quiet loud : Tracer} (h : T quiet loud) :
    World.Hushed grain w.out T { w with tracer := quiet } { w with tracer := loud } :=
  ⟨rfl, h, "", "", by simp, by simp, grain.within_nil⟩

theorem World.Hushed.files (h : World.Hushed grain base T v w) : w.files = v.files := by
  rw [h.same]

theorem World.Hushed.input (h : World.Hushed grain base T v w) : w.input = v.input := by
  rw [h.same]

theorem World.Hushed.withInput (h : World.Hushed grain base T v w) (input : Input) :
    World.Hushed grain base T { v with input := input } { w with input := input } :=
  ⟨congrArg (fun x : World => { x with input := input }) h.same, h.tracer, h.out⟩

/-- More was added to both outputs. -/
theorem World.Hushed.add (h : World.Hushed grain base T v w) (text : String) {v' : World}
    {tracer : Tracer} (hv : v'.out = v.out ++ text) (ht : T v'.tracer tracer) :
    World.Hushed grain base T v' (v'.resound (w.out ++ text) tracer) := by
  obtain ⟨a, b, ha, hb, hwithin⟩ := h.out
  refine ⟨rfl, ht, a ++ text, b ++ text, ?_, ?_, ?_⟩
  · rw [hv, ha, String.append_assoc]
  · show w.out ++ text = _
    rw [hb, String.append_assoc]
  · rw [String.toList_append, String.toList_append]
    exact hwithin.append _

/-! ## Jobs that add to standard output -/

namespace Job

variable {α β : Type}

/-- From a world, a job does the same whatever stands on its standard output, and adds the same
text. -/
def Appends (job : Job α) (v : World) : Prop :=
  ∃ text, ∀ out, job { v with out := out } = ((job v).1, { (job v).2 with out := out ++ text })

/-- From a world, a job does the same whatever stands on its standard output and whatever its tracer
is, adds the same text, and leaves the tracer. -/
def Untraced (job : Job α) (v : World) : Prop :=
  ∃ text, ∀ out tracer,
    job (v.resound out tracer) = ((job v).1, (job v).2.resound (out ++ text) tracer)

/-- A job that neither looks at nor changes standard output and the tracer. -/
def Deaf (job : Job α) : Prop :=
  ∀ w out tracer, job (w.resound out tracer) = ((job w).1, (job w).2.resound out tracer)

theorem Deaf.untraced {job : Job α} (h : Deaf job) (v : World) : job.Untraced v :=
  ⟨"", fun out tracer => by rw [String.append_empty]; exact h v out tracer⟩

theorem Appends.bind {x : Job α} {f : α → Job β} (hx : x.Appends v)
    (hf : ∀ a v', x v = (.ok a, v') → (f a).Appends v') : (x >>= f).Appends v := by
  obtain ⟨text, hx⟩ := hx
  rcases hxv : x v with ⟨e | a, v₁⟩ <;> simp only [hxv] at hx
  · refine ⟨text, fun out => ?_⟩
    rw [bind_of_error (hx out), bind_of_error hxv]
  · obtain ⟨more, hf⟩ := hf a v₁ hxv
    refine ⟨text ++ more, fun out => ?_⟩
    rw [bind_of_ok (hx out), bind_of_ok hxv, ← String.append_assoc]
    exact hf (out ++ text)

theorem Deaf.bind {x : Job α} {f : α → Job β} (hx : Deaf x) (hf : ∀ a, Deaf (f a)) :
    Deaf (x >>= f) := by
  intro w out tracer
  have h := hx w out tracer
  rcases hxw : x w with ⟨e | a, w₁⟩
  · rw [hxw] at h
    rw [bind_of_error h, bind_of_error hxw]
  · rw [hxw] at h
    rw [bind_of_ok h, bind_of_ok hxw]
    exact hf a w₁ out tracer

theorem OnlyPrints.untraced {job : Job α} (h : OnlyPrints job) (v : World) : job.Untraced v := by
  obtain ⟨r, out, err, hr⟩ := h
  refine ⟨out, fun o tracer => ?_⟩
  rw [hr, hr]

/-! ## Invariants of standard output and the tracer -/

variable {I : String → Tracer → Prop}

/-- A job that keeps an invariant of standard output and the tracer as long as it succeeds. -/
def Maintains (I : String → Tracer → Prop) (job : Job α) : Prop :=
  ∀ ⦃v a v'⦄, job v = (.ok a, v') → I v.out v.tracer → I v'.out v'.tracer

theorem Maintains.bind {x : Job α} {f : α → Job β} (hx : x.Maintains I)
    (hf : ∀ a, (f a).Maintains I) : (x >>= f).Maintains I := by
  intro v b v' hrun hv
  obtain ⟨a, v₁, hxv, hrun⟩ := exists_of_bind_ok hrun
  exact hf a hrun (hx hxv hv)

theorem Maintains.withInput {job : Job α} (h : job.Maintains I) (input : Input) :
    (withInput input job).Maintains I := by
  intro v a v' hrun hv
  rcases hjob : job { v with input := input } with ⟨r, v₁⟩
  rw [Job.withInput, hjob] at hrun
  cases hrun
  have hkept : I v₁.out v₁.tracer := h hjob hv
  exact hkept

end Job

/-! ## Tracing -/

/-- A value that can be written is met where it may be traced. The output was `base` once. -/
def Grain.Traceable (grain : Grain) (base : String) (d : Datum) (v : World) : Prop :=
  d.Writable ∧ ∀ a, v.out = base ++ a → grain.Free a.toList

/-- From a quiet world, a job reaches the tracer of the world only by tracing, where that is possible.
What it does besides does not depend on the tracer. -/
inductive Job.Traces (grain : Grain) (base : String) : {α : Type} → Job α → World → Prop
  | untraced {α : Type} {job : Job α} {v : World} : job.Untraced v → Traces grain base job v
  | trace {label value : Datum} {v : World} : label.Writable → grain.Traceable base value v →
    Traces grain base (Tracer.choose none >>= fun t => t.trace label value) v
  | bind {α β : Type} {x : Job α} {f : α → Job β} {v : World} : Traces grain base x v →
    (∀ a v', x v = (.ok a, v') → Traces grain base (f a) v') → Traces grain base (x >>= f) v
  | tryCatch {α : Type} {x : Job α} {f : Failure → Job α} {v : World} : Traces grain base x v →
    (∀ e v', x v = (.error e, v') → Traces grain base (f e) v') →
    Traces grain base (tryCatch x f) v

end PassCheck
