/-
Checking the compiler for the tiny language raises no false alarm. Whatever program a source file
holds, the check of its shrunk and folded forms ends as the program itself does on the input file:
with its value, or with a failure of the same kind, and never with a mismatch.
-/
import PassCheck.Lint.Compiler
import PassCheck.Proofs.Lint.Rewrite
import PassCheck.Proofs.Pass.Chain

namespace PassCheck.Lint

open Datum (Every)
open Check (Gives Steps runInterpreter readings)

/-- The first pass. -/
def shrinkPass : Pass Routine := ⟨"shrink", Recipe.shrink.routine, some Recipe.interpret.routine⟩

/-- The second pass, the last one whose output can be interpreted. -/
def foldPass : Pass Routine := ⟨"fold", Recipe.fold.routine, some Recipe.interpret.routine⟩

example : (passes.take 2).map (Pass.map Recipe.routine) = [shrinkPass, foldPass] := rfl

/-- A check that reads program files and has no type checker, with or without the result of the
source program. -/
structure Standard (o : Check.Options) : Prop where
  reader : o.reader = Check.readProgram
  checker : o.typeChecker = none
  initial : ∀ i ∈ o.initialInterpreter, i = Recipe.interpret.routine

/-- There is an input file, or there is none and the program does not read. -/
def Supplied (files : Files) (path : String) (program : Datum) : Prop :=
  (∃ content, files.read path = .ok content) ∨
    (files.present path = false ∧ Every NotRead program)

variable {files : Files} {path : String} {p d : Datum} {w : World}

/-! ## Results on the input file -/

/-- What a program leads to on the content of an input file or, without one, on the standard
input. -/
def outcome (program : Datum) (path : String) (w : World) : Except Failure Datum :=
  match w.files.read path with
  | .ok content => (interpret program (w.withInput (.ofBytes content))).1
  | .error _ => (interpret program w).1

theorem exists_outcome_eq (p : Datum) (path : String) (w : World) :
    ∃ v, outcome p path w = (interpret p v).1 := by
  unfold outcome
  split
  · exact ⟨_, rfl⟩
  · exact ⟨w, rfl⟩

/-- The outcome of a program that is supplied depends on the files only, and no interpreter run
leaves a trace in the world. -/
theorem Supplied.runInterpreter_eq (h : Supplied w.files path p) {w' : World}
    (hw : w'.files = w.files) :
    runInterpreter Recipe.interpret.routine p (some path) w' = (outcome p path w, w') := by
  rcases h with ⟨content, hc⟩ | ⟨hp, hr⟩
  · have hc' : w'.Holds path content := by rw [World.Holds, hw, hc]
    rw [Check.runInterpreter_of_holds _ _ hc', outcome, hc]
    show Job.withInput _ (interpret p) w' = _
    rw [Job.withInput, onInput_interpret p (w.withInput (.ofBytes content)) w']
  · obtain ⟨r, hr⟩ := computes_interpret hr
    have hout : outcome p path w = r := by
      unfold outcome
      split <;> rw [hr]
    rw [Check.runInterpreter_of_absent _ _ (hw ▸ hp), hout]
    exact hr w'

theorem agrees_shrink (p : Datum) (path : String) :
    Job.Agrees (runInterpreter Recipe.interpret.routine (shrink p) (some path))
      (runInterpreter Recipe.interpret.routine p (some path)) :=
  Check.agrees_runInterpreter (interpret_shrink_agrees p) (some path)

theorem gives_fold (h : Gives files (runInterpreter Recipe.interpret.routine p (some path)) d) :
    Gives files (runInterpreter Recipe.interpret.routine (fold p) (some path)) d :=
  fun w hw => Check.runInterpreter_of_ok (fun _ _ _ hi => interpret_fold hi) (h w hw)

/-- The steps of the passes from a program on that has a result. -/
theorem steps_of_gives
    (h : Gives files (runInterpreter Recipe.interpret.routine p (some path)) d) :
    Steps files path [shrinkPass, foldPass] p
      [⟨shrink p, some d⟩, ⟨fold (shrink p), some d⟩] := by
  have hs : Gives files (runInterpreter Recipe.interpret.routine (shrink p) (some path)) d :=
    fun w hw => (agrees_shrink p path).of_ok (h w hw)
  exact .cons (fun _ _ => rfl) (.some hs) <| .cons (fun _ _ => rfl) (.some (gives_fold hs)) <| .nil _

theorem same_self_of_interpret (h : (interpret p w).1 = .ok d) : d.same d = true := by
  unfold interpret at h
  split at h
  · rename_i k info body
    rcases he : eval body w with ⟨err | n, w₁⟩
    · rw [Job.bind_of_error he] at h; cases h
    · rw [Job.bind_of_ok he] at h
      cases h
      exact Datum.same_refl (Datum.comparable_int n)
  · cases h; rfl

/-! ## Checks -/

section

variable {test : String} {o : Check.Options} {source : Datum}

theorem Standard.reads (ho : Standard o)
    (hread : (Check.readProgram (Family.sourcePath test o.testsDir) w).1 = .ok source) :
    o.reader (Family.sourcePath test o.testsDir) w = (.ok source, w) := by
  rw [Check.readProgram_apply] at hread
  rw [ho.reader, Check.readProgram_apply]
  exact congrArg (·, w) hread

theorem Standard.types (ho : Standard o) :
    ∀ c, o.typeChecker = some c → ∃ d, Gives w.files (c [source]) d := by
  rw [ho.checker]; nofun

/-- The initial result, if there is one, is the result of the source program. -/
theorem Standard.exists_initial (ho : Standard o) (h : Gives files
    (runInterpreter Recipe.interpret.routine source (some (Family.inputPath test o.testsDir))) d) :
    ∃ first : Option Datum, (∀ r ∈ first, r = d) ∧ Option.Rel (fun i r => Gives files
      (runInterpreter i source (some (Family.inputPath test o.testsDir))) r)
      o.initialInterpreter first := by
  cases hi : o.initialInterpreter with
  | none => exact ⟨none, nofun, .none⟩
  | some i =>
    obtain rfl := ho.initial i hi
    exact ⟨some d, fun r hr => (Option.some.inj hr).symm, .some h⟩

/-- A check finds the result of the source program. -/
theorem Standard.run_of_gives (compiler : String) (ho : Standard o)
    (hreads : o.reader (Family.sourcePath test o.testsDir) w = (.ok source, w))
    (hsource : source.Writable) (hshrunk : (shrink source).Writable)
    (hfound : Gives w.files (runInterpreter Recipe.interpret.routine source
      (some (Family.inputPath test o.testsDir))) d)
    (hd : d.same d = true) (hclock : w.clock.Shows (2 * readings o.timed))
    (htrace : (o.tracer.getD w.tracer).enabled = true →
      (fold (shrink source)).Writable ∧ d.Writable) :
    (Check.run compiler [shrinkPass, foldPass] test o w).1 = .ok d := by
  obtain ⟨first, hfirst, hrel⟩ := ho.exists_initial hfound
  obtain ⟨w₁, hw₁, h₁⟩ := Check.run_eq_chain compiler hreads ho.types hrel (fun _ => hsource)
    (fun he r hr => hfirst r hr ▸ (htrace he).2) hclock
  have hshown : Check.Shown (o.tracer.getD w.tracer)
      [⟨shrink source, some d⟩, ⟨fold (shrink source), some d⟩] := by
    intro he
    obtain ⟨hf, hr⟩ := htrace he
    simp only [List.forall_mem_cons]
    refine ⟨⟨hshrunk, ?_⟩, ⟨hf, ?_⟩, nofun⟩
    · rintro r ⟨⟩; exact hr
    · rintro r ⟨⟩; exact hr
  have hsteady : Check.Steady (Check.results first
      [⟨shrink source, some d⟩, ⟨fold (shrink source), some d⟩]) := by
    cases first with
    | none => exact .cons_cons hd (.singleton _)
    | some r =>
      cases hfirst r rfl
      exact .cons_cons hd (.cons_cons hd (.singleton _))
  obtain ⟨w₂, -, h₂⟩ := Check.chain_append (n := 0) compiler _ (steps_of_gives hfound) hshown
    (by rwa [Nat.zero_add]) hsteady
  have hchain := h₂ []
  rw [List.append_nil] at hchain
  rw [h₁, Job.bind_of_ok (hchain.trans rfl)]
  cases first <;> rfl

/-- A check of a program that fails does so for a reason of the same kind, be it at the program
itself or at the shrunk one. -/
theorem Standard.run_of_error (compiler : String) {e : Failure} (ho : Standard o)
    (hreads : o.reader (Family.sourcePath test o.testsDir) w = (.ok source, w))
    (hsource : source.Writable) (hshrunk : (shrink source).Writable)
    (hfound : ∀ w' : World, w'.files = w.files → runInterpreter Recipe.interpret.routine source
      (some (Family.inputPath test o.testsDir)) w' = (.error e, w'))
    (hclock : w.clock.Shows (2 * readings o.timed)) :
    ∃ e', (Check.run compiler [shrinkPass, foldPass] test o w).1 = .error e' ∧ e'.SameKind e := by
  obtain ⟨w₁, hw₁, h₁⟩ := Check.run_eq_initial compiler hreads ho.types (fun _ => hsource) hclock
  cases hi : o.initialInterpreter with
  | some i =>
    obtain rfl := ho.initial i hi
    have hinitial : Check.initialResult (o.tracer.getD w.tracer) o.initialInterpreter
        (Family.inputPath test o.testsDir) source w₁ = (.error e, w₁) := by
      rw [hi]; exact Job.bind_of_error (hfound w₁ hw₁.files)
    exact ⟨e, by rw [h₁, Job.bind_of_error hinitial], .refl e⟩
  | none =>
    have hinitial : Check.initialResult (o.tracer.getD w.tracer) o.initialInterpreter
        (Family.inputPath test o.testsDir) source w₁ = (.ok none, w₁) := by
      rw [hi]; rfl
    have hw₁' : w₁.Ready w.files (readings o.timed + readings o.timed) := by rwa [← Nat.two_mul]
    obtain ⟨w₂, hw₂, h₂⟩ := Check.chain_of_error (p := shrinkPass) compiler
      (o.tracer.getD w.tracer) (fun _ _ => rfl) rfl (fun _ => hshrunk) hw₁'
    obtain ⟨e', he', hkind⟩ := (agrees_shrink source (Family.inputPath test o.testsDir)).of_error
      (hfound w₂ hw₂)
    refine ⟨e', ?_, hkind⟩
    rw [h₁, Job.bind_of_ok hinitial, Job.bind_of_error (h₂ e' w₂ _ none he')]

end

/-- The check of shrinking and folding raises no false alarm. For a source file that can be read, and
an input file or a program that does not read, it ends as the source program does on that input:
with the same value, or with a failure of the same kind. It never ends with a mismatch. If a tracer
is on, what it shows has to be writable. -/
theorem run_raises_no_false_alarm (compiler : String) {test : String} {o : Check.Options}
    {w : World} {source : Datum} (ho : Standard o)
    (hread : (Check.readProgram (Family.sourcePath test o.testsDir) w).1 = .ok source)
    (hin : Supplied w.files (Family.inputPath test o.testsDir) source)
    (hclock : w.clock.Shows (2 * readings o.timed))
    (htrace : (o.tracer.getD w.tracer).enabled = true → (fold (shrink source)).Writable ∧
      ∀ d, outcome source (Family.inputPath test o.testsDir) w = .ok d → d.Writable) :
    SameOutcome (Check.run compiler [shrinkPass, foldPass] test o w).1
      (outcome source (Family.inputPath test o.testsDir) w) ∧
    ∀ c p expected actual program, (Check.run compiler [shrinkPass, foldPass] test o w).1 ≠
      .error (.report (.mismatch c p expected actual program)) := by
  have hwritable : source.Writable ∧ (shrink source).Writable := by
    obtain ⟨body, rfl, hbody⟩ := Check.exists_body_of_readProgram hread
    exact ⟨writable_program hbody, writable_program (writable_shrinkExp hbody)⟩
  obtain ⟨hsource, hshrunk⟩ := hwritable
  have hreads := ho.reads hread
  have hfound := @hin.runInterpreter_eq
  obtain ⟨v, hv⟩ := exists_outcome_eq source (Family.inputPath test o.testsDir) w
  cases hr : outcome source (Family.inputPath test o.testsDir) w with
  | ok d =>
    rw [hr] at hfound hv
    have hrun := ho.run_of_gives compiler hreads hsource hshrunk (fun _ => hfound)
      (same_self_of_interpret hv.symm) hclock fun he => ⟨(htrace he).1, (htrace he).2 d hr⟩
    rw [hrun]
    exact ⟨.ok d, nofun⟩
  | error e =>
    rw [hr] at hfound hv
    obtain ⟨e', hrun, hkind⟩ :=
      ho.run_of_error compiler hreads hsource hshrunk (fun _ => hfound) hclock
    have hno := hkind.not_report fun r he => noReport_interpret source v r (he ▸ hv.symm)
    rw [hrun]
    exact ⟨.error hkind, fun c p x a q he => hno _ (Except.error.inj he)⟩

/-- A program that reads twice, and its input. -/
def readingFiles : Files :=
  ⟨[(["tests"], .dir), (["tests", "t_1.rkt"], .file "(- (read) [- 2 (read)])".toUTF8),
    (["tests", "t_1.in"], .file "7\n 40\n8\n".toUTF8)]⟩

def readingProgram : Datum :=
  Sexp.program (.tuple []) (.tuple [.str "-", .tuple [.str "read"],
    .tuple [.str "-", .int 2, .tuple [.str "read"]]])

def readingOptions : Check.Options :=
  { Check.Options.plain with initialInterpreter := some Recipe.interpret.routine }

theorem run_raises_no_false_alarm_reading :
    (Check.readProgram (Family.sourcePath "t_1" readingOptions.testsDir)
      (World.start readingFiles)).1 = .ok readingProgram ∧
    Supplied readingFiles (Family.inputPath "t_1" readingOptions.testsDir) readingProgram ∧
    (Check.run "rc" [shrinkPass, foldPass] "t_1" readingOptions (World.start readingFiles)).1 =
      .ok (.int 45) := by
  have ho : Standard readingOptions := ⟨rfl, rfl, fun i hi => (Option.some.inj hi).symm⟩
  have hread : (Check.readProgram (Family.sourcePath "t_1" readingOptions.testsDir)
      (World.start readingFiles)).1 = .ok readingProgram :=
    Check.readProgram_of_tokens "(- (read) [- 2 (read)])"
      [.opening .round, .atom ['-'], .opening .round, .atom ['r', 'e', 'a', 'd'], .closing .round,
        .opening .square, .atom ['-'], .atom ['2'], .opening .round, .atom ['r', 'e', 'a', 'd'],
        .closing .round, .closing .square, .closing .round]
      rfl (by decide) (by decide +kernel) rfl
  have hfile : (World.start readingFiles).Holds (Family.inputPath "t_1" readingOptions.testsDir)
      "7\n 40\n8\n".toUTF8 := rfl
  have hin : Supplied readingFiles (Family.inputPath "t_1" readingOptions.testsDir)
      readingProgram := .inl ⟨_, hfile⟩
  have hclock : (World.start readingFiles).clock.Shows 2 := by
    refine ⟨?_, ?_, trivial⟩ <;> decide +kernel
  have h := run_raises_no_false_alarm "rc" ho hread hin hclock nofun
  refine ⟨hread, hin, ?_⟩
  have hfound : outcome readingProgram (Family.inputPath "t_1" readingOptions.testsDir)
      (World.start readingFiles) = .ok (.int 45) := by
    rw [outcome, hfile]
    show (interpret readingProgram ((World.start readingFiles).withInput _)).1 = _
    rw [Input.ofBytes, decodeText?_toUTF8 (by decide)]
    rfl
  rw [hfound] at h
  exact h.1.eq_ok

end PassCheck.Lint
