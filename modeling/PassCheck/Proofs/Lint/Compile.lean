/-
Which programs of the tiny language can be compiled. Without booleans, the compiler gives text
exactly for the constant expressions, and the text is the code of their value. Any other program
comes to the code generator with a body that is no integer, and is refused there with a message that
shows the folded program.
-/
import PassCheck.Proofs.Build.EndToEnd
import PassCheck.Proofs.Lint.Check

namespace PassCheck.Lint

open Datum (Every)
open Sexp (program)

variable {e d : Datum}

/-- Without booleans, an expression that is not constant does not fold to an integer. -/
theorem toInt?_eq_none_of_not_constant (hb : Every NotBool e) (hc : ¬ Constant e) :
    (foldExp (shrinkExp e)).toInt? = none := by
  cases hv : (foldExp (shrinkExp e)).toInt? with
  | none => rfl
  | some v => exact absurd (constant_of_toInt? hb hv) hc

/-! ## Refusal -/

/-- Code is made of what counts as an integer only. -/
theorem codegen_of_not_int (info : Datum) (h : d.toInt? = none) :
    codegen (program info d) = reject "error in codegen, not folded: " (program info d) := by
  cases d with
  | int n => cases h
  | bool b => cases h
  | _ => rfl

theorem reject_of_writable {α : Type} (message : String) (h : d.Writable) :
    ∃ t, d.literal? = some t ∧
      ∀ w, (reject message d : Job α) w = (.error (.plain (message ++ t)), w) := by
  obtain ⟨t, ht⟩ := Datum.literal?_of_writable h
  refine ⟨t, ht, fun w => ?_⟩
  rw [reject, Job.bind_of_ok (Job.written_apply ht w), Job.throw_apply]

/-- A program that does not fold to an integer is refused by the code generator. -/
theorem compile_refuses (he : e.Writable) (hf : (foldExp (shrinkExp e)).Writable)
    (hn : (foldExp (shrinkExp e)).toInt? = none) (tracer : Option Tracer) (w : World) :
    ∃ t, (program (.tuple []) (foldExp (shrinkExp e))).literal? = some t ∧
      (Build.compile routines (program (.tuple []) e) tracer w).1 =
        .error (.plain ("error in codegen, not folded: " ++ t)) := by
  obtain ⟨t, ht, hreject⟩ := reject_of_writable (α := Datum) "error in codegen, not folded: "
    (writable_program hf)
  refine ⟨t, ht, ?_⟩
  have hshrink : Check.Gives w.files (shrinkPass.transform [program (.tuple []) e])
      (program (.tuple []) (shrinkExp e)) := fun _ _ => rfl
  have hfold : Check.Gives w.files (foldPass.transform [program (.tuple []) (shrinkExp e)])
      (program (.tuple []) (foldExp (shrinkExp e))) := fun _ _ => rfl
  -- the outputs of the first two passes can be shown, so the third one is reached
  obtain ⟨w₁, hw₁, h₁⟩ := Check.transformAll_cons (n := 0) (tracer.getD w.tracer) hshrink
    (fun _ => writable_program (writable_shrinkExp he)) ⟨rfl, trivial⟩
  obtain ⟨w₂, -, h₂⟩ := Check.transformAll_cons (tracer.getD w.tracer) hfold
    (fun _ => writable_program hf) hw₁
  have hcode : Build.transformAll (tracer.getD w.tracer)
      [⟨"codegen", Recipe.codegen.routine, none⟩]
      (program (.tuple []) (foldExp (shrinkExp e))) w₂ =
        (.error (.plain ("error in codegen, not folded: " ++ t)), w₂) := by
    refine Job.bind_of_error ?_
    rw [← hreject w₂, ← codegen_of_not_int (.tuple []) hn]
    rfl
  rw [Build.compile, Job.bind_of_ok (Tracer.choose_apply tracer w)]
  exact congrArg Prod.fst ((h₁ _).trans ((h₂ _).trans hcode))

/-! ## Success -/

/-- Compiling gives text exactly for constant expressions. Take any expression without booleans whose
integers can be written, and so can its value if it is constant. If it is built from integers by
negation, sum and difference, the text is the code of its value. Any other expression is refused; if
what folding computed can be written, the code generator does so, in a message that shows the folded
program. -/
theorem compile_gives_text_iff_constant (hb : Every NotBool e) (he : e.Writable)
    (hv : ∀ v, Returns e v → Integer.Writable v) (tracer : Option Tracer) (w : World) :
    ((∃ text, (Build.compile routines (program (.tuple []) e) tracer w).1 = .ok (.str text)) ↔
      Constant e) ∧
    (Constant e → ∃ v, (∀ w', eval e w' = (.ok v, w')) ∧
      (Build.compile routines (program (.tuple []) e) tracer w).1 =
        (codegen (program (.tuple []) (.int v)) w).1) ∧
    (¬ Constant e → ∃ f,
      (Build.compile routines (program (.tuple []) e) tracer w).1 = .error f ∧
      ((foldExp (shrinkExp e)).Writable → ∃ t,
        (program (.tuple []) (foldExp (shrinkExp e))).literal? = some t ∧
        f = .plain ("error in codegen, not folded: " ++ t))) := by
  have hconstant : Constant e → ∃ v, (∀ w', eval e w' = (.ok v, w')) ∧
      codegen (program (.tuple []) (.int v)) w = (.ok (.str (assembly (Integer.decimal v))), w) ∧
      (Build.compile routines (program (.tuple []) e) tracer w).1 =
        .ok (.str (assembly (Integer.decimal v))) := by
    intro hc
    obtain ⟨v, heval, -, -⟩ := hc.exists_value
    have hr : Returns e v := ⟨hc, heval⟩
    obtain ⟨w', hw', -⟩ := hr.compile (hv v hr) he tracer (w := w)
    exact ⟨v, heval, codegen_of_writable (.tuple []) (hv v hr) w, congrArg Prod.fst hw'⟩
  have hother : ¬ Constant e → ∃ f,
      (Build.compile routines (program (.tuple []) e) tracer w).1 = .error f := by
    intro hc
    obtain ⟨f, w', hf, -⟩ := compile_fails hb (fun v hr => absurd hr.1 hc) tracer (w := w)
    exact ⟨f, congrArg Prod.fst hf⟩
  refine ⟨⟨?_, ?_⟩, ?_, ?_⟩
  · rintro ⟨text, htext⟩
    by_contra hc
    obtain ⟨f, hf⟩ := hother hc
    rw [hf] at htext
    cases htext
  · intro hc
    obtain ⟨v, -, -, hrun⟩ := hconstant hc
    exact ⟨_, hrun⟩
  · intro hc
    obtain ⟨v, heval, hcode, hrun⟩ := hconstant hc
    exact ⟨v, heval, by rw [hrun, hcode]⟩
  · intro hc
    obtain ⟨f, hf⟩ := hother hc
    refine ⟨f, hf, fun hfolded => ?_⟩
    obtain ⟨t, ht, hrun⟩ :=
      compile_refuses he hfolded (toInt?_eq_none_of_not_constant hb hc) tracer w
    exact ⟨t, ht, Except.error.inj (hf.symm.trans hrun)⟩

/-- A constant expression of tuples and lists. -/
def constantSample : Datum :=
  .list [.str "-", .tuple [.str "+", .int 40, .int (-3)], .list [.str "-", .int 5]]

/-- An expression that reads, with a constant part. -/
def readingSample : Datum :=
  .tuple [.str "+", .tuple [.str "read"], .tuple [.str "-", .int 1, .int 3]]

theorem compile_gives_text_iff_constant_samples :
    Every NotBool constantSample ∧ constantSample.Writable ∧ Returns constantSample 42 ∧
    (Build.compile routines (program (.tuple []) constantSample) none (World.start .empty)).1 =
      .ok (.str "\t.globl main\nmain:\n\tmovq $42, %rax\n\tretq") ∧
    Every NotBool readingSample ∧ readingSample.Writable ∧ ¬ Constant readingSample ∧
    (Build.compile routines (program (.tuple []) readingSample) none (World.start .empty)).1 =
      .error (.plain "error in codegen, not folded: ('Program', (), ('+', ('read',), -2))") := by
  have hb : Every NotBool constantSample ∧ Every NotBool readingSample := by
    constructor <;> decide +kernel
  have he : constantSample.Writable ∧ readingSample.Writable := by
    constructor <;> decide +kernel
  have h42 : Returns constantSample 42 :=
    ⟨.sub (.add (.int 40) (.int (-3))) (.neg (.int 5)), fun _ => rfl⟩
  have hw42 : Integer.Writable 42 := by decide +kernel
  have hreading : ¬ Constant readingSample := by
    intro hc
    obtain ⟨v, -, -, hfold⟩ := hc.exists_value
    cases hfold
  refine ⟨hb.1, he.1, h42, ?_, hb.2, he.2, hreading, ?_⟩
  · have hv : ∀ v, Returns constantSample v → Integer.Writable v := by
      intro v hr
      obtain rfl : 42 = v :=
        Except.ok.inj (congrArg Prod.fst ((h42.2 default).symm.trans (hr.2 default)))
      exact hw42
    obtain ⟨v, heval, hrun⟩ :=
      (compile_gives_text_iff_constant hb.1 he.1 hv none (World.start .empty)).2.1 h42.1
    obtain rfl : 42 = v :=
      Except.ok.inj (congrArg Prod.fst ((h42.2 default).symm.trans (heval default)))
    rw [hrun, codegen_of_writable (.tuple []) hw42]
    rfl
  · obtain ⟨f, hrun, hf⟩ := (compile_gives_text_iff_constant hb.2 he.2
      (fun v hr => absurd hr.1 hreading) none (World.start .empty)).2.2 hreading
    obtain ⟨t, ht, rfl⟩ := hf (by decide +kernel)
    have hshown : (program (.tuple []) (foldExp (shrinkExp readingSample))).literal? =
        some "('Program', (), ('+', ('read',), -2))" := by decide +kernel
    cases ht.symm.trans hshown
    exact hrun

end PassCheck.Lint
