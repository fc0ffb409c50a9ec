/-
Constant expressions of the tiny language: integers under negation, sum and difference. They have a
value without any input, and shrinking and folding compute it. A body without booleans folds to an
integer only if it is a constant expression.
-/
import PassCheck.Lint.Passes
import PassCheck.Proofs.World.Jobs
import Mathlib.Data.List.Basic

namespace PassCheck.Lint

open Datum (Every Writable)

/-- An expression that is built from integers by negation, sum and difference. -/
inductive Constant : Datum → Prop
  | int (n : Int) : Constant (.int n)
  | neg {k : SeqKind} {a : Datum} : Constant a → Constant (.seq k [.str "-", a])
  | add {k : SeqKind} {a b : Datum} : Constant a → Constant b → Constant (.seq k [.str "+", a, b])
  | sub {k : SeqKind} {a b : Datum} : Constant a → Constant b → Constant (.seq k [.str "-", a, b])

/-- A constant expression and its value. -/
def Returns (e : Datum) (v : Int) : Prop := Constant e ∧ ∀ w, eval e w = (.ok v, w)

/-! ## Values -/

variable {k : SeqKind} {a b e : Datum} {x y v : Int}

theorem eval_neg {w w₁ : World} (ha : eval a w = (.ok x, w₁)) :
    eval (.seq k [.str "-", a]) w = (.ok (-x), w₁) := by
  rw [eval, Job.bind_of_ok ha]; rfl

theorem eval_add {w w₁ w₂ : World} (ha : eval a w = (.ok x, w₁)) (hb : eval b w₁ = (.ok y, w₂)) :
    eval (.seq k [.str "+", a, b]) w = (.ok (x + y), w₂) := by
  rw [eval, Job.bind_of_ok ha, Job.bind_of_ok hb]; rfl

theorem eval_sub {w w₁ w₂ : World} (ha : eval a w = (.ok x, w₁)) (hb : eval b w₁ = (.ok y, w₂)) :
    eval (.seq k [.str "-", a, b]) w = (.ok (x - y), w₂) := by
  rw [eval, Job.bind_of_ok ha, Job.bind_of_ok hb]; rfl

theorem shrinkExp_neg : shrinkExp (.seq k [.str "-", a]) = .tuple [.str "-", shrinkExp a] := by
  rfl

theorem shrinkExp_add :
    shrinkExp (.seq k [.str "+", a, b]) = .tuple [.str "+", shrinkExp a, shrinkExp b] := by
  rfl

theorem shrinkExp_sub : shrinkExp (.seq k [.str "-", a, b]) =
    .tuple [.str "+", shrinkExp a, .tuple [.str "-", shrinkExp b]] := by
  rfl

theorem foldExp_neg : foldExp (.seq k [.str "-", a]) = foldNeg (foldExp a) := by
  rfl

theorem foldExp_add : foldExp (.seq k [.str "+", a, b]) = foldAdd (foldExp a) (foldExp b) := by
  rfl

/-- A constant expression has one value, whether it is evaluated as it is, shrunk or folded. -/
theorem Constant.exists_value (h : Constant e) : ∃ v, (∀ w, eval e w = (.ok v, w)) ∧
    (∀ w, eval (shrinkExp e) w = (.ok v, w)) ∧ foldExp (shrinkExp e) = .int v := by
  induction h with
  | int n => exact ⟨n, fun _ => rfl, fun _ => rfl, rfl⟩
  | neg _ ih =>
    obtain ⟨x, he, hs, hf⟩ := ih
    refine ⟨-x, fun w => eval_neg (he w), fun w => eval_neg (hs w), ?_⟩
    rw [shrinkExp_neg, foldExp_neg, hf]; rfl
  | add _ _ iha ihb =>
    obtain ⟨x, hea, hsa, hfa⟩ := iha
    obtain ⟨y, heb, hsb, hfb⟩ := ihb
    refine ⟨x + y, fun w => eval_add (hea w) (heb w), fun w => eval_add (hsa w) (hsb w), ?_⟩
    rw [shrinkExp_add, foldExp_add, hfa, hfb]; rfl
  | sub _ _ iha ihb =>
    obtain ⟨x, hea, hsa, hfa⟩ := iha
    obtain ⟨y, heb, hsb, hfb⟩ := ihb
    refine ⟨x - y, fun w => eval_sub (hea w) (heb w), fun w => ?_, ?_⟩
    · rw [Int.sub_eq_add_neg]; exact eval_add (hsa w) (eval_neg (hsb w))
    · rw [shrinkExp_sub, foldExp_add, foldExp_neg, hfa, hfb, Int.sub_eq_add_neg]; rfl

/-! ## Bodies that fold to an integer -/

/-- No boolean. -/
def NotBool : Datum → Prop
  | .bool _ => False
  | _ => True

instance : DecidablePred NotBool
  | .bool _ => isFalse id
  | .null | .int _ | .float _ | .str _ | .seq _ _ | .dict _ | .obj _ | .foreign _ _ => isTrue trivial

/-- The forms that shrinking and folding know. -/
inductive Form : List Datum → Prop
  | neg (a : Datum) : Form [.str "-", a]
  | add (a b : Datum) : Form [.str "+", a, b]
  | sub (a b : Datum) : Form [.str "-", a, b]

theorem shrinkAll_eq_map : ∀ es : List Datum, shrinkAll es = es.map shrinkExp
  | [] => rfl
  | e :: es => congrArg (shrinkExp e :: ·) (shrinkAll_eq_map es)

theorem length_shrinkAll (es : List Datum) : (shrinkAll es).length = es.length := by
  rw [shrinkAll_eq_map, List.length_map]

/-- Every other form stays a form. -/
theorem foldExp_shrinkExp_of_not_form {items : List Datum} (h : ¬ Form items) :
    ∃ l ds, foldExp (shrinkExp (.seq k items)) = .seq l ds := by
  unfold shrinkExp
  split
  · rename_i he; cases he; exact absurd (.sub _ _) h
  · rename_i op args _ he
    cases he
    -- arguments stay as many as they were, so no known form can arise
    have hlen := length_shrinkAll args
    unfold foldExp
    split
    · rename_i he
      injection he with _ he
      injection he with hop hargs
      rw [hargs] at hlen
      obtain ⟨x, rfl⟩ := List.length_eq_one_iff.1 hlen.symm
      subst hop; exact absurd (.neg x) h
    · rename_i he
      injection he with _ he
      injection he with hop hargs
      rw [hargs] at hlen
      obtain ⟨x, y, rfl⟩ := List.length_eq_two.1 hlen.symm
      subst hop; exact absurd (.add x y) h
    · exact ⟨_, _, rfl⟩
  · rename_i hne
    cases items with
    | nil => exact ⟨k, [], rfl⟩
    | cons op args => exact absurd rfl (hne k op args)

theorem toInt?_of_foldNeg (h : (foldNeg a).toInt? = some v) : ∃ x, a.toInt? = some x := by
  cases ha : a.toInt? with
  | none => rw [foldNeg, ha] at h; cases h
  | some x => exact ⟨x, rfl⟩

theorem toInt?_of_foldAdd (h : (foldAdd a b).toInt? = some v) :
    (∃ x, a.toInt? = some x) ∧ ∃ y, b.toInt? = some y := by
  cases ha : a.toInt? with
  | none => rw [foldAdd, ha] at h; cases h
  | some x =>
    cases hb : b.toInt? with
    | none => rw [foldAdd, ha, hb] at h; cases h
    | some y => exact ⟨⟨x, rfl⟩, y, rfl⟩

/-- A body without booleans that folds to an integer, or to a boolean, is constant. -/
theorem constant_of_toInt? (hb : Every NotBool e) (hv : (foldExp (shrinkExp e)).toInt? = some v) :
    Constant e := by
  induction e generalizing v with
  | int n => exact .int n
  | bool b => exact absurd hb.self id
  | seq k items ih =>
    have hitems := (Datum.every_seq.1 hb).2
    by_cases hform : Form items
    · cases hform with
      | neg a =>
        rw [shrinkExp_neg, foldExp_neg] at hv
        obtain ⟨x, hx⟩ := toInt?_of_foldNeg hv
        exact .neg (ih a (by simp) (hitems a (by simp)) hx)
      | add a b =>
        rw [shrinkExp_add, foldExp_add] at hv
        obtain ⟨⟨x, hx⟩, y, hy⟩ := toInt?_of_foldAdd hv
        exact .add (ih a (by simp) (hitems a (by simp)) hx) (ih b (by simp) (hitems b (by simp)) hy)
      | sub a b =>
        rw [shrinkExp_sub, foldExp_add, foldExp_neg] at hv
        obtain ⟨⟨x, hx⟩, y, hy⟩ := toInt?_of_foldAdd hv
        obtain ⟨z, hz⟩ := toInt?_of_foldNeg hy
        exact .sub (ih a (by simp) (hitems a (by simp)) hx) (ih b (by simp) (hitems b (by simp)) hz)
    · obtain ⟨l, ds, hs⟩ := foldExp_shrinkExp_of_not_form (k := k) hform
      rw [hs] at hv; cases hv
  | _ => cases hv

/-! ## Writing -/

theorem writable_unary {op : String} : (Datum.seq k [.str op, a]).Writable ↔ a.Writable := by
  simp [Datum.writable_seq, Datum.writable_str]

theorem writable_binary {op : String} :
    (Datum.seq k [.str op, a, b]).Writable ↔ a.Writable ∧ b.Writable := by
  simp [Datum.writable_seq, Datum.writable_str]

/-- Shrinking makes no new integers. -/
theorem writable_shrinkExp (h : e.Writable) : (shrinkExp e).Writable := by
  induction e with
  | seq k items ih =>
    have hitems := Datum.writable_seq.1 h
    unfold shrinkExp
    split
    · rename_i a b he
      cases he
      have ha := ih a (by simp) (hitems a (by simp))
      have hb := ih b (by simp) (hitems b (by simp))
      exact writable_binary.2 ⟨ha, writable_unary.2 hb⟩
    · rename_i op args _ he
      cases he
      obtain ⟨hop, hargs⟩ := List.forall_mem_cons.1 hitems
      refine Datum.writable_seq.2 (List.forall_mem_cons.2 ⟨hop, ?_⟩)
      rw [shrinkAll_eq_map, List.forall_mem_map]
      exact fun d hd => ih d (List.mem_cons_of_mem _ hd) (hargs d hd)
    · exact h
  | _ => exact h

theorem writable_program {body : Datum} (h : body.Writable) :
    (Sexp.program (.tuple []) body).Writable :=
  writable_binary.2 ⟨Datum.writable_seq.2 nofun, h⟩

/-! ## Code -/

theorem reject_apply {α : Type} (message : String) (d : Datum) (w : World) :
    ∃ e, (reject message d : Job α) w = (.error e, w) := by
  rw [reject]
  cases d.literal? with
  | none => exact ⟨.longInteger, Job.bind_of_error rfl⟩
  | some t => exact ⟨.plain (message ++ t), Job.bind_of_ok rfl⟩

theorem codegen_int (info : Datum) (w : World) : codegen (Sexp.program info (.int v)) w =
    (Job.written (Datum.int v).display? >>= fun n => pure (.str (assembly n))) w := by
  rw [Sexp.program, codegen]

theorem codegen_of_writable (info : Datum) (hv : Integer.Writable v) (w : World) :
    codegen (Sexp.program info (.int v)) w = (.ok (.str (assembly (Integer.decimal v))), w) := by
  have ht : (Datum.int v).display? = some (Integer.decimal v) := by
    rw [Datum.display?, Datum.literal?, Datum.text?_of_writable hv]
    intro s hs; cases hs
  rw [codegen_int, Job.bind_of_ok (Job.written_apply ht w), Job.pure_apply]

/-- No code is made of a body without booleans, unless it is constant with a value that can be
written. -/
theorem codegen_fails (info : Datum) {body : Datum} (hb : Every NotBool body)
    (h : ∀ v, Returns body v → ¬ Integer.Writable v) (w : World) :
    ∃ e, codegen (Sexp.program info (foldExp (shrinkExp body))) w = (.error e, w) := by
  cases hf : foldExp (shrinkExp body) with
  | int v =>
    have hc : Constant body := constant_of_toInt? hb (v := v) (by rw [hf]; rfl)
    obtain ⟨v', he, -, hv'⟩ := hc.exists_value
    cases hf.symm.trans hv'
    have ht : (Datum.int v).display? = none := by
      rw [Datum.display?, Datum.literal?, Integer.text?, if_neg (h v ⟨hc, he⟩)]
      intro s hs; cases hs
    refine ⟨.longInteger, ?_⟩
    rw [codegen_int, ht]
    exact Job.bind_of_error rfl
  | bool b =>
    have hc : Constant body := constant_of_toInt? hb (by rw [hf]; rfl)
    obtain ⟨v', -, -, hv'⟩ := hc.exists_value
    cases hf.symm.trans hv'
  | _ => exact reject_apply _ _ w

end PassCheck.Lint
