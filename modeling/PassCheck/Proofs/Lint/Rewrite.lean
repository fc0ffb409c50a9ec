/-
Shrinking and folding keep the meaning of a program of the tiny language. A shrunk program reads the
same part of the input as the program itself, and has the same value or fails for a reason of the
same kind; so it does in every world, whatever its forms are. A folded program has the value of the
program whenever there is one.
-/
import PassCheck.Proofs.Lint.Constant
import PassCheck.Proofs.World.Input

namespace PassCheck.Lint

open Datum (Every)
open Job (Agrees Computes NoReport OnInput)

variable {k : SeqKind} {a b e : Datum} {x y v : Int} {w w' : World}

/-! ## The evaluator and the input -/

theorem onInput_reject {α : Type} (message : String) (d : Datum) :
    OnInput (reject message d : Job α) :=
  (Job.onInput_lift _).bind fun t => Job.onInput_throw (.plain (message ++ t))

theorem onInput_readInt : OnInput readInt := by
  refine Job.onInput_readLine.bind fun line => ?_
  split
  · exact Job.onInput_pure _
  · exact Job.onInput_throw _

theorem onInput_eval (e : Datum) : OnInput (eval e) := by
  fun_induction eval e with
  | case1 n => exact Job.onInput_pure n
  | case2 => exact onInput_readInt
  | case3 k a ih => exact ih.bind fun x => Job.onInput_pure (-x)
  | case4 k a b iha ihb => exact iha.bind fun x => ihb.bind fun y => Job.onInput_pure (x + y)
  | case5 k a b iha ihb => exact iha.bind fun x => ihb.bind fun y => Job.onInput_pure (x - y)
  | case6 e => exact onInput_reject _ e

theorem onInput_interpret (p : Datum) : OnInput (interpret p) := by
  unfold interpret
  split
  · exact (onInput_eval _).bind fun n => Job.onInput_pure (Datum.int n)
  · exact Job.onInput_pure _

/-- No `(read)`. -/
def NotRead (d : Datum) : Prop := ∀ k, d ≠ .seq k [.str "read"]

theorem computes_reject {α : Type} (message : String) (d : Datum) :
    Computes (reject message d : Job α) :=
  (Job.computes_lift _).bind fun t => Job.computes_lift (.error (.plain (message ++ t)))

/-- Without `(read)` the input does not matter. -/
theorem computes_eval (h : Every NotRead e) : Computes (eval e) := by
  fun_induction eval e with
  | case1 n => exact Job.computes_lift (.ok n)
  | case2 k => exact absurd rfl (h.self k)
  | case3 k a ih =>
    have ha := (Datum.every_seq.1 h).2 a (by simp)
    exact (ih ha).bind fun x => Job.computes_lift (.ok (-x))
  | case4 k a b iha ihb =>
    have ha := (Datum.every_seq.1 h).2 a (by simp)
    have hb := (Datum.every_seq.1 h).2 b (by simp)
    exact (iha ha).bind fun x => (ihb hb).bind fun y => Job.computes_lift (.ok (x + y))
  | case5 k a b iha ihb =>
    have ha := (Datum.every_seq.1 h).2 a (by simp)
    have hb := (Datum.every_seq.1 h).2 b (by simp)
    exact (iha ha).bind fun x => (ihb hb).bind fun y => Job.computes_lift (.ok (x - y))
  | case6 e => exact computes_reject _ e

theorem computes_interpret {p : Datum} (h : Every NotRead p) : Computes (interpret p) := by
  unfold interpret
  split
  · rename_i k info body
    have hbody := (Datum.every_seq.1 h).2 body (by simp)
    exact (computes_eval hbody).bind fun n => Job.computes_lift (.ok (Datum.int n))
  · exact Job.computes_lift (.ok Datum.null)

theorem noReport_reject {α : Type} (message : String) (d : Datum) :
    NoReport (reject message d : Job α) :=
  (Job.noReport_written _).bind fun _ => Job.noReport_throw nofun

theorem noReport_readInt : NoReport readInt := by
  refine Job.noReport_readLine.bind fun line => ?_
  split
  · exact Job.noReport_pure _
  · exact Job.noReport_throw nofun

theorem noReport_eval (e : Datum) : NoReport (eval e) := by
  fun_induction eval e with
  | case1 n => exact Job.noReport_pure n
  | case2 => exact noReport_readInt
  | case3 k a ih => exact ih.bind fun x => Job.noReport_pure (-x)
  | case4 k a b iha ihb => exact iha.bind fun x => ihb.bind fun y => Job.noReport_pure (x + y)
  | case5 k a b iha ihb => exact iha.bind fun x => ihb.bind fun y => Job.noReport_pure (x - y)
  | case6 e => exact noReport_reject _ e

theorem noReport_interpret (p : Datum) : NoReport (interpret p) := by
  unfold interpret
  split
  · exact (noReport_eval _).bind fun n => Job.noReport_pure _
  · exact Job.noReport_pure _

/-! ## Shrinking -/

/-- What the evaluator has a rule for. -/
inductive Known : Datum → Prop
  | int (n : Int) : Known (.int n)
  | read (k : SeqKind) : Known (.seq k [.str "read"])
  | neg (k : SeqKind) (a : Datum) : Known (.seq k [.str "-", a])
  | add (k : SeqKind) (a b : Datum) : Known (.seq k [.str "+", a, b])
  | sub (k : SeqKind) (a b : Datum) : Known (.seq k [.str "-", a, b])

theorem eval_of_not_known (h : ¬ Known e) :
    eval e = reject "error in interp_exp, unexpected: " e := by
  unfold eval
  split
  · exact absurd (.int _) h
  · exact absurd (.read _) h
  · exact absurd (.neg _ _) h
  · exact absurd (.add _ _ _) h
  · exact absurd (.sub _ _ _) h
  · rfl

/-- Shrinking brings no rule about: a form keeps its operator and the number of its arguments. -/
theorem known_of_known_shrinkExp (h : Known (shrinkExp e)) : Known e := by
  unfold shrinkExp at h
  split at h
  · exact .sub _ _ _
  · rename_i k op args _
    have hlen := length_shrinkAll args
    generalize shrinkAll args = es at h hlen
    cases h with
    | read =>
      obtain rfl := List.length_eq_zero_iff.1 hlen.symm
      exact .read k
    | neg =>
      obtain ⟨x, rfl⟩ := List.length_eq_one_iff.1 hlen.symm
      exact .neg k x
    | add =>
      obtain ⟨x, y, rfl⟩ := List.length_eq_two.1 hlen.symm
      exact .add k x y
    | sub =>
      obtain ⟨x, y, rfl⟩ := List.length_eq_two.1 hlen.symm
      exact .sub k x y
  · exact h

theorem isSome_literal?_seq {items : List Datum} :
    (Datum.literal? (.seq k items)).isSome ↔ ∀ d ∈ items, d.literal?.isSome := by
  rw [Datum.literal?, Option.isSome_map]
  induction items with
  | nil => simp [Datum.literals?]
  | cons d ds ih =>
    rw [List.forall_mem_cons, ← ih, Datum.literals?]
    cases d.literal? <;> cases Datum.literals? ds <;> simp

/-- Shrinking makes no integer and drops none, so a form that is refused can be written in a message
exactly if it can be after shrinking. -/
theorem isSome_literal?_shrinkExp (e : Datum) :
    (shrinkExp e).literal?.isSome ↔ e.literal?.isSome := by
  induction e with
  | seq k items ih =>
    unfold shrinkExp
    split
    · rename_i a b he
      cases he
      have ha := ih a (by simp)
      have hb := ih b (by simp)
      have hstr : ∀ s, (Datum.str s).literal?.isSome := fun _ => rfl
      simp [isSome_literal?_seq, ha, hb, hstr]
    · rename_i op args _ he
      cases he
      rw [isSome_literal?_seq, isSome_literal?_seq, List.forall_mem_cons, List.forall_mem_cons,
        shrinkAll_eq_map, List.forall_mem_map]
      exact and_congr_right fun _ => forall₂_congr fun d hd => ih d (List.mem_cons_of_mem _ hd)
    · rfl
  | _ => rfl

theorem agrees_reject {α : Type} (message : String) {d d' : Datum}
    (h : d.literal?.isSome ↔ d'.literal?.isSome) :
    Agrees (reject message d : Job α) (reject message d') := by
  unfold reject
  cases hd : d.literal? <;> cases hd' : d'.literal? <;> rw [hd, hd'] at h
  · exact .refl _
  · simp at h
  · simp at h
  · exact ⟨fun _ => .error (.plain _ _), fun _ => rfl⟩

/-- A difference is the sum with the negation, evaluated in the same order. -/
theorem eval_sub_eq (k l m : SeqKind) (a b : Datum) :
    eval (.seq k [.str "+", a, .seq l [.str "-", b]]) = eval (.seq m [.str "-", a, b]) := by
  simp only [eval, bind_assoc, pure_bind, Int.sub_eq_add_neg]

theorem eval_shrinkExp_agrees (e : Datum) : Agrees (eval (shrinkExp e)) (eval e) := by
  fun_induction eval e with
  | case1 n => exact .refl _
  | case2 => exact .refl _
  | case3 k a ih => exact ih.bind fun x => .refl _
  | case4 k a b iha ihb => exact iha.bind fun x => ihb.bind fun y => .refl _
  | case5 k a b iha ihb =>
    rw [shrinkExp_sub, eval_sub_eq (m := k)]
    exact iha.bind fun x => ihb.bind fun y => .refl _
  | case6 e hint hread hneg hadd hsub =>
    have hk : ¬ Known e := by
      intro h
      cases h with
      | int n => exact hint n rfl
      | read k => exact hread k rfl
      | neg k a => exact hneg k a rfl
      | add k a b => exact hadd k a b rfl
      | sub k a b => exact hsub k a b rfl
    rw [eval_of_not_known fun h => hk (known_of_known_shrinkExp h)]
    exact agrees_reject _ (isSome_literal?_shrinkExp e)

theorem interpret_shrink_agrees (p : Datum) : Agrees (interpret (shrink p)) (interpret p) := by
  unfold shrink
  split
  · rename_i info body
    exact (eval_shrinkExp_agrees body).bind fun n => .refl _
  · rename_i hp
    have : interpret p = pure .null := by
      unfold interpret
      split
      · rename_i k info body; exact absurd rfl (hp k info body)
      · rfl
    rw [this]; exact .refl _

/-! ## Folding -/

/-- What is folded to an integer and has a value is that integer. -/
theorem eq_of_toInt? (hi : e.toInt? = some v) (he : eval e w = (.ok x, w')) : x = v ∧ w' = w := by
  cases e with
  | int n => cases hi; cases he; exact ⟨rfl, rfl⟩
  | bool b =>
    obtain ⟨err, h⟩ := reject_apply (α := Int) "error in interp_exp, unexpected: " (.bool b) w
    cases h.symm.trans he
  | _ => cases hi

theorem eval_foldNeg (ha : eval a w = (.ok x, w')) : eval (foldNeg a) w = (.ok (-x), w') := by
  unfold foldNeg
  split
  · rename_i n hn
    obtain ⟨rfl, rfl⟩ := eq_of_toInt? hn ha
    rfl
  · exact eval_neg ha

theorem eval_foldAdd {w₁ : World} (ha : eval a w = (.ok x, w₁)) (hb : eval b w₁ = (.ok y, w')) :
    eval (foldAdd a b) w = (.ok (x + y), w') := by
  unfold foldAdd
  split
  · rename_i m n hm hn
    obtain ⟨rfl, rfl⟩ := eq_of_toInt? hm ha
    obtain ⟨rfl, rfl⟩ := eq_of_toInt? hn hb
    rfl
  · exact eval_add ha hb

/-- Folding keeps a value, and what is read for it. -/
theorem eval_foldExp (h : eval e w = (.ok v, w')) : eval (foldExp e) w = (.ok v, w') := by
  fun_induction foldExp e generalizing w w' v with
  | case1 k a ih =>
    rw [eval] at h
    obtain ⟨x, w₁, ha, hr⟩ := Job.exists_of_bind_ok h
    cases hr
    exact eval_foldNeg (ih ha)
  | case2 k a b iha ihb =>
    rw [eval] at h
    obtain ⟨x, w₁, ha, hr⟩ := Job.exists_of_bind_ok h
    obtain ⟨y, w₂, hb, hr⟩ := Job.exists_of_bind_ok hr
    cases hr
    exact eval_foldAdd (iha ha) (ihb hb)
  | case3 e => exact h

theorem interpret_fold {p d : Datum} (h : interpret p w = (.ok d, w')) :
    interpret (fold p) w = (.ok d, w') := by
  unfold fold
  split
  · rename_i k info body
    rw [interpret] at h
    obtain ⟨n, w₁, hb, hr⟩ := Job.exists_of_bind_ok h
    cases hr
    rw [Sexp.program, interpret, Job.bind_of_ok (eval_foldExp hb)]; rfl
  · rename_i hp
    unfold interpret at h
    split at h
    · rename_i k info body; exact absurd rfl (hp k info body)
    · exact h

end PassCheck.Lint
