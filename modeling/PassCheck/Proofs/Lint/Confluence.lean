/-
Shrinking and folding in any order. The two rewritings do not disturb each other: each of them is
done after one run, folding leaves nothing to shrink in a shrunk program, and what an early folding
has computed a later one would have computed as well. So every sequence of the two passes that folds
at some point after it has shrunk makes the same program.

The identities are shown for expressions first, by the recursion of the rewriting that is run first;
a program is rewritten in its body (`onBody`). The sequences are followed by one induction that
speaks of these identities only (`rewritten_eq`).
-/
import PassCheck.Proofs.Lint.Check

namespace PassCheck.Lint

open Sexp (program)

/-! ## Expressions -/

variable {k : SeqKind} {a b e : Datum} {n : Int}

/-- Every form but a difference keeps its operator, and its arguments are shrunk. -/
theorem shrinkExp_form {op : Datum} {args : List Datum}
    (h : ∀ a b, op :: args ≠ [.str "-", a, b]) :
    shrinkExp (.seq k (op :: args)) = .tuple (op :: args.map shrinkExp) := by
  rw [shrinkExp, shrinkAll_eq_map]
  rintro a b rfl rfl
  exact h a b rfl

/-- There is nothing left to shrink in a shrunk expression. -/
theorem shrinkExp_shrinkExp (e : Datum) : shrinkExp (shrinkExp e) = shrinkExp e := by
  induction e with
  | seq k items ih =>
    cases items with
    | nil => rfl
    | cons op args =>
      by_cases hsub : ∃ a b, op :: args = [.str "-", a, b]
      · obtain ⟨a, b, hsub⟩ := hsub
        rw [hsub] at ih ⊢
        rw [shrinkExp_sub, shrinkExp_add, shrinkExp_neg, ih a (by simp), ih b (by simp)]
      · have hform : ∀ a b, op :: args ≠ [.str "-", a, b] := fun a b h => hsub ⟨a, b, h⟩
        -- the arguments stay as many as they were, so no difference comes about
        have hform' : ∀ a b, op :: args.map shrinkExp ≠ [.str "-", a, b] := by
          intro a b h
          obtain ⟨rfl, hargs⟩ := List.cons.inj h
          have hlen : args.length = 2 := by
            rw [← List.length_map (f := shrinkExp), hargs]; rfl
          obtain ⟨x, y, rfl⟩ := List.length_eq_two.1 hlen
          exact hform x y rfl
        rw [shrinkExp_form hform, shrinkExp_form hform', List.map_map]
        refine congrArg (fun es => Datum.tuple (op :: es)) (List.map_congr_left fun d hd => ?_)
        exact ih d (List.mem_cons_of_mem op hd)
  | _ => rfl

theorem foldExp_foldNeg (ha : foldExp a = a) : foldExp (foldNeg a) = foldNeg a := by
  unfold foldNeg
  split
  · rfl
  · rename_i hn
    rw [foldExp_neg, ha, foldNeg, hn]

theorem foldExp_foldAdd (ha : foldExp a = a) (hb : foldExp b = b) :
    foldExp (foldAdd a b) = foldAdd a b := by
  unfold foldAdd
  split
  · rfl
  · rename_i hn
    rw [foldExp_add, ha, hb, foldAdd]
    split
    · rename_i m n hm hk; exact absurd hk (hn m n hm)
    · rfl

/-- There is nothing left to fold in a folded expression. -/
theorem foldExp_foldExp (e : Datum) : foldExp (foldExp e) = foldExp e := by
  fun_induction foldExp e with
  | case1 k a ih => exact foldExp_foldNeg ih
  | case2 k a b iha ihb => exact foldExp_foldAdd iha ihb
  | case3 e hneg hadd => rw [foldExp] <;> assumption

theorem shrinkExp_foldNeg (ha : shrinkExp a = a) : shrinkExp (foldNeg a) = foldNeg a := by
  unfold foldNeg
  split
  · rfl
  · rw [shrinkExp_neg, ha]

theorem shrinkExp_foldAdd (ha : shrinkExp a = a) (hb : shrinkExp b = b) :
    shrinkExp (foldAdd a b) = foldAdd a b := by
  unfold foldAdd
  split
  · rfl
  · rw [shrinkExp_add, ha, hb]

/-- Folding leaves nothing to shrink where nothing was left. -/
theorem shrinkExp_foldExp (h : shrinkExp e = e) : shrinkExp (foldExp e) = foldExp e := by
  fun_induction foldExp e with
  | case1 k a ih =>
    rw [shrinkExp_neg] at h
    injection h with _ h
    injection h with _ h
    exact shrinkExp_foldNeg (ih (List.cons.inj h).1)
  | case2 k a b iha ihb =>
    rw [shrinkExp_add] at h
    injection h with _ h
    injection h with _ h
    obtain ⟨ha, h⟩ := List.cons.inj h
    exact shrinkExp_foldAdd (iha ha) (ihb (List.cons.inj h).1)
  | case3 e => exact h

/-- What counts as an integer is neither shrunk nor folded. -/
theorem foldExp_shrinkExp_of_toInt? (h : a.toInt? = some n) : foldExp (shrinkExp a) = a := by
  cases a with
  | int _ => rfl
  | bool _ => rfl
  | _ => cases h

theorem foldExp_shrinkExp_foldNeg (a : Datum) :
    foldExp (shrinkExp (foldNeg a)) = foldNeg (foldExp (shrinkExp a)) := by
  cases ha : a.toInt? with
  | none =>
    have hneg : foldNeg a = .tuple [.str "-", a] := by rw [foldNeg, ha]
    rw [hneg, shrinkExp_neg, foldExp_neg]
  | some n =>
    have hneg : foldNeg a = .int (-n) := by rw [foldNeg, ha]
    rw [foldExp_shrinkExp_of_toInt? ha, hneg]
    rfl

theorem foldExp_shrinkExp_foldAdd (a b : Datum) : foldExp (shrinkExp (foldAdd a b)) =
    foldAdd (foldExp (shrinkExp a)) (foldExp (shrinkExp b)) := by
  cases ha : a.toInt? with
  | none =>
    have hadd : foldAdd a b = .tuple [.str "+", a, b] := by rw [foldAdd, ha]
    rw [hadd, shrinkExp_add, foldExp_add]
  | some m =>
    cases hb : b.toInt? with
    | none =>
      have hadd : foldAdd a b = .tuple [.str "+", a, b] := by rw [foldAdd, ha, hb]
      rw [hadd, shrinkExp_add, foldExp_add]
    | some n =>
      have hadd : foldAdd a b = .int (m + n) := by rw [foldAdd, ha, hb]
      rw [foldExp_shrinkExp_of_toInt? ha, foldExp_shrinkExp_of_toInt? hb, hadd]
      rfl

/-- What is folded early would be folded later. -/
theorem foldExp_shrinkExp_foldExp (e : Datum) :
    foldExp (shrinkExp (foldExp e)) = foldExp (shrinkExp e) := by
  fun_induction foldExp e with
  | case1 k a ih => rw [foldExp_shrinkExp_foldNeg, ih, shrinkExp_neg, foldExp_neg]
  | case2 k a b iha ihb => rw [foldExp_shrinkExp_foldAdd, iha, ihb, shrinkExp_add, foldExp_add]
  | case3 e => rfl

/-! ## Programs -/

/-- Rewrites the body of a program; anything else becomes nothing. -/
def onBody (f : Datum → Datum) : Datum → Datum
  | .seq _ [.str "Program", info, body] => program info (f body)
  | _ => .null

theorem shrink_eq_onBody (p : Datum) : shrink p = onBody shrinkExp p := rfl

theorem fold_eq_onBody (p : Datum) : fold p = onBody foldExp p := rfl

theorem onBody_onBody (f g : Datum → Datum) (p : Datum) :
    onBody f (onBody g p) = onBody (fun e => f (g e)) p := by
  rw [onBody.eq_def g, onBody.eq_def _ p]
  split <;> rfl

theorem onBody_congr {f g : Datum → Datum} (h : ∀ e, f e = g e) (p : Datum) :
    onBody f p = onBody g p := by
  rw [funext h]

theorem shrink_shrink (p : Datum) : shrink (shrink p) = shrink p := by
  simp only [shrink_eq_onBody, onBody_onBody]
  exact onBody_congr shrinkExp_shrinkExp p

theorem fold_fold (p : Datum) : fold (fold p) = fold p := by
  simp only [fold_eq_onBody, onBody_onBody]
  exact onBody_congr foldExp_foldExp p

theorem shrink_fold_shrink (p : Datum) : shrink (fold (shrink p)) = fold (shrink p) := by
  simp only [shrink_eq_onBody, fold_eq_onBody, onBody_onBody]
  exact onBody_congr (fun e => shrinkExp_foldExp (shrinkExp_shrinkExp e)) p

theorem fold_shrink_fold (p : Datum) : fold (shrink (fold p)) = fold (shrink p) := by
  simp only [shrink_eq_onBody, fold_eq_onBody, onBody_onBody]
  exact onBody_congr foldExp_shrinkExp_foldExp p

/-! ## Sequences of rewritings -/

/-- The two rewritings. -/
inductive Rewriting where
  | shrinking
  | folding
deriving DecidableEq

namespace Rewriting

/-- What a rewriting makes of a program. -/
def apply : Rewriting → Datum → Datum
  | .shrinking => shrink
  | .folding => fold

/-- The transform of a pass that does a rewriting. -/
def routine : Rewriting → Routine
  | .shrinking => Recipe.shrink.routine
  | .folding => Recipe.fold.routine

theorem routine_apply (r : Rewriting) (p : Datum) (w : World) :
    r.routine [p] w = (.ok (r.apply p), w) := by
  cases r <;> rfl

end Rewriting

/-- The program after some rewritings. -/
def rewritten : List Rewriting → Datum → Datum
  | [], p => p
  | r :: rs, p => rewritten rs (r.apply p)

variable {rs : List Rewriting} {p : Datum}

/-- A shrunk and folded program stays as it is. -/
theorem rewritten_of_done (hs : shrink p = p) (hf : fold p = p) (rs : List Rewriting) :
    rewritten rs p = p := by
  induction rs with
  | nil => rfl
  | cons r rs ih =>
    have hr : r.apply p = p := by
      cases r with
      | shrinking => exact hs
      | folding => exact hf
    rw [rewritten, hr, ih]

/-- Of a shrunk program only the folding is left to be done. -/
theorem rewritten_of_shrunk (hs : shrink p = p) (h : List.Sublist [.folding] rs) :
    rewritten rs p = fold p := by
  induction rs with
  | nil => cases h
  | cons r rs ih =>
    cases r with
    | shrinking =>
      have hrest : List.Sublist [.folding] rs := by
        cases h with
        | cons _ h => exact h
      exact (congrArg (rewritten rs) hs).trans (ih hrest)
    | folding =>
      have hdone : shrink (fold p) = fold p := by rw [← hs, shrink_fold_shrink]
      exact rewritten_of_done hdone (fold_fold p) rs

/-- Rewritings that fold after they have shrunk make one program, in whatever order they come. -/
theorem rewritten_eq (h : List.Sublist [.shrinking, .folding] rs) (p : Datum) :
    rewritten rs p = fold (shrink p) := by
  induction rs generalizing p with
  | nil => cases h
  | cons r rs ih =>
    cases r with
    | shrinking =>
      have hrest : List.Sublist [.folding] rs := by
        cases h with
        | cons _ h => exact (List.sublist_cons_self _ _).trans h
        | cons_cons _ h => exact h
      exact rewritten_of_shrunk (shrink_shrink p) hrest
    | folding =>
      have hrest : List.Sublist [.shrinking, .folding] rs := by
        cases h with
        | cons _ h => exact h
      rw [rewritten, ih hrest]
      exact fold_shrink_fold p

/-! ## Passes -/

/-- Passes that do rewritings, whatever their names and interpreters are. -/
def Performs (ps : List (Pass Routine)) (rs : List Rewriting) : Prop :=
  List.Forall₂ (fun q r => q.transform = r.routine) ps rs

/-- Whatever a tracer shows of some rewritings can be written. -/
def Traceable (t : Tracer) (rs : List Rewriting) (p : Datum) : Prop :=
  t.enabled = true → ∀ qs, qs <+: rs → qs ≠ [] → (rewritten qs p).Writable

variable {ps : List (Pass Routine)} {t : Tracer} {w : World}

theorem Traceable.head {r : Rewriting} (h : Traceable t (r :: rs) p) :
    t.enabled = true → (r.apply p).Writable :=
  fun he => h he [r] ⟨rs, rfl⟩ (List.cons_ne_nil r [])

theorem Traceable.tail {r : Rewriting} (h : Traceable t (r :: rs) p) :
    Traceable t rs (r.apply p) := by
  intro he qs hqs _
  exact h he (r :: qs) ((List.prefix_cons_inj r).2 hqs) (List.cons_ne_nil r qs)

/-- Passes that do rewritings make the rewritten program. -/
theorem Performs.transformAll_eq (h : Performs ps rs) (ht : Traceable t rs p) :
    (Build.transformAll t ps p w).1 = .ok (rewritten rs p) := by
  induction h generalizing p w with
  | nil => rfl
  | @cons q r ps rs hq _ ih =>
    have hgives : Check.Gives w.files (q.transform [p]) (r.apply p) := by
      intro v _
      rw [hq, r.routine_apply]
    obtain ⟨w', -, hrest⟩ := Check.transformAll_cons (n := 0) t hgives ht.head ⟨rfl, trivial⟩
    rw [hrest, ih ht.tail]
    rfl

/-- No other program can come out of them. -/
theorem Performs.eq_of_transformAll {d : Datum} {w' : World} (h : Performs ps rs)
    (hrun : Build.transformAll t ps p w = (.ok d, w')) : d = rewritten rs p := by
  induction h generalizing p w with
  | nil => cases hrun; rfl
  | @cons q r ps rs hq _ ih =>
    obtain ⟨output, w₁, w₂, hout, hrest⟩ := Check.exists_of_transformAll_ok hrun
    rw [hq, r.routine_apply] at hout
    cases hout
    exact ih hrest

theorem Performs.compile_eq (h : Performs ps rs) {tracer : Option Tracer}
    (ht : Traceable (tracer.getD w.tracer) rs p) :
    (Build.compile ps p tracer w).1 = .ok (rewritten rs p) := by
  rw [Build.compile, Job.bind_of_ok (Tracer.choose_apply tracer w), h.transformAll_eq ht]

theorem Performs.eq_of_compile (h : Performs ps rs) {tracer : Option Tracer} {d : Datum}
    (hrun : (Build.compile ps p tracer w).1 = .ok d) : d = rewritten rs p := by
  rw [Build.compile, Job.bind_of_ok (Tracer.choose_apply tracer w)] at hrun
  exact h.eq_of_transformAll (Prod.ext hrun rfl)

theorem performs_shrinkPass_foldPass : Performs [shrinkPass, foldPass] [.shrinking, .folding] :=
  .cons rfl (.cons rfl .nil)

/-- The order of shrinking and folding does not matter. Passes that only shrink and fold, as many
and in whatever order, make of any value what shrinking and then folding make of it, provided that
they fold at some point after they have shrunk. A tracer that is on has to be able to write what it
shows; but even then no other program can come out. So each of the two is done after one run, a
shrunk program that is folded stays shrunk, and folding early makes no difference. -/
theorem compile_same_in_any_order (h : Performs ps rs)
    (hrs : List.Sublist [.shrinking, .folding] rs) (p : Datum) :
    (∀ tracer w, Traceable (tracer.getD w.tracer) rs p →
      (Build.compile ps p tracer w).1 = .ok (fold (shrink p))) ∧
    (∀ tracer w, Traceable (tracer.getD w.tracer) [.shrinking, .folding] p →
      (Build.compile [shrinkPass, foldPass] p tracer w).1 = .ok (fold (shrink p))) ∧
    (∀ tracer w d, (Build.compile ps p tracer w).1 = .ok d → d = fold (shrink p)) ∧
    shrink (shrink p) = shrink p ∧ fold (fold p) = fold p ∧
    shrink (fold (shrink p)) = fold (shrink p) ∧ fold (shrink (fold p)) = fold (shrink p) := by
  refine ⟨fun tracer w ht => ?_, fun tracer w ht => ?_, fun tracer w d hd => ?_,
    shrink_shrink p, fold_fold p, shrink_fold_shrink p, fold_shrink_fold p⟩
  · rw [h.compile_eq ht, rewritten_eq hrs]
  · exact performs_shrinkPass_foldPass.compile_eq ht
  · rw [h.eq_of_compile hd, rewritten_eq hrs]

/-- Both rewritings, some of them twice and folding first. -/
def shuffledPasses : List (Pass Routine) :=
  [foldPass, shrinkPass, shrinkPass, foldPass, shrinkPass]

/-- A program with a boolean, list nodes and a form that folding does not enter. -/
def unevenProgram : Datum :=
  .list [.str "Program", .null, .list [.str "-", .tuple [.str "+", .bool true, .int 2],
    .list [.str "f", .tuple [.str "-", .int 5, .int 3]]]]

theorem compile_same_in_any_order_shuffled :
    Performs shuffledPasses [.folding, .shrinking, .shrinking, .folding, .shrinking] ∧
    List.Sublist [.shrinking, .folding]
      [Rewriting.folding, .shrinking, .shrinking, .folding, .shrinking] ∧
    (Build.compile shuffledPasses unevenProgram none (World.start .empty)).1 =
      .ok (program .null (.tuple [.str "+", .int 3, .tuple [.str "-", .tuple [.str "f",
        .tuple [.str "+", .int 5, .tuple [.str "-", .int 3]]]]])) := by
  have h : Performs shuffledPasses [.folding, .shrinking, .shrinking, .folding, .shrinking] :=
    .cons rfl <| .cons rfl <| .cons rfl <| .cons rfl <| .cons rfl .nil
  have hrs : List.Sublist [.shrinking, .folding]
      [Rewriting.folding, .shrinking, .shrinking, .folding, .shrinking] := by decide
  exact ⟨h, hrs, (compile_same_in_any_order h hrs unevenProgram).1 none _ nofun⟩

end PassCheck.Lint
