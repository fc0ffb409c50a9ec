/-
The order of tests does not matter. If every check of a list of tests finds a result when it is run
alone, then a batch of these checks gives the dictionary of these results, whatever the order of the
tests and however often they are listed. Otherwise the batch fails like the first check that fails:
the tests before it have been reported, and the files of the tests behind it were not looked at.

A check looks at two files and nothing else (`LooksAt`); this is followed through the check step by
step, and gives both that checks leave nothing behind for the next one and that a batch which fails
does not depend on the files of later tests.
-/
import PassCheck.Proofs.Lint.Rewrite
import PassCheck.Proofs.Pass.Repeat

namespace PassCheck

/-! ## Jobs that look at two files -/

/-- Files that agree with others on a source and an input file, and on whether there is an input
file. -/
structure Files.AgreeAt (source input : String) (fs fs' : Files) : Prop where
  source : fs'.read source = fs.read source
  present : fs'.present input = fs.present input
  input : fs'.read input = fs.read input

/-- The world with other files. -/
abbrev World.withFiles (w : World) (files : Files) : World := { w with files := files }

namespace Job

variable {α β : Type} {source input : String}

/-- A job changes no file and looks at a source and an input file only. If something stands at the
path of the input file, it leaves the standard input alone. -/
structure LooksAt (source input : String) (job : Job α) : Prop where
  keeps : ∀ w, (job w).2.files = w.files
  same : ∀ w files, Files.AgreeAt source input w.files files →
    job (w.withFiles files) = ((job w).1, (job w).2.withFiles files)
  spares : ∀ w, w.files.present input = true → (job w).2.input = w.input

theorem OnlyPrints.looksAt {job : Job α} (h : OnlyPrints job) : LooksAt source input job := by
  obtain ⟨r, out, err, hr⟩ := h
  refine ⟨fun w => ?_, fun w files _ => ?_, fun w _ => ?_⟩
  · rw [hr w]
  · rw [hr w, hr (w.withFiles files)]
  · rw [hr w]

theorem LooksAt.bind {x : Job α} {f : α → Job β} (hx : LooksAt source input x)
    (hf : ∀ a, LooksAt source input (f a)) : LooksAt source input (x >>= f) := by
  refine ⟨fun w => ?_, fun w files hagree => ?_, fun w hp => ?_⟩
  · have hkeeps := hx.keeps w
    rcases h : x w with ⟨e | a, w₁⟩ <;> rw [h] at hkeeps
    · rw [bind_of_error h, hkeeps]
    · rw [bind_of_ok h, (hf a).keeps, hkeeps]
  · have hkeeps := hx.keeps w
    have hsame := hx.same w files hagree
    rcases h : x w with ⟨e | a, w₁⟩ <;> rw [h] at hkeeps hsame
    · rw [bind_of_error h, bind_of_error hsame]
    · rw [bind_of_ok h, bind_of_ok hsame]
      exact (hf a).same w₁ files (hkeeps ▸ hagree)
  · have hkeeps := hx.keeps w
    have hspares := hx.spares w hp
    rcases h : x w with ⟨e | a, w₁⟩ <;> rw [h] at hkeeps hspares
    · rw [bind_of_error h, hspares]
    · rw [bind_of_ok h, (hf a).spares w₁ (hkeeps ▸ hp), hspares]

theorem looksAt_readClock : LooksAt source input readClock := by
  refine ⟨fun w => ?_, fun w files _ => ?_, fun w _ => ?_⟩
  · rw [readClock_apply]
  · rw [readClock_apply, readClock_apply]
  · rw [readClock_apply]

end Job

theorem Tracer.looksAt_choose {source input : String} (given : Option Tracer) :
    Job.LooksAt source input (choose given) := by
  refine ⟨fun w => ?_, fun w files _ => ?_, fun w _ => ?_⟩
  · rw [choose_apply]
  · rw [choose_apply, choose_apply]
  · rw [choose_apply]

namespace Check

open Build (PurePasses)
open Family (nameOf)
open Job (LooksAt)

variable {source input : String} {passes : List (Pass Routine)}

theorem looksAt_readProgram : LooksAt source input (readProgram source) := by
  refine ⟨fun w => ?_, fun w files h => ?_, fun w _ => ?_⟩
  · rw [readProgram_apply]
  · rw [readProgram_apply, readProgram_apply, h.source]
  · rw [readProgram_apply]

theorem looksAt_runTransform {p : Pass Routine} {d : Datum} (h : Job.Computes (p.transform [d])) :
    LooksAt source input (runTransform false p d) :=
  Job.looksAt_readClock.bind fun _ => h.onlyPrints.looksAt.bind fun output =>
    (Job.onlyPrints_pure output).looksAt

/-- An interpreter looks at the input file, if there is one. -/
theorem looksAt_runInterpreter {i : Routine} {d : Datum} (h : Job.OnInput (i [d])) :
    LooksAt source input (runInterpreter i d (some input)) := by
  have hrun : ∀ w : World, ∃ r rest, (w.files.present input = true → rest = w.input) ∧
      ∀ files, Files.AgreeAt source input w.files files →
        runInterpreter i d (some input) (w.withFiles files) =
          (r, (w.withFiles files).withInput rest) := by
    intro w
    cases hp : w.files.present input with
    | false =>
      refine ⟨(i [d] w).1, (i [d] w).2.input, nofun, fun files hagree => ?_⟩
      have habsent : (w.withFiles files).files.present input = false := hagree.present.trans hp
      rw [runInterpreter_of_absent i d habsent]
      exact h w (w.withFiles files)
    | true =>
      cases hr : w.files.read input with
      | error e =>
        refine ⟨.error e, w.input, fun _ => rfl, fun files hagree => ?_⟩
        have hpresent : (w.withFiles files).files.present input = true := hagree.present.trans hp
        have hfails : (w.withFiles files).files.read input = .error e := hagree.input.trans hr
        rw [runInterpreter_of_unreadable i d hpresent hfails]
      | ok content =>
        refine ⟨(i [d] (w.withInput (.ofBytes content))).1, w.input, fun _ => rfl,
          fun files hagree => ?_⟩
        have hholds : (w.withFiles files).Holds input content := hagree.input.trans hr
        have hin := h (w.withInput (.ofBytes content)) (w.withFiles files)
        rw [runInterpreter_of_holds i d hholds, Job.withInput]
        simp only [hin]
  refine ⟨fun w => ?_, fun w files hagree => ?_, fun w hp => ?_⟩
  all_goals
    obtain ⟨r, rest, hrest, hw⟩ := hrun w
    have hself : runInterpreter i d (some input) w = (r, w.withInput rest) :=
      hw w.files ⟨rfl, rfl, rfl⟩
  · rw [hself]
  · rw [hself, hw files hagree]
  · rw [hself]; exact hrest hp

theorem looksAt_chain (compiler : String) (t : Tracer) (hpure : PurePasses passes)
    (hread : ReadingInterpreters passes) (d : Datum) (last : Option Datum) :
    LooksAt source input (chain compiler t false input passes d last) := by
  induction passes generalizing d last with
  | nil => exact (Job.onlyPrints_pure last).looksAt
  | cons p ps ih =>
    obtain ⟨hp, hps⟩ := List.forall_mem_cons.1 hpure
    obtain ⟨hi, his⟩ := List.forall_mem_cons.1 hread
    refine (looksAt_runTransform (hp d)).bind fun output => ?_
    refine (t.onlyPrints_trace _ output).looksAt.bind fun _ => ?_
    cases hinterp : p.interpreter with
    | none => exact ih hps his output last
    | some interp =>
      refine (looksAt_runInterpreter (hi interp hinterp output)).bind fun found => ?_
      refine (t.onlyPrints_trace _ found).looksAt.bind fun _ => ?_
      exact (onlyPrints_compare compiler p last found output).looksAt.bind fun _ =>
        ih hps his output (some found)

variable {compiler family dir : String} {w v : World}

/-- A check looks at the source and the input file of its test. -/
theorem looksAt_checkTest (compiler family dir : String) (hpure : PurePasses passes)
    (hread : ReadingInterpreters passes) (i : Int) :
    LooksAt (Family.sourcePath (nameOf family i) dir) (Family.inputPath (nameOf family i) dir)
      (checkTest compiler passes family dir i) := by
  refine (Tracer.looksAt_choose none).bind fun t => ?_
  refine looksAt_readProgram.bind fun d => ?_
  refine (t.onlyPrints_trace _ d).looksAt.bind fun _ => ?_
  refine (Job.onlyPrints_pure ()).looksAt.bind fun _ => ?_
  refine (Job.onlyPrints_pure none).looksAt.bind fun first => ?_
  exact (looksAt_chain compiler t hpure hread d first).bind fun r =>
    (Job.onlyPrints_pure _).looksAt

/-- The check of a test leaves the standard input alone if something stands at the path of its input
file. -/
theorem checkTest_input_of_present {i : Int} (hpure : PurePasses passes)
    (hread : ReadingInterpreters passes)
    (hp : w.files.present (Family.inputPath (nameOf family i) dir) = true) :
    (checkTest compiler passes family dir i w).2.input = w.input :=
  (looksAt_checkTest compiler family dir hpure hread i).spares w hp

end Check

/-! ## Dictionaries of results -/

namespace Datum

variable {key value : Datum} {es : List (Datum × Datum)}

/-- Storing what is stored already changes nothing. -/
theorem setEntry_eq_self (hmem : ∃ e ∈ es, alike e.1 key = true)
    (h : ∀ e ∈ es, alike e.1 key = true → e.2 = value) : setEntry key value es = es := by
  induction es with
  | nil => obtain ⟨e, he, -⟩ := hmem; cases he
  | cons e es ih =>
    obtain ⟨he, hes⟩ := List.forall_mem_cons.1 h
    rw [setEntry]
    split
    · rename_i hk
      rw [← he hk]
    · rename_i hk
      obtain ⟨f, hf, hfk⟩ := hmem
      rcases List.mem_cons.1 hf with rfl | hf
      · exact absurd hfk hk
      · rw [ih ⟨f, hf, hfk⟩ hes]

/-- A key that is new comes last. -/
theorem setEntry_eq_append (h : ∀ e ∈ es, alike e.1 key = false) :
    setEntry key value es = es ++ [(key, value)] := by
  induction es with
  | nil => rfl
  | cons e es ih =>
    obtain ⟨he, hes⟩ := List.forall_mem_cons.1 h
    rw [setEntry, if_neg (by rw [he]; exact Bool.false_ne_true), ih hes, List.cons_append]

/-- Dictionaries without a key twice that have the same entries are equal. -/
theorem same_dict_of_mem_iff {fs : List (Datum × Datum)} (hes : KeysDistinct (.dict es))
    (hfs : KeysDistinct (.dict fs)) (h : ∀ e, e ∈ es ↔ e ∈ fs) :
    same (.dict es) (.dict fs) = true := by
  have hnodup : ∀ {ds : List (Datum × Datum)}, KeysDistinct (.dict ds) → ds.Nodup := by
    intro ds hds
    refine List.Pairwise.imp (fun hne => ?_) hds
    rintro rfl
    rw [alike_refl] at hne
    cases hne
  have hperm : es.Perm fs := (List.perm_ext_iff_of_nodup (hnodup hes) (hnodup hfs)).2 h
  rw [same_eq_alike (a := .dict es) trivial]
  refine alike_dict.2 ⟨fs, rfl, hperm.length_eq, fun e he => ?_⟩
  exact ⟨e, (h e).1 he, alike_refl _, alike_refl _⟩

end Datum

namespace Check

open Build (PurePasses)
open Family (nameOf)

/-- A dictionary holds the values of the tests of a list by their names, and nothing else. -/
structure Lists (family : String) (value : Int → Datum) (is : List Int)
    (found : List (Datum × Datum)) : Prop where
  entries : ∀ e, e ∈ found ↔ ∃ i ∈ is, e = (.str (nameOf family i), value i)
  distinct : Datum.KeysDistinct (.dict found)

variable {family : String} {value : Int → Datum} {is : List Int} {found : List (Datum × Datum)}

theorem nameOf_injective {i j : Int} (h : nameOf family i = nameOf family j) : i = j := by
  have hchars := congrArg String.toList h
  simp only [nameOf, String.toList_append] at hchars
  exact Integer.decimal_injective (String.toList_inj.1 (List.append_cancel_left hchars))

/-- One more result. A test that was listed before has the same value again. -/
theorem Lists.setEntry (h : Lists family value is found) (i : Int) :
    Lists family value (is ++ [i]) (Datum.setEntry (.str (nameOf family i)) (value i) found) := by
  have hkey : ∀ e ∈ found, e.1.alike (.str (nameOf family i)) = true →
      i ∈ is ∧ e = (.str (nameOf family i), value i) := by
    intro e he hk
    obtain ⟨j, hj, rfl⟩ := (h.entries e).1 he
    obtain rfl : i = j := nameOf_injective (Datum.str.inj (Datum.alike_str.1 hk))
    exact ⟨hj, rfl⟩
  by_cases hi : i ∈ is
  · have hold : (Datum.str (nameOf family i), value i) ∈ found := (h.entries _).2 ⟨i, hi, rfl⟩
    have hvalue : ∀ e ∈ found, e.1.alike (.str (nameOf family i)) = true → e.2 = value i :=
      fun e he hk => by rw [(hkey e he hk).2]
    rw [Datum.setEntry_eq_self ⟨_, hold, Datum.alike_refl _⟩ hvalue]
    refine ⟨fun e => (h.entries e).trans ?_, h.distinct⟩
    simp only [List.mem_append, List.mem_singleton]
    constructor
    · rintro ⟨j, hj, rfl⟩; exact ⟨j, .inl hj, rfl⟩
    · rintro ⟨j, hj | rfl, rfl⟩
      · exact ⟨j, hj, rfl⟩
      · exact ⟨j, hi, rfl⟩
  · have hnew : ∀ e ∈ found, e.1.alike (.str (nameOf family i)) = false := fun e he =>
      Bool.eq_false_iff.2 fun hk => hi (hkey e he hk).1
    rw [Datum.setEntry_eq_append hnew]
    refine ⟨fun e => ?_, List.pairwise_append.2 ⟨h.distinct, List.pairwise_singleton _ _, ?_⟩⟩
    · rw [List.mem_append, h.entries, List.mem_singleton]
      simp only [List.mem_append, List.mem_singleton]
      constructor
      · rintro (⟨j, hj, rfl⟩ | rfl)
        · exact ⟨j, .inl hj, rfl⟩
        · exact ⟨i, .inr rfl, rfl⟩
      · rintro ⟨j, hj | rfl, rfl⟩
        · exact .inl ⟨j, hj, rfl⟩
        · exact .inr rfl
    · intro e he f hf
      rw [List.mem_singleton.1 hf]
      exact hnew e he

/-- Equal lists of tests, up to order and repetition, have equal dictionaries. -/
theorem Lists.same_of_mem_iff {is' : List Int} {found' : List (Datum × Datum)}
    (h : Lists family value is found) (h' : Lists family value is' found')
    (hmem : ∀ i, i ∈ is' ↔ i ∈ is) : (Datum.dict found').same (.dict found) = true := by
  refine Datum.same_dict_of_mem_iff h'.distinct h.distinct fun e => ?_
  rw [h.entries, h'.entries]
  simp only [hmem]

/-! ## A batch of checks -/

variable {compiler dir : String} {passes : List (Pass Routine)} {w v : World}

theorem runAll_append (compiler : String) (passes : List (Pass Routine)) (o : Options)
    (ts us : List String) (results : List (Datum × Datum)) :
    runAll compiler passes o (ts ++ us) results =
      runAll compiler passes o ts results >>= runAll compiler passes o us := by
  induction ts generalizing results with
  | nil => rw [List.nil_append, runAll, pure_bind]
  | cons t ts ih => simp only [List.cons_append, runAll, ih, bind_assoc]

/-- A check that finds a result has read its source, so its index can be written. -/
theorem writable_of_checkTest {i : Int} {r : Datum}
    (h : (checkTest compiler passes family dir i w).1 = .ok r) : Integer.Writable i := by
  rcases hrun : checkTest compiler passes family dir i w with ⟨e | r', w'⟩
  · rw [hrun] at h; cases h
  · obtain ⟨t, w₁, -, hrest⟩ := Job.exists_of_bind_ok hrun
    obtain ⟨program, w₂, hprogram, -⟩ := Job.exists_of_bind_ok hrest
    obtain ⟨content, -, hread, -⟩ := exists_of_readProgram (congrArg Prod.fst hprogram)
    obtain ⟨p, hp, -⟩ := Files.read_eq_ok_iff.1 hread
    have hsource : w₁.files.locate (Family.filePath family dir i ".rkt") = .ok p := by
      rw [← Family.sourcePath_nameOf]; exact hp
    exact Family.writable_of_locate Family.isTail_rkt hsource

/-- Checks that all find a result, one after another, give the dictionary of these results. -/
theorem runAll_of_ok {done todo : List Int} {results : List (Datum × Datum)} {n : Nat}
    {text : String} (hpure : PurePasses passes) (hread : ReadingInterpreters passes)
    (hin : ∀ i ∈ todo, (checkTest compiler passes family dir i w).2.input = w.input)
    (hclock : todo ≠ [] → w.clock.Shows passes.length)
    (hv : World.Since (n + todo.length * passes.length) text w v)
    (hok : ∀ i ∈ todo, (checkTest compiler passes family dir i w).1 = .ok (value i))
    (hresults : Lists family value done results) :
    ∃ found v', runAll compiler passes { Options.plain with testsDir := dir }
        (todo.map (nameOf family)) results v = (.ok found, v') ∧
      Lists family value (done ++ todo) found ∧
      World.Since n (text ++ String.join (todo.map (reportOf compiler passes family dir w))) w
        v' := by
  induction todo generalizing done results text v with
  | nil =>
    refine ⟨results, v, rfl, by rwa [List.append_nil], ?_⟩
    rw [List.map_nil, String.join_nil, String.append_empty]
    rwa [List.length_nil, Nat.zero_mul, Nat.add_zero] at hv
  | cons i todo ih =>
    obtain ⟨hi, hin⟩ := List.forall_mem_cons.1 hin
    obtain ⟨hoki, hok⟩ := List.forall_mem_cons.1 hok
    have hshows : w.clock.Shows passes.length := hclock (List.cons_ne_nil i todo)
    rw [List.length_cons, Nat.succ_mul, ← Nat.add_assoc] at hv
    obtain ⟨v₁, hrun, hv₁⟩ := runAll_cons_of_ok hpure hread hi hshows hv hoki
    obtain ⟨found, v₂, hrest, hfound, hv₂⟩ := ih hin (fun _ => hshows) hv₁ hok (hresults.setEntry i)
    refine ⟨found, v₂, by rw [List.map_cons, hrun, hrest], ?_, ?_⟩
    · rwa [List.append_assoc] at hfound
    · rwa [List.map_cons, String.join_cons, ← String.append_assoc]

/-- A batch looks at the files of its own tests only. -/
theorem runAll_withFiles {todo : List Int} {files : Files} (hpure : PurePasses passes)
    (hread : ReadingInterpreters passes) (results : List (Datum × Datum))
    (hagree : ∀ i ∈ todo, Files.AgreeAt (Family.sourcePath (nameOf family i) dir)
      (Family.inputPath (nameOf family i) dir) w.files files) :
    runAll compiler passes { Options.plain with testsDir := dir } (todo.map (nameOf family)) results
        (w.withFiles files) =
      ((runAll compiler passes { Options.plain with testsDir := dir } (todo.map (nameOf family))
        results w).1,
      (runAll compiler passes { Options.plain with testsDir := dir } (todo.map (nameOf family))
        results w).2.withFiles files) := by
  induction todo generalizing results w with
  | nil => rfl
  | cons i todo ih =>
    obtain ⟨hi, hagree⟩ := List.forall_mem_cons.1 hagree
    have hlooks := looksAt_checkTest compiler family dir hpure hread i
    have hkeeps := hlooks.keeps w
    have hsame := hlooks.same w files hi
    rw [List.map_cons, runAll_cons]
    rcases hrun : checkTest compiler passes family dir i w with ⟨e | r, w₁⟩
    · rw [hrun] at hsame
      rw [Job.bind_of_error hrun, Job.bind_of_error hsame]
    · rw [hrun] at hkeeps hsame
      rw [Job.bind_of_ok hrun, Job.bind_of_ok hsame, Job.bind_of_ok (Job.print_apply _ _),
        Job.bind_of_ok (Job.print_apply _ _)]
      have hfiles : w₁.files = w.files := hkeeps
      exact ih (w := w₁.saying (compiler ++ " passed interp test " ++ nameOf family i ++ "\n") "") _
        fun j hj => hfiles ▸ hagree j hj

/-- The checks of the tests of integer indices. -/
def checkAll (compiler : String) (passes : List (Pass Routine)) (family dir : String)
    (indices : List Int) : Job (List (Datum × Datum)) :=
  runFamily compiler passes family (.list (indices.map .int))
    { Options.plain with testsDir := dir }

theorem checkAll_of_ok {indices : List Int} (hpure : PurePasses passes)
    (hread : ReadingInterpreters passes)
    (hin : ∀ i ∈ indices, (checkTest compiler passes family dir i w).2.input = w.input)
    (hclock : w.clock.Shows (indices.length * passes.length))
    (hok : ∀ i ∈ indices, (checkTest compiler passes family dir i w).1 = .ok (value i)) :
    ∃ found, (checkAll compiler passes family dir indices w).1 = .ok found ∧
      Lists family value indices found := by
  have hwritable : ∀ i ∈ indices, Integer.Writable i := fun i hi => writable_of_checkTest (hok i hi)
  have hstart : World.Since (0 + indices.length * passes.length) "" w w := by
    rw [Nat.zero_add]; exact .refl hclock
  have hempty : Lists family value [] [] := ⟨fun e => by simp, List.Pairwise.nil⟩
  obtain ⟨found, v, hrun, hfound, -⟩ :=
    runAll_of_ok hpure hread hin (fun hne => hclock.of_length_mul hne) hstart hok hempty
  refine ⟨found, ?_, hfound⟩
  rw [checkAll, runFamily_eq_runAll _ _ _ hwritable, hrun]

theorem checkAll_of_error {done rest : List Int} {i : Int} {e : Failure} (hpure : PurePasses passes)
    (hread : ReadingInterpreters passes)
    (hin : ∀ j ∈ done ++ i :: rest, (checkTest compiler passes family dir j w).2.input = w.input)
    (hclock : w.clock.Shows ((done ++ i :: rest).length * passes.length))
    (hdone : ∀ j ∈ done, ∃ r, (checkTest compiler passes family dir j w).1 = .ok r)
    (hi : (checkTest compiler passes family dir i w).1 = .error e)
    (hwritable : ∀ j ∈ i :: rest, Integer.Writable j) :
    ∃ v, v.out = w.out ++ (String.join (done.map (reportOf compiler passes family dir w)) ++
        (checkTest compiler passes family dir i).wrote w) ∧
      checkAll compiler passes family dir (done ++ i :: rest) w = (.error e, v) ∧
      ∀ files, (∀ j ∈ done ++ [i], Files.AgreeAt (Family.sourcePath (nameOf family j) dir)
          (Family.inputPath (nameOf family j) dir) w.files files) →
        checkAll compiler passes family dir (done ++ i :: rest) (w.withFiles files) =
          (.error e, v.withFiles files) := by
  choose! value hvalue using hdone
  have hall : ∀ j ∈ done ++ i :: rest, Integer.Writable j :=
    List.forall_mem_append.2 ⟨fun j hj => writable_of_checkTest (hvalue j hj), hwritable⟩
  have hshows : w.clock.Shows passes.length := hclock.of_length_mul (by simp)
  have hstart : World.Since
      (rest.length * passes.length + passes.length + done.length * passes.length) "" w w := by
    refine .refl ?_
    have hlen : (done ++ i :: rest).length * passes.length =
        rest.length * passes.length + passes.length + done.length * passes.length := by
      rw [List.length_append, List.length_cons, Nat.add_mul, Nat.succ_mul, Nat.add_comm]
    rwa [← hlen]
  have hempty : Lists family value [] [] := ⟨fun e => by simp, List.Pairwise.nil⟩
  obtain ⟨found, v₁, hrun, -, hv₁⟩ := runAll_of_ok hpure hread
    (fun j hj => hin j (List.mem_append_left _ hj)) (fun _ => hshows) hstart hvalue hempty
  obtain ⟨v, hstop, c, err, -, hv⟩ := runAll_cons_of_error hpure hread
    (hin i (List.mem_append_right _ List.mem_cons_self)) hshows hv₁ hi
  have hfirst : runAll compiler passes { Options.plain with testsDir := dir }
      ((done ++ [i]).map (nameOf family)) [] w = (.error e, v) := by
    rw [List.map_append, runAll_append, Job.bind_of_ok hrun]
    exact hstop [] found
  -- whatever comes behind the test that fails makes no difference
  have hbehind : ∀ u v', runAll compiler passes { Options.plain with testsDir := dir }
      ((done ++ [i]).map (nameOf family)) [] u = (.error e, v') →
      checkAll compiler passes family dir (done ++ i :: rest) u = (.error e, v') := by
    intro u v' hu
    have hsplit : done ++ i :: rest = done ++ [i] ++ rest := by simp
    rw [checkAll, runFamily_eq_runAll _ _ _ hall, hsplit, List.map_append, runAll_append,
      Job.bind_of_error hu]
  refine ⟨v, ?_, hbehind w v hfirst, fun files hagree => hbehind _ _ ?_⟩
  · rw [hv]
    show w.out ++ _ = _
    rw [String.empty_append]
  · rw [runAll_withFiles hpure hread [] hagree, hfirst]

/-- Checks do not depend on the order of the tests, and the first failure ends them. Transforms only
compute; interpreters may read the standard input, but a test without an input file leaves it alone.
If every check of a list finds a result when it is run alone, the batch gives the dictionary of
these results by the names of the tests, and so it does, up to equality, for the list in any other
order. If a check fails, and those before it do not, then the batch fails like that check; the tests
before it have been reported and no others, and the batch does the same whatever the files of the
tests behind it are. An index that cannot be written stops the batch before it starts. -/
theorem checks_independent_of_order (compiler : String) {passes : List (Pass Routine)}
    (family dir : String) {indices : List Int} {w : World} (hpure : PurePasses passes)
    (hread : ReadingInterpreters passes)
    (hunread : ∀ i ∈ indices, w.files.present (Family.inputPath (nameOf family i) dir) = false →
      (checkTest compiler passes family dir i w).2.input = w.input)
    (hclock : w.clock.Shows (indices.length * passes.length)) :
    (∀ value : Int → Datum,
      (∀ i ∈ indices, (checkTest compiler passes family dir i w).1 = .ok (value i)) →
      ∃ found, (checkAll compiler passes family dir indices w).1 = .ok found ∧
        Lists family value indices found ∧
        ∀ indices', indices'.Perm indices →
          ∃ found', (checkAll compiler passes family dir indices' w).1 = .ok found' ∧
            (Datum.dict found').same (.dict found) = true) ∧
    (∀ done i rest e, indices = done ++ i :: rest →
      (∀ j ∈ done, ∃ r, (checkTest compiler passes family dir j w).1 = .ok r) →
      (checkTest compiler passes family dir i w).1 = .error e →
      (∀ j ∈ i :: rest, Integer.Writable j) →
      ∃ v, v.out = w.out ++ (String.join (done.map (reportOf compiler passes family dir w)) ++
          (checkTest compiler passes family dir i).wrote w) ∧
        checkAll compiler passes family dir indices w = (.error e, v) ∧
        ∀ files, (∀ j ∈ done ++ [i], Files.AgreeAt (Family.sourcePath (nameOf family j) dir)
            (Family.inputPath (nameOf family j) dir) w.files files) →
          checkAll compiler passes family dir indices (w.withFiles files) =
            (.error e, v.withFiles files)) ∧
    ((¬ ∀ i ∈ indices, Integer.Writable i) →
      checkAll compiler passes family dir indices w = (.error .longInteger, w)) := by
  have hin : ∀ i ∈ indices, (checkTest compiler passes family dir i w).2.input = w.input := by
    intro i hi
    cases hp : w.files.present (Family.inputPath (nameOf family i) dir) with
    | false => exact hunread i hi hp
    | true => exact checkTest_input_of_present hpure hread hp
  refine ⟨fun value hok => ?_, ?_, fun hlong => ?_⟩
  · obtain ⟨found, hrun, hfound⟩ := checkAll_of_ok hpure hread hin hclock hok
    refine ⟨found, hrun, hfound, fun indices' hperm => ?_⟩
    obtain ⟨found', hrun', hfound'⟩ := checkAll_of_ok hpure hread
      (fun i hi => hin i (hperm.mem_iff.1 hi)) (hperm.length_eq ▸ hclock)
      fun i hi => hok i (hperm.mem_iff.1 hi)
    exact ⟨found', hrun', hfound.same_of_mem_iff hfound' fun i => hperm.mem_iff⟩
  · rintro done i rest e rfl hdone hi hwritable
    exact checkAll_of_error hpure hread hin hclock hdone hi hwritable
  · rw [checkAll, runFamily, Family.expand_ints_of_not_writable family hlong]
    exact Job.bind_of_error rfl

/-- The two passes that keep programs of the tiny language programs. -/
def rewritingPasses : List (Pass Routine) := Lint.routines.take 2

theorem pure_rewritingPasses : PurePasses rewritingPasses :=
  fun p hp => Lint.pure_routines p (List.mem_of_mem_take hp)

theorem reading_rewritingPasses : ReadingInterpreters rewritingPasses := by
  refine List.forall_mem_cons.2 ⟨?_, List.forall_mem_singleton.2 ?_⟩
  · rintro _ ⟨⟩ d; exact Lint.onInput_interpret d
  · rintro _ ⟨⟩ d; exact Lint.onInput_interpret d

/-- A test that reads its input file, a test without one, and standard input that neither needs. -/
def orderedWorld : World :=
  { World.start ⟨[(["t"], .dir), (["t", "f_2.rkt"], .file "(- 50 8)".toUTF8),
      (["t", "f_3.rkt"], .file "(+ (read) (read))".toUTF8),
      (["t", "f_3.in"], .file "30\n12\n".toUTF8)]⟩ with
    input := .ofText "1\n2\n".toList }

theorem checks_independent_of_order_repeated :
    PurePasses rewritingPasses ∧ ReadingInterpreters rewritingPasses ∧
    (∀ i ∈ [3, 2, 3], orderedWorld.files.present (Family.inputPath (nameOf "f" i) "t") = false →
      (checkTest "rc" rewritingPasses "f" "t" i orderedWorld).2.input = orderedWorld.input) ∧
    orderedWorld.clock.Shows ([3, 2, 3].length * rewritingPasses.length) ∧
    ∃ found found', (checkAll "rc" rewritingPasses "f" "t" [3, 2, 3] orderedWorld).1 = .ok found ∧
      (checkAll "rc" rewritingPasses "f" "t" [2, 3, 3] orderedWorld).1 = .ok found' ∧
      (Datum.dict found').same (.dict found) = true := by
  have hunread : ∀ i ∈ [3, 2, 3],
      orderedWorld.files.present (Family.inputPath (nameOf "f" i) "t") = false →
      (checkTest "rc" rewritingPasses "f" "t" i orderedWorld).2.input = orderedWorld.input := by
    decide +kernel
  have hclock : orderedWorld.clock.Shows ([3, 2, 3].length * rewritingPasses.length) := by
    refine ⟨?_, ?_, ?_, ?_, ?_, ?_, trivial⟩ <;> decide +kernel
  have hchecks : ∀ i ∈ [3, 2, 3], ∃ r,
      (checkTest "rc" rewritingPasses "f" "t" i orderedWorld).1 = .ok r := by
    have hok : ∀ i ∈ ([3, 2, 3] : List Int),
        (checkTest "rc" rewritingPasses "f" "t" i orderedWorld).1.isOk = true := by decide +kernel
    exact fun i hi => exists_of_isOk (hok i hi)
  choose! value hvalue using hchecks
  obtain ⟨found, hrun, -, hperm⟩ := (checks_independent_of_order "rc" "f" "t" pure_rewritingPasses
    reading_rewritingPasses hunread hclock).1 value hvalue
  obtain ⟨found', hrun', hsame⟩ := hperm [2, 3, 3] (by decide)
  exact ⟨pure_rewritingPasses, reading_rewritingPasses, hunread, hclock, found, found', hrun, hrun',
    hsame⟩

end Check

end PassCheck
