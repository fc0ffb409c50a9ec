/-
Compiling a file does all or nothing. Whatever the passes do, as long as they touch no files, a
compilation that fails has changed none, and the ways it can fail are few (`Stops`). One that succeeds
has written the text of the last pass and a line end to the assembly file, and nothing else: the source
file is another one, unless its path ends like an assembly file.

Which file is written is a matter of paths. Source and assembly have the same directory part, so both
walks reach one directory, and from there only the last names decide.
-/
import PassCheck.Proofs.Build.Compile

namespace PassCheck

open PassCheck.Path (baseChars headChars splitExtension)

/-! ## The assembly stands beside the source -/

namespace Path

theorem slash_not_mem_baseChars (cs : List Char) : '/' ∉ baseChars cs := by
  intro h
  have := List.mem_takeWhile_imp (List.mem_reverse.1 h)
  simp at this

/-- What is left of a path without its extension is its directory part and the front of its name. -/
theorem exists_front (cs : List Char) :
    ∃ front, front <+: baseChars cs ∧ (splitExtension cs).1 = headChars cs ++ front := by
  unfold splitExtension
  dsimp only
  split
  · -- the name is its leading dots and a rest, and the rest is cut at its last dot
    refine ⟨_, ?_, List.append_assoc ..⟩
    have hrest : ∀ rest : List Char,
        ((rest.reverse.dropWhile (· != '.')).drop 1).reverse <+: rest := by
      intro rest
      rw [← List.reverse_suffix, List.reverse_reverse]
      exact (List.drop_suffix _ _).trans (List.dropWhile_suffix _)
    conv => rhs; rw [← List.takeWhile_append_dropWhile (p := (· == '.')) (l := baseChars cs)]
    exact (List.prefix_append_right_inj _).2 (hrest _)
  · exact ⟨baseChars cs, List.prefix_rfl, (headChars_append_baseChars cs).symm⟩

end Path

theorem Build.exists_outputPath (source : String) : ∃ front, '/' ∉ front ∧
    Build.outputPath source = String.ofList (headChars source.toList ++ (front ++ ".s".toList)) := by
  obtain ⟨front, hfront, heq⟩ := Path.exists_front source.toList
  refine ⟨front, fun h => Path.slash_not_mem_baseChars _ (hfront.subset h), ?_⟩
  rw [Build.outputPath, heq, List.append_assoc]
  rfl

namespace Files

variable {fs fs' : Files} {p q here : Place} {source : String}

theorem standing?_output (hq : fs.locate (Build.outputPath source) = .ok q) :
    standing? q = none := by
  obtain ⟨front, hfront, hout⟩ := Build.exists_outputPath source
  obtain ⟨ns, b, hnames⟩ := Path.exists_names_append (headChars source.toList)
  have htail : Path.IsTail (front ++ ".s".toList) := Path.isTail_append Family.isTail_s hfront
  rw [hout] at hq
  obtain ⟨d, -, hq⟩ := exists_leads_of_locate htail.noSlash (hnames _ htail.noSlash) hq
  obtain ⟨-, rfl⟩ := (leads_of_dotted (htail.dotted b)).1 hq
  exact standing?_of_dotted d (htail.dotted b)

/-- Source and assembly stand at different places, unless the path of the source ends in `.s`. -/
theorem place_ne_output (hp : fs.locate source = .ok p)
    (hq : fs.locate (Build.outputPath source) = .ok q) (hs : ¬ ".s".toList <:+ source.toList) :
    p ≠ q := by
  obtain ⟨front, hfront, hout⟩ := Build.exists_outputPath source
  obtain ⟨ns, b, hnames⟩ := Path.exists_names_append (headChars source.toList)
  have hbase := Path.slash_not_mem_baseChars source.toList
  have htail : Path.IsTail (front ++ ".s".toList) := Path.isTail_append Family.isTail_s hfront
  have hsource : source = String.ofList (headChars source.toList ++ baseChars source.toList) := by
    rw [Path.headChars_append_baseChars, String.ofList_toList]
  rw [hsource] at hp
  rw [hout] at hq
  obtain ⟨d, hd, hp⟩ := exists_leads_of_locate hbase (hnames _ hbase) hp
  obtain ⟨d', hd', hq⟩ := exists_leads_of_locate htail.noSlash (hnames _ htail.noSlash) hq
  cases hd.symm.trans hd'
  obtain ⟨-, rfl⟩ := (leads_of_dotted (htail.dotted b)).1 hq
  rintro rfl
  -- the name of the source would be the name of the assembly
  have hname := eq_of_leads (htail.dotted b) hp
  rw [String.ofList_inj, List.append_cancel_left_eq] at hname
  refine hs ⟨headChars source.toList ++ front, ?_⟩
  rw [List.append_assoc, ← hname, Path.headChars_append_baseChars]

end Files

/-! ## Jobs that touch no files -/

namespace Job

variable {α β : Type}

/-- A job leaves all files as they are, whether it fails or not. -/
def KeepsFiles (job : Job α) : Prop := ∀ w, (job w).2.files = w.files

theorem OnlyPrints.keepsFiles {job : Job α} (h : OnlyPrints job) : KeepsFiles job := by
  obtain ⟨r, out, err, h⟩ := h
  intro w
  rw [h w]

theorem KeepsFiles.bind {x : Job α} {f : α → Job β} (hx : KeepsFiles x)
    (hf : ∀ a, KeepsFiles (f a)) : KeepsFiles (x >>= f) := by
  intro w
  have hw := hx w
  rcases h : x w with ⟨e | a, w₁⟩ <;> rw [h] at hw
  · rw [bind_of_error h]; exact hw
  · rw [bind_of_ok h, hf a w₁]; exact hw

end Job

namespace Build

open Job (KeepsFiles)

/-- Passes whose transforms touch no files; they may do anything else. -/
def LeavesFiles (passes : List (Pass Routine)) : Prop :=
  ∀ p ∈ passes, ∀ d, KeepsFiles (p.transform [d])

variable {passes : List (Pass Routine)} {source : String} {tracer : Option Tracer} {w : World}
  {e : Failure}

theorem PurePasses.leavesFiles (h : PurePasses passes) : LeavesFiles passes :=
  fun p hp d => (h p hp d).onlyPrints.keepsFiles

theorem LeavesFiles.keepsFiles_transformAll (h : LeavesFiles passes) (t : Tracer) (program : Datum) :
    KeepsFiles (transformAll t passes program) := by
  induction passes generalizing program with
  | nil => exact fun _ => rfl
  | cons p ps ih =>
    obtain ⟨hp, hps⟩ := List.forall_mem_cons.1 h
    refine (hp program).bind fun output => ?_
    exact (t.onlyPrints_trace _ output).keepsFiles.bind fun _ => ih hps output

theorem LeavesFiles.keepsFiles_compile (h : LeavesFiles passes) (program : Datum) (tracer : Option Tracer) :
    KeepsFiles (compile passes program tracer) := by
  intro w
  rw [compile, Job.bind_of_ok (Tracer.choose_apply tracer w)]
  exact h.keepsFiles_transformAll _ program w

theorem LeavesFiles.exists_compile (h : LeavesFiles passes) {program : Datum} {r : Except Failure Datum}
    (hc : (compile passes program tracer w).1 = r) :
    ∃ w₁, compile passes program tracer w = (r, w₁) ∧ w₁.files = w.files :=
  ⟨_, Prod.ext hc rfl, h.keepsFiles_compile program tracer w⟩

/-! ## All or nothing -/

/-- Why compiling a file fails: the source cannot be read, a pass fails, the last one gives no text,
or the assembly file cannot be opened. -/
inductive Stops (passes : List (Pass Routine)) (source : String) (tracer : Option Tracer) (w : World) :
    Failure → Prop
  | unread {e : Failure} : (Check.readProgram source w).1 = .error e → Stops passes source tracer w e
  | pass {program : Datum} {e : Failure} : (Check.readProgram source w).1 = .ok program →
    (compile passes program tracer w).1 = .error e → Stops passes source tracer w e
  | nonTextual {program value : Datum} : (Check.readProgram source w).1 = .ok program →
    (compile passes program tracer w).1 = .ok value → (∀ text, value ≠ .str text) →
    Stops passes source tracer w (.report (.nonTextual (.str source) value))
  | unopened {program : Datum} {text : String} {e : Failure} :
    (Check.readProgram source w).1 = .ok program →
    (compile passes program tracer w).1 = .ok (.str text) →
    w.files.write (outputPath source) (text ++ "\n").toUTF8 = .error e →
    Stops passes source tracer w e

/-- A file is compiled: these are the files when this text has been written to its assembly file. -/
structure Stored (source text : String) (before after : Files) : Prop where
  content : after.read (outputPath source) = .ok (text ++ "\n").toUTF8
  others : ∃ q, before.locate (outputPath source) = .ok q ∧ ∀ p ≠ q, after.node? p = before.node? p
  source : ¬ ".s".toList <:+ source.toList → after.read source = before.read source

theorem stored_of_write {text : String} {p : Place} {after : Files}
    (hp : w.files.locate source = .ok p)
    (h : w.files.write (outputPath source) (text ++ "\n").toUTF8 = .ok after) :
    Stored source text w.files after := by
  obtain ⟨q, hq, hfree, rfl⟩ := Files.write_eq_ok_iff.1 h
  have hstand := Files.standing?_output hq
  have hr := (Files.Rewritten.refl (· = q) w.files).put rfl hstand hfree (text ++ "\n").toUTF8
  refine ⟨Files.read_put hq hstand hfree _, ⟨q, hq, fun p' hne => hr.same p' hne⟩, fun hs => ?_⟩
  exact hr.read_eq hp (Files.place_ne_output hp hq hs)

/-- Reading a source leads to a program or a failure and leaves the world as it is. -/
theorem readProgram_eq {r : Except Failure Datum} (h : (Check.readProgram source w).1 = r) :
    Check.readProgram source w = (r, w) := by
  have hread := Check.readProgram_apply source w
  rw [hread] at h ⊢
  exact congrArg (·, w) h

theorem assemblyText_of_not_str {value : Datum} (h : ∀ text, value ≠ .str text) :
    assemblyText source value = .error (.report (.nonTextual (.str source) value)) := by
  cases value with
  | str text => exact absurd rfl (h text)
  | _ => rfl

/-- Either there is a reason to stop, or there is a text that can be written. -/
theorem stops_or_writes (passes : List (Pass Routine)) (source : String) (tracer : Option Tracer)
    (w : World) :
    (∃ e, Stops passes source tracer w e) ∨
    ∃ program text files, (Check.readProgram source w).1 = .ok program ∧
      (compile passes program tracer w).1 = .ok (.str text) ∧
      w.files.write (outputPath source) (text ++ "\n").toUTF8 = .ok files := by
  cases hread : (Check.readProgram source w).1 with
  | error e => exact .inl ⟨e, .unread hread⟩
  | ok program =>
    cases hc : (compile passes program tracer w).1 with
    | error e => exact .inl ⟨e, .pass hread hc⟩
    | ok value =>
      by_cases hstr : ∃ text, value = .str text
      · obtain ⟨text, rfl⟩ := hstr
        cases hw : w.files.write (outputPath source) (text ++ "\n").toUTF8 with
        | error e => exact .inl ⟨e, .unopened hread hc hw⟩
        | ok files => exact .inr ⟨program, text, files, rfl, hc, hw⟩
      · exact .inl ⟨_, .nonTextual hread hc fun text ht => hstr ⟨text, ht⟩⟩

/-- With a reason to stop a compilation fails for that reason, and no file is changed. -/
theorem Stops.compileFile_eq (hs : Stops passes source tracer w e) (h : LeavesFiles passes) :
    ∃ w', compileFile passes source Check.readProgram tracer w = (.error e, w') ∧
      w'.files = w.files := by
  cases hs with
  | unread hread =>
    refine ⟨w, ?_, rfl⟩
    rw [compileFile, Job.bind_of_error (readProgram_eq hread)]
  | pass hread hc =>
    obtain ⟨w₁, hrun, hkept⟩ := h.exists_compile hc
    refine ⟨w₁, ?_, hkept⟩
    rw [compileFile, Job.bind_of_ok (readProgram_eq hread), Job.bind_of_error hrun]
  | nonTextual hread hc hno =>
    obtain ⟨w₁, hrun, hkept⟩ := h.exists_compile hc
    refine ⟨w₁, ?_, hkept⟩
    rw [compileFile_of_compile (readProgram_eq hread) hrun, assemblyText_of_not_str hno]
    exact Job.bind_of_error (Job.lift_apply _ w₁)
  | unopened hread hc hw =>
    obtain ⟨w₁, hrun, hkept⟩ := h.exists_compile hc
    refine ⟨w₁, ?_, hkept⟩
    rw [compileFile_of_compile (readProgram_eq hread) hrun, assemblyText,
      Job.bind_of_ok (Job.lift_apply _ w₁)]
    exact Job.bind_of_error (by rw [Job.writeText, hkept, hw])

/-- Without one the text is stored. -/
theorem LeavesFiles.compileFile_stores (h : LeavesFiles passes) {program : Datum} {text : String}
    {files : Files} (hread : (Check.readProgram source w).1 = .ok program)
    (hc : (compile passes program tracer w).1 = .ok (.str text))
    (hw : w.files.write (outputPath source) (text ++ "\n").toUTF8 = .ok files) :
    ∃ w', compileFile passes source Check.readProgram tracer w = (.ok (outputPath source), w') ∧
      Stored source text w.files w'.files := by
  obtain ⟨w₁, hrun, hkept⟩ := h.exists_compile hc
  obtain ⟨content, -, hcontent, -⟩ := Check.exists_of_readProgram hread
  obtain ⟨p, hp, -⟩ := Files.read_eq_ok_iff.1 hcontent
  refine ⟨{ w₁ with files := files }, ?_, stored_of_write hp hw⟩
  rw [compileFile_of_compile (readProgram_eq hread) hrun, assemblyText,
      Job.bind_of_ok (Job.lift_apply _ w₁)]
  exact Job.bind_of_ok (by rw [Job.writeText, hkept, hw])

/-- Compiling a file does all or nothing. It fails for the reasons of `Stops` and no others, and then
no file was created or changed. If it succeeds it gives the path of the assembly file, in which now
stand the text that the passes make of the program and one line end; every other place is as it was,
also the source, unless its path ends in `.s`. -/
theorem compileFile_all_or_nothing (h : LeavesFiles passes) (source : String)
    (tracer : Option Tracer) (w : World) :
    (∀ e, (compileFile passes source Check.readProgram tracer w).1 = .error e ↔
      Stops passes source tracer w e) ∧
    (∀ e, (compileFile passes source Check.readProgram tracer w).1 = .error e →
      (compileFile passes source Check.readProgram tracer w).2.files = w.files) ∧
    (∀ path, (compileFile passes source Check.readProgram tracer w).1 = .ok path →
      path = outputPath source ∧
      ∃ program text, (Check.readProgram source w).1 = .ok program ∧
        (compile passes program tracer w).1 = .ok (.str text) ∧
        Stored source text w.files
          (compileFile passes source Check.readProgram tracer w).2.files) := by
  rcases stops_or_writes passes source tracer w with ⟨e, hs⟩ | ⟨program, text, files, hread, hc, hw⟩
  · obtain ⟨w', hrun, hkept⟩ := hs.compileFile_eq h
    rw [hrun]
    refine ⟨fun e' => ⟨?_, fun hs' => ?_⟩, fun _ _ => hkept, nofun⟩
    · rintro ⟨⟩; exact hs
    · obtain ⟨w'', hrun', -⟩ := hs'.compileFile_eq h
      exact congrArg Prod.fst (hrun.symm.trans hrun')
  · obtain ⟨w', hrun, hstored⟩ := h.compileFile_stores hread hc hw
    rw [hrun]
    refine ⟨fun e => ⟨nofun, fun hs => ?_⟩, nofun, ?_⟩
    · obtain ⟨w'', hrun', -⟩ := hs.compileFile_eq h
      exact congrArg Prod.fst (hrun.symm.trans hrun')
    · rintro _ ⟨⟩
      exact ⟨rfl, program, text, hread, hc, hstored⟩

/-- Passes that write to the output while they compile. -/
def noisyPasses : List (Pass Routine) :=
  ⟨"say", (Recipe.print (.str "compiling")).routine, none⟩ :: Lint.routines

/-- Two sources without an extension in a directory with one; the second is never closed. -/
def noisyWorld : World :=
  .start ⟨[(["t.d"], .dir), (["t.d", "prog"], .file "(- 50 8)".toUTF8),
    (["t.d", "open"], .file "(- 50".toUTF8)]⟩

theorem compileFile_all_or_nothing_noisy :
    LeavesFiles noisyPasses ∧
    (compileFile noisyPasses "t.d/open" Check.readProgram none noisyWorld).2.files =
      noisyWorld.files ∧
    outputPath "t.d/prog" = "t.d/prog.s" ∧
    (∃ text, Stored "t.d/prog" text noisyWorld.files
      (compileFile noisyPasses "t.d/prog" Check.readProgram none noisyWorld).2.files) ∧
    ((compileFile noisyPasses "t.d/prog" Check.readProgram none noisyWorld).2.files.read
      "t.d/prog").toOption = some "(- 50 8)".toUTF8 := by
  have h : LeavesFiles noisyPasses :=
    List.forall_mem_cons.2 ⟨fun d => (Job.onlyPrints_print "compiling").keepsFiles.bind
      fun _ => (Job.onlyPrints_pure d).keepsFiles, Lint.pure_routines.leavesFiles⟩
  obtain ⟨-, hfails, -⟩ := compileFile_all_or_nothing h "t.d/open" none noisyWorld
  obtain ⟨-, -, hstores⟩ := compileFile_all_or_nothing h "t.d/prog" none noisyWorld
  have hopen : (compileFile noisyPasses "t.d/open" Check.readProgram none noisyWorld).1.isOk = false := by
    decide +kernel
  have hprog : (compileFile noisyPasses "t.d/prog" Check.readProgram none noisyWorld).1.isOk = true := by
    decide +kernel
  obtain ⟨path, hpath⟩ := exists_of_isOk hprog
  obtain ⟨-, program, text, -, -, hstored⟩ := hstores path hpath
  refine ⟨h, ?_, by decide +kernel, ⟨text, hstored⟩, ?_⟩
  · cases hrun : (compileFile noisyPasses "t.d/open" Check.readProgram none noisyWorld).1 with
    | error e => exact hfails e hrun
    | ok path => rw [hrun] at hopen; cases hopen
  · rw [hstored.source (by decide)]
    rfl

end Build

end PassCheck
