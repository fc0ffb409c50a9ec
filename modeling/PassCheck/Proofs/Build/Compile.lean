/-
Compiling with passes that only compute. What becomes of a source file depends on its content and on
the tracer, and the only file that changes is the assembly file. So tests of a family do not disturb
each other: a test is compiled in the same way before and after assembly files of others were
written.
-/
import PassCheck.Proofs.Build.EndToEnd
import PassCheck.Proofs.World.Output

namespace PassCheck

namespace Files

variable {fs fs' : Files} {p d here : Place} {names ns : List String} {path : String}
  {changed : Place → Prop}

theorem Rewritten.symm (h : Rewritten changed fs fs') : Rewritten changed fs' fs :=
  ⟨h.noDirs, h.dirs, fun q hq => (h.same q hq).symm⟩

theorem Rewritten.mono {changed' : Place → Prop} (h : Rewritten changed fs fs')
    (hsub : ∀ q, changed q → changed' q) : Rewritten changed' fs fs' :=
  ⟨h.dirs, h.noDirs, fun q hq => h.same q fun hc => hq (hsub q hc)⟩

theorem Rewritten.locate_iff (h : Rewritten changed fs fs') :
    fs.locate path = .ok p ↔ fs'.locate path = .ok p :=
  ⟨locate_of_hasDirs h.dirs, locate_of_hasDirs h.noDirs⟩

theorem Rewritten.isDir_eq (h : Rewritten changed fs fs') (path : String) :
    fs'.isDir path = fs.isDir path := by
  unfold isDir
  cases hl : fs.locate path with
  | ok p =>
    rw [h.locate_iff.1 hl, Bool.eq_iff_iff, beq_iff_eq, beq_iff_eq]
    exact ⟨h.noDirs p, h.dirs p⟩
  | error e =>
    cases hl' : fs'.locate path with
    | ok p => rw [h.locate_iff.2 hl'] at hl; cases hl
    | error e' => rfl

/-- What was not rewritten reads as before. -/
theorem Rewritten.read_eq (h : Rewritten changed fs fs') (hl : fs.locate path = .ok p)
    (hp : ¬ changed p) : fs'.read path = fs.read path :=
  read_congr hl (h.locate_iff.1 hl) (h.same p hp)

/-! ## Paths that lead nowhere -/

/-- A walk that gets somewhere goes on from there. -/
theorem walk_append_of_ok (h : fs.walk here ns = .ok d) :
    fs.walk here (ns ++ names) = fs.walk d names := by
  induction ns generalizing here with
  | nil => cases h; rfl
  | cons n ns ih =>
    obtain ⟨hdir, next, hnext, h⟩ := walk_cons.1 h
    rw [← ih h, List.cons_append, walk, hdir]
    unfold Leads at hnext
    simp only [Bool.or_eq_true, beq_iff_eq]
    split
    · rename_i hn; rw [if_pos hn] at hnext; rw [hnext]
    · rename_i hn
      rw [if_neg hn] at hnext
      split
      · rename_i hup; rw [if_pos hup] at hnext; rw [hnext]
      · rename_i hup
        rw [if_neg hup] at hnext
        rw [if_neg (Nat.not_lt.2 hnext.1), hnext.2]

theorem locate_ofList {cs : List Char} (hne : cs ≠ []) :
    fs.locate (String.ofList cs) =
      if askable cs = false then .error (.badValue none)
      else if pathLimit ≤ (String.ofList cs).utf8ByteSize then .error .system
      else fs.walk (start cs) ((Path.names cs).map String.ofList) := by
  have hempty : cs.isEmpty = false := by simpa using hne
  rw [locate]
  simp only [String.toList_ofList, hempty, Bool.not_eq_true', Bool.false_eq_true, if_false, start]

theorem walk_singleton_congr (h : fs.node? d = some .dir) (h' : fs'.node? d = some .dir)
    (name : String) : fs'.walk d [name] = fs.walk d [name] := by
  rw [walk, walk.eq_2 fs, h, h']
  rfl

/-- Where one path of a stem leads somewhere, its folder is there. Any other path of the stem then
ends in the same way in all files that have the same directories. -/
theorem locate_eq_of_folder {stem tail tail' : List Char} (ht : Path.IsTail tail)
    (ht' : Path.IsTail tail') (hd : HasDirs fs fs')
    (h : fs.locate (String.ofList (stem ++ tail)) = .ok p) :
    fs'.locate (String.ofList (stem ++ tail')) = fs.locate (String.ofList (stem ++ tail')) := by
  obtain ⟨ns, b, hnames⟩ := Path.exists_names_append stem
  obtain ⟨-, hwalk⟩ := (locate_eq_ok_iff (ht.append_ne_nil stem)).1 h
  rw [start_append ht.noSlash, hnames tail ht.noSlash, List.map_append, walk_append] at hwalk
  obtain ⟨d, hfolder, hlast⟩ := hwalk
  have hdir := (walk_cons.1 hlast).1
  rw [locate_ofList (ht'.append_ne_nil stem), locate_ofList (ht'.append_ne_nil stem),
    start_append ht'.noSlash, hnames tail' ht'.noSlash, List.map_append, walk_append_of_ok hfolder,
    walk_append_of_ok (walk_of_hasDirs hd hfolder), List.map_singleton,
    walk_singleton_congr hdir (hd d hdir)]

theorem walk_congr (h : ∀ q, fs'.node? q = fs.node? q) :
    fs'.walk here names = fs.walk here names := by
  induction names generalizing here with
  | nil => rfl
  | cons n names ih =>
    rw [walk, walk, h here]
    simp only [ih]

theorem Rewritten.locate_eq_of_nowhere (h : Rewritten changed fs fs') (hno : ∀ q, ¬ changed q)
    (path : String) : fs'.locate path = fs.locate path := by
  unfold locate
  simp only [walk_congr fun q => h.same q (hno q)]

theorem read_of_locate_error {e : Failure} (h : fs.locate path = .error e) :
    fs.read path = .error e := by
  rw [read, h]; rfl

/-- A file is written unless its path leads nowhere or a directory stands there. -/
theorem map_write (content : ByteArray) : (fs.write path content).map (fun _ => ()) =
    (do
      let p ← fs.locate path
      if fs.node? p = some .dir then Except.error .isDirectory else Except.ok ()) := by
  cases hl : fs.locate path with
  | error e => rw [write, hl]; rfl
  | ok p =>
    show _ = if fs.node? p = some .dir then Except.error Failure.isDirectory else Except.ok ()
    split
    · rename_i hd
      rw [write, hl]
      simp only [bind, Except.bind, hd]
      rfl
    · rename_i hd
      rw [write_of_locate content hl hd]; rfl

/-- Whether a file can be written depends on where its path leads and on the directories. -/
theorem Rewritten.map_write_eq (h : Rewritten changed fs fs')
    (hl : fs'.locate path = fs.locate path) (content : ByteArray) :
    (fs'.write path content).map (fun _ => ()) = (fs.write path content).map fun _ => () := by
  rw [map_write, map_write, hl]
  have hdir : ∀ p, (fs'.node? p = some .dir) = (fs.node? p = some .dir) := fun p =>
    propext ⟨h.noDirs p, h.dirs p⟩
  simp only [hdir]

end Files

/-- The world after a file was written at a place, and more to the output streams. -/
abbrev World.storing (w : World) (q : Place) (content : ByteArray) (out err : String) : World :=
  { w with files := w.files.put q (.file content), out := w.out ++ out, err := w.err ++ err }

namespace Build

open Job (OnlyPrints)

/-- Passes whose transforms only compute. -/
def PurePasses (passes : List (Pass Routine)) : Prop :=
  ∀ p ∈ passes, ∀ d, Job.Computes (p.transform [d])

variable {passes : List (Pass Routine)} {source : String} {tracer : Option Tracer} {w : World}

theorem PurePasses.onlyPrints_transformAll (h : PurePasses passes) (t : Tracer) (program : Datum) :
    OnlyPrints (transformAll t passes program) := by
  induction passes generalizing program with
  | nil => exact Job.onlyPrints_pure program
  | cons p ps ih =>
    obtain ⟨hp, hps⟩ := List.forall_mem_cons.1 h
    refine (hp program).onlyPrints.bind fun output => ?_
    exact (t.onlyPrints_trace _ output).bind fun _ => ih hps output

/-! ## One source file -/

/-- A world with the tracer of another one and the same content of a source file. -/
structure SameSource (source : String) (w v : World) : Prop where
  tracer : v.tracer = w.tracer
  read : v.files.read source = w.files.read source

/-- Writes the assembly of a source file and gives its path. -/
def storeAssembly (source text : String) : Job String := do
  Job.writeText (outputPath source) text
  return outputPath source

/-- Where no assembly is stored, nothing is changed. -/
theorem storeAssembly_of_error {r : Except Failure String} {e : Failure} {w : World}
    (h : ((Job.lift r >>= storeAssembly source) w).1 = .error e) :
    (Job.lift r >>= storeAssembly source) w = (.error e, w) := by
  cases r with
  | error e' => cases h; rfl
  | ok text =>
    rw [Job.bind_of_ok (Job.lift_apply _ w)] at h ⊢
    cases hwrite : w.files.write (outputPath source) text.toUTF8 with
    | error e' =>
      have hjob : Job.writeText (outputPath source) text w = (.error e', w) := by
        rw [Job.writeText, hwrite]
      rw [storeAssembly, Job.bind_of_error hjob] at h ⊢
      cases h; rfl
    | ok files =>
      have hjob : Job.writeText (outputPath source) text w = (.ok (), { w with files := files }) := by
        rw [Job.writeText, hwrite]
      rw [storeAssembly, Job.bind_of_ok hjob] at h
      cases h

/-- The text of the assembly file, if the last pass gave text. -/
def assemblyText (source : String) : Datum → Except Failure String
  | .str text => .ok (text ++ "\n")
  | value => .error (.report (.nonTextual (.str source) value))

theorem compileFile_of_compile {reader : Check.Reader} {program value : Datum} {w₁ w₂ : World}
    (hread : reader source w = (.ok program, w₁))
    (hcompile : compile passes program tracer w₁ = (.ok value, w₂)) :
    compileFile passes source reader tracer w =
      (Job.lift (assemblyText source value) >>= storeAssembly source) w₂ := by
  rw [compileFile, Job.bind_of_ok hread, Job.bind_of_ok hcompile]
  cases value with
  | str text => exact (Job.bind_of_ok (f := storeAssembly source) (Job.lift_apply _ _)).symm
  | _ => exact (Job.bind_of_error (Job.lift_apply _ _)).symm

/-- Compiling comes to a text to be written or to a failure; the content of the source file and the
tracer decide which. -/
theorem PurePasses.compileFile_eq (h : PurePasses passes) (source : String)
    (tracer : Option Tracer) (w : World) :
    ∃ (r : Except Failure String) (out err : String), ∀ v, SameSource source w v →
      compileFile passes source Check.readProgram tracer v =
        (Job.lift r >>= storeAssembly source) (v.saying out err) := by
  have hread : ∀ v, SameSource source w v → Check.readProgram source v =
      (w.files.read source >>= textOf >>= Check.programOf source, v) := by
    intro v hv
    rw [Check.readProgram_apply, hv.read]
  cases hprogram : w.files.read source >>= textOf >>= Check.programOf source with
  | error e =>
    rw [hprogram] at hread
    refine ⟨.error e, "", "", fun v hv => ?_⟩
    rw [compileFile, Job.bind_of_error (hread v hv), World.saying_empty]
    exact (Job.bind_of_error (Job.lift_apply _ v)).symm
  | ok program =>
    rw [hprogram] at hread
    obtain ⟨r, out, err, hprints⟩ :=
      h.onlyPrints_transformAll (tracer.getD w.tracer) program
    have hcompile : ∀ v, SameSource source w v → compile passes program tracer v =
        (r, v.saying out err) := by
      intro v hv
      rw [compile, Job.bind_of_ok (Tracer.choose_apply tracer v), hv.tracer]
      exact hprints v
    cases r with
    | error e =>
      refine ⟨.error e, out, err, fun v hv => ?_⟩
      rw [compileFile, Job.bind_of_ok (hread v hv), Job.bind_of_error (hcompile v hv)]
      exact (Job.bind_of_error (Job.lift_apply _ _)).symm
    | ok value =>
      exact ⟨assemblyText source value, out, err, fun v hv =>
        compileFile_of_compile (hread v hv) (hcompile v hv)⟩

/-- A source file can be compiled: in every world where it is the same, and no directory stands at
the place of the assembly, this content is written there. -/
structure Compiles (passes : List (Pass Routine)) (source : String) (tracer : Option Tracer)
    (w : World) (q : Place) (content : ByteArray) (out err : String) : Prop where
  place : w.files.locate (outputPath source) = .ok q
  free : w.files.node? q ≠ some .dir
  run : ∀ v, SameSource source w v → v.files.locate (outputPath source) = .ok q →
    v.files.node? q ≠ some .dir →
    compileFile passes source Check.readProgram tracer v =
      (.ok (outputPath source), v.storing q content out err)

theorem Compiles.eq {q : Place} {content : ByteArray} {out err : String}
    (h : Compiles passes source tracer w q content out err) :
    compileFile passes source Check.readProgram tracer w =
      (.ok (outputPath source), w.storing q content out err) :=
  h.run w ⟨rfl, rfl⟩ h.place h.free

/-- A source file can be compiled, or nothing is changed by the attempt. -/
theorem PurePasses.compileFile_cases (h : PurePasses passes) (source : String) (tracer : Option Tracer)
    (w : World) :
    (∃ q content out err, Compiles passes source tracer w q content out err) ∨
    ∃ e out err, compileFile passes source Check.readProgram tracer w =
      (.error e, w.saying out err) := by
  obtain ⟨r, out, err, heq⟩ := h.compileFile_eq source tracer w
  cases r with
  | error e => exact .inr ⟨e, out, err, heq w ⟨rfl, rfl⟩⟩
  | ok text =>
    have hwrite : ∀ v, SameSource source w v →
        compileFile passes source Check.readProgram tracer v =
          storeAssembly source text (v.saying out err) := by
      intro v hv
      rw [heq v hv, Job.bind_of_ok (Job.lift_apply _ _)]
    cases hw : w.files.write (outputPath source) text.toUTF8 with
    | error e =>
      refine .inr ⟨e, out, err, ?_⟩
      rw [hwrite w ⟨rfl, rfl⟩]
      exact Job.bind_of_error (by rw [Job.writeText, hw])
    | ok files =>
      obtain ⟨q, hl, hd, rfl⟩ := Files.write_eq_ok_iff.1 hw
      refine .inl ⟨q, text.toUTF8, out, err, hl, hd, fun v hv hlv hdv => ?_⟩
      rw [hwrite v hv]
      exact Job.bind_of_ok (by rw [Job.writeText, Files.write_of_locate _ hlv hdv])

theorem PurePasses.compiles_of_ok (h : PurePasses passes) {s : String}
    (hok : (compileFile passes source Check.readProgram tracer w).1 = .ok s) :
    ∃ q content out err, Compiles passes source tracer w q content out err := by
  rcases h.compileFile_cases source tracer w with hc | ⟨e, out, err, he⟩
  · exact hc
  · rw [he] at hok; cases hok

/-- What is compiled was read. -/
theorem exists_readProgram_of_ok {s : String}
    (hok : (compileFile passes source Check.readProgram tracer w).1 = .ok s) :
    ∃ program, (Check.readProgram source w).1 = .ok program := by
  rcases hr : Check.readProgram source w with ⟨e | program, w₁⟩
  · rw [compileFile, Job.bind_of_error hr] at hok; cases hok
  · exact ⟨program, rfl⟩

/-- What is done when a compilation succeeds: the source is read, the last pass gives a text, and this
is written with a line end. -/
theorem exists_of_compileFile_ok {reader : Check.Reader} {s : String} {w' : World}
    (h : compileFile passes source reader tracer w = (.ok s, w')) :
    ∃ program w₁ text w₂, reader source w = (.ok program, w₁) ∧
      compile passes program tracer w₁ = (.ok (.str text), w₂) ∧
      Job.writeText (outputPath source) (text ++ "\n") w₂ = (.ok (), w') ∧ s = outputPath source := by
  obtain ⟨program, w₁, hread, h⟩ := Job.exists_of_bind_ok h
  obtain ⟨value, w₂, hcompile, h⟩ := Job.exists_of_bind_ok h
  cases value with
  | str text =>
    obtain ⟨_, w₃, hwrite, h⟩ := Job.exists_of_bind_ok h
    have hs : outputPath source = s := Except.ok.inj (congrArg Prod.fst h)
    obtain rfl : w₃ = w' := congrArg Prod.snd h
    exact ⟨program, w₁, text, w₂, hread, hcompile, hwrite, hs.symm⟩
  | _ => cases h

end Build

/-- The passes of the compiler for the tiny language only compute. -/
theorem Lint.pure_routines : Build.PurePasses Lint.routines := by
  refine List.forall_mem_cons.2 ⟨fun d => Job.computes_lift (.ok (Lint.shrink d)), ?_⟩
  refine List.forall_mem_cons.2 ⟨fun d => Job.computes_lift (.ok (Lint.fold d)), ?_⟩
  refine List.forall_mem_singleton.2 fun d => ?_
  show Job.Computes (Lint.codegen d)
  unfold Lint.codegen
  split
  · exact (Job.computes_lift _).bind fun n => Job.computes_lift (.ok _)
  · exact (Job.computes_lift _).bind fun n => Job.computes_lift (.ok _)
  · exact (Job.computes_lift _).bind fun t => Job.computes_lift (.error _)

/-! ## Tests of a family -/

namespace Batch

open Family (nameOf filePath)
open Build (PurePasses Compiles SameSource compileFile)

variable {passes : List (Pass Routine)} {tracer : Option Tracer} {family dir : String}
  {i : Int} {is : List Int} {w v : World}

/-- The source of a test can be compiled. -/
def Compilable (passes : List (Pass Routine)) (tracer : Option Tracer) (family dir : String)
    (w : World) (i : Int) : Prop :=
  ∃ s, (compileFile passes (Family.sourcePath (nameOf family i) dir) Check.readProgram tracer w).1 =
    .ok s

theorem outputPath_nameOf (family dir : String) (i : Int) :
    Build.outputPath (Family.sourcePath (nameOf family i) dir) = filePath family dir i ".s" := by
  rw [Family.sourcePath_nameOf, Family.outputPath_filePath]

/-- Only assembly files of some tests were written, and the tracer is the same. -/
structure Beside (family dir : String) (is : List Int) (w v : World) : Prop where
  tracer : v.tracer = w.tracer
  files : Files.Rewritten (AssemblyPlace w.files family dir is) w.files v.files

theorem Beside.refl (w : World) : Beside family dir is w w := ⟨rfl, .refl _ _⟩

theorem Beside.symm (h : Beside family dir is w v) : Beside family dir is v w := by
  refine ⟨h.tracer.symm, h.files.symm.mono fun q hq => ?_⟩
  obtain ⟨j, hj, hloc⟩ := hq
  exact ⟨j, hj, h.files.locate_iff.1 hloc⟩

theorem Beside.mono {is' : List Int} (h : Beside family dir is w v) (hsub : ∀ j ∈ is, j ∈ is') :
    Beside family dir is' w v := by
  refine ⟨h.tracer, h.files.mono fun q hq => ?_⟩
  obtain ⟨j, hj, hloc⟩ := hq
  exact ⟨j, hsub j hj, hloc⟩

/-- A file of a test that is no assembly file reads as before. -/
theorem Beside.read_eq (h : Beside family dir is w v) {ending : String} {p : Place}
    (he : Path.IsTail ending.toList) (hne : ∀ j, Family.fileTail j ".s" ≠ Family.fileTail i ending)
    (hp : w.files.locate (filePath family dir i ending) = .ok p) :
    v.files.read (filePath family dir i ending) = w.files.read (filePath family dir i ending) := by
  refine h.files.read_eq hp ?_
  rintro ⟨j, -, hj⟩
  exact Family.place_ne Family.isTail_s he (hne j) hj hp rfl

theorem Compilable.exists_source (h : Compilable passes tracer family dir w i) :
    ∃ p, w.files.locate (filePath family dir i ".rkt") = .ok p := by
  obtain ⟨s, hs⟩ := h
  obtain ⟨program, hprogram⟩ := Build.exists_readProgram_of_ok hs
  obtain ⟨content, -, hread, -⟩ := Check.exists_of_readProgram hprogram
  rw [Family.sourcePath_nameOf] at hread
  obtain ⟨p, hp, -⟩ := Files.read_eq_ok_iff.1 hread
  exact ⟨p, hp⟩

theorem Compilable.sameSource (h : Compilable passes tracer family dir w i)
    (hv : Beside family dir is w v) :
    SameSource (Family.sourcePath (nameOf family i) dir) w v := by
  obtain ⟨p, hp⟩ := h.exists_source
  refine ⟨hv.tracer, ?_⟩
  rw [Family.sourcePath_nameOf]
  exact hv.read_eq Family.isTail_rkt (fun _ => Family.fileTail_s_ne_rkt) hp

/-- A test is compiled in the same way beside others, and only its own assembly file changes. -/
theorem Compilable.compiles (h : Compilable passes tracer family dir w i) (hpure : PurePasses passes) :
    ∃ q content out err,
      Compiles passes (Family.sourcePath (nameOf family i) dir) tracer w q content out err ∧
      Files.standing? q = none ∧
      ∀ is v, Beside family dir is w v → i ∈ is →
        compileFile passes (Family.sourcePath (nameOf family i) dir) Check.readProgram tracer v =
          (.ok (filePath family dir i ".s"), v.storing q content out err) ∧
        Beside family dir is w (v.storing q content out err) := by
  obtain ⟨s, hs⟩ := h
  obtain ⟨p, hp⟩ := Compilable.exists_source ⟨s, hs⟩
  obtain ⟨q, content, out, err, hc⟩ := hpure.compiles_of_ok hs
  have hq : w.files.locate (filePath family dir i ".s") = .ok q := by
    rw [← outputPath_nameOf]; exact hc.place
  have hstand : Files.standing? q = none := by
    obtain ⟨q', hq', hs'⟩ := Family.exists_locate_assembly hp
    cases hq.symm.trans hq'
    exact hs'
  refine ⟨q, content, out, err, hc, hstand, fun is v hv hi => ?_⟩
  have hfree : v.files.node? q ≠ some .dir := fun hd => hc.free (hv.files.noDirs q hd)
  have hrun := hc.run v (Compilable.sameSource ⟨s, hs⟩ hv) (hv.files.locate_iff.1 hc.place) hfree
  rw [outputPath_nameOf] at hrun
  exact ⟨hrun, hv.tracer, hv.files.put ⟨i, hi, hq⟩ hstand hfree content⟩

/-- Whether a test can be compiled does not depend on assembly files of others. -/
theorem compilable_iff (hpure : PurePasses passes) (hv : Beside family dir is w v) :
    Compilable passes tracer family dir v i ↔ Compilable passes tracer family dir w i := by
  have key : ∀ {w v : World}, Beside family dir is w v → Compilable passes tracer family dir w i →
      Compilable passes tracer family dir v i := by
    intro w v hv hw
    obtain ⟨q, content, out, err, -, -, hrun⟩ := hw.compiles hpure
    have hv' : Beside family dir (i :: is) w v := hv.mono fun j hj => List.mem_cons_of_mem i hj
    exact ⟨_, congrArg Prod.fst (hrun (i :: is) v hv' List.mem_cons_self).1⟩
  exact ⟨key hv.symm, key hv⟩

end Batch

end PassCheck
