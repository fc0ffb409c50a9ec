/-
Passing on the simulated machine and passing the check. A test that passes on the machine was folded
to 42. If there is no boolean in its body, the check of the passes returns 42 as well. A boolean,
though, is an integer for folding and code generation while the evaluator rejects it, so a test with
one can pass on the machine and fail the check.

A test that passed is taken apart step by step (`exists_of_test_ok`), and the file it was run from
is traced back to the folded body (`foldExp_of_test_ok`).
-/
import PassCheck.Proofs.Build.Compile
import PassCheck.Proofs.Lint.Boolean
import PassCheck.Proofs.Lint.Check

namespace PassCheck

open Sexp (program)
open Datum (Every)

/-! ## What the machine can have run -/

namespace Lint

variable {body d : Datum} {text : String} {w w' : World} {tracer : Option Tracer}

/-- The text of a boolean. -/
def boolText (b : Bool) : String := if b then "True" else "False"

/-- Code is made of an integer that can be written, or of a boolean. -/
theorem exists_of_codegen_ok {info : Datum} (h : codegen (program info d) w = (.ok (.str text), w')) :
    (∃ n, d = .int n ∧ Integer.Writable n ∧ text = assembly (Integer.decimal n)) ∨
      ∃ b, d = .bool b ∧ text = assembly (boolText b) := by
  cases d with
  | int n =>
    by_cases hn : Integer.Writable n
    · rw [codegen_of_writable info hn] at h
      cases h
      exact .inl ⟨n, rfl, hn, rfl⟩
    · have hnone : (Datum.int n).display? = none := by
        rw [Datum.display?, Datum.literal?, Integer.text?, if_neg hn]
        intro s hs; cases hs
      rw [codegen_int, hnone] at h
      obtain ⟨_, _, h, -⟩ := Job.exists_of_bind_ok h
      cases h
  | bool b =>
    refine .inr ⟨b, rfl, ?_⟩
    rw [program, codegen] at h
    obtain ⟨t, _, ht, h⟩ := Job.exists_of_bind_ok h
    cases b <;> cases ht <;> cases h <;> rfl
  | _ =>
    obtain ⟨e, he⟩ := reject_apply (α := Datum) "error in codegen, not folded: " (program info _) w
    cases he.symm.trans h

/-- The text of a program that was compiled is code of its folded body. -/
theorem exists_codegen_of_compile
    (h : Build.compile routines (program (.tuple []) body) tracer w = (.ok (.str text), w')) :
    ∃ v v', codegen (program (.tuple []) (foldExp (shrinkExp body))) v = (.ok (.str text), v') := by
  rw [Build.compile, Job.bind_of_ok (Tracer.choose_apply tracer w)] at h
  obtain ⟨d₁, _, w₁, h₁, h⟩ := Check.exists_of_transformAll_ok h
  obtain rfl : shrink (program (.tuple []) body) = d₁ := Except.ok.inj (congrArg Prod.fst h₁)
  obtain ⟨d₂, _, w₂, h₂, h⟩ := Check.exists_of_transformAll_ok h
  obtain rfl : program (.tuple []) (foldExp (shrinkExp body)) = d₂ :=
    Except.ok.inj (congrArg Prod.fst h₂)
  obtain ⟨d₃, w₃, w₄, h₃, h⟩ := Check.exists_of_transformAll_ok h
  obtain rfl : d₃ = .str text := Except.ok.inj (congrArg Prod.fst h)
  exact ⟨w₂, w₃, h₃⟩

/-- The code of a boolean moves no number. -/
theorem exitCode_boolText (b : Bool) :
    Machine.exitCode (assembly (boolText b) ++ "\n").toList = .error .noAttribute := by
  have hnone : Machine.numeral? (assembly (boolText b) ++ "\n").toList = none := by
    cases b <;> decide +kernel
  rw [Machine.exitCode, hnone]

theorem decodeText?_assembly_boolText (b : Bool) :
    decodeText? (assembly (boolText b) ++ "\n").toUTF8 =
      some (assembly (boolText b) ++ "\n").toList := by
  refine decodeText?_toUTF8 ?_
  cases b <;> decide +kernel

end Lint

namespace Machine

variable {w w' : World}

theorem exists_of_link_ok {assembly executable : String} {runtime : Datum}
    (h : link assembly runtime w = (.ok executable, w')) :
    ∃ text, Job.readText assembly w = (.ok text, w) ∧ w' = { w with loaded := text } := by
  obtain ⟨text, w₁, hread, h⟩ := Job.exists_of_bind_ok (x := Job.readText assembly) h
  obtain rfl : w = w₁ := by
    rw [Job.readText_apply] at hread
    exact congrArg Prod.snd hread
  obtain ⟨_, w₂, hload, h⟩ := Job.exists_of_bind_ok h
  cases hload
  cases h
  exact ⟨text, hread, rfl⟩

theorem exists_of_run_ok {executable inputPath : String} {code : Datum}
    (h : run executable inputPath w = (.ok code, w')) :
    ∃ n, exitCode w.loaded = .ok n ∧ code = .int n ∧ w'.files = w.files ∧ w'.tracer = w.tracer := by
  obtain ⟨_, w₁, hnote, h⟩ := Job.exists_of_bind_ok h
  cases hnote
  obtain ⟨_, w₂, hget, h⟩ := Job.exists_of_bind_ok h
  cases hget
  obtain ⟨n, w₃, hlift, h⟩ := Job.exists_of_bind_ok h
  rw [Job.lift_apply] at hlift
  obtain ⟨hcode, rfl⟩ := Prod.mk.inj hlift
  cases h
  exact ⟨n, hcode, rfl, rfl, rfl⟩

end Machine

/-! ## A test that passed -/

namespace Batch

open Family (nameOf filePath)
open Lint (NotBool routines shrinkExp foldExp)

variable {compiler family dir : String} {runtime : Datum} {tracer : Option Tracer} {i : Int}
  {is : List Int} {w v v' : World}

/-- A test that passes was compiled, and the machine exits with code 42 on the text of its assembly
file. Compiling is the only thing that changes files. -/
theorem exists_of_test_ok {t : String}
    (h : test compiler routines (onMachine dir runtime tracer) t v = (.ok (), v')) :
    ∃ s v₁ text, Build.compileFile routines (Family.sourcePath t dir) Check.readProgram tracer v =
        (.ok s, v₁) ∧
      Job.readText s v₁ = (.ok text, v₁) ∧ Machine.exitCode text = .ok successCode ∧
      v'.files = v₁.files ∧ v'.tracer = v₁.tracer := by
  rw [test_onMachine] at h
  obtain ⟨s, v₁, hcompile, h⟩ := Job.exists_of_bind_ok h
  obtain ⟨exe, v₂, hlink, h⟩ := Job.exists_of_bind_ok h
  obtain ⟨code, v₃, hrun, h⟩ := Job.exists_of_bind_ok h
  obtain ⟨text, hread, rfl⟩ := Machine.exists_of_link_ok hlink
  have hmachine : Machine.run exe (Family.inputPath t dir) { v₁ with loaded := text } =
      (.ok code, v₃) := by
    rcases hm : Machine.run exe (Family.inputPath t dir) { v₁ with loaded := text } with ⟨e | c, v₄⟩
    · have hfail := runTest_of_error (o := onMachine dir runtime tracer) hm
      cases hfail.symm.trans hrun
    · exact (runTest_of_ok (o := onMachine dir runtime tracer) hm).symm.trans hrun
  obtain ⟨n, hcode, rfl, hfiles, htracer⟩ := Machine.exists_of_run_ok hmachine
  by_cases hn : n = successCode
  · subst hn
    rw [if_pos (Datum.same_int.2 rfl)] at h
    cases h
    exact ⟨s, v₁, text, hcompile, hread, hcode, hfiles, htracer⟩
  · rw [if_neg fun hs => hn (Datum.same_int.1 hs)] at h
    cases h

/-- A test that passes beside others was compiled like them, and still only assembly files differ. -/
theorem beside_of_test_ok (hv : Beside family dir is w v) (hi : i ∈ is)
    (h : test compiler routines (onMachine dir runtime tracer) (nameOf family i) v = (.ok (), v')) :
    Compilable routines tracer family dir w i ∧ Beside family dir is w v' := by
  obtain ⟨s, v₁, text, hcompile, -, -, hfiles, htracer⟩ := exists_of_test_ok h
  have hw : Compilable routines tracer family dir w i :=
    (compilable_iff Lint.pure_routines hv).1 ⟨s, congrArg Prod.fst hcompile⟩
  obtain ⟨q, content, out, err, -, -, hrun⟩ := hw.compiles Lint.pure_routines
  obtain ⟨hagain, hbeside⟩ := hrun is v hv hi
  cases hcompile.symm.trans hagain
  exact ⟨hw, htracer.trans hbeside.tracer, hfiles ▸ hbeside.files⟩

theorem beside_of_runAll_ok {done : List Int} {names : List String} (hdone : ∀ j ∈ done, j ∈ is)
    (hv : Beside family dir is w v)
    (h : runAll compiler routines (onMachine dir runtime tracer) (done.map (nameOf family)) v =
      (.ok names, v')) : Beside family dir is w v' := by
  induction done generalizing v names with
  | nil => cases h; exact hv
  | cons j done ih =>
    obtain ⟨hj, hdone⟩ := List.forall_mem_cons.1 hdone
    obtain ⟨_, v₁, htest, h⟩ := Job.exists_of_bind_ok h
    obtain ⟨more, v₂, hrest, h⟩ := Job.exists_of_bind_ok h
    cases h
    exact ih hdone (beside_of_test_ok hv hj htest).2 hrest

/-- A source file that was compiled holds a program, and what is written reads back. -/
theorem read_assembly_of_compileFile_ok {s : String} {v₁ : World}
    (h : Build.compileFile routines (Family.sourcePath (nameOf family i) dir) Check.readProgram tracer
      v = (.ok s, v₁)) :
    ∃ body text, (Check.readProgram (Family.sourcePath (nameOf family i) dir) v).1 =
        .ok (program (.tuple []) body) ∧
      (∃ u, Build.compile routines (program (.tuple []) body) tracer v = (.ok (.str text), u)) ∧
      v₁.files.read s = .ok (text ++ "\n").toUTF8 := by
  have hc : Compilable routines tracer family dir v i := ⟨s, congrArg Prod.fst h⟩
  obtain ⟨p, u, text, u', hprogram, hcompiled, hwrite, rfl⟩ := Build.exists_of_compileFile_ok h
  have hprogram₁ : (Check.readProgram (Family.sourcePath (nameOf family i) dir) v).1 = .ok p :=
    congrArg Prod.fst hprogram
  obtain ⟨body, rfl, -⟩ := Check.exists_body_of_readProgram hprogram₁
  obtain rfl : v = u := by
    rw [Check.readProgram_apply] at hprogram
    exact congrArg Prod.snd hprogram
  refine ⟨body, text, hprogram₁, ⟨u', hcompiled⟩, ?_⟩
  -- compiling only prints, so the place of the assembly is the one next to the source
  have hfiles : u'.files = v.files := by
    obtain ⟨r, out, err, hprints⟩ := Lint.pure_routines.onlyPrints_transformAll
      (tracer.getD v.tracer) (program (.tuple []) body)
    rw [Build.compile, Job.bind_of_ok (Tracer.choose_apply tracer v), hprints v] at hcompiled
    exact (congrArg (fun r => r.2.files) hcompiled).symm
  obtain ⟨p, hp⟩ := hc.exists_source
  obtain ⟨q, hq, hstand⟩ := Family.exists_locate_assembly hp
  rw [← outputPath_nameOf] at hq
  rw [Job.writeText, hfiles] at hwrite
  cases hput : v.files.write (Build.outputPath (Family.sourcePath (nameOf family i) dir))
      (text ++ "\n").toUTF8 with
  | error e => rw [hput] at hwrite; cases hwrite
  | ok files =>
    rw [hput] at hwrite
    cases hwrite
    obtain ⟨q', hq', hdir, rfl⟩ := Files.write_eq_ok_iff.1 hput
    cases hq.symm.trans hq'
    exact Files.read_put hq hstand hdir _

theorem eq_of_readText_ok {path text : String} {cs : List Char}
    (hdecode : decodeText? text.toUTF8 = some text.toList)
    (hfile : v.files.read path = .ok text.toUTF8) (h : Job.readText path v = (.ok cs, v')) :
    cs = text.toList := by
  have htext : Job.readText path v = (textOf text.toUTF8, v) := by rw [Job.readText_apply, hfile]; rfl
  rw [htext, textOf, hdecode] at h
  cases h
  rfl

/-- The body of a test that passes folds to 42. -/
theorem foldExp_of_test_ok
    (h : test compiler routines (onMachine dir runtime tracer) (nameOf family i) v = (.ok (), v')) :
    ∃ body, (Check.readProgram (Family.sourcePath (nameOf family i) dir) v).1 =
        .ok (program (.tuple []) body) ∧
      foldExp (shrinkExp body) = .int successCode := by
  obtain ⟨s, v₁, loaded, hcompile, hread, hcode, -, -⟩ := exists_of_test_ok h
  obtain ⟨body, text, hprogram, ⟨u, hcompiled⟩, hfile⟩ := read_assembly_of_compileFile_ok hcompile
  refine ⟨body, hprogram, ?_⟩
  obtain ⟨_, _, hgen⟩ := Lint.exists_codegen_of_compile hcompiled
  rcases Lint.exists_of_codegen_ok hgen with ⟨n, hn, hwritable, rfl⟩ | ⟨b, hb, rfl⟩
  · obtain rfl := eq_of_readText_ok (decodeText?_assemblyFile n) hfile hread
    rw [assemblyFile, Machine.exitCode_assembly hwritable] at hcode
    rw [hn, Except.ok.inj hcode]
  · obtain rfl := eq_of_readText_ok (Lint.decodeText?_assembly_boolText b) hfile hread
    rw [Lint.exitCode_boolText] at hcode
    cases hcode

/-! ## The check of a test that passed -/

/-- An interpreter that does the same in all worlds does so on the input file. -/
theorem runInterpreter_of_constant {path : String} {interp : Routine} {d : Datum}
    {r : Except Failure Datum} (hin : v.files.isDir path = false) (h : ∀ u, interp [d] u = (r, u)) :
    Check.runInterpreter interp d (some path) v = (r, v) := by
  cases hpresent : v.files.present path with
  | false => rw [Check.runInterpreter_of_absent _ _ hpresent, h v]
  | true =>
    obtain ⟨content, hc⟩ := Files.exists_read hin hpresent
    rw [Check.runInterpreter_of_holds _ _ hc, Job.withInput, h]

/-- A check of a program whose shrunk body is rejected fails at the first pass. -/
theorem check_of_rejected {t : String} {body : Datum} (compiler : String) (tracer : Option Tracer)
    (hread : Check.readProgram (Family.sourcePath t dir) v = (.ok (program (.tuple []) body), v))
    (hbody : body.Writable) (hrejected : Lint.Rejected (shrinkExp body))
    (hin : v.files.isDir (Family.inputPath t dir) = false)
    (hclock : v.clock.Shows routines.length) :
    ∃ b, (Check.run compiler routines t { Check.Options.plain with testsDir := dir, tracer := tracer }
      v).1 = .error (Lint.unexpectedBool b) := by
  obtain ⟨b, hb⟩ := hrejected
  have hinterpret : ∀ u, Recipe.interpret.routine [program (.tuple []) (shrinkExp body)] u =
      (.error (Lint.unexpectedBool b), u) := fun u => Job.bind_of_error (hb u)
  have hinitial : ∀ r : Datum, none = some r → r.Writable := nofun
  obtain ⟨v₁, hv₁, hrun⟩ := Check.run_eq_chain compiler
    (o := { Check.Options.plain with testsDir := dir, tracer := tracer }) hread nofun .none
    (fun _ => Lint.writable_program hbody) (fun _ => hinitial) hclock
  have hready : v₁.Ready v.files (2 + Check.readings false) := hv₁
  have hshrink : Check.Gives v.files (Lint.shrinkPass.transform [program (.tuple []) body])
      (program (.tuple []) (shrinkExp body)) := fun _ _ => rfl
  obtain ⟨v₂, hv₂, hchain⟩ := Check.chain_of_error compiler (tracer.getD v.tracer) hshrink rfl
    (fun _ => Lint.writable_program (Lint.writable_shrinkExp hbody)) hready
  have hfails := hchain _ v₂ (routines.drop 1) none
    (runInterpreter_of_constant (by rw [hv₂]; exact hin) hinterpret)
  refine ⟨b, ?_⟩
  rw [hrun routines]
  exact congrArg Prod.fst (Job.bind_of_error hfails)

/-- A check of a constant expression finds its value. -/
theorem check_of_returns {body : Datum} {n : Int} (compiler : String) (tracer : Option Tracer)
    (hread : (Check.readProgram (Family.sourcePath (nameOf family i) dir) v).1 =
      .ok (program (.tuple []) body))
    (hbool : Every NotBool body) (hreturns : Lint.Returns body n) (hn : Integer.Writable n)
    (hout : v.files.isDir (Build.outputPath (Family.sourcePath (nameOf family i) dir)) = false)
    (hin : v.files.isDir (Family.inputPath (nameOf family i) dir) = false)
    (hclock : v.clock.Shows routines.length) :
    (Check.run compiler routines (nameOf family i)
      { Check.Options.plain with testsDir := dir, tracer := tracer } v).1 = .ok (.int n) := by
  have hsource : Sources family dir [i] (fun _ => body) v :=
    { reads := List.forall_mem_singleton.2 hread
      noBool := List.forall_mem_singleton.2 hbool
      noAssemblyDir := List.forall_mem_singleton.2 hout
      noInputDir := List.forall_mem_singleton.2 hin }
  exact hsource.check_run compiler tracer List.mem_cons_self hclock hreturns hn

/-- A source that can be compiled is read in the same way where only assembly files differ. -/
theorem Compilable.readProgram_eq {u : World} (h : Compilable routines tracer family dir w i)
    (hu : Files.Rewritten (AssemblyPlace w.files family dir is) w.files u.files) :
    Check.readProgram (Family.sourcePath (nameOf family i) dir) u =
      ((Check.readProgram (Family.sourcePath (nameOf family i) dir) w).1, u) := by
  have hbeside : Beside family dir is w { u with tracer := w.tracer } := ⟨rfl, hu⟩
  have hread : u.files.read (Family.sourcePath (nameOf family i) dir) =
      w.files.read (Family.sourcePath (nameOf family i) dir) := (h.sameSource hbeside).read
  rw [Check.readProgram_apply, Check.readProgram_apply, hread]

theorem Compilable.output_not_dir (h : Compilable routines tracer family dir w i) :
    w.files.isDir (Build.outputPath (Family.sourcePath (nameOf family i) dir)) = false := by
  obtain ⟨q, content, out, err, hcompiles, -, -⟩ := h.compiles Lint.pure_routines
  rw [Files.isDir, hcompiles.place]
  exact beq_false_of_ne hcompiles.free

/-- A test that passes on the machine checks to 42 if there is no boolean in its body; otherwise the
check rejects the boolean that it meets first. The test may come after others, and the check may be
made before the batch or after the test. -/
theorem passed_test_checks_unless_bool {done : List Int} {names : List String} {w₁ w₂ : World}
    (checkCompiler : String) (checkTracer : Option Tracer)
    (hdone : runAll compiler routines (onMachine dir runtime tracer) (done.map (nameOf family)) w =
      (.ok names, w₁))
    (htest : test compiler routines (onMachine dir runtime tracer) (nameOf family i) w₁ = (.ok (), w₂))
    (hin : w.files.isDir (Family.inputPath (nameOf family i) dir) = false)
    (hv : v.files = w.files ∨ v.files = w₂.files) (hclock : v.clock.Shows routines.length) :
    ∃ body, (Check.readProgram (Family.sourcePath (nameOf family i) dir) w).1 =
        .ok (program (.tuple []) body) ∧
      (Every NotBool body → (Check.run checkCompiler routines (nameOf family i)
        { Check.Options.plain with testsDir := dir, tracer := checkTracer } v).1 = .ok (.int 42)) ∧
      (¬ Every NotBool body → ∃ b, (Check.run checkCompiler routines (nameOf family i)
        { Check.Options.plain with testsDir := dir, tracer := checkTracer } v).1 =
          .error (Lint.unexpectedBool b)) := by
  have hbefore : Beside family dir (i :: done) w w₁ :=
    beside_of_runAll_ok (fun j hj => List.mem_cons_of_mem i hj) (Beside.refl w) hdone
  obtain ⟨hcompilable, hafter⟩ := beside_of_test_ok hbefore List.mem_cons_self htest
  obtain ⟨body, hbody, hfold⟩ := foldExp_of_test_ok htest
  -- the source and the directories are the same in all worlds of the statement
  have hsame : Files.Rewritten (AssemblyPlace w.files family dir (i :: done)) w.files v.files := by
    rcases hv with hv | hv
    · rw [hv]; exact .refl _ _
    · rw [hv]; exact hafter.files
  have hdir : ∀ path, w.files.isDir path = false → v.files.isDir path = false := by
    intro path hpath
    rw [hsame.isDir_eq]; exact hpath
  rw [hcompilable.readProgram_eq hbefore.files] at hbody
  have hread : Check.readProgram (Family.sourcePath (nameOf family i) dir) v =
      (.ok (program (.tuple []) body), v) := by
    rw [hcompilable.readProgram_eq hsame, hbody]
  refine ⟨body, hbody, fun hbool => ?_, fun hbool => ?_⟩
  · -- without booleans the body is a constant expression, and its value is what it folds to
    have hconst : Lint.Constant body := Lint.constant_of_toInt? hbool (by rw [hfold]; rfl)
    obtain ⟨n, heval, -, hn⟩ := hconst.exists_value
    obtain rfl : n = successCode := Datum.int.inj (hn.symm.trans hfold)
    exact check_of_returns checkCompiler checkTracer (congrArg Prod.fst hread) hbool
      ⟨hconst, heval⟩ (by decide +kernel) (hdir _ hcompilable.output_not_dir) (hdir _ hin) hclock
  · -- folding went through the boolean, evaluation stops at it
    have hloose : Lint.Loose body := Lint.loose_of_toInt? (v := successCode) (by rw [hfold]; rfl)
    obtain ⟨_, hprogram, hwritable⟩ := Check.exists_body_of_readProgram hbody
    cases hprogram
    rcases hloose.valued_or_rejected with ⟨-, hnone⟩ | ⟨hrejected, -⟩
    · exact absurd hnone hbool
    · exact check_of_rejected checkCompiler checkTracer hread hwritable hrejected (hdir _ hin) hclock

/-- Two sources of value 42, one of them with a boolean. -/
def boolWorld : World :=
  .start ⟨[(["tests"], .dir), (["tests", "f_1.rkt"], .file "(+ #t 41)".toUTF8),
    (["tests", "f_2.rkt"], .file "(- 50 8)".toUTF8)]⟩

/-- The options of the machine on these sources. -/
def boolOptions : Options := onMachine "tests" (.str "runtime.o") none

theorem passed_test_checks_unless_bool_sum :
    ∃ w₁ w₂, runAll "rc" routines boolOptions ([2].map (nameOf "f")) boolWorld = (.ok ["f_2"], w₁) ∧
      test "rc" routines boolOptions (nameOf "f" 1) w₁ = (.ok (), w₂) ∧
      boolWorld.files.isDir (Family.inputPath (nameOf "f" 1) "tests") = false ∧
      boolWorld.clock.Shows routines.length ∧
      ∃ b, (Check.run "rc" routines (nameOf "f" 1) Check.Options.plain boolWorld).1 =
        .error (Lint.unexpectedBool b) := by
  have hruns : (runAll "rc" routines boolOptions ([2].map (nameOf "f")) boolWorld).1.toOption =
        some ["f_2"] ∧
      (test "rc" routines boolOptions (nameOf "f" 1)
        (runAll "rc" routines boolOptions ([2].map (nameOf "f")) boolWorld).2).1.isOk = true := by
    decide +kernel
  rcases hdone : runAll "rc" routines boolOptions ([2].map (nameOf "f")) boolWorld with ⟨e | names, w₁⟩
  · rw [hdone] at hruns
    cases hruns.1
  rw [hdone] at hruns
  obtain rfl : names = ["f_2"] := Option.some.inj hruns.1
  rcases htest : test "rc" routines boolOptions (nameOf "f" 1) w₁ with ⟨e | _, w₂⟩
  · rw [htest] at hruns
    cases hruns.2
  have hin : boolWorld.files.isDir (Family.inputPath (nameOf "f" 1) "tests") = false := by
    decide +kernel
  have hclock : boolWorld.clock.Shows routines.length := by
    refine ⟨?_, ?_, ?_, trivial⟩ <;> decide +kernel
  obtain ⟨body, hbody, -, hbool⟩ := passed_test_checks_unless_bool "rc" none hdone htest hin
    (.inl rfl) hclock
  refine ⟨w₁, w₂, rfl, htest, hin, hclock, hbool ?_⟩
  have hsum : (Check.readProgram (Family.sourcePath (nameOf "f" 1) "tests") boolWorld).1 =
      .ok (program (.tuple []) (.tuple [.str "+", .bool true, .int 41])) :=
    Check.readProgram_of_tokens "(+ #t 41)"
      [.opening .round, .atom ['+'], .atom ['#', 't'], .atom ['4', '1'], .closing .round] rfl
      (by decide) (by decide +kernel) rfl
  cases hbody.symm.trans hsum
  decide +kernel

/-- A test that passes on the machine and fails the check. -/
theorem passed_test_fails_check :
    (runFamily "rc" routines "f" (.list [.int 1]) boolOptions boolWorld).1.toOption = some ["f_1"] ∧
    (Check.run "rc" routines "f_1" Check.Options.plain boolWorld).1 =
      .error (.plain "error in interp_exp, unexpected: True") := by
  refine ⟨by decide +kernel, ?_⟩
  have hmessage : plainMessage? (Check.run "rc" routines "f_1" Check.Options.plain boolWorld).1 =
      some "error in interp_exp, unexpected: True" := by decide +kernel
  exact eq_of_plainMessage? hmessage

end Batch

end PassCheck
