/-
The files of the tests of a family. Source, assembly and input file of all tests of a family have
one stem and differ in their tails only, so they stand in one folder: where the source of a test can
be read its assembly can be written, and no assembly file is the source, or the assembly, of another
test.
-/
import PassCheck.Build.Compile
import PassCheck.Proofs.Number.Decimal
import PassCheck.Proofs.World.Files
import Mathlib.Data.List.TakeWhile

namespace PassCheck

open PassCheck.Path (IsTail joinChars baseChars headChars splitExtension)

/-! ## Extensions -/

namespace Path

theorem joinChars_append {name : List Char} (hne : name ≠ []) (dir tail : List Char) :
    joinChars dir (name ++ tail) = joinChars dir name ++ tail := by
  have hhead : (name ++ tail).head? = name.head? := by
    cases name with
    | nil => exact absurd rfl hne
    | cons c cs => rfl
  unfold joinChars
  rw [hhead]
  split
  · rfl
  · split <;> simp

theorem headChars_append_baseChars (cs : List Char) : headChars cs ++ baseChars cs = cs := by
  rw [headChars, baseChars, ← List.reverse_append, List.takeWhile_append_dropWhile,
    List.reverse_reverse]

theorem baseChars_append {tail : List Char} (h : '/' ∉ tail) (cs : List Char) :
    baseChars (cs ++ tail) = baseChars cs ++ tail ∧ headChars (cs ++ tail) = headChars cs := by
  have hall : ∀ c ∈ tail.reverse, (c != '/') = true := by
    intro c hc
    rw [bne_iff_ne]
    rintro rfl
    exact h (List.mem_reverse.1 hc)
  rw [baseChars, headChars, List.reverse_append, List.takeWhile_append_of_pos hall,
    List.dropWhile_append_of_pos hall, List.reverse_append, List.reverse_reverse]
  exact ⟨rfl, rfl⟩

/-- An extension that follows another character than a dot or a slash is split off. -/
theorem splitExtension_append (cs : List Char) {ending : List Char} {c : Char}
    (hc : c ≠ '.' ∧ c ≠ '/') (hending : '.' ∉ ending ∧ '/' ∉ ending) :
    (splitExtension (cs ++ [c] ++ '.' :: ending)).1 = cs ++ [c] := by
  have hslash : '/' ∉ '.' :: ending := by
    rw [List.mem_cons, not_or]; exact ⟨by decide, hending.2⟩
  obtain ⟨hbase, hhead⟩ := baseChars_append hslash (cs ++ [c])
  have hmem : c ∈ baseChars (cs ++ [c]) := by
    rw [(baseChars_append (by simpa using hc.2.symm) cs).1]; simp
  -- the name without its dots in front is not empty, for it ends in `c`
  have hrest : (baseChars (cs ++ [c])).dropWhile (· == '.') ≠ [] := by
    intro h
    rw [List.dropWhile_eq_nil_iff] at h
    exact hc.1 (by simpa using h c hmem)
  have hdots : (baseChars (cs ++ [c]) ++ '.' :: ending).takeWhile (· == '.') =
      (baseChars (cs ++ [c])).takeWhile (· == '.') := by
    have hlen := congrArg List.length
      (List.takeWhile_append_dropWhile (p := (· == '.')) (l := baseChars (cs ++ [c])))
    have hpos := List.length_pos_iff.2 hrest
    rw [List.length_append] at hlen
    rw [List.takeWhile_append, if_neg (by omega)]
  have hdrop : (baseChars (cs ++ [c]) ++ '.' :: ending).dropWhile (· == '.') =
      (baseChars (cs ++ [c])).dropWhile (· == '.') ++ '.' :: ending := by
    rw [List.dropWhile_append, List.isEmpty_eq_false_iff.2 hrest]; rfl
  have hstem : ∀ r : List Char,
      (((r ++ '.' :: ending).reverse.dropWhile (· != '.')).drop 1).reverse = r := by
    intro r
    have hall : ∀ x ∈ ending.reverse, (x != '.') = true := by
      intro x hx
      rw [bne_iff_ne]
      rintro rfl
      exact hending.1 (List.mem_reverse.1 hx)
    rw [List.reverse_append, List.reverse_cons, List.append_assoc, List.dropWhile_append_of_pos hall]
    simp
  unfold splitExtension
  simp only [hbase, hhead, hdots, hdrop, hstem]
  rw [if_pos (by simp)]
  simp only []
  rw [List.append_assoc, List.takeWhile_append_dropWhile, headChars_append_baseChars]

theorem isTail_append {ending cs : List Char} (h : IsTail ending) (hcs : '/' ∉ cs) : IsTail (cs ++ ending) := by
  obtain ⟨c, hc, hne⟩ := h.other
  refine ⟨?_, List.mem_append_right cs h.dot, c, List.mem_append_right cs hc, hne⟩
  rw [List.mem_append, not_or]
  exact ⟨hcs, h.noSlash⟩

end Path

/-! ## Paths of a test -/

namespace Family

/-- The name of a test. -/
def nameOf (family : String) (i : Int) : String := family ++ "_" ++ Integer.decimal i

/-- What the paths of all tests of a family start with. -/
def stem (family dir : String) : List Char := joinChars dir.toList (family ++ "_").toList

/-- What the path of a test's file ends with. -/
def fileTail (i : Int) (ending : String) : List Char := (Integer.decimal i).toList ++ ending.toList

/-- The path of a test's file with an extension. -/
def filePath (family dir : String) (i : Int) (ending : String) : String :=
  String.ofList (stem family dir ++ fileTail i ending)

variable {family dir : String} {i j : Int}

theorem testName_int (family : String) (h : Integer.Writable i) :
    testName family (.int i) = some (nameOf family i) := by
  rw [testName, Datum.display?, Datum.literal?, Integer.text?, if_pos h]
  · rfl
  · exact nofun

/-- The names of the tests of integers that can be written. -/
theorem expand_ints (family : String) {indices : List Int} (h : ∀ i ∈ indices, Integer.Writable i) :
    expand family (.list (indices.map .int)) = .ok (indices.map (nameOf family)) := by
  show testNames family (indices.map .int) = _
  induction indices with
  | nil => rfl
  | cons i is ih =>
    obtain ⟨hi, his⟩ := List.forall_mem_cons.1 h
    rw [List.map_cons, testNames, testName_int family hi, ih his]; rfl

/-- An integer that cannot be written has no name. -/
theorem expand_ints_of_not_writable (family : String) {indices : List Int}
    (h : ¬ ∀ i ∈ indices, Integer.Writable i) :
    expand family (.list (indices.map .int)) = .error .longInteger := by
  show testNames family (indices.map .int) = _
  induction indices with
  | nil => exact absurd nofun h
  | cons i is ih =>
    rw [List.map_cons, testNames]
    by_cases hi : Integer.Writable i
    · rw [testName_int family hi, ih fun his => h (List.forall_mem_cons.2 ⟨hi, his⟩)]; rfl
    · have hname : testName family (.int i) = none := by
        rw [testName, Datum.display?, Datum.literal?, Integer.text?, if_neg hi]
        · rfl
        · exact nofun
      rw [hname]; rfl

theorem join_nameOf (family dir : String) (i : Int) (ending : String) :
    Path.join dir (nameOf family i ++ ending) = filePath family dir i ending := by
  have h : (family ++ "_").toList ≠ [] := by simp
  rw [Path.join, nameOf, String.toList_append, String.toList_append, List.append_assoc,
    Path.joinChars_append h]
  rfl

theorem sourcePath_nameOf (family dir : String) (i : Int) :
    sourcePath (nameOf family i) dir = filePath family dir i ".rkt" := join_nameOf ..

theorem slash_not_mem_decimal (i : Int) : '/' ∉ (Integer.decimal i).toList := by
  intro h
  rw [Integer.toList_decimal, List.mem_append] at h
  rcases h with h | h
  · split at h
    · simp at h
    · cases h
  · exact absurd (Integer.isDigit_of_mem_toDigits h) (by decide)

theorem exists_last_decimal (i : Int) :
    ∃ front c, (Integer.decimal i).toList = front ++ [c] ∧ c.isDigit = true := by
  have hne : Nat.toDigits 10 i.natAbs ≠ [] := Nat.toDigits_ne_nil
  refine ⟨(if i < 0 then ['-'] else []) ++ (Nat.toDigits 10 i.natAbs).dropLast,
    (Nat.toDigits 10 i.natAbs).getLast hne, ?_,
    Integer.isDigit_of_mem_toDigits (List.getLast_mem hne)⟩
  rw [Integer.toList_decimal, List.append_assoc, List.dropLast_append_getLast hne]

/-- The assembly of a test stands beside its source. -/
theorem outputPath_filePath (family dir : String) (i : Int) :
    Build.outputPath (filePath family dir i ".rkt") = filePath family dir i ".s" := by
  obtain ⟨front, c, hdec, hc⟩ := exists_last_decimal i
  have hc' : c ≠ '.' ∧ c ≠ '/' := by
    constructor <;> rintro rfl <;> exact absurd hc (by decide)
  have hending : '.' ∉ ['r', 'k', 't'] ∧ '/' ∉ ['r', 'k', 't'] := by decide
  have hpath : stem family dir ++ (front ++ [c] ++ ".rkt".toList) =
      stem family dir ++ front ++ [c] ++ '.' :: ['r', 'k', 't'] := by
    rw [← List.append_assoc, ← List.append_assoc]; rfl
  rw [Build.outputPath, filePath, filePath, String.toList_ofList, fileTail, fileTail, hdec, hpath,
    Path.splitExtension_append _ hc' hending, List.append_assoc, List.append_assoc, List.append_assoc]
  rfl

/-! ## Places of a test's files -/

theorem isTail_fileTail (i : Int) {ending : String} (h : IsTail ending.toList) : IsTail (fileTail i ending) :=
  Path.isTail_append h (slash_not_mem_decimal i)

theorem isTail_rkt : IsTail ".rkt".toList :=
  ⟨by decide, by decide, 'r', by decide, by decide⟩

theorem isTail_s : IsTail ".s".toList :=
  ⟨by decide, by decide, 's', by decide, by decide⟩

variable {fs fs' : Files} {p q : Place} {ending ending' : String}

/-- An integer that numbers a test with a file can be written: names are short. -/
theorem writable_of_locate (hending : IsTail ending.toList)
    (h : fs.locate (filePath family dir i ending) = .ok p) : Integer.Writable i := by
  obtain ⟨ns, b, hplace⟩ := Files.exists_folder (stem family dir)
  obtain ⟨-, hsize, -⟩ := (hplace fs _ p (isTail_fileTail i hending)).1 h
  have hlen := Files.length_le_utf8ByteSize (b ++ fileTail i ending)
  refine Integer.writable_of_length ?_
  have htail : (fileTail i ending).length = (Integer.decimal i).toList.length + ending.toList.length := by
    rw [fileTail, List.length_append]
  rw [List.length_append, htail] at hlen
  have : Files.nameLimit ≤ Integer.digitLimit := by decide
  omega

/-- Where the source of a test stands its assembly can be placed. -/
theorem exists_locate_assembly (h : fs.locate (filePath family dir i ".rkt") = .ok p) :
    ∃ q, fs.locate (filePath family dir i ".s") = .ok q ∧ Files.standing? q = none := by
  obtain ⟨ns, b, hplace⟩ := Files.exists_folder (stem family dir)
  obtain ⟨hpath, hsize, d, hwalk, hdir, -⟩ := (hplace fs _ p (isTail_fileTail i isTail_rkt)).1 h
  have hs := isTail_fileTail i isTail_s
  have hle : (String.ofList ".s".toList).utf8ByteSize ≤ (String.ofList ".rkt".toList).utf8ByteSize := by
    decide
  refine ⟨d ++ [String.ofList (b ++ fileTail i ".s")], (hplace fs _ _ hs).2 ⟨?_, ?_, d, hwalk, hdir, rfl⟩,
    Files.standing?_of_dotted d (hs.dotted b)⟩
  · rw [fileTail, ← List.append_assoc] at hpath ⊢
    exact hpath.shorten (by decide) hle
  · rw [fileTail, ← List.append_assoc] at hsize ⊢
    exact Nat.le_trans (Files.utf8ByteSize_append_le _ hle) hsize

/-- Files of tests stand at different places if their paths end differently. -/
theorem place_ne (he : IsTail ending.toList) (he' : IsTail ending'.toList)
    (hne : fileTail i ending ≠ fileTail j ending')
    (h : fs.locate (filePath family dir i ending) = .ok p)
    (h' : fs.locate (filePath family dir j ending') = .ok q) : p ≠ q := by
  obtain ⟨ns, b, hplace⟩ := Files.exists_folder (stem family dir)
  obtain ⟨-, -, d, hwalk, -, rfl⟩ := (hplace fs _ p (isTail_fileTail i he)).1 h
  obtain ⟨-, -, d', hwalk', -, rfl⟩ := (hplace fs _ q (isTail_fileTail j he')).1 h'
  cases hwalk.symm.trans hwalk'
  intro heq
  have hname := List.append_inj_right' heq rfl
  simp only [List.cons.injEq, and_true] at hname
  rw [String.ofList_inj] at hname
  exact hne (List.append_cancel_left hname)

/-- No assembly ends like a source. -/
theorem fileTail_s_ne_rkt : fileTail i ".s" ≠ fileTail j ".rkt" := by
  intro h
  have := congrArg List.getLast? h
  simp [fileTail] at this

end Family

end PassCheck
