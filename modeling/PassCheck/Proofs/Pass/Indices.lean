/-
Found indices and the names of tests. The tests of any finite set of numbers are found again, in
increasing order, whatever else stands in the folder (`discover_expand`). The other way around a found
index need not name a test: an index text need not be the decimal text of its value. It may have
leading zeros, and then the test of its value is another one, that may be missing or found twice; and it
may have no value at all. Exactly where all index texts are decimal every index is found once and names
a test that is there (`discovered_names_tests_iff`).
-/
import PassCheck.Proofs.Build.TestFiles
import PassCheck.Proofs.Pass.Discovery
import Mathlib.Data.Finset.Sort

namespace PassCheck

/-- A text that looks like digits has no sign, so its value is not negative. -/
theorem Integer.nonneg_of_ofText? {text : List Char} {i : Int} (hminus : '-' ∉ text)
    (h : ofText? (String.ofList text) = some i) : 0 ≤ i := by
  -- trimming takes from the ends only, so a sign in front of the rest stands in the text
  have hsign : (splitSign (trim text)).1 = false := by
    unfold splitSign
    split
    · rename_i hcs
      refine absurd ?_ hminus
      have hmem : '-' ∈ trim text := by rw [hcs]; exact List.mem_cons_self
      rw [trim, List.mem_reverse] at hmem
      exact (List.dropWhile_sublist _).mem (List.mem_reverse.1 ((List.dropWhile_sublist _).mem hmem))
    · rfl
    · rfl
  rw [ofText?, String.toList_ofList] at h
  cases hs : splitSign (trim text) with
  | mk negative body =>
  rw [hs] at hsign h
  obtain rfl : negative = false := hsign
  obtain ⟨ds, -, h⟩ := Option.bind_eq_some_iff.1 h
  unfold ofSignDigits? at h
  split at h
  · cases h; exact Int.natCast_nonneg _
  · cases h

namespace Family

open PassCheck.Path (joinChars)

variable {fs : Files} {family dir : String} {text : List Char} {texts : List (List Char)} {i : Int}
  {is : List Int}

/-! ## Values of index texts -/

theorem valuesOf_eq_ok_iff :
    valuesOf texts = .ok is ↔ texts.map indexValue? = is.map some := by
  induction texts generalizing is with
  | nil =>
    cases is with
    | nil => exact ⟨fun _ => rfl, fun _ => rfl⟩
    | cons i is => exact ⟨nofun, nofun⟩
  | cons text texts ih =>
    rw [valuesOf_cons, List.map_cons]
    cases is with
    | nil =>
      cases indexValue? text with
      | none => exact ⟨nofun, nofun⟩
      | some i => cases valuesOf texts <;> exact ⟨nofun, nofun⟩
    | cons i is =>
      rw [List.map_cons, List.cons.injEq, ← ih]
      cases indexValue? text with
      | none => exact ⟨nofun, nofun⟩
      | some j => cases valuesOf texts <;> simp [Except.map]

theorem valuesOf_eq_error_iff {e : Failure} :
    valuesOf texts = .error e ↔ e = .badValue none ∧ ∃ text ∈ texts, indexValue? text = none := by
  induction texts with
  | nil => exact ⟨nofun, nofun⟩
  | cons text texts ih =>
    rw [valuesOf_cons]
    cases hv : indexValue? text with
    | none => simp [hv, eq_comm]
    | some i => cases hvs : valuesOf texts <;> simp_all [Except.map]

theorem mem_iff_of_values (h : texts.map indexValue? = is.map some) :
    i ∈ is ↔ ∃ text ∈ texts, indexValue? text = some i := by
  rw [← List.mem_map, h, List.mem_map_of_injective (Option.some_injective _)]

theorem nodup_iff_of_values (h : texts.map indexValue? = is.map some) :
    is.Nodup ↔ (texts.map indexValue?).Nodup := by
  rw [h, List.nodup_map_iff (Option.some_injective _)]

/-! ## Decimal index texts -/

/-- The decimal text of a number. -/
def IsDecimal (text : List Char) : Prop := ∃ n : Nat, text = (Integer.decimal n).toList

theorem toList_decimal_natCast (n : Nat) : (Integer.decimal n).toList = Nat.toDigits 10 n := by
  rw [Integer.toList_decimal, if_neg (Int.not_lt.2 (Int.natCast_nonneg n)), Int.natAbs_natCast,
    List.nil_append]

theorem looksLikeDigits_decimal (n : Nat) : LooksLikeDigits (Integer.decimal n).toList := by
  rw [toList_decimal_natCast]
  refine ⟨Nat.toDigits_ne_nil, fun c hc => ?_⟩
  rw [Text.isDigitLike, Text.isDigit_of_ascii (Integer.isDigit_of_mem_toDigits hc), Bool.true_or]

theorem LooksLikeDigits.nonneg_of_value (h : LooksLikeDigits text) (hv : indexValue? text = some i) :
    0 ≤ i :=
  Integer.nonneg_of_ofText? (fun hm => absurd (h.2 _ hm) (by decide)) hv

/-- An index text is a part of a name that a file has, so it is short. -/
theorem length_le_of_mem_indexTexts (hfs : fs.Proper) (h : text ∈ indexTexts fs family dir) :
    text.length ≤ Files.nameLimit := by
  have hproper := properName_of_mem_namesIn hfs (mem_indexTexts_iff.1 h).1
  simp only [Files.properName, Bool.and_eq_true, decide_eq_true_eq] at hproper
  refine Nat.le_trans ?_ (Nat.le_trans (Files.length_le_utf8ByteSize _) hproper.2)
  rw [fileName, List.length_append, List.length_append]
  omega

theorem writable_of_mem_indexTexts (hfs : fs.Proper)
    (h : (Integer.decimal i).toList ∈ indexTexts fs family dir) : Integer.Writable i :=
  Integer.writable_of_length (Nat.le_trans (length_le_of_mem_indexTexts hfs h) (by decide))

theorem indexValue?_decimal (h : Integer.Writable i) :
    indexValue? (Integer.decimal i).toList = some i := by
  rw [indexValue?, String.ofList_toList, Integer.ofText?_decimal h]

/-- Sorting a list without repetition gives a strictly increasing list. -/
theorem pairwise_lt_mergeSort_iff :
    (is.mergeSort fun a b => a ≤ b).Pairwise (· < ·) ↔ is.Nodup := by
  have hle := List.pairwise_mergeSort' (· ≤ ·) is
  rw [← (List.mergeSort_perm is _).nodup_iff]
  constructor
  · exact fun h => h.imp Int.ne_of_lt
  · exact fun h => (hle.and h).imp fun hab => lt_of_le_of_ne hab.1 hab.2

theorem discover_of_values (hfs : fs.Proper) (h : Plain family dir)
    (hask : Files.askable dir.toList = true)
    (hvalues : (indexTexts fs family dir).map indexValue? = is.map some) :
    discover fs family dir = .ok (is.mergeSort fun a b => a ≤ b) := by
  rw [discover_eq hfs h, if_pos hask, valuesOf_eq_ok_iff.2 hvalues]; rfl

/-- Where all index texts are decimal, their values are found, each once. -/
theorem discover_of_decimal (hfs : fs.Proper) (h : Plain family dir)
    (hask : Files.askable dir.toList = true)
    (hdecimal : ∀ text ∈ indexTexts fs family dir, IsDecimal text) :
    ∃ is, discover fs family dir = .ok is ∧ is.Pairwise (· < ·) ∧
      ∀ i, i ∈ is ↔ ∃ n : Nat, i = n ∧ (Integer.decimal n).toList ∈ indexTexts fs family dir := by
  have hvalue : ∀ n : Nat, (Integer.decimal n).toList ∈ indexTexts fs family dir →
      indexValue? (Integer.decimal n).toList = some (n : Int) := fun n hn =>
    indexValue?_decimal (writable_of_mem_indexTexts hfs hn)
  cases hvs : valuesOf (indexTexts fs family dir) with
  | error e =>
    obtain ⟨-, text, hmem, hnone⟩ := valuesOf_eq_error_iff.1 hvs
    obtain ⟨n, rfl⟩ := hdecimal text hmem
    rw [hvalue n hmem] at hnone
    cases hnone
  | ok is =>
    have hmap := valuesOf_eq_ok_iff.1 hvs
    refine ⟨is.mergeSort fun a b => a ≤ b, discover_of_values hfs h hask hmap, ?_, fun i => ?_⟩
    · rw [pairwise_lt_mergeSort_iff, nodup_iff_of_values hmap]
      -- two decimal texts of one value are the same text
      refine (nodup_indexTexts hfs).map_on fun text hmem text' hmem' heq => ?_
      obtain ⟨n, rfl⟩ := hdecimal text hmem
      obtain ⟨m, rfl⟩ := hdecimal text' hmem'
      rw [hvalue n hmem, hvalue m hmem'] at heq
      cases heq; rfl
    · rw [List.mem_mergeSort, mem_iff_of_values hmap]
      constructor
      · rintro ⟨text, hmem, hi⟩
        obtain ⟨n, rfl⟩ := hdecimal text hmem
        rw [hvalue n hmem] at hi
        cases hi
        exact ⟨n, rfl, hmem⟩
      · rintro ⟨n, rfl, hmem⟩
        exact ⟨_, hmem, hvalue n hmem⟩

/-! ## The test of an index -/

/-- The index names a test whose source file is there. -/
def NamesTest (fs : Files) (family dir : String) (i : Int) : Prop :=
  ∃ test, expand family (.list [.int i]) = .ok [test] ∧ fs.present (sourcePath test dir) = true

theorem nameOf_append (family : String) (i : Int) : nameOf family i ++ sourceExtension =
    String.ofList (fileName family (Integer.decimal i).toList) := by
  rw [← String.toList_inj, String.toList_ofList, fileName, nameOf, String.toList_append,
    String.toList_append]

/-- The path of a source file with the given index text. -/
def textPath (family dir : String) (text : List Char) : String :=
  Path.join dir (String.ofList (fileName family text))

theorem slash_not_mem_fileName (h : '/' ∉ family.toList) (ht : '/' ∉ text) :
    '/' ∉ fileName family text := by
  have hext : '/' ∉ sourceExtension.toList := by decide
  simp only [fileName, String.toList_append, List.mem_append, not_or]
  exact ⟨⟨⟨h, by decide⟩, ht⟩, hext⟩

theorem dotted_fileName (family : String) (text : List Char) :
    Path.Dotted (String.ofList (fileName family text)) := by
  rw [Path.Dotted, String.toList_ofList, fileName]
  exact ⟨List.mem_append_right _ (by decide),
    'r', List.mem_append_right _ (by decide), by decide⟩

theorem present_textPath_iff (hfs : fs.Proper) (h : '/' ∉ family.toList) (ht : LooksLikeDigits text) :
    fs.present (textPath family dir text) = true ↔
      Files.Acceptable (joinChars dir.toList (fileName family text)) ∧
        text ∈ indexTexts fs family dir := by
  have hslash : '/' ∉ text := fun hm => absurd (ht.2 _ hm) (by decide)
  rw [textPath, present_join_iff hfs (slash_not_mem_fileName h hslash) (dotted_fileName family text),
    mem_indexTexts_iff, and_iff_left ht]

theorem namesTest_iff (hfs : fs.Proper) (h : '/' ∉ family.toList) {n : Nat} :
    NamesTest fs family dir n ↔
      fs.present (textPath family dir (Integer.decimal n).toList) = true := by
  have hpath : sourcePath (nameOf family n) dir = textPath family dir (Integer.decimal n).toList := by
    rw [sourcePath, nameOf_append, textPath]
  have hexpand : Integer.Writable n →
      expand family (.list [.int n]) = .ok [nameOf family n] := fun hw =>
    @expand_ints family [(n : Int)] (by simpa using hw)
  constructor
  · rintro ⟨test, htest, hpresent⟩
    by_cases hw : Integer.Writable n
    · rw [hexpand hw] at htest
      cases htest
      rwa [hpath] at hpresent
    · rw [show Datum.list [.int n] = .list ([(n : Int)].map .int) from rfl,
        expand_ints_of_not_writable family (by simpa using hw)] at htest
      cases htest
  · intro hpresent
    have hmem := ((present_textPath_iff hfs h (looksLikeDigits_decimal n)).1 hpresent).2
    exact ⟨_, hexpand (writable_of_mem_indexTexts hfs hmem), hpath ▸ hpresent⟩

/-- Discovery fails exactly where the folder cannot be asked for or an index text has no value. -/
theorem discover_eq_error_iff (hfs : fs.Proper) (h : Plain family dir) {e : Failure} :
    discover fs family dir = .error e ↔ e = .badValue none ∧
      (Files.askable dir.toList = false ∨
        ∃ text ∈ indexTexts fs family dir, indexValue? text = none) := by
  rw [discover_eq hfs h]
  cases Files.askable dir.toList with
  | false => simp [eq_comm]
  | true =>
    simp only [Bool.true_eq_false, false_or, if_true]
    rw [← valuesOf_eq_error_iff]
    cases valuesOf (indexTexts fs family dir) <;> simp [Except.map]

/-- What is found is sorted, and it is the values of the index texts as often as they occur. -/
theorem of_discover_eq_ok (hfs : fs.Proper) (h : Plain family dir)
    (hd : discover fs family dir = .ok is) : Files.askable dir.toList = true ∧
      is.Pairwise (· ≤ ·) ∧ ((indexTexts fs family dir).map indexValue?).Perm (is.map some) := by
  rw [discover_eq hfs h] at hd
  split at hd
  · rename_i hask
    refine ⟨hask, ?_⟩
    cases hvs : valuesOf (indexTexts fs family dir) with
    | error e => rw [hvs] at hd; cases hd
    | ok vs =>
      rw [hvs] at hd
      cases hd
      rw [valuesOf_eq_ok_iff.1 hvs]
      exact ⟨List.pairwise_mergeSort' (· ≤ ·) vs, (List.mergeSort_perm vs _).symm.map some⟩
  · cases hd

/-- When discovery fails, what it gives otherwise, and where all that is found is there: exactly where
the folder holds decimal index texts only, and their files can be reached. -/
theorem discovered_names_tests_iff (hfs : fs.Proper) (h : Plain family dir) :
    (∀ e, discover fs family dir = .error e ↔ e = .badValue none ∧
      (Files.askable dir.toList = false ∨
        ∃ text ∈ indexTexts fs family dir, indexValue? text = none)) ∧
    (∀ is, discover fs family dir = .ok is → is.Pairwise (· ≤ ·) ∧
      ((indexTexts fs family dir).map indexValue?).Perm (is.map some)) ∧
    ((∃ is, discover fs family dir = .ok is ∧ is.Pairwise (· < ·) ∧
        ∀ i ∈ is, NamesTest fs family dir i) ↔
      Files.askable dir.toList = true ∧ ∀ text ∈ indexTexts fs family dir,
        IsDecimal text ∧ fs.present (textPath family dir text) = true) := by
  refine ⟨fun e => discover_eq_error_iff hfs h, fun is hd => (of_discover_eq_ok hfs h hd).2, ?_⟩
  constructor
  · rintro ⟨is, hd, hlt, hnames⟩
    obtain ⟨hask, -, hperm⟩ := of_discover_eq_ok hfs h hd
    refine ⟨hask, fun text hmem => ?_⟩
    obtain ⟨i, hi, hvalue⟩ := List.mem_map.1 (hperm.mem_iff.1 (List.mem_map_of_mem hmem))
    obtain ⟨n, rfl⟩ := Int.eq_ofNat_of_zero_le
      ((mem_indexTexts_iff.1 hmem).2.nonneg_of_value hvalue.symm)
    have hpresent := (namesTest_iff hfs h.noSlash).1 (hnames n hi)
    have hdecimal := ((present_textPath_iff hfs h.noSlash (looksLikeDigits_decimal n)).1 hpresent).2
    -- the text and the decimal text have one value, and no value is found twice
    have hnodup : ((indexTexts fs family dir).map indexValue?).Nodup := by
      rw [hperm.nodup_iff, List.nodup_map_iff (Option.some_injective _)]
      exact hlt.imp Int.ne_of_lt
    have hsame : text = (Integer.decimal n).toList := by
      refine List.inj_on_of_nodup_map hnodup hmem hdecimal ?_
      rw [← hvalue, indexValue?_decimal (writable_of_mem_indexTexts hfs hdecimal)]
    exact ⟨⟨n, hsame⟩, hsame ▸ hpresent⟩
  · rintro ⟨hask, hall⟩
    obtain ⟨is, hd, hlt, hmem⟩ := discover_of_decimal hfs h hask fun text ht => (hall text ht).1
    refine ⟨is, hd, hlt, fun i hi => ?_⟩
    obtain ⟨n, rfl, hn⟩ := (hmem i).1 hi
    exact (namesTest_iff hfs h.noSlash).2 (hall _ hn).2

/-- Sources of two tests, beside names that begin like them. -/
def numberedFiles : Files :=
  ⟨[(["tests"], .dir), (["tests", "f_10.rkt"], .file .empty), (["tests", "f_x_1.rkt"], .file .empty),
    (["tests", "f_9.rkt"], .file .empty), (["tests", "f_.rkt"], .file .empty),
    (["tests", "f_9.in"], .file .empty), (["tests", "f_11.s"], .file .empty)]⟩

theorem proper_numberedFiles : numberedFiles.Proper := ⟨by decide, by decide⟩

theorem indexTexts_numberedFiles :
    indexTexts numberedFiles "f" "tests" = ["10".toList, "9".toList] := by decide +kernel

theorem discovered_names_tests_iff_numbered :
    numberedFiles.Proper ∧ Plain "f" "tests" ∧
    ∃ is, discover numberedFiles "f" "tests" = .ok is ∧ is.Pairwise (· < ·) ∧
      ∀ i ∈ is, NamesTest numberedFiles "f" "tests" i := by
  have hf : Plain "f" "tests" := ⟨by decide, by decide, by decide⟩
  refine ⟨proper_numberedFiles, hf, (discovered_names_tests_iff proper_numberedFiles hf).2.2.2
    ⟨by decide, ?_⟩⟩
  rw [indexTexts_numberedFiles, List.forall_mem_cons, List.forall_mem_singleton]
  exact ⟨⟨⟨10, by decide⟩, by decide +kernel⟩, ⟨9, by decide⟩, by decide +kernel⟩

/-- Sources with zeros in front of their index, one of them beside the same index without, and one with a
superscript. -/
def paddedFiles : Files :=
  ⟨[(["tests"], .dir), (["tests", "f_01.rkt"], .file .empty), (["tests", "g_².rkt"], .file .empty),
    (["tests", "h_1.rkt"], .file .empty), (["tests", "h_01.rkt"], .file .empty)]⟩

theorem proper_paddedFiles : paddedFiles.Proper := ⟨by decide, by decide⟩

theorem discovered_index_names_no_test :
    paddedFiles.Proper ∧ Plain "f" "tests" ∧ Plain "g" "tests" ∧ Plain "h" "tests" ∧
    discover paddedFiles "f" "tests" = .ok [1] ∧ ¬ NamesTest paddedFiles "f" "tests" 1 ∧
    discover paddedFiles "g" "tests" = .error (.badValue none) ∧
    discover paddedFiles "h" "tests" = .ok [1, 1] := by
  have hf : Plain "f" "tests" := ⟨by decide, by decide, by decide⟩
  have hg : Plain "g" "tests" := ⟨by decide, by decide, by decide⟩
  have hh : Plain "h" "tests" := ⟨by decide, by decide, by decide⟩
  refine ⟨proper_paddedFiles, hf, hg, hh, ?_, fun hnames => ?_, ?_, ?_⟩
  · have hd := @discover_of_values paddedFiles "f" "tests" [1] proper_paddedFiles hf (by decide)
      (by decide +kernel)
    rwa [List.mergeSort_singleton] at hd
  · have hpresent := (@namesTest_iff paddedFiles "f" "tests" proper_paddedFiles hf.noSlash 1).1 hnames
    exact absurd hpresent (by decide +kernel)
  · exact (discover_eq_error_iff proper_paddedFiles hg).2
      ⟨rfl, .inr ⟨"²".toList, by decide +kernel, by decide +kernel⟩⟩
  · have hd := @discover_of_values paddedFiles "h" "tests" [1, 1] proper_paddedFiles hh (by decide)
      (by decide +kernel)
    rwa [List.mergeSort_eq_self (· ≤ ·) (by decide)] at hd

/-! ## The tests of a set of numbers -/

/-- Where the folder holds the tests of some numbers, and no other source file of the family with an
index text, these numbers are found, in increasing order. -/
theorem discover_expand (hfs : fs.Proper) (h : Plain family dir)
    (hask : Files.askable dir.toList = true) {S : Finset Nat} {indices : List Nat}
    (hindices : ∀ n, n ∈ indices ↔ n ∈ S) {tests : List String}
    (htests : expand family (.list (indices.map fun n : Nat => .int n)) = .ok tests)
    (hthere : ∀ t ∈ tests, fs.present (sourcePath t dir) = true)
    (hothers : ∀ name ∈ namesIn fs dir, ∀ text, name = fileName family text → LooksLikeDigits text →
      ∃ t ∈ tests, name = (t ++ sourceExtension).toList) :
    discover fs family dir = .ok ((S.sort (· ≤ ·)).map fun n : Nat => (n : Int)) := by
  obtain rfl : tests = indices.map fun n : Nat => nameOf family n := by
    have hmap : indices.map (fun n : Nat => Datum.int n) =
        (indices.map fun n : Nat => (n : Int)).map .int := by rw [List.map_map]; rfl
    rw [hmap] at htests
    by_cases hw : ∀ i ∈ indices.map fun n : Nat => (n : Int), Integer.Writable i
    · rw [expand_ints family hw, List.map_map] at htests
      cases htests; rfl
    · rw [expand_ints_of_not_writable family hw] at htests
      cases htests
  -- the files of the tests are there and no others count, so the set gives the index texts
  have htexts : ∀ text, text ∈ indexTexts fs family dir ↔
      ∃ n ∈ S, text = (Integer.decimal n).toList := by
    intro text
    constructor
    · intro hmem
      obtain ⟨hname, hdigits⟩ := mem_indexTexts_iff.1 hmem
      obtain ⟨t, ht, heq⟩ := hothers _ hname text rfl hdigits
      obtain ⟨n, hn, rfl⟩ := List.mem_map.1 ht
      rw [nameOf_append, String.toList_ofList] at heq
      exact ⟨n, (hindices n).1 hn, fileName_injective heq⟩
    · rintro ⟨n, hn, rfl⟩
      have hpresent := hthere _ (List.mem_map_of_mem ((hindices n).2 hn))
      rw [sourcePath, nameOf_append] at hpresent
      exact ((present_textPath_iff hfs h.noSlash (looksLikeDigits_decimal n)).1 hpresent).2
  obtain ⟨is, hd, hlt, hmem⟩ := discover_of_decimal hfs h hask fun text ht => by
    obtain ⟨n, -, rfl⟩ := (htexts text).1 ht
    exact ⟨n, rfl⟩
  have hsorted : ((S.sort (· ≤ ·)).map fun n : Nat => (n : Int)).Pairwise (· < ·) :=
    List.pairwise_map.2 (S.sortedLT_sort.pairwise.imp Int.ofNat_lt.2)
  rw [hd, hlt.eq_of_mem_iff hsorted fun i => ?_]
  rw [hmem, List.mem_map]
  constructor
  · rintro ⟨n, rfl, hn⟩
    obtain ⟨m, hm, heq⟩ := (htexts _).1 hn
    rw [Integer.decimal_injective (String.toList_inj.1 heq)]
    exact ⟨m, (Finset.mem_sort _).2 hm, rfl⟩
  · rintro ⟨n, hn, rfl⟩
    exact ⟨n, rfl, (htexts _).2 ⟨n, (Finset.mem_sort _).1 hn, rfl⟩⟩

theorem discover_expand_numbered :
    numberedFiles.Proper ∧ Plain "f" "tests" ∧
    expand "f" (.list [.int 10, .int 9]) = .ok ["f_10", "f_9"] ∧
    discover numberedFiles "f" "tests" = .ok [9, 10] := by
  have hf : Plain "f" "tests" := ⟨by decide, by decide, by decide⟩
  have hwritable : ∀ i ∈ [(10 : Int), 9], Integer.Writable i :=
    fun i hi => Integer.writable_of_length (by revert i; decide)
  have hexpand : expand "f" (.list [.int 10, .int 9]) = .ok ["f_10", "f_9"] := by
    have hnames : [(10 : Int), 9].map (nameOf "f") = ["f_10", "f_9"] := by decide +kernel
    have htests := expand_ints "f" hwritable
    rwa [hnames] at htests
  have hothers : ∀ name ∈ namesIn numberedFiles "tests", ∀ text, name = fileName "f" text →
      LooksLikeDigits text → ∃ t ∈ ["f_10", "f_9"], name = (t ++ sourceExtension).toList := by
    rintro _ hname text rfl hdigits
    have hmem := mem_indexTexts_iff.2 ⟨hname, hdigits⟩
    rw [indexTexts_numberedFiles] at hmem
    rcases List.mem_cons.1 hmem with rfl | hmem
    · exact ⟨"f_10", by decide, by decide⟩
    · cases List.mem_singleton.1 hmem
      exact ⟨"f_9", by decide, by decide⟩
  have hmembers : ∀ n, n ∈ [10, 9] ↔ n ∈ [9, 10].toFinset := by simp [or_comm]
  have hd := discover_expand proper_numberedFiles hf (by decide) hmembers hexpand (by decide +kernel)
    hothers
  rw [(List.toFinset_sort (· ≤ ·) (by decide)).2 (by decide)] at hd
  exact ⟨proper_numberedFiles, hf, hexpand, hd⟩

end Family

end PassCheck
