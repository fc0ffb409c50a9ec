/-
Discovery of tests. What is found in a folder are the values of the index texts there: whatever stands
between the family and the extension and looks like digits, read as an integer and sorted
(`discover_eq`). All other names in the folder are passed over.
-/
import PassCheck.Proofs.Pass.Folder
import PassCheck.Proofs.Pass.Wildcard

namespace PassCheck.Family

open PassCheck.Path (joinChars trimmed)

variable {fs : Files} {family dir : String} {cs digits : List Char}

/-! ## Index texts -/

/-- A family and a directory that stand for themselves in a pattern; a family is part of a name. -/
structure Plain (family dir : String) : Prop where
  ofFamily : Wild.isPattern family.toList = false
  noSlash : '/' ∉ family.toList
  ofDir : Wild.isPattern dir.toList = false

/-- The name of the source file of a family with the given text where its index stands. -/
def fileName (family : String) (text : List Char) : List Char :=
  (family ++ "_").toList ++ text ++ sourceExtension.toList

/-- A text that looks like digits. -/
def LooksLikeDigits (text : List Char) : Prop :=
  text ≠ [] ∧ ∀ c ∈ text, Text.isDigitLike c = true

instance (text : List Char) : Decidable (LooksLikeDigits text) :=
  @instDecidableAnd _ _ inferInstance (List.decidableBAll _ text)

/-- The text in the name of a source file of the family that looks like the digits of its index. -/
def indexText? (family : String) (name : List Char) : Option (List Char) :=
  if name = fileName family (indexPart family name) ∧ LooksLikeDigits (indexPart family name) then
    some (indexPart family name)
  else none

/-- The index texts in the folder, in the order in which their files are listed. -/
def indexTexts (fs : Files) (family dir : String) : List (List Char) :=
  (namesIn fs dir).filterMap (indexText? family)

/-- The value of an index text. -/
def indexValue? (text : List Char) : Option Int := Integer.ofText? (String.ofList text)

theorem indexPart_fileName (family : String) (text : List Char) :
    indexPart family (fileName family text) = text := by
  have hlen : (fileName family text).length - sourceExtension.length =
      ((family ++ "_").toList ++ text).length := by
    rw [fileName, List.length_append, String.length_toList, Nat.add_sub_cancel]
  have hfront : family.length + 1 = (family ++ "_").toList.length := by
    rw [String.length_toList, String.length_append]; rfl
  rw [indexPart, hlen, hfront, fileName, List.take_left, List.drop_left]

theorem fileName_injective {text text' : List Char}
    (h : fileName family text = fileName family text') : text = text' := by
  rw [← indexPart_fileName family text, h, indexPart_fileName]

theorem indexText?_fileName (text : List Char) : indexText? family (fileName family text) =
    if LooksLikeDigits text then some text else none := by
  simp only [indexText?, indexPart_fileName, true_and]

theorem indexText?_eq_some_iff : indexText? family cs = some digits ↔
    cs = fileName family digits ∧ LooksLikeDigits digits := by
  constructor
  · intro h
    unfold indexText? at h
    split at h
    · rename_i hc; cases h; exact hc
    · cases h
  · rintro ⟨rfl, h⟩
    rw [indexText?_fileName, if_pos h]

theorem mem_indexTexts_iff : digits ∈ indexTexts fs family dir ↔
    fileName family digits ∈ namesIn fs dir ∧ LooksLikeDigits digits := by
  rw [indexTexts, List.mem_filterMap]
  constructor
  · rintro ⟨name, hname, h⟩
    obtain ⟨rfl, hd⟩ := indexText?_eq_some_iff.1 h
    exact ⟨hname, hd⟩
  · rintro ⟨hname, hd⟩
    exact ⟨_, hname, indexText?_eq_some_iff.2 ⟨rfl, hd⟩⟩

theorem nodup_indexTexts (hfs : fs.Proper) : (indexTexts fs family dir).Nodup := by
  refine (nodup_namesIn hfs dir).filterMap fun name name' text h h' => ?_
  rw [Option.mem_def, indexText?_eq_some_iff] at h h'
  rw [h.1, h'.1]

/-! ## The pattern of a family -/

theorem toList_pattern (family dir : String) : (pattern family dir).toList =
    joinChars dir.toList ((family ++ "_").toList ++ '*' :: sourceExtension.toList) := by
  rw [pattern, Path.join, String.toList_ofList]
  congr 1
  simp

theorem Plain.slash_not_mem (h : Plain family dir) :
    '/' ∉ (family ++ "_").toList ++ '*' :: sourceExtension.toList := by
  have hext : '/' ∉ '*' :: sourceExtension.toList := by decide
  rw [String.toList_append, List.mem_append, List.mem_append, not_or, not_or]
  exact ⟨⟨h.noSlash, by decide⟩, hext⟩

/-- A name that fits the pattern of a family is the name of one of its source files. -/
theorem Plain.fits_iff (h : Plain family dir) :
    ((((family ++ "_").toList ++ '*' :: sourceExtension.toList).head? == some '.' ||
        cs.head? != some '.') &&
      Wild.accepts (Wild.ofText ((family ++ "_").toList ++ '*' :: sourceExtension.toList)) cs) =
        true ↔ ∃ text, cs = fileName family text := by
  have hfront : Wild.isPattern (family ++ "_").toList = false := by
    rw [String.toList_append, Wild.isPattern_append, h.ofFamily]; rfl
  rw [Bool.and_eq_true, Wild.accepts_ofText_star_iff hfront (by decide), and_iff_right_of_imp]
  · rfl
  · -- both begin like the family, so the name is hidden only if the pattern shows a dot
    rintro ⟨text, rfl⟩
    have hne : (family ++ "_").toList ≠ [] := by simp
    rw [List.append_assoc, List.head?_append_of_ne_nil _ hne,
      List.head?_append_of_ne_nil _ hne, bne, Bool.or_not_self]

/-- The names in the folder that fit the pattern of a family, if the folder can be asked for. -/
theorem Plain.exists_namesLike (h : Plain family dir) (fs : Files) :
    ∃ fits : List Char → Bool, (∀ cs, fits cs = true ↔ ∃ text, cs = fileName family text) ∧
      fs.namesLike (trimmed dir.toList) ((family ++ "_").toList ++ '*' :: sourceExtension.toList) false =
        if Files.askable dir.toList then .ok ((namesIn fs dir).filter fits)
        else .error (.badValue none) := by
  refine ⟨_, fun cs => h.fits_iff, ?_⟩
  have hask : Files.askable (trimmed dir.toList) = Files.askable dir.toList := by
    simp only [Files.askable, List.contains_eq_mem, Path.mem_trimmed_iff (show Char.ofNat 0 ≠ '/' by decide)]
  have hpath : (if (trimmed dir.toList).isEmpty then "." else String.ofList (trimmed dir.toList)) =
      folder dir := by
    rw [folder]
    by_cases hd : dir = ""
    · subst hd; rfl
    · have hne : trimmed dir.toList ≠ [] := by
        rw [Ne, Path.trimmed_eq_nil_iff]; simpa using hd
      rw [if_neg hd, if_neg (by simpa using hne)]
  rw [Files.namesLike, hask, hpath]
  cases Files.askable dir.toList with
  | false => rfl
  | true =>
    simp only [Bool.not_false, Bool.true_or, List.filter_true, namesIn]
    rfl

theorem isPattern_joinChars {name : List Char} (h : '/' ∉ name) (hname : Wild.isPattern name = true)
    (dir : List Char) : Wild.isPattern (joinChars dir name) = true := by
  have hend : ∃ front, joinChars dir name = front ++ name := by
    rcases Path.joinChars_cases h dir with ⟨-, heq⟩ | ⟨front, -, heq⟩ | ⟨-, -, -, -, heq⟩
    · exact ⟨[], heq⟩
    · exact ⟨front ++ ['/'], by rw [heq, List.append_cons]⟩
    · exact ⟨dir ++ ['/'], by rw [heq, List.append_cons]⟩
  obtain ⟨front, heq⟩ := hend
  rw [heq, Wild.isPattern_append, hname, Bool.or_true]

/-- The pattern of a family leads to the files in the folder that fit it. -/
theorem Plain.expand_pattern (h : Plain family dir) (fs : Files) :
    ∃ fits : List Char → Bool, (∀ cs, fits cs = true ↔ ∃ text, cs = fileName family text) ∧
      fs.expand (pattern family dir) =
        if Files.askable dir.toList then
          .ok (((namesIn fs dir).filter fits).map fun cs =>
            String.ofList (joinChars (trimmed dir.toList) cs))
        else .error (.badValue none) := by
  obtain ⟨fits, hfits, hlike⟩ := h.exists_namesLike fs
  refine ⟨fits, hfits, ?_⟩
  have hname : Wild.isPattern ((family ++ "_").toList ++ '*' :: sourceExtension.toList) = true := by
    rw [Wild.isPattern_append, Bool.or_eq_true]; exact .inr (by decide)
  have hdir : Wild.isPattern (trimmed dir.toList) = false := by
    rw [Wild.isPattern_eq_false_iff]
    exact fun c hc => Wild.isPattern_eq_false_iff.1 h.ofDir c ((Path.trimmed_prefix _).subset hc)
  obtain ⟨hbase, hdirChars⟩ := Path.split_joinChars h.slash_not_mem dir.toList
  -- the directory stands for itself, so only the last part of the pattern is looked for
  have hwithin : fs.expandWithin ((pattern family dir).toList.length + 1) false
      (pattern family dir).toList =
        (fs.namesLike (trimmed dir.toList) ((family ++ "_").toList ++ '*' :: sourceExtension.toList)
          false).map fun ns => ns.map (joinChars (trimmed dir.toList)) := by
    have hnil : joinChars [] = id := by
      funext cs
      rw [joinChars, List.isEmpty_nil, Bool.true_or, if_pos rfl, List.nil_append, ite_self]; rfl
    rw [toList_pattern, Files.expandWithin, hbase, hdirChars]
    dsimp only
    cases hd : (trimmed dir.toList).isEmpty with
    | true =>
      rw [if_pos rfl, List.isEmpty_iff.1 hd, hnil]
      cases fs.namesLike [] _ false <;> simp [Except.map]
    | false =>
      rw [if_neg Bool.false_ne_true, hdir, Bool.and_false, if_neg Bool.false_ne_true]
      simp only [bind, Except.bind, Files.inDirs, Files.lastParts, hname, if_true]
      cases fs.namesLike (trimmed dir.toList) _ false <;> simp [Except.map, pure, Except.pure]
  rw [Files.expand, toList_pattern, isPattern_joinChars h.slash_not_mem hname, if_pos rfl,
    ← toList_pattern, hwithin, hlike]
  cases Files.askable dir.toList with
  | false => rfl
  | true => simp [bind, Except.bind, pure, Except.pure, Except.map]

/-! ## What is found -/

/-- The values of texts, or the failure that one of them has none. -/
def valuesOf (texts : List (List Char)) : Except Failure (List Int) :=
  match texts.mapM indexValue? with
  | some is => .ok is
  | none => .error (.badValue none)

theorem valuesOf_cons (text : List Char) (texts : List (List Char)) : valuesOf (text :: texts) =
    match indexValue? text with
    | some i => (valuesOf texts).map (i :: ·)
    | none => .error (.badValue none) := by
  unfold valuesOf
  rw [List.mapM_cons]
  cases indexValue? text with
  | none => rfl
  | some i => cases texts.mapM indexValue? <;> rfl

theorem indexOf_fileName {text : List Char} (h : '/' ∉ fileName family text) (front : List Char) :
    indexOf family (String.ofList (joinChars front (fileName family text))) =
      if LooksLikeDigits text then
        match indexValue? text with
        | some i => .ok (some i)
        | none => .error (.badValue none)
      else .ok none := by
  have hlooks : (!text.isEmpty && text.all Text.isDigitLike) = decide (LooksLikeDigits text) := by
    rw [Bool.eq_iff_iff, decide_eq_true_iff, LooksLikeDigits, Bool.and_eq_true, List.all_eq_true]
    simp
  rw [indexOf, Path.base, String.toList_ofList, String.toList_ofList,
    (Path.split_joinChars h front).1, indexPart_fileName, hlooks]
  by_cases hd : LooksLikeDigits text
  · rw [if_pos hd, decide_eq_true hd, indexValue?]; rfl
  · rw [if_neg hd, decide_eq_false hd]; rfl

/-- The indices of source files of the family are the values of their index texts. -/
theorem indicesOf_eq (front : List Char) : ∀ names : List (List Char),
    (∀ name ∈ names, '/' ∉ name ∧ ∃ text, name = fileName family text) →
    indicesOf family (names.map fun cs => String.ofList (joinChars front cs)) =
      valuesOf (names.filterMap (indexText? family))
  | [], _ => rfl
  | name :: names, h => by
    obtain ⟨⟨hslash, text, rfl⟩, hnames⟩ := List.forall_mem_cons.1 h
    have ih := indicesOf_eq front names hnames
    rw [List.map_cons, indicesOf, indexOf_fileName hslash, ih, List.filterMap_cons, indexText?_fileName]
    by_cases hd : LooksLikeDigits text
    · rw [if_pos hd, if_pos hd]
      dsimp only
      rw [valuesOf_cons]
      cases indexValue? text with
      | none => rfl
      | some i => cases valuesOf (names.filterMap (indexText? family)) <;> rfl
    · rw [if_neg hd, if_neg hd]
      cases valuesOf (names.filterMap (indexText? family)) <;> rfl

/-- What is found are the values of the index texts in the folder, in increasing order. A folder that
cannot be asked for, and a text without a value, are refused. -/
theorem discover_eq (hfs : fs.Proper) (h : Plain family dir) : discover fs family dir =
    if Files.askable dir.toList then
      (valuesOf (indexTexts fs family dir)).map fun is => is.mergeSort fun a b => a ≤ b
    else .error (.badValue none) := by
  obtain ⟨fits, hfits, hexpand⟩ := h.expand_pattern fs
  rw [discover, hexpand]
  cases Files.askable dir.toList with
  | false => rfl
  | true =>
    have hnames : ∀ name ∈ (namesIn fs dir).filter fits,
        '/' ∉ name ∧ ∃ text, name = fileName family text := by
      intro name hname
      obtain ⟨hmem, hfit⟩ := List.mem_filter.1 hname
      have hproper := properName_of_mem_namesIn hfs hmem
      simp only [Files.properName, Bool.and_eq_true, Bool.not_eq_true', List.contains_eq_mem,
        decide_eq_false_iff_not, String.toList_ofList] at hproper
      exact ⟨hproper.1.1.2, (hfits name).1 hfit⟩
    have htexts : ((namesIn fs dir).filter fits).filterMap (indexText? family) =
        indexTexts fs family dir := by
      rw [indexTexts, List.filterMap_filter]
      refine List.filterMap_congr fun name _ => ?_
      split
      · rfl
      · rename_i hno
        refine (Option.eq_none_iff_forall_ne_some.2 fun text htext => hno ?_).symm
        exact (hfits name).2 ⟨text, (indexText?_eq_some_iff.1 htext).1⟩
    rw [if_pos rfl, if_pos rfl, ← htexts, ← indicesOf_eq _ _ hnames]
    cases hi : indicesOf family (((namesIn fs dir).filter fits).map fun cs =>
      String.ofList (joinChars (trimmed dir.toList) cs)) <;>
    simp only [bind, Except.bind, pure, Except.pure, Except.map, hi]

end PassCheck.Family
