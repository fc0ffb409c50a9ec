/-
The folder of the tests: what is listed there and what its paths lead to. A directory is walked to in
the same way with and without slashes behind its path, so a name that is listed in the folder is a file
that can be asked for below it, as long as the whole path is short enough, and the other way round.

That holds of files as they can be (`Files.Proper`).
-/
import PassCheck.Proofs.Build.TestFiles
import PassCheck.Proofs.World.Proper
import Mathlib.Data.List.Nodup

namespace PassCheck

open PassCheck.Path (joinChars baseChars trimmed names)

/-! ## Paths with slashes at their end -/

namespace Path

theorem names_ne_nil (cs : List Char) : names cs ≠ [] := by
  cases cs with
  | nil => simp [names]
  | cons c cs =>
    rw [names]
    split
    · simp
    · split <;> simp

theorem names_append_slash (cs rest : List Char) :
    names (cs ++ '/' :: rest) = names cs ++ names rest := by
  induction cs with
  | nil => rfl
  | cons c cs ih =>
    rw [List.cons_append, names, names, ih]
    split
    · rfl
    · cases h : names cs with
      | nil => exact absurd h (names_ne_nil cs)
      | cons n ns => rfl

theorem trimmed_of_last {c : Char} (cs : List Char) (h : c ≠ '/') :
    trimmed (cs ++ [c]) = cs ++ [c] := by
  rw [trimmed, List.reverse_append, List.reverse_singleton, List.singleton_append,
    List.dropWhile_cons_of_neg (by simpa using h)]
  simp

theorem trimmed_of_slash {cs : List Char} (h : cs.all (· == '/') = false) :
    trimmed (cs ++ ['/']) = trimmed cs := by
  rw [trimmed, trimmed, List.all_append, h, Bool.false_and, List.reverse_append, List.reverse_singleton, List.singleton_append,
    List.dropWhile_cons_of_pos rfl, if_neg Bool.false_ne_true, if_neg Bool.false_ne_true]

theorem trimmed_prefix (cs : List Char) : trimmed cs <+: cs := by
  rw [trimmed]
  split
  · exact List.prefix_rfl
  · rw [← List.reverse_suffix, List.reverse_reverse]
    exact List.dropWhile_suffix _

/-- Only slashes are trimmed. -/
theorem mem_trimmed_iff {c : Char} (hc : c ≠ '/') (cs : List Char) : c ∈ trimmed cs ↔ c ∈ cs := by
  induction cs using List.reverseRecOn with
  | nil => rfl
  | append_singleton cs d ih =>
    by_cases hd : d = '/'
    · subst hd
      cases hall : cs.all (· == '/') with
      | true =>
        have hself : trimmed (cs ++ ['/']) = cs ++ ['/'] := by
          rw [trimmed, List.all_append, hall]; rfl
        rw [hself]
      | false => rw [trimmed_of_slash hall, ih]; simp [hc]
    · rw [trimmed_of_last cs hd]

theorem trimmed_eq_nil_iff {cs : List Char} : trimmed cs = [] ↔ cs = [] := by
  constructor
  · intro h
    cases hall : cs.all (· == '/') with
    | true => rwa [trimmed, hall] at h
    | false =>
      obtain ⟨c, hc, hne⟩ := List.all_eq_false.1 hall
      have hmem := (mem_trimmed_iff (by simpa using hne) cs).2 hc
      rw [h] at hmem
      cases hmem
  · rintro rfl; rfl

/-- A name is joined to nothing, to a path that ends in a slash, or to another one with a slash. -/
theorem joinChars_cases {name : List Char} (h : '/' ∉ name) (dir : List Char) :
    dir = [] ∧ joinChars dir name = name ∨
    (∃ front, dir = front ++ ['/'] ∧ joinChars dir name = front ++ '/' :: name) ∨
    ∃ front c, c ≠ '/' ∧ dir = front ++ [c] ∧ joinChars dir name = dir ++ '/' :: name := by
  have hhead : name.head? ≠ some '/' := fun hc => h (List.mem_of_head? hc)
  rw [joinChars, if_neg hhead]
  rcases List.eq_nil_or_concat dir with rfl | ⟨front, c, rfl⟩
  · exact .inl ⟨rfl, rfl⟩
  · rw [List.concat_eq_append, List.getLast?_concat]
    by_cases hc : c = '/'
    · subst hc
      exact .inr (.inl ⟨front, rfl, by simp⟩)
    · exact .inr (.inr ⟨front, c, hc, rfl, by simp [hc]⟩)

/-- A joined path is split into the name and the directory again. -/
theorem split_joinChars {name : List Char} (h : '/' ∉ name) (dir : List Char) :
    baseChars (joinChars dir name) = name ∧ dirChars (joinChars dir name) = trimmed dir := by
  have hslash : ∀ front, baseChars (front ++ ['/']) = [] ∧
      headChars (front ++ ['/']) = front ++ ['/'] := by
    intro front
    simp [baseChars, headChars]
  rw [dirChars]
  rcases joinChars_cases h dir with ⟨rfl, heq⟩ | ⟨front, rfl, heq⟩ | ⟨front, c, hc, rfl, heq⟩
  · obtain ⟨hbase, hhead⟩ := baseChars_append h []
    rw [heq, ← List.nil_append name, hbase, hhead]
    exact ⟨rfl, rfl⟩
  · obtain ⟨hbase, hhead⟩ := baseChars_append h (front ++ ['/'])
    rw [heq, List.append_cons, hbase, hhead, (hslash front).1, (hslash front).2]
    exact ⟨rfl, rfl⟩
  · obtain ⟨hbase, hhead⟩ := baseChars_append h (front ++ [c] ++ ['/'])
    have hall : (front ++ [c]).all (· == '/') = false := by simp [hc]
    rw [heq, List.append_cons, hbase, hhead, (hslash _).1, (hslash _).2, trimmed_of_slash hall]
    exact ⟨rfl, rfl⟩

end Path

/-! ## Directories by their paths -/

namespace Files

variable {fs : Files} {cs : List Char} {d here p : Place} {name : String} {ns : List String}

/-- A path of names leads to a directory. -/
def Reaches (fs : Files) (cs : List Char) (d : Place) : Prop :=
  fs.walk (start cs) ((names cs).map String.ofList) = .ok d ∧ fs.node? d = some .dir

/-- The name of nothing leads from a directory to itself. -/
theorem walk_empty_iff : fs.walk here [""] = .ok d ↔ fs.node? here = some .dir ∧ d = here := by
  rw [walk_cons]
  simp only [Leads, true_or, if_true]
  constructor
  · rintro ⟨hdir, _, rfl, ⟨⟩⟩; exact ⟨hdir, rfl⟩
  · rintro ⟨hdir, rfl⟩; exact ⟨hdir, d, rfl, rfl⟩

/-- The last name of a walk starts at a directory. -/
theorem walk_concat_iff : fs.walk here (ns ++ [name]) = .ok p ↔
    ∃ d, (fs.walk here ns = .ok d ∧ fs.node? d = some .dir) ∧ Leads d name p := by
  rw [walk_append]
  refine exists_congr fun d => ?_
  rw [walk_cons, and_assoc]
  refine and_congr_right fun _ => and_congr_right fun _ => ?_
  constructor
  · rintro ⟨_, hleads, ⟨⟩⟩; exact hleads
  · intro hleads; exact ⟨p, hleads, rfl⟩

theorem start_append_of_ne_nil (hne : cs ≠ []) (rest : List Char) :
    start (cs ++ rest) = start cs := by
  cases cs with
  | nil => exact absurd rfl hne
  | cons c cs => rfl

theorem reaches_slash_iff : fs.Reaches (cs ++ ['/']) d ↔
    fs.walk (start (cs ++ ['/'])) ((names cs).map String.ofList) = .ok d ∧
      fs.node? d = some .dir := by
  rw [Reaches, Path.names_append_slash, List.map_append, walk_append]
  constructor
  · rintro ⟨⟨d', hwalk, hlast⟩, hdir⟩
    obtain ⟨-, rfl⟩ := walk_empty_iff.1 hlast
    exact ⟨hwalk, hdir⟩
  · rintro ⟨hwalk, hdir⟩
    exact ⟨⟨d, hwalk, walk_empty_iff.2 ⟨hdir, rfl⟩⟩, hdir⟩

theorem reaches_append_slash (hne : cs ≠ []) : fs.Reaches (cs ++ ['/']) d ↔ fs.Reaches cs d := by
  rw [reaches_slash_iff, start_append_of_ne_nil hne, Reaches]

/-- Slashes at the end of a path do not matter. -/
theorem reaches_trimmed : fs.Reaches (trimmed cs) d ↔ fs.Reaches cs d := by
  induction cs using List.reverseRecOn with
  | nil => rfl
  | append_singleton cs c ih =>
    by_cases hc : c = '/'
    · subst hc
      cases hall : cs.all (· == '/') with
      | true =>
        have hself : trimmed (cs ++ ['/']) = cs ++ ['/'] := by
          rw [trimmed, List.all_append, hall]; rfl
        rw [hself]
      | false =>
        have hne : cs ≠ [] := by rintro rfl; cases hall
        rw [Path.trimmed_of_slash hall, ih, reaches_append_slash hne]
    · rw [Path.trimmed_of_last cs hc]

theorem Acceptable.of_prefix {cs cs' : List Char} (h : Acceptable cs') (hp : cs <+: cs') :
    Acceptable cs := by
  obtain ⟨rest, rfl⟩ := hp
  refine ⟨?_, Nat.lt_of_le_of_lt ?_ h.2⟩
  · have hask := h.1
    simp only [askable, List.contains_eq_mem, List.mem_append, Bool.not_eq_true',
      decide_eq_false_iff_not, not_or] at hask ⊢
    exact hask.1
  · rw [String.ofList_append, String.utf8ByteSize_append]
    exact Nat.le_add_right ..

/-- Where a joined path leads: from the directory, or from the working directory if there is none, by
the name. -/
theorem walk_joinChars_iff {dir name : List Char} (h : '/' ∉ name) :
    fs.walk (start (joinChars dir name)) ((names (joinChars dir name)).map String.ofList) = .ok p ↔
      ∃ d, (if dir = [] then d = [] else fs.Reaches dir d) ∧ Leads d (String.ofList name) p := by
  rcases Path.joinChars_cases h dir with ⟨rfl, heq⟩ | ⟨front, rfl, heq⟩ | ⟨front, c, -, rfl, heq⟩
  · have hstart : start name = [] := by rw [← List.nil_append name, start_append h]; rfl
    have hnames : [String.ofList name] = [] ++ [String.ofList name] := rfl
    rw [heq, hstart, Path.names_of_not_mem h, List.map_singleton, hnames, walk_concat_iff]
    refine exists_congr fun d => and_congr_left fun _ => ?_
    rw [if_pos rfl]
    constructor
    · rintro ⟨⟨⟩, -⟩; rfl
    · rintro rfl; exact ⟨rfl, rfl⟩
  · have hne : front ++ ['/'] ≠ [] := by simp
    rw [heq, Path.names_append_slash, Path.names_of_not_mem h, List.map_append, List.map_singleton,
      walk_concat_iff, List.append_cons, start_append_of_ne_nil hne]
    refine exists_congr fun d => and_congr_left fun _ => ?_
    rw [if_neg hne, reaches_slash_iff]
  · have hne : front ++ [c] ≠ [] := by simp
    rw [heq, Path.names_append_slash, Path.names_of_not_mem h, List.map_append, List.map_singleton,
      walk_concat_iff, start_append_of_ne_nil hne]
    refine exists_congr fun d => and_congr_left fun _ => ?_
    rw [if_neg hne, Reaches]

end Files

/-! ## The folder -/

namespace Family

open Files (Acceptable Reaches)

variable {fs : Files} {dir : String} {d p : Place}

/-- The directory of the tests, without slashes behind it. Where no directory is given it is the working
directory. -/
def folder (dir : String) : String :=
  if dir = "" then "." else String.ofList (trimmed dir.toList)

/-- The place of the folder, when it is there. -/
def FolderAt (fs : Files) (dir : String) (d : Place) : Prop :=
  fs.locate (folder dir) = .ok d ∧ fs.node? d = some .dir

theorem folderAt_iff : FolderAt fs dir d ↔ Acceptable (trimmed dir.toList) ∧
    if dir.toList = [] then d = [] else Reaches fs dir.toList d := by
  by_cases hne : dir = ""
  · subst hne
    have hlocate : fs.locate (folder "") = .ok [] := rfl
    have hacc : Acceptable (trimmed "".toList) := ⟨by decide, by decide⟩
    rw [FolderAt, hlocate, if_pos (show "".toList = [] from rfl)]
    constructor
    · rintro ⟨⟨⟩, -⟩; exact ⟨hacc, rfl⟩
    · rintro ⟨-, rfl⟩; exact ⟨rfl, rfl⟩
  · have hlist : dir.toList ≠ [] := by simpa using hne
    have htrimmed : trimmed dir.toList ≠ [] := by rwa [Ne, Path.trimmed_eq_nil_iff]
    rw [FolderAt, folder, if_neg hne, if_neg hlist, Files.locate_eq_ok_iff htrimmed, and_assoc,
      ← Files.reaches_trimmed, Reaches]

theorem trimmed_prefix_joinChars {name : List Char} (h : '/' ∉ name) (dir : List Char) :
    trimmed dir <+: joinChars dir name := by
  refine (Path.trimmed_prefix dir).trans ?_
  rcases Path.joinChars_cases h dir with ⟨rfl, heq⟩ | ⟨front, rfl, heq⟩ | ⟨front, c, -, rfl, heq⟩
  · exact List.nil_prefix
  · rw [heq, List.append_cons front '/' name]; exact List.prefix_append ..
  · rw [heq]; exact List.prefix_append ..

/-- A name below the directory of the tests is a name in the folder. -/
theorem locate_join_iff {name : List Char} (h : '/' ∉ name) (hname : Path.Dotted (String.ofList name)) :
    fs.locate (Path.join dir (String.ofList name)) = .ok p ↔
      Acceptable (joinChars dir.toList name) ∧ (String.ofList name).utf8ByteSize ≤ Files.nameLimit ∧
        ∃ d, FolderAt fs dir d ∧ p = d ++ [String.ofList name] := by
  have hne : joinChars dir.toList name ≠ [] := by
    rcases Path.joinChars_cases h dir.toList with ⟨-, heq⟩ | ⟨front, -, heq⟩ | ⟨front, c, -, -, heq⟩
    · rw [heq]; rintro rfl; exact absurd hname.1 (by simp)
    · simp [heq]
    · simp [heq]
  rw [Path.join, String.toList_ofList, Files.locate_eq_ok_iff hne, Files.walk_joinChars_iff h]
  refine and_congr_right fun hacc => ?_
  have htrimmed := hacc.of_prefix (trimmed_prefix_joinChars h dir.toList)
  simp only [folderAt_iff, Files.leads_of_dotted hname, htrimmed, true_and]
  constructor
  · rintro ⟨d, hd, hsize, hp⟩; exact ⟨hsize, d, hd, hp⟩
  · rintro ⟨hsize, d, hd, hp⟩; exact ⟨d, hd, hsize, hp⟩

end Family

/-! ## What is listed -/

namespace Files

variable {fs : Files} {d p : Place} {path name : String}

/-- The name under which a place stands in a directory. -/
def nameBelow (d p : Place) : Option String := if p.dropLast = d then p.getLast? else none

theorem nameBelow_eq_some_iff : nameBelow d p = some name ↔ p = d ++ [name] := by
  rcases List.eq_nil_or_concat p with rfl | ⟨front, last, rfl⟩
  · simp [nameBelow]
  · rw [nameBelow, List.concat_eq_append, List.dropLast_concat, List.getLast?_concat]
    constructor
    · intro h
      split at h
      · rename_i hd; cases h; rw [hd]
      · cases h
    · intro h
      obtain ⟨rfl, hlast⟩ := List.append_inj' h rfl
      cases hlast
      exact if_pos rfl

/-- A directory lists the places below it by their names. -/
theorem list_of_locate (hl : fs.locate path = .ok d) (hd : fs.node? d = some .dir) :
    (fs.list path).map (·.1) = (fs.entries.map (·.1)).filterMap (nameBelow d) := by
  rw [list, hl]
  simp only [hd, beq_self_eq_true, if_true, List.map_filterMap, List.filterMap_map]
  refine List.filterMap_congr fun e _ => ?_
  unfold nameBelow
  rcases List.eq_nil_or_concat e.1 with he | ⟨front, last, he⟩
  · simp [he]
  · simp [he]

theorem isSome_node?_iff (h : standing? p = none) :
    (fs.node? p).isSome = true ↔ p ∈ fs.entries.map (·.1) := by
  rw [node?, h, Option.none_or, Option.isSome_map, List.find?_isSome]
  simp

end Files

namespace Family

open Files (Acceptable nameBelow)

variable {fs : Files} {dir : String} {d : Place} {name : List Char}

/-- The names in the folder, in the order in which they are listed. -/
def namesIn (fs : Files) (dir : String) : List (List Char) :=
  (fs.list (folder dir)).map fun e => e.1.toList

theorem namesIn_of_folderAt (h : FolderAt fs dir d) : namesIn fs dir =
    ((fs.entries.map (·.1)).filterMap (nameBelow d)).map String.toList := by
  rw [← Files.list_of_locate h.1 h.2, namesIn, List.map_map]; rfl

theorem namesIn_of_not_folderAt (h : ∀ d, ¬ FolderAt fs dir d) : namesIn fs dir = [] := by
  rw [namesIn, Files.list]
  cases hl : fs.locate (folder dir) with
  | error e => rfl
  | ok d =>
    have hd : (fs.node? d == some .dir) = false := beq_eq_false_iff_ne.2 fun hd => h d ⟨hl, hd⟩
    simp [hd]

theorem mem_namesIn_iff : name ∈ namesIn fs dir ↔
    ∃ d, FolderAt fs dir d ∧ d ++ [String.ofList name] ∈ fs.entries.map (·.1) := by
  constructor
  · intro hmem
    by_cases h : ∃ d, FolderAt fs dir d
    · obtain ⟨d, hd⟩ := h
      rw [namesIn_of_folderAt hd] at hmem
      obtain ⟨s, hs, rfl⟩ := List.mem_map.1 hmem
      obtain ⟨p, hp, hname⟩ := List.mem_filterMap.1 hs
      rw [Files.nameBelow_eq_some_iff] at hname
      rw [String.ofList_toList]
      exact ⟨d, hd, hname ▸ hp⟩
    · rw [namesIn_of_not_folderAt fun d hd => h ⟨d, hd⟩] at hmem
      cases hmem
  · rintro ⟨d, hd, hmem⟩
    rw [namesIn_of_folderAt hd]
    refine List.mem_map.2 ⟨String.ofList name, List.mem_filterMap.2 ⟨_, hmem, ?_⟩, String.toList_ofList⟩
    exact Files.nameBelow_eq_some_iff.2 rfl

/-- No name is listed twice. -/
theorem nodup_namesIn (hfs : fs.Proper) (dir : String) : (namesIn fs dir).Nodup := by
  by_cases h : ∃ d, FolderAt fs dir d
  · obtain ⟨d, hd⟩ := h
    rw [namesIn_of_folderAt hd]
    refine List.Nodup.map (fun _ _ => String.toList_inj.1) (hfs.distinct.filterMap ?_)
    intro p q name hp hq
    rw [Option.mem_def, Files.nameBelow_eq_some_iff] at hp hq
    rw [hp, hq]
  · rw [namesIn_of_not_folderAt fun d hd => h ⟨d, hd⟩]
    exact List.nodup_nil

theorem properName_of_mem_namesIn (hfs : fs.Proper) (h : name ∈ namesIn fs dir) :
    Files.properName (String.ofList name) = true := by
  obtain ⟨d, -, hmem⟩ := mem_namesIn_iff.1 h
  obtain ⟨e, he, heq⟩ := List.mem_map.1 hmem
  have hnamed := hfs.named e he
  rw [heq, List.getLast?_concat] at hnamed
  exact hnamed

/-- A file that has a name with a dot is there exactly if the folder lists it and its path is short
enough to be asked for. -/
theorem present_join_iff (hfs : fs.Proper) (h : '/' ∉ name)
    (hname : Path.Dotted (String.ofList name)) :
    fs.present (Path.join dir (String.ofList name)) = true ↔
      Acceptable (joinChars dir.toList name) ∧ name ∈ namesIn fs dir := by
  constructor
  · intro hp
    rw [Files.present] at hp
    cases hl : fs.locate (Path.join dir (String.ofList name)) with
    | error e => rw [hl] at hp; cases hp
    | ok p =>
      rw [hl] at hp
      obtain ⟨hacc, -, d, hd, rfl⟩ := (locate_join_iff h hname).1 hl
      refine ⟨hacc, mem_namesIn_iff.2 ⟨d, hd, ?_⟩⟩
      exact (Files.isSome_node?_iff (Files.standing?_of_dotted d hname)).1 hp
  · rintro ⟨hacc, hmem⟩
    have hproper := properName_of_mem_namesIn hfs hmem
    obtain ⟨d, hd, hplace⟩ := mem_namesIn_iff.1 hmem
    have hsize : (String.ofList name).utf8ByteSize ≤ Files.nameLimit := by
      simp only [Files.properName, Bool.and_eq_true, decide_eq_true_eq] at hproper
      exact hproper.2
    rw [Files.present, (locate_join_iff h hname).2 ⟨hacc, hsize, d, hd, rfl⟩]
    exact (Files.isSome_node?_iff (Files.standing?_of_dotted d hname)).2 hplace

end Family

end PassCheck
