/-
Paths that differ in the tail of their last name only. Such paths lead through the same directories
to one folder, so what is known of one is known of the others. And writing a file where no directory
stands leaves every walk as it was.
-/
import PassCheck.World.Files
import Mathlib.Data.Bool.Basic
import Mathlib.Data.List.Basic
import Mathlib.Tactic.Common

namespace PassCheck

/-! ## Names of a path -/

theorem Path.names_of_not_mem : ∀ {cs : List Char}, '/' ∉ cs → names cs = [cs]
  | [], _ => rfl
  | c :: cs, h => by
    rw [List.mem_cons, not_or] at h
    have hc : (c == '/') = false := beq_eq_false_iff_ne.2 (Ne.symm h.1)
    rw [names, hc, names_of_not_mem h.2]; rfl

/-- A tail without slashes only extends the last name. -/
theorem Path.exists_names_append (cs : List Char) :
    ∃ ns b, ∀ tail, '/' ∉ tail → names (cs ++ tail) = ns ++ [b ++ tail] := by
  induction cs with
  | nil => exact ⟨[], [], fun tail h => names_of_not_mem h⟩
  | cons c cs ih =>
    obtain ⟨ns, b, ih⟩ := ih
    cases hc : c == '/' with
    | true => exact ⟨[] :: ns, b, fun tail h => by rw [List.cons_append, names, hc, ih tail h]; rfl⟩
    | false =>
      cases ns with
      | nil =>
        exact ⟨[], c :: b, fun tail h => by rw [List.cons_append, names, hc, ih tail h]; rfl⟩
      | cons n ns =>
        exact ⟨(c :: n) :: ns, b, fun tail h => by rw [List.cons_append, names, hc, ih tail h]; rfl⟩

/-- A name that has a dot and is more than dots. -/
def Path.Dotted (name : String) : Prop := '.' ∈ name.toList ∧ ∃ c ∈ name.toList, c ≠ '.'

/-- The tail of a dotted name. -/
structure Path.IsTail (tail : List Char) : Prop where
  noSlash : '/' ∉ tail
  dot : '.' ∈ tail
  other : ∃ c ∈ tail, c ≠ '.'

theorem Path.IsTail.dotted {tail : List Char} (h : IsTail tail) (b : List Char) :
    Dotted (String.ofList (b ++ tail)) := by
  obtain ⟨c, hc, hne⟩ := h.other
  rw [Dotted, String.toList_ofList]
  exact ⟨List.mem_append_right b h.dot, c, List.mem_append_right b hc, hne⟩

theorem Path.IsTail.append_ne_nil {tail : List Char} (h : IsTail tail) (cs : List Char) :
    cs ++ tail ≠ [] := by
  intro hnil
  rw [List.append_eq_nil_iff] at hnil
  rw [hnil.2] at h
  exact absurd h.dot nofun

namespace Files

variable {fs fs' : Files} {p q here : Place} {names : List String} {name : String}

/-! ## Walks -/

/-- Where a name leads from a directory. -/
def Leads (here : Place) (name : String) (next : Place) : Prop :=
  if name = "" ∨ name = "." then next = here
  else if name = ".." then next = here.parent
  else name.utf8ByteSize ≤ nameLimit ∧ next = here ++ [name]

/-- One step of a walk starts at a directory and goes where the name leads. -/
theorem walk_cons : fs.walk here (name :: names) = .ok p ↔
    fs.node? here = some .dir ∧ ∃ next, Leads here name next ∧ fs.walk next names = .ok p := by
  rw [walk]
  unfold Leads
  cases fs.node? here with
  | none => simp
  | some node =>
    cases node with
    | file c => simp
    | dir =>
      simp only [Bool.or_eq_true, beq_iff_eq, true_and]
      split
      · simp
      · split
        · simp
        · split
          · simp; omega
          · rename_i hle; simp [Nat.le_of_not_lt hle]

/-- Every directory of some files is a directory of others. -/
def HasDirs (fs fs' : Files) : Prop := ∀ q, fs.node? q = some .dir → fs'.node? q = some .dir

/-- A walk needs directories only. -/
theorem walk_of_hasDirs (hd : HasDirs fs fs') : ∀ {names : List String} {here : Place},
    fs.walk here names = .ok p → fs'.walk here names = .ok p
  | [], _, h => h
  | _ :: _, _, h => by
    obtain ⟨hdir, next, hnext, h⟩ := walk_cons.1 h
    exact walk_cons.2 ⟨hd _ hdir, next, hnext, walk_of_hasDirs hd h⟩

theorem walk_append : ∀ {ns : List String} {here : Place}, fs.walk here (ns ++ names) = .ok p ↔
    ∃ d, fs.walk here ns = .ok d ∧ fs.walk d names = .ok p
  | [], here => ⟨fun h => ⟨here, rfl, h⟩, fun ⟨_, h1, h2⟩ => by cases h1; exact h2⟩
  | n :: ns, here => by
    constructor
    · intro h
      obtain ⟨hdir, next, hnext, h⟩ := walk_cons.1 h
      obtain ⟨d, h1, h2⟩ := walk_append.1 h
      exact ⟨d, walk_cons.2 ⟨hdir, next, hnext, h1⟩, h2⟩
    · rintro ⟨d, h1, h2⟩
      obtain ⟨hdir, next, hnext, h1⟩ := walk_cons.1 h1
      exact walk_cons.2 ⟨hdir, next, hnext, walk_append.2 ⟨d, h1, h2⟩⟩

theorem locate_of_hasDirs (hd : HasDirs fs fs') {path : String} (h : fs.locate path = .ok p) :
    fs'.locate path = .ok p := by
  unfold locate at h ⊢
  simp only [] at h ⊢
  split
  · rename_i hc; rw [if_pos hc] at h; cases h
  · rename_i hc
    rw [if_neg hc] at h
    split
    · rename_i hc; rw [if_pos hc] at h; cases h
    · rename_i hc
      rw [if_neg hc] at h
      split
      · rename_i hc; rw [if_pos hc] at h; cases h
      · rename_i hc; rw [if_neg hc] at h; exact walk_of_hasDirs hd h

/-! ## Paths with a common stem -/

theorem leads_of_dotted (hname : Path.Dotted name) {next : Place} : Leads here name next ↔
    name.utf8ByteSize ≤ nameLimit ∧ next = here ++ [name] := by
  obtain ⟨-, c, hc, hne⟩ := hname
  -- a character other than a dot tells the name from the special ones
  have hspecial : ∀ s : String, (∀ x ∈ s.toList, x = '.') → name ≠ s := by
    rintro s hs rfl
    exact hne (hs c hc)
  have h1 := hspecial "" (by simp)
  have h2 := hspecial "." (by simp)
  have h3 := hspecial ".." (by simp)
  simp only [Leads, h1, h2, h3, or_self, if_false]

/-- A dotted name is the only one that leads to its place. -/
theorem eq_of_leads {name dotted : String} (hd : Path.Dotted dotted)
    (h : Leads here name (here ++ [dotted])) : name = dotted := by
  have hself : here ++ [dotted] ≠ here := by simp
  unfold Leads at h
  split at h
  · exact absurd h hself
  · split at h
    · exfalso
      unfold Place.parent at h
      split at h
      · rename_i hroot
        rw [beq_iff_eq] at hroot
        exact hself (h.trans hroot.symm)
      · split at h
        · -- no place is left upwards through a dotted name
          have : dotted = ".." := by simpa using h
          subst this
          obtain ⟨-, c, hc, hne⟩ := hd
          have hdots : ∀ x ∈ "..".toList, x = '.' := by simp
          exact hne (hdots c hc)
        · have := congrArg List.length h
          simp only [List.length_append, List.length_singleton, List.length_dropLast] at this
          omega
    · simpa using h.2.symm

/-- The start of a walk along a path. -/
def start (cs : List Char) : Place := if cs.head? = some '/' then Place.root else []

theorem start_append {tail : List Char} (h : '/' ∉ tail) (cs : List Char) :
    start (cs ++ tail) = start cs := by
  cases cs with
  | cons c cs => rfl
  | nil =>
    have hhead : tail.head? ≠ some '/' := fun hc => h (List.mem_of_head? hc)
    rw [List.nil_append, start, if_neg hhead]; rfl

/-- A path of characters and of a length that can be asked for. -/
def Acceptable (cs : List Char) : Prop :=
  askable cs = true ∧ (String.ofList cs).utf8ByteSize < pathLimit

theorem length_le_utf8ByteSize (cs : List Char) : cs.length ≤ (String.ofList cs).utf8ByteSize := by
  induction cs with
  | nil => exact Nat.zero_le _
  | cons c cs ih =>
    have h : String.ofList (c :: cs) = String.singleton c ++ String.ofList cs := by
      rw [← String.toList_inj]; simp
    have := c.utf8Size_pos
    rw [h, String.utf8ByteSize_append, String.utf8ByteSize_singleton, List.length_cons]
    omega

theorem utf8ByteSize_append_le {ending ending' : List Char} (cs : List Char)
    (h : (String.ofList ending').utf8ByteSize ≤ (String.ofList ending).utf8ByteSize) :
    (String.ofList (cs ++ ending')).utf8ByteSize ≤ (String.ofList (cs ++ ending)).utf8ByteSize := by
  rw [String.ofList_append, String.ofList_append, String.utf8ByteSize_append,
    String.utf8ByteSize_append]
  omega

/-- A path may get an extension that is no longer. -/
theorem Acceptable.shorten {cs ending ending' : List Char} (h : Acceptable (cs ++ ending))
    (hask : askable ending' = true)
    (hsize : (String.ofList ending').utf8ByteSize ≤ (String.ofList ending).utf8ByteSize) :
    Acceptable (cs ++ ending') := by
  refine ⟨?_, Nat.lt_of_le_of_lt (utf8ByteSize_append_le cs hsize) h.2⟩
  have hcs := h.1
  simp only [askable, List.contains_eq_mem, List.mem_append, Bool.not_eq_true',
    decide_eq_false_iff_not, not_or] at hcs hask ⊢
  exact ⟨hcs.1, hask⟩

theorem locate_eq_ok_iff {cs : List Char} (hne : cs ≠ []) :
    fs.locate (String.ofList cs) = .ok p ↔
      Acceptable cs ∧ fs.walk (start cs) ((Path.names cs).map String.ofList) = .ok p := by
  have hempty : cs.isEmpty = false := by simpa using hne
  rw [locate]
  simp only [String.toList_ofList, hempty, Acceptable]
  by_cases ha : askable cs = true
  · by_cases hs : pathLimit ≤ (String.ofList cs).utf8ByteSize
    · simp [ha, hs, Nat.not_lt.2 hs]
    · simp [ha, hs, Nat.not_le.1 hs, start]
  · simp [ha]

/-- Paths that differ in their last name only are walked through one directory. -/
theorem exists_leads_of_locate {cs tail b : List Char} {ns : List (List Char)} (ht : '/' ∉ tail)
    (hnames : Path.names (cs ++ tail) = ns ++ [b ++ tail])
    (h : fs.locate (String.ofList (cs ++ tail)) = .ok p) :
    ∃ d, fs.walk (start cs) (ns.map String.ofList) = .ok d ∧
      Leads d (String.ofList (b ++ tail)) p := by
  have hne : cs ++ tail ≠ [] := by
    intro hnil
    rw [hnil, locate] at h
    simp [askable] at h
  obtain ⟨-, h⟩ := (locate_eq_ok_iff hne).1 h
  rw [start_append ht, hnames, List.map_append, walk_append] at h
  obtain ⟨d, hd, h⟩ := h
  obtain ⟨-, next, h, hnext⟩ := walk_cons.1 h
  cases hnext
  exact ⟨d, hd, h⟩

/-- Paths with a common stem that differ in the tail of their last name lead to one folder. -/
theorem exists_folder (stem : List Char) :
    ∃ ns b, ∀ fs tail p, Path.IsTail tail →
      (locate fs (String.ofList (stem ++ tail)) = .ok p ↔ Acceptable (stem ++ tail) ∧
        (String.ofList (b ++ tail)).utf8ByteSize ≤ nameLimit ∧
        ∃ d, fs.walk (start stem) ns = .ok d ∧ fs.node? d = some .dir ∧
          p = d ++ [String.ofList (b ++ tail)]) := by
  obtain ⟨ns, b, hnames⟩ := Path.exists_names_append stem
  refine ⟨ns.map String.ofList, b, fun fs tail p ht => ?_⟩
  rw [locate_eq_ok_iff (ht.append_ne_nil stem), start_append ht.noSlash, hnames tail ht.noSlash,
    List.map_append, List.map_singleton, walk_append]
  refine and_congr_right fun _ => ?_
  constructor
  · rintro ⟨d, h1, h2⟩
    obtain ⟨hdir, next, hnext, h2⟩ := walk_cons.1 h2
    obtain ⟨hle, rfl⟩ := (leads_of_dotted (ht.dotted b)).1 hnext
    cases h2
    exact ⟨hle, d, h1, hdir, rfl⟩
  · rintro ⟨hle, d, h1, hdir, rfl⟩
    exact ⟨d, h1, walk_cons.2 ⟨hdir, _, (leads_of_dotted (ht.dotted b)).2 ⟨hle, rfl⟩, rfl⟩⟩

/-! ## What stands at a place -/

/-- Nothing always stands where a dotted name leads. -/
theorem standing?_of_dotted (d : Place) (hname : Path.Dotted name) :
    standing? (d ++ [name]) = none := by
  obtain ⟨hdot, c, hc, hne⟩ := hname
  -- the names of what always stands have no dot, or dots only
  have hdotless : ∀ s : String, '.' ∉ s.toList → name ≠ s := by
    rintro s hs rfl; exact hs hdot
  have hup : name ≠ ".." := by
    rintro rfl
    have : ∀ x ∈ "..".toList, x = '.' := by simp
    exact hne (this c hc)
  have hlast : ∀ p : Place, d ++ [name] = p → p.getLast? = some name := by
    rintro _ rfl; simp
  have habove : Place.isAbove (d ++ [name]) = false := by
    simp [Place.isAbove, hup]
  have hroot : (d ++ [name] == Place.root) = false := by
    refine beq_eq_false_iff_ne.2 fun h => hdotless "/" (by decide) ?_
    exact (Option.some.inj (hlast _ h)).symm
  have hsystem : ∀ s ∈ systemDirs, '.' ∉ s.toList := by decide
  unfold standing?
  rw [habove, hroot, Bool.or_self, if_neg Bool.false_ne_true]
  split
  · rename_i s h
    rw [if_neg]
    intro hmem
    have hs := hsystem s (List.contains_iff_mem.1 hmem)
    exact hdotless s hs (Option.some.inj (hlast _ h)).symm
  · rename_i h
    exact absurd (Option.some.inj (hlast _ h)).symm (hdotless "null" (by decide))
  · rfl

theorem find?_map_put (n : Node) : ∀ es : List (Place × Node),
    (es.map fun e => if e.1 == p then (p, n) else e).find? (fun e => e.1 == q) =
      if q = p then (es.find? fun e => e.1 == p).map fun _ => (p, n)
      else es.find? fun e => e.1 == q
  | [] => by split <;> rfl
  | e :: es => by
    have ih := find?_map_put n es
    rw [List.map_cons, List.find?_cons, List.find?_cons, List.find?_cons, ih]
    grind

theorem find?_append_put (n : Node) (es : List (Place × Node))
    (h : (es.any fun e => e.1 == p) = false) :
    (es ++ [(p, n)]).find? (fun e => e.1 == q) =
      if q = p then some (p, n) else es.find? fun e => e.1 == q := by
  rw [List.find?_append]
  by_cases hq : q = p
  · subst hq
    rw [if_pos rfl, List.find?_eq_none.2 (by simpa using h)]
    simp
  · rw [if_neg hq, List.find?_singleton, beq_eq_false_iff_ne.2 (Ne.symm hq)]
    simp

/-- A node that is put somewhere stands there and nowhere else. -/
theorem node?_put {n : Node} (h : standing? p = none) :
    (fs.put p n).node? q = if q = p then some n else fs.node? q := by
  unfold put node?
  cases hany : fs.entries.any fun e => e.1 == p with
  | true =>
    obtain ⟨e, he⟩ : ∃ e, fs.entries.find? (fun e => e.1 == p) = some e := by
      rw [← Option.isSome_iff_exists, List.find?_isSome]
      simpa using hany
    rw [if_pos rfl, find?_map_put]
    split
    · rename_i hq; subst hq; rw [h, he]; rfl
    · rfl
  | false =>
    rw [if_neg Bool.false_ne_true, find?_append_put n _ hany]
    split
    · rename_i hq; subst hq; rw [h]; rfl
    · rfl

/-! ## Reading and writing -/

theorem read_of_locate {path : String} (h : fs.locate path = .ok p) :
    fs.read path = (fs.node? p).elim (.error .noFile) fun node =>
      node.casesOn (.ok ·) (.error .isDirectory) := by
  unfold read
  rw [h]
  cases hn : fs.node? p with
  | none => simp [bind, Except.bind, hn]
  | some node => cases node <;> simp [bind, Except.bind, pure, Except.pure, hn]

theorem read_eq_ok_iff {path : String} {content : ByteArray} : fs.read path = .ok content ↔
    ∃ p, fs.locate path = .ok p ∧ fs.node? p = some (.file content) := by
  constructor
  · intro h
    cases hl : fs.locate path with
    | error e => rw [read, hl] at h; cases h
    | ok p =>
      rw [read_of_locate hl] at h
      cases hn : fs.node? p with
      | none => rw [hn] at h; cases h
      | some node =>
        rw [hn] at h
        cases node with
        | dir => cases h
        | file c => cases h; exact ⟨p, rfl, hn⟩
  · rintro ⟨p, hl, hn⟩
    rw [read_of_locate hl, hn]; rfl

theorem present_of_read {path : String} {content : ByteArray} (h : fs.read path = .ok content) :
    fs.present path = true := by
  obtain ⟨p, hl, hn⟩ := read_eq_ok_iff.1 h
  rw [present, hl]
  exact Option.isSome_iff_exists.2 ⟨_, hn⟩

theorem write_of_locate {path : String} (content : ByteArray) (h : fs.locate path = .ok p)
    (hn : fs.node? p ≠ some .dir) : fs.write path content = .ok (fs.put p (.file content)) := by
  unfold write
  rw [h]
  cases hp : fs.node? p with
  | none => simp [bind, Except.bind, pure, Except.pure, hp]
  | some node =>
    cases node with
    | dir => exact absurd hp hn
    | file c => simp [bind, Except.bind, pure, Except.pure, hp]

/-- A file can be written where its path leads to, unless a directory stands there. -/
theorem write_eq_ok_iff {content : ByteArray} : fs.write path content = .ok fs' ↔
    ∃ p, fs.locate path = .ok p ∧ fs.node? p ≠ some .dir ∧ fs' = fs.put p (.file content) := by
  constructor
  · intro h
    cases hl : fs.locate path with
    | error e => rw [write, hl] at h; cases h
    | ok p =>
      by_cases hd : fs.node? p = some .dir
      · rw [write, hl] at h
        simp [bind, Except.bind, hd] at h
      · rw [write_of_locate content hl hd] at h
        exact ⟨p, rfl, hd, (Except.ok.inj h).symm⟩
  · rintro ⟨p, hl, hd, rfl⟩
    exact write_of_locate content hl hd

/-- A path that leads to one place and finds the same node there reads the same. -/
theorem read_congr {path : String} (h : fs.locate path = .ok p) (h' : fs'.locate path = .ok p)
    (hn : fs'.node? p = fs.node? p) : fs'.read path = fs.read path := by
  rw [read_of_locate h, read_of_locate h', hn]

theorem isDir_of_locate {path : String} (h : fs.locate path = .ok p) (hd : fs.isDir path = false) :
    fs.node? p ≠ some .dir := by
  rw [isDir, h] at hd
  intro hn
  simp [hn] at hd

/-- What stands at a path and is no directory can be read. -/
theorem exists_read {path : String} (hd : fs.isDir path = false) (h : fs.present path = true) :
    ∃ content, fs.read path = .ok content := by
  rw [present] at h
  cases hl : fs.locate path with
  | error e => rw [hl] at h; cases h
  | ok p =>
    rw [hl] at h
    obtain ⟨node, hn⟩ := Option.isSome_iff_exists.1 h
    cases node with
    | dir => exact absurd hn (isDir_of_locate hl hd)
    | file content => exact ⟨content, read_eq_ok_iff.2 ⟨p, hl, hn⟩⟩

/-- Nothing stands at a path, or a file. -/
def AbsentOrFile (fs : Files) (path : String) : Prop :=
  fs.present path = false ∨ ∃ content, fs.read path = .ok content

theorem AbsentOrFile.exists_content {path : String} (h : fs.AbsentOrFile path)
    (hp : fs.present path = true) : ∃ content, fs.read path = .ok content := by
  rcases h with habsent | hfile
  · rw [habsent] at hp; cases hp
  · exact hfile

/-! ## Files that were rewritten -/

/-- Files that differ from others at some places only, and have the same directories. -/
structure Rewritten (changed : Place → Prop) (fs fs' : Files) : Prop where
  dirs : HasDirs fs fs'
  noDirs : HasDirs fs' fs
  same : ∀ q, ¬ changed q → fs'.node? q = fs.node? q

variable {changed : Place → Prop}

theorem Rewritten.refl (changed : Place → Prop) (fs : Files) : Rewritten changed fs fs :=
  ⟨fun _ => id, fun _ => id, fun _ _ => rfl⟩

/-- Writing a file where no directory stands changes one place. -/
theorem Rewritten.put (h : Rewritten changed fs fs') (hp : changed p) (hs : standing? p = none)
    (hn : fs'.node? p ≠ some .dir) (content : ByteArray) :
    Rewritten changed fs (fs'.put p (.file content)) := by
  refine ⟨fun q hq => ?_, fun q hq => ?_, fun q hq => ?_⟩
  · rw [node?_put hs, if_neg]
    · exact h.dirs q hq
    · rintro rfl; exact hn (h.dirs q hq)
  · rw [node?_put hs] at hq
    split at hq
    · cases hq
    · exact h.noDirs q hq
  · rw [node?_put hs, if_neg]
    · exact h.same q hq
    · rintro rfl; exact hq hp

/-- A file that was written is read back. -/
theorem read_put {path : String} (h : fs.locate path = .ok p) (hs : standing? p = none)
    (hn : fs.node? p ≠ some .dir) (content : ByteArray) :
    (fs.put p (.file content)).read path = .ok content := by
  have hr := (Rewritten.refl (· = p) fs).put rfl hs hn content
  refine read_eq_ok_iff.2 ⟨p, locate_of_hasDirs hr.dirs h, ?_⟩
  rw [node?_put hs, if_pos rfl]

end Files

end PassCheck
