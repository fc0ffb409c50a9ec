/-
Files as they can be: at different places, each with a name that a file can have. Writing, removing and
making directories keep files so, since a path leads to places with such names only: what stands in
front of them are the root and the directories above, which are no files.
-/
import PassCheck.Proofs.World.Files

namespace PassCheck

/-- The names of a path are cut out of it at the slashes. -/
theorem Path.of_mem_names {cs : List Char} :
    ∀ name ∈ names cs, '/' ∉ name ∧ ∀ c ∈ name, c ∈ cs := by
  induction cs with
  | nil => simp [names]
  | cons d cs ih =>
    rw [names]
    split
    · rintro name hname
      rcases List.mem_cons.1 hname with rfl | hname
      · exact ⟨List.not_mem_nil, List.nil_subset _⟩
      · exact ⟨(ih name hname).1, fun c hc => List.mem_cons_of_mem d ((ih name hname).2 c hc)⟩
    · rename_i hd
      have hd : '/' ≠ d := fun he => hd (beq_iff_eq.2 he.symm)
      split
      · intro name hname
        cases List.mem_singleton.1 hname
        exact ⟨by simpa using hd, fun c hc => List.mem_singleton.1 hc ▸ List.mem_cons_self⟩
      · rename_i n ns heq
        rw [heq] at ih
        obtain ⟨⟨hslash, hsub⟩, hns⟩ := List.forall_mem_cons.1 ih
        refine List.forall_mem_cons.2 ⟨⟨?_, ?_⟩, fun name hname => ?_⟩
        · rw [List.mem_cons, not_or]; exact ⟨hd, hslash⟩
        · intro c hc
          rcases List.mem_cons.1 hc with rfl | hc
          · exact List.mem_cons_self
          · exact List.mem_cons_of_mem d (hsub c hc)
        · exact ⟨(hns name hname).1, fun c hc => List.mem_cons_of_mem d ((hns name hname).2 c hc)⟩

namespace Files

variable {fs fs' : Files} {p : Place} {path : String}

/-- A name that a file can have. -/
def properName (name : String) : Bool :=
  name != "" && name != "." && name != ".." && !name.toList.contains '/' && askable name.toList &&
    decide (name.utf8ByteSize ≤ nameLimit)

/-- Files at different places, each with a name that it can have. -/
structure Proper (fs : Files) : Prop where
  distinct : (fs.entries.map (·.1)).Nodup
  named : ∀ e ∈ fs.entries, e.1.getLast?.any properName = true

theorem proper_empty : empty.Proper := ⟨List.nodup_nil, nofun⟩

theorem Proper.put (h : fs.Proper) (hp : p.getLast?.any properName = true) (n : Node) :
    (fs.put p n).Proper := by
  unfold Files.put
  split
  · have hplaces : ∀ e : Place × Node, (if e.1 == p then (p, n) else e).1 = e.1 := by
      intro e
      split
      · rename_i he; exact (beq_iff_eq.1 he).symm
      · rfl
    refine ⟨?_, fun e he => ?_⟩
    · simp only [List.map_map, Function.comp_def, hplaces]
      exact h.distinct
    · obtain ⟨e', he', rfl⟩ := List.mem_map.1 he
      rw [hplaces]
      exact h.named e' he'
  · rename_i hnew
    refine ⟨?_, fun e he => ?_⟩
    · rw [List.map_append, List.map_singleton, List.nodup_append]
      refine ⟨h.distinct, by simp, fun q hq q' hq' => ?_⟩
      cases List.mem_singleton.1 hq'
      rintro rfl
      refine hnew ?_
      obtain ⟨e, he, heq⟩ := List.mem_map.1 hq
      exact List.any_eq_true.2 ⟨e, he, beq_iff_eq.2 heq⟩
    · rcases List.mem_append.1 he with he | he
      · exact h.named e he
      · cases List.mem_singleton.1 he; exact hp

theorem Proper.erase (h : fs.Proper) (p : Place) : (fs.erase p).Proper :=
  ⟨(List.filter_sublist.map _).nodup h.distinct, fun e he => h.named e (List.mem_of_mem_filter he)⟩

/-- A place that walks lead to: proper names below the root or a directory above. -/
def Walked (p : Place) : Prop :=
  ∃ base below, (Place.isAbove base = true ∨ base = Place.root) ∧
    (∀ name ∈ below, properName name = true) ∧ p = base ++ below

theorem Walked.parent (h : Walked p) : Walked p.parent := by
  obtain ⟨base, below, hbase, hbelow, rfl⟩ := h
  unfold Place.parent
  split
  · exact ⟨Place.root, [], .inr rfl, List.forall_mem_nil _, rfl⟩
  · rename_i hroot
    split
    · rename_i habove
      exact ⟨base ++ below ++ [".."], [], .inl (by simp [Place.isAbove] at habove ⊢; exact habove),
        List.forall_mem_nil _, by simp⟩
    · rename_i habove
      rcases List.eq_nil_or_concat below with rfl | ⟨front, name, rfl⟩
      · simp only [List.append_nil] at hroot habove
        rcases hbase with hbase | rfl
        · exact absurd hbase habove
        · simp at hroot
      · refine ⟨base, front, hbase, fun m hm => hbelow m (by simp [hm]), ?_⟩
        rw [List.concat_eq_append, ← List.append_assoc, List.dropLast_concat]

/-- A step by a name of a path that can be asked for leads on to such a place. -/
theorem Walked.leads {next : Place} (h : Walked p) (hslash : '/' ∉ name.toList)
    (hask : askable name.toList = true) (hleads : Leads p name next) : Walked next := by
  unfold Leads at hleads
  split at hleads
  · rw [hleads]; exact h
  · rename_i hdot
    split at hleads
    · rw [hleads]; exact h.parent
    · rename_i hup
      obtain ⟨hsize, rfl⟩ := hleads
      obtain ⟨base, below, hbase, hbelow, rfl⟩ := h
      refine ⟨base, below ++ [name], hbase, fun m hm => ?_, List.append_assoc ..⟩
      rcases List.mem_append.1 hm with hm | hm
      · exact hbelow m hm
      · cases List.mem_singleton.1 hm
        rw [not_or] at hdot
        simp [properName, hdot, hup, hslash, hask, hsize]

theorem Walked.walk {ns : List String} (h : Walked p) (hns : ∀ name ∈ ns, '/' ∉ name.toList ∧
    askable name.toList = true) {q : Place} (hwalk : fs.walk p ns = .ok q) : Walked q := by
  induction ns generalizing p with
  | nil => cases hwalk; exact h
  | cons name ns ih =>
    obtain ⟨⟨hslash, hask⟩, hns⟩ := List.forall_mem_cons.1 hns
    obtain ⟨-, next, hleads, hwalk⟩ := walk_cons.1 hwalk
    exact ih (h.leads hslash hask hleads) hns hwalk

theorem walked_of_locate (h : fs.locate path = .ok p) : Walked p := by
  have hne : path.toList ≠ [] := by
    intro hnil
    rw [locate, hnil] at h
    simp [askable] at h
  rw [← String.ofList_toList (s := path)] at h
  obtain ⟨⟨hask, -⟩, h⟩ := (locate_eq_ok_iff hne).1 h
  have hstart : Walked (start path.toList) := by
    unfold start
    split
    · exact ⟨Place.root, [], .inr rfl, List.forall_mem_nil _, rfl⟩
    · exact ⟨[], [], .inl rfl, List.forall_mem_nil _, rfl⟩
  refine hstart.walk (fun name hname => ?_) h
  obtain ⟨cs, hcs, rfl⟩ := List.mem_map.1 hname
  obtain ⟨hslash, hsub⟩ := Path.of_mem_names cs hcs
  rw [String.toList_ofList]
  refine ⟨hslash, ?_⟩
  simp only [askable, List.contains_eq_mem, Bool.not_eq_true', decide_eq_false_iff_not] at hask ⊢
  exact fun hmem => hask (hsub _ hmem)

/-- Where a file can be put it has a proper name. -/
theorem Walked.named (h : Walked p) (hdir : fs.node? p ≠ some .dir) :
    p.getLast?.any properName = true := by
  obtain ⟨base, below, hbase, hbelow, rfl⟩ := h
  rcases List.eq_nil_or_concat below with rfl | ⟨front, name, rfl⟩
  · refine absurd ?_ hdir
    have hstand : standing? base = some .dir := by
      unfold standing?
      rw [if_pos (by simpa using hbase)]
    rw [List.append_nil, node?, hstand]; rfl
  · rw [List.concat_eq_append, ← List.append_assoc, List.getLast?_concat]
    exact hbelow name (by simp)

/-! ## Operations -/

theorem Proper.write {content : ByteArray} (h : fs.Proper)
    (hw : fs.write path content = .ok fs') : fs'.Proper := by
  obtain ⟨p, hl, hdir, rfl⟩ := write_eq_ok_iff.1 hw
  exact h.put ((walked_of_locate hl).named hdir) _

theorem Proper.makeDir {cs : List Char} (h : fs.Proper) (hm : fs.makeDir cs = .ok fs') :
    fs'.Proper := by
  cases hl : fs.locate (String.ofList (Path.trimmed cs)) with
  | error e => rw [Files.makeDir, hl] at hm; cases hm
  | ok p =>
    rw [Files.makeDir, hl] at hm
    replace hm : (if (fs.node? p).isSome then .error .fileExists else .ok (fs.put p .dir) :
      Except Failure Files) = .ok fs' := hm
    split at hm
    · cases hm
    · rename_i hnone
      have hfree : fs.node? p ≠ some .dir := fun hdir => hnone (by rw [hdir]; rfl)
      cases hm
      exact h.put ((walked_of_locate hl).named hfree) _

theorem Proper.remove (h : fs.Proper) (hr : fs.remove path = .ok fs') : fs'.Proper := by
  cases hl : fs.locate path with
  | error e => rw [Files.remove, hl] at hr; cases hr
  | ok p =>
    rw [Files.remove, hl] at hr
    simp only [bind, Except.bind] at hr
    split at hr
    · cases hr
    · cases hr
    · cases hr; exact h.erase p

/-- Files that come about from nothing by writing, making directories and removing. -/
inductive Made : Files → Prop
  | empty : Made .empty
  | write {fs fs' : Files} {path : String} {content : ByteArray} : Made fs →
    fs.write path content = .ok fs' → Made fs'
  | makeDir {fs fs' : Files} {cs : List Char} : Made fs → fs.makeDir cs = .ok fs' → Made fs'
  | remove {fs fs' : Files} {path : String} : Made fs → fs.remove path = .ok fs' → Made fs'

/-- However files come about, they are proper. -/
theorem Made.proper (h : Made fs) : fs.Proper := by
  induction h with
  | empty => exact proper_empty
  | write _ hw ih => exact ih.write hw
  | makeDir _ hm ih => exact ih.makeDir hm
  | remove _ hr ih => exact ih.remove hr

end Files

end PassCheck
