/-
The values inside a value. `parts` lists a value with everything inside it, so that "no boolean
anywhere" or "every integer can be written" is a statement about all parts. Values whose integers
can all be written have a literal text, a program text and a layout.
-/
import PassCheck.Datum.Layout
import PassCheck.Sexp.Printer

namespace PassCheck.Datum

/-- Induction on a value: whatever holds of all values directly inside it holds of the value. -/
@[induction_eliminator]
theorem ind {motive : Datum → Prop} (null : motive .null) (bool : ∀ b, motive (.bool b))
    (int : ∀ n, motive (.int n)) (float : ∀ x, motive (.float x)) (str : ∀ s, motive (.str s))
    (seq : ∀ k items, (∀ d ∈ items, motive d) → motive (.seq k items))
    (dict : ∀ es, (∀ e ∈ es, motive e.1 ∧ motive e.2) → motive (.dict es))
    (obj : ∀ fs, (∀ f ∈ fs, motive f.2) → motive (.obj fs))
    (foreign : ∀ k t, motive (.foreign k t)) (d : Datum) : motive d := by
  refine @Datum.rec motive (fun items => ∀ d ∈ items, motive d)
    (fun es => ∀ e ∈ es, motive e.1 ∧ motive e.2) (fun fs => ∀ f ∈ fs, motive f.2)
    (fun e => motive e.1 ∧ motive e.2) (fun f => motive f.2)
    null bool int float str seq dict obj foreign ?_ ?_ ?_ ?_ ?_ ?_ ?_ ?_ d
  · intro d hd; cases hd
  · intro d ds h hs; exact List.forall_mem_cons.2 ⟨h, hs⟩
  · intro e he; cases he
  · intro e es h hs; exact List.forall_mem_cons.2 ⟨h, hs⟩
  · intro f hf; cases hf
  · intro f fs h hs; exact List.forall_mem_cons.2 ⟨h, hs⟩
  · intro a b ha hb; exact ⟨ha, hb⟩
  · intro a b hb; exact hb

/-! ## Parts -/

mutual

/-- A value and all values inside it. -/
def parts : Datum → List Datum
  | .seq k items => .seq k items :: partsOfItems items
  | .dict es => .dict es :: partsOfEntries es
  | .obj fs => .obj fs :: partsOfFields fs
  | d => [d]
termination_by structural d => d

/-- The parts of all items. -/
def partsOfItems : List Datum → List Datum
  | [] => []
  | d :: ds => parts d ++ partsOfItems ds
termination_by structural ds => ds

/-- The parts of all keys and values. -/
def partsOfEntries : List (Datum × Datum) → List Datum
  | [] => []
  | (k, v) :: es => parts k ++ parts v ++ partsOfEntries es
termination_by structural es => es

/-- The parts of all fields. -/
def partsOfFields : List (String × Datum) → List Datum
  | [] => []
  | (_, v) :: fs => parts v ++ partsOfFields fs
termination_by structural fs => fs

end

theorem self_mem_parts (d : Datum) : d ∈ d.parts := by
  cases d <;> simp [parts]

theorem mem_partsOfItems {x : Datum} : ∀ ds : List Datum,
    x ∈ partsOfItems ds ↔ ∃ d ∈ ds, x ∈ d.parts
  | [] => by simp [partsOfItems]
  | d :: ds => by simp [partsOfItems, mem_partsOfItems ds]

theorem mem_partsOfEntries {x : Datum} : ∀ es : List (Datum × Datum),
    x ∈ partsOfEntries es ↔ ∃ e ∈ es, x ∈ e.1.parts ∨ x ∈ e.2.parts
  | [] => by simp [partsOfEntries]
  | (k, v) :: es => by simp [partsOfEntries, mem_partsOfEntries es, or_assoc]

theorem mem_partsOfFields {x : Datum} : ∀ fs : List (String × Datum),
    x ∈ partsOfFields fs ↔ ∃ f ∈ fs, x ∈ f.2.parts
  | [] => by simp [partsOfFields]
  | (k, v) :: fs => by simp [partsOfFields, mem_partsOfFields fs]

/-- A property holds of every part of a value. -/
def Every (p : Datum → Prop) (d : Datum) : Prop := ∀ x ∈ d.parts, p x

instance (p : Datum → Prop) [DecidablePred p] (d : Datum) : Decidable (Every p d) :=
  inferInstanceAs (Decidable (∀ x ∈ d.parts, p x))

section Every

variable {p : Datum → Prop}

theorem Every.self {d : Datum} (h : Every p d) : p d := h d (self_mem_parts d)

theorem every_seq {k : SeqKind} {items : List Datum} :
    Every p (.seq k items) ↔ p (.seq k items) ∧ ∀ d ∈ items, Every p d := by
  unfold Every
  rw [parts, List.forall_mem_cons]
  refine and_congr_right fun _ => ⟨fun h d hd x hx => ?_, fun h x hx => ?_⟩
  · exact h x ((mem_partsOfItems items).2 ⟨d, hd, hx⟩)
  · obtain ⟨d, hd, hx⟩ := (mem_partsOfItems items).1 hx
    exact h d hd x hx

theorem every_dict {es : List (Datum × Datum)} :
    Every p (.dict es) ↔ p (.dict es) ∧ ∀ e ∈ es, Every p e.1 ∧ Every p e.2 := by
  unfold Every
  rw [parts, List.forall_mem_cons]
  refine and_congr_right fun _ => ⟨fun h e he => ⟨fun x hx => ?_, fun x hx => ?_⟩, fun h x hx => ?_⟩
  · exact h x ((mem_partsOfEntries es).2 ⟨e, he, .inl hx⟩)
  · exact h x ((mem_partsOfEntries es).2 ⟨e, he, .inr hx⟩)
  · obtain ⟨e, he, hx | hx⟩ := (mem_partsOfEntries es).1 hx
    · exact (h e he).1 x hx
    · exact (h e he).2 x hx

theorem every_obj {fs : List (String × Datum)} :
    Every p (.obj fs) ↔ p (.obj fs) ∧ ∀ f ∈ fs, Every p f.2 := by
  unfold Every
  rw [parts, List.forall_mem_cons]
  refine and_congr_right fun _ => ⟨fun h f hf x hx => ?_, fun h x hx => ?_⟩
  · exact h x ((mem_partsOfFields fs).2 ⟨f, hf, hx⟩)
  · obtain ⟨f, hf, hx⟩ := (mem_partsOfFields fs).1 hx
    exact h f hf x hx

end Every

/-! ## Values that can be written -/

/-- No integer of too many digits. -/
def ShortInt : Datum → Prop
  | .int n => Integer.Writable n
  | _ => True

instance : DecidablePred ShortInt
  | .int n => inferInstanceAs (Decidable (Integer.Writable n))
  | .null | .bool _ | .float _ | .str _ | .seq _ _ | .dict _ | .obj _ | .foreign _ _ => isTrue trivial

/-- Every integer inside a value is short enough to be written. -/
abbrev Writable (d : Datum) : Prop := Every ShortInt d

theorem writable_seq {k : SeqKind} {items : List Datum} :
    Writable (.seq k items) ↔ ∀ d ∈ items, Writable d := by
  rw [Writable, every_seq]
  exact ⟨fun h => h.2, fun h => ⟨trivial, h⟩⟩

theorem writable_str (s : String) : Writable (.str s) := by
  intro x hx
  cases List.mem_singleton.1 hx
  trivial

theorem writable_int {n : Int} (h : Integer.Writable n) : Writable (.int n) := by
  intro x hx
  cases List.mem_singleton.1 hx
  exact h

theorem text?_of_writable {n : Int} (h : Integer.Writable n) :
    Integer.text? n = some (Integer.decimal n) := if_pos h

/-- A partial function that is defined on all items is defined on their list. -/
theorem exists_mapM {α β : Type} {f : α → Option β} : ∀ {xs : List α},
    (∀ x ∈ xs, ∃ y, f x = some y) → ∃ ys, xs.mapM f = some ys
  | [], _ => ⟨[], rfl⟩
  | x :: xs, h => by
    obtain ⟨⟨y, hy⟩, h⟩ := List.forall_mem_cons.1 h
    obtain ⟨ys, hys⟩ := exists_mapM h
    exact ⟨y :: ys, by rw [List.mapM_cons, hy, hys]; rfl⟩

theorem literals?_eq : ∀ ds : List Datum, literals? ds = ds.mapM literal?
  | [] => rfl
  | d :: ds => by rw [literals?, literals?_eq ds, List.mapM_cons]

theorem entryLiterals?_eq : ∀ es : List (Datum × Datum), entryLiterals? es = es.mapM fun e => do
    let tk ← literal? e.1
    let tv ← literal? e.2
    return tk ++ ": " ++ tv
  | [] => rfl
  | (k, v) :: es => by
    rw [entryLiterals?, entryLiterals?_eq es, List.mapM_cons]
    cases literal? k <;> cases literal? v <;> rfl

theorem fieldLiterals?_eq : ∀ fs : List (String × Datum),
    fieldLiterals? fs = (fs.filter (·.1 ≠ "")).mapM fun f => (literal? f.2).map (f.1 ++ "=" ++ ·)
  | [] => rfl
  | (k, v) :: fs => by
    by_cases hk : k = ""
    · subst hk; rw [fieldLiterals?, fieldLiterals?_eq fs]; rfl
    · rw [fieldLiterals?, fieldLiterals?_eq fs, List.filter_cons_of_pos (by simpa using hk),
        List.mapM_cons]
      · cases literal? v <;> rfl
      · simpa using hk

/-- A value whose integers can be written has a literal text. -/
theorem literal?_of_writable {d : Datum} (h : Writable d) : ∃ t, d.literal? = some t := by
  induction d with
  | null => exact ⟨_, rfl⟩
  | bool b => cases b <;> exact ⟨_, rfl⟩
  | int n => exact ⟨_, text?_of_writable h.self⟩
  | float x => exact ⟨_, rfl⟩
  | str s => exact ⟨_, rfl⟩
  | seq k items ih =>
    obtain ⟨ts, hts⟩ := exists_mapM fun d hd => ih d hd ((every_seq.1 h).2 d hd)
    exact ⟨bracketed k ts, by rw [literal?, literals?_eq, hts]; rfl⟩
  | dict es ih =>
    have hes := (every_dict.1 h).2
    have : ∃ ts, entryLiterals? es = some ts := by
      rw [entryLiterals?_eq]
      refine exists_mapM fun e he => ?_
      obtain ⟨tk, hk⟩ := (ih e he).1 (hes e he).1
      obtain ⟨tv, hv⟩ := (ih e he).2 (hes e he).2
      exact ⟨tk ++ ": " ++ tv, by rw [hk, hv]; rfl⟩
    obtain ⟨ts, hts⟩ := this
    exact ⟨inBraces ts, by rw [literal?, hts]; rfl⟩
  | obj fs ih =>
    have hfs := (every_obj.1 h).2
    have : ∃ ts, fieldLiterals? fs = some ts := by
      rw [fieldLiterals?_eq]
      refine exists_mapM fun f hf => ?_
      have hm := (List.mem_filter.1 hf).1
      obtain ⟨t, ht⟩ := ih f hm (hfs f hm)
      exact ⟨f.1 ++ "=" ++ t, by rw [ht]; rfl⟩
    obtain ⟨ts, hts⟩ := this
    exact ⟨asNamespace ts, by rw [literal?, hts]; rfl⟩
  | foreign k t => exact ⟨_, rfl⟩

theorem display?_of_writable {d : Datum} (h : Writable d) : ∃ t, d.display? = some t := by
  cases d with
  | str s => exact ⟨s, rfl⟩
  | _ => exact literal?_of_writable h

theorem printAll?_eq : ∀ ds : List Datum, Sexp.printAll? ds = ds.mapM Sexp.print?
  | [] => rfl
  | d :: ds => by rw [Sexp.printAll?, printAll?_eq ds, List.mapM_cons]

/-- A value whose integers can be written has a program text. -/
theorem print?_of_writable {d : Datum} (h : Writable d) : ∃ t, Sexp.print? d = some t := by
  induction d with
  | bool b => cases b <;> exact ⟨_, rfl⟩
  | seq k items ih =>
    obtain ⟨ts, hts⟩ := exists_mapM fun d hd => ih d hd ((every_seq.1 h).2 d hd)
    exact ⟨"(" ++ " ".intercalate ts ++ ")", by rw [Sexp.print?, printAll?_eq, hts]; rfl⟩
  | _ => simpa only [Sexp.print?] using display?_of_writable h

/-- A value whose integers can be written can be shown in a report. -/
theorem show?_of_writable {d : Datum} (h : Writable d) : ∃ t, Sexp.show? d = some t := by
  cases d with
  | str s => exact ⟨s, rfl⟩
  | seq k items => exact print?_of_writable h
  | _ => exact literal?_of_writable h

/-! ## Layout -/

theorem ofItems?_eq : ∀ ds : List Datum,
    Block.ofItems? ds = ds.mapM fun d => (Block.ofDatum? d).map ("", ·)
  | [] => rfl
  | d :: ds => by
    rw [Block.ofItems?, ofItems?_eq ds, List.mapM_cons]
    cases Block.ofDatum? d <;> rfl

theorem ofEntries?_eq : ∀ es : List (Datum × Datum), Block.ofEntries? es = es.mapM fun e => do
    let key ← e.1.literal?
    let b ← Block.ofDatum? e.2
    return (e.1, key ++ ": ", b)
  | [] => rfl
  | (k, v) :: es => by
    rw [Block.ofEntries?, ofEntries?_eq es, List.mapM_cons]
    cases literal? k <;> cases Block.ofDatum? v <;> rfl

theorem ofFields?_eq : ∀ fs : List (String × Datum),
    Block.ofFields? fs = fs.mapM fun f => (Block.ofDatum? f.2).map (f.1 ++ "=", ·)
  | [] => rfl
  | (k, v) :: fs => by
    rw [Block.ofFields?, ofFields?_eq fs, List.mapM_cons]
    cases Block.ofDatum? v <;> rfl

theorem ofDatum?_of_writable {d : Datum} (h : Writable d) : ∃ b, Block.ofDatum? d = some b := by
  induction d with
  | str s => exact ⟨_, rfl⟩
  | seq k items ih =>
    have : ∃ bs, Block.ofItems? items = some bs := by
      rw [ofItems?_eq]
      refine exists_mapM fun d hd => ?_
      obtain ⟨b, hb⟩ := ih d hd ((every_seq.1 h).2 d hd)
      exact ⟨("", b), by rw [hb]; rfl⟩
    obtain ⟨bs, hbs⟩ := this
    exact ⟨_, by rw [Block.ofDatum?, hbs]; rfl⟩
  | dict es ih =>
    have hes := (every_dict.1 h).2
    have : ∃ bs, Block.ofEntries? es = some bs := by
      rw [ofEntries?_eq]
      refine exists_mapM fun e he => ?_
      obtain ⟨t, ht⟩ := literal?_of_writable (hes e he).1
      obtain ⟨b, hb⟩ := (ih e he).2 (hes e he).2
      exact ⟨(e.1, t ++ ": ", b), by rw [ht, hb]; rfl⟩
    obtain ⟨bs, hbs⟩ := this
    exact ⟨_, by rw [Block.ofDatum?, hbs]; rfl⟩
  | obj fs ih =>
    obtain ⟨line, hline⟩ := literal?_of_writable h
    have : ∃ bs, Block.ofFields? fs = some bs := by
      rw [ofFields?_eq]
      refine exists_mapM fun f hf => ?_
      obtain ⟨b, hb⟩ := ih f hf ((every_obj.1 h).2 f hf)
      exact ⟨(f.1 ++ "=", b), by rw [hb]; rfl⟩
    obtain ⟨bs, hbs⟩ := this
    exact ⟨_, by rw [Block.ofDatum?, hline, hbs]; rfl⟩
  | _ =>
    obtain ⟨t, ht⟩ := literal?_of_writable h
    exact ⟨.unit t, by simp only [Block.ofDatum?, ht, Option.map_some]⟩

/-- A value whose integers can be written can be laid out. -/
theorem layout?_of_writable {d : Datum} (h : Writable d) : ∃ t, d.layout? = some t := by
  obtain ⟨b, hb⟩ := ofDatum?_of_writable h
  exact ⟨_, by rw [layout?, hb]; rfl⟩

end PassCheck.Datum
