/-
Equality of values as an equivalence. `alike`, the equality inside collections, is reflexive and
transitive on all values and symmetric on values whose dictionaries and objects hold no key twice;
on values without a NaN it is the equality `same`, which is therefore an equivalence there, across
booleans, integers, floating-point numbers and nested collections.

Each kind of value has a lemma that says what is alike to it; the three laws are inductions over
these.
-/
import PassCheck.Datum.Equality
import PassCheck.Proofs.Datum.Parts
import Mathlib.Data.List.Forall2
import Mathlib.Tactic.Common

namespace PassCheck

theorem Floating.unsigned_unsigned (x : Floating) : x.unsigned.unsigned = x.unsigned := by
  cases x <;> rfl

theorem Number.unsigned_value (x : Number) : x.value.unsigned = x.value := by
  cases x with
  | int n => rfl
  | float x => exact x.unsigned_unsigned

theorem Number.same_iff (x y : Number) :
    x.same y = true ↔ x.value.isNan = false ∧ x.value = y.value := by
  rw [Number.same, Floating.same, unsigned_value, unsigned_value, Bool.and_eq_true,
    Bool.not_eq_true', beq_iff_eq]

namespace Datum

/-! ## What is alike to a value -/

theorem same_number {a b : Datum} {x : Number} (h : a.number? = some x) : same a b = true ↔
    ∃ y, b.number? = some y ∧ x.value.isNan = false ∧ x.value = y.value := by
  have hs : same a b = sameNumber a b := by
    cases a <;> first | rfl | cases h
  rw [hs, sameNumber, h]
  cases b.number? with
  | none => simp
  | some y => simp [Number.same_iff]

theorem same_int {m n : Int} : same (.int m) (.int n) = true ↔ m = n := by
  rw [same_number rfl]
  constructor
  · rintro ⟨_, ⟨⟩, -, h⟩
    exact Rat.intCast_inj.1 (Floating.exact.inj h)
  · rintro rfl
    exact ⟨_, rfl, rfl, rfl⟩

theorem sharedNan_number {a b : Datum} {x : Number} (h : a.number? = some x) :
    sharedNan a b = true ↔ ∃ y, b.number? = some y ∧ x.value.isNan = true ∧ x.value = y.value := by
  cases a with
  | float p =>
    cases h
    cases b <;> simp [sharedNan, Floating.alike, Number.value, number?] <;> cases p <;>
      simp [Floating.isNan, Floating.unsigned]
  | bool p => cases h; simp [sharedNan, Number.value, Floating.isNan]
  | int n => cases h; simp [sharedNan, Number.value, Floating.isNan]
  | _ => cases h

/-- Numbers are alike when their exact values are, a NaN being its own value. -/
theorem alike_number {a b : Datum} {x : Number} (h : a.number? = some x) :
    alike a b = true ↔ ∃ y, b.number? = some y ∧ x.value = y.value := by
  rw [alike, Bool.or_eq_true, same_number h, sharedNan_number h]
  constructor
  · rintro (⟨y, h1, -, h2⟩ | ⟨y, h1, -, h2⟩) <;> exact ⟨y, h1, h2⟩
  · rintro ⟨y, h1, h2⟩
    cases hn : x.value.isNan
    · exact .inl ⟨y, h1, rfl, h2⟩
    · exact .inr ⟨y, h1, rfl, h2⟩

theorem alike_null {b : Datum} : alike .null b = true ↔ b = .null := by
  cases b <;> simp [alike, same, sharedNan]

theorem alike_str {s : String} {b : Datum} : alike (.str s) b = true ↔ b = .str s := by
  cases b <;> simp [alike, same, sharedNan]
  exact ⟨Eq.symm, Eq.symm⟩

theorem alike_foreign {k t : String} {b : Datum} :
    alike (.foreign k t) b = true ↔ b = .foreign k t := by
  cases b <;> simp [alike, same, sharedNan]
  exact ⟨fun h => ⟨h.1.symm, h.2.symm⟩, fun h => ⟨h.1.symm, h.2.symm⟩⟩

theorem sameAll_iff : ∀ as bs : List Datum,
    sameAll as bs = true ↔ List.Forall₂ (fun a b => alike a b = true) as bs
  | [], [] => by simp [sameAll]
  | [], b :: bs => by simp [sameAll]
  | a :: as, [] => by simp [sameAll]
  | a :: as, b :: bs => by
    rw [sameAll, Bool.and_eq_true, sameAll_iff as bs, List.forall₂_cons]; rfl

theorem alike_seq {k : SeqKind} {as : List Datum} {b : Datum} : alike (.seq k as) b = true ↔
    ∃ bs, b = .seq k bs ∧ List.Forall₂ (fun a b => alike a b = true) as bs := by
  cases b with
  | seq l bs =>
    simp only [alike, same, sharedNan, Bool.or_false, Bool.and_eq_true, beq_iff_eq, sameAll_iff,
      seq.injEq]
    constructor
    · rintro ⟨rfl, h⟩; exact ⟨bs, ⟨rfl, rfl⟩, h⟩
    · rintro ⟨_, ⟨rfl, rfl⟩, h⟩; exact ⟨rfl, h⟩
  | _ => simp [alike, same, sharedNan]

/-- Two entries of dictionaries are alike in key and value. -/
def EntryAlike (e f : Datum × Datum) : Prop := alike e.1 f.1 = true ∧ alike e.2 f.2 = true

/-- Two fields of objects have one name and are alike. -/
def FieldAlike (e f : String × Datum) : Prop := e.1 = f.1 ∧ alike e.2 f.2 = true

theorem sameEntries_iff (fs : List (Datum × Datum)) : ∀ es : List (Datum × Datum),
    sameEntries es fs = true ↔ ∀ e ∈ es, ∃ f ∈ fs, EntryAlike e f
  | [] => by simp [sameEntries]
  | (k, v) :: es => by
    rw [sameEntries, Bool.and_eq_true, sameEntries_iff fs es, List.any_eq_true, List.forall_mem_cons]
    simp only [Bool.and_eq_true]; rfl

theorem sameFields_iff (fs : List (String × Datum)) : ∀ es : List (String × Datum),
    sameFields es fs = true ↔ ∀ e ∈ es, ∃ f ∈ fs, FieldAlike e f
  | [] => by simp [sameFields]
  | (k, v) :: es => by
    rw [sameFields, Bool.and_eq_true, sameFields_iff fs es, List.any_eq_true, List.forall_mem_cons]
    simp only [Bool.and_eq_true, beq_iff_eq]; rfl

theorem alike_dict {es : List (Datum × Datum)} {b : Datum} : alike (.dict es) b = true ↔
    ∃ fs, b = .dict fs ∧ es.length = fs.length ∧ ∀ e ∈ es, ∃ f ∈ fs, EntryAlike e f := by
  cases b with
  | dict fs =>
    simp only [alike, same, sharedNan, Bool.or_false, Bool.and_eq_true, beq_iff_eq, sameEntries_iff,
      dict.injEq]
    constructor
    · rintro h; exact ⟨fs, rfl, h⟩
    · rintro ⟨_, rfl, h⟩; exact h
  | _ => simp [alike, same, sharedNan]

theorem alike_obj {es : List (String × Datum)} {b : Datum} : alike (.obj es) b = true ↔
    ∃ fs, b = .obj fs ∧ es.length = fs.length ∧ ∀ e ∈ es, ∃ f ∈ fs, FieldAlike e f := by
  cases b with
  | obj fs =>
    simp only [alike, same, sharedNan, Bool.or_false, Bool.and_eq_true, beq_iff_eq, sameFields_iff,
      obj.injEq]
    constructor
    · rintro h; exact ⟨fs, rfl, h⟩
    · rintro ⟨_, rfl, h⟩; exact h
  | _ => simp [alike, same, sharedNan]

/-! ## Reflexivity and transitivity -/

theorem alike_refl (a : Datum) : alike a a = true := by
  induction a with
  | null => exact alike_null.2 rfl
  | bool b => exact (alike_number rfl).2 ⟨_, rfl, rfl⟩
  | int n => exact (alike_number rfl).2 ⟨_, rfl, rfl⟩
  | float x => exact (alike_number rfl).2 ⟨_, rfl, rfl⟩
  | str s => exact alike_str.2 rfl
  | seq k items ih => exact alike_seq.2 ⟨items, rfl, List.forall₂_same.2 ih⟩
  | dict es ih => exact alike_dict.2 ⟨es, rfl, rfl, fun e he => ⟨e, he, ih e he⟩⟩
  | obj fs ih => exact alike_obj.2 ⟨fs, rfl, rfl, fun f hf => ⟨f, hf, rfl, ih f hf⟩⟩
  | foreign k t => exact alike_foreign.2 rfl

theorem forall₂_trans_of_mem {α : Type} {R : α → α → Prop} : ∀ {as bs cs : List α},
    (∀ a ∈ as, ∀ {b c}, R a b → R b c → R a c) → List.Forall₂ R as bs → List.Forall₂ R bs cs →
    List.Forall₂ R as cs
  | _, _, _, _, .nil, h2 => h2
  | _, _, _, ht, .cons h1 hs1, .cons h2 hs2 => by
    obtain ⟨h, ht⟩ := List.forall_mem_cons.1 ht
    exact .cons (h h1 h2) (forall₂_trans_of_mem ht hs1 hs2)

theorem alike_trans_number {a b c : Datum} {x : Number} (hx : a.number? = some x)
    (h1 : alike a b = true) (h2 : alike b c = true) : alike a c = true := by
  obtain ⟨y, hy, h1⟩ := (alike_number hx).1 h1
  obtain ⟨z, hz, h2⟩ := (alike_number hy).1 h2
  exact (alike_number hx).2 ⟨z, hz, h1.trans h2⟩

theorem alike_trans {a : Datum} : ∀ {b c : Datum}, alike a b = true → alike b c = true →
    alike a c = true := by
  induction a with
  | null => intro b c h1 h2; rwa [alike_null.1 h1] at h2
  | bool x => intro b c; exact alike_trans_number rfl
  | int n => intro b c; exact alike_trans_number rfl
  | float x => intro b c; exact alike_trans_number rfl
  | str s => intro b c h1 h2; rwa [alike_str.1 h1] at h2
  | seq k as ih =>
    intro b c h1 h2
    obtain ⟨bs, rfl, hs1⟩ := alike_seq.1 h1
    obtain ⟨cs, rfl, hs2⟩ := alike_seq.1 h2
    exact alike_seq.2 ⟨cs, rfl, forall₂_trans_of_mem (fun a ha => @ih a ha) hs1 hs2⟩
  | dict es ih =>
    intro b c h1 h2
    obtain ⟨fs, rfl, l1, h1⟩ := alike_dict.1 h1
    obtain ⟨gs, rfl, l2, h2⟩ := alike_dict.1 h2
    refine alike_dict.2 ⟨gs, rfl, l1.trans l2, fun e he => ?_⟩
    obtain ⟨f, hf, k1, v1⟩ := h1 e he
    obtain ⟨g, hg, k2, v2⟩ := h2 f hf
    exact ⟨g, hg, (ih e he).1 k1 k2, (ih e he).2 v1 v2⟩
  | obj es ih =>
    intro b c h1 h2
    obtain ⟨fs, rfl, l1, h1⟩ := alike_obj.1 h1
    obtain ⟨gs, rfl, l2, h2⟩ := alike_obj.1 h2
    refine alike_obj.2 ⟨gs, rfl, l1.trans l2, fun e he => ?_⟩
    obtain ⟨f, hf, k1, v1⟩ := h1 e he
    obtain ⟨g, hg, k2, v2⟩ := h2 f hf
    exact ⟨g, hg, k1.trans k2, ih e he v1 v2⟩
  | foreign k t => intro b c h1 h2; rwa [alike_foreign.1 h1] at h2

/-! ## Symmetry -/

/-- A dictionary or object holds no key twice. -/
def KeysDistinct : Datum → Prop
  | .dict es => es.Pairwise fun e f => alike e.1 f.1 = false
  | .obj fs => fs.Pairwise fun e f => e.1 ≠ f.1
  | _ => True

/-- If every item of a list has a partner in a list of the same length, and no two have a common
one, then every item of the other list is a partner. -/
theorem exists_partner {α β : Type} {R : α → β → Prop} : ∀ {as : List α} {bs : List β},
    as.length = bs.length → (∀ a ∈ as, ∃ b ∈ bs, R a b) →
    as.Pairwise (fun a a' => ∀ b, R a b → ¬ R a' b) → ∀ b ∈ bs, ∃ a ∈ as, R a b
  | [], bs, hlen, _, _ => by
    rw [List.length_nil, eq_comm, List.length_eq_zero_iff] at hlen
    subst hlen
    intro b hb; cases hb
  | a :: as, bs, hlen, hR, hp => by
    obtain ⟨⟨b₀, hb₀, hab⟩, hR⟩ := List.forall_mem_cons.1 hR
    obtain ⟨hpa, hp⟩ := List.pairwise_cons.1 hp
    obtain ⟨l, r, rfl⟩ := List.append_of_mem hb₀
    -- without the partner of `a`, the rest still has partners for the rest
    have hR' : ∀ a' ∈ as, ∃ b ∈ l ++ r, R a' b := by
      intro a' ha'
      obtain ⟨b, hb, hab'⟩ := hR a' ha'
      have hne : b ≠ b₀ := by rintro rfl; exact hpa a' ha' b hab hab'
      exact ⟨b, by simpa [hne] using hb, hab'⟩
    have hlen' : as.length = (l ++ r).length := by simp at hlen ⊢; omega
    intro b hb
    by_cases hbb : b = b₀
    · subst hbb; exact ⟨a, List.mem_cons_self, hab⟩
    · obtain ⟨a', ha', h⟩ := exists_partner hlen' hR' hp b (by simpa [hbb] using hb)
      exact ⟨a', List.mem_cons_of_mem _ ha', h⟩

theorem forall₂_symm_of_mem {α : Type} {R : α → α → Prop} : ∀ {as bs : List α},
    (∀ a ∈ as, ∀ {b}, R a b → R b a) → List.Forall₂ R as bs → List.Forall₂ R bs as
  | _, _, _, .nil => .nil
  | _, _, hs, .cons h1 hs1 => by
    obtain ⟨h, hs⟩ := List.forall_mem_cons.1 hs
    exact .cons (h h1) (forall₂_symm_of_mem hs hs1)

theorem alike_symm_number {a b : Datum} {x : Number} (hx : a.number? = some x)
    (h : alike a b = true) : alike b a = true := by
  obtain ⟨y, hy, h⟩ := (alike_number hx).1 h
  exact (alike_number hy).2 ⟨x, hx, h.symm⟩

theorem alike_symm {a : Datum} (ha : Every KeysDistinct a) :
    ∀ {b : Datum}, alike a b = true → alike b a = true := by
  induction a with
  | null => intro b h; cases alike_null.1 h; exact h
  | bool x => intro b; exact alike_symm_number rfl
  | int n => intro b; exact alike_symm_number rfl
  | float x => intro b; exact alike_symm_number rfl
  | str s => intro b h; cases alike_str.1 h; exact h
  | seq k as ih =>
    intro b h
    obtain ⟨bs, rfl, hs⟩ := alike_seq.1 h
    have has := (every_seq.1 ha).2
    exact alike_seq.2 ⟨as, rfl, forall₂_symm_of_mem (fun a ha => @ih a ha (has a ha)) hs⟩
  | dict es ih =>
    intro b h
    obtain ⟨fs, rfl, hlen, h⟩ := alike_dict.1 h
    obtain ⟨hkeys, hes⟩ := every_dict.1 ha
    -- two entries with a common partner would have keys that are alike
    have hp : es.Pairwise fun e e' => ∀ f, EntryAlike e f → ¬ EntryAlike e' f := by
      refine List.Pairwise.imp_of_mem (fun {e e'} _ he' hne f h1 h2 => ?_) hkeys
      have := alike_trans h1.1 ((ih e' he').1 (hes e' he').1 h2.1)
      rw [hne] at this; cases this
    refine alike_dict.2 ⟨es, rfl, hlen.symm, fun f hf => ?_⟩
    obtain ⟨e, he, h1, h2⟩ := exists_partner hlen h hp f hf
    exact ⟨e, he, (ih e he).1 (hes e he).1 h1, (ih e he).2 (hes e he).2 h2⟩
  | obj es ih =>
    intro b h
    obtain ⟨fs, rfl, hlen, h⟩ := alike_obj.1 h
    obtain ⟨hkeys, hes⟩ := every_obj.1 ha
    have hp : es.Pairwise fun e e' => ∀ f, FieldAlike e f → ¬ FieldAlike e' f :=
      hkeys.imp fun hne f h1 h2 => hne (h1.1.trans h2.1.symm)
    refine alike_obj.2 ⟨es, rfl, hlen.symm, fun f hf => ?_⟩
    obtain ⟨e, he, h1, h2⟩ := exists_partner hlen h hp f hf
    exact ⟨e, he, h1.symm, ih e he (hes e he) h2⟩
  | foreign k t => intro b h; cases alike_foreign.1 h; exact h

/-! ## Keys -/

theorem hashableAll_iff : ∀ ds : List Datum, hashableAll ds = true ↔ ∀ d ∈ ds, d.hashable = true
  | [] => by simp [hashableAll]
  | d :: ds => by simp [hashableAll, hashableAll_iff ds]

/-- A value that may be a key holds neither a dictionary nor an object. -/
theorem keysDistinct_of_hashable {d : Datum} (h : d.hashable = true) : Every KeysDistinct d := by
  induction d with
  | seq k items ih =>
    cases k with
    | tuple =>
      rw [hashable, hashableAll_iff] at h
      exact every_seq.2 ⟨trivial, fun d hd => ih d hd (h d hd)⟩
    | list => cases h
  | dict es => cases h
  | obj fs => cases h
  | _ =>
    intro x hx
    cases List.mem_singleton.1 hx
    trivial

/-- A key is alike to whatever is alike to it. -/
theorem alike_symm_of_hashable {a b : Datum} (ha : a.hashable = true) (h : alike a b = true) :
    alike b a = true :=
  alike_symm (keysDistinct_of_hashable ha) h

/-! ## Values without a NaN -/

/-- No NaN. -/
def NotNan : Datum → Prop
  | .float x => x.isNan = false
  | _ => True

/-- A value as programs make them, without a NaN: no dictionary or object holds a key twice. -/
def Comparable (d : Datum) : Prop := Every (fun x => NotNan x ∧ KeysDistinct x) d

instance : DecidablePred KeysDistinct
  | .dict es => inferInstanceAs (Decidable (es.Pairwise fun e f => alike e.1 f.1 = false))
  | .obj fs => inferInstanceAs (Decidable (fs.Pairwise fun e f => e.1 ≠ f.1))
  | .null | .bool _ | .int _ | .float _ | .str _ | .seq _ _ | .foreign _ _ => isTrue trivial

instance : DecidablePred NotNan
  | .float x => inferInstanceAs (Decidable (x.isNan = false))
  | .null | .bool _ | .int _ | .str _ | .seq _ _ | .dict _ | .obj _ | .foreign _ _ => isTrue trivial

instance (d : Datum) : Decidable (Comparable d) :=
  inferInstanceAs (Decidable (Every (fun x => NotNan x ∧ KeysDistinct x) d))

theorem comparable_int (n : Int) : Comparable (.int n) := by
  intro x hx
  cases List.mem_singleton.1 hx
  exact ⟨trivial, trivial⟩

theorem Comparable.keys {d : Datum} (h : Comparable d) : Every KeysDistinct d :=
  fun x hx => (h x hx).2

theorem same_eq_alike {a : Datum} (h : NotNan a) (b : Datum) : same a b = alike a b := by
  have : sharedNan a b = false := by
    cases a with
    | float x => cases b <;> simp [sharedNan, show x.isNan = false from h]
    | _ => rfl
  rw [alike, this, Bool.or_false]

theorem same_refl {a : Datum} (h : Comparable a) : same a a = true := by
  rw [same_eq_alike h.self.1]; exact alike_refl a

theorem same_symm {a b : Datum} (ha : Comparable a) (hb : Comparable b) (h : same a b = true) :
    same b a = true := by
  rw [same_eq_alike ha.self.1] at h
  rw [same_eq_alike hb.self.1]
  exact alike_symm ha.keys h

theorem same_trans {a b c : Datum} (ha : Comparable a) (hb : Comparable b) (h1 : same a b = true)
    (h2 : same b c = true) : same a c = true := by
  rw [same_eq_alike ha.self.1] at h1 ⊢
  rw [same_eq_alike hb.self.1] at h2
  exact alike_trans h1 h2

end Datum

end PassCheck
