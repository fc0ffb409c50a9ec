/-
Reading and printing are inverse. `Tree` is the class of values that program texts stand for:
sequences of booleans, integers that can be written, and symbols. The program text of a tree reads
back as the tree with its lists turned into tuples, and every value the reader produces is a tree of
tuples, so it is its own round trip.
-/
import PassCheck.Proofs.Datum.Parts
import PassCheck.Proofs.Sexp.Grammar
import PassCheck.Proofs.Sexp.Tokens

namespace PassCheck.Sexp

open PassCheck.Text

/-! ## Trees -/

/-- A text that is read as a symbol: it is not empty, holds neither white space nor brackets,
semicolons or quote marks, and is neither a boolean nor a numeral. -/
structure IsSymbol (s : String) : Prop where
  nonempty : s.toList ≠ []
  plain : ∀ c ∈ s.toList, isBlank c = false ∧ c ∉ ['(', ')', '[', ']', ';', '\'']
  notBool : s ≠ "#t" ∧ s ≠ "#f"
  notNumeral : Integer.isPlain s.toList = false

/-- A value that has a program text of its own. -/
inductive Tree : Datum → Prop
  | bool (b : Bool) : Tree (.bool b)
  | int {n : Int} : Integer.Writable n → Tree (.int n)
  | symbol {s : String} : IsSymbol s → Tree (.str s)
  | seq {items : List Datum} (k : SeqKind) : (∀ d ∈ items, Tree d) → Tree (.seq k items)

mutual

/-- A value with every list in it turned into a tuple. -/
def tupled : Datum → Datum
  | .seq _ items => .tuple (tupledAll items)
  | d => d
termination_by structural d => d

/-- `tupled` on every item. -/
def tupledAll : List Datum → List Datum
  | [] => []
  | d :: ds => tupled d :: tupledAll ds
termination_by structural ds => ds

end

theorem tupledAll_eq_map : ∀ ds : List Datum, tupledAll ds = ds.map tupled
  | [] => rfl
  | d :: ds => by rw [tupledAll, tupledAll_eq_map ds, List.map_cons]

theorem tupled_seq (k : SeqKind) (items : List Datum) :
    tupled (.seq k items) = .tuple (items.map tupled) := by
  rw [tupled, tupledAll_eq_map]

/-- All integers of a tree can be written. -/
theorem Tree.writable {d : Datum} (h : Tree d) : d.Writable := by
  induction h with
  | bool b => intro x hx; cases List.mem_singleton.1 hx; trivial
  | int hn => intro x hx; cases List.mem_singleton.1 hx; exact hn
  | symbol hs => intro x hx; cases List.mem_singleton.1 hx; trivial
  | seq k _ ih => exact Datum.every_seq.2 ⟨trivial, ih⟩

/-! ## Atoms -/

theorem isAtomChar_of_plain {c : Char}
    (h : isBlank c = false ∧ c ∉ ['(', ')', '[', ']', ';', '\'']) : isAtomChar c = true := by
  refine isAtomChar_iff.2 ⟨h.1, fun hc => h.2 (by simp [hc]), punctuation?_eq_none_iff.2 fun hc => h.2 ?_⟩
  simp only [List.mem_cons, List.not_mem_nil, or_false] at hc ⊢
  tauto

theorem plain_of_isAtomChar {c : Char} (h : isAtomChar c = true) :
    isBlank c = false ∧ c ∉ ['(', ')', '[', ']', ';', '\''] := by
  obtain ⟨h1, h2, h3⟩ := isAtomChar_iff.1 h
  rw [punctuation?_eq_none_iff] at h3
  refine ⟨h1, fun hc => h3 ?_⟩
  simp only [List.mem_cons, List.not_mem_nil, or_false] at hc ⊢
  tauto

theorem isAtomChar_of_isDigit {c : Char} (h : c.isDigit = true) : isAtomChar c = true := by
  have hn : 48 ≤ c.toNat ∧ c.toNat ≤ 57 := by
    simpa [Char.isDigit, Char.le_def, UInt32.le_iff_toNat_le] using h
  refine isAtomChar_of_plain ⟨?_, fun hc => ?_⟩
  · simp [isBlank, inRanges, blankRanges]; omega
  · simp only [List.mem_cons, List.not_mem_nil, or_false] at hc
    rcases hc with rfl | rfl | rfl | rfl | rfl | rfl <;> simp at h

theorem isAtomChar_of_mem_decimal {n : Int} {c : Char} (h : c ∈ (Integer.decimal n).toList) :
    isAtomChar c = true := by
  rw [Integer.toList_decimal] at h
  rcases List.mem_append.1 h with h | h
  · split at h
    · cases List.mem_singleton.1 h; decide
    · cases h
  · exact isAtomChar_of_isDigit (Integer.isDigit_of_mem_toDigits h)

theorem atomValue_decimal {n : Int} (h : Integer.Writable n) :
    atomValue (Integer.decimal n).toList = .ok (.int n) := by
  have hp := Integer.isPlain_decimal n
  unfold atomValue
  rw [if_neg, if_neg, if_pos hp, Integer.ofPlain?_decimal h]
  · intro he; rw [he] at hp; revert hp; decide
  · intro he; rw [he] at hp; revert hp; decide

theorem atomValue_symbol {s : String} (h : IsSymbol s) : atomValue s.toList = .ok (.str s) := by
  have hne : ∀ cs : List Char, s ≠ String.ofList cs → s.toList ≠ cs := by
    rintro cs hs rfl
    exact hs String.ofList_toList.symm
  unfold atomValue
  rw [if_neg (hne _ h.notBool.1), if_neg (hne _ h.notBool.2), if_neg (by simp [h.notNumeral]),
    String.ofList_toList]

/-- The value of an atom of a text is a tree, and no sequence. -/
theorem tree_of_atomValue {cs : List Char} {v : Datum} (hne : cs ≠ [])
    (hcs : ∀ c ∈ cs, isAtomChar c = true) (h : atomValue cs = .ok v) : Tree v ∧ tupled v = v := by
  unfold atomValue at h
  split at h
  · cases h; exact ⟨.bool true, rfl⟩
  · split at h
    · cases h; exact ⟨.bool false, rfl⟩
    · rename_i h1 h2
      split at h
      · split at h
        · rename_i n hn
          cases h
          exact ⟨.int (Integer.writable_of_ofPlain? hn), rfl⟩
        · cases h
      · rename_i hp
        cases h
        refine ⟨.symbol ⟨?_, ?_, ⟨?_, ?_⟩, ?_⟩, rfl⟩
        · rwa [String.toList_ofList]
        · rw [String.toList_ofList]
          exact fun c hc => plain_of_isAtomChar (hcs c hc)
        · intro he; apply h1; rw [← String.toList_ofList (l := cs), he]; rfl
        · intro he; apply h2; rw [← String.toList_ofList (l := cs), he]; rfl
        · rw [String.toList_ofList]; simpa using hp

/-! ## Printed texts -/

/-- A text with tokens of its own that derive values, whatever follows that ends an atom. -/
def Spells (cs : List Char) (ds : List Datum) : Prop :=
  ∃ ts, DerivesAll ts ds ∧ ∀ rest, EndsAtom rest → tokenize (cs ++ rest) = ts ++ tokenize rest

theorem derivesAll_singleton {ts : List Token} {d : Datum} (h : Derives ts d) :
    DerivesAll ts [d] := by
  have := DerivesAll.cons h .nil
  rwa [List.append_nil] at this

theorem spells_atom {cs : List Char} {v : Datum} (hne : cs ≠ [])
    (hcs : ∀ c ∈ cs, isAtomChar c = true) (h : atomValue cs = .ok v) : Spells cs [v] :=
  ⟨[.atom cs], derivesAll_singleton (.atom h), fun _ hr => tokenize_atom_append hne hcs hr⟩

theorem spells_cons {cs us : List Char} {d : Datum} {ds : List Datum} (h : Spells cs [d])
    (hs : Spells us ds) : Spells (cs ++ ' ' :: us) (d :: ds) := by
  obtain ⟨ts, hts, ht⟩ := h
  obtain ⟨ts', hts', ht'⟩ := hs
  refine ⟨ts ++ ts', ?_, fun rest hr => ?_⟩
  · cases hts with
    | cons hd hnil =>
      cases hnil
      rw [List.append_nil]
      exact .cons hd hts'
  · -- the blank ends an atom of the first text
    rw [List.append_assoc, List.cons_append, ht _ (endsAtom_cons (by decide)),
      tokenize_blank (by decide), ht' rest hr, List.append_assoc]

theorem spells_intercalate {texts : List String} {ds : List Datum}
    (h : List.Forall₂ (fun t d => Spells t.toList [d]) texts ds) :
    Spells (" ".intercalate texts).toList ds := by
  induction h with
  | nil =>
    refine ⟨[], .nil, fun rest _ => ?_⟩
    rw [String.intercalate_nil]; rfl
  | @cons t d texts ds ht hts ih =>
    cases hts with
    | nil => rwa [String.intercalate_singleton]
    | cons =>
      rw [String.intercalate_cons_cons, String.toList_append, String.toList_append,
        List.append_assoc]
      exact spells_cons ht ih

theorem spells_parens {cs : List Char} {ds : List Datum} (h : Spells cs ds) :
    Spells ('(' :: cs ++ [')']) [.tuple ds] := by
  obtain ⟨ts, hts, ht⟩ := h
  refine ⟨.opening .round :: ts ++ [.closing .round], derivesAll_singleton (.group .round hts),
    fun rest _ => ?_⟩
  rw [List.append_assoc, List.cons_append, tokenize_punctuation (t := .opening .round) (by decide),
    List.singleton_append, ht _ (endsAtom_cons (by decide)),
    tokenize_punctuation (t := .closing .round) (by decide)]
  simp

/-- The program texts of items spell the items, if that of each item does. -/
theorem printAll?_spells {items : List Datum}
    (h : ∀ d ∈ items, ∃ t, print? d = some t ∧ Spells t.toList [tupled d]) :
    ∃ texts, printAll? items = some texts ∧
      List.Forall₂ (fun t d => Spells t.toList [d]) texts (items.map tupled) := by
  induction items with
  | nil => exact ⟨[], rfl, .nil⟩
  | cons d ds ih =>
    obtain ⟨⟨t, ht, hs⟩, h⟩ := List.forall_mem_cons.1 h
    obtain ⟨texts, hts, hss⟩ := ih h
    exact ⟨t :: texts, by simp [printAll?, ht, hts], .cons hs hss⟩

/-- A tree has a program text, and the text spells the tree with its lists turned into tuples. -/
theorem print?_spells {d : Datum} (h : Tree d) :
    ∃ t, print? d = some t ∧ Spells t.toList [tupled d] := by
  induction h with
  | bool b =>
    cases b
    · exact ⟨"#f", rfl, spells_atom (by decide) (List.all_eq_true.1 (by decide)) (by rfl)⟩
    · exact ⟨"#t", rfl, spells_atom (by decide) (List.all_eq_true.1 (by decide)) (by rfl)⟩
  | @int n hn =>
    refine ⟨Integer.decimal n, ?_, spells_atom ?_ (fun c => isAtomChar_of_mem_decimal) (atomValue_decimal hn)⟩
    · simp only [print?, Datum.display?, Datum.literal?]
      exact Datum.text?_of_writable hn
    · rw [Integer.toList_decimal]
      simp [Nat.toDigits_ne_nil]
  | @symbol s hs =>
    exact ⟨s, rfl, spells_atom hs.nonempty (fun c hc => isAtomChar_of_plain (hs.plain c hc)) (atomValue_symbol hs)⟩
  | @seq items k _ ih =>
    obtain ⟨texts, hts, hss⟩ := printAll?_spells ih
    refine ⟨"(" ++ " ".intercalate texts ++ ")", by rw [print?, hts]; rfl, ?_⟩
    rw [String.toList_append, String.toList_append, tupled_seq]
    exact spells_parens (spells_intercalate hss)

theorem readAll_of_spells {cs : List Char} {ds : List Datum} (h : Spells cs ds) :
    readAll cs = .ok ds := by
  obtain ⟨ts, hts, ht⟩ := h
  have := ht [] endsAtom_nil
  rw [List.append_nil, tokenize_nil, List.append_nil] at this
  rw [readAll, this]
  exact readTokens_eq_ok_iff.2 hts

/-! ## What the reader produces -/

/-- What a run of tokens derives is a tree of tuples, if its atoms are atoms of a text. -/
theorem tree_of_derives :
    (∀ ts d, Derives ts d → (∀ cs, .atom cs ∈ ts → cs ≠ [] ∧ ∀ c ∈ cs, isAtomChar c = true) →
      Tree d ∧ tupled d = d) ∧
    ∀ ts ds, DerivesAll ts ds → (∀ cs, .atom cs ∈ ts → cs ≠ [] ∧ ∀ c ∈ cs, isAtomChar c = true) →
      ∀ d ∈ ds, Tree d ∧ tupled d = d := by
  refine derives_ind ?_ ?_ ?_ ?_ ?_
  · intro cs v hv ha
    obtain ⟨hne, hcs⟩ := ha cs (by simp)
    exact tree_of_atomValue hne hcs hv
  · intro ts d ih ha
    obtain ⟨hd, he⟩ := ih fun cs hcs => ha cs (List.mem_cons_of_mem _ hcs)
    refine ⟨.seq _ (List.forall_mem_cons.2 ⟨.symbol ?_, List.forall_mem_cons.2 ⟨hd, by simp⟩⟩), ?_⟩
    · exact ⟨by decide, by simp; decide, by decide, by decide⟩
    · rw [quoteForm, tupled_seq, List.map_cons, List.map_cons, he]; rfl
  · intro b ts ds ih ha
    have hds := ih fun cs hcs => ha cs (by simp [hcs])
    refine ⟨.seq _ fun d hd => (hds d hd).1, ?_⟩
    rw [tupled_seq, List.map_congr_left fun d hd => (hds d hd).2, List.map_id']
  · intro _ d hd; cases hd
  · intro ts us d ds ih ihs ha
    refine List.forall_mem_cons.2 ⟨ih fun cs hcs => ?_, ihs fun cs hcs => ?_⟩
    · exact ha cs (List.mem_append_left _ hcs)
    · exact ha cs (List.mem_append_right _ hcs)

theorem tree_of_readAll {text : List Char} {ds : List Datum} (h : readAll text = .ok ds) :
    ∀ d ∈ ds, Tree d ∧ tupled d = d :=
  tree_of_derives.2 _ _ (readTokens_eq_ok_iff.1 h) fun _ hcs => atom_of_mem_tokenize hcs

theorem readSingle_print {d : Datum} (h : Tree d) :
    ∃ t, print? d = some t ∧ readSingle t.toList = .ok (tupled d) := by
  obtain ⟨t, ht, hs⟩ := print?_spells h
  exact ⟨t, ht, by rw [readSingle, readAll_of_spells hs]⟩

/-- Reading and printing are inverse: the program text of every tree reads back as the tree with
tuples for lists, and every value of every readable text is a tree of tuples, which its program text
reads back as it is. -/
theorem read_print_inverse :
    (∀ e, Tree e → ∃ t, print? e = some t ∧ readSingle t.toList = .ok (tupled e)) ∧
    ∀ text ds, readAll text = .ok ds → ∀ d ∈ ds, Tree d ∧ tupled d = d ∧
      ∃ t, print? d = some t ∧ readSingle t.toList = .ok d := by
  refine ⟨fun e he => readSingle_print he, fun text ds h d hd => ?_⟩
  obtain ⟨ht, he⟩ := tree_of_readAll h d hd
  obtain ⟨t, hp, hr⟩ := readSingle_print ht
  exact ⟨ht, he, t, hp, by rw [hr, he]⟩

/-- A list with leaves of all kinds and a tuple inside. -/
def mixedTree : Datum := .list [.str "+", .int (-3), .tuple [.bool true, .str "x1"]]

theorem tree_mixedTree : Tree mixedTree := by
  have hplus : IsSymbol "+" := ⟨by decide, by simp; decide, by decide, by decide⟩
  have hx : IsSymbol "x1" := ⟨by decide, by simp; decide, by decide, by decide⟩
  refine .seq _ ?_
  simp only [List.forall_mem_cons]
  exact ⟨.symbol hplus, .int (by decide +kernel),
    .seq _ (by simpa using ⟨.bool true, .symbol hx⟩), by simp⟩

/-- The list of `mixedTree` comes back as a tuple, and a quoted numeral with a leading zero is a
tree once it is read. -/
theorem read_print_inverse_mixed : Tree mixedTree ∧
    (∃ t, print? mixedTree = some t ∧
      readSingle t.toList = .ok (.tuple [.str "+", .int (-3), .tuple [.bool true, .str "x1"]])) ∧
    readAll "[a '-07]".toList = .ok [.tuple [.str "a", quoteForm (.int (-7))]] ∧
    Tree (.tuple [.str "a", quoteForm (.int (-7))]) := by
  have ht : tokenize "[a '-07]".toList = [.opening .square, .atom ['a'], .quote,
      .atom ['-', '0', '7'], .closing .square] := by decide +kernel
  have hd : Derives [.opening .square, .atom ['a'], .quote, .atom ['-', '0', '7'], .closing .square]
      (.tuple [.str "a", quoteForm (.int (-7))]) :=
    .group .square (.cons (.atom rfl) (derivesAll_singleton (.quote (.atom rfl))))
  have hr : readAll "[a '-07]".toList = .ok [.tuple [.str "a", quoteForm (.int (-7))]] := by
    rw [readAll, ht]; exact readTokens_eq_ok_iff.2 (derivesAll_singleton hd)
  refine ⟨tree_mixedTree, read_print_inverse.1 mixedTree tree_mixedTree, hr, ?_⟩
  exact (read_print_inverse.2 _ _ hr _ List.mem_cons_self).1

end PassCheck.Sexp
