/-
What a graph holds, seen through two views: a value is a vertex (`Has`), and a value is a neighbour
of another one (`Adj`). Every change of a graph has one lemma for each view; `WF`, kept by all
changes, makes the queries agree with the views.
-/
import PassCheck.Graph.Basic
import PassCheck.Proofs.Datum.Equality

namespace PassCheck.Graph

open Datum (NotNan alike_refl alike_trans alike_symm_of_hashable same_eq_alike)

/-! ## Two views of a graph -/

/-- A value is a vertex. -/
def Has (g : Graph) (u : Datum) : Prop := ∃ x ∈ g.vertices, x.name.alike u = true

/-- A value is a neighbour of a vertex. -/
def Adj (g : Graph) (u v : Datum) : Prop :=
  ∃ x ∈ g.vertices, x.name.alike u = true ∧ ∃ e ∈ x.neighbours, e.alike v = true

/-- A value that may be a vertex and is found again by equality. -/
def Key (d : Datum) : Prop := d.hashable = true ∧ NotNan d

structure WF (g : Graph) : Prop where
  names : ∀ x ∈ g.vertices, Key x.name
  neighbours : ∀ x ∈ g.vertices, ∀ e ∈ x.neighbours, Key e
  distinct : g.vertices.Pairwise fun x y => x.name.alike y.name = false

variable {g : Graph} {a b d u v : Datum}

theorem find?_isSome_iff : (g.find? d).isSome = true ↔ Has g d := by
  unfold find? Has
  simp [List.find?_isSome]

theorem of_find? {x : Vertex} (h : g.find? u = some x) :
    x ∈ g.vertices ∧ x.name.alike u = true :=
  ⟨List.mem_of_find?_eq_some h, by simpa using List.find?_some h⟩

theorem Adj.has (h : Adj g u v) : Has g u := by
  obtain ⟨x, hx, hu, -⟩ := h
  exact ⟨x, hx, hu⟩

/-! ## Adding a vertex -/

theorem has_insert : Has (g.insert d) u ↔ Has g u ∨ d.alike u = true := by
  unfold insert
  split
  · rename_i hd
    obtain ⟨x, hx, hxd⟩ := find?_isSome_iff.1 hd
    constructor
    · exact .inl
    · rintro (h | h)
      · exact h
      · exact ⟨x, hx, alike_trans hxd h⟩
  · simp [Has, or_and_right, exists_or]

theorem adj_insert : Adj (g.insert d) u v ↔ Adj g u v := by
  unfold insert
  split
  · rfl
  · simp [Adj, or_and_right, exists_or]

theorem WF.insert (hg : WF g) (hd : Key d) : WF (g.insert d) := by
  unfold Graph.insert
  split
  · exact hg
  · rename_i hno
    have hno : ∀ x ∈ g.vertices, x.name.alike d = false := by
      intro x hx
      rw [← Bool.not_eq_true]
      exact fun h => hno (find?_isSome_iff.2 ⟨x, hx, h⟩)
    refine ⟨?_, ?_, ?_⟩
    · intro x hx
      rcases List.mem_append.1 hx with hx | hx
      · exact hg.names x hx
      · cases List.mem_singleton.1 hx; exact hd
    · intro x hx
      rcases List.mem_append.1 hx with hx | hx
      · exact hg.neighbours x hx
      · cases List.mem_singleton.1 hx; simp
    · refine List.pairwise_append.2 ⟨hg.distinct, List.pairwise_singleton _ _, ?_⟩
      intro x hx y hy
      cases List.mem_singleton.1 hy
      exact hno x hx

/-! ## Attaching a neighbour -/

theorem exists_insertNeighbour {ds : List Datum} :
    (∃ e ∈ insertNeighbour d ds, e.alike v = true) ↔
      (∃ e ∈ ds, e.alike v = true) ∨ d.alike v = true := by
  unfold insertNeighbour
  split
  · rename_i hd
    obtain ⟨x, hx, hxd⟩ := List.any_eq_true.1 hd
    constructor
    · exact .inl
    · rintro (h | h)
      · exact h
      · exact ⟨x, hx, alike_trans hxd h⟩
  · simp [or_and_right, exists_or]

theorem mem_insertNeighbour {ds : List Datum} {e : Datum} (h : e ∈ insertNeighbour d ds) :
    e ∈ ds ∨ e = d := by
  unfold insertNeighbour at h
  split at h
  · exact .inl h
  · simpa using h

theorem names_attach : (g.attach a b).names = g.names := by
  simp only [names, attach, List.map_map]
  refine List.map_congr_left fun x _ => ?_
  simp only [Function.comp_apply]
  split <;> rfl

theorem adj_attach (hg : WF g) :
    Adj (g.attach a b) u v ↔ Adj g u v ∨ (Has g a ∧ a.alike u = true ∧ b.alike v = true) := by
  unfold Adj attach
  simp only [List.mem_map, exists_exists_and_eq_and]
  constructor
  · rintro ⟨x, hx, hu, hv⟩
    by_cases hxa : x.name.alike a = true
    · rw [if_pos hxa] at hu hv
      rcases exists_insertNeighbour.1 hv with hv | hv
      · exact .inl ⟨x, hx, hu, hv⟩
      · -- the vertex is alike to both, so they are alike
        have hax := alike_symm_of_hashable (hg.names x hx).1 hxa
        exact .inr ⟨⟨x, hx, hxa⟩, alike_trans hax hu, hv⟩
    · rw [if_neg hxa] at hu hv
      exact .inl ⟨x, hx, hu, hv⟩
  · rintro (⟨x, hx, hu, hv⟩ | ⟨⟨x, hx, hxa⟩, hau, hbv⟩)
    · refine ⟨x, hx, ?_⟩
      split
      · exact ⟨hu, exists_insertNeighbour.2 (.inl hv)⟩
      · exact ⟨hu, hv⟩
    · refine ⟨x, hx, ?_⟩
      rw [if_pos hxa]
      exact ⟨alike_trans hxa hau, exists_insertNeighbour.2 (.inr hbv)⟩

theorem WF.attach (hg : WF g) (hb : Key b) : WF (g.attach a b) := by
  refine ⟨?_, ?_, ?_⟩
  · intro y hy
    obtain ⟨x, hx, rfl⟩ := List.mem_map.1 hy
    split <;> exact hg.names x hx
  · intro y hy e he
    obtain ⟨x, hx, rfl⟩ := List.mem_map.1 hy
    split at he
    · rcases mem_insertNeighbour he with he | rfl
      · exact hg.neighbours x hx e he
      · exact hb
    · exact hg.neighbours x hx e he
  · have h : (g.attach a b).names.Pairwise fun m n => m.alike n = false := by
      rw [names_attach]
      exact List.pairwise_map.2 hg.distinct
    exact List.pairwise_map.1 h

/-! ## Adding an edge -/

theorem join_of_hashable (ha : a.hashable = true) (hb : b.hashable = true) :
    g.join a b = (.ok (), (((g.insert a).attach a b).insert b).attach b a) := by
  simp [join, ha, hb]

theorem adj_join (hg : WF g) (ha : Key a) (hb : Key b) : Adj (g.join a b).2 u v ↔ Adj g u v ∨
    (a.alike u = true ∧ b.alike v = true) ∨ (b.alike u = true ∧ a.alike v = true) := by
  have h1 : WF (g.insert a) := hg.insert ha
  have h2 : WF (((g.insert a).attach a b).insert b) := (h1.attach hb).insert hb
  have hasA : Has (g.insert a) a := has_insert.2 (.inr (alike_refl a))
  have hasB : Has (((g.insert a).attach a b).insert b) b := has_insert.2 (.inr (alike_refl b))
  rw [join_of_hashable ha.1 hb.1, adj_attach h2, adj_insert, adj_attach h1, adj_insert]
  simp only [hasA, hasB, true_and, or_assoc]

theorem WF.join (hg : WF g) (ha : Key a) (hb : Key b) : WF (g.join a b).2 := by
  rw [join_of_hashable ha.1 hb.1]
  exact (((hg.insert ha).attach hb).insert hb).attach ha

/-! ## Queries -/

theorem WF.eq_of_alike (hg : WF g) {x y : Vertex} (hx : x ∈ g.vertices) (hy : y ∈ g.vertices)
    (h : x.name.alike y.name = true) : x = y := by
  have hxy : g.vertices.Pairwise fun x y => x.name.alike y.name = true → x = y := by
    refine hg.distinct.imp fun hne h => ?_
    rw [hne] at h; cases h
  have hyx : g.vertices.Pairwise fun x y => y.name.alike x.name = true → y = x := by
    refine hg.distinct.imp_of_mem fun {x y} _ hy hne h => ?_
    rw [alike_symm_of_hashable (hg.names y hy).1 h] at hne; cases hne
  exact List.Pairwise.forall_of_forall_of_flip (fun _ _ _ => rfl) hxy hyx hx hy h

theorem WF.find?_eq (hg : WF g) {x : Vertex} (hx : x ∈ g.vertices) (hu : x.name.alike u = true) :
    g.find? u = some x := by
  obtain ⟨y, hy⟩ := Option.isSome_iff_exists.1 (find?_isSome_iff.2 ⟨x, hx, hu⟩)
  obtain ⟨hym, hyu⟩ := of_find? hy
  rw [hy, hg.eq_of_alike hx hym (alike_trans hu (alike_symm_of_hashable (hg.names y hym).1 hyu))]

/-- Whether two keys are joined can always be told. -/
theorem WF.hasEdge_eq (hg : WF g) (hu : u.hashable = true) (hv : v.hashable = true) :
    ∃ b, g.hasEdge u v = .ok b ∧ (b = true ↔ Adj g u v) := by
  unfold hasEdge
  simp only [hu, hv, Bool.not_true, Bool.false_eq_true, if_false, if_true]
  cases hf : g.find? u with
  | none =>
    refine ⟨false, rfl, by simp, fun h => ?_⟩
    rw [← find?_isSome_iff.2 h.has, hf]; rfl
  | some x =>
    refine ⟨_, rfl, ?_⟩
    obtain ⟨hx, hxu⟩ := of_find? hf
    rw [List.any_eq_true]
    constructor
    · exact fun h => ⟨x, hx, hxu, h⟩
    · rintro ⟨y, hy, hyu, h⟩
      rw [hg.find?_eq hy hyu] at hf
      cases hf
      exact h

theorem WF.adj_of_adjacent (hg : WF g) {ds : List Datum} (h : g.adjacent u = .ok ds) (hd : d ∈ ds) :
    Adj g u d ∧ Key d := by
  unfold adjacent at h
  split at h
  · cases h
  · split at h
    · rename_i x hf
      cases h
      obtain ⟨hx, hxu⟩ := of_find? hf
      exact ⟨⟨x, hx, hxu, d, hd, alike_refl d⟩, hg.neighbours x hx d hd⟩
    · cases h

theorem WF.adjacent_of_adj (hg : WF g) (hu : u.hashable = true) (h : Adj g u v) :
    ∃ ds, g.adjacent u = .ok ds ∧ ∃ e ∈ ds, e.same v = true := by
  obtain ⟨x, hx, hxu, e, he, hev⟩ := h
  refine ⟨x.neighbours, ?_, e, he, ?_⟩
  · simp [adjacent, hu, hg.find?_eq hx hxu]
  · rwa [same_eq_alike (hg.neighbours x hx e he).2]

end PassCheck.Graph
