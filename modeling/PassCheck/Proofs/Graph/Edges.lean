/-
The edges of a graph, each of them once. Every edge is met twice when the vertices are passed in
order, as a neighbour of either endpoint, except that a loop is met once. The list of edges keeps
what is met first, so it holds the pairs whose first endpoint does not come after the second one
(`Sound.edges_eq`); all that is said of edges is counted on these pairs.
-/
import PassCheck.Proofs.Graph.History
import Mathlib.Algebra.Ring.Nat
import Mathlib.Data.List.Nodup
import Mathlib.Data.List.Perm.Basic
import Mathlib.Data.Prod.Basic

namespace PassCheck.Graph

open Datum (alike_refl alike_trans alike_symm_of_hashable same_eq_alike)

variable {g : Graph} {d u v : Datum}

/-! ## Positions -/

theorem getElem?_position (h : g.position d < g.vertices.length) :
    ∃ x, g.vertices[g.position d]? = some x ∧ x.name.alike d = true :=
  ⟨g.vertices[g.position d], List.getElem?_eq_getElem h, List.findIdx_getElem (w := h)⟩

theorem position_lt_iff : g.position d < g.vertices.length ↔ Has g d := by
  rw [position, List.findIdx_lt_length]
  rfl

/-- A vertex and a value have one position exactly if they are alike. -/
theorem WF.position_eq_iff (hg : WF g) (hd : d.hashable = true) (h : Has g d) :
    g.position d = g.position v ↔ d.alike v = true := by
  constructor
  · intro he
    have hlt := position_lt_iff.2 h
    obtain ⟨x, hx, hxd⟩ := getElem?_position hlt
    obtain ⟨y, hy, hyv⟩ := getElem?_position (he ▸ hlt)
    rw [he, hy] at hx
    cases hx
    exact alike_trans (alike_symm_of_hashable (hg.names x (List.mem_of_getElem? hy)).1 hxd) hyv
  · intro hdv
    have hvd := alike_symm_of_hashable hd hdv
    refine congrArg (List.findIdx · g.vertices) (funext fun x => ?_)
    rw [Bool.eq_iff_iff]
    exact ⟨fun h => alike_trans h hdv, fun h => alike_trans h hvd⟩

theorem WF.position_getElem (hg : WF g) {i : Nat} (hi : i < g.vertices.length) :
    g.position g.vertices[i].name = i := by
  rw [position, List.findIdx_eq hi]
  exact ⟨alike_refl _, fun j hj => List.pairwise_iff_getElem.1 hg.distinct j i (by omega) hi hj⟩

/-- The vertices stand in the order of their positions. -/
theorem WF.pairwise_position (hg : WF g) :
    g.vertices.Pairwise fun x y => g.position x.name < g.position y.name := by
  rw [List.pairwise_iff_getElem]
  intro i j hi hj hij
  rwa [hg.position_getElem hi, hg.position_getElem hj]

/-! ## Graphs that calls have built -/

/-- No vertex has two neighbours that are alike. -/
def Simple (g : Graph) : Prop :=
  ∀ x ∈ g.vertices, x.neighbours.Pairwise fun d e => d.alike e = false

theorem Simple.insert (h : Simple g) (d : Datum) : Simple (g.insert d) := by
  unfold Graph.insert
  split
  · exact h
  · intro x hx
    rcases List.mem_append.1 hx with hx | hx
    · exact h x hx
    · cases List.mem_singleton.1 hx
      exact .nil

theorem pairwise_insertNeighbour {ds : List Datum} (d : Datum)
    (h : ds.Pairwise fun d e => d.alike e = false) :
    (insertNeighbour d ds).Pairwise fun d e => d.alike e = false := by
  unfold insertNeighbour
  split
  · exact h
  · rename_i hno
    refine List.pairwise_append.2 ⟨h, List.pairwise_singleton _ _, ?_⟩
    intro e he f hf
    cases List.mem_singleton.1 hf
    by_contra halike
    exact hno (List.any_eq_true.2 ⟨e, he, by simpa using halike⟩)

theorem Simple.attach (h : Simple g) (u v : Datum) : Simple (g.attach u v) := by
  intro y hy
  obtain ⟨x, hx, rfl⟩ := List.mem_map.1 hy
  split
  · exact pairwise_insertNeighbour v (h x hx)
  · exact h x hx

theorem Simple.effect (h : Simple g) (c : Call) : Simple (c.effect g) := by
  rcases effect_cases g c with ⟨d, -, -, -, he, -⟩ | ⟨a, b, -, -, ha, hb, he, -⟩ |
    ⟨a, b, e, -, -, -, he, -⟩ | ⟨e, -, he, -⟩ <;> rw [he]
  · exact h.insert d
  · rw [join_of_hashable ha hb]
    exact (((h.insert a).attach a b).insert b).attach b a
  · exact h.insert a
  · exact h

theorem Simple.run (cs : List Call) (h : Simple g) : Simple (cs.foldl Call.effect g) := by
  induction cs generalizing g with
  | nil => exact h
  | cons c cs ih => exact ih (h.effect c)

/-- What calls keep: no vertex has two neighbours that are alike, and edges have no direction. -/
structure Sound (g : Graph) : Prop where
  wf : WF g
  simple : Simple g
  symm : ∀ u v, Adj g u v → Adj g v u

/-- Every graph that calls have built is sound. -/
theorem Proper.sound {vs : List Datum} {cs : List Call} {log : List (Call × Except Failure Unit)}
    (h : Proper vs cs) (hb : Built vs cs log g) : Sound g := by
  obtain ⟨-, hwf, hadj, -⟩ := h.spec hb
  refine ⟨hwf, ?_, fun u v huv => ?_⟩
  · obtain ⟨-, rfl⟩ := h.eq_of_built hb
    exact Simple.run _ nofun
  · obtain ⟨c, hc, hj⟩ := (hadj u v).1 huv
    exact (hadj v u).2 ⟨c, hc, hj.symm⟩

/-! ## Pairs of a vertex and a neighbour -/

/-- A vertex with each of its neighbours. -/
def pairsOf (x : Vertex) : List (Datum × Datum) := x.neighbours.map fun d => (x.name, d)

/-- Every vertex with each of its neighbours. -/
def pairs (g : Graph) : List (Datum × Datum) := g.vertices.flatMap pairsOf

/-- The positions of the endpoints. -/
def ends (g : Graph) (e : Datum × Datum) : Nat × Nat := (g.position e.1, g.position e.2)

/-- The first endpoint does not come after the second one. -/
def forward (g : Graph) (e : Datum × Datum) : Bool := g.position e.1 ≤ g.position e.2

variable {e f : Datum × Datum} {x : Vertex}

theorem mem_pairs : e ∈ pairs g ↔ ∃ x ∈ g.vertices, x.name = e.1 ∧ e.2 ∈ x.neighbours := by
  simp only [pairs, pairsOf, List.mem_flatMap, List.mem_map]
  constructor
  · rintro ⟨x, hx, d, hd, rfl⟩
    exact ⟨x, hx, rfl, hd⟩
  · rintro ⟨x, hx, hname, hd⟩
    exact ⟨x, hx, e.2, hd, by rw [hname]⟩

theorem Sound.adj_of_mem_pairs (h : Sound g) (he : e ∈ pairs g) :
    Adj g e.1 e.2 ∧ Key e.1 ∧ Key e.2 := by
  obtain ⟨x, hx, hname, hd⟩ := mem_pairs.1 he
  rw [← hname]
  exact ⟨⟨x, hx, alike_refl _, e.2, hd, alike_refl _⟩, h.wf.names x hx,
    h.wf.neighbours x hx e.2 hd⟩

/-- The positions of a pair tell it, up to values that are alike. -/
theorem Sound.ends_eq_iff (h : Sound g) (he : e ∈ pairs g) :
    ends g e = (g.position u, g.position v) ↔ e.1.alike u = true ∧ e.2.alike v = true := by
  obtain ⟨hadj, h1, h2⟩ := h.adj_of_mem_pairs he
  rw [ends, Prod.mk.injEq, h.wf.position_eq_iff h1.1 hadj.has,
    h.wf.position_eq_iff h2.1 (h.symm _ _ hadj).has]

theorem Sound.exists_pair (h : Sound g) (huv : Adj g u v) :
    ∃ e ∈ pairs g, ends g e = (g.position u, g.position v) := by
  obtain ⟨x, hx, hxu, d, hd, hdv⟩ := huv
  have he : (x.name, d) ∈ pairs g := mem_pairs.2 ⟨x, hx, rfl, hd⟩
  exact ⟨_, he, (h.ends_eq_iff he).2 ⟨hxu, hdv⟩⟩

/-- Every pair is met in the other direction as well. -/
theorem Sound.exists_swap (h : Sound g) (he : e ∈ pairs g) :
    ∃ f ∈ pairs g, ends g f = (ends g e).swap :=
  h.exists_pair (h.symm _ _ (h.adj_of_mem_pairs he).1)

theorem Sound.pairwise_pairsOf (h : Sound g) (hx : x ∈ g.vertices) :
    (pairsOf x).Pairwise fun e f => ends g e ≠ ends g f := by
  refine List.pairwise_map.2 ((h.simple x hx).imp_of_mem fun {d e} hd _ hde heq => ?_)
  have hpair : (x.name, d) ∈ pairs g := mem_pairs.2 ⟨x, hx, rfl, hd⟩
  rw [((h.ends_eq_iff hpair).1 heq).2] at hde
  cases hde

/-- No pair is met twice, and the first endpoints come in the order of the vertices. -/
theorem Sound.pairwise_pairs (h : Sound g) : (pairs g).Pairwise fun e f =>
    g.position e.1 ≤ g.position f.1 ∧ ends g e ≠ ends g f := by
  refine List.pairwise_flatMap.2 ⟨fun x hx => ?_, h.wf.pairwise_position.imp fun {x y} hxy => ?_⟩
  · refine (h.pairwise_pairsOf hx).imp_of_mem fun {e f} he hf hne => ⟨?_, hne⟩
    obtain ⟨_, -, rfl⟩ := List.mem_map.1 he
    obtain ⟨_, -, rfl⟩ := List.mem_map.1 hf
    exact Nat.le_refl _
  · intro e he f hf
    obtain ⟨_, -, rfl⟩ := List.mem_map.1 he
    obtain ⟨_, -, rfl⟩ := List.mem_map.1 hf
    refine ⟨Nat.le_of_lt hxy, fun heq => ?_⟩
    have := congrArg Prod.fst heq
    simp only [ends] at this
    omega

/-! ## The pairs that are listed -/

/-- Lists a pair unless it was listed in the other direction. -/
def note (seen : List (Datum × Datum)) (e : Datum × Datum) : List (Datum × Datum) :=
  if seen.any fun f => f.1.alike e.2 && f.2.alike e.1 then seen else seen ++ [e]

theorem edgesFrom_eq (xs : List Vertex) (seen : List (Datum × Datum)) :
    edgesFrom xs seen = (xs.flatMap pairsOf).foldl note seen := by
  induction xs generalizing seen with
  | nil => rfl
  | cons x xs ih =>
    rw [edgesFrom, ih, List.flatMap_cons, List.foldl_append, pairsOf, List.foldl_map]
    rfl

/-- A pair that is met after others was listed in the other direction exactly if it does not go
forward. -/
theorem Sound.listed_iff (h : Sound g) {done rest : List (Datum × Datum)}
    (hsplit : pairs g = done ++ e :: rest) :
    ((done.filter (forward g)).any fun f => f.1.alike e.2 && f.2.alike e.1) = true ↔
      forward g e = false := by
  have he : e ∈ pairs g := by rw [hsplit]; simp
  have hpairs := h.pairwise_pairs
  rw [hsplit, List.pairwise_append, List.pairwise_cons] at hpairs
  obtain ⟨-, ⟨hrest, -⟩, hdone⟩ := hpairs
  simp only [List.any_eq_true, List.mem_filter, Bool.and_eq_true, forward, decide_eq_true_eq,
    decide_eq_false_iff_not, Nat.not_le]
  constructor
  · rintro ⟨f, ⟨hf, hle⟩, hfe⟩
    have hfp : f ∈ pairs g := by rw [hsplit]; simp [hf]
    obtain ⟨-, hne⟩ := hdone f hf e (List.mem_cons_self ..)
    have hends := (h.ends_eq_iff hfp).2 hfe
    simp only [ends, Prod.mk.injEq, ne_eq] at hends hne
    -- otherwise it is a loop, and was met twice
    omega
  · intro hlt
    obtain ⟨f, hf, hends⟩ := h.exists_swap he
    have hfe := (h.ends_eq_iff hf).1 hends
    simp only [ends, Prod.swap_prod_mk, Prod.mk.injEq] at hends
    refine ⟨f, ⟨?_, by omega⟩, hfe⟩
    -- the other direction starts at an earlier vertex, so it was met before
    rw [hsplit, List.mem_append, List.mem_cons] at hf
    rcases hf with hf | rfl | hf
    · exact hf
    · omega
    · have := (hrest f hf).1
      omega

theorem Sound.note_eq (h : Sound g) {done rest : List (Datum × Datum)}
    (hsplit : pairs g = done ++ e :: rest) :
    note (done.filter (forward g)) e = (done ++ [e]).filter (forward g) := by
  have hlisted := h.listed_iff hsplit
  rw [note, List.filter_append, List.filter_singleton]
  by_cases hfwd : forward g e = true
  · rw [if_neg (mt hlisted.1 (by rw [hfwd]; nofun)), hfwd]
    rfl
  · rw [Bool.not_eq_true] at hfwd
    rw [if_pos (hlisted.2 hfwd), hfwd]
    exact (List.append_nil _).symm

theorem Sound.foldl_note (h : Sound g) {rest : List (Datum × Datum)} :
    ∀ {done : List (Datum × Datum)}, pairs g = done ++ rest →
      rest.foldl note (done.filter (forward g)) = (pairs g).filter (forward g) := by
  induction rest with
  | nil =>
    intro done hsplit
    rw [hsplit, List.append_nil]
    rfl
  | cons e rest ih =>
    intro done hsplit
    rw [List.foldl_cons, h.note_eq hsplit]
    exact ih (by rw [hsplit, List.append_assoc]; rfl)

/-- The edges are the pairs that go forward. -/
theorem Sound.edges_eq (h : Sound g) : g.edges = (pairs g).filter (forward g) := by
  rw [edges, edgesFrom_eq]
  exact h.foldl_note (List.nil_append _).symm

/-! ## Counting -/

theorem Sound.nodup_ends (h : Sound g) : ((pairs g).map (ends g)).Nodup :=
  List.pairwise_map.2 (h.pairwise_pairs.imp And.right)

/-- As many pairs go one way as the other. -/
theorem Sound.swap_perm (h : Sound g) :
    List.Perm (((pairs g).map (ends g)).map Prod.swap) ((pairs g).map (ends g)) := by
  have hswap : ∀ k, k ∈ (pairs g).map (ends g) → k.swap ∈ (pairs g).map (ends g) := by
    intro k hk
    obtain ⟨e, he, rfl⟩ := List.mem_map.1 hk
    obtain ⟨f, hf, hends⟩ := h.exists_swap he
    exact List.mem_map.2 ⟨f, hf, hends⟩
  refine (List.perm_ext_iff_of_nodup (h.nodup_ends.map Prod.swap_injective) h.nodup_ends).2 ?_
  intro k
  rw [List.mem_map]
  constructor
  · rintro ⟨j, hj, rfl⟩
    exact hswap j hj
  · exact fun hk => ⟨k.swap, hswap k hk, Prod.swap_swap k⟩

/-- Numbers that come in both orders: with those that are equal counted twice, there are twice as
many as in one order. -/
theorem length_add_countP_eq {ks : List (Nat × Nat)} (h : List.Perm (ks.map Prod.swap) ks) :
    ks.length + ks.countP (fun k => k.1 = k.2) = 2 * ks.countP (fun k => k.1 ≤ k.2) := by
  have hback : ks.countP (fun k => k.2 < k.1) = ks.countP (fun k => k.1 < k.2) := by
    rw [← h.countP_eq, List.countP_map]
    rfl
  have hall : ks.length = ks.countP (fun k => k.1 ≤ k.2) + ks.countP (fun k => k.2 < k.1) := by
    rw [List.length_eq_countP_add_countP (fun k => k.1 ≤ k.2)]
    simp
  have hforward : ks.countP (fun k => k.1 ≤ k.2) =
      ks.countP (fun k => k.1 < k.2) + ks.countP (fun k => k.1 = k.2) := by
    clear h hback hall
    induction ks with
    | nil => rfl
    | cons k ks ih =>
      simp only [List.countP_cons, decide_eq_true_eq]
      split <;> split <;> split <;> omega
  omega

/-- Twice the edges are the pairs, with loops counted twice. -/
theorem Sound.length_pairs (h : Sound g) :
    (pairs g).length + (pairs g).countP (fun e => g.position e.1 = g.position e.2) =
      2 * g.numEdges := by
  have hcount := length_add_countP_eq h.swap_perm
  rw [List.length_map, List.countP_map, List.countP_map] at hcount
  rw [numEdges, h.edges_eq, ← List.countP_eq_length_filter]
  exact hcount

theorem Sound.mem_edges (h : Sound g) (he : e ∈ g.edges) : e ∈ pairs g ∧ forward g e = true := by
  rwa [h.edges_eq, List.mem_filter] at he

/-- An edge is listed once: at its first endpoint, which may be either of two values. -/
theorem Sound.countP_edges_of_le (h : Sound g) (huv : Adj g u v)
    (hle : g.position u ≤ g.position v) :
    g.edges.countP (fun e => (e.1.same u && e.2.same v) || (e.1.same v && e.2.same u)) = 1 := by
  have hsame : ∀ e ∈ g.edges, ((e.1.same u && e.2.same v) || (e.1.same v && e.2.same u)) = true ↔
      (ends g e == (g.position u, g.position v)) = true := by
    intro e he
    obtain ⟨hp, hf⟩ := h.mem_edges he
    obtain ⟨-, h1, h2⟩ := h.adj_of_mem_pairs hp
    rw [same_eq_alike h1.2, same_eq_alike h1.2, same_eq_alike h2.2, same_eq_alike h2.2]
    simp only [Bool.or_eq_true, Bool.and_eq_true, ← h.ends_eq_iff hp, beq_iff_eq]
    simp only [forward, decide_eq_true_eq] at hf
    simp only [ends, Prod.mk.injEq]
    omega
  rw [List.countP_congr hsame]
  have hcount : g.edges.countP (fun e => ends g e == (g.position u, g.position v)) =
      (g.edges.map (ends g)).count (g.position u, g.position v) := by
    rw [List.count, List.countP_map]
    rfl
  rw [hcount]
  have hnodup : (g.edges.map (ends g)).Nodup := by
    rw [h.edges_eq]
    exact h.nodup_ends.sublist (List.filter_sublist.map _)
  apply List.count_eq_one_of_mem hnodup
  obtain ⟨e, he, hends⟩ := h.exists_pair huv
  have hf : forward g e = true := by
    simp only [ends, Prod.mk.injEq] at hends
    simp only [forward, decide_eq_true_eq]
    omega
  rw [h.edges_eq]
  exact List.mem_map.2 ⟨e, List.mem_filter.2 ⟨he, hf⟩, hends⟩

theorem Sound.countP_edges (h : Sound g) (huv : Adj g u v) :
    g.edges.countP (fun e => (e.1.same u && e.2.same v) || (e.1.same v && e.2.same u)) = 1 := by
  rcases Nat.le_total (g.position u) (g.position v) with hle | hle
  · exact h.countP_edges_of_le huv hle
  · rw [← h.countP_edges_of_le (h.symm u v huv) hle]
    simp only [Bool.or_comm]

/-! ## Degrees and loops -/

theorem Sound.degree_eq (h : Sound g) (hx : x ∈ g.vertices) :
    g.degree x.name = .ok x.neighbours.length := by
  have hfind := h.wf.find?_eq hx (alike_refl x.name)
  rw [degree, adjacent, (h.wf.names x hx).1, hfind]
  rfl

theorem Sound.mapM_degree (h : Sound g) {xs : List Vertex} (hxs : ∀ x ∈ xs, x ∈ g.vertices) :
    (xs.map (·.name)).mapM g.degree = .ok (xs.map (·.neighbours.length)) := by
  induction xs with
  | nil => rfl
  | cons x xs ih =>
    obtain ⟨hx, hxs⟩ := List.forall_mem_cons.1 hxs
    rw [List.map_cons, List.mapM_cons, h.degree_eq hx, ih hxs]
    rfl

theorem length_pairs_eq_sum (g : Graph) :
    (pairs g).length = (g.vertices.map (·.neighbours.length)).sum := by
  simp [pairs, pairsOf, List.length_flatMap]

/-- An edge joins a value with itself. -/
def hasLoop (g : Graph) (u : Datum) : Bool := (g.hasEdge u u).toOption == some true

theorem WF.hasEdge_eq_true_iff (hg : WF g) : g.hasEdge u v = .ok true ↔
    u.hashable = true ∧ v.hashable = true ∧ Adj g u v := by
  constructor
  · intro h
    unfold hasEdge at h
    split at h
    · cases h
    · rename_i hu
      split at h
      · cases h
      · rename_i x hx
        split at h
        · rename_i hv
          obtain ⟨hmem, hxu⟩ := of_find? hx
          exact ⟨by simpa using hu, hv, x, hmem, hxu, List.any_eq_true.1 (Except.ok.inj h)⟩
        · cases h
  · rintro ⟨hu, hv, hadj⟩
    obtain ⟨b, hb, hiff⟩ := hg.hasEdge_eq hu hv
    rw [hb, hiff.2 hadj]

theorem WF.hasLoop_iff (hg : WF g) (hu : u.hashable = true) : hasLoop g u = true ↔ Adj g u u := by
  obtain ⟨b, hb, hiff⟩ := hg.hasEdge_eq hu hu
  rw [hasLoop, hb, ← hiff]
  simp [Except.toOption]

/-- The pairs of a vertex with itself: one or none. -/
theorem Sound.countP_pairsOf (h : Sound g) (hx : x ∈ g.vertices) :
    (pairsOf x).countP (fun e => g.position e.1 = g.position e.2) =
      if hasLoop g x.name then 1 else 0 := by
  have hnodup : ((pairsOf x).map (ends g)).Nodup := List.pairwise_map.2 (h.pairwise_pairsOf hx)
  have hcount : (pairsOf x).countP (fun e => g.position e.1 = g.position e.2) =
      ((pairsOf x).map (ends g)).count (g.position x.name, g.position x.name) := by
    rw [List.count, List.countP_map]
    refine List.countP_congr fun e he => ?_
    obtain ⟨d, -, rfl⟩ := List.mem_map.1 he
    simp only [ends, Function.comp_apply, beq_iff_eq, decide_eq_true_eq, Prod.mk.injEq,
      true_and]
    exact eq_comm
  have hmem : (g.position x.name, g.position x.name) ∈ (pairsOf x).map (ends g) ↔
      hasLoop g x.name = true := by
    rw [h.wf.hasLoop_iff (h.wf.names x hx).1, List.mem_map]
    constructor
    · rintro ⟨e, he, hends⟩
      have hp : e ∈ pairs g := List.mem_flatMap.2 ⟨x, hx, he⟩
      obtain ⟨d, hd, rfl⟩ := List.mem_map.1 he
      exact ⟨x, hx, alike_refl _, d, hd, ((h.ends_eq_iff hp).1 hends).2⟩
    · rintro ⟨y, hy, hyx, d, hd, hdx⟩
      cases h.wf.eq_of_alike hy hx hyx
      have hp : (x.name, d) ∈ pairs g := mem_pairs.2 ⟨x, hx, rfl, hd⟩
      exact ⟨_, List.mem_map.2 ⟨d, hd, rfl⟩, (h.ends_eq_iff hp).2 ⟨alike_refl _, hdx⟩⟩
  rw [hcount, hnodup.count]
  simp only [hmem]

theorem Sound.countP_loops (h : Sound g) {xs : List Vertex} (hxs : ∀ x ∈ xs, x ∈ g.vertices) :
    (xs.flatMap pairsOf).countP (fun e => g.position e.1 = g.position e.2) =
      (xs.map (·.name)).countP (hasLoop g) := by
  induction xs with
  | nil => rfl
  | cons x xs ih =>
    obtain ⟨hx, hxs⟩ := List.forall_mem_cons.1 hxs
    rw [List.flatMap_cons, List.countP_append, ih hxs, h.countP_pairsOf hx, List.map_cons,
      List.countP_cons, Nat.add_comm]

/-- The degrees add up to twice the edges, except that a loop counts once. -/
theorem Sound.sum_degree (h : Sound g) :
    g.names.mapM g.degree = .ok (g.vertices.map (·.neighbours.length)) ∧
    (g.vertices.map (·.neighbours.length)).sum + g.names.countP (hasLoop g) = 2 * g.numEdges := by
  refine ⟨h.mapM_degree fun _ hx => hx, ?_⟩
  have hloops : (pairs g).countP (fun e => g.position e.1 = g.position e.2) =
      g.names.countP (hasLoop g) := h.countP_loops fun _ hx => hx
  rw [← length_pairs_eq_sum, ← hloops, h.length_pairs]

/-! ## Neighbours in another order -/

/-- The same graph with the neighbours of every vertex in some other order. -/
def Reordered (g g' : Graph) : Prop :=
  List.Forall₂ (fun x y => x.name = y.name ∧ List.Perm x.neighbours y.neighbours)
    g.vertices g'.vertices

variable {g' : Graph}

theorem Reordered.symm (h : Reordered g g') : Reordered g' g :=
  List.Forall₂.flip (h.imp fun _ _ hxy => ⟨hxy.1.symm, hxy.2.symm⟩)

/-- What does not depend on the order of neighbours is the same vertex by vertex. -/
theorem Reordered.map_eq {β : Type} (h : Reordered g g') {f : Vertex → β}
    (hf : ∀ {x y : Vertex}, x.name = y.name → List.Perm x.neighbours y.neighbours → f x = f y) :
    g'.vertices.map f = g.vertices.map f := by
  have hmap : List.Forall₂ Eq (g'.vertices.map f) (g.vertices.map f) := by
    rw [List.forall₂_map_left_iff, List.forall₂_map_right_iff]
    exact h.symm.imp fun x y hxy => hf hxy.1 hxy.2
  rwa [List.forall₂_eq_eq_eq] at hmap

theorem Reordered.names_eq (h : Reordered g g') : g'.names = g.names :=
  h.map_eq fun hname _ => hname

theorem Reordered.exists_vertex (h : Reordered g g') {y : Vertex} (hy : y ∈ g'.vertices) :
    ∃ x ∈ g.vertices, x.name = y.name ∧ List.Perm x.neighbours y.neighbours := by
  obtain ⟨i, hi, rfl⟩ := List.mem_iff_getElem.1 hy
  have hi' : i < g.vertices.length := by rwa [List.Forall₂.length_eq h]
  exact ⟨g.vertices[i], List.getElem_mem hi', List.Forall₂.get h hi' hi⟩

theorem Reordered.adj (h : Reordered g g') (huv : Adj g' u v) : Adj g u v := by
  obtain ⟨y, hy, hyu, e, he, hev⟩ := huv
  obtain ⟨x, hx, hname, hperm⟩ := h.exists_vertex hy
  exact ⟨x, hx, by rw [hname]; exact hyu, e, hperm.mem_iff.2 he, hev⟩

theorem Reordered.position_eq (h : Reordered g g') (d : Datum) : g'.position d = g.position d := by
  have hnames : ∀ g : Graph, g.position d = g.names.findIdx fun n => n.alike d := by
    intro g
    rw [position, names, List.findIdx_map]
    rfl
  rw [hnames, hnames, h.names_eq]

theorem Reordered.sound (h : Reordered g g') (hg : Sound g) : Sound g' := by
  refine ⟨⟨?_, ?_, ?_⟩, ?_, fun u v huv => h.symm.adj (hg.symm u v (h.adj huv))⟩
  · intro y hy
    obtain ⟨x, hx, hname, -⟩ := h.exists_vertex hy
    exact hname ▸ hg.wf.names x hx
  · intro y hy e he
    obtain ⟨x, hx, -, hperm⟩ := h.exists_vertex hy
    exact hg.wf.neighbours x hx e (hperm.mem_iff.2 he)
  · have hnames : g'.names.Pairwise fun m n => m.alike n = false := by
      rw [h.names_eq]
      exact List.pairwise_map.2 hg.wf.distinct
    exact List.pairwise_map.1 hnames
  · intro y hy
    obtain ⟨x, hx, -, hperm⟩ := h.exists_vertex hy
    have hboth : x.neighbours.Pairwise fun d e => d.alike e = false ∧ e.alike d = false := by
      refine (hg.simple x hx).imp_of_mem fun {d e} _ he hde => ⟨hde, ?_⟩
      rw [← Bool.not_eq_true]
      intro hed
      rw [alike_symm_of_hashable (hg.wf.neighbours x hx e he).1 hed] at hde
      cases hde
    exact ((hperm.pairwise_iff And.symm).1 hboth).imp And.left

/-! ## Edges of graphs that calls have built -/

/-- Every edge is listed once. Take any graph that calls have built, with the neighbours of each
vertex in any order. For two values that are joined, exactly one entry of the list of edges is equal
to them in one of the two directions; this holds of loops too. Every entry is an edge, and its first
endpoint does not come after the second one among the vertices. The degrees of the vertices add up
to twice the number of edges, less the number of vertices that are joined with themselves. -/
theorem edges_listed_once {vs : List Datum} {cs : List Call}
    {log : List (Call × Except Failure Unit)} (h : Proper vs cs) (hb : Built vs cs log g)
    (hr : Reordered g g') :
    (∀ u v, g.hasEdge u v = .ok true → g'.edges.countP (fun e =>
      (e.1.same u && e.2.same v) || (e.1.same v && e.2.same u)) = 1) ∧
    (∀ e ∈ g'.edges, g.hasEdge e.1 e.2 = .ok true ∧
      g.position e.1 ≤ g.position e.2 ∧ g.position e.2 < g.numVertices) ∧
    ∃ ds, g.names.mapM g.degree = .ok ds ∧
      ds.sum + g.names.countP (hasLoop g) = 2 * g'.numEdges := by
  have hg : Sound g := h.sound hb
  have hg' : Sound g' := hr.sound hg
  refine ⟨fun u v huv => ?_, fun e he => ?_, _, hg.sum_degree.1, ?_⟩
  · obtain ⟨-, -, hadj⟩ := hg.wf.hasEdge_eq_true_iff.1 huv
    exact hg'.countP_edges (hr.symm.adj hadj)
  · obtain ⟨hp, hf⟩ := hg'.mem_edges he
    obtain ⟨hadj, h1, h2⟩ := hg'.adj_of_mem_pairs hp
    refine ⟨hg.wf.hasEdge_eq_true_iff.2 ⟨h1.1, h2.1, hr.adj hadj⟩, ?_, ?_⟩
    · simpa [forward, hr.position_eq] using hf
    · exact position_lt_iff.2 (hg.symm _ _ (hr.adj hadj)).has
  · have hloops : g'.names.countP (hasLoop g') = g.names.countP (hasLoop g) := by
      rw [hr.names_eq]
      refine List.countP_congr fun n hn => ?_
      obtain ⟨x, hx, rfl⟩ := List.mem_map.1 hn
      have hkey := (hg.wf.names x hx).1
      rw [hg.wf.hasLoop_iff hkey, hg'.wf.hasLoop_iff hkey]
      exact ⟨hr.adj, hr.symm.adj⟩
    have hdegrees := hr.map_eq (f := (·.neighbours.length)) fun _ hperm => hperm.length_eq
    rw [← hg'.sum_degree.2, hloops, hdegrees]

/-- Calls that add an edge again with its endpoints swapped and in other forms, a loop, and a call
that is cut short. -/
def repeatedCalls : List Call :=
  [.edge (.float (.exact 1)) (.str "y"), .edge (.str "y") (.bool true), .edge (.str "y") (.str "y"),
    .edge (.str "x") (.int 1), .edge (.str "z") (.list [])]

/-- The graph with the neighbours of every vertex in reverse. -/
def reversed (g : Graph) : Graph :=
  ⟨g.vertices.map fun x => { x with neighbours := x.neighbours.reverse }⟩

theorem edges_listed_once_repeated :
    Proper [.int 1, .str "x"] repeatedCalls ∧
    ∃ log g, Built [.int 1, .str "x"] repeatedCalls log g ∧ Reordered g (reversed g) ∧
      g.names = [.int 1, .str "x", .str "y", .str "z"] ∧
      (reversed g).edges = [(.int 1, .str "x"), (.int 1, .str "y"), (.str "y", .str "y")] ∧
      (reversed g).edges.countP (fun e =>
        (e.1.same (.str "y") && e.2.same (.int 1)) ||
          (e.1.same (.int 1) && e.2.same (.str "y"))) = 1 ∧
      ∃ ds, g.names.mapM g.degree = .ok ds ∧ ds.sum + 1 = 2 * 3 := by
  have h : Proper [.int 1, .str "x"] repeatedCalls := by
    constructor
    · decide
    · simp only [repeatedCalls, List.forall_mem_cons, Call.values]
      decide
  obtain ⟨g₀, w', h₀, hrun⟩ := h.makeAll_eq (World.start .empty)
  have hb : Built [.int 1, .str "x"] repeatedCalls _ _ := ⟨g₀, _, w', h₀, hrun⟩
  have hr : ∀ g, Reordered g (reversed g) := by
    intro g
    rw [Reordered, reversed, List.forall₂_map_right_iff, List.forall₂_same]
    exact fun x _ => ⟨rfl, (List.reverse_perm _).symm⟩
  obtain ⟨honce, -, ds, hds, hsum⟩ := edges_listed_once h hb (hr _)
  exact ⟨h, _, _, hb, hr _, rfl, rfl, honce _ _ rfl, ds, hds, hsum⟩

end PassCheck.Graph
