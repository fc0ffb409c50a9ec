/-
A graph against the history of its calls. A graph starts from a list of vertices and is changed by
calls that add a vertex or an edge; a call may fail, and the next one finds what it left behind. Two
values are joined exactly if a call that succeeded joined them, in one of the two orders, so the
edges depend neither on order and direction of the calls nor on repetitions.

What a call does is said once (`effect_cases`); a run of calls is an induction over it.
-/
import PassCheck.Proofs.Graph.Views
import PassCheck.Proofs.World.Jobs

namespace PassCheck.Graph

open Datum (NotNan same_eq_alike)

variable {g : Graph} {a b d u v : Datum}

/-! ## Names in order of insertion -/

/-- Adds a name unless an equal one is there. -/
def addName (ns : List Datum) (d : Datum) : List Datum :=
  if ns.any fun n => n.same d then ns else ns ++ [d]

theorem eraseDupsBy_eq_foldl (ds : List Datum) :
    ds.eraseDupsBy (fun new old => old.same new) = ds.foldl addName [] := by
  suffices h : ∀ ds ns : List Datum,
      List.eraseDupsBy.loop (fun new old => old.same new) ds ns = ds.foldl addName ns.reverse from
    h ds []
  intro ds
  induction ds with
  | nil => intro ns; rfl
  | cons d ds ih =>
    intro ns
    rw [List.eraseDupsBy.loop, List.foldl_cons, addName, List.any_reverse]
    split
    · rename_i h; rw [ih, h, if_pos rfl]
    · rename_i h; rw [ih, h, if_neg Bool.false_ne_true, List.reverse_cons]

theorem has_iff_names : Has g u ↔ ∃ n ∈ g.names, n.alike u = true := by
  simp [Has, names]

theorem WF.names_insert (hg : WF g) : (g.insert d).names = addName g.names d := by
  have hany : (g.names.any fun n => n.same d) = (g.find? d).isSome := by
    rw [Bool.eq_iff_iff, find?_isSome_iff, has_iff_names, List.any_eq_true]
    refine exists_congr fun n => and_congr_right fun hn => ?_
    obtain ⟨x, hx, rfl⟩ := List.mem_map.1 hn
    rw [same_eq_alike (hg.names x hx).2]
  unfold Graph.insert addName
  rw [hany]
  split
  · rfl
  · simp [Graph.names]

theorem WF.names_join (hg : WF g) (ha : Key a) (hb : Key b) :
    (g.join a b).2.names = addName (addName g.names a) b := by
  rw [join_of_hashable ha.1 hb.1, names_attach, ((hg.insert ha).attach hb).names_insert,
    names_attach, hg.names_insert]

/-! ## Calls -/

/-- A call that changes a graph. -/
inductive Call where
  | vertex (d : Datum)
  | edge (u v : Datum)

namespace Call

/-- Makes a call. What became of it is told beside the graph that it leaves behind. -/
def make (g : Graph) : Call → Job (Except Failure Unit × Graph)
  | .vertex d =>
    match g.addVertex d with
    | .ok g' => return (.ok (), g')
    | .error e => return (.error e, g)
  | .edge u v => tryCatch (g.addEdge u v) fun e => return (.error e, g)

/-- The values that a call is about. -/
def values : Call → List Datum
  | .vertex d => [d]
  | .edge u v => [u, v]

/-- What becomes of a call. The text of the first endpoint is made in any case. -/
def outcome : Call → Except Failure Unit
  | .vertex d => if d.hashable then .ok () else .error .badType
  | .edge u v =>
    if u.literal?.isNone then .error .longInteger
    else if u.hashable && v.hashable then .ok () else .error .badType

/-- The values that a call puts in, in order. -/
def inserts : Call → List Datum
  | .vertex d => if d.hashable then [d] else []
  | .edge u v =>
    if u.literal?.isSome && u.hashable then u :: if v.hashable then [v] else [] else []

/-- The graph after a call. -/
def effect (g : Graph) : Call → Graph
  | .vertex d => if d.hashable then g.insert d else g
  | .edge u v => if u.literal?.isNone then g else (g.join u v).2

end Call

variable {c : Call}

theorem addEdge_apply {t : String} (ht : u.literal? = some t) (g : Graph) (v : Datum) (w : World) :
    ∃ w', g.addEdge u v w = (.ok (g.join u v), w') := by
  obtain ⟨w', hw'⟩ := softAssert_apply (.bool !(u.same v))
    ("self loop on " ++ t ++ " in interference graph") w
  refine ⟨w', ?_⟩
  rw [addEdge, Job.bind_of_ok (Job.written_apply ht w), Job.bind_of_ok hw', Job.pure_apply]

theorem join_fst (g : Graph) (u v : Datum) : (g.join u v).1 =
    if u.hashable && v.hashable then .ok () else .error .badType := by
  unfold join
  cases u.hashable <;> cases v.hashable <;> rfl

/-- A call always ends, and what becomes of it depends on its values only. -/
theorem make_eq (g : Graph) (c : Call) (w : World) :
    ∃ w', c.make g w = (.ok (c.outcome, c.effect g), w') := by
  cases c with
  | vertex d =>
    refine ⟨w, ?_⟩
    simp only [Call.make, Call.outcome, Call.effect, addVertex]
    cases d.hashable <;> rfl
  | edge u v =>
    simp only [Call.make, Call.outcome, Call.effect]
    cases ht : u.literal? with
    | none =>
      have hw : Job.written u.literal? w = (.error .longInteger, w) := by rw [ht]; rfl
      exact ⟨w, Job.tryCatch_of_error (Job.bind_of_error hw)⟩
    | some t =>
      obtain ⟨w', hw'⟩ := addEdge_apply ht g v w
      refine ⟨w', ?_⟩
      rw [Job.tryCatch_of_ok hw', ← join_fst]
      rfl

/-! ## What one call does -/

/-- The graph after a call, by what became of the call. -/
theorem effect_cases (g : Graph) (c : Call) :
    (∃ d, c = .vertex d ∧ c.outcome = .ok () ∧ d.hashable = true ∧ c.effect g = g.insert d ∧
      c.inserts = [d]) ∨
    (∃ a b, c = .edge a b ∧ c.outcome = .ok () ∧ a.hashable = true ∧ b.hashable = true ∧
      c.effect g = (g.join a b).2 ∧ c.inserts = [a, b]) ∨
    (∃ a b e, c = .edge a b ∧ c.outcome = .error e ∧ a.hashable = true ∧ c.effect g = g.insert a ∧
      c.inserts = [a]) ∨
    (∃ e, c.outcome = .error e ∧ c.effect g = g ∧ c.inserts = []) := by
  cases c with
  | vertex d =>
    simp only [Call.outcome, Call.effect, Call.inserts]
    cases hd : d.hashable
    · exact .inr (.inr (.inr ⟨_, rfl, rfl, rfl⟩))
    · exact .inl ⟨d, rfl, rfl, hd, rfl, rfl⟩
  | edge a b =>
    simp only [Call.outcome, Call.effect, Call.inserts, join]
    cases hl : a.literal?
    · exact .inr (.inr (.inr ⟨_, rfl, rfl, rfl⟩))
    · cases ha : a.hashable
      · exact .inr (.inr (.inr ⟨_, rfl, rfl, rfl⟩))
      · cases hb : b.hashable
        · exact .inr (.inr (.inl ⟨a, b, _, rfl, rfl, ha, rfl, rfl⟩))
        · exact .inr (.inl ⟨a, b, rfl, rfl, ha, hb, by rw [ha, hb]; rfl, rfl⟩)

/-- A call that fails changes no neighbours; at most its first endpoint is a new vertex. -/
theorem effect_of_error {e : Failure} (h : c.outcome = .error e) :
    c.effect g = g ∨ ∃ a b, c = .edge a b ∧ g.contains a = .ok false ∧
      (c.effect g).vertices = g.vertices ++ [⟨a, []⟩] := by
  rcases effect_cases g c with ⟨d, -, ho, -⟩ | ⟨a, b, -, ho, -⟩ | ⟨a, b, e', hc, -, ha, he, -⟩ |
    ⟨e', -, he, -⟩
  · rw [ho] at h; cases h
  · rw [ho] at h; cases h
  · rw [he]
    unfold insert
    split
    · exact .inl rfl
    · rename_i hno
      exact .inr ⟨a, b, hc, by simp [contains, ha, hno], rfl⟩
  · exact .inl he

/-- A call joins two values: its endpoints are equal to them in one of the two orders. -/
def Call.Joins (c : Call) (u v : Datum) : Prop :=
  ∃ a b, c = .edge a b ∧
    (a.same u = true ∧ b.same v = true ∨ a.same v = true ∧ b.same u = true)

theorem not_joins_vertex : ¬ (Call.vertex d).Joins u v := by
  rintro ⟨a, b, hc, -⟩; cases hc

theorem joins_edge (ha : NotNan a) (hb : NotNan b) : (Call.edge a b).Joins u v ↔
    (a.alike u = true ∧ b.alike v = true) ∨ (b.alike u = true ∧ a.alike v = true) := by
  rw [← same_eq_alike ha, ← same_eq_alike ha, ← same_eq_alike hb, ← same_eq_alike hb]
  constructor
  · rintro ⟨_, _, ⟨⟩, h | h⟩
    · exact .inl h
    · exact .inr h.symm
  · rintro (h | h)
    · exact ⟨a, b, rfl, .inl h⟩
    · exact ⟨a, b, rfl, .inr h.symm⟩

theorem Call.Joins.symm (h : c.Joins u v) : c.Joins v u := by
  obtain ⟨a, b, rfl, h⟩ := h
  exact ⟨a, b, rfl, h.symm⟩

theorem WF.effect (hg : WF g) (hc : ∀ d ∈ c.values, NotNan d) : WF (c.effect g) := by
  rcases effect_cases g c with ⟨d, rfl, -, hd, he, -⟩ | ⟨a, b, rfl, -, ha, hb, he, -⟩ |
    ⟨a, b, e, rfl, -, ha, he, -⟩ | ⟨e, -, he, -⟩ <;> rw [he]
  · exact hg.insert ⟨hd, hc d (by simp [Call.values])⟩
  · exact hg.join ⟨ha, hc a (by simp [Call.values])⟩ ⟨hb, hc b (by simp [Call.values])⟩
  · exact hg.insert ⟨ha, hc a (by simp [Call.values])⟩
  · exact hg

theorem WF.adj_effect (hg : WF g) (hc : ∀ d ∈ c.values, NotNan d) :
    Adj (c.effect g) u v ↔ Adj g u v ∨ (c.outcome.isOk = true ∧ c.Joins u v) := by
  rcases effect_cases g c with ⟨d, rfl, ho, hd, he, -⟩ | ⟨a, b, rfl, ho, ha, hb, he, -⟩ |
    ⟨a, b, e, rfl, ho, ha, he, -⟩ | ⟨e, ho, he, -⟩ <;> rw [he, ho]
  · simp [adj_insert, not_joins_vertex]
  · have hna := hc a (by simp [Call.values])
    have hnb := hc b (by simp [Call.values])
    rw [adj_join hg ⟨ha, hna⟩ ⟨hb, hnb⟩, joins_edge hna hnb]
    simp [Except.isOk, Except.toBool]
  · simp [adj_insert, Except.isOk, Except.toBool]
  · simp [Except.isOk, Except.toBool]

theorem WF.names_effect (hg : WF g) (hc : ∀ d ∈ c.values, NotNan d) :
    (c.effect g).names = c.inserts.foldl addName g.names := by
  rcases effect_cases g c with ⟨d, rfl, -, hd, he, hi⟩ | ⟨a, b, rfl, -, ha, hb, he, hi⟩ |
    ⟨a, b, e, rfl, -, ha, he, hi⟩ | ⟨e, -, he, hi⟩ <;> rw [he, hi]
  · exact hg.names_insert
  · exact hg.names_join ⟨ha, hc a (by simp [Call.values])⟩ ⟨hb, hc b (by simp [Call.values])⟩
  · exact hg.names_insert
  · rfl

/-! ## What a run of calls does -/

/-- Makes calls one after another, whatever becomes of each. Every call is noted with what became of
it. -/
def makeAll : Graph → List Call → Job (List (Call × Except Failure Unit) × Graph)
  | g, [] => return ([], g)
  | g, c :: cs => do
    let (r, g) ← c.make g
    let (log, g) ← makeAll g cs
    return ((c, r) :: log, g)

/-- The calls of a log that succeeded. -/
def succeeded (log : List (Call × Except Failure Unit)) : List Call :=
  (log.filter fun e => e.2.isOk).map (·.1)

theorem makeAll_eq (cs : List Call) : ∀ (g : Graph) (w : World), ∃ w', makeAll g cs w =
    (.ok (cs.map fun c => (c, c.outcome), cs.foldl Call.effect g), w') := by
  induction cs with
  | nil => intro g w; exact ⟨w, rfl⟩
  | cons c cs ih =>
    intro g w
    obtain ⟨w1, h1⟩ := make_eq g c w
    obtain ⟨w2, h2⟩ := ih (c.effect g) w1
    refine ⟨w2, ?_⟩
    rw [makeAll, Job.bind_of_ok h1]
    exact Job.bind_of_ok h2

theorem mem_succeeded_map {cs : List Call} :
    c ∈ succeeded (cs.map fun c => (c, c.outcome)) ↔ c ∈ cs ∧ c.outcome.isOk = true := by
  simp [succeeded, List.mem_filter]

theorem run_calls {cs : List Call} (hcs : ∀ c ∈ cs, ∀ d ∈ c.values, NotNan d) :
    ∀ {g : Graph}, WF g → WF (cs.foldl Call.effect g) ∧
      (∀ u v, Adj (cs.foldl Call.effect g) u v ↔
        Adj g u v ∨ ∃ c ∈ cs, c.outcome.isOk = true ∧ c.Joins u v) ∧
      (cs.foldl Call.effect g).names = (cs.flatMap Call.inserts).foldl addName g.names := by
  induction cs with
  | nil => intro g hg; exact ⟨hg, by simp, rfl⟩
  | cons c cs ih =>
    intro g hg
    obtain ⟨hc, hcs⟩ := List.forall_mem_cons.1 hcs
    obtain ⟨hw, hadj, hnames⟩ := ih hcs (hg.effect hc)
    refine ⟨hw, fun u v => ?_, ?_⟩
    · rw [List.foldl_cons, hadj, hg.adj_effect hc, or_assoc, List.exists_mem_cons_iff]
    · rw [List.foldl_cons, hnames, hg.names_effect hc, List.flatMap_cons, List.foldl_append]

/-! ## From the first vertices on -/

theorem wf_empty : WF empty := ⟨nofun, nofun, .nil⟩

theorem not_adj_empty : ¬ Adj empty u v := by
  rintro ⟨x, hx, -⟩; cases hx

/-- A graph starts as if each of its first vertices were added by a call. -/
theorem ofVertices_eq {vs : List Datum} (h : ∀ v ∈ vs, v.hashable = true) :
    ∀ g, ofVertices g vs = .ok ((vs.map Call.vertex).foldl Call.effect g) := by
  induction vs with
  | nil => intro g; rfl
  | cons v vs ih =>
    obtain ⟨hv, hvs⟩ := List.forall_mem_cons.1 h
    intro g
    have hadd : g.addVertex v = .ok ((Call.vertex v).effect g) := by simp [addVertex, Call.effect, hv]
    rw [ofVertices, hadd]
    exact ih hvs _

theorem flatMap_inserts {vs : List Datum} (h : ∀ v ∈ vs, v.hashable = true) :
    (vs.map Call.vertex).flatMap Call.inserts = vs := by
  induction vs with
  | nil => rfl
  | cons v vs ih =>
    obtain ⟨hv, hvs⟩ := List.forall_mem_cons.1 h
    rw [List.map_cons, List.flatMap_cons, ih hvs]
    simp [Call.inserts, hv]

/-- The graph that is made of first vertices and changed by calls, with the log of the calls. -/
def Built (vs : List Datum) (cs : List Call) (log : List (Call × Except Failure Unit)) (g : Graph) :
    Prop :=
  ∃ g₀ w w', ofDatum (.list vs) = .ok g₀ ∧ makeAll g₀ cs w = (.ok (log, g), w')

/-- First vertices and calls without a NaN. -/
structure Proper (vs : List Datum) (cs : List Call) : Prop where
  vertices : ∀ v ∈ vs, v.hashable = true ∧ NotNan v
  calls : ∀ c ∈ cs, ∀ d ∈ c.values, NotNan d

section

variable {vs : List Datum} {cs : List Call} {log : List (Call × Except Failure Unit)}

theorem Proper.makeAll_eq (h : Proper vs cs) (w : World) : ∃ g₀ w', ofDatum (.list vs) = .ok g₀ ∧
    makeAll g₀ cs w = (.ok (cs.map fun c => (c, c.outcome),
      (vs.map Call.vertex ++ cs).foldl Call.effect empty), w') := by
  obtain ⟨w', hw'⟩ := Graph.makeAll_eq cs ((vs.map Call.vertex).foldl Call.effect empty) w
  refine ⟨_, w', ofVertices_eq (fun v hv => (h.vertices v hv).1) empty, ?_⟩
  rw [hw', List.foldl_append]

theorem Proper.eq_of_built (h : Proper vs cs) (hb : Built vs cs log g) :
    log = (cs.map fun c => (c, c.outcome)) ∧
      g = (vs.map Call.vertex ++ cs).foldl Call.effect empty := by
  obtain ⟨g₀, w, w', h₀, hrun⟩ := hb
  obtain ⟨g₁, w₁, h₁, hrun₁⟩ := h.makeAll_eq w
  cases h₀.symm.trans h₁
  cases hrun.symm.trans hrun₁
  exact ⟨rfl, rfl⟩

/-- What is known of every graph: its edges are those of the calls that succeeded, and its names are
the values put in, without those that are equal to an earlier one. -/
theorem Proper.spec (h : Proper vs cs) (hb : Built vs cs log g) :
    log = (cs.map fun c => (c, c.outcome)) ∧ WF g ∧
    (∀ u v, Adj g u v ↔ ∃ c ∈ succeeded log, c.Joins u v) ∧
    g.names = (vs ++ cs.flatMap Call.inserts).eraseDupsBy (fun new old => old.same new) := by
  obtain ⟨rfl, rfl⟩ := h.eq_of_built hb
  have hcalls : ∀ c ∈ vs.map Call.vertex ++ cs, ∀ d ∈ c.values, NotNan d := by
    intro c hc
    rcases List.mem_append.1 hc with hc | hc
    · obtain ⟨v, hv, rfl⟩ := List.mem_map.1 hc
      intro d hd
      cases List.mem_singleton.1 hd
      exact (h.vertices v hv).2
    · exact h.calls c hc
  obtain ⟨hw, hadj, hnames⟩ := run_calls hcalls wf_empty
  refine ⟨rfl, hw, fun u v => ?_, ?_⟩
  · rw [hadj]
    constructor
    · rintro (hno | ⟨c, hc, ho, hj⟩)
      · exact absurd hno not_adj_empty
      · refine ⟨c, mem_succeeded_map.2 ⟨?_, ho⟩, hj⟩
        rcases List.mem_append.1 hc with hc | hc
        · obtain ⟨d, -, rfl⟩ := List.mem_map.1 hc
          exact absurd hj not_joins_vertex
        · exact hc
    · rintro ⟨c, hc, hj⟩
      obtain ⟨hc, ho⟩ := mem_succeeded_map.1 hc
      exact .inr ⟨c, List.mem_append_right _ hc, ho, hj⟩
  · rw [hnames, eraseDupsBy_eq_foldl, List.flatMap_append,
      flatMap_inserts fun v hv => (h.vertices v hv).1]
    rfl

theorem Proper.hasEdge_eq (h : Proper vs cs) (hb : Built vs cs log g) (hu : u.hashable = true)
    (hv : v.hashable = true) :
    ∃ b, g.hasEdge u v = .ok b ∧ (b = true ↔ ∃ c ∈ succeeded log, c.Joins u v) := by
  obtain ⟨-, hg, hadj, -⟩ := h.spec hb
  obtain ⟨b, he, hb⟩ := hg.hasEdge_eq hu hv
  exact ⟨b, he, hb.trans (hadj u v)⟩

theorem Proper.adjacent_symm (h : Proper vs cs) (hb : Built vs cs log g) {ds : List Datum}
    (hu : g.adjacent u = .ok ds) (hd : d ∈ ds) :
    ∃ es, g.adjacent d = .ok es ∧ ∃ e ∈ es, e.same u = true := by
  obtain ⟨-, hg, hadj, -⟩ := h.spec hb
  obtain ⟨hud, hkey⟩ := hg.adj_of_adjacent hu hd
  obtain ⟨c, hc, hj⟩ := (hadj u d).1 hud
  exact hg.adjacent_of_adj hkey.1 ((hadj d u).2 ⟨c, hc, hj.symm⟩)

end

/-! ## Order, direction and repetition -/

/-- Every edge of some calls is among others, in one of the two directions. -/
def Covered (cs cs' : List Call) : Prop :=
  ∀ a b, .edge a b ∈ cs → .edge a b ∈ cs' ∨ .edge b a ∈ cs'

theorem Covered.joins {cs cs' : List Call} (h : Covered cs cs') (hj : ∃ c ∈ cs, c.Joins u v) :
    ∃ c ∈ cs', c.Joins u v := by
  obtain ⟨_, hc, a, b, rfl, hj⟩ := hj
  rcases h a b hc with hc | hc
  · exact ⟨_, hc, a, b, rfl, hj⟩
  · exact ⟨_, hc, b, a, rfl, hj.symm.imp And.symm And.symm⟩

/-- Where both endpoints have a text, the direction of an edge does not decide whether it can be
added. -/
theorem outcome_isOk_edge_comm (ha : a.Writable) (hb : b.Writable) :
    (Call.edge a b).outcome.isOk = (Call.edge b a).outcome.isOk := by
  obtain ⟨s, hs⟩ := Datum.literal?_of_writable ha
  obtain ⟨t, ht⟩ := Datum.literal?_of_writable hb
  simp [Call.outcome, hs, ht, Bool.and_comm]

theorem Covered.succeeded {cs cs' : List Call} (h : Covered cs cs')
    (hcs : ∀ c ∈ cs, ∀ d ∈ c.values, d.Writable) :
    Covered (succeeded (cs.map fun c => (c, c.outcome)))
      (succeeded (cs'.map fun c => (c, c.outcome))) := by
  intro a b hab
  obtain ⟨hmem, hok⟩ := mem_succeeded_map.1 hab
  have hd := hcs _ hmem
  rcases h a b hmem with hc | hc
  · exact .inl (mem_succeeded_map.2 ⟨hc, hok⟩)
  · refine .inr (mem_succeeded_map.2 ⟨hc, ?_⟩)
    rwa [← outcome_isOk_edge_comm (hd a (by simp [Call.values])) (hd b (by simp [Call.values]))]

theorem hasEdge_congr {vs vs' : List Datum} {cs cs' : List Call}
    {log log' : List (Call × Except Failure Unit)} {g g' : Graph} (h : Proper vs cs)
    (h' : Proper vs' cs') (hb : Built vs cs log g) (hb' : Built vs' cs' log' g')
    (hc : Covered (succeeded log) (succeeded log')) (hc' : Covered (succeeded log') (succeeded log))
    (hu : u.hashable = true) (hv : v.hashable = true) : g.hasEdge u v = g'.hasEdge u v := by
  obtain ⟨b, he, hj⟩ := h.hasEdge_eq hb hu hv
  obtain ⟨b', he', hj'⟩ := h'.hasEdge_eq hb' hu hv
  have hbb : b = b' := Bool.eq_iff_iff.2 (hj.trans (Iff.trans ⟨hc.joins, hc'.joins⟩ hj'.symm))
  rw [he, he', hbb]

/-- A graph shows the calls it was built by. Two values are joined exactly if a call that succeeded
joined them, so adjacency is symmetric and every neighbour is a vertex; the vertices are the values
put in, in the order of their first insertion and without repetition. A call that fails changes no
neighbours and adds at most its first endpoint as a vertex. Graphs whose successful calls have the
same edges, in any order, direction and number, have the same edges; where every integer can be
written, the same holds of all calls. -/
theorem built_graph_joins_iff_call :
    (∀ (vs : List Datum) (cs : List Call) (w : World), Proper vs cs → ∃ g₀ log g w',
      ofDatum (.list vs) = .ok g₀ ∧ makeAll g₀ cs w = (.ok (log, g), w') ∧ log.map (·.1) = cs ∧
      (∀ u v, u.hashable = true → v.hashable = true →
        ∃ b, g.hasEdge u v = .ok b ∧ (b = true ↔ ∃ c ∈ succeeded log, c.Joins u v)) ∧
      (∀ u v, u.hashable = true → v.hashable = true → g.hasEdge u v = g.hasEdge v u) ∧
      (∀ u ds, g.adjacent u = .ok ds → ∀ d ∈ ds,
        ∃ es, g.adjacent d = .ok es ∧ ∃ e ∈ es, e.same u = true) ∧
      g.names.Pairwise (fun m n => m.same n = false) ∧
      g.names = (vs ++ cs.flatMap Call.inserts).eraseDupsBy fun new old => old.same new) ∧
    (∀ (g : Graph) (c : Call) (w : World) e g' w', c.make g w = (.ok (.error e, g'), w') →
      g' = g ∨ ∃ a b, c = .edge a b ∧ g.contains a = .ok false ∧
        g'.vertices = g.vertices ++ [⟨a, []⟩]) ∧
    ∀ vs vs' cs cs' log log' g g', Proper vs cs → Proper vs' cs' → Built vs cs log g →
      Built vs' cs' log' g' →
      (Covered (succeeded log) (succeeded log') ∧ Covered (succeeded log') (succeeded log) ∨
        Covered cs cs' ∧ Covered cs' cs ∧ ∀ c ∈ cs ++ cs', ∀ d ∈ c.values, d.Writable) →
      ∀ u v, u.hashable = true → v.hashable = true → g.hasEdge u v = g'.hasEdge u v := by
  refine ⟨fun vs cs w h => ?_, fun g c w e g' w' hfail => ?_, ?_⟩
  · obtain ⟨g₀, w', h₀, hrun⟩ := h.makeAll_eq w
    have hb : Built vs cs _ _ := ⟨g₀, w, w', h₀, hrun⟩
    obtain ⟨-, hg, -, hnames⟩ := h.spec hb
    refine ⟨g₀, _, _, w', h₀, hrun, ?_, fun u v => h.hasEdge_eq hb, fun u v hu hv => ?_,
      fun u ds hds d => h.adjacent_symm hb hds, ?_, hnames⟩
    · simp [Function.comp_def]
    · obtain ⟨b, he, hj⟩ := h.hasEdge_eq hb hu hv
      obtain ⟨b', he', hj'⟩ := h.hasEdge_eq hb hv hu
      have hbb : b = b' := by
        rw [Bool.eq_iff_iff, hj, hj']
        exact ⟨fun ⟨c, hc, h⟩ => ⟨c, hc, h.symm⟩, fun ⟨c, hc, h⟩ => ⟨c, hc, h.symm⟩⟩
      rw [he, he', hbb]
    · refine List.pairwise_map.2 (hg.distinct.imp_of_mem fun {x y} hx _ hne => ?_)
      rwa [same_eq_alike (hg.names x hx).2]
  · obtain ⟨w₁, h₁⟩ := make_eq g c w
    rw [hfail] at h₁
    obtain ⟨ho, rfl⟩ := Prod.mk.inj (Except.ok.inj (Prod.mk.inj h₁).1)
    exact effect_of_error ho.symm
  · rintro vs vs' cs cs' log log' g g' h h' hb hb' (⟨hc, hc'⟩ | ⟨hc, hc', hw⟩) u v
    · exact hasEdge_congr h h' hb hb' hc hc'
    · obtain ⟨hw, hw'⟩ := List.forall_mem_append.1 hw
      obtain ⟨rfl, -⟩ := h.spec hb
      obtain ⟨rfl, -⟩ := h'.spec hb'
      exact hasEdge_congr h h' hb hb' (hc.succeeded hw) (hc'.succeeded hw')

/-- Calls with equal values of several kinds: the second one is cut short, the third one refused. -/
def mixedCalls : List Call :=
  [.edge (.float (.exact 1)) (.str "y"), .edge (.str "z") (.list []), .vertex (.dict []),
    .edge (.str "y") (.bool true)]

theorem built_graph_joins_iff_call_mixed :
    Proper [.int 1, .str "x", .bool true] mixedCalls ∧
    ∃ g₀ log g w', ofDatum (.list [.int 1, .str "x", .bool true]) = .ok g₀ ∧
      makeAll g₀ mixedCalls (World.start .empty) = (.ok (log, g), w') ∧
      g.names = [.int 1, .str "x", .str "y", .str "z"] ∧
      g.hasEdge (.str "y") (.int 1) = g.hasEdge (.int 1) (.str "y") := by
  have h : Proper [.int 1, .str "x", .bool true] mixedCalls := by
    constructor
    · decide
    · simp only [mixedCalls, List.forall_mem_cons, Call.values]
      decide
  obtain ⟨g₀, log, g, w', h₀, hrun, -, -, hsymm, -, -, hnames⟩ :=
    built_graph_joins_iff_call.1 _ _ (World.start .empty) h
  exact ⟨h, g₀, log, g, w', h₀, hrun, hnames.trans rfl, hsymm _ _ rfl rfl⟩

end PassCheck.Graph
