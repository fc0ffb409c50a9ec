/-
Undirected graphs of values, with vertices in order of insertion. Values that are alike are one
vertex, and the form that came first stays; a neighbour keeps the form in which its edge was first
added. Edges are only ever added.
-/
import PassCheck.Datum.Equality
import PassCheck.World.Trace

namespace PassCheck

/-- A vertex with its neighbours, in order of insertion. -/
structure Vertex where
  name : Datum
  neighbours : List Datum
deriving Inhabited

/-- An undirected graph. -/
structure Graph where
  vertices : List Vertex
deriving Inhabited

namespace Graph

/-- The graph without vertices. -/
def empty : Graph := ⟨[]⟩

/-- The names of the vertices, in order of insertion. -/
def names (g : Graph) : List Datum := g.vertices.map (·.name)

/-- The vertex that is alike to a value. -/
def find? (g : Graph) (d : Datum) : Option Vertex := g.vertices.find? fun v => v.name.alike d

/-- Adds a value to neighbours unless one alike is there. -/
def insertNeighbour (d : Datum) (ds : List Datum) : List Datum :=
  if ds.any fun e => e.alike d then ds else ds ++ [d]

/-- Makes `v` a neighbour of the vertex of `u`. -/
def attach (g : Graph) (u v : Datum) : Graph :=
  ⟨g.vertices.map fun x =>
    if x.name.alike u then { x with neighbours := insertNeighbour v x.neighbours } else x⟩

/-- Adds a hashable value as a vertex unless one alike is there. -/
def insert (g : Graph) (d : Datum) : Graph :=
  if (g.find? d).isSome then g else ⟨g.vertices ++ [⟨d, []⟩]⟩

/-- Adds a vertex. A value that cannot be a key is refused. -/
def addVertex (g : Graph) (d : Datum) : Except Failure Graph :=
  if d.hashable then .ok (g.insert d) else .error .badType

/-- The graph of a list of vertices. -/
def ofVertices : Graph → List Datum → Except Failure Graph
  | g, [] => .ok g
  | g, d :: ds => do
    let g ← g.addVertex d
    ofVertices g ds

/-- The graph of any value that can be visited. -/
def ofDatum (d : Datum) : Except Failure Graph :=
  match d.visit? with
  | none => .error .badType
  | some ds => ofVertices empty ds

/-- Joins two vertices, adding them where they are missing. The first endpoint is there before the
second one is looked at, so a second one that is refused leaves it behind. -/
def join (g : Graph) (u v : Datum) : Except Failure Unit × Graph :=
  if !u.hashable then (.error .badType, g)
  else
    let g := g.insert u
    if !v.hashable then (.error .badType, g)
    else (.ok (), ((g.attach u v).insert v).attach v u)

/-- Adds an edge, with a warning when it joins a vertex to itself. -/
def addEdge (g : Graph) (u v : Datum) : Job (Except Failure Unit × Graph) := do
  let t ← Job.written u.literal?
  let _ ← softAssert (.bool !(u.same v)) (.str ("self loop on " ++ t ++ " in interference graph"))
  return g.join u v

/-! ## Queries -/

/-- Whether a value is a vertex. -/
def contains (g : Graph) (d : Datum) : Except Failure Bool :=
  if d.hashable then .ok (g.find? d).isSome else .error .badType

/-- The neighbours of a vertex. -/
def adjacent (g : Graph) (u : Datum) : Except Failure (List Datum) :=
  if !u.hashable then .error .badType
  else
    match g.find? u with
    | some v => .ok v.neighbours
    | none => .error (.report (.lookup u))

/-- Whether an edge joins two values. The second one is only looked at if the first is a vertex. -/
def hasEdge (g : Graph) (u v : Datum) : Except Failure Bool :=
  if !u.hashable then .error .badType
  else
    match g.find? u with
    | none => .ok false
    | some x => if v.hashable then .ok (x.neighbours.any fun e => e.alike v) else .error .badType

/-- The number of neighbours of a vertex. -/
def degree (g : Graph) (u : Datum) : Except Failure Nat := do
  return (← g.adjacent u).length

/-- The edges of the vertices that follow, given those listed already: an edge is listed at the
endpoint that comes first. -/
def edgesFrom : List Vertex → List (Datum × Datum) → List (Datum × Datum)
  | [], seen => seen
  | x :: xs, seen =>
    edgesFrom xs (x.neighbours.foldl (fun seen v =>
      if seen.any fun e => e.1.alike v && e.2.alike x.name then seen
      else seen ++ [(x.name, v)]) seen)

/-- Every edge once, at its first endpoint. -/
def edges (g : Graph) : List (Datum × Datum) := edgesFrom g.vertices []

/-- The number of vertices. -/
def numVertices (g : Graph) : Nat := g.vertices.length

/-- The number of edges, each counted once. -/
def numEdges (g : Graph) : Nat := g.edges.length

/-! ## Listing by position -/

/-- The position of the vertex equal to a value. -/
def position (g : Graph) (d : Datum) : Nat := g.vertices.findIdx fun v => v.name.alike d

/-- Values in the order of the vertices they are equal to. -/
def byPosition (g : Graph) (ds : List Datum) : List Datum :=
  ds.mergeSort fun a b => g.position a ≤ g.position b

/-- The edges in the order of their endpoints. -/
def orderedEdges (g : Graph) : List (Datum × Datum) :=
  g.edges.mergeSort fun e f =>
    g.position e.1 < g.position f.1 ||
      (g.position e.1 == g.position f.1 && g.position e.2 ≤ g.position f.2)

/-! ## Text -/

/-- The text of a set of neighbours. -/
def setText (texts : List String) : String :=
  if texts.isEmpty then "set()" else Datum.inBraces texts

/-- The texts of the vertices with their neighbours. -/
def vertexTexts : List Vertex → Option (List String)
  | [] => some []
  | v :: vs => do
    let n ← v.name.literal?
    let ds ← Datum.literals? v.neighbours
    let ts ← vertexTexts vs
    return (n ++ ": " ++ setText ds) :: ts

/-- The text of a graph. -/
def text? (g : Graph) : Option String :=
  (vertexTexts g.vertices).map fun ts => "UndirectedAdjList(" ++ Datum.inBraces ts ++ ")"

end Graph

end PassCheck
