import ReclaimFabric.Model.Object
import ReclaimFabric.Lib.Search

/-!
# Lineage and dependency safety

`lineage.rs`.  The source keeps two indexes of one edge list (`parents`, `children`); here the
graph is that edge list in insertion order, and the indexes are the filters `outEdges` and
`inEdges` of it.  The traversals are `Search.search` with enough pops for the whole graph.

`dependencySafe_sound` : a candidate that passes has no live, non-reconstructible object behind a
non-empty path of `DEPENDS_ON` edges.
-/

namespace ReclaimFabric

inductive EdgeKind where
  | derivesFrom
  | dependsOn
  | supersedes
  | duplicates
deriving DecidableEq

def EdgeKind.asStr : EdgeKind → String
  | .derivesFrom => "DERIVES_FROM"
  | .dependsOn => "DEPENDS_ON"
  | .supersedes => "SUPERSEDES"
  | .duplicates => "DUPLICATES"

structure LineageEdge where
  parent : Uuid
  child : Uuid
  kind : EdgeKind
deriving DecidableEq

structure LineageGraph where
  edges : List LineageEdge
  objectIds : List Uuid

namespace LineageGraph

def default : LineageGraph := ⟨[], []⟩

def addObject (g : LineageGraph) (id : Uuid) : LineageGraph :=
  if id ∈ g.objectIds then g else { g with objectIds := g.objectIds ++ [id] }

/-- `parents[id]`: the edges that leave `id` -/
def outEdges (g : LineageGraph) (id : Uuid) : List LineageEdge :=
  g.edges.filter (fun e => decide (e.parent = id))

/-- `children[id]`: the edges that enter `id` -/
def inEdges (g : LineageGraph) (id : Uuid) : List LineageEdge :=
  g.edges.filter (fun e => decide (e.child = id))

/-- enough pops to visit every node of the graph once -/
def pops (g : LineageGraph) : Nat := g.edges.length + 1

def reaches (g : LineageGraph) (start target : Uuid) : Bool :=
  if start = target then true
  else
    match Search.search (fun x => (g.outEdges x).map LineageEdge.child)
        (fun x => decide (x = target)) g.pops [start] [start] with
    | .error _ => true
    | .ok _ => false

def addEdge (g : LineageGraph) (parent child : Uuid) (kind : EdgeKind) : Res LineageGraph :=
  if parent = child then
    .error (.dependencyViolation "self-edge is not allowed")
  else if parent ∉ g.objectIds ∨ child ∉ g.objectIds then
    .error (.dependencyViolation "edge endpoints must be registered objects")
  else if (g.outEdges parent).any (fun e => e.child = child && e.kind = kind) then
    .ok g
  else if g.reaches child parent then
    .error (.dependencyViolation s!"cycle would be created by edge {parent}->{child}")
  else .ok { g with edges := g.edges ++ [⟨parent, child, kind⟩] }

/-- the children over `DEPENDS_ON` edges only -/
def dependents (g : LineageGraph) (id : Uuid) : List Uuid :=
  ((g.outEdges id).filter (fun e => decide (e.kind = .dependsOn))).map LineageEdge.child

def dependencySafe (g : LineageGraph) (candidate : Uuid) (reconstructible : Uuid → Bool)
    (deadNodes : List Uuid) : Res Unit :=
  match Search.search g.dependents (fun x => decide (x ∉ deadNodes) && !reconstructible x)
      g.pops [candidate] [candidate] with
  | .error child => .error (.dependencyViolation
      s!"dependent {child} is not reconstructible and requires {candidate}")
  | .ok _ => .ok ()

/-! ## validation after a restart -/

/-- the endpoints of edges that are not registered objects, sorted -/
def orphans (g : LineageGraph) : List Uuid :=
  ((g.edges.flatMap (fun e => [e.parent, e.child])).filter
    (fun u => decide (u ∉ g.objectIds))).dedup.insertionSort (fun u v => u.le v)

/-- release the edges that leave one node -/
def dropEdges (deg : Uuid → Nat) (q : List Uuid) : List LineageEdge → (Uuid → Nat) × List Uuid
  | [] => (deg, q)
  | e :: es =>
    let d := deg e.child - 1
    dropEdges (fun u => if u = e.child then d else deg u)
      (if d = 0 then q ++ [e.child] else q) es

/-- Kahn's algorithm: how many nodes a topological order visits -/
def kahn (g : LineageGraph) : Nat → List Uuid → (Uuid → Nat) → Nat → Nat
  | 0, _, _, visited => visited
  | _ + 1, [], _, visited => visited
  | n + 1, x :: q, deg, visited =>
    let s := dropEdges deg q (g.outEdges x)
    kahn g n s.2 s.1 (visited + 1)

def validate (g : LineageGraph) : Res Unit :=
  if g.orphans ≠ [] then
    .error (.recovery ("lineage validation failed: orphan objects [" ++
      ", ".intercalate (g.orphans.map Uuid.text) ++ "]"))
  else if ¬g.edges.Nodup then
    .error (.recovery "lineage validation failed: duplicate edge in parent index")
  else
    let visited := g.kahn (g.objectIds.length + 1)
      (g.objectIds.filter (fun u => decide ((g.inEdges u).length = 0)))
      (fun u => (g.inEdges u).length) 0
    if visited ≠ g.objectIds.length then
      .error (.recovery (s!"lineage validation failed: cycle detected (visited {visited}/" ++
        s!"{g.objectIds.length} objects)"))
    else .ok ()

/-! ## what the dependency check establishes -/

/-- one `DEPENDS_ON` edge of a list of edges -/
def DependsOn (edges : List LineageEdge) (a b : Uuid) : Prop :=
  (⟨a, b, .dependsOn⟩ : LineageEdge) ∈ edges

theorem mem_dependents {g : LineageGraph} {a b : Uuid} :
    b ∈ g.dependents a ↔ DependsOn g.edges a b := by
  rw [dependents, List.mem_map]
  constructor
  · rintro ⟨⟨p, c, k⟩, he, rfl⟩
    rw [outEdges, List.mem_filter, List.mem_filter] at he
    obtain ⟨⟨he, hp⟩, hk⟩ := he
    have hp : p = a := by simpa using hp
    have hk : k = .dependsOn := by simpa using hk
    subst hp hk
    exact he
  · intro h
    refine ⟨⟨a, b, .dependsOn⟩, ?_, rfl⟩
    rw [outEdges, List.mem_filter, List.mem_filter]
    exact ⟨⟨h, by simp⟩, by simp⟩

theorem unseen_le_edges {g : LineageGraph} (x : Uuid) :
    1 + Search.unseen (g.edges.map LineageEdge.child) [x] ≤ g.pops := by
  have h₁ : Search.unseen (g.edges.map LineageEdge.child) [x] ≤
      ((g.edges.map LineageEdge.child).dedup).length := List.length_filter_le _ _
  have h₂ : ((g.edges.map LineageEdge.child).dedup).length ≤
      (g.edges.map LineageEdge.child).length := (List.dedup_sublist _).length_le
  rw [List.length_map] at h₂
  rw [pops]
  omega

theorem dependents_subset {g : LineageGraph} (x : Uuid) :
    ∀ y ∈ g.dependents x, y ∈ g.edges.map LineageEdge.child := by
  intro y hy
  exact List.mem_map.mpr ⟨_, mem_dependents.mp hy, rfl⟩

/-- a candidate that passes has no live, non-reconstructible dependent -/
theorem dependencySafe_sound {g : LineageGraph} {c : Uuid} {rec : Uuid → Bool}
    {dead : List Uuid} (h : g.dependencySafe c rec dead = .ok ()) {z : Uuid} (hz : z ≠ c)
    (hpath : Relation.TransGen (DependsOn g.edges) c z) : z ∈ dead ∨ rec z = true := by
  unfold dependencySafe at h
  split at h
  · cases h
  · next s hs =>
    have hpath' : Relation.ReflTransGen (fun a b => b ∈ g.dependents a) c z :=
      (hpath.lift id fun _ _ hab => mem_dependents.mpr hab).to_reflTransGen
    rcases Search.search_ok_reach (U := g.edges.map LineageEdge.child) dependents_subset
        (unseen_le_edges c) hs hpath' with h | h
    · exact absurd h hz
    · rw [Bool.and_eq_false_iff] at h
      rcases h with h | h
      · left
        simpa using h
      · right
        simpa using h

end LineageGraph

end ReclaimFabric
