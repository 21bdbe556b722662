import ReclaimFabric.Model.Lineage
import ReclaimFabric.Lib.Table
import ReclaimFabric.Lib.Topological

/-!
# The lineage graph and its two indexes

`lineage.rs` as it is stored: a map from a parent to the edges that leave it, a map from a child to
the edges that enter it, and the set of registered objects.  All three are public in the source, so
a graph here is any triple of them, consistent or not.

* `Index`            a `HashMap<Uuid, Vec<LineageEdge>>`, a table of keys and buckets;
* `addEdge`          `&mut self`: the graph it leaves behind and what it returns;
* `reaches`, `dependencySafe`
                     the two searches, as loops that may run out of pops;
* `reaches_iff`      the search behind `addEdge` decides reachability;
* `dependency_safe_exact`
                     the dependency check blocks exactly on a live, non-reconstructible node behind
                     a path of `DEPENDS_ON` edges.

`ReclaimFabric.LineageGraph`, the graph the coordinator's model works with, is the edge list these
indexes are kept for; `Lineage.Load` relates the two.
-/

namespace ReclaimFabric

namespace Lineage

/-! ## indexes -/

/-- `HashMap<Uuid, Vec<LineageEdge>>`; the rows are in some order of iteration -/
abbrev Index := Table (Prod.fst : Uuid × List LineageEdge → Uuid)

namespace Index

variable {I : Index} {e : LineageEdge} {x y : Uuid}

/-- `map.get(&id)` -/
def get (I : Index) (id : Uuid) : Option (List LineageEdge) := (I.find? id).map Prod.snd

/-- `map.entry(id).or_default().push(edge)` -/
def push (I : Index) (id : Uuid) (e : LineageEdge) : Index :=
  match I.get id with
  | none => (I.insert? (id, [e])).getD I
  | some es => I.replace (id, es ++ [e])

/-- `if let Some(v) = map.get_mut(&id) { v.retain(keep) }` -/
def retain (I : Index) (id : Uuid) (keep : LineageEdge → Bool) : Index :=
  match I.get id with
  | none => I
  | some es => I.replace (id, es.filter keep)

/-- the bucket of a key, empty when there is none -/
def bucket (I : Index) (id : Uuid) : List LineageEdge := (I.get id).getD []

/-- all edges, in the order of iteration -/
def edges (I : Index) : List LineageEdge := I.rows.flatMap Prod.snd

theorem get_eq_some {es : List LineageEdge} : I.get x = some es ↔ (x, es) ∈ I := by
  rw [get, Option.map_eq_some_iff]
  constructor
  · rintro ⟨⟨y, es'⟩, hf, rfl⟩
    obtain ⟨hm, rfl⟩ := Table.find?_eq_some.mp hf
    exact hm
  · intro hm
    exact ⟨(x, es), Table.find?_eq_some.mpr ⟨hm, rfl⟩, rfl⟩

theorem get_eq_none : I.get x = none ↔ I.find? x = none := Option.map_eq_none_iff

theorem mem_bucket : e ∈ I.bucket x ↔ ∃ es, (x, es) ∈ I ∧ e ∈ es := by
  rw [bucket]
  cases h : I.get x with
  | none =>
    constructor
    · intro he
      exact absurd he List.not_mem_nil
    · rintro ⟨es, hm, _⟩
      rw [get_eq_some.mpr hm] at h
      cases h
  | some es =>
    constructor
    · intro he
      exact ⟨es, get_eq_some.mp h, he⟩
    · rintro ⟨es', hm, he⟩
      rw [get_eq_some.mpr hm] at h
      cases h
      exact he

theorem mem_edges : e ∈ I.edges ↔ ∃ x, e ∈ I.bucket x := by
  simp only [edges, List.mem_flatMap, mem_bucket, Prod.exists]
  rfl

theorem get_push : (I.push x e).get y = if x = y then some (I.bucket x ++ [e]) else I.get y := by
  unfold push bucket
  cases h : I.get x with
  | none =>
    obtain ⟨J, hJ⟩ := Table.insert?_of_none (T := I) (r := (x, [e])) (get_eq_none.mp h)
    simp only [hJ, Option.getD_some, get, Table.find?_insert? hJ]
    by_cases hxy : x = y
    · simp [hxy]
    · simp [hxy]
  | some es =>
    simp only [get, Table.find?_replace, Option.getD_some]
    by_cases hxy : x = y
    · subst hxy
      have hf : (I.find? x).isSome = true := by
        rw [Option.isSome_iff_ne_none]
        exact fun hn => by rw [get_eq_none.mpr hn] at h; cases h
      obtain ⟨r, hr⟩ := Option.isSome_iff_exists.mp hf
      simp [hr]
    · simp [hxy]

theorem bucket_push : (I.push x e).bucket y = I.bucket y ++ if x = y then [e] else [] := by
  rw [bucket, get_push]
  by_cases hxy : x = y
  · subst hxy
    simp
  · simp [hxy, bucket]

theorem get_retain {keep : LineageEdge → Bool} :
    (I.retain x keep).get y = if x = y then (I.get x).map (List.filter keep) else I.get y := by
  unfold retain
  cases h : I.get x with
  | none =>
    by_cases hxy : x = y
    · rw [if_pos hxy, ← hxy]
      exact h
    · rw [if_neg hxy]
  | some es =>
    simp only [get, Table.find?_replace]
    by_cases hxy : x = y
    · subst hxy
      obtain ⟨r, hr, _⟩ := Option.map_eq_some_iff.mp h
      simp [hr]
    · simp [hxy]

theorem bucket_retain {keep : LineageEdge → Bool} :
    (I.retain x keep).bucket y = if x = y then (I.bucket y).filter keep else I.bucket y := by
  rw [bucket, get_retain]
  by_cases hxy : x = y
  · subst hxy
    rw [if_pos rfl, if_pos rfl, bucket]
    cases I.get x with
    | none => rfl
    | some es => rfl
  · rw [if_neg hxy, if_neg hxy, bucket]

/-- a key of the map with its bucket -/
def HasKey (I : Index) (x : Uuid) : Prop := (I.get x).isSome = true

theorem hasKey_push : (I.push x e).HasKey y ↔ x = y ∨ I.HasKey y := by
  rw [HasKey, get_push]
  by_cases hxy : x = y
  · simp [hxy]
  · simp [hxy, HasKey]

theorem hasKey_retain {keep : LineageEdge → Bool} : (I.retain x keep).HasKey y ↔ I.HasKey y := by
  rw [HasKey, get_retain]
  by_cases hxy : x = y
  · subst hxy
    simp [HasKey]
  · simp [hxy, HasKey]

theorem mem_rows_bucket {r : Uuid × List LineageEdge} (h : r ∈ I.rows) : I.bucket r.1 = r.2 := by
  rw [bucket, get_eq_some.mpr h, Option.getD_some]

theorem hasKey_iff : I.HasKey x ↔ ∃ es, (x, es) ∈ I.rows := by
  rw [HasKey, Option.isSome_iff_exists]
  exact exists_congr fun _ => get_eq_some

theorem forall_rows {p : Uuid → LineageEdge → Prop} :
    (∀ r ∈ I.rows, ∀ e ∈ r.2, p r.1 e) ↔ ∀ x, ∀ e ∈ I.bucket x, p x e := by
  constructor
  · intro h x e he
    obtain ⟨es, hm, he⟩ := mem_bucket.mp he
    exact h (x, es) hm e he
  · intro h r hr e he
    exact h r.1 e (mem_bucket.mpr ⟨r.2, hr, he⟩)

end Index

/-! ## the graph -/

structure LineageGraph where
  /-- parent -> children -/
  parents : Index
  /-- child -> parents -/
  children : Index
  objectIds : Table (id : Uuid → Uuid)

namespace LineageGraph

def default : LineageGraph := ⟨.empty, .empty, .empty⟩

/-- `object_ids.contains` -/
def Registered (g : LineageGraph) (id : Uuid) : Prop := id ∈ g.objectIds.rows

instance (g : LineageGraph) (id : Uuid) : Decidable (g.Registered id) :=
  inferInstanceAs (Decidable (id ∈ g.objectIds.rows))

/-- `LineageGraph::add_object` -/
def addObject (g : LineageGraph) (id : Uuid) : LineageGraph :=
  { g with objectIds := (g.objectIds.insert? id).getD g.objectIds }

/-- the children of a node, over all edges of its bucket -/
def childIds (g : LineageGraph) (id : Uuid) : List Uuid :=
  (g.parents.bucket id).map LineageEdge.child

/-- enough pops for every search: one for the start and one for each edge -/
def pops (g : LineageGraph) : Nat := g.parents.edges.length + 1

/-- `LineageGraph::reaches` -/
def reaches (g : LineageGraph) (start target : Uuid) : Bool :=
  (Search.walk g.childIds (fun n => decide (n = target)) g.pops [start] [start]).getD false

/-- `LineageGraph::add_edge`: the graph afterwards and the result -/
def addEdge (g : LineageGraph) (parent child : Uuid) (kind : EdgeKind) :
    LineageGraph × Res Unit :=
  if parent = child then
    (g, .error (.dependencyViolation "self-edge is not allowed"))
  else if ¬g.Registered parent ∨ ¬g.Registered child then
    (g, .error (.dependencyViolation "edge endpoints must be registered objects"))
  else if (g.parents.bucket parent).any (fun e => e.child = child && e.kind = kind) then
    (g, .ok ())
  else if g.reaches child parent then
    (g, .error (.dependencyViolation s!"cycle would be created by edge {parent}->{child}"))
  else
    let edge : LineageEdge := ⟨parent, child, kind⟩
    ({ g with parents := g.parents.push parent edge, children := g.children.push child edge },
      .ok ())

/-- `LineageGraph::remove_edge`; an empty bucket stays -/
def removeEdge (g : LineageGraph) (parent child : Uuid) (kind : EdgeKind) : LineageGraph :=
  { g with
    parents := g.parents.retain parent (fun e => !(e.child = child && e.kind = kind))
    children := g.children.retain child (fun e => !(e.parent = parent && e.kind = kind)) }

/-! ## dependency safety -/

section
variable (candidate : Uuid) (reconstructible : Uuid → Bool) (deadNodes : List Uuid)

/-- the error of a dependent that blocks the candidate -/
def blocked (child : Uuid) : ReclaimError :=
  .dependencyViolation s!"dependent {child} is not reconstructible and requires {candidate}"

/-- the loop over the edges of one node -/
def scanDependents : List LineageEdge → List Uuid → List Uuid → Res (List Uuid × List Uuid)
  | [], q, seen => .ok (q, seen)
  | e :: es, q, seen =>
    if e.kind ≠ .dependsOn then scanDependents es q seen
    else if e.child ∈ seen then scanDependents es q seen
    else if e.child ∉ deadNodes ∧ reconstructible e.child = false then
      .error (blocked candidate e.child)
    else scanDependents es (q ++ [e.child]) (e.child :: seen)

/-- the loop over the queue; `none` when the pops run out -/
def dependencyLoop (g : LineageGraph) : Nat → List Uuid → List Uuid → Option (Res Unit)
  | _, [], _ => some (.ok ())
  | 0, _ :: _, _ => none
  | n + 1, node :: q, seen =>
    match scanDependents candidate reconstructible deadNodes (g.parents.bucket node) q seen with
    | .error e => some (.error e)
    | .ok (q', seen') => dependencyLoop g n q' seen'

/-- `LineageGraph::dependency_safe` -/
def dependencySafe (g : LineageGraph) : Res Unit :=
  (dependencyLoop candidate reconstructible deadNodes g g.pops [candidate] [candidate]).getD
    (.ok ())

end

/-! ## reachability -/

section
variable {g : LineageGraph} {a b : Uuid}

/-- one edge of the parents index, by the key it is filed under -/
def Edge (g : LineageGraph) (a b : Uuid) : Prop := ∃ e ∈ g.parents.bucket a, e.child = b

/-- one `DEPENDS_ON` edge of the parents index -/
def DependsOn (g : LineageGraph) (a b : Uuid) : Prop :=
  ∃ e ∈ g.parents.bucket a, e.kind = .dependsOn ∧ e.child = b

theorem mem_childIds : b ∈ g.childIds a ↔ g.Edge a b := List.mem_map

theorem childIds_subset (x : Uuid) : ∀ y ∈ g.childIds x, y ∈ g.parents.edges.map LineageEdge.child := by
  intro y hy
  obtain ⟨e, he, rfl⟩ := List.mem_map.mp hy
  exact List.mem_map.mpr ⟨e, Index.mem_edges.mpr ⟨x, he⟩, rfl⟩

theorem unseen_lt_pops (x : Uuid) :
    1 + Search.unseen (g.parents.edges.map LineageEdge.child) [x] ≤ g.pops := by
  have h₁ : Search.unseen (g.parents.edges.map LineageEdge.child) [x] ≤
      (g.parents.edges.map LineageEdge.child).dedup.length := List.length_filter_le _ _
  have h₂ := (List.dedup_sublist (g.parents.edges.map LineageEdge.child)).length_le
  rw [List.length_map] at h₂
  rw [pops]
  omega

theorem walk_pops {n : Nat} (hn : g.pops ≤ n) :
    ∃ r, Search.walk g.childIds (fun x => decide (x = b)) n [a] [a] = some r ∧
      (r = true ↔ ∃ y, decide (y = b) = true ∧
        Relation.ReflTransGen (fun x y => y ∈ g.childIds x) a y) :=
  Search.walk_reach childIds_subset ((unseen_lt_pops a).trans hn)

/-- the search behind `addEdge` ends and decides reachability over edges of every kind -/
theorem reaches_iff : g.reaches a b = true ↔ Relation.ReflTransGen g.Edge a b := by
  obtain ⟨r, hr, hiff⟩ := walk_pops (b := b) (Nat.le_refl g.pops) (a := a)
  have hrel : (fun x y => y ∈ g.childIds x) = g.Edge := by
    funext x y
    exact propext mem_childIds
  rw [reaches, hr, Option.getD_some, hiff, hrel]
  constructor
  · rintro ⟨y, hy, hpath⟩
    rw [of_decide_eq_true hy] at hpath
    exact hpath
  · exact fun hpath => ⟨b, decide_eq_true rfl, hpath⟩

end

/-! ## the dependency check is exact -/

section
variable {g : LineageGraph} {candidate : Uuid} {reconstructible : Uuid → Bool}
  {deadNodes : List Uuid}

/-- the children over `DEPENDS_ON` edges -/
def dependents (g : LineageGraph) (id : Uuid) : List Uuid :=
  ((g.parents.bucket id).filter fun e => decide (e.kind = .dependsOn)).map LineageEdge.child

/-- live and not reconstructible -/
def blocks (reconstructible : Uuid → Bool) (deadNodes : List Uuid) (x : Uuid) : Bool :=
  decide (x ∉ deadNodes) && !reconstructible x

theorem mem_dependents {a b : Uuid} : b ∈ g.dependents a ↔ g.DependsOn a b := by
  simp only [dependents, List.mem_map, List.mem_filter, decide_eq_true_eq, DependsOn, and_assoc]

/-- the loop over the edges of a node visits its dependents -/
theorem scanDependents_eq (es : List LineageEdge) (q seen : List Uuid) :
    scanDependents candidate reconstructible deadNodes es q seen =
      match Search.visit (blocks reconstructible deadNodes)
          ((es.filter fun e => decide (e.kind = .dependsOn)).map LineageEdge.child) q seen with
      | .error child => .error (blocked candidate child)
      | .ok s => .ok s := by
  induction es generalizing q seen with
  | nil => rfl
  | cons e es ih =>
    rw [scanDependents]
    by_cases hk : e.kind = .dependsOn
    · have hfilter : (e :: es).filter (fun e => decide (e.kind = .dependsOn)) =
          e :: es.filter fun e => decide (e.kind = .dependsOn) :=
        List.filter_cons_of_pos (decide_eq_true hk)
      rw [if_neg (not_not.mpr hk), hfilter, List.map_cons, Search.visit]
      by_cases hs : e.child ∈ seen
      · rw [if_pos hs, if_pos hs]
        exact ih q seen
      · rw [if_neg hs, if_neg hs]
        by_cases hb : e.child ∉ deadNodes ∧ reconstructible e.child = false
        · rw [if_pos hb, if_pos (by simp [blocks, hb])]
        · rw [if_neg hb, if_neg (by simpa [blocks] using hb)]
          exact ih _ _
    · have hfilter : (e :: es).filter (fun e => decide (e.kind = .dependsOn)) =
          es.filter fun e => decide (e.kind = .dependsOn) :=
        List.filter_cons_of_neg (by simpa using hk)
      rw [if_pos hk, hfilter]
      exact ih q seen

theorem dependencyLoop_eq (n : Nat) (q seen : List Uuid) :
    dependencyLoop candidate reconstructible deadNodes g n q seen =
      (Search.search? g.dependents (blocks reconstructible deadNodes) n q seen).map fun r =>
        match r with
        | .error child => .error (blocked candidate child)
        | .ok _ => .ok () := by
  induction n generalizing q seen with
  | zero =>
    cases q with
    | nil => rfl
    | cons x q => rfl
  | succ n ih =>
    cases q with
    | nil => rfl
    | cons x q =>
      rw [dependencyLoop, Search.search?, scanDependents_eq, ← dependents]
      cases Search.visit (blocks reconstructible deadNodes) (g.dependents x) q seen with
      | error child => rfl
      | ok s => exact ih s.1 s.2

theorem dependents_subset (x : Uuid) :
    ∀ y ∈ g.dependents x, y ∈ g.parents.edges.map LineageEdge.child := by
  intro y hy
  obtain ⟨e, he, _, rfl⟩ := mem_dependents.mp hy
  exact List.mem_map.mpr ⟨e, Index.mem_edges.mpr ⟨x, he⟩, rfl⟩

theorem search_pops :
    Search.search? g.dependents (blocks reconstructible deadNodes) g.pops [candidate] [candidate] =
      some (Search.search g.dependents (blocks reconstructible deadNodes) g.pops [candidate]
        [candidate]) :=
  Search.search?_eq dependents_subset g.pops (unseen_lt_pops candidate)

theorem dependencySafe_eq : g.dependencySafe candidate reconstructible deadNodes =
    match Search.search g.dependents (blocks reconstructible deadNodes) g.pops [candidate]
        [candidate] with
    | .error child => .error (blocked candidate child)
    | .ok _ => .ok () := by
  rw [dependencySafe, dependencyLoop_eq, search_pops, Option.map_some, Option.getD_some]

/-- the loop ends with an answer, and a longer one gives the same -/
theorem dependencyLoop_ends {n : Nat} (hn : g.pops ≤ n) :
    dependencyLoop candidate reconstructible deadNodes g n [candidate] [candidate] =
      some (g.dependencySafe candidate reconstructible deadNodes) := by
  rw [dependencyLoop_eq, Search.search?_mono search_pops hn, Option.map_some, dependencySafe_eq]

/-- **The dependency check is exact.**  With enough pops the loop ends, whatever their number; and
it returns an error exactly when a live, non-reconstructible node other than the candidate lies
behind a non-empty path of `DEPENDS_ON` edges. -/
theorem dependency_safe_exact (g : LineageGraph) (candidate : Uuid)
    (reconstructible : Uuid → Bool) (deadNodes : List Uuid) :
    (∀ n, g.pops ≤ n →
      dependencyLoop candidate reconstructible deadNodes g n [candidate] [candidate] =
        some (g.dependencySafe candidate reconstructible deadNodes)) ∧
    ((∃ err, g.dependencySafe candidate reconstructible deadNodes = .error err) ↔
      ∃ z, z ≠ candidate ∧ z ∉ deadNodes ∧ reconstructible z = false ∧
        Relation.TransGen g.DependsOn candidate z) := by
  have hrel : (fun x y => y ∈ g.dependents x) = g.DependsOn := by
    funext x y
    exact propext mem_dependents
  refine ⟨fun n hn => dependencyLoop_ends hn, ?_⟩
  rw [dependencySafe_eq]
  cases hs : Search.search g.dependents (blocks reconstructible deadNodes) g.pops [candidate]
      [candidate] with
  | error child =>
    have hstart : ∀ z ∈ [candidate],
        Relation.ReflTransGen (fun x y => y ∈ g.dependents x) candidate z := by
      intro z hz
      rw [List.mem_singleton.mp hz]
    obtain ⟨hbad, hne, hpath⟩ := Search.search_error g.pops hstart hs
    rw [hrel] at hpath
    have hbad : child ∉ deadNodes ∧ reconstructible child = false := by
      simpa [blocks] using hbad
    refine ⟨fun _ => ⟨child, ?_, hbad.1, hbad.2, hpath⟩, fun _ => ⟨_, rfl⟩⟩
    exact fun h => hne (List.mem_singleton.mpr h)
  | ok s =>
    constructor
    · rintro ⟨err, h⟩
      cases h
    · rintro ⟨z, hne, hlive, hrec, hpath⟩
      rw [← hrel] at hpath
      rcases Search.search_ok_reach dependents_subset (unseen_lt_pops candidate) hs
          hpath.to_reflTransGen with h | h
      · exact absurd h hne
      · simp [blocks, hlive, hrec] at h

end

end LineageGraph

end Lineage

end ReclaimFabric
