import ReclaimFabric.Lineage.Build
import ReclaimFabric.Model.Store

/-!
# Loading a lineage graph

`Store::lineage_graph` reads the ids of all objects and all lineage rows, in whatever order the
database returns them, and inserts the rows one by one.

* `Sound`                   what a set of rows should be, over a set of objects;
* `lineage_graph_exact`     the graph is built if and only if the rows are sound, and it has
                            exactly these rows, whatever their order;
* `Refines`                 the two indexes and the edge list the coordinator's model keeps: the
                            operations of one follow those of the other;
* `Store.lineageGraph_cases`
                            what this says of the coordinator's model.
-/

namespace ReclaimFabric

namespace Lineage

/-! ## the loader -/

/-- the second loop of `lineage_graph`; `add_edge` errors become `corrupt lineage` -/
def insertRows : List LineageEdge → LineageGraph → Res LineageGraph
  | [], g => .ok g
  | e :: es, g =>
    match g.addEdge e.parent e.child e.kind with
    | (_, .error err) => .error (.persistence ("corrupt lineage: " ++ err.text))
    | (g', .ok ()) => insertRows es g'

/-- `Store::lineage_graph` on the ids and rows the two queries returned -/
def lineageGraph (objectIds : List Uuid) (edgeRows : List LineageEdge) : Res LineageGraph :=
  insertRows edgeRows (objectIds.foldl LineageGraph.addObject .default)

/-- no loop, no missing endpoint, no cycle -/
structure Sound (objectIds : List Uuid) (edgeRows : List LineageEdge) : Prop where
  loopless : ∀ e ∈ edgeRows, e.parent ≠ e.child
  endpoints : ∀ e ∈ edgeRows, e.parent ∈ objectIds ∧ e.child ∈ objectIds
  acyclic : Kahn.Acyclic (LineageGraph.Joined edgeRows)

section
variable {ids ids' : List Uuid} {rows rows' : List LineageEdge} {g g' : LineageGraph}

theorem joined_congr (h : ∀ e, e ∈ rows ↔ e ∈ rows') :
    LineageGraph.Joined rows = LineageGraph.Joined rows' := by
  funext a b
  simp only [LineageGraph.Joined, h]

/-- soundness is a property of the two sets -/
theorem Sound.congr (h : Sound ids rows) (hids : ∀ x, x ∈ ids ↔ x ∈ ids')
    (hrows : ∀ e, e ∈ rows ↔ e ∈ rows') : Sound ids' rows' where
  loopless := fun e he => h.loopless e ((hrows e).mpr he)
  endpoints := fun e he => by
    rw [← hids, ← hids]
    exact h.endpoints e ((hrows e).mpr he)
  acyclic := joined_congr hrows ▸ h.acyclic

/-- inserting rows succeeds exactly when what there is and the rows have no cycle -/
theorem insertRows_iff (h : g.WellFormed) : (∃ g', insertRows rows g = .ok g') ↔
    (∀ e ∈ rows, e.parent ≠ e.child ∧ g.Registered e.parent ∧ g.Registered e.child) ∧
      Kahn.Acyclic (LineageGraph.Joined (g.parents.edges ++ rows)) := by
  induction rows generalizing g with
  | nil =>
    rw [List.append_nil]
    exact ⟨fun _ => ⟨by simp, h.acyclic⟩, fun _ => ⟨g, rfl⟩⟩
  | cons e es ih =>
    rw [insertRows]
    cases hadd : g.addEdge e.parent e.child e.kind with
    | mk g₁ r =>
      cases r with
      | error err =>
        have hbad := (LineageGraph.addEdge_error h.toIndexed).mp ⟨err, congrArg Prod.snd hadd⟩
        constructor
        · rintro ⟨g', hg'⟩
          cases hg'
        · rintro ⟨hends, hacyc⟩
          obtain ⟨hne, hp, hc⟩ := hends e List.mem_cons_self
          rcases hbad with hbad | hbad | hbad | ⟨-, hbad⟩
          · exact absurd hbad hne
          · exact absurd hp hbad
          · exact absurd hc hbad
          · -- the row closes a path that was there before
            have hsub : ∀ a b, LineageGraph.Joined g.parents.edges a b →
                LineageGraph.Joined (g.parents.edges ++ e :: es) a b :=
              fun a b ⟨e', he', hab⟩ => ⟨e', List.mem_append_left _ he', hab⟩
            have hedge : LineageGraph.Joined (g.parents.edges ++ e :: es) e.parent e.child :=
              ⟨e, List.mem_append_right _ List.mem_cons_self, rfl, rfl⟩
            exact absurd (Relation.TransGen.head' hedge
              (Relation.ReflTransGen.mono hsub _ _ hbad)) (hacyc e.parent)
      | ok u =>
        have hok : (g.addEdge e.parent e.child e.kind).2 = .ok () := congrArg Prod.snd hadd
        obtain ⟨hmem, -, hids⟩ := LineageGraph.addEdge_ok h.toIndexed hok
        have hw := h.addEdge e.parent e.child e.kind
        have hno : ¬∃ err, (g.addEdge e.parent e.child e.kind).2 = .error err := by
          rintro ⟨err, he⟩
          rw [hok] at he
          cases he
        have hgood := mt (LineageGraph.addEdge_error h.toIndexed).mpr hno
        rw [not_or, not_or, not_or, not_not, not_not] at hgood
        rw [hadd] at hmem hids hw
        have hreg (x : Uuid) : g₁.Registered x ↔ g.Registered x := by
          rw [LineageGraph.Registered, hids, LineageGraph.Registered]
        have hjoin : LineageGraph.Joined (g₁.parents.edges ++ es) =
            LineageGraph.Joined (g.parents.edges ++ e :: es) := by
          refine joined_congr fun e' => ?_
          rw [List.mem_append, List.mem_append, List.mem_cons, hmem, or_assoc]
        show (∃ g', insertRows es g₁ = .ok g') ↔ _
        rw [ih hw, hjoin, List.forall_mem_cons]
        simp only [hreg]
        refine and_congr_left fun _ => ⟨fun hes => ⟨?_, hes⟩, And.right⟩
        exact ⟨hgood.1, hgood.2.1, hgood.2.2.1⟩

/-- rows that are inserted are added to the edges -/
theorem insertRows_ok (h : g.WellFormed) (hok : insertRows rows g = .ok g') :
    g'.WellFormed ∧ g'.objectIds = g.objectIds ∧
      ∀ e, e ∈ g'.parents.edges ↔ e ∈ g.parents.edges ∨ e ∈ rows := by
  induction rows generalizing g with
  | nil =>
    cases hok
    exact ⟨h, rfl, by simp⟩
  | cons e es ih =>
    rw [insertRows] at hok
    cases hadd : g.addEdge e.parent e.child e.kind with
    | mk g₁ r =>
      rw [hadd] at hok
      cases r with
      | error err => cases hok
      | ok u =>
        have hw := h.addEdge e.parent e.child e.kind
        obtain ⟨hmem, -, hids⟩ := LineageGraph.addEdge_ok h.toIndexed (congrArg Prod.snd hadd)
        rw [hadd] at hmem hids hw
        obtain ⟨hw', hids', hmem'⟩ := ih hw hok
        refine ⟨hw', hids'.trans hids, fun e' => ?_⟩
        rw [hmem', hmem, List.mem_cons, or_assoc]

theorem registered_foldl (x : Uuid) :
    (ids.foldl LineageGraph.addObject g).Registered x ↔ g.Registered x ∨ x ∈ ids := by
  induction ids generalizing g with
  | nil => simp
  | cons id ids ih =>
    rw [List.foldl_cons, ih, LineageGraph.registered_addObject, List.mem_cons, or_assoc,
      or_left_comm]

theorem wellFormed_foldl (h : g.WellFormed) :
    (ids.foldl LineageGraph.addObject g).WellFormed := by
  induction ids generalizing g with
  | nil => exact h
  | cons id ids ih => exact ih (h.addObject id)

theorem parents_foldl : (ids.foldl LineageGraph.addObject g).parents = g.parents := by
  induction ids generalizing g with
  | nil => rfl
  | cons id ids ih => exact ih

theorem lineageGraph_iff : (∃ g, lineageGraph ids rows = .ok g) ↔ Sound ids rows := by
  have hw : (ids.foldl LineageGraph.addObject .default).WellFormed :=
    wellFormed_foldl LineageGraph.default_wellFormed
  have hreg (x : Uuid) : (ids.foldl LineageGraph.addObject .default).Registered x ↔ x ∈ ids := by
    rw [registered_foldl]
    exact or_iff_right List.not_mem_nil
  have hnil : LineageGraph.default.parents.edges = [] := rfl
  rw [lineageGraph, insertRows_iff hw, parents_foldl, hnil, List.nil_append]
  simp only [hreg]
  constructor
  · rintro ⟨hends, hacyc⟩
    exact ⟨fun e he => (hends e he).1, fun e he => (hends e he).2, hacyc⟩
  · intro h
    exact ⟨fun e he => ⟨h.loopless e he, h.endpoints e he⟩, h.acyclic⟩

theorem lineageGraph_ok (h : lineageGraph ids rows = .ok g) :
    g.WellFormed ∧ (∀ x, g.Registered x ↔ x ∈ ids) ∧ ∀ e, e ∈ g.parents.edges ↔ e ∈ rows := by
  obtain ⟨hw, hids, hmem⟩ := insertRows_ok (wellFormed_foldl LineageGraph.default_wellFormed) h
  refine ⟨hw, fun x => ?_, fun e => ?_⟩
  · rw [LineageGraph.Registered, hids, ← LineageGraph.Registered, registered_foldl]
    exact or_iff_right List.not_mem_nil
  · rw [hmem, parents_foldl]
    exact or_iff_right List.not_mem_nil

/-- **Loading is exact and does not depend on the order.**  The graph is built if and only if the
rows are sound over the objects; it then has exactly these rows, in both indexes, and validates.
Whatever order the queries return the same ids and rows in, the answer is a graph with the same
edges. -/
theorem lineage_graph_exact (ids : List Uuid) (rows : List LineageEdge) :
    ((∃ g, lineageGraph ids rows = .ok g) ↔ Sound ids rows) ∧
    ∀ ids' rows', ids'.Perm ids → rows'.Perm rows →
      ((∃ g, lineageGraph ids' rows' = .ok g) ↔ Sound ids rows) ∧
      ∀ g, lineageGraph ids' rows' = .ok g →
        (∀ e, e ∈ g.parents.edges ↔ e ∈ rows) ∧ (∀ e, e ∈ g.children.edges ↔ e ∈ rows) ∧
        (∀ x, g.Registered x ↔ x ∈ ids) ∧
        ∀ ord, ∃ rounds, ∀ fuel, g.validate ord (rounds + fuel) = .done (.ok ()) := by
  refine ⟨lineageGraph_iff, fun ids' rows' hids hrows => ⟨?_, ?_⟩⟩
  · rw [lineageGraph_iff]
    constructor
    · exact fun h => h.congr (fun x => hids.mem_iff) fun e => hrows.mem_iff
    · exact fun h => h.congr (fun x => hids.mem_iff.symm) fun e => hrows.mem_iff.symm
  · intro g hg
    obtain ⟨hw, hreg, hmem⟩ := lineageGraph_ok hg
    refine ⟨fun e => ?_, fun e => ?_, fun x => ?_, fun ord => ⟨g.objectIds.rows.length, ?_⟩⟩
    · rw [hmem, hrows.mem_iff]
    · rw [← hw.same, hmem, hrows.mem_iff]
    · rw [hreg, hids.mem_iff]
    · exact fun fuel => hw.validates ord (Nat.le_add_right _ fuel)

end

/-! ## the edge list of the coordinator's model -/

/-- the indexes are those of the edge list -/
structure Refines (G : LineageGraph) (g : ReclaimFabric.LineageGraph) : Prop where
  ids : G.objectIds.rows = g.objectIds
  parents : ∀ x, G.parents.bucket x = g.outEdges x
  children : ∀ x, G.children.bucket x = g.inEdges x

namespace Refines

variable {G : LineageGraph} {g : ReclaimFabric.LineageGraph} {a b parent child : Uuid}
  {kind : EdgeKind}

theorem childIds (h : Refines G g) : G.childIds = fun x => (g.outEdges x).map LineageEdge.child := by
  funext x
  rw [LineageGraph.childIds, h.parents]

theorem mem_edges (h : Refines G g) (e : LineageEdge) : e ∈ G.parents.edges ↔ e ∈ g.edges := by
  simp only [Index.mem_edges, h.parents, ReclaimFabric.LineageGraph.outEdges, List.mem_filter,
    decide_eq_true_eq]
  constructor
  · rintro ⟨_, he, _⟩
    exact he
  · intro he
    exact ⟨e.parent, he, rfl⟩

theorem default : Refines .default .default := ⟨rfl, fun _ => rfl, fun _ => rfl⟩

theorem addObject (h : Refines G g) (id : Uuid) : Refines (G.addObject id) (g.addObject id) := by
  have hmem : G.objectIds.find? id = none ↔ id ∉ g.objectIds := by
    rw [Table.find?_eq_none, ← h.ids]
    exact ⟨fun hno hm => hno id hm rfl, fun hno r hr hk => hno ((show r = id from hk) ▸ hr)⟩
  unfold LineageGraph.addObject ReclaimFabric.LineageGraph.addObject
  by_cases hid : id ∈ g.objectIds
  · have hnone : G.objectIds.insert? id = none := by
      unfold Table.insert?
      exact dif_neg fun hn => hmem.mp hn hid
    rw [if_pos hid, hnone, Option.getD_none]
    exact h
  · obtain ⟨T, hT⟩ := Table.insert?_of_none (T := G.objectIds) (r := id) (hmem.mpr hid)
    rw [if_neg hid, hT, Option.getD_some]
    exact ⟨(Table.insert?_eq_some hT).2.trans (by rw [h.ids]), h.parents, h.children⟩

/-- both searches decide reachability -/
theorem reaches (h : Refines G g) : g.reaches a b = G.reaches a b := by
  have hrel : G.Edge = fun x y => y ∈ (g.outEdges x).map LineageEdge.child := by
    funext x y
    rw [← LineageGraph.mem_childIds, h.childIds]
  have hU (x : Uuid) : ∀ y ∈ (g.outEdges x).map LineageEdge.child,
      y ∈ g.edges.map LineageEdge.child := by
    intro y hy
    obtain ⟨e, he, rfl⟩ := List.mem_map.mp hy
    exact List.mem_map_of_mem (List.mem_filter.mp he).1
  rw [Bool.eq_iff_iff, LineageGraph.reaches_iff, hrel, ReclaimFabric.LineageGraph.reaches]
  by_cases hab : a = b
  · rw [if_pos hab, hab]
    exact ⟨fun _ => .refl, fun _ => rfl⟩
  rw [if_neg hab]
  cases hs : Search.search (fun x => (g.outEdges x).map LineageEdge.child)
      (fun x => decide (x = b)) g.pops [a] [a] with
  | error y =>
    have hstart : ∀ z ∈ [a], Relation.ReflTransGen
        (fun x y => y ∈ (g.outEdges x).map LineageEdge.child) a z := by
      intro z hz
      rw [List.mem_singleton.mp hz]
    obtain ⟨hy, -, hpath⟩ := Search.search_error g.pops hstart hs
    rw [of_decide_eq_true hy] at hpath
    exact ⟨fun _ => hpath.to_reflTransGen, fun _ => rfl⟩
  | ok s =>
    refine ⟨fun hf => absurd hf Bool.false_ne_true, fun hpath => ?_⟩
    rcases Search.search_ok_reach hU (ReclaimFabric.LineageGraph.unseen_le_edges a) hs hpath with
      hba | hno
    · exact absurd hba.symm hab
    · exact absurd rfl (of_decide_eq_false hno)

/-- an edge is refused by both with the same error, or inserted by both -/
theorem addEdge (h : Refines G g) (parent child : Uuid) (kind : EdgeKind) :
    (∃ err, g.addEdge parent child kind = .error err ∧
      G.addEdge parent child kind = (G, .error err)) ∨
    ∃ g' G', g.addEdge parent child kind = .ok g' ∧ G.addEdge parent child kind = (G', .ok ()) ∧
      Refines G' g' := by
  have hreg (x : Uuid) : G.Registered x ↔ x ∈ g.objectIds := by
    rw [LineageGraph.Registered, h.ids]
  unfold LineageGraph.addEdge ReclaimFabric.LineageGraph.addEdge
  simp only [hreg, h.parents, ← h.reaches]
  by_cases hself : parent = child
  · simp only [if_pos hself]
    exact .inl ⟨_, rfl, rfl⟩
  simp only [if_neg hself]
  by_cases hmiss : parent ∉ g.objectIds ∨ child ∉ g.objectIds
  · simp only [if_pos hmiss]
    exact .inl ⟨_, rfl, rfl⟩
  simp only [if_neg hmiss]
  by_cases hany : (g.outEdges parent).any (fun e => e.child = child && e.kind = kind) = true
  · simp only [if_pos hany]
    exact .inr ⟨g, G, rfl, rfl, h⟩
  simp only [if_neg hany]
  by_cases hreach : g.reaches child parent = true
  · simp only [if_pos hreach]
    exact .inl ⟨_, rfl, rfl⟩
  simp only [if_neg hreach]
  refine .inr ⟨_, _, rfl, rfl, h.ids, fun x => ?_, fun x => ?_⟩
  · rw [Index.bucket_push, h.parents, ReclaimFabric.LineageGraph.outEdges,
      ReclaimFabric.LineageGraph.outEdges, List.filter_append]
    by_cases hx : parent = x
    · simp [hx]
    · simp [hx]
  · rw [Index.bucket_push, h.children, ReclaimFabric.LineageGraph.inEdges,
      ReclaimFabric.LineageGraph.inEdges, List.filter_append]
    by_cases hx : child = x
    · simp [hx]
    · simp [hx]

theorem insertRows (h : Refines G g) (rows : List LineageEdge) :
    (∃ err, Store.addEdges rows g = .error err ∧ Lineage.insertRows rows G = .error err) ∨
    ∃ g' G', Store.addEdges rows g = .ok g' ∧ Lineage.insertRows rows G = .ok G' ∧
      Refines G' g' := by
  induction rows generalizing G g with
  | nil => exact .inr ⟨g, G, rfl, rfl, h⟩
  | cons e es ih =>
    rw [Store.addEdges, Lineage.insertRows]
    rcases h.addEdge e.parent e.child e.kind with ⟨err, hg, hG⟩ | ⟨g₁, G₁, hg, hG, h₁⟩
    · rw [hg, hG]
      exact .inl ⟨_, rfl, rfl⟩
    · rw [hg, hG]
      exact ih h₁

theorem addObjects (h : Refines G g) (ids : List Uuid) :
    Refines (ids.foldl LineageGraph.addObject G) (ids.foldl (fun g id => g.addObject id) g) := by
  induction ids generalizing G g with
  | nil => exact h
  | cons id ids ih => exact ih (h.addObject id)

/-- the dependency checks agree, errors included -/
theorem dependencySafe (h : Refines G g) (candidate : Uuid) (reconstructible : Uuid → Bool)
    (deadNodes : List Uuid) : g.dependencySafe candidate reconstructible deadNodes =
      G.dependencySafe candidate reconstructible deadNodes := by
  have hdep : G.dependents = g.dependents := by
    funext x
    rw [LineageGraph.dependents, h.parents, ReclaimFabric.LineageGraph.dependents]
  have hended : Search.search? g.dependents (LineageGraph.blocks reconstructible deadNodes) g.pops
      [candidate] [candidate] = some (Search.search g.dependents
        (LineageGraph.blocks reconstructible deadNodes) g.pops [candidate] [candidate]) :=
    Search.search?_eq ReclaimFabric.LineageGraph.dependents_subset g.pops
      (ReclaimFabric.LineageGraph.unseen_le_edges candidate)
  have hloop : LineageGraph.dependencyLoop candidate reconstructible deadNodes G
      (max G.pops g.pops) [candidate] [candidate] = some _ :=
    LineageGraph.dependencyLoop_ends (Nat.le_max_left _ _)
  rw [LineageGraph.dependencyLoop_eq, hdep, Search.search?_mono hended (Nat.le_max_right _ _),
    Option.map_some] at hloop
  rw [← Option.some.inj hloop]
  rfl

/-- one edge for each edge of the list -/
theorem perm_edges (h : Refines G g) (hw : G.WellFormed) : G.parents.edges.Perm g.edges := by
  have hfiled : Index.Filed LineageEdge.parent G.parents := hw.filedParents
  have hnodup : g.edges.Nodup := by
    rw [List.nodup_iff_count_le_one]
    intro e
    have hbucket : (g.outEdges e.parent).Nodup := by
      rw [← h.parents]
      exact hfiled.nodup_edges.mp hw.nodupParents e.parent
    have hcount := List.nodup_iff_count_le_one.mp hbucket e
    rwa [ReclaimFabric.LineageGraph.outEdges, List.count_filter (by simp)] at hcount
  exact (List.perm_ext_iff_of_nodup hw.nodupParents hnodup).mpr h.mem_edges

end Refines

/-! ## what the coordinator's model reads -/

section
variable {g : ReclaimFabric.LineageGraph} {G : LineageGraph}

theorem dropEdges_of_drop (es : List LineageEdge) {deg : Uuid → Nat} {q : List Uuid}
    {s : (Uuid → Option Nat) × List Uuid}
    (h : Kahn.drop (es.map LineageEdge.child) (fun u => some (deg u)) q = some s) :
    s = (fun u => some ((ReclaimFabric.LineageGraph.dropEdges deg q es).1 u),
      (ReclaimFabric.LineageGraph.dropEdges deg q es).2) := by
  induction es generalizing deg q with
  | nil =>
    cases h
    rfl
  | cons e es ih =>
    rw [List.map_cons, Kahn.drop] at h
    rw [ReclaimFabric.LineageGraph.dropEdges]
    cases hd : deg e.child with
    | zero =>
      rw [hd] at h
      cases h
    | succ d =>
      rw [hd] at h
      replace h : Kahn.drop (es.map LineageEdge.child)
          (fun z => if z = e.child then some d else some (deg z))
          (if d = 0 then q ++ [e.child] else q) = some s := h
      have hfun : (fun z => if z = e.child then some d else some (deg z)) =
          fun z => some (if z = e.child then d else deg z) := by
        funext z
        by_cases hz : z = e.child
        · rw [if_pos hz, if_pos hz]
        · rw [if_neg hz, if_neg hz]
      rw [hfun] at h
      exact ih h

theorem kahn_of_run (n : Nat) {deg : Uuid → Nat} {q : List Uuid} {visited m : Nat}
    (h : Kahn.run (fun x => (g.outEdges x).map LineageEdge.child) n (fun u => some (deg u)) q
      visited = .done m) : g.kahn n q deg visited = m := by
  induction n generalizing deg q visited with
  | zero =>
    cases q with
    | nil =>
      cases h
      rfl
    | cons x q => cases h
  | succ n ih =>
    cases q with
    | nil =>
      cases h
      rfl
    | cons x q =>
      rw [Kahn.run] at h
      cases hd : Kahn.drop ((g.outEdges x).map LineageEdge.child) (fun u => some (deg u)) q with
      | none =>
        rw [hd] at h
        cases h
      | some s =>
        rw [hd, dropEdges_of_drop (g.outEdges x) hd] at h
        exact ih h

/-- the edge list of a well-formed graph validates -/
theorem Refines.validate (h : Refines G g) (hw : G.WellFormed) : g.validate = .ok () := by
  have hperm := h.perm_edges hw
  have hends (e : LineageEdge) (he : e ∈ g.edges) :
      e.parent ∈ g.objectIds ∧ e.child ∈ g.objectIds := by
    rw [← h.ids]
    exact hw.endpoints e (.inl (hperm.mem_iff.mpr he))
  have horphans : g.orphans = [] := by
    rw [ReclaimFabric.LineageGraph.orphans, List.eq_nil_iff_forall_not_mem]
    intro u hu
    rw [List.mem_insertionSort, List.mem_dedup, List.mem_filter, List.mem_flatMap,
      decide_eq_true_eq] at hu
    obtain ⟨⟨e, he, hmem⟩, hno⟩ := hu
    rcases List.mem_pair.mp hmem with rfl | rfl
    · exact hno (hends e he).1
    · exact hno (hends e he).2
  have hnodup : g.objectIds.Nodup := by
    have := G.objectIds.nodup
    rwa [List.map_id, h.ids] at this
  have hindegree (y : Uuid) : (g.objectIds.flatMap fun x =>
      (g.outEdges x).map LineageEdge.child).count y = (g.inEdges y).length := by
    have hchildren := LineageGraph.children_perm hw.toIndexed
    rw [h.ids, h.childIds] at hchildren
    rw [hchildren.count_eq, (hperm.map LineageEdge.child).count_eq, List.count, List.countP_map,
      List.countP_eq_length_filter]
    rfl
  obtain ⟨m, hrun, hm⟩ : ∃ m, Kahn.run (fun x => (g.outEdges x).map LineageEdge.child)
      (g.objectIds.length + 1) (fun u => some (g.inEdges u).length)
      (g.objectIds.filter fun u => decide ((g.inEdges u).length = 0)) 0 = .done m ∧
        (m = g.objectIds.length ↔
          Kahn.Acyclic fun a b => b ∈ (g.outEdges a).map LineageEdge.child) := by
    refine Kahn.run_halts ?_ ?_ hnodup ?_ ?_ (Nat.le_succ _)
    · intro x hx
      rw [List.map_eq_nil_iff, ReclaimFabric.LineageGraph.outEdges, List.filter_eq_nil_iff]
      intro e he hex
      exact hx (of_decide_eq_true hex ▸ (hends e he).1)
    · intro x _ y hy
      obtain ⟨e, he, rfl⟩ := List.mem_map.mp hy
      exact (hends e (List.mem_filter.mp he).1).2
    · intro y _
      rw [hindegree]
    · simp
  have hacyc : Kahn.Acyclic fun a b => b ∈ (g.outEdges a).map LineageEdge.child := by
    refine hw.acyclic.mono fun a b hab => ?_
    rw [← LineageGraph.joined_iff hw.toIndexed, h.childIds]
    exact hab
  rw [ReclaimFabric.LineageGraph.validate, if_neg (not_not.mpr horphans),
    if_neg (not_not.mpr (hperm.nodup_iff.mp hw.nodupParents)), kahn_of_run _ hrun, hm.mpr hacyc]
  exact if_neg (not_not.mpr rfl)

end

end Lineage

/-- **The coordinator's loader is the loader above.**  It fails on rows that are not sound; on sound
ones it gives a graph that passes validation. -/
theorem Store.lineageGraph_cases (s : Store) :
    (¬Lineage.Sound (s.objects.rows.map ReclaimObject.id) s.lineage.rows ∧
      ∃ err, s.lineageGraph = .error err) ∨
    (Lineage.Sound (s.objects.rows.map ReclaimObject.id) s.lineage.rows ∧
      ∃ g, s.lineageGraph = .ok (g, s) ∧ g.validate = .ok ()) := by
  have hfold : s.objects.rows.foldl (fun g o => g.addObject o.id) LineageGraph.default =
      (s.objects.rows.map ReclaimObject.id).foldl (fun g id => g.addObject id)
        LineageGraph.default := by
    rw [List.foldl_map]
  have hstart := Lineage.Refines.default.addObjects (s.objects.rows.map ReclaimObject.id)
  have hiff : (∃ G, Lineage.lineageGraph (s.objects.rows.map ReclaimObject.id) s.lineage.rows =
      .ok G) ↔ _ := Lineage.lineageGraph_iff
  rcases hstart.insertRows s.lineage.rows with ⟨err, hg, hG⟩ | ⟨g, G, hg, hG, href⟩
  · refine .inl ⟨fun hsound => ?_, err, ?_⟩
    · obtain ⟨G, hok⟩ := hiff.mpr hsound
      rw [Lineage.lineageGraph, hG] at hok
      cases hok
    · rw [Store.lineageGraph, hfold, hg]
      rfl
  · refine .inr ⟨hiff.mp ⟨G, hG⟩, g, ?_, href.validate (Lineage.lineageGraph_ok hG).1⟩
    rw [Store.lineageGraph, hfold, hg]
    rfl

end ReclaimFabric
