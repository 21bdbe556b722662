import ReclaimFabric.Lineage.Graph

/-!
# Validation of a lineage graph

`LineageGraph::validate` on any snapshot: orphans, the keys edges are filed under, duplicates,
agreement of the two indexes, and Kahn's algorithm on what is left.

* `HashOrder`       the order in which hash maps happen to be iterated, a parameter of the loops;
* `indegrees`       the counters, built edge by edge;
* `validate`        its outcome is a result, a panic or a loop that has not ended;
* `WellFormed`      what a graph should be;
* `validate_exact`  validation ends with a result on every snapshot, and accepts exactly the
                    well-formed ones.
-/

namespace ReclaimFabric

namespace Lineage

/-- an order of iteration: every entry exactly once -/
structure HashOrder where
  seq : {α : Type} → List α → List α
  perm : ∀ {α : Type} (l : List α), (seq l).Perm l

namespace LineageGraph

/-- `LineageGraph::orphans`: keys and far endpoints that are not registered, sorted -/
def orphans (g : LineageGraph) : List Uuid :=
  ((g.parents.rows.flatMap (fun r => r.1 :: r.2.map LineageEdge.child) ++
    g.children.rows.flatMap (fun r => r.1 :: r.2.map LineageEdge.parent)).filter
      (fun u => decide (¬g.Registered u))).dedup.insertionSort (fun u v => u.le v)

/-- the loop over one index: every edge is filed under its own key -/
def checkFiled (key : LineageEdge → Uuid) (misfiled : Uuid → LineageEdge → ReclaimError) :
    List (Uuid × List LineageEdge) → Res Unit
  | [] => .ok ()
  | (k, es) :: rows =>
    match es.find? (fun e => decide (key e ≠ k)) with
    | some e => .error (misfiled k e)
    | none => checkFiled key misfiled rows

def misfiledParent (k : Uuid) (e : LineageEdge) : ReclaimError :=
  .recovery s!"lineage validation failed: parent index key {k} contains edge from {e.parent}"

def misfiledChild (k : Uuid) (e : LineageEdge) : ReclaimError :=
  .recovery s!"lineage validation failed: child index key {k} contains edge to {e.child}"

/-! ## the counters -/

/-- `HashMap<Uuid, usize>` -/
abbrev Degrees := Table (Prod.fst : Uuid × Nat → Uuid)

/-- `*indegree.entry(id).or_insert(0) += by` -/
def bump (d : Degrees) (id : Uuid) (n : Nat) : Degrees :=
  match d.find? id with
  | none => (d.insert? (id, n)).getD d
  | some r => d.replace (id, r.2 + n)

/-- a zero for every object, then one for every edge -/
def indegrees (ids : List Uuid) (edges : List LineageEdge) : Degrees :=
  edges.foldl (fun d e => bump d e.child 1) (ids.foldl (fun d u => bump d u 0) .empty)

/-- `indegree.get` -/
def degreeOf (d : Degrees) (id : Uuid) : Option Nat := (d.find? id).map Prod.snd

/-! ## validation -/

section
variable (g : LineageGraph) (ord : HashOrder) (fuel : Nat)

/-- Kahn's algorithm on the parents index -/
def topological : Halt Nat :=
  let d := indegrees (ord.seq g.objectIds.rows) ((ord.seq g.parents.rows).flatMap Prod.snd)
  Kahn.run g.childIds fuel (degreeOf d)
    (((ord.seq d.rows).filter (fun r => decide (r.2 = 0))).map Prod.fst) 0

/-- the verdict on the number of nodes visited -/
def cycleCheck (visited : Nat) : Res Unit :=
  if visited ≠ g.objectIds.rows.length then
    .error (.recovery (s!"lineage validation failed: cycle detected (visited {visited}/" ++
      s!"{g.objectIds.rows.length} objects)"))
  else .ok ()

/-- the checks before the search for a cycle -/
def indexCheck : Res Unit := do
  if g.orphans ≠ [] then
    throw (.recovery ("lineage validation failed: orphan objects [" ++
      ", ".intercalate (g.orphans.map Uuid.text) ++ "]"))
  let parents := ord.seq g.parents.rows
  checkFiled LineageEdge.parent misfiledParent parents
  let parentEdges := parents.flatMap Prod.snd
  if parentEdges.dedup.length ≠ parentEdges.length then
    throw (.recovery "lineage validation failed: duplicate edge in parent index")
  let children := ord.seq g.children.rows
  checkFiled LineageEdge.child misfiledChild children
  let childEdges := children.flatMap Prod.snd
  if childEdges.dedup.length ≠ childEdges.length then
    throw (.recovery "lineage validation failed: duplicate edge in child index")
  if ¬(parentEdges ⊆ childEdges ∧ childEdges ⊆ parentEdges) then
    throw (.recovery "lineage validation failed: parent/child indexes disagree")

/-- `LineageGraph::validate` -/
def validate : Halt (Res Unit) :=
  match g.indexCheck ord with
  | .error e => .done (.error e)
  | .ok () =>
    match g.topological ord fuel with
    | .done visited => .done (g.cycleCheck visited)
    | .panicked => .panicked
    | .unfinished => .unfinished

end

/-! ## well-formed graphs -/

/-- the edges of a list as a relation -/
def Joined (edges : List LineageEdge) (a b : Uuid) : Prop :=
  ∃ e ∈ edges, e.parent = a ∧ e.child = b

/-- what holds of the two indexes, before cycles -/
structure Indexed (g : LineageGraph) : Prop where
  keys : ∀ x, g.parents.HasKey x ∨ g.children.HasKey x → g.Registered x
  endpoints : ∀ e, e ∈ g.parents.edges ∨ e ∈ g.children.edges →
    g.Registered e.parent ∧ g.Registered e.child
  filedParents : ∀ x, ∀ e ∈ g.parents.bucket x, e.parent = x
  filedChildren : ∀ x, ∀ e ∈ g.children.bucket x, e.child = x
  nodupParents : g.parents.edges.Nodup
  nodupChildren : g.children.edges.Nodup
  same : ∀ e, e ∈ g.parents.edges ↔ e ∈ g.children.edges

/-- every key and endpoint is registered, every edge is filed under its own keys, once in each
index, the indexes agree, and there is no cycle -/
structure WellFormed (g : LineageGraph) : Prop extends Indexed g where
  acyclic : Kahn.Acyclic (Joined g.parents.edges)

/-! ## the checks on the indexes -/

section
variable {g : LineageGraph} {I : Index}

theorem checkFiled_ok {key : LineageEdge → Uuid} {misfiled : Uuid → LineageEdge → ReclaimError}
    (rows : List (Uuid × List LineageEdge)) :
    checkFiled key misfiled rows = .ok () ↔ ∀ r ∈ rows, ∀ e ∈ r.2, key e = r.1 := by
  induction rows with
  | nil => simp [checkFiled]
  | cons r rows ih =>
    obtain ⟨k, es⟩ := r
    rw [checkFiled]
    cases hf : es.find? (fun e => decide (key e ≠ k)) with
    | some e =>
      constructor
      · intro h
        cases h
      · intro h
        have hk : key e ≠ k := by simpa using List.find?_some hf
        exact absurd (h (k, es) List.mem_cons_self e (List.mem_of_find?_eq_some hf)) hk
    | none =>
      have hnone : ∀ e ∈ es, key e = k := by simpa using List.find?_eq_none.mp hf
      show checkFiled key misfiled rows = .ok () ↔ _
      rw [ih, List.forall_mem_cons]
      exact ⟨fun h => ⟨hnone, h⟩, And.right⟩

theorem dedup_length {α : Type} [DecidableEq α] {l : List α} :
    l.dedup.length = l.length ↔ l.Nodup := by
  constructor
  · intro h
    rw [← (List.dedup_sublist l).eq_of_length h]
    exact List.nodup_dedup l
  · intro h
    rw [h.dedup]

theorem orphans_eq_nil : g.orphans = [] ↔
    (∀ x, g.parents.HasKey x ∨ g.children.HasKey x → g.Registered x) ∧
      (∀ e ∈ g.parents.edges, g.Registered e.child) ∧
      ∀ e ∈ g.children.edges, g.Registered e.parent := by
  have hnil : g.orphans = [] ↔ ∀ u, u ∈ g.parents.rows.flatMap
        (fun r => r.1 :: r.2.map LineageEdge.child) ++
      g.children.rows.flatMap (fun r => r.1 :: r.2.map LineageEdge.parent) → g.Registered u := by
    rw [orphans, List.eq_nil_iff_forall_not_mem]
    simp only [List.mem_insertionSort, List.mem_dedup, List.mem_filter, decide_eq_true_eq, not_and,
      not_not]
  have hmem (J : Index) (far : LineageEdge → Uuid) (u : Uuid) :
      u ∈ J.rows.flatMap (fun r => r.1 :: r.2.map far) ↔
        J.HasKey u ∨ ∃ e ∈ J.edges, far e = u := by
    simp only [List.mem_flatMap, List.mem_cons, List.mem_map, Index.edges, Index.hasKey_iff]
    constructor
    · rintro ⟨r, hr, rfl | ⟨e, he, rfl⟩⟩
      · exact .inl ⟨r.2, hr⟩
      · exact .inr ⟨e, ⟨r, hr, he⟩, rfl⟩
    · rintro (⟨es, hr⟩ | ⟨e, ⟨r, hr, he⟩, rfl⟩)
      · exact ⟨(u, es), hr, .inl rfl⟩
      · exact ⟨r, hr, .inr ⟨e, he, rfl⟩⟩
  rw [hnil]
  simp only [List.mem_append, hmem]
  constructor
  · intro h
    refine ⟨fun x hx => h x (hx.imp .inl .inl), ?_, ?_⟩
    · exact fun e he => h _ (.inl (.inr ⟨e, he, rfl⟩))
    · exact fun e he => h _ (.inr (.inr ⟨e, he, rfl⟩))
  · rintro ⟨hk, hc, hp⟩ u ((hu | ⟨e, he, rfl⟩) | (hu | ⟨e, he, rfl⟩))
    · exact hk u (.inl hu)
    · exact hc e he
    · exact hk u (.inr hu)
    · exact hp e he

theorem check_ok {c : Prop} [Decidable c] {e : ReclaimError} {x : Res Unit} :
    (if c then .error e else x) = .ok () ↔ ¬c ∧ x = .ok () := by
  by_cases hc : c
  · simp [hc]
  · simp [hc]

theorem andThen_ok {x y : Res Unit} :
    (x >>= fun _ => y) = .ok () ↔ x = .ok () ∧ y = .ok () := by
  cases x with
  | error e => simp [bind, Except.bind]
  | ok u => simp [bind, Except.bind]

/-- the checks on the indexes decide `Indexed`, whatever the order of iteration -/
theorem indexCheck_ok {ord : HashOrder} : g.indexCheck ord = .ok () ↔ Indexed g := by
  have hp : ((ord.seq g.parents.rows).flatMap Prod.snd).Perm g.parents.edges :=
    (ord.perm g.parents.rows).flatMap_right Prod.snd
  have hc : ((ord.seq g.children.rows).flatMap Prod.snd).Perm g.children.edges :=
    (ord.perm g.children.rows).flatMap_right Prod.snd
  have hrows {I : Index} {key : LineageEdge → Uuid} :
      (∀ r ∈ ord.seq I.rows, ∀ e ∈ r.2, key e = r.1) ↔ ∀ x, ∀ e ∈ I.bucket x, key e = x := by
    rw [← Index.forall_rows]
    exact forall_congr' fun r => by rw [(ord.perm I.rows).mem_iff]
  have herr (e : ReclaimError) (f : PUnit → Res Unit) :
      ((Except.error e : Res PUnit) >>= f) = .error e := rfl
  simp only [indexCheck, throw, throwThe, MonadExceptOf.throw, pure, Except.pure, herr]
  rw [check_ok, andThen_ok, check_ok, andThen_ok, check_ok, check_ok, not_not, not_not, not_not,
    not_not, checkFiled_ok, checkFiled_ok, dedup_length, dedup_length, hp.nodup_iff, hc.nodup_iff,
    orphans_eq_nil, hrows, hrows]
  simp only [List.subset_def, hp.mem_iff, hc.mem_iff, and_true]
  constructor
  · rintro ⟨⟨hkeys, hchild, hparent⟩, hfp, hnp, hfc, hnc, hpc, hcp⟩
    have hsame (e : LineageEdge) : e ∈ g.parents.edges ↔ e ∈ g.children.edges := ⟨hpc, hcp⟩
    refine ⟨hkeys, fun e he => ?_, hfp, hfc, hnp, hnc, hsame⟩
    have he' : e ∈ g.parents.edges := he.elim id (hsame e).mpr
    exact ⟨hparent e ((hsame e).mp he'), hchild e he'⟩
  · rintro ⟨hkeys, hends, hfp, hfc, hnp, hnc, hsame⟩
    exact ⟨⟨hkeys, fun e he => (hends e (.inl he)).2, fun e he => (hends e (.inr he)).1⟩, hfp, hnp,
      hfc, hnc, (hsame _).mp, (hsame _).mpr⟩

end

/-! ## the counters count -/

section
variable {d : Degrees} {x y : Uuid} {n : Nat}

theorem degreeOf_bump : degreeOf (bump d x n) y =
    if x = y then some ((degreeOf d y).getD 0 + n) else degreeOf d y := by
  unfold bump degreeOf
  cases h : d.find? x with
  | none =>
    obtain ⟨d', hd'⟩ := Table.insert?_of_none (T := d) (r := (x, n)) h
    simp only [hd', Option.getD_some, Table.find?_insert? hd']
    by_cases hxy : x = y
    · rw [← hxy, h]
      simp
    · simp [hxy]
  | some r =>
    simp only [Table.find?_replace]
    by_cases hxy : x = y
    · rw [← hxy, h]
      simp
    · simp [hxy]

/-- the counter of a node after a list of additions -/
theorem degreeOf_foldl (xs : List Uuid) (d : Degrees) :
    degreeOf (xs.foldl (fun d x => bump d x n) d) y =
      if y ∈ xs then some ((degreeOf d y).getD 0 + n * xs.count y) else degreeOf d y := by
  induction xs generalizing d with
  | nil => simp
  | cons x xs ih =>
    rw [List.foldl_cons, ih, degreeOf_bump]
    by_cases hxy : x = y
    · subst hxy
      by_cases hm : x ∈ xs
      · simp only [if_pos hm, if_true, List.mem_cons, true_or, Option.getD_some,
          List.count_cons_self, Nat.mul_add]
        congr 1
        omega
      · simp [hm, List.count_eq_zero_of_not_mem hm]
    · have hyx : y ≠ x := Ne.symm hxy
      simp [hxy, hyx, List.count_cons_of_ne hxy]

theorem degreeOf_indegrees {ids : List Uuid} {edges : List LineageEdge}
    (hin : ∀ e ∈ edges, e.child ∈ ids) : degreeOf (indegrees ids edges) y =
      if y ∈ ids then some ((edges.map LineageEdge.child).count y) else none := by
  have hfold : indegrees ids edges = (edges.map LineageEdge.child).foldl (fun d x => bump d x 1)
      (ids.foldl (fun d x => bump d x 0) .empty) := by
    rw [indegrees, List.foldl_map]
  have hempty : degreeOf .empty y = none := rfl
  rw [hfold, degreeOf_foldl, degreeOf_foldl, hempty]
  by_cases hy : y ∈ ids
  · by_cases hc : y ∈ edges.map LineageEdge.child
    · simp [hy, hc]
    · simp [hy, hc, List.count_eq_zero_of_not_mem hc]
  · have hc : y ∉ edges.map LineageEdge.child := by
      intro hc
      obtain ⟨e, he, rfl⟩ := List.mem_map.mp hc
      exact hy (hin e he)
    rw [if_neg hc, if_neg hy, if_neg hy]

end

/-! ## validation is exact -/

section
variable {g : LineageGraph} {ord : HashOrder}

/-- the children of the keys, key by key -/
theorem child_edges (g : LineageGraph) : g.parents.edges.map LineageEdge.child =
    (g.parents.rows.map Prod.fst).flatMap g.childIds := by
  rw [Index.edges, List.map_flatMap, List.flatMap_map]
  refine List.flatMap_congr fun r hr => ?_
  rw [childIds, Index.mem_rows_bucket hr]

/-- an object that is no key has no children, so going through the objects meets every edge -/
theorem children_perm (h : Indexed g) :
    (g.objectIds.rows.flatMap g.childIds).Perm (g.parents.edges.map LineageEdge.child) := by
  rw [child_edges]
  have hnodup : g.objectIds.rows.Nodup := by
    have := g.objectIds.nodup
    rwa [List.map_id] at this
  have hsplit := (List.filter_append_perm (fun x => decide (x ∈ g.parents.rows.map Prod.fst))
    g.objectIds.rows).symm
  have hkeyed : (g.objectIds.rows.filter
      fun x => decide (x ∈ g.parents.rows.map Prod.fst)).Perm (g.parents.rows.map Prod.fst) := by
    rw [List.perm_ext_iff_of_nodup (hnodup.filter _) g.parents.nodup]
    intro x
    rw [List.mem_filter, decide_eq_true_eq]
    refine ⟨And.right, fun hx => ⟨?_, hx⟩⟩
    obtain ⟨r, hr, rfl⟩ := List.mem_map.mp hx
    exact h.keys r.1 (.inl (Index.hasKey_iff.mpr ⟨r.2, hr⟩))
  have hunkeyed : (g.objectIds.rows.filter
      fun x => !decide (x ∈ g.parents.rows.map Prod.fst)).flatMap g.childIds = [] := by
    rw [List.flatMap_eq_nil_iff]
    intro x hx
    have hx : x ∉ g.parents.rows.map Prod.fst := by simpa using (List.mem_filter.mp hx).2
    rw [childIds, List.map_eq_nil_iff, List.eq_nil_iff_forall_not_mem]
    intro e he
    obtain ⟨es, hm, -⟩ := Index.mem_bucket.mp he
    exact hx (List.mem_map.mpr ⟨(x, es), hm, rfl⟩)
  have hall := hsplit.flatMap_right g.childIds
  rw [List.flatMap_append, hunkeyed, List.append_nil] at hall
  exact hall.trans (hkeyed.flatMap_right g.childIds)

theorem joined_iff (h : Indexed g) {a b : Uuid} :
    b ∈ g.childIds a ↔ Joined g.parents.edges a b := by
  rw [mem_childIds]
  constructor
  · rintro ⟨e, he, rfl⟩
    exact ⟨e, Index.mem_edges.mpr ⟨a, he⟩, h.filedParents a e he, rfl⟩
  · rintro ⟨e, he, rfl, rfl⟩
    obtain ⟨x, hx⟩ := Index.mem_edges.mp he
    rw [h.filedParents x e hx]
    exact ⟨e, hx, rfl⟩

/-- the sort neither panics nor runs on, and it visits every object if and only if there is no
cycle -/
theorem topological_halts (ord : HashOrder) (h : Indexed g) {fuel : Nat} (hfuel : g.objectIds.rows.length ≤ fuel) :
    ∃ m, g.topological ord fuel = .done m ∧
      (m = g.objectIds.rows.length ↔ Kahn.Acyclic (Joined g.parents.edges)) := by
  have hrel : (fun a b => b ∈ g.childIds a) = Joined g.parents.edges := by
    funext a b
    exact propext (joined_iff h)
  have hnodup : g.objectIds.rows.Nodup := by
    have := g.objectIds.nodup
    rwa [List.map_id] at this
  have hchild (x y : Uuid) (hy : y ∈ g.childIds x) : y ∈ g.objectIds.rows := by
    obtain ⟨e, he, rfl⟩ := mem_childIds.mp hy
    exact (h.endpoints e (.inl (Index.mem_edges.mpr ⟨x, he⟩))).2
  have hpar := (ord.perm g.parents.rows).flatMap_right Prod.snd
  have hdeg (y : Uuid) : degreeOf (indegrees (ord.seq g.objectIds.rows)
      ((ord.seq g.parents.rows).flatMap Prod.snd)) y =
        if y ∈ g.objectIds.rows then some ((g.objectIds.rows.flatMap g.childIds).count y)
        else none := by
    rw [degreeOf_indegrees fun e he => (ord.perm g.objectIds.rows).mem_iff.mpr
      (h.endpoints e (.inl (hpar.mem_iff.mp he))).2, (children_perm h).count_eq,
      (hpar.map LineageEdge.child).count_eq]
    simp only [(ord.perm g.objectIds.rows).mem_iff]
    rfl
  rw [topological]
  generalize indegrees (ord.seq g.objectIds.rows)
    ((ord.seq g.parents.rows).flatMap Prod.snd) = d at hdeg ⊢
  -- the queue starts with the objects no edge enters
  have hq : (((ord.seq d.rows).filter fun r => decide (r.2 = 0)).map Prod.fst).Perm
      (g.objectIds.rows.filter fun y => decide (degreeOf d y = some 0)) := by
    have hkeys : (((ord.seq d.rows).filter fun r => decide (r.2 = 0)).map Prod.fst).Nodup :=
      ((((ord.perm d.rows).map Prod.fst).nodup_iff.mpr d.nodup).sublist
        (List.filter_sublist.map Prod.fst))
    rw [List.perm_ext_iff_of_nodup hkeys (hnodup.filter _)]
    intro y
    have hzero : (∃ r ∈ d.rows, r.2 = 0 ∧ r.1 = y) ↔ degreeOf d y = some 0 := by
      rw [degreeOf, Option.map_eq_some_iff]
      constructor
      · rintro ⟨r, hr, h0, rfl⟩
        exact ⟨r, Table.find?_of_mem hr, h0⟩
      · rintro ⟨r, hr, h0⟩
        exact ⟨r, Table.mem_of_find? hr, h0, Table.key_of_find? hr⟩
    simp only [List.mem_map, List.mem_filter, decide_eq_true_eq, (ord.perm d.rows).mem_iff,
      and_assoc, hzero]
    refine ⟨fun h0 => ⟨?_, h0⟩, And.right⟩
    by_contra hno
    rw [hdeg, if_neg hno] at h0
    cases h0
  rw [← hrel]
  refine Kahn.run_halts ?_ (fun x _ => hchild x) hnodup ?_ hq hfuel
  · intro x hx
    rw [childIds, List.map_eq_nil_iff, List.eq_nil_iff_forall_not_mem]
    intro e he
    obtain ⟨es, hm, -⟩ := Index.mem_bucket.mp he
    exact hx (h.keys x (.inl (Index.hasKey_iff.mpr ⟨es, hm⟩)))
  · intro y hy
    rw [hdeg, if_pos hy]

theorem cycleCheck_ok {m : Nat} : g.cycleCheck m = .ok () ↔ m = g.objectIds.rows.length := by
  unfold cycleCheck
  by_cases h : m = g.objectIds.rows.length
  · simp [h]
  · simp [h]

theorem validate_indexed {u : Unit} {m fuel : Nat} (hindex : g.indexCheck ord = .ok u)
    (hrun : g.topological ord fuel = .done m) : g.validate ord fuel = .done (g.cycleCheck m) := by
  rw [validate, hindex]
  show (match g.topological ord fuel with
    | .done visited => Halt.done (g.cycleCheck visited)
    | .panicked => .panicked
    | .unfinished => .unfinished) = _
  rw [hrun]

theorem WellFormed.validates (h : g.WellFormed) (ord : HashOrder) {fuel : Nat}
    (hfuel : g.objectIds.rows.length ≤ fuel) : g.validate ord fuel = .done (.ok ()) := by
  obtain ⟨m, hrun, hm⟩ := topological_halts ord h.toIndexed hfuel
  rw [validate_indexed (indexCheck_ok.mpr h.toIndexed) hrun, cycleCheck_ok.mpr (hm.mpr h.acyclic)]

/-- a graph that is not well-formed is refused, with one error whatever the number of rounds -/
theorem validate_refuses (h : ¬g.WellFormed) (ord : HashOrder) : ∃ err, ∀ fuel,
    g.objectIds.rows.length ≤ fuel → g.validate ord fuel = .done (.error err) := by
  cases hindex : g.indexCheck ord with
  | error err => exact ⟨err, fun fuel _ => by rw [validate, hindex]⟩
  | ok u =>
    have hidx : Indexed g := indexCheck_ok.mp hindex
    obtain ⟨m, hrun, hm⟩ := topological_halts ord hidx (Nat.le_refl _)
    cases hcycle : g.cycleCheck m with
    | error err =>
      refine ⟨err, fun fuel hfuel => ?_⟩
      rw [validate_indexed hindex (Kahn.run_mono hrun hfuel), hcycle]
    | ok u =>
      exact absurd ⟨hidx, hm.mp (cycleCheck_ok.mp hcycle)⟩ h

/-- **Validation is exact.**  On any snapshot and in any order of iteration it ends with a result,
after no more rounds than there are objects; the result is `Ok` exactly when the graph is
well-formed. -/
theorem validate_exact (g : LineageGraph) (ord : HashOrder) :
    ∃ r, (∀ fuel, g.objectIds.rows.length ≤ fuel → g.validate ord fuel = .done r) ∧
      (r = .ok () ↔ g.WellFormed) := by
  by_cases h : g.WellFormed
  · exact ⟨.ok (), fun fuel hfuel => h.validates ord hfuel, fun _ => h, fun _ => rfl⟩
  · obtain ⟨err, herr⟩ := validate_refuses h ord
    refine ⟨.error err, herr, ?_⟩
    constructor
    · intro he
      cases he
    · exact fun hw => absurd hw h

end

end LineageGraph

end Lineage

end ReclaimFabric
