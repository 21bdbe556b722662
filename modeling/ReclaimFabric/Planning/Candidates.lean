import Mathlib.Data.Prod.Lex
import ReclaimFabric.Planning.Policy
import ReclaimFabric.Model.Coordinator.Core

/-!
# Planning one object and planning all of them

`Coordinator::plan` asks the store about one object; `Coordinator::candidates` loads everything
once and decides in memory.  Both are state-passing functions on the store (`P`); a section of the
coordinator (`withInner`) starts with the authority heartbeat.

* `Ready`                             what a serving coordinator can rely on;
* `decisionContext_run`, `plan_run`   the per-object path, as a function of the tables;
* `loadAll_run`, `decideAll_run`      the batch path: the bulk queries count the same copies;
* `sortCandidates_spec`               the sort is by score descending, then by object id ascending.

`candidates_are_plans` puts them together.
-/

namespace ReclaimFabric

namespace Planning

open Economics

/-- what a planning call reads besides the store; `retired` are the archive rows with `valid=0` -/
structure Serving where
  processId : String
  bootId : Uuid
  epoch : Nat
  now : Int
  policies : PolicyRegistry
  pressure : PressureLevel
  retired : List ArchiveRecord

abbrev P := StateT Store Res

section
variable (c : Serving) (a : Arith)

/-- `Coordinator::with_inner` -/
def withInner {α : Type} (f : P α) : P α := do
  (Store.coordinatorHeartbeat c.processId c.bootId c.epoch c.now : P Unit)
  f

/-! ## queries -/

/-- the rows of `archives` with their `valid` column -/
def archiveRows (s : Store) : List (Bool × ArchiveRecord) :=
  s.archives.rows.map (fun r => (true, r)) ++ c.retired.map (fun r => (false, r))

/-- `row_to_archive`: an invalid row is no archive -/
def rowToArchive (x : Bool × ArchiveRecord) : Option ArchiveRecord :=
  if x.1 then some x.2 else none

/-- `Store::archives_for` -/
def archivesFor (id : Uuid) : P (List ArchiveRecord) := fun s =>
  .ok ((((archiveRows c s).filter fun x => x.2.objectId == id).insertionSort
    (fun x y => x.2.createdAtMs < y.2.createdAtMs ∨
      x.2.createdAtMs = y.2.createdAtMs ∧ x.2.archiveId ≤ y.2.archiveId)).filterMap rowToArchive, s)

/-- `Store::valid_replica_counts` -/
def validReplicaCounts : P (Uuid → Option Nat) := fun s =>
  let rows := s.replicas.rows.filter Replica.valid
  .ok (fun id =>
    let group := rows.filter fun r => r.objectId == id
    if group = [] then none else some group.length, s)

/-- the loop of `Store::archive_counts` -/
def countArchives : List (Bool × ArchiveRecord) → (Uuid → Option Nat) → Res (Uuid → Option Nat)
  | [], m => .ok m
  | x :: rows, m =>
    if x.1 then
      let n := (m x.2.objectId).getD 0
      if n + 1 < 2 ^ 64 then
        countArchives rows (fun u => if u = x.2.objectId then some (n + 1) else m u)
      else .error (.persistence "archive count exceeds u64")
    else countArchives rows m

/-- `Store::archive_counts` -/
def archiveCounts : P (Uuid → Option Nat) := fun s => do
  let m ← countArchives ((archiveRows c s).insertionSort
    (fun x y => x.2.objectId.bits < y.2.objectId.bits ∨
      x.2.objectId = y.2.objectId ∧ x.2.archiveId ≤ y.2.archiveId)) (fun _ => none)
  pure (m, s)

/-! ## the decision context -/

/-- `reconstructible_map` -/
def reconstructibleMap (all : List ReclaimObject) (id : Uuid) : Option Bool :=
  (all.find? fun o => o.id == id).map ReclaimObject.reconstructible

/-- `dead_nodes` -/
def deadNodes (all : List ReclaimObject) : List Uuid :=
  (all.filter fun o => o.lifecycleState == .reclaimed).map ReclaimObject.id

/-- every live dependent that cannot be recomputed adds one -/
def dependencyValue (all : List ReclaimObject) (edges : List LineageEdge) : F64 :=
  edges.foldl (fun v e =>
    if e.kind = .dependsOn ∧ e.child ∉ deadNodes all ∧
      (reconstructibleMap all e.child).getD false = false then a.add v one else v) zero

def contextFrom (all : List ReclaimObject) (g : LineageGraph) (o : ReclaimObject)
    (validCopies : Nat) : DecisionContext where
  dependencyValue := a.mul (dependencyValue a all (g.outEdges o.id)) (.dec 1 4)
  survivabilityValue :=
    if validCopies > 0 then a.max (a.ofNat o.durabilityClass.minValidCopies) one else zero

/-- `Coordinator::decision_context` -/
def decisionContext (o : ReclaimObject) : P DecisionContext := do
  let graph ← withInner c Store.lineageGraph
  let all ← withInner c Store.listObjects
  let replicas ← withInner c (Store.validReplicaCount o.id)
  let archives ← withInner c (archivesFor c o.id)
  pure (contextFrom a all graph o (replicas + archives.length))

/-! ## the two planners -/

/-- the decision and its audit entry, in one section -/
def recordPlan (actor : String) (o : ReclaimObject) (d : PolicyDecision) : P Unit := do
  (Store.insertDecision d.decision.toDecision : P Unit)
  Store.appendAudit (Coordinator.auditOf c.now actor "DECISION" o (some o.lifecycleState) none
    (some d.decision.policyId) none
    (.obj [("verdict", .str d.decision.verdict.debug), ("score", .float d.decision.score),
      ("threshold", .float d.decision.threshold), ("explanation", d.explanation)]))

/-- `Coordinator::plan` -/
def plan (id : Uuid) (actor : String) : P PolicyDecision := do
  let o ← withInner c (Store.requireObject id)
  let context ← decisionContext c a o
  let pressure ← withInner c (pure c.pressure)
  let registry ← withInner c (pure c.policies)
  let d ← (decide a registry o pressure c.epoch c.now context : Res PolicyDecision)
  withInner c (recordPlan c actor o d)
  pure d

/-- neither `RECLAIMED` nor `FAILED` -/
def live (o : ReclaimObject) : Bool :=
  o.lifecycleState != .reclaimed && o.lifecycleState != .failed

/-- the verdict is `RECLAIM` -/
def recommended (d : PolicyDecision) : Bool := d.decision.verdict == .reclaim

/-- the loop of `candidates` -/
def decideAll (all : List ReclaimObject) (g : LineageGraph) (replicas archives : Uuid → Option Nat) :
    List ReclaimObject → List PolicyDecision → Res (List PolicyDecision)
  | [], results => .ok results
  | o :: os, results =>
    if o.lifecycleState = .reclaimed ∨ o.lifecycleState = .failed then
      decideAll all g replicas archives os results
    else do
      let context := contextFrom a all g o
        ((replicas o.id).getD 0 + (archives o.id).getD 0)
      let d ← decide a c.policies o c.pressure c.epoch c.now context
      decideAll all g replicas archives os (if recommended d then results ++ [d] else results)

/-- the comparison of `sort_by` -/
def compareDecisions (x y : PolicyDecision) : Ordering :=
  ((y.decision.score.partialCmp x.decision.score).getD .eq).then
    (compare x.decision.objectId.bits y.decision.objectId.bits)

def sortCandidates (l : List PolicyDecision) : List PolicyDecision :=
  l.insertionSort (fun x y => compareDecisions x y ≠ .gt)

/-- every decision that is returned is persisted, each in a section of its own -/
def recordAll : List PolicyDecision → P Unit
  | [] => pure ()
  | d :: ds => do
    withInner c (Store.insertDecision d.decision.toDecision)
    recordAll ds

def maxCandidates : Nat := 10000

/-- everything one batch reads -/
def loadAll : P (List ReclaimObject × LineageGraph × (Uuid → Option Nat) × (Uuid → Option Nat)) :=
  withInner c do
    let objects ← Store.listObjects
    let graph ← Store.lineageGraph
    let replicas ← validReplicaCounts
    let archives ← archiveCounts c
    pure (objects, graph, replicas, archives)

/-- `Coordinator::candidates` -/
def candidates (limit : Nat) : P (List PolicyDecision) := do
  if limit > maxCandidates then
    throw (.invalidArgument s!"candidate limit {limit} exceeds maximum {maxCandidates}")
  let (objects, graph, replicas, archives) ← loadAll c
  let results ← (decideAll c a objects graph replicas archives objects [] :
    Res (List PolicyDecision))
  let results := (sortCandidates results).take limit
  recordAll c results
  pure results

end

/-! ## sections -/

theorem P.bind_run {α β : Type} {x : P α} {f : α → P β} {s s' : Store} {b : α}
    (h : x s = .ok (b, s')) : (x >>= f) s = f b s' := by
  show (x s >>= fun r => f r.1 r.2) = f b s'
  rw [h]
  rfl

theorem P.lift_run {α β : Type} {x : Res α} {f : α → P β} {s : Store} {b : α}
    (h : x = .ok b) : ((x : P α) >>= f) s = f b s := by
  rw [h]
  rfl

/-- what a serving coordinator relies on: it is the one the store names, the columns of the store
are in range, and the lineage that recovery validated still loads -/
structure Ready (c : Serving) (s : Store) : Prop where
  holds : s.holdsAuthority c.processId c.bootId c.epoch = true
  epoch : c.epoch ≤ i64Max
  generation : ∀ o ∈ s.objects.rows, o.generation ≤ i64Max
  graph : ∃ g, s.lineageGraph = .ok (g, s)
  archives : s.archives.rows.length < 2 ^ 64

/-- the store after a heartbeat -/
def beat (c : Serving) (s : Store) : Store :=
  { s with coordinator :=
      s.coordinator.map fun k => { k with lastSeenMs := max k.lastSeenMs c.now } }

section
variable {c : Serving} {s : Store}

theorem beat_beat (c : Serving) (s : Store) : beat c (beat c s) = beat c s := by
  unfold beat
  cases s.coordinator with
  | none => rfl
  | some k =>
    show ({ s with coordinator := _ } : Store) = { s with coordinator := _ }
    simp only [Option.map_some, Int.max_assoc, Int.max_self]

/-- the graph reads the same before and after a heartbeat -/
theorem lineageGraph_beat {g : LineageGraph} (h : s.lineageGraph = .ok (g, s)) :
    (beat c s).lineageGraph = .ok (g, beat c s) := by
  obtain ⟨g', hadd, he⟩ := Result.bind_ok.mp h
  have hg : g' = g := by
    cases he
    rfl
  rw [hg] at hadd
  exact Result.bind_ok.mpr ⟨g, hadd, rfl⟩

theorem Ready.beat (h : Ready c s) : Ready c (beat c s) := by
  refine ⟨?_, h.epoch, h.generation, ?_, h.archives⟩
  · have hold := h.holds
    unfold Store.holdsAuthority at hold ⊢
    show (s.coordinator.map _).any _ = true
    rw [Option.any_map]
    exact hold
  · obtain ⟨g, hg⟩ := h.graph
    exact ⟨g, lineageGraph_beat hg⟩

theorem withInner_run {α : Type} (h : Ready c s) (f : P α) : withInner c f s = f (beat c s) := by
  have hbeat : Store.coordinatorHeartbeat c.processId c.bootId c.epoch c.now s =
      .ok ((), beat c s) := by
    unfold Store.coordinatorHeartbeat Store.sqlU64
    rw [if_pos h.epoch, if_pos h.holds]
    rfl
  exact P.bind_run (x := Store.coordinatorHeartbeat c.processId c.bootId c.epoch c.now) hbeat

/-! ## the per-object path -/

/-- the copies of an object that count: its valid replicas and its archives -/
def validCopies (s : Store) (id : Uuid) : Nat :=
  s.replicas.countWhere (fun r => Decidable.decide (r.objectId = id) && r.valid) +
    (s.archives.rows.filter fun r => r.objectId == id).length

/-- the context both planners compute -/
def contextOf (a : Arith) (s : Store) (g : LineageGraph) (o : ReclaimObject) : DecisionContext :=
  contextFrom a (s.objects.rows.insertionSort fun x y => x.id.le y.id) g o (validCopies s o.id)

theorem archivesFor_run (id : Uuid) :
    ∃ l, archivesFor c id s = .ok (l, s) ∧
      l.length = (s.archives.rows.filter fun r => r.objectId == id).length := by
  refine ⟨_, rfl, ?_⟩
  have hperm := List.perm_insertionSort (fun x y : Bool × ArchiveRecord =>
    x.2.createdAtMs < y.2.createdAtMs ∨
      x.2.createdAtMs = y.2.createdAtMs ∧ x.2.archiveId ≤ y.2.archiveId)
    ((archiveRows c s).filter fun x => x.2.objectId == id)
  rw [(hperm.filterMap rowToArchive).length_eq]
  unfold archiveRows
  rw [List.filter_append, List.filterMap_append, List.length_append, List.filter_map,
    List.filter_map, List.filterMap_map, List.filterMap_map]
  have hnone : (List.filterMap (rowToArchive ∘ fun r => (false, r))
      (c.retired.filter ((fun x => x.2.objectId == id) ∘ fun r => (false, r)))) = [] := by
    apply List.filterMap_eq_nil_iff.mpr
    intro r _
    rfl
  rw [hnone, List.length_nil, Nat.add_zero]
  show (List.filterMap (fun r => some r) _).length = _
  rw [List.filterMap_some]
  rfl

theorem decisionContext_run (a : Arith) (o : ReclaimObject) {g : LineageGraph} (h : Ready c s)
    (hg : s.lineageGraph = .ok (g, s)) :
    decisionContext c a o s = .ok (contextOf a s g o, beat c s) := by
  have hb := h.beat
  have hgraph : withInner c Store.lineageGraph s = .ok (g, beat c s) := by
    rw [withInner_run h, lineageGraph_beat hg]
  have hall : withInner c Store.listObjects (beat c s) =
      .ok (s.objects.rows.insertionSort fun x y => x.id.le y.id, beat c s) := by
    rw [withInner_run hb, beat_beat]
    rfl
  have hcount : withInner c (Store.validReplicaCount o.id) (beat c s) =
      .ok (s.replicas.countWhere (fun r => Decidable.decide (r.objectId = o.id) && r.valid),
        beat c s) := by
    rw [withInner_run hb, beat_beat]
    rfl
  obtain ⟨l, hl, hlen⟩ := archivesFor_run (c := c) (s := beat c s) o.id
  have harch : withInner c (archivesFor c o.id) (beat c s) = .ok (l, beat c s) := by
    rw [withInner_run hb, beat_beat, hl]
  unfold decisionContext
  rw [P.bind_run hgraph, P.bind_run hall, P.bind_run hcount, P.bind_run harch, hlen]
  rfl

/-- what `insert_decision` checks -/
structure Storable (d : PolicyDecision) : Prop where
  generation : d.decision.generation ≤ i64Max
  epoch : d.decision.epoch ≤ i64Max
  score : d.decision.score.isFinite = true
  threshold : d.decision.threshold.isFinite = true

theorem decide_storable {a : Arith} {o : ReclaimObject} {context : DecisionContext}
    {d : PolicyDecision} (h : Ready c s) (ho : o ∈ s.objects.rows)
    (hd : decide a c.policies o c.pressure c.epoch c.now context = .ok d) : Storable d := by
  obtain ⟨-, hgen, hepoch, hscore, hthr⟩ := decide_ok a hd
  refine ⟨?_, ?_, hscore, hthr⟩
  · rw [hgen]
    exact h.generation o ho
  · rw [hepoch]
    exact h.epoch

theorem insertDecision_run {d : PolicyDecision} (hd : Storable d) :
    Store.insertDecision d.decision.toDecision s =
      .ok ((), { s with decisions := s.decisions ++ [d.decision.toDecision] }) := by
  unfold Store.insertDecision Store.sqlU64
  rw [hd.score, hd.threshold, if_pos hd.generation, if_pos hd.epoch]
  rfl

theorem appendAudit_run {e : AuditEntry} {n : Nat} (he : e.generation = some n)
    (hn : n ≤ i64Max) : ∃ s', Store.appendAudit e s = .ok ((), s') := by
  have hcheck : Store.sqlOptionalU64 "audit generation" e.generation = .ok () := by
    rw [he]
    exact if_pos hn
  unfold Store.appendAudit Store.insertAuditRow
  rw [hcheck]
  exact ⟨_, rfl⟩

theorem recordPlan_run {o : ReclaimObject} {d : PolicyDecision} (actor : String)
    (ho : o.generation ≤ i64Max) (hd : Storable d) :
    ∃ s', recordPlan c actor o d s = .ok ((), s') := by
  unfold recordPlan
  rw [P.bind_run (x := Store.insertDecision d.decision.toDecision) (insertDecision_run hd)]
  exact appendAudit_run rfl ho

theorem plan_run (a : Arith) (actor : String) {o : ReclaimObject} {g : LineageGraph}
    {d : PolicyDecision} (h : Ready c s) (hg : s.lineageGraph = .ok (g, s))
    (ho : s.objects.find? o.id = some o) (hmem : o ∈ s.objects.rows)
    (hd : decide a c.policies o c.pressure c.epoch c.now (contextOf a s g o) = .ok d) :
    ∃ s', plan c a o.id actor s = .ok (d, s') := by
  have hb := h.beat
  have hobj : withInner c (Store.requireObject o.id) s = .ok (o, beat c s) := by
    rw [withInner_run h]
    unfold Store.requireObject
    have hfind : (beat c s).objects.find? o.id = some o := ho
    rw [hfind]
  have hctx : decisionContext c a o (beat c s) = .ok (contextOf a s g o, beat c s) := by
    rw [decisionContext_run a o hb (lineageGraph_beat hg), beat_beat]
    rfl
  have hpressure : withInner c (pure c.pressure) (beat c s) = .ok (c.pressure, beat c s) := by
    rw [withInner_run hb, beat_beat]
    rfl
  have hpolicies : withInner c (pure c.policies) (beat c s) = .ok (c.policies, beat c s) := by
    rw [withInner_run hb, beat_beat]
    rfl
  obtain ⟨s', hrec⟩ := recordPlan_run (c := c) (s := beat c s) actor (h.generation o hmem)
    (decide_storable h hmem hd)
  have hsection : withInner c (recordPlan c actor o d) (beat c s) = .ok ((), s') := by
    rw [withInner_run hb, beat_beat, hrec]
  refine ⟨s', ?_⟩
  unfold plan
  rw [P.bind_run hobj, P.bind_run hctx, P.bind_run hpressure, P.bind_run hpolicies,
    P.lift_run hd, P.bind_run hsection]
  rfl

/-! ## the batch path -/

theorem validReplicaCounts_run :
    ∃ m, validReplicaCounts s = .ok (m, s) ∧
      ∀ id, (m id).getD 0 =
        s.replicas.countWhere (fun r => Decidable.decide (r.objectId = id) && r.valid) := by
  refine ⟨_, rfl, ?_⟩
  intro id
  show (ite _ _ _ : Option Nat).getD 0 = _
  have hgroup : ((s.replicas.rows.filter Replica.valid).filter fun r => r.objectId == id).length =
      s.replicas.countWhere (fun r => Decidable.decide (r.objectId = id) && r.valid) := by
    rw [List.filter_filter, ← List.countP_eq_length_filter]
    rfl
  by_cases hnil : (s.replicas.rows.filter Replica.valid).filter (fun r => r.objectId == id) = []
  · rw [if_pos hnil, ← hgroup, hnil]
    rfl
  · rw [if_neg hnil, ← hgroup]
    rfl

/-- counting adds, for every object, the valid rows that name it -/
theorem countArchives_run (rows : List (Bool × ArchiveRecord)) (m : Uuid → Option Nat) (k : Nat)
    (hk : ∀ id, (m id).getD 0 ≤ k) (hlen : k + (rows.filter Prod.fst).length < 2 ^ 64) :
    ∃ m', countArchives rows m = .ok m' ∧
      ∀ id, (m' id).getD 0 =
        (m id).getD 0 + (rows.filter fun x => x.1 && x.2.objectId == id).length := by
  induction rows generalizing m k with
  | nil => exact ⟨m, rfl, fun id => by simp⟩
  | cons x rows ih =>
    rw [List.filter_cons] at hlen
    unfold countArchives
    by_cases hx : x.1 = true
    · have hn := hk x.2.objectId
      rw [if_pos hx] at hlen ⊢
      rw [List.length_cons] at hlen
      have hlt : (m x.2.objectId).getD 0 + 1 < 2 ^ 64 := by omega
      dsimp only
      rw [if_pos hlt]
      obtain ⟨m', hm', hcount⟩ := ih
        (fun u => if u = x.2.objectId then some ((m x.2.objectId).getD 0 + 1) else m u) (k + 1)
        (by
          intro id
          by_cases hid : id = x.2.objectId
          · simp only [hid, if_true, Option.getD_some]
            omega
          · simp only [hid, if_false]
            have := hk id
            omega)
        (by omega)
      refine ⟨m', hm', fun id => ?_⟩
      rw [hcount id]
      by_cases hid : id = x.2.objectId
      · simp only [hid, if_true, Option.getD_some, List.filter_cons, hx, Bool.true_and,
          beq_self_eq_true, List.length_cons]
        omega
      · have hne : (x.2.objectId == id) = false := by
          simp only [beq_eq_false_iff_ne, ne_eq]
          exact fun e => hid e.symm
        simp only [hid, if_false, List.filter_cons, hne, Bool.and_false]
        simp
    · rw [if_neg hx] at hlen ⊢
      obtain ⟨m', hm', hcount⟩ := ih m k hk hlen
      refine ⟨m', hm', fun id => ?_⟩
      rw [hcount id, List.filter_cons]
      simp [hx]

/-- the valid rows are those of the table -/
theorem archiveRows_filter (p : ArchiveRecord → Bool) :
    ((archiveRows c s).filter fun x => x.1 && p x.2).length = (s.archives.rows.filter p).length := by
  have hretired : (c.retired.map fun r => (false, r)).filter (fun x => x.1 && p x.2) = [] := by
    apply List.filter_eq_nil_iff.mpr
    intro x hx
    obtain ⟨r, -, rfl⟩ := List.mem_map.mp hx
    simp
  unfold archiveRows
  rw [List.filter_append, hretired, List.append_nil, List.filter_map, List.length_map]
  simp [Function.comp_def]

theorem archiveCounts_run (h : Ready c s) :
    ∃ m, archiveCounts c s = .ok (m, s) ∧
      ∀ id, (m id).getD 0 = (s.archives.rows.filter fun r => r.objectId == id).length := by
  have hperm := List.perm_insertionSort (fun x y : Bool × ArchiveRecord =>
    x.2.objectId.bits < y.2.objectId.bits ∨
      x.2.objectId = y.2.objectId ∧ x.2.archiveId ≤ y.2.archiveId) (archiveRows c s)
  have hvalid : ((archiveRows c s).filter Prod.fst).length < 2 ^ 64 := by
    have hall := archiveRows_filter (c := c) (s := s) (fun _ => true)
    simp only [Bool.and_true, List.filter_true] at hall
    rw [hall]
    exact h.archives
  obtain ⟨m, hm, hcount⟩ := countArchives_run _ (fun _ => none) 0 (fun _ => Nat.le_refl 0)
    (by rw [(hperm.filter _).length_eq, Nat.zero_add]; exact hvalid)
  refine ⟨m, ?_, fun id => ?_⟩
  · unfold archiveCounts
    rw [hm]
    rfl
  · rw [hcount id, (hperm.filter _).length_eq, archiveRows_filter fun r => r.objectId == id]
    exact Nat.zero_add _

/-- what one batch loads, and the copies it counts -/
theorem loadAll_run {g : LineageGraph} (h : Ready c s) (hg : s.lineageGraph = .ok (g, s)) :
    ∃ replicas archives, loadAll c s =
        .ok ((s.objects.rows.insertionSort (fun x y => x.id.le y.id), g, replicas, archives),
          beat c s) ∧
      ∀ id, (replicas id).getD 0 + (archives id).getD 0 = validCopies s id := by
  obtain ⟨replicas, hr, hrc⟩ := validReplicaCounts_run (s := beat c s)
  obtain ⟨archives, ha, hac⟩ := archiveCounts_run h.beat
  refine ⟨replicas, archives, ?_, fun id => ?_⟩
  · unfold loadAll
    rw [withInner_run h]
    have hall : Store.listObjects (beat c s) =
        .ok (s.objects.rows.insertionSort (fun x y => x.id.le y.id), beat c s) := rfl
    rw [P.bind_run (x := Store.listObjects) hall,
      P.bind_run (x := Store.lineageGraph) (lineageGraph_beat hg), P.bind_run hr, P.bind_run ha]
    rfl
  · rw [hrc id, hac id]
    rfl

/-- the loop keeps, in the order it meets them, the decisions to reclaim -/
theorem decideAll_run (a : Arith) {all : List ReclaimObject} {g : LineageGraph}
    {replicas archives : Uuid → Option Nat} (os : List ReclaimObject)
    (results : List PolicyDecision) (dec : ReclaimObject → Option PolicyDecision)
    (hd : ∀ o ∈ os, live o = true → ∃ d, dec o = some d ∧
      decide a c.policies o c.pressure c.epoch c.now
        (contextFrom a all g o ((replicas o.id).getD 0 + (archives o.id).getD 0)) = .ok d) :
    decideAll c a all g replicas archives os results =
      .ok (results ++ ((os.filter live).filterMap dec).filter recommended) := by
  induction os generalizing results with
  | nil => simp [decideAll]
  | cons o os ih =>
    have hos := fun o' h' => hd o' (List.mem_cons_of_mem o h')
    unfold decideAll
    by_cases hlive : live o = true
    · have hstate : ¬(o.lifecycleState = .reclaimed ∨ o.lifecycleState = .failed) := by
        simpa [live, not_or] using hlive
      obtain ⟨d, hdec, ho⟩ := hd o List.mem_cons_self hlive
      rw [if_neg hstate, List.filter_cons, if_pos hlive, List.filterMap_cons_some hdec,
        List.filter_cons]
      dsimp only
      rw [ho]
      show decideAll c a all g replicas archives os _ = _
      rw [ih _ hos]
      by_cases hrec : recommended d = true
      · simp [hrec]
      · simp [hrec]
    · have hstate : o.lifecycleState = .reclaimed ∨ o.lifecycleState = .failed := by
        simpa [live, Classical.not_and_iff_not_or_not, ← or_iff_not_imp_left] using hlive
      rw [if_pos hstate, List.filter_cons, if_neg hlive]
      exact ih results hos

theorem recordAll_run (l : List PolicyDecision) (h : Ready c s) (hl : ∀ d ∈ l, Storable d) :
    ∃ s', recordAll c l s = .ok ((), s') := by
  induction l generalizing s with
  | nil => exact ⟨s, rfl⟩
  | cons d l ih =>
    have hd := insertDecision_run (s := beat c s) (hl d List.mem_cons_self)
    have hsection : withInner c (Store.insertDecision d.decision.toDecision) s = _ :=
      (withInner_run h _).trans hd
    have hready : Ready c { beat c s with
        decisions := (beat c s).decisions ++ [d.decision.toDecision] } := by
      refine ⟨h.beat.holds, h.epoch, h.generation, ?_, h.archives⟩
      obtain ⟨g, hg⟩ := h.graph
      obtain ⟨g', hadd, -⟩ := Result.bind_ok.mp hg
      exact ⟨g', Result.bind_ok.mpr ⟨g', hadd, rfl⟩⟩
    obtain ⟨s', hs'⟩ := ih hready (fun d' h' => hl d' (List.mem_cons_of_mem d h'))
    refine ⟨s', ?_⟩
    unfold recordAll
    rw [P.bind_run hsection]
    exact hs'

/-! ## the order of the candidates -/

/-- a higher score, or the same score and a smaller id -/
def Ahead (x y : PolicyDecision) : Prop :=
  y.decision.score.value < x.decision.score.value ∨
    x.decision.score.value = y.decision.score.value ∧
      x.decision.objectId.bits < y.decision.objectId.bits

/-- the key the candidates are sorted by -/
def sortKey (d : PolicyDecision) : Ratᵒᵈ ×ₗ Fin (2 ^ 128) :=
  toLex (OrderDual.toDual d.decision.score.value, d.decision.objectId.bits)

theorem ahead_iff {x y : PolicyDecision} : Ahead x y ↔ sortKey x < sortKey y := by
  unfold Ahead sortKey
  rw [Prod.Lex.toLex_lt_toLex]
  exact Iff.rfl

theorem compareDecisions_ne_gt {x y : PolicyDecision} (hx : x.decision.score.isFinite = true)
    (hy : y.decision.score.isFinite = true) :
    compareDecisions x y ≠ .gt ↔ sortKey x ≤ sortKey y := by
  unfold compareDecisions sortKey
  rw [F64.partialCmp_finite hy hx, Option.getD_some, ne_eq, Ordering.then_eq_gt,
    compare_gt_iff_gt, compare_gt_iff_gt, compare_eq_iff_eq, Prod.Lex.toLex_le_toLex]
  show ¬(_ ∨ _) ↔ y.decision.score.value < x.decision.score.value ∨
    x.decision.score.value = y.decision.score.value ∧ _
  rcases lt_trichotomy x.decision.score.value y.decision.score.value with hlt | heq | hgt
  · simp [hlt, hlt.le, hlt.ne]
  · simp [heq]
  · simp [hgt, hgt.le, hgt.ne, hgt.ne']

theorem sortCandidates_spec (l : List PolicyDecision)
    (hfin : ∀ d ∈ l, d.decision.score.isFinite = true)
    (hid : l.Pairwise fun x y => x.decision.objectId ≠ y.decision.objectId) :
    (sortCandidates l).Perm l ∧ (sortCandidates l).Pairwise Ahead := by
  have heq : sortCandidates l = l.insertionSort (fun x y => sortKey x ≤ sortKey y) := by
    have hmap := List.map_insertionSort (fun x y => compareDecisions x y ≠ .gt)
      (fun x y => sortKey x ≤ sortKey y) id l
      (fun x hx y hy => compareDecisions_ne_gt (hfin x hx) (hfin y hy))
    rw [List.map_id, List.map_id] at hmap
    exact hmap
  have htotal : Std.Total fun x y : PolicyDecision => sortKey x ≤ sortKey y :=
    ⟨fun x y => le_total _ _⟩
  have htrans : IsTrans PolicyDecision fun x y => sortKey x ≤ sortKey y :=
    ⟨fun x y z => le_trans⟩
  have hperm : (sortCandidates l).Perm l := by
    rw [heq]
    exact List.perm_insertionSort _ l
  refine ⟨hperm, ?_⟩
  have hsorted : (sortCandidates l).Pairwise fun x y => sortKey x ≤ sortKey y := by
    rw [heq]
    exact List.pairwise_insertionSort _ l
  have hdistinct : (sortCandidates l).Pairwise
      fun x y => x.decision.objectId ≠ y.decision.objectId :=
    (hperm.pairwise_iff fun h => h.symm).mpr hid
  refine (hsorted.and hdistinct).imp ?_
  rintro x y ⟨hle, hne⟩
  apply ahead_iff.mpr
  apply lt_of_le_of_ne hle
  intro hkey
  have hbits : x.decision.objectId.bits = y.decision.objectId.bits := congrArg (fun k => k.2) hkey
  exact hne (by
    cases hx : x.decision.objectId
    cases hy : y.decision.objectId
    simp_all)

/-! ## batch planning is single planning -/

/-- what `plan` returns for an object, if it returns -/
def planned (c : Serving) (a : Arith) (actor : String) (s : Store) (id : Uuid) :
    Option PolicyDecision :=
  match plan c a id actor s with
  | .ok (d, _) => some d
  | .error _ => none

/-- the decisions to reclaim that planning the live objects one by one returns -/
def plans (c : Serving) (a : Arith) (actor : String) (s : Store) : List PolicyDecision :=
  ((s.objects.rows.filter live).filterMap fun o => planned c a actor s o.id).filter recommended

/-- both planners decide every live row, and decide it alike -/
def Decided (c : Serving) (a : Arith) (actor : String) (s : Store) (g : LineageGraph) : Prop :=
  ∀ o ∈ s.objects.rows, live o = true → ∃ d, planned c a actor s o.id = some d ∧
    decide a c.policies o c.pressure c.epoch c.now (contextOf a s g o) = .ok d

section
variable {a : Arith} {actor : String} {g : LineageGraph}

theorem decided_of (h : Ready c s) (hg : s.lineageGraph = .ok (g, s))
    (hd : ∀ o ∈ s.objects.rows, live o = true → ∃ context s' d,
      decisionContext c a o s = .ok (context, s') ∧
        decide a c.policies o c.pressure c.epoch c.now context = .ok d) :
    Decided c a actor s g := by
  intro o ho hlive
  obtain ⟨context, s', d, hctx, hdec⟩ := hd o ho hlive
  rw [decisionContext_run a o h hg] at hctx
  cases hctx
  obtain ⟨s'', hplan⟩ := plan_run a actor h hg (Table.find?_of_mem ho) ho hdec
  refine ⟨d, ?_, hdec⟩
  unfold planned
  rw [hplan]

theorem Decided.storable (hd : Decided c a actor s g) (h : Ready c s) :
    ∀ d ∈ plans c a actor s, Storable d := by
  intro d hmem
  obtain ⟨o, ho, hplan⟩ := List.mem_filterMap.mp (List.mem_filter.mp hmem).1
  obtain ⟨hrow, hlive⟩ := List.mem_filter.mp ho
  obtain ⟨d', hd', hdec⟩ := hd o hrow hlive
  cases hplan.symm.trans hd'
  exact decide_storable h hrow hdec

/-- the rows have distinct ids, so their decisions do -/
theorem Decided.distinct (hd : Decided c a actor s g) :
    (plans c a actor s).Pairwise fun x y => x.decision.objectId ≠ y.decision.objectId := by
  have hid : ∀ o ∈ s.objects.rows.filter live, ∀ d, planned c a actor s o.id = some d →
      d.decision.objectId = o.id := by
    intro o ho d hplan
    obtain ⟨hrow, hlive⟩ := List.mem_filter.mp ho
    obtain ⟨d', hd', hdec⟩ := hd o hrow hlive
    cases hplan.symm.trans hd'
    exact (decide_ok a hdec).1
  have hrows : (s.objects.rows.filter live).Pairwise fun o o' => o.id ≠ o'.id :=
    (List.pairwise_map.mp s.objects.nodup).filter _
  apply List.Pairwise.filter
  apply List.pairwise_filterMap.mpr
  refine hrows.imp_of_mem ?_
  intro o o' ho ho' hne d hplan d' hplan' heq
  apply hne
  rw [← hid o ho d hplan, ← hid o' ho' d' hplan', heq]

/-- the loop meets the rows in the order of the query and keeps the same decisions -/
theorem Decided.loop (hd : Decided c a actor s g) {replicas archives : Uuid → Option Nat}
    (hcopies : ∀ id, (replicas id).getD 0 + (archives id).getD 0 = validCopies s id) :
    ∃ results, decideAll c a (s.objects.rows.insertionSort fun x y => x.id.le y.id) g replicas
        archives (s.objects.rows.insertionSort fun x y => x.id.le y.id) [] = .ok results ∧
      results.Perm (plans c a actor s) := by
  have hperm := List.perm_insertionSort (fun x y : ReclaimObject => x.id.le y.id = true)
    s.objects.rows
  refine ⟨_, decideAll_run a _ [] (fun o => planned c a actor s o.id) ?_, ?_⟩
  · intro o ho hlive
    rw [hcopies o.id]
    exact hd o (hperm.mem_iff.mp ho) hlive
  · rw [List.nil_append]
    exact ((hperm.filter live).filterMap fun o => planned c a actor s o.id).filter recommended

end

/-- `candidates` returns the first `limit` of the decisions `plan` would return, by score descending
and object id ascending, whatever order the rows are in -/
theorem candidates_are_plans (c : Serving) (a : Arith) (actor : String) (s : Store) (limit : Nat)
    (h : Ready c s) (hlimit : limit ≤ maxCandidates)
    (hd : ∀ o ∈ s.objects.rows, live o = true → ∃ context s' d,
      decisionContext c a o s = .ok (context, s') ∧
        decide a c.policies o c.pressure c.epoch c.now context = .ok d) :
    ∃ (l : List PolicyDecision) (s' : Store), l.Perm (plans c a actor s) ∧ l.Pairwise Ahead ∧
      candidates c a limit s = .ok (l.take limit, s') := by
  obtain ⟨g, hg⟩ := h.graph
  have hdec : Decided c a actor s g := decided_of h hg hd
  obtain ⟨replicas, archives, hload, hcopies⟩ := loadAll_run h hg
  obtain ⟨results, hloop, hsame⟩ := hdec.loop hcopies
  have hstore : ∀ d ∈ results, Storable d := fun d hm => hdec.storable h d (hsame.mem_iff.mp hm)
  have hdistinct := (hsame.pairwise_iff fun h => h.symm).mpr hdec.distinct
  obtain ⟨hsort, hahead⟩ := sortCandidates_spec results (fun d hm => (hstore d hm).score) hdistinct
  obtain ⟨s', hrec⟩ := recordAll_run ((sortCandidates results).take limit) h.beat
    (fun d hm => hstore d (hsort.mem_iff.mp (List.mem_of_mem_take hm)))
  refine ⟨sortCandidates results, s', hsort.trans hsame, hahead, ?_⟩
  unfold candidates
  rw [if_neg (Nat.not_lt.mpr hlimit)]
  show (loadAll c >>= _) s = _
  rw [P.bind_run hload]
  dsimp only
  rw [P.lift_run hloop, P.bind_run hrec]
  rfl

end

/-! ## a store with two candidates -/

namespace Sample

/-- the shortest decimal of a number -/
def shorten : Nat → Int → Int → F64
  | 0, m, e => .dec m e
  | n + 1, m, e =>
    if m = 0 then .dec 0 0
    else if m % 10 = 0 then shorten n (m / 10) (e + 1)
    else .dec m e

def addDecimal : F64 → F64 → F64
  | .dec m e, .dec m' e' =>
    let k := min e e'
    shorten 40 (m * 10 ^ (e - k).toNat + m' * 10 ^ (e' - k).toNat) k
  | _, _ => .nan

def mulDecimal : F64 → F64 → F64
  | .dec m e, .dec m' e' => shorten 40 (m * m') (e + e')
  | _, _ => .nan

def negDecimal : F64 → F64
  | .dec m e => .dec (-m) e
  | x => x

/-- `{:.n}` of a number with at most `n` decimals -/
def fixedDecimal (n : Nat) : F64 → String
  | .dec m e => (F64.dec (m * 10 ^ (e + n).toNat) (-n)).text
  | x => x.text

/-- decimal arithmetic, exact where no rounding happens; nothing here divides but by one -/
def decimal : Arith where
  add := addDecimal
  sub x y := addDecimal x (negDecimal y)
  mul := mulDecimal
  div x y := if y = one then x else .nan
  max x y := if x.le y then y else x
  ofNat n := shorten 40 n 0
  fixed := fixedDecimal

/-- an object that costs a unit per byte and second -/
def costly (n : Fin (2 ^ 128)) (size : Nat) (state : LifecycleState) : ReclaimObject :=
  { ReclaimObject.new ⟨n⟩ 0 "checkpoint" size 0 with
    memoryCostPerByteSec := one
    lifecycleState := state }

def objects : List ReclaimObject :=
  [costly 3 20000 .hot, costly 1 2000 .warm, costly 2 5000 .reclaimed]

/-- a replica of the first object, which needs the second -/
def replica : Replica where
  replicaId := ⟨20⟩
  objectId := ⟨3⟩
  generation := 1
  location := ⟨"memory", "a", .hot⟩
  size := 20000
  contentHash := ⟨7⟩
  createdAtMs := 0
  verifiedAtMs := none
  valid := true
  ownerNode := none

def archived : ArchiveRecord := ⟨"a", ⟨1⟩, 1, "archive", "b", 2000, ⟨8⟩, 5⟩

def edge : LineageEdge := ⟨⟨3⟩, ⟨1⟩, .dependsOn⟩

def store : Store :=
  { Store.new with
    objects := ⟨objects, by decide⟩
    replicas := ⟨[replica], by decide⟩
    archives := ⟨[archived], by decide⟩
    lineage := ⟨[edge], by decide⟩
    coordinator := some ⟨1, "main", ⟨7⟩, 0⟩ }

def serving : Serving where
  processId := "main"
  bootId := ⟨7⟩
  epoch := 1
  now := 10
  policies := .withDefaults
  pressure := .normal
  retired := []

theorem ready : Ready serving store where
  holds := by decide
  epoch := by decide
  generation := by decide
  graph := ⟨_, rfl⟩
  archives := by decide

def graph : LineageGraph := ⟨[edge], [⟨3⟩, ⟨1⟩, ⟨2⟩]⟩

def decisionOn (o : ReclaimObject) : Res PolicyDecision :=
  decide decimal serving.policies o serving.pressure serving.epoch serving.now
    (contextOf decimal store graph o)

theorem decided : ∀ o ∈ store.objects.rows, live o = true → ∃ context s' d,
    decisionContext serving decimal o store = .ok (context, s') ∧
      decide decimal serving.policies o serving.pressure serving.epoch serving.now context =
        .ok d := by
  have hall : ∀ o ∈ objects, live o = true → (decisionOn o).isOk = true := by decide +kernel
  intro o ho hlive
  have hctx := decisionContext_run decimal o ready (g := graph) rfl
  have hok := hall o ho hlive
  unfold decisionOn at hok
  cases hd : decide decimal serving.policies o serving.pressure serving.epoch serving.now
      (contextOf decimal store graph o) with
  | error e =>
    rw [hd] at hok
    cases hok
  | ok d => exact ⟨_, _, d, hctx, hd⟩

end Sample

theorem candidates_are_plans_two :
    (plans Sample.serving Sample.decimal "cli" Sample.store).length = 2 ∧
      ∃ (l : List PolicyDecision) (s' : Store),
        l.Perm (plans Sample.serving Sample.decimal "cli" Sample.store) ∧ l.Pairwise Ahead ∧
          candidates Sample.serving Sample.decimal 1 Sample.store = .ok (l.take 1, s') :=
  ⟨by decide +kernel, candidates_are_plans Sample.serving Sample.decimal "cli" Sample.store 1
    Sample.ready (by decide) Sample.decided⟩

end Planning

end ReclaimFabric
