import ReclaimFabric.Model.Coordinator.Tiers

/-!
# Recovery

`recovery::reconcile_store` and `Coordinator::recover`.  Recovery works on the raw store, without
the coordinator mutex, while the recovery guard excludes every other lifecycle operation.

For every open journal entry, oldest first, `reconcileEntry` decides from the phase, and for a
physical phase from what the backends still hold (`physicalState`), whether to roll the object
back to the journal's snapshot (`rollback`) or to finish the reclaim (`commitAfterCrash`).  A
failure is recorded in the report and leaves the entry open.
-/

namespace ReclaimFabric

structure RecoveryReport where
  reconciledAttempts : Nat
  committed : List Uuid
  rolledBack : List Uuid
  abandonedReservations : Nat
  dedupRepairs : List String
  lineageOk : Bool
  errors : List String

inductive ReconcileOutcome where
  | committed
  | rolledBack
  | failed
deriving DecidableEq

namespace Coordinator

open Prog (attempt settle)

/-! ## dedup repair -/

/-- count one replica into the live entries -/
def addLive (r : Replica) : List DedupEntry → Res (List DedupEntry)
  | [] => .ok [⟨r.contentHash, r.location.backend, r.location.key, 1, r.size⟩]
  | e :: es =>
    if e.contentHash = r.contentHash ∧ e.backend = r.location.backend then
      if e.key ≠ r.location.key ∨ e.payloadSize ≠ r.size then
        .error (.recovery (s!"live replicas for {e.contentHash} on {e.backend} disagree on " ++
          "canonical key or payload size"))
      else if e.refCount + 1 ≥ 2 ^ 64 then
        .error (.recovery "dedup live reference count overflow")
      else .ok ({ e with refCount := e.refCount + 1 } :: es)
    else do
      let es' ← addLive r es
      pure (e :: es')

/-- the live entries of all replicas of live objects -/
def liveEntries (objects : List ReclaimObject) :
    List Replica → List DedupEntry → Res (List DedupEntry)
  | [], live => .ok live
  | r :: rs, live =>
    match objects.find? (fun o => decide (o.id = r.objectId)) with
    | none => .error (.recovery
        s!"orphan replica {r.replicaId} references missing object {r.objectId}")
    | some o =>
      if o.lifecycleState = .reclaimed then
        .error (.recovery (s!"reclaimed object {o.id} still owns replica {r.replicaId}; " ++
          "refusing to drop its dedup accounting while physical metadata remains"))
      else do
        let live' ← addLive r live
        liveEntries objects rs live'

/-- repair the stored rows; what is left of `live` has no row -/
def repairStored : List DedupEntry → List DedupEntry → List String →
    M (List DedupEntry × List String)
  | [], live, repairs => pure (live, repairs)
  | e :: es, live, repairs => do
    let here := fun x : DedupEntry =>
      decide (x.contentHash = e.contentHash) && decide (x.backend = e.backend)
    match live.find? here with
    | none => do
      store (.deleteDedup e.contentHash e.backend)
      repairStored es live
        (repairs ++ [s!"removed unreferenced dedup entry for {e.contentHash} on {e.backend}"])
    | some x =>
      let live' := live.filter (fun y => !here y)
      if e.refCount ≠ x.refCount ∨ e.key ≠ x.key ∨ e.payloadSize ≠ x.payloadSize then do
        store (.upsertDedup ⟨e.contentHash, e.backend, x.key, x.refCount, x.payloadSize⟩)
        repairStored es live' (repairs ++ [s!"repaired dedup entry for {e.contentHash} on {e.backend} (refs {e.refCount} -> {x.refCount})"])
      else repairStored es live' repairs

/-- recreate the rows that are missing -/
def recreateMissing : List DedupEntry → List String → M (List String)
  | [], repairs => pure repairs
  | x :: xs, repairs => do
    store (.insertDedup x)
    recreateMissing xs
      (repairs ++ [s!"recreated missing dedup entry for {x.contentHash} on {x.backend}"])

/-- `recovery::repair_dedup_counts` -/
def repairDedupCounts : M (List String) := do
  let objects ← store .listObjects
  let replicas ← store .allReplicas
  let live ← settle (liveEntries objects replicas [])
  let stored ← store .listDedup
  let (missing, repairs) ← repairStored stored live []
  recreateMissing (missing.insertionSort (fun a b => Store.dedupLe a b)) repairs

/-! ## rollback -/

/-- put back the replica rows of the journal; `known` are the rows there are -/
def restoreReplicas (e : JournalEntry) : List Replica → List Replica → M Unit
  | [], _ => pure ()
  | expected :: rest, known => do
    match known.find? (fun r => decide (r.replicaId = expected.replicaId)) with
    | some actual =>
      if actual.objectId ≠ expected.objectId ∨ actual.generation ≠ expected.generation ∨
          actual.location ≠ expected.location ∨ actual.size ≠ expected.size ∨
          actual.contentHash ≠ expected.contentHash ∨ actual.valid ≠ expected.valid then
        throw (.recovery (s!"journal {e.attemptId} cannot roll back conflicting replica " ++
          s!"{expected.replicaId}"))
      restoreReplicas e rest known
    | none => do
      if known.any (fun r => decide (r.location.backend = expected.location.backend) &&
          decide (r.location.key = expected.location.key) &&
          (decide (r.contentHash ≠ expected.contentHash) || decide (r.size ≠ expected.size))) then
        throw (.recovery (s!"journal {e.attemptId} cannot restore replica " ++
          s!"{expected.replicaId}: its physical key is assigned to different content"))
      store (.addReplica expected)
      restoreReplicas e rest (expected :: known)

/-- put back the archive rows of the journal -/
def restoreArchives (e : JournalEntry) : List ArchiveRecord → List ArchiveRecord → M Unit
  | [], _ => pure ()
  | expected :: rest, known => do
    match known.find? (fun a => decide (a.archiveId = expected.archiveId)) with
    | some actual =>
      if actual.objectId ≠ expected.objectId ∨ actual.generation ≠ expected.generation ∨
          actual.backend ≠ expected.backend ∨ actual.key ≠ expected.key ∨
          actual.size ≠ expected.size ∨ actual.contentHash ≠ expected.contentHash then
        throw (.recovery (s!"journal {e.attemptId} cannot roll back conflicting archive " ++
          s!"{expected.archiveId}"))
      restoreArchives e rest known
    | none => do
      if known.any (fun a => decide (a.backend = expected.backend) &&
          decide (a.key = expected.key) &&
          (decide (a.contentHash ≠ expected.contentHash) || decide (a.size ≠ expected.size))) then
        throw (.recovery (s!"journal {e.attemptId} cannot restore archive " ++
          s!"{expected.archiveId}: its physical key is assigned to different content"))
      store (.insertArchive expected)
      restoreArchives e rest (expected :: known)

/-- `recovery::restore_rollback_metadata` -/
def restoreRollbackMetadata (e : JournalEntry) (p : ParsedJournalPayload) : M Unit := do
  let replicas ← store .allReplicas
  restoreReplicas e p.replicaDeletions replicas
  let archives ← store .listArchives
  restoreArchives e p.archiveDeletions archives

/-- an audit row of a recovery decision -/
def recoveryAudit (now : Int) (action : String) (e : JournalEntry)
    (prior new : Option LifecycleState) (detail : Json) : AuditEntry where
  id := 0
  tsMs := now
  actor := "recovery"
  action := action
  objectId := some e.objectId
  generation := some e.generation
  priorState := prior
  newState := new
  policy := none
  attemptId := some e.attemptId
  node := none
  detail := detail

/-- put the object row back; the audit row of a change -/
def restoreObject (now : Int) (e : JournalEntry) (prior : ReclaimObject) :
    M (Option AuditEntry) := do
  let detail : Json := .obj [("phase", .str e.phase.asStr)]
  match ← store (.getObject e.objectId) with
  | some o =>
    if o.generation ≠ e.generation then
      throw (.recovery (s!"journal {e.attemptId} generation {e.generation} cannot roll back " ++
        s!"current generation {o.generation}"))
    if o.lifecycleState ≠ prior.lifecycleState then
      store (.updateObject prior)
      pure (some (recoveryAudit now "RECOVERY_ROLLBACK" e (some o.lifecycleState)
        (some prior.lifecycleState) detail))
    else pure none
  | none => do
    store (.createObject prior)
    pure (some (recoveryAudit now "RECOVERY_RESTORE_OBJECT" e none (some prior.lifecycleState)
      detail))

/-- `recovery::rollback` -/
def rollback (now : Int) (e : JournalEntry) (p : ParsedJournalPayload) :
    M ReconcileOutcome := do
  let audit ← restoreObject now e p.priorObject
  restoreRollbackMetadata e p
  let _ ← repairDedupCounts
  match audit with
  | some a => store (.appendAudit a)
  | none => pure ()
  store (.updateReservationForAttempt e.attemptId .released)
  store (.reconcileAttempt e.attemptId .rolledBack now)
  store (.updateJournalPhase e.attemptId .rolledBack now)
  pure .rolledBack

/-! ## commit -/

def commitReplicas (e : JournalEntry) (known : List Replica) : List Replica → M Unit
  | [] => pure ()
  | r :: rs => do
    match known.find? (fun x => decide (x.replicaId = r.replicaId)) with
    | some actual =>
      if actual.objectId ≠ r.objectId ∨ actual.generation ≠ r.generation ∨
          actual.location ≠ r.location ∨ actual.contentHash ≠ r.contentHash then
        throw (.recovery (s!"journal {e.attemptId} replica deletion {r.replicaId} does not " ++
          "match stored metadata"))
    | none => pure ()
    store (.deleteReplica r.replicaId)
    -- the reference may be gone already; the repair pass has the last word
    let _ ← attempt (store (.dedupRelease r.contentHash r.location.backend))
    commitReplicas e known rs

def commitArchives (e : JournalEntry) (known : List ArchiveRecord) : List ArchiveRecord → M Unit
  | [] => pure ()
  | a :: as => do
    match known.find? (fun x => decide (x.archiveId = a.archiveId)) with
    | some actual =>
      if actual.objectId ≠ a.objectId ∨ actual.generation ≠ a.generation ∨
          actual.backend ≠ a.backend ∨ actual.key ≠ a.key ∨
          actual.contentHash ≠ a.contentHash then
        throw (.recovery (s!"journal {e.attemptId} archive deletion {a.archiveId} does not " ++
          "match stored metadata"))
    | none => pure ()
    store (.deleteArchive a.archiveId)
    commitArchives e known as

/-- write RECLAIMED, unless the row already says so -/
def commitObject (now : Int) (e : JournalEntry) (current : ReclaimObject) : M Unit := do
  if current.lifecycleState ≠ .reclaimed ∨ current.replicationCount ≠ 0 ∨
      current.physicalSize ≠ 0 ∨ current.compressedSize.isSome then
    store (.updateObject { current with
      lifecycleState := .reclaimed, replicationCount := 0, physicalSize := 0,
      compressedSize := none })
    store (.appendAudit (recoveryAudit now "RECOVERY_COMMIT" e (some current.lifecycleState)
      (some .reclaimed) (.obj [("phase", .str e.phase.asStr),
        ("physical_confirmed", .str "payload gone")])))

/-- `recovery::commit_after_crash` -/
def commitAfterCrash (now : Int) (e : JournalEntry) (p : ParsedJournalPayload) :
    M ReconcileOutcome := do
  match ← store (.getObject e.objectId) with
  | none => throw (.recovery
      s!"journal {e.attemptId} cannot commit: object {e.objectId} is missing")
  | some current => do
    if current.generation ≠ e.generation then
      throw (.recovery (s!"journal {e.attemptId} generation {e.generation} cannot commit " ++
        s!"current generation {current.generation}"))
    let replicas ← store .allReplicas
    commitReplicas e replicas p.replicaDeletions
    let archives ← store .listArchives
    commitArchives e archives p.archiveDeletions
    commitObject now e current
    store (.updateReservationForAttempt e.attemptId .committed)
    store (.reconcileAttempt e.attemptId .committed now)
    store (.updateJournalPhase e.attemptId .committed now)
    pure .committed

/-! ## physical truth -/

def mixedState : ReclaimError :=
  .recovery "journal deletions have mixed physical state; refusing to restore missing data or commit present data"

/-- one more answer: some planned deletion exists, some is missing -/
def noteExists (seen : Bool × Bool) (found : Bool) : Res (Bool × Bool) :=
  let seen := if found then (true, seen.2) else (seen.1, true)
  if seen.1 && seen.2 then .error mixedState else .ok seen

def payloadStates : List Replica → Bool × Bool → M (Bool × Bool)
  | [], seen => pure seen
  | r :: rs, seen => do
    let found ← payloadExists r.location.backend r.location.key
    let seen ← settle (noteExists seen found)
    payloadStates rs seen

def archiveStates : List ArchiveRecord → Bool × Bool → M (Bool × Bool)
  | [], seen => pure seen
  | a :: as, seen => do
    let backend ← lookupArchive a.backend
      (.recovery ("archive backend " ++ a.backend ++ " is unavailable during recovery"))
    let found ← archiveExists backend.id a.key
    let seen ← settle (noteExists seen found)
    archiveStates as seen

/-- the closure `recover` hands to `reconcile_store`: do the planned payloads still exist -/
def physicalState (payload : JournalPayload) : M Bool := do
  let (_, deletions, archives) ← settle (parseJournalDeletions payload)
  if deletions = [] ∧ archives = [] then
    pure true
  else do
    let seen ← payloadStates deletions (false, false)
    let seen ← archiveStates archives seen
    pure seen.1

/-! ## reconciliation -/

/-- the payload of an entry as recovery reads it -/
def entryPayload (e : JournalEntry) : Res ParsedJournalPayload := do
  let prePhysical := e.phase = .reserved ∨ e.phase = .validated
  let parsed ← match parseJournalPayload (if prePhysical then e.payload.compatible else e.payload) with
    | .ok p => pure p
    | .error err => throw (.recovery (s!"journal {e.attemptId} corrupt payload: " ++ err.text))
  validatePayloadIdentity e parsed
  if prePhysical ∧ parsed.physicalReplicaDeletions.isSome then
    throw (.recovery
      s!"journal {e.attemptId} has a physical deletion plan before PHYSICAL_STARTED")
  if (e.phase = .physicalStarted ∨ e.phase = .physicalDone) ∧
      parsed.physicalReplicaDeletions.isNone then
    throw (.recovery
      s!"journal {e.attemptId} physical phase has no durable physical deletion plan")
  pure parsed

section
variable (physical : JournalPayload → M Bool)

/-- the decision for a physical phase -/
def reconcilePhysical (now : Int) (e : JournalEntry) (p : ParsedJournalPayload) :
    M ReconcileOutcome := do
  if p.physicalReplicaDeletions = some [] ∧ p.archiveDeletions = [] then
    -- nothing physical was planned: PHYSICAL_DONE proves that the release loop was reached
    if e.phase = .physicalDone then commitAfterCrash now e p else rollback now e p
  else
    if ← physical e.payload then rollback now e p else commitAfterCrash now e p

/-- `recovery::reconcile_entry` -/
def reconcileEntry (now : Int) (e : JournalEntry) : M ReconcileOutcome := do
  let parsed ← settle (entryPayload e)
  match e.phase with
  | .committed | .rolledBack | .failed => pure .failed
  | .reserved | .validated => rollback now e parsed
  | .physicalStarted | .physicalDone => reconcilePhysical physical now e parsed

def noteOutcome (report : RecoveryReport) (e : JournalEntry) (r : Res ReconcileOutcome) :
    RecoveryReport :=
  let report := { report with reconciledAttempts := report.reconciledAttempts + 1 }
  match r with
  | .ok .committed => { report with committed := report.committed ++ [e.attemptId] }
  | .ok .rolledBack => { report with rolledBack := report.rolledBack ++ [e.attemptId] }
  | .ok .failed => { report with errors :=
      report.errors ++ [s!"attempt {e.attemptId} could not be reconciled safely"] }
  | .error err => { report with errors :=
      report.errors ++ [s!"attempt {e.attemptId}: {err}"] }

def reconcileEntries (now : Int) : List JournalEntry → RecoveryReport → M RecoveryReport
  | [], report => pure report
  | e :: es, report => do
    let r ← attempt (reconcileEntry physical now e)
    reconcileEntries now es (noteOutcome report e r)

end

/-! ## stale reservations -/

/-- an abandoned reservation: the object is marked FAILED rather than guessed at -/
def abandon (now : Int) (r : Reservation) : M Unit := do
  match ← store (.getObject r.objectId) with
  | none => pure ()
  | some o =>
    if o.lifecycleState = .reclaimPending then
      store (.updateObject { o with lifecycleState := .failed })
      store (.appendAudit
        { id := 0
          tsMs := now
          actor := "recovery"
          action := "RECOVERY_MARK_FAILED"
          objectId := some o.id
          generation := some o.generation
          priorState := some .reclaimPending
          newState := some .failed
          policy := none
          attemptId := some r.attemptId
          node := none
          detail := .obj [("reason", .str "expired reservation with no reconcileable journal")] })
    else pure ()
  store (.updateReservation r.reservationId .expired)
  store (.reconcileAttempt r.attemptId .failed now)

def expireReservations (now : Int) : List Reservation → Nat → M Nat
  | [], n => pure n
  | r :: rs, n => do
    if r.expiresAtMs ≤ now then
      let j ← store (.getJournal r.attemptId)
      if j.any (fun e => e.phase.isOpen) then
        expireReservations now rs n
      else do
        abandon now r
        expireReservations now rs (n + 1)
    else expireReservations now rs n

/-- `recovery::reconcile_store`; `physical` tells whether the planned payloads still exist -/
def reconcileStore (physical : JournalPayload → M Bool) (now : Int) : M RecoveryReport := do
  let entries ← store .listOpenJournal
  let report ← reconcileEntries physical now entries ⟨0, [], [], 0, [], true, []⟩
  let reservations ← store .listOpenReservations
  let abandoned ← expireReservations now reservations 0
  let repairs ← repairDedupCounts
  let report := { report with abandonedReservations := abandoned, dedupRepairs := repairs }
  let graph ← store .lineageGraph
  match graph.validate with
  | .ok () => pure report
  | .error e => pure { report with
      lineageOk := false, errors := report.errors ++ [s!"lineage validation: {e}"] }

def reportJson (r : RecoveryReport) : Json :=
  .obj [("reconciled_attempts", .nat r.reconciledAttempts),
    ("committed", .arr (r.committed.map fun u => .str u.text)),
    ("rolled_back", .arr (r.rolledBack.map fun u => .str u.text)),
    ("abandoned_reservations", .nat r.abandonedReservations),
    ("dedup_repairs", .arr (r.dedupRepairs.map Json.str)),
    ("lineage_ok", .bool r.lineageOk), ("errors", .arr (r.errors.map Json.str))]

/-- `Coordinator::recover` -/
def recover : M RecoveryReport :=
  withRecovery do
    ask .lock
    ask .unlock
    let now ← nowMs
    let report ← reconcileStore physicalState now
    withInner do
      let ts ← nowMs
      store (.appendAudit
        { id := 0
          tsMs := ts
          actor := "coordinator"
          action := "RECOVERY_RAN"
          objectId := none
          generation := none
          priorState := none
          newState := none
          policy := none
          attemptId := none
          node := none
          detail := reportJson report })
    pure report

end Coordinator

end ReclaimFabric
