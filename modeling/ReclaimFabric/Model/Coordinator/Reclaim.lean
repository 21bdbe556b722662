import ReclaimFabric.Model.Coordinator.Objects
import ReclaimFabric.Model.Journal

/-!
# Coordinator: the reclaim transaction

`Coordinator::reclaim`, cut at its own step comments

* `reclaimChecks`, `preflight`    the refusals before anything is reserved;
* `reserve`                       attempt, reservation and journal in one transaction;
* `enterPending`                  the metadata route to RECLAIM_PENDING;
* `physicalPlan`                  which payloads this attempt owns last;
* `executePhysical`               delete, verify and PHYSICAL_DONE;
* `commitReclaim`                 release the ownership metadata and write RECLAIMED;
* `abortReclaim`, `indeterminateReclaim`
                                  the two error exits after the reservation.

Some failures between the reservation and the physical phase go through `abortReclaim` and some
leave the function directly; the model keeps each of them as the source has it.
-/

namespace ReclaimFabric

structure ReclaimRequest where
  objectId : Uuid
  actor : String
  force : Bool

structure ReclaimReport where
  objectId : Uuid
  generation : Nat
  reclaimed : Bool
  priorState : LifecycleState
  finalState : LifecycleState
  attemptId : Uuid
  reservationId : Uuid
  decision : PolicyDecision
  deletedReplicas : List Uuid
  deletedArchives : List String

namespace Coordinator

open Prog (attempt settle)

/-! ## checks -/

/-- `Coordinator::valid_copy_count` -/
def validCopyCount (id : Uuid) : M Nat := do
  let n ← inner (.validReplicaCount id)
  let as ← inner (.archivesFor id)
  pure (n + as.length)

/-- `Coordinator::check_survivability` -/
def checkSurvivability (o : ReclaimObject) (toDelete : List Replica) (archives : Nat) :
    M Unit := do
  let validBefore ← validCopyCount o.id
  let deletedValid := (toDelete.filter Replica.valid).length
  let remaining := validBefore - deletedValid - archives
  let min := o.durabilityClass.minValidCopies
  if remaining < min then
    throw (.survivabilityViolation
      (s!"after reclaim: {remaining} valid copies remain, minimum for " ++
        s!"{o.durabilityClass.debug} is {min}"))

/-- `Coordinator::check_dependencies` -/
def checkDependencies (o : ReclaimObject) : M Unit := do
  let graph ← lineage
  let all ← inner .listObjects
  let reconstructible := fun id =>
    ((all.find? (fun x => decide (x.id = id))).map ReclaimObject.reconstructible).getD false
  let deadNodes := (all.filter (fun x => decide (x.lifecycleState = .reclaimed))).map
    ReclaimObject.id
  settle (graph.dependencySafe o.id reconstructible deadNodes)

/-- the hard refusals that only read the object row -/
def reclaimChecks (o : ReclaimObject) : Res Unit := do
  if o.pinned then
    throw (.pinnedObject o.id.text)
  if o.isProtected then
    throw (.protectedObject o.id.text)
  if o.lifecycleState = .reclaimed then
    throw (.invalidArgument s!"object {o.id} is already RECLAIMED")
  if o.lifecycleState = .failed then
    throw (.invalidArgument s!"object {o.id} is FAILED and requires operator repair")

def checkDeadline (o : ReclaimObject) (now : Int) : Res Unit :=
  match o.minRetentionDeadlineMs with
  | none => .ok ()
  | some deadline =>
    if now < deadline then
      .error (.invalidArgument s!"object {o.id} is before its minimum retention deadline")
    else .ok ()

/-- the states reclaim leaves through RECOMPUTABLE -/
def LiveTier (s : LifecycleState) : Bool :=
  match s with
  | .hot | .warm | .cold | .compressed => true
  | _ => false

/-- the complete metadata route, before anything durable is written -/
def preflight (o : ReclaimObject) : Res Unit := do
  if LiveTier o.lifecycleState then
    if !o.reconstructible && decide (o.durabilityClass ≠ .ephemeral) then
      throw (.survivabilityViolation
        s!"object {o.id} is not reconstructible and may not be reclaimed")
    let _ ← checkTransition o.lifecycleState .recomputable
    let _ ← checkTransition .recomputable .reclaimPending
  else
    let _ ← checkTransition o.lifecycleState .reclaimPending

/-! ## error exits -/

/-- `Coordinator::indeterminate_reclaim` -/
def indeterminateReclaim (report : ReclaimReport) (reason : ReclaimError) (kind : String) :
    M ReclaimError := do
  let message := s!"reclaim {report.attemptId} became indeterminate during {kind}: {reason}; coordinator is shutting down for recovery"
  let r ← attempt (withInner do
    let ts ← nowMs
    store (.insertFailure
      ⟨ts, some report.objectId, some report.attemptId, kind, reason.text, false⟩))
  ask .setAuthorityLost
  ask .setShutdown
  match r with
  | .ok () => pure (.recovery message)
  | .error e => pure (.recovery (message ++ s!"; recording the failure also failed: {e}"))

/-- `Coordinator::abort_reclaim` -/
def abortReclaim (report : ReclaimReport) (prior : ReclaimObject) (reason : ReclaimError) :
    M Unit := do
  let now ← nowMs
  withInner do
    store (.updateObjectWithAudit prior
      (auditOf now "coordinator" "RECLAIM_ABORTED" prior (some .reclaimPending)
        (some prior.lifecycleState) none (some report.attemptId)
        (.obj [("reason", .str reason.text)])))
    store (.updateReservation report.reservationId .released)
    store (.updateAttempt report.attemptId .rolledBack now)
    store (.updateJournalPhase report.attemptId .rolledBack now)

/-- run a step whose failure is rolled back -/
def orAbort {α : Type} (report : ReclaimReport) (prior : ReclaimObject) (x : M α) : M α := do
  match ← attempt x with
  | .ok a => pure a
  | .error e => do
    abortReclaim report prior e
    throw e

/-- run a step whose failure stops the coordinator -/
def orIndeterminate {α : Type} (report : ReclaimReport) (kind : String) (x : M α) : M α := do
  match ← attempt x with
  | .ok a => pure a
  | .error e => do
    let err ← indeterminateReclaim report e kind
    throw err

/-! ## reserve -/

def reserve (report : ReclaimReport) (o : ReclaimObject) (payload : JournalPayload) (now : Int) :
    M Unit := do
  let ttl ← withInner do
    let c ← config
    pure c.reservationTtlMs
  if now + ttl > 2 ^ 63 - 1 then
    throw (.invalidArgument "reservation expiration timestamp overflow")
  withInner (store (.createReclaimReservation
    ⟨report.attemptId, o.id, o.generation, .reserved, now, now, payload⟩
    ⟨report.reservationId, report.attemptId, o.id, o.generation, "coordinator", now, now + ttl,
      .isOpen⟩
    ⟨report.attemptId, o.id, o.generation, "coordinator", now, now, .isOpen⟩))

/-- move the object to RECLAIM_PENDING through legal transitions -/
def enterPending (report : ReclaimReport) (actor : String) (prior : ReclaimObject) :
    M ReclaimObject := do
  let policy := some report.decision.decision.policyId
  if prior.lifecycleState = .reclaimPending then
    pure prior
  else if LiveTier prior.lifecycleState then
    let current ← applyTransition prior .recomputable actor "RECLAIM_STEP_RECOMPUTABLE" policy
      (some report.attemptId)
    applyTransition current .reclaimPending actor "RECLAIM_RESERVED" policy
      (some report.attemptId)
  else
    applyTransition prior .reclaimPending actor "RECLAIM_RESERVED" policy
      (some report.attemptId)

/-! ## the physical plan -/

/-- how many scheduled replicas share one payload, and the first of them -/
structure Scheduled where
  hash : ContentHash
  backend : String
  count : Nat
  representative : Replica

/-- add a replica to the schedule -/
def schedule (r : Replica) : List Scheduled → Res (List Scheduled)
  | [] => .ok [⟨r.contentHash, r.location.backend, 1, r⟩]
  | s :: ss =>
    if s.hash = r.contentHash ∧ s.backend = r.location.backend then
      if s.representative.location.key ≠ r.location.key then
        .error (.dedup (s!"replicas for {r.contentHash} on {r.location.backend} disagree on " ++
          "canonical key"))
      else .ok ({ s with count := s.count + 1 } :: ss)
    else do
      let ss' ← schedule r ss
      pure (s :: ss')

/-- the first loop: replicas of the empty payload are deleted as they are -/
def scheduleAll (empty : ContentHash) :
    List Replica → List Replica → List Scheduled → Res (List Replica × List Scheduled)
  | [], physical, ss => .ok (physical, ss)
  | r :: rs, physical, ss =>
    if r.contentHash = empty then scheduleAll empty rs (physical ++ [r]) ss
    else do
      let ss' ← schedule r ss
      scheduleAll empty rs physical ss'

/-- the second loop: the payloads of which this attempt releases every reference -/
def planScheduled : List Scheduled → List Replica → M (List Replica)
  | [], physical => pure physical
  | s :: ss, physical => do
    match ← store (.getDedup s.hash s.backend) with
    | none => throw (.dedup
        s!"missing dedup row for scheduled replica {s.hash} on {s.backend}")
    | some entry =>
      if entry.key ≠ s.representative.location.key then
        throw (.dedup (s!"dedup key {entry.key} disagrees with replica key " ++
          s!"{s.representative.location.key} for {s.hash} on {s.backend}"))
      if s.count > entry.refCount then
        throw (.dedup (s!"scheduled {s.count} releases but dedup refcount is " ++
          s!"{entry.refCount} for {s.hash} on {s.backend}"))
      if s.count = entry.refCount then
        planScheduled ss (physical ++ [s.representative])
      else planScheduled ss physical

/-- a list in the order the hash map happens to be iterated in -/
def inHashOrder {α : Type} (l : List α) : M (List α) := do
  let order ← ask (.hashOrder l.length)
  pure (order.filterMap (fun i => l[i]?))

section
variable (env : Env)

/-- `ContentHash::empty` -/
def emptyHash : ContentHash := env.sha256 []

def physicalPlan (toDelete : List Replica) : M (List Replica) :=
  withInner do
    let (physical, scheduled) ← settle (scheduleAll (emptyHash env) toDelete [] [])
    let scheduled ← inHashOrder scheduled
    planScheduled scheduled physical

/-! ## execute and verify -/

/-- delete the planned payloads -/
def deletePlanned (report : ReclaimReport) : List Replica → List Uuid → M (List Uuid)
  | [], deleted => pure deleted
  | r :: rs, deleted => do
    orIndeterminate report "PHYSICAL_RECLAIM_FAILED"
      (deletePayload r.location.backend r.location.key)
    deletePlanned report rs (deleted ++ [r.replicaId])

/-- look an archive backend up under the coordinator mutex -/
def lookupArchive (id : String) (missing : ReclaimError) : M ArchiveInfo := do
  ask .lock
  let c ← config
  ask .unlock
  match c.archive id with
  | none => throw missing
  | some a => pure a

def archiveUnavailable (id : String) : ReclaimError :=
  .archiveFailure ("archive backend " ++ id ++ " unavailable")

def archiveDelete (b k : String) : M Unit :=
  ExceptT.mk (.call (.archiveDelete b k) fun r => .ret r)

def archiveExists (b k : String) : M Bool :=
  ExceptT.mk (.call (.archiveExists b k) fun r => .ret r)

/-- delete the archived blobs -/
def deleteArchives (report : ReclaimReport) : List ArchiveRecord → List String → M (List String)
  | [], deleted => pure deleted
  | a :: as, deleted => do
    let backend ← lookupArchive a.backend (archiveUnavailable a.backend)
    orIndeterminate report "ARCHIVE_RECLAIM_FAILED" (archiveDelete backend.id a.key)
    deleteArchives report as (deleted ++ [a.archiveId])

/-- confirm that the planned payloads are gone -/
def verifyGone (report : ReclaimReport) : List Replica → M Unit
  | [] => pure ()
  | r :: rs => do
    let b := r.location.backend
    let k := r.location.key
    if ← orIndeterminate report "RECLAIM_VERIFY_FAILED" (payloadExists b k) then
      let err ← indeterminateReclaim report
        (.integrityFailure s!"payload still exists after reclaim: {b}:{k}")
        "RECLAIM_VERIFY_FAILED"
      throw err
    verifyGone report rs

/-! ## commit -/

/-- drop the scheduled replica rows and their references -/
def releaseScheduled : List Replica → M Unit
  | [] => pure ()
  | r :: rs => do
    store (.deleteReplica r.replicaId)
    if r.contentHash ≠ emptyHash env then
      let _ ← store (.dedupRelease r.contentHash r.location.backend)
    releaseScheduled rs

def deleteArchiveRows : List ArchiveRecord → M Unit
  | [] => pure ()
  | a :: as => do
    store (.deleteArchive a.archiveId)
    deleteArchiveRows as

/-- the closure of step 6 -/
def commitSection (report : ReclaimReport) (actor : String) (current : ReclaimObject)
    (toDelete : List Replica) (archives : List ArchiveRecord) (deleted : List Uuid)
    (deletedArchives : List String) : M Unit := do
  releaseScheduled env toDelete
  deleteArchiveRows archives
  let ts ← nowMs
  let reclaimed := { current with lifecycleState := .reclaimed }
  store (.updateObjectWithAudit reclaimed
    (auditOf ts actor "RECLAIM_COMMITTED" reclaimed (some .reclaimPending) (some .reclaimed)
      (some report.decision.decision.policyId) (some report.attemptId)
      (.obj [("deleted_replicas", .arr (deleted.map fun d => .str d.text)),
        ("deleted_archives", .arr (deletedArchives.map Json.str))])))
  store (.updateReservation report.reservationId .committed)
  let now ← nowMs
  store (.updateAttempt report.attemptId .committed now)
  let now ← nowMs
  store (.updateJournalPhase report.attemptId .committed now)

/-- steps 4 (after the plan is durable) to 6 -/
def executePhysical (report : ReclaimReport) (actor : String) (current : ReclaimObject)
    (toDelete : List Replica) (archives : List ArchiveRecord) (plan : List Replica) :
    M ReclaimReport := do
  let deleted ← deletePlanned report plan []
  let deletedArchives ← deleteArchives report archives []
  verifyGone report plan
  orIndeterminate report "PHYSICAL_DONE_PERSIST_FAILED" (withInner do
    let now ← nowMs
    store (.updateJournalPhase report.attemptId .physicalDone now))
  orIndeterminate report "RECLAIM_COMMIT_FAILED" (withInner
    (commitSection env report actor current toDelete archives deleted deletedArchives))
  pure { report with
    reclaimed := true, finalState := .reclaimed, deletedReplicas := deleted,
    deletedArchives := deletedArchives }

/-- the part of step 4 that holds the payload guard -/
def executeReclaim (report : ReclaimReport) (actor : String) (prior current : ReclaimObject)
    (toDelete : List Replica) (archives : List ArchiveRecord) (payload : JournalPayload) :
    M ReclaimReport := do
  let plan ← physicalPlan env toDelete
  let planned ← settle (withPhysicalDeletions payload plan)
  orAbort report prior (withInner do
    let now ← nowMs
    store (.startJournalPhysical report.attemptId planned now))
  executePhysical env report actor current toDelete archives plan

/-- everything after the reservation -/
def reclaimReserved (report : ReclaimReport) (actor : String) (prior : ReclaimObject)
    (toDelete : List Replica) (archives : List ArchiveRecord) (payload : JournalPayload) :
    M ReclaimReport := do
  let current ← enterPending report actor prior
  let report := { report with finalState := .reclaimPending }
  withInner do
    let now ← nowMs
    store (.updateJournalPhase report.attemptId .validated now)
  orAbort report prior (checkSurvivability prior toDelete archives.length)
  orAbort report prior (checkDependencies prior)
  let keys := replicaKeys toDelete
  orAbort report prior (beginPayloadOperations keys)
  holding keys (executeReclaim env report actor prior current toDelete archives payload)

/-- `Coordinator::reclaim` -/
def reclaim (req : ReclaimRequest) : M ReclaimReport :=
  withObject req.objectId do
    let now ← nowMs
    let o ← inner (.requireObject req.objectId)
    settle (reclaimChecks o)
    if ← inner (.hasOpenReservationFor o.id) then
      throw (.reservationConflict
        s!"object {o.id} already has an open reclamation reservation")
    settle (checkDeadline o now)
    let decision ← plan o.id req.actor
    let attemptId ← ask .newUuid
    let reservationId ← ask .newUuid
    let report : ReclaimReport :=
      { objectId := o.id
        generation := o.generation
        reclaimed := false
        priorState := o.lifecycleState
        finalState := o.lifecycleState
        attemptId := attemptId
        reservationId := reservationId
        decision := decision
        deletedReplicas := []
        deletedArchives := [] }
    if decision.decision.verdict ≠ .reclaim ∧ !req.force then
      pure report
    else do
      let toDelete ← inner (.replicasFor o.id)
      let archives ← inner (.archivesFor o.id)
      checkSurvivability o toDelete archives.length
      settle (preflight o)
      let payload := journalPayload o toDelete archives
      reserve report o payload now
      reclaimReserved env report req.actor o toDelete archives payload

end

end Coordinator

end ReclaimFabric
