import ReclaimFabric.Model.Lineage
import ReclaimFabric.Lib.Table

/-!
# The durable store

`persistence.rs`: the tables and one function for each store method the coordinator and recovery
call.  A method is one SQLite transaction, so it is a function from the tables to either an error
(the tables are unchanged) or an answer with the new tables.

The tables are `Table`s with the schema's primary keys.  Rows are typed: what a column decodes
to is what was encoded, so the decoding errors of a corrupted file are not part of this model
(`Persistence` has the columns of objects and replicas, their decoders and the errors).
The journal payload is the decoded JSON value with every way its fields can be unusable
(`Field`), because recovery decides on them.
-/

namespace ReclaimFabric

/-! ## rows -/

inductive JournalPhase where
  | reserved
  | validated
  | physicalStarted
  | physicalDone
  | committed
  | rolledBack
  | failed
deriving DecidableEq

namespace JournalPhase

def asStr : JournalPhase → String
  | .reserved => "RESERVED"
  | .validated => "VALIDATED"
  | .physicalStarted => "PHYSICAL_STARTED"
  | .physicalDone => "PHYSICAL_DONE"
  | .committed => "COMMITTED"
  | .rolledBack => "ROLLED_BACK"
  | .failed => "FAILED"

/-- `phase NOT IN ('COMMITTED','ROLLED_BACK','FAILED')` -/
def isOpen : JournalPhase → Bool
  | .reserved => true
  | .validated => true
  | .physicalStarted => true
  | .physicalDone => true
  | _ => false

end JournalPhase

/-- a field of a decoded JSON object -/
inductive Field (α : Type) where
  | missing
  | malformed (why : String)
  | value (a : α)

/-- the fields of a journal payload; `physical` is `null` until the physical plan is made -/
structure PayloadFields where
  priorObject : Field ReclaimObject
  replicaDeletions : Field (List Replica)
  physicalReplicaDeletions : Field (Option (List Replica))
  archiveDeletions : Field (List ArchiveRecord)

inductive JournalPayload where
  | notObject
  | object (fields : PayloadFields)

structure JournalEntry where
  attemptId : Uuid
  objectId : Uuid
  generation : Nat
  phase : JournalPhase
  createdAtMs : Int
  updatedAtMs : Int
  payload : JournalPayload

inductive AttemptStatus where
  | isOpen
  | committed
  | failed
  | rolledBack
deriving DecidableEq

def AttemptStatus.asStr : AttemptStatus → String
  | .isOpen => "OPEN"
  | .committed => "COMMITTED"
  | .failed => "FAILED"
  | .rolledBack => "ROLLED_BACK"

structure Attempt where
  attemptId : Uuid
  objectId : Uuid
  generation : Nat
  node : String
  createdAtMs : Int
  updatedAtMs : Int
  status : AttemptStatus

inductive ReservationStatus where
  | isOpen
  | committed
  | released
  | expired
deriving DecidableEq

structure Reservation where
  reservationId : Uuid
  attemptId : Uuid
  objectId : Uuid
  generation : Nat
  node : String
  createdAtMs : Int
  expiresAtMs : Int
  status : ReservationStatus

structure AuditEntry where
  id : Nat
  tsMs : Int
  actor : String
  action : String
  objectId : Option Uuid
  generation : Option Nat
  priorState : Option LifecycleState
  newState : Option LifecycleState
  policy : Option String
  attemptId : Option Uuid
  node : Option String
  detail : Json

structure FailureRecord where
  tsMs : Int
  objectId : Option Uuid
  attemptId : Option Uuid
  kind : String
  message : String
  recovered : Bool

structure CoordinatorState where
  epoch : Nat
  processId : String
  bootId : Uuid
  lastSeenMs : Int

inductive ReclaimVerdict where
  | retain
  | reclaim
  | demote
  | compress
  | deduplicate
  | archive
  | markRecomputable
deriving DecidableEq

/-- `{:?}` -/
def ReclaimVerdict.debug : ReclaimVerdict → String
  | .retain => "Retain"
  | .reclaim => "Reclaim"
  | .demote => "Demote"
  | .compress => "Compress"
  | .deduplicate => "Deduplicate"
  | .archive => "Archive"
  | .markRecomputable => "MarkRecomputable"

/-- the columns of `decisions` that are not policy internals -/
structure Decision where
  objectId : Uuid
  generation : Nat
  verdict : ReclaimVerdict
  score : F64
  threshold : F64
  policyId : String
  policyVersion : String
  epoch : Nat

structure Store where
  objects : Table ReclaimObject.id
  replicas : Table Replica.replicaId
  lineage : Table (id : LineageEdge → LineageEdge)
  dedup : Table (fun e : DedupEntry => (e.contentHash, e.backend))
  decisions : List Decision
  attempts : Table Attempt.attemptId
  reservations : Table Reservation.reservationId
  coordinator : Option CoordinatorState
  archives : Table ArchiveRecord.archiveId
  failures : List FailureRecord
  audit : List AuditEntry
  journal : Table JournalEntry.attemptId

namespace Store

/-- a freshly initialised database -/
def new : Store where
  objects := .empty
  replicas := .empty
  lineage := .empty
  dedup := .empty
  decisions := []
  attempts := .empty
  reservations := .empty
  coordinator := none
  archives := .empty
  failures := []
  audit := []
  journal := .empty

/-! ## checks -/

def sqlU64 (field : String) (value : Nat) : Res Unit :=
  if value ≤ i64Max then .ok ()
  else .error (.invalidArgument
    (field ++ " value " ++ toString value ++ " exceeds SQLite INTEGER range"))

def sqlOptionalU64 (field : String) : Option Nat → Res Unit
  | none => .ok ()
  | some v => sqlU64 field v

/-- the error of a violated PRIMARY KEY -/
def uniqueError (columns : String) : ReclaimError :=
  .persistence ("UNIQUE constraint failed: " ++ columns)

/-- the unsigned columns of an object row -/
def checkObjectRow (o : ReclaimObject) : Res Unit := do
  sqlU64 "object generation" o.generation
  sqlU64 "object logical_size" o.logicalSize
  sqlU64 "object physical_size" o.physicalSize
  sqlOptionalU64 "object compressed_size" o.compressedSize
  sqlU64 "object access_count" o.accessCount
  sqlOptionalU64 "object reuse_horizon_secs" o.reuseHorizonSecs
  sqlU64 "object decision_epoch" o.decisionEpoch

def validateDedupEntry (e : DedupEntry) : Res Unit := do
  if e.backend = "" ∨ e.key = "" then
    throw (.invalidArgument "dedup backend and storage key must not be empty")
  if e.refCount = 0 then
    throw (.dedup "dedup entries must have at least one reference")
  sqlU64 "dedup ref_count" e.refCount
  sqlU64 "dedup payload_size" e.payloadSize

def validateReplicaDescriptor (r : Replica) : Res Unit := do
  if blank r.location.backend || blank r.location.key then
    throw (.invalidArgument "replica backend and key must not be empty")
  if r.ownerNode.any blank then
    throw (.invalidArgument "replica owner_node must not be empty when present")
  sqlU64 "replica generation" r.generation
  sqlU64 "replica size" r.size

def showOption {α : Type} [ToString α] : Option α → String
  | none => "None"
  | some a => "Some(" ++ toString a ++ ")"

def validateObjectAudit (o : ReclaimObject) (a : AuditEntry) : Res Unit := do
  if a.objectId ≠ some o.id ∨ a.generation ≠ some o.generation then
    throw (.invalidArgument ("audit identity " ++ showOption a.objectId ++ "/" ++
      showOption a.generation ++ " does not match object " ++ o.id.text ++ "/" ++
      toString o.generation))
  match a.newState with
  | none => pure ()
  | some s =>
    if s ≠ o.lifecycleState then
      throw (.invalidArgument ("audit new state " ++ s.asStr ++
        " does not match persisted object state " ++ o.lifecycleState.asStr))
    else pure ()

/-! ## objects -/

def insertObjectRow (o : ReclaimObject) (s : Store) : Res Store := do
  checkObjectRow o
  match s.objects.insert? o with
  | none => throw (uniqueError "objects.id")
  | some t => pure { s with objects := t }

def updateObjectRow (o : ReclaimObject) (s : Store) : Res Store := do
  checkObjectRow o
  match s.objects.find? o.id with
  | none => throw (.notFound ("object " ++ o.id.text))
  | some _ => pure { s with objects := s.objects.replace o }

/-- the row id is the next one, whatever the caller filled in -/
def insertAuditRow (a : AuditEntry) (s : Store) : Res Store := do
  sqlOptionalU64 "audit generation" a.generation
  pure { s with audit := s.audit ++ [{ a with id := s.audit.length + 1 }] }

def insertAuditRows : List AuditEntry → Store → Res Store
  | [], s => .ok s
  | a :: as, s => do insertAuditRows as (← insertAuditRow a s)

def createObject (o : ReclaimObject) (s : Store) : Res (Unit × Store) := do
  o.validate
  pure ((), ← insertObjectRow o s)

def createObjectWithAudits (o : ReclaimObject) (audits : List AuditEntry) (s : Store) :
    Res (Unit × Store) := do
  o.validate
  if audits = [] then
    throw (.invalidArgument "atomic audited object creation requires at least one audit entry")
  audits.forM (validateObjectAudit o)
  pure ((), ← insertAuditRows audits (← insertObjectRow o s))

def updateObject (o : ReclaimObject) (s : Store) : Res (Unit × Store) := do
  o.validate
  pure ((), ← updateObjectRow o s)

def updateObjectWithAudit (o : ReclaimObject) (a : AuditEntry) (s : Store) :
    Res (Unit × Store) := do
  o.validate
  validateObjectAudit o a
  pure ((), ← insertAuditRow a (← updateObjectRow o s))

def getObject (id : Uuid) (s : Store) : Res (Option ReclaimObject × Store) :=
  .ok (s.objects.find? id, s)

def requireObject (id : Uuid) (s : Store) : Res (ReclaimObject × Store) :=
  match s.objects.find? id with
  | none => .error (.notFound id.text)
  | some o => .ok (o, s)

def listObjects (s : Store) : Res (List ReclaimObject × Store) :=
  .ok (s.objects.rows.insertionSort (fun a b => a.id.le b.id), s)

/-! ## replicas -/

def addReplica (r : Replica) (s : Store) : Res (Unit × Store) := do
  validateReplicaDescriptor r
  match s.replicas.insert? r with
  | none => throw (uniqueError "replicas.replica_id")
  | some t => pure ((), { s with replicas := t })

def validateReplicaParent (r : Replica) (s : Store) : Res Unit :=
  match s.objects.find? r.objectId with
  | none => .error (.notFound ("replica parent object " ++ r.objectId.text))
  | some o =>
    if o.generation ≠ r.generation then
      .error (.generationMismatch
        s!"replica {r.replicaId} generation {r.generation} does not match object {r.objectId} generation {o.generation}")
    else if o.lifecycleState = .reclaimed then
      .error (.invalidArgument
        s!"cannot attach replica {r.replicaId} to reclaimed object {r.objectId}")
    else .ok ()

/-- the owner column is not part of the UPDATE -/
def updateReplica (r : Replica) (s : Store) : Res (Unit × Store) := do
  validateReplicaDescriptor r
  validateReplicaParent r s
  match s.replicas.find? r.replicaId with
  | none => throw (.notFound ("replica " ++ r.replicaId.text))
  | some old => pure ((), { s with replicas := s.replicas.replace { r with objectId := old.objectId } })

def sortReplicas (l : List Replica) : List Replica :=
  l.insertionSort (fun a b => a.replicaId.le b.replicaId)

def replicasFor (id : Uuid) (s : Store) : Res (List Replica × Store) :=
  .ok (sortReplicas (s.replicas.rows.filter (fun r => decide (r.objectId = id))), s)

def allReplicas (s : Store) : Res (List Replica × Store) :=
  .ok (sortReplicas s.replicas.rows, s)

def deleteReplica (id : Uuid) (s : Store) : Res (Unit × Store) :=
  .ok ((), { s with replicas := s.replicas.erase id })

def validReplicaCount (id : Uuid) (s : Store) : Res (Nat × Store) :=
  .ok (s.replicas.countWhere (fun r => decide (r.objectId = id) && r.valid), s)

/-! ## lineage -/

/-- INSERT OR IGNORE -/
def addLineageEdge (parent child : Uuid) (kind : EdgeKind) (s : Store) : Res (Unit × Store) :=
  match s.lineage.insert? ⟨parent, child, kind⟩ with
  | none => .ok ((), s)
  | some t => .ok ((), { s with lineage := t })

def removeLineageEdge (parent child : Uuid) (kind : EdgeKind) (s : Store) :
    Res (Unit × Store) :=
  .ok ((), { s with lineage := s.lineage.erase ⟨parent, child, kind⟩ })

def addEdges : List LineageEdge → LineageGraph → Res LineageGraph
  | [], g => .ok g
  | e :: es, g =>
    match g.addEdge e.parent e.child e.kind with
    | .error err => .error (.persistence ("corrupt lineage: " ++ err.text))
    | .ok g' => addEdges es g'

def lineageGraph (s : Store) : Res (LineageGraph × Store) := do
  let g := s.objects.rows.foldl (fun g o => g.addObject o.id) LineageGraph.default
  pure (← addEdges s.lineage.rows g, s)

/-! ## dedup -/

def insertDedup (e : DedupEntry) (s : Store) : Res (Unit × Store) := do
  validateDedupEntry e
  match s.dedup.insert? e with
  | none => throw (uniqueError "dedup.content_hash, dedup.backend")
  | some t => pure ((), { s with dedup := t })

def upsertDedup (e : DedupEntry) (s : Store) : Res (Unit × Store) := do
  validateDedupEntry e
  match s.dedup.insert? e with
  | none => pure ((), { s with dedup := s.dedup.replace e })
  | some t => pure ((), { s with dedup := t })

def getDedup (h : ContentHash) (backend : String) (s : Store) :
    Res (Option DedupEntry × Store) :=
  .ok (s.dedup.find? (h, backend), s)

def dedupLe (a b : DedupEntry) : Bool :=
  if a.contentHash = b.contentHash then decide (a.backend ≤ b.backend)
  else a.contentHash.le b.contentHash

def listDedup (s : Store) : Res (List DedupEntry × Store) :=
  .ok (s.dedup.rows.insertionSort (fun a b => dedupLe a b), s)

def dedupAcquire (h : ContentHash) (backend : String) (s : Store) : Res (Unit × Store) :=
  match s.dedup.find? (h, backend) with
  | none => .error (.dedup s!"no dedup entry for {h} on {backend}")
  | some e =>
    if 1 ≤ e.refCount ∧ e.refCount < i64Max then
      .ok ((), { s with dedup := s.dedup.replace { e with refCount := e.refCount + 1 } })
    else .error (.dedup
      s!"cannot acquire dedup entry {h} on {backend}: invalid or overflowing ref_count {e.refCount}")

/-- `true` when the last reference went: the caller owns the physical deletion -/
def dedupRelease (h : ContentHash) (backend : String) (s : Store) : Res (Bool × Store) :=
  match s.dedup.find? (h, backend) with
  | none => .error (.dedup s!"no dedup entry for {h} on {backend}")
  | some e =>
    if e.refCount = 0 then .error (.dedup s!"release with zero refs for {h}")
    else if e.refCount = 1 then .ok (true, { s with dedup := s.dedup.erase (h, backend) })
    else .ok (false, { s with dedup := s.dedup.replace { e with refCount := e.refCount - 1 } })

def deleteDedup (h : ContentHash) (backend : String) (s : Store) : Res (Unit × Store) :=
  .ok ((), { s with dedup := s.dedup.erase (h, backend) })

/-! ## decisions, audit, failures -/

def insertDecision (d : Decision) (s : Store) : Res (Unit × Store) := do
  if !d.score.isFinite || !d.threshold.isFinite then
    throw (.invalidArgument "decision score and threshold must be finite")
  sqlU64 "decision generation" d.generation
  sqlU64 "decision epoch" d.epoch
  pure ((), { s with decisions := s.decisions ++ [d] })

def appendAudit (a : AuditEntry) (s : Store) : Res (Unit × Store) := do
  pure ((), ← insertAuditRow a s)

def insertFailure (f : FailureRecord) (s : Store) : Res (Unit × Store) :=
  .ok ((), { s with failures := s.failures ++ [f] })

/-! ## attempts, reservations, journal -/

/-- UPDATE attempts … WHERE attempt_id AND status='OPEN' -/
def closeAttempt (id : Uuid) (status : AttemptStatus) (now : Int) (t : Table Attempt.attemptId) :
    Table Attempt.attemptId :=
  t.updateWhere (fun a => decide (a.attemptId = id) && decide (a.status = .isOpen))
    (fun a => { a with status := status, updatedAtMs := now }) (fun _ => rfl)

def updateAttempt (id : Uuid) (status : AttemptStatus) (now : Int) (s : Store) :
    Res (Unit × Store) :=
  match s.attempts.find? id with
  | some a =>
    if a.status = .isOpen then .ok ((), { s with attempts := closeAttempt id status now s.attempts })
    else .error (.reservationConflict s!"attempt {id} is missing or no longer OPEN")
  | none => .error (.reservationConflict s!"attempt {id} is missing or no longer OPEN")

/-- recovery: an identical terminal status is accepted -/
def reconcileAttempt (id : Uuid) (status : AttemptStatus) (now : Int) (s : Store) :
    Res (Unit × Store) :=
  if status = .isOpen then
    .error (.invalidArgument "recovery cannot terminalize an attempt as OPEN")
  else
    match s.attempts.find? id with
    | some a =>
      if a.status = .isOpen then
        .ok ((), { s with attempts := closeAttempt id status now s.attempts })
      else if a.status = status then .ok ((), s)
      else .error (.reservationConflict
        (s!"attempt {id} is missing or has conflicting status " ++
          showOption (some (quoted a.status.asStr))))
    | none => .error (.reservationConflict
        s!"attempt {id} is missing or has conflicting status None")

/-- UPDATE reservations … WHERE … AND status='OPEN' -/
def closeReservations (which : Reservation → Bool) (status : ReservationStatus)
    (t : Table Reservation.reservationId) : Table Reservation.reservationId :=
  t.updateWhere (fun r => which r && decide (r.status = .isOpen))
    (fun r => { r with status := status }) (fun _ => rfl)

def updateReservation (id : Uuid) (status : ReservationStatus) (s : Store) :
    Res (Unit × Store) :=
  match s.reservations.find? id with
  | some r =>
    if r.status = .isOpen then
      .ok ((), { s with reservations :=
        closeReservations (fun r => decide (r.reservationId = id)) status s.reservations })
    else .error (.notFound s!"reservation {id}")
  | none => .error (.notFound s!"reservation {id}")

def updateReservationForAttempt (attempt : Uuid) (status : ReservationStatus) (s : Store) :
    Res (Unit × Store) :=
  .ok ((), { s with reservations :=
    closeReservations (fun r => decide (r.attemptId = attempt)) status s.reservations })

def reservationLe (a b : Reservation) : Bool :=
  if a.createdAtMs = b.createdAtMs then a.reservationId.le b.reservationId
  else decide (a.createdAtMs ≤ b.createdAtMs)

def listOpenReservations (s : Store) : Res (List Reservation × Store) :=
  .ok ((s.reservations.rows.filter (fun r => decide (r.status = .isOpen))).insertionSort
    (fun a b => reservationLe a b), s)

def hasOpenReservationFor (id : Uuid) (s : Store) : Res (Bool × Store) :=
  .ok (s.reservations.rows.any
    (fun r => decide (r.objectId = id) && decide (r.status = .isOpen)), s)

/-- the three durable records that grant reclaim authority, in one transaction -/
def createReclaimReservation (j : JournalEntry) (r : Reservation) (a : Attempt) (s : Store) :
    Res (Unit × Store) := do
  if j.phase ≠ .reserved ∨ r.status ≠ .isOpen ∨ a.status ≠ .isOpen then
    throw (.invalidArgument "new reclaim records must start RESERVED/OPEN/OPEN")
  if j.attemptId ≠ a.attemptId ∨ j.attemptId ≠ r.attemptId ∨ j.objectId ≠ a.objectId ∨
      j.objectId ≠ r.objectId ∨ j.generation ≠ a.generation ∨
      j.generation ≠ r.generation then
    throw (.invalidArgument
      "reclaim journal, reservation, and attempt identities do not match")
  sqlU64 "reclaim generation" j.generation
  match s.attempts.insert? a with
  | none => throw (uniqueError "attempts.attempt_id")
  | some attempts =>
    match s.reservations.insert? r with
    | none => throw (uniqueError "reservations.reservation_id")
    | some reservations =>
      match s.journal.insert? j with
      | none => throw (uniqueError "journal.attempt_id")
      | some journal =>
        pure ((), { s with attempts := attempts, reservations := reservations, journal := journal })

/-- the phases `update_journal_phase` may leave for a phase (`none`: not with this method) -/
def allowedPrior : JournalPhase → Option (List JournalPhase)
  | .validated => some [.reserved]
  | .physicalStarted => none
  | .reserved => none
  | .physicalDone => some [.physicalStarted]
  | .committed => some [.physicalStarted, .physicalDone]
  | .rolledBack => some [.reserved, .validated, .physicalStarted, .physicalDone]
  | .failed => some [.reserved, .validated, .physicalStarted, .physicalDone]

def updateJournalPhase (id : Uuid) (phase : JournalPhase) (now : Int) (s : Store) :
    Res (Unit × Store) :=
  match allowedPrior phase with
  | none => .error (.invalidArgument ("journal phase " ++ phase.asStr ++
      " cannot be entered with the generic phase updater"))
  | some prior =>
    match s.journal.find? id with
    | some j =>
      if j.phase ∈ prior then
        let j' := { j with phase := phase, updatedAtMs := now }
        .ok ((), { s with journal := s.journal.replace j' })
      else .error (.reservationConflict
        (s!"journal {id} cannot transition to " ++ phase.asStr ++ " from its current phase"))
    | none => .error (.reservationConflict
        (s!"journal {id} cannot transition to " ++ phase.asStr ++ " from its current phase"))

/-- does the payload hold a concrete physical plan -/
def hasPhysicalPlan : JournalPayload → Bool
  | .object { physicalReplicaDeletions := .value (some _), .. } => true
  | _ => false

/-- publish the physical plan and enter PHYSICAL_STARTED in one statement -/
def startJournalPhysical (id : Uuid) (payload : JournalPayload) (now : Int) (s : Store) :
    Res (Unit × Store) :=
  if !hasPhysicalPlan payload then
    .error (.invalidArgument
      "physical journal payload requires a concrete physical_replica_deletions array")
  else
    match s.journal.find? id with
    | some j =>
      if j.phase = .validated then
        let j' := { j with payload := payload, phase := .physicalStarted, updatedAtMs := now }
        .ok ((), { s with journal := s.journal.replace j' })
      else .error (.reservationConflict s!"journal {id} is not in VALIDATED phase")
    | none => .error (.reservationConflict s!"journal {id} is not in VALIDATED phase")

def getJournal (id : Uuid) (s : Store) : Res (Option JournalEntry × Store) :=
  .ok (s.journal.find? id, s)

def journalLe (a b : JournalEntry) : Bool :=
  if a.createdAtMs = b.createdAtMs then a.attemptId.le b.attemptId
  else decide (a.createdAtMs ≤ b.createdAtMs)

def listOpenJournal (s : Store) : Res (List JournalEntry × Store) :=
  .ok ((s.journal.rows.filter (fun j => j.phase.isOpen)).insertionSort
    (fun a b => journalLe a b), s)

/-! ## coordinator authority -/

/-- i64 saturating subtraction -/
def saturatingSub (a b : Int) : Int := max (-(2 ^ 63)) (min (2 ^ 63 - 1) (a - b))

def claimCoordinator (processId : String) (bootId : Uuid) (now staleMs : Int) (s : Store) :
    Res (Nat × Store) :=
  if processId = "" then
    .error (.invalidArgument "coordinator process_id must not be empty")
  else if staleMs ≤ 0 then
    .error (.invalidArgument "coordinator stale window must be positive")
  else
    match s.coordinator with
    | none => .ok (1, { s with coordinator := some ⟨1, processId, bootId, now⟩ })
    | some c =>
      if c.lastSeenMs = 0 ∨ saturatingSub now c.lastSeenMs > staleMs then
        if c.epoch + 1 ≤ i64Max then
          .ok (c.epoch + 1, { s with coordinator := some ⟨c.epoch + 1, processId, bootId, now⟩ })
        else .error (.invalidArgument
          (s!"coordinator epoch value {c.epoch + 1} exceeds SQLite INTEGER range"))
      else .error (.reservationConflict
        s!"coordinator already claimed by {c.processId} (epoch {c.epoch})")

/-- is the row that of this boot -/
def holdsAuthority (processId : String) (bootId : Uuid) (epoch : Nat) (s : Store) : Bool :=
  s.coordinator.any fun c =>
    decide (c.processId = processId) && decide (c.bootId = bootId) && decide (c.epoch = epoch)

def coordinatorHeartbeat (processId : String) (bootId : Uuid) (epoch : Nat) (now : Int)
    (s : Store) : Res (Unit × Store) := do
  sqlU64 "coordinator epoch" epoch
  if holdsAuthority processId bootId epoch s then
    pure ((), { s with coordinator :=
      s.coordinator.map fun c => { c with lastSeenMs := max c.lastSeenMs now } })
  else throw (.reservationConflict "coordinator heartbeat rejected for stale authority")

def releaseCoordinator (processId : String) (bootId : Uuid) (epoch : Nat) (s : Store) :
    Res (Unit × Store) := do
  sqlU64 "coordinator epoch" epoch
  if holdsAuthority processId bootId epoch s then
    pure ((), { s with coordinator := s.coordinator.map fun c => { c with lastSeenMs := 0 } })
  else throw (.reservationConflict "coordinator release rejected for stale authority")

/-! ## archives -/

def insertArchive (a : ArchiveRecord) (s : Store) : Res (Unit × Store) := do
  sqlU64 "archive generation" a.generation
  sqlU64 "archive size" a.size
  match s.archives.insert? a with
  | none => throw (uniqueError "archives.archive_id")
  | some t => pure ((), { s with archives := t })

def archiveLe (a b : ArchiveRecord) : Bool :=
  if a.createdAtMs = b.createdAtMs then decide (a.archiveId ≤ b.archiveId)
  else decide (a.createdAtMs ≤ b.createdAtMs)

def sortArchives (l : List ArchiveRecord) : List ArchiveRecord :=
  l.insertionSort (fun a b => archiveLe a b)

def listArchives (s : Store) : Res (List ArchiveRecord × Store) :=
  .ok (sortArchives s.archives.rows, s)

def archivesFor (id : Uuid) (s : Store) : Res (List ArchiveRecord × Store) :=
  .ok (sortArchives (s.archives.rows.filter (fun a => decide (a.objectId = id))), s)

def deleteArchive (id : String) (s : Store) : Res (Unit × Store) :=
  .ok ((), { s with archives := s.archives.erase id })

end Store

end ReclaimFabric
