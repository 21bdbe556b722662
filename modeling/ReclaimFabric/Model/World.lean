import ReclaimFabric.Model.Store
import ReclaimFabric.Lib.Prog

/-!
# The shared state and the atomic steps

Everything the threads of one coordinator process share: the store, the payload backends, the
archive backends and the process memory (`Proc`: the coordinator mutex, the operation guards and
the two flags).  A command is one atomic step: one store transaction, one backend or archive
call, one access to the guards, one atomic load or store.

`exec` says what a command does.  An `Input` is what the environment contributes to the step:
the clock, fresh identifiers, the policy's verdict, and the faults.  A store fault is an error
whose transaction had no effect; a failing backend call may or may not have been applied, a
backend may return wrong bytes or a wrong answer.  `none` is a step that has to wait: for the
mutex, or for an identifier that has not been issued before.  The order in which a hash map is
iterated is an input as well (`hashOrder`).

SHA-256, zstd and base64 come from crates and are the parameters `Env`.
-/

namespace ReclaimFabric

/-- the crates the runtime builds on, and the backends whose content lives in the process -/
structure Env where
  sha256 : Bytes → ContentHash
  zstdEncode : Bytes → Res Bytes
  zstdDecode : Bytes → Res Bytes
  decodeBase64 : String → Res Bytes
  volatile : String → Bool

/-- a thread of the coordinator process -/
abbrev Tid := Nat

instance lawfulSlot : LawfulBEq (String × ContentHash) := inferInstance

/-! ## configuration and process memory -/

/-- a payload backend: its kind and the keys it accepts -/
structure BackendInfo where
  kind : String
  accepts : String → Res Unit

structure NodeInfo where
  nodeId : String
  backends : List (String × BackendInfo)

structure ArchiveInfo where
  id : String
  accepts : String → Res Unit

structure Config where
  processId : String
  reservationTtlMs : Int
  nodeHeartbeatTimeoutMs : Int
  backends : List (String × BackendInfo)
  archives : List ArchiveInfo
  nodes : List NodeInfo

/-- `CoordinatorInner` and the flags of `Coordinator`; guards remember the thread that holds them -/
structure Proc where
  config : Config
  epoch : Nat
  bootId : Uuid
  mutex : Option Tid
  activeObjects : List (Uuid × Tid)
  activePayloads : List ((String × ContentHash) × Tid)
  activeRecovery : Option Tid
  authorityLost : Bool
  shutdown : Bool

/-- a process that has just claimed the store -/
def Proc.start (config : Config) (epoch : Nat) (bootId : Uuid) : Proc where
  config := config
  epoch := epoch
  bootId := bootId
  mutex := none
  activeObjects := []
  activePayloads := []
  activeRecovery := none
  authorityLost := false
  shutdown := false

structure World where
  store : Store
  payloads : String → String → Option Bytes
  blobs : String → String → Option Bytes
  proc : Proc
  issued : List Uuid

/-! ## store calls -/

/-- one constructor for each store method -/
inductive StoreOp where
  | createObject (o : ReclaimObject)
  | createObjectWithAudits (o : ReclaimObject) (audits : List AuditEntry)
  | updateObject (o : ReclaimObject)
  | updateObjectWithAudit (o : ReclaimObject) (a : AuditEntry)
  | getObject (id : Uuid)
  | requireObject (id : Uuid)
  | listObjects
  | addReplica (r : Replica)
  | updateReplica (r : Replica)
  | replicasFor (id : Uuid)
  | allReplicas
  | deleteReplica (id : Uuid)
  | validReplicaCount (id : Uuid)
  | addLineageEdge (parent child : Uuid) (kind : EdgeKind)
  | removeLineageEdge (parent child : Uuid) (kind : EdgeKind)
  | lineageGraph
  | insertDedup (e : DedupEntry)
  | upsertDedup (e : DedupEntry)
  | getDedup (h : ContentHash) (backend : String)
  | listDedup
  | dedupAcquire (h : ContentHash) (backend : String)
  | dedupRelease (h : ContentHash) (backend : String)
  | deleteDedup (h : ContentHash) (backend : String)
  | insertDecision (d : Decision)
  | appendAudit (a : AuditEntry)
  | insertFailure (f : FailureRecord)
  | updateAttempt (id : Uuid) (status : AttemptStatus) (now : Int)
  | reconcileAttempt (id : Uuid) (status : AttemptStatus) (now : Int)
  | updateReservation (id : Uuid) (status : ReservationStatus)
  | updateReservationForAttempt (attempt : Uuid) (status : ReservationStatus)
  | listOpenReservations
  | hasOpenReservationFor (id : Uuid)
  | createReclaimReservation (j : JournalEntry) (r : Reservation) (a : Attempt)
  | updateJournalPhase (id : Uuid) (phase : JournalPhase) (now : Int)
  | startJournalPhysical (id : Uuid) (payload : JournalPayload) (now : Int)
  | getJournal (id : Uuid)
  | listOpenJournal
  | coordinatorHeartbeat (processId : String) (bootId : Uuid) (epoch : Nat) (now : Int)
  | insertArchive (a : ArchiveRecord)
  | listArchives
  | archivesFor (id : Uuid)
  | deleteArchive (id : String)

namespace StoreOp

/-- what the method answers -/
abbrev Out : StoreOp → Type
  | .getObject _ => Option ReclaimObject
  | .requireObject _ => ReclaimObject
  | .listObjects => List ReclaimObject
  | .replicasFor _ => List Replica
  | .allReplicas => List Replica
  | .validReplicaCount _ => Nat
  | .lineageGraph => LineageGraph
  | .getDedup _ _ => Option DedupEntry
  | .listDedup => List DedupEntry
  | .dedupRelease _ _ => Bool
  | .listOpenReservations => List Reservation
  | .hasOpenReservationFor _ => Bool
  | .getJournal _ => Option JournalEntry
  | .listOpenJournal => List JournalEntry
  | .listArchives => List ArchiveRecord
  | .archivesFor _ => List ArchiveRecord
  | _ => Unit

def run : (op : StoreOp) → Store → Res (op.Out × Store)
  | .createObject o, s => s.createObject o
  | .createObjectWithAudits o as, s => s.createObjectWithAudits o as
  | .updateObject o, s => s.updateObject o
  | .updateObjectWithAudit o a, s => s.updateObjectWithAudit o a
  | .getObject id, s => s.getObject id
  | .requireObject id, s => s.requireObject id
  | .listObjects, s => s.listObjects
  | .addReplica r, s => s.addReplica r
  | .updateReplica r, s => s.updateReplica r
  | .replicasFor id, s => s.replicasFor id
  | .allReplicas, s => s.allReplicas
  | .deleteReplica id, s => s.deleteReplica id
  | .validReplicaCount id, s => s.validReplicaCount id
  | .addLineageEdge p c k, s => s.addLineageEdge p c k
  | .removeLineageEdge p c k, s => s.removeLineageEdge p c k
  | .lineageGraph, s => s.lineageGraph
  | .insertDedup e, s => s.insertDedup e
  | .upsertDedup e, s => s.upsertDedup e
  | .getDedup h b, s => s.getDedup h b
  | .listDedup, s => s.listDedup
  | .dedupAcquire h b, s => s.dedupAcquire h b
  | .dedupRelease h b, s => s.dedupRelease h b
  | .deleteDedup h b, s => s.deleteDedup h b
  | .insertDecision d, s => s.insertDecision d
  | .appendAudit a, s => s.appendAudit a
  | .insertFailure f, s => s.insertFailure f
  | .updateAttempt id st n, s => s.updateAttempt id st n
  | .reconcileAttempt id st n, s => s.reconcileAttempt id st n
  | .updateReservation id st, s => s.updateReservation id st
  | .updateReservationForAttempt a st, s => s.updateReservationForAttempt a st
  | .listOpenReservations, s => s.listOpenReservations
  | .hasOpenReservationFor id, s => s.hasOpenReservationFor id
  | .createReclaimReservation j r a, s => s.createReclaimReservation j r a
  | .updateJournalPhase id p n, s => s.updateJournalPhase id p n
  | .startJournalPhysical id p n, s => s.startJournalPhysical id p n
  | .getJournal id, s => s.getJournal id
  | .listOpenJournal, s => s.listOpenJournal
  | .coordinatorHeartbeat p b e n, s => s.coordinatorHeartbeat p b e n
  | .insertArchive a, s => s.insertArchive a
  | .listArchives, s => s.listArchives
  | .archivesFor id, s => s.archivesFor id
  | .deleteArchive id, s => s.deleteArchive id

end StoreOp

/-! ## commands -/

/-- the outcome of policy evaluation -/
structure PolicyDecision where
  decision : Decision
  explanation : Json

inductive NodeOp where
  | store (data : Bytes) (expected : ContentHash)
  | read
  | delete
  | exists_

/-- `NodeOperationReply`; the base64 text of a payload or a hash is the payload or the hash -/
structure NodeReply where
  ok : Bool
  size : Option Nat
  resultHash : Option ContentHash
  payload : Option Bytes
  existed : Bool
  error : Option ReclaimError

inductive Cmd where
  | lock
  | unlock
  | loadAuthorityLost
  | setAuthorityLost
  | loadShutdown
  | setShutdown
  | now
  | newUuid
  | readProc
  | insertActiveObject (id : Uuid)
  | removeActiveObject (id : Uuid)
  | pollBudget
  | pollPayloads (keys : List (String × ContentHash))
  | deadlinePassed
  | removeActivePayloads (keys : List (String × ContentHash))
  | insertActiveRecovery
  | removeActiveRecovery
  | lineageBusy (parent child : Uuid)
  | policyDecide (o : ReclaimObject)
  | hashOrder (n : Nat)
  | store (op : StoreOp)
  | put (backend key : String) (data : Bytes)
  | get (backend key : String)
  | delete (backend key : String)
  | exists_ (backend key : String)
  | node (nodeId backend key : String) (op : NodeOp)
  | archiveWrite (backend key : String) (data : Bytes) (expected : ContentHash)
  | archiveRead (backend key : String)
  | archiveDelete (backend key : String)
  | archiveExists (backend key : String)

abbrev Cmd.Reply : Cmd → Type
  | .lock => Unit
  | .unlock => Unit
  | .loadAuthorityLost => Bool
  | .setAuthorityLost => Unit
  | .loadShutdown => Bool
  | .setShutdown => Unit
  | .now => Int
  | .newUuid => Uuid
  | .readProc => Config × Nat × Uuid
  | .insertActiveObject _ => Res Unit
  | .removeActiveObject _ => Unit
  | .pollBudget => Nat
  | .pollPayloads _ => Bool
  | .deadlinePassed => Unit
  | .removeActivePayloads _ => Unit
  | .insertActiveRecovery => Res Unit
  | .removeActiveRecovery => Unit
  | .lineageBusy _ _ => Bool
  | .policyDecide _ => Res PolicyDecision
  | .hashOrder _ => List Nat
  | .store op => Res op.Out
  | .put _ _ _ => Res Nat
  | .get _ _ => Res Bytes
  | .delete _ _ => Res Unit
  | .exists_ _ _ => Res Bool
  | .node _ _ _ _ => Res NodeReply
  | .archiveWrite _ _ _ _ => Res Nat
  | .archiveRead _ _ => Res Bytes
  | .archiveDelete _ _ => Res Unit
  | .archiveExists _ _ => Res Bool

/-- what the environment contributes to one step -/
structure Input where
  fault : Option ReclaimError := none
  applied : Bool := false
  bytes : Option Bytes := none
  size : Option Nat := none
  answer : Option Bool := none
  nodeReply : Option NodeReply := none
  time : Int := 0
  uuid : Uuid := .nil
  budget : Nat := 0
  order : List Nat := []
  decision : Res PolicyDecision := .error (.policy "no decision")

/-! ## effects -/

namespace World

def setStore (w : World) (s : Store) : World := { w with store := s }

def setProc (w : World) (p : Proc) : World := { w with proc := p }

def setPayload (w : World) (b k : String) (v : Option Bytes) : World :=
  { w with payloads := fun b' k' => if b' = b ∧ k' = k then v else w.payloads b' k' }

def setBlob (w : World) (b k : String) (v : Option Bytes) : World :=
  { w with blobs := fun b' k' => if b' = b ∧ k' = k then v else w.blobs b' k' }

end World

/-- `BackendRegistry::get` -/
def Config.backend (c : Config) (id : String) : Res BackendInfo :=
  match c.backends.find? (fun e => decide (e.1 = id)) with
  | some e => .ok e.2
  | none => .error (.backend ("unknown backend " ++ id))

/-- `archives.iter().find(|a| a.id() == id)` -/
def Config.archive (c : Config) (id : String) : Option ArchiveInfo :=
  c.archives.find? (fun a => decide (a.id = id))

def Config.nodeBackend (c : Config) (nodeId backend : String) : Res BackendInfo :=
  match c.nodes.find? (fun n => decide (n.nodeId = nodeId)) with
  | none => .error (.notFound ("node " ++ nodeId))
  | some n =>
    match n.backends.find? (fun e => decide (e.1 = backend)) with
    | some e => .ok e.2
    | none => .error (.backend ("unknown backend " ++ backend))

section
variable (env : Env)

/-- `integrity::verify_sha256` -/
def Env.verifySha256 (data : Bytes) (expected : ContentHash) : Res Unit :=
  if env.sha256 data = expected then .ok ()
  else .error (.integrityFailure
    s!"sha256 mismatch: expected {expected}, got {env.sha256 data}")

/-- a call on a payload backend that accepts the key -/
def onBackend {α : Type} (info : Res BackendInfo) (key : String) (w : World)
    (f : Res α × World) : Res α × World :=
  match info with
  | .error e => (.error e, w)
  | .ok b =>
    match b.accepts key with
    | .error e => (.error e, w)
    | .ok () => f

def execPut (info : Res BackendInfo) (b k : String) (data : Bytes) (i : Input) (w : World) :
    Res Nat × World :=
  onBackend info k w <|
    match i.fault with
    | some e => (.error e, if i.applied then w.setPayload b k (some data) else w)
    | none => (.ok (i.size.getD data.length), w.setPayload b k (some (i.bytes.getD data)))

def execGet (info : Res BackendInfo) (b k : String) (i : Input) (w : World) :
    Res Bytes × World :=
  onBackend info k w <|
    match i.fault with
    | some e => (.error e, w)
    | none =>
      match i.bytes with
      | some d => (.ok d, w)
      | none =>
        match w.payloads b k with
        | none => (.error (.notFound ("payload " ++ k)), w)
        | some d => (.ok d, w)

def execDelete (info : Res BackendInfo) (b k : String) (i : Input) (w : World) :
    Res Unit × World :=
  onBackend info k w <|
    match i.fault with
    | some e => (.error e, if i.applied then w.setPayload b k none else w)
    | none => (.ok (), w.setPayload b k none)

def execExists (info : Res BackendInfo) (b k : String) (i : Input) (w : World) :
    Res Bool × World :=
  onBackend info k w <|
    match i.fault with
    | some e => (.error e, w)
    | none => (.ok (i.answer.getD (w.payloads b k).isSome), w)

/-- the reply of a node that ran into an error -/
def NodeReply.failed (e : ReclaimError) : NodeReply := ⟨false, none, none, none, false, some e⟩

/-- `execute_operation`, with the node's own put, read back and clean-up as one step -/
def executeOperation (info : Res BackendInfo) (b k : String) (w : World) :
    NodeOp → NodeReply × World
  | .store data expected =>
    match info with
    | .error e => (.failed e, w)
    | .ok inf =>
      match inf.accepts k with
      | .error e => (.failed e, w)
      | .ok () =>
        match env.verifySha256 data expected with
        | .error e => (.failed e, w.setPayload b k none)
        | .ok () => (⟨true, some data.length, some expected, none, false, none⟩,
            w.setPayload b k (some data))
  | .read =>
    match execGet info b k {} w with
    | (.error e, w') => (.failed e, w')
    | (.ok d, w') => (⟨true, some d.length, none, some d, true, none⟩, w')
  | .delete =>
    match execDelete info b k {} w with
    | (.error e, w') => (.failed e, w')
    | (.ok (), w') => (⟨true, none, none, none, false, none⟩, w')
  | .exists_ =>
    match execExists info b k {} w with
    | (.error e, w') => (.failed e, w')
    | (.ok x, w') => (⟨true, none, none, none, x, none⟩, w')

def execNode (nid b k : String) (op : NodeOp) (i : Input) (w : World) : Res NodeReply × World :=
  let r := executeOperation env (w.proc.config.nodeBackend nid b) b k w op
  match i.fault with
  | some e => (.error e, if i.applied then r.2 else w)
  | none => (.ok (i.nodeReply.getD r.1), r.2)

/-- a call on an archive backend that accepts the key -/
def onArchive {α : Type} (info : Option ArchiveInfo) (id key : String) (w : World)
    (f : Res α × World) : Res α × World :=
  match info with
  | none => (.error (.archiveFailure ("archive backend " ++ id ++ " unavailable")), w)
  | some a =>
    match a.accepts key with
    | .error e => (.error e, w)
    | .ok () => f

/-- immutable publication: an existing blob is accepted only when it is the same -/
def execArchiveWrite (a k : String) (data : Bytes) (expected : ContentHash) (i : Input)
    (w : World) : Res Nat × World :=
  onArchive (w.proc.config.archive a) a k w <|
    match i.fault with
    | some e => (.error e, if i.applied then w.setBlob a k (some data) else w)
    | none =>
      if env.sha256 data ≠ expected then
        (.error (.archiveFailure "refusing to archive corrupt payload"), w)
      else
        match w.blobs a k with
        | none => (.ok data.length, w.setBlob a k (some data))
        | some d =>
          if d = data then (.ok data.length, w)
          else (.error (.archiveFailure
            ("archive key " ++ quoted k ++ " already contains different data")), w)

def execArchiveRead (a k : String) (i : Input) (w : World) : Res Bytes × World :=
  onArchive (w.proc.config.archive a) a k w <|
    match i.fault with
    | some e => (.error e, w)
    | none =>
      match i.bytes with
      | some d => (.ok d, w)
      | none =>
        match w.blobs a k with
        | none => (.error (.notFound ("archive file " ++ k)), w)
        | some d => (.ok d, w)

def execArchiveDelete (a k : String) (i : Input) (w : World) : Res Unit × World :=
  onArchive (w.proc.config.archive a) a k w <|
    match i.fault with
    | some e => (.error e, if i.applied then w.setBlob a k none else w)
    | none => (.ok (), w.setBlob a k none)

def execArchiveExists (a k : String) (i : Input) (w : World) : Res Bool × World :=
  onArchive (w.proc.config.archive a) a k w <|
    match i.fault with
    | some e => (.error e, w)
    | none => (.ok (i.answer.getD (w.blobs a k).isSome), w)

def execStore (op : StoreOp) (i : Input) (w : World) : Res op.Out × World :=
  match i.fault with
  | some e => (.error e, w)
  | none =>
    match op.run w.store with
    | .error e => (.error e, w)
    | .ok (r, s) => (.ok r, w.setStore s)

/-- the closure of `begin_object_operation` -/
def execInsertActiveObject (t : Tid) (id : Uuid) (w : World) : Res Unit × World :=
  if w.proc.activeRecovery.isSome then
    (.error (.reservationConflict "recovery is in progress"), w)
  else if w.proc.activeObjects.any (fun e => decide (e.1 = id)) then
    (.error (.reservationConflict s!"object {id} already has an operation in progress"), w)
  else
    (.ok (), w.setProc { w.proc with activeObjects := (id, t) :: w.proc.activeObjects })

/-- the locked part of one round of `begin_payload_operations` -/
def execPollPayloads (t : Tid) (keys : List (String × ContentHash)) (w : World) : Bool × World :=
  if w.proc.activeRecovery.isNone ∧
      ∀ k ∈ keys, w.proc.activePayloads.all (fun e => decide (e.1 ≠ k)) then
    (true, w.setProc
      { w.proc with activePayloads := keys.map (fun k => (k, t)) ++ w.proc.activePayloads })
  else (false, w)

/-- the closure of `begin_recovery` -/
def execInsertActiveRecovery (t : Tid) (w : World) : Res Unit × World :=
  if w.proc.activeRecovery.isSome ∨ w.proc.activeObjects ≠ [] ∨ w.proc.activePayloads ≠ [] then
    (.error (.reservationConflict
      "cannot run recovery while lifecycle operations are active"), w)
  else (.ok (), w.setProc { w.proc with activeRecovery := some t })

/-- one atomic step of thread `t` -/
def exec (t : Tid) : (c : Cmd) → Input → World → Option (c.Reply × World)
  | .lock, _, w =>
    if w.proc.mutex.isNone then some ((), w.setProc { w.proc with mutex := some t }) else none
  | .unlock, _, w => some ((), w.setProc { w.proc with mutex := none })
  | .loadAuthorityLost, _, w => some (w.proc.authorityLost, w)
  | .setAuthorityLost, _, w => some ((), w.setProc { w.proc with authorityLost := true })
  | .loadShutdown, _, w => some (w.proc.shutdown, w)
  | .setShutdown, _, w => some ((), w.setProc { w.proc with shutdown := true })
  | .now, i, w => some (i.time, w)
  | .newUuid, i, w =>
    if i.uuid ∈ w.issued then none else some (i.uuid, { w with issued := i.uuid :: w.issued })
  | .readProc, _, w => some ((w.proc.config, w.proc.epoch, w.proc.bootId), w)
  | .insertActiveObject id, _, w => some (execInsertActiveObject t id w)
  | .removeActiveObject id, _, w =>
    if w.proc.mutex.isNone then
      some ((), w.setProc { w.proc with
        activeObjects := w.proc.activeObjects.filter (fun e => decide (e.1 ≠ id)) })
    else none
  | .pollBudget, i, w => some (i.budget, w)
  | .pollPayloads keys, _, w =>
    if w.proc.mutex.isNone then some (execPollPayloads t keys w) else none
  | .deadlinePassed, _, w => some ((), w)
  | .removeActivePayloads keys, _, w =>
    if w.proc.mutex.isNone then
      some ((), w.setProc { w.proc with
        activePayloads := w.proc.activePayloads.filter (fun e => decide (e.1 ∉ keys)) })
    else none
  | .insertActiveRecovery, _, w => some (execInsertActiveRecovery t w)
  | .removeActiveRecovery, _, w =>
    if w.proc.mutex.isNone then some ((), w.setProc { w.proc with activeRecovery := none })
    else none
  | .lineageBusy p c, _, w =>
    some (w.proc.activeRecovery.isSome || w.proc.activeObjects.any (fun e => decide (e.1 = p)) ||
      w.proc.activeObjects.any (fun e => decide (e.1 = c)), w)
  | .policyDecide _, i, w => some (i.decision, w)
  | .hashOrder n, i, w => if i.order.isPerm (List.range n) then some (i.order, w) else none
  | .store op, i, w => some (execStore op i w)
  | .put b k d, i, w => some (execPut (w.proc.config.backend b) b k d i w)
  | .get b k, i, w => some (execGet (w.proc.config.backend b) b k i w)
  | .delete b k, i, w => some (execDelete (w.proc.config.backend b) b k i w)
  | .exists_ b k, i, w => some (execExists (w.proc.config.backend b) b k i w)
  | .node n b k op, i, w => some (execNode env n b k op i w)
  | .archiveWrite a k d h, i, w => some (execArchiveWrite env a k d h i w)
  | .archiveRead a k, i, w => some (execArchiveRead a k i w)
  | .archiveDelete a k, i, w => some (execArchiveDelete a k i w)
  | .archiveExists a k, i, w => some (execArchiveExists a k i w)

end

end ReclaimFabric
