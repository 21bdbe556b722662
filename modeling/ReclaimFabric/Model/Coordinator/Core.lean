import ReclaimFabric.Model.World

/-!
# Coordinator: authority, guards and payload access

The parts of `coordinator.rs` every operation is built from.

* `withInner`      the authority check, the coordinator mutex and the heartbeat around a closure;
* `withObject`     the per-object guard, dropped when the operation ends;
* `holding`        the payload guard of an operation that has acquired it;
* `writePayloadTo`, `readPayload`, `deletePayload`, `payloadExists`
                   one payload on one backend, local or node-hosted.

A guard is dropped on every way out, so its body is run with `attempt` and its outcome is handed
on after the drop.
-/

namespace ReclaimFabric

/-- programs of the coordinator -/
abbrev M := ExceptT ReclaimError (Prog Cmd Cmd.Reply)

namespace Coordinator

open Prog (attempt settle)

/-- a command that cannot fail -/
def ask (c : Cmd) : M c.Reply := ExceptT.mk (.call c fun r => .ret (.ok r))

/-- a store method -/
def store (op : StoreOp) : M op.Out := ExceptT.mk (.call (.store op) fun r => .ret r)

/-- `f().map_err(g)` -/
def mapErr {α : Type} (g : ReclaimError → ReclaimError) (x : M α) : M α := do
  match ← attempt x with
  | .ok a => pure a
  | .error e => throw (g e)

def nowMs : M Int := ask .now

def authorityLostError : ReclaimError :=
  .reservationConflict "coordinator authority has been lost"

/-- `Coordinator::with_inner` -/
def withInner {α : Type} (f : M α) : M α := do
  if ← ask .loadAuthorityLost then
    throw authorityLostError
  ask .lock
  let p ← ask .readProc
  let now ← nowMs
  match ← attempt (store (.coordinatorHeartbeat p.1.processId p.2.2 p.2.1 now)) with
  | .error e =>
    ask .setAuthorityLost
    ask .unlock
    throw e
  | .ok () =>
    let r ← attempt f
    ask .unlock
    settle r

/-- a store method in a section of its own -/
def inner (op : StoreOp) : M op.Out := withInner (store op)

/-- the configuration of this start of the coordinator -/
def config : M Config := do
  let p ← ask .readProc
  pure p.1

/-! ## guards -/

/-- `Coordinator::begin_object_operation` -/
def beginObjectOperation (id : Uuid) : M Unit :=
  withInner (ExceptT.mk (.call (.insertActiveObject id) fun r => .ret r))

/-- an operation that holds the guard of one object -/
def withObject {α : Type} (id : Uuid) (body : M α) : M α := do
  beginObjectOperation id
  let r ← attempt body
  ask (.removeActiveObject id)
  settle r

def keyLe (a b : String × ContentHash) : Bool :=
  if a.1 = b.1 then a.2.le b.2 else decide (a.1 ≤ b.1)

/-- `keys.sort(); keys.dedup()` -/
def sortKeys (keys : List (String × ContentHash)) : List (String × ContentHash) :=
  (keys.insertionSort (fun a b => keyLe a b)).dedup

/-- one round of the polling loop -/
def pollRound (keys : List (String × ContentHash)) : M Bool := do
  if ← ask .loadShutdown then
    throw (.reservationConflict "coordinator is shutting down")
  if ← ask .loadAuthorityLost then
    throw authorityLostError
  ask (.pollPayloads keys)

/-- the polling loop; the number is how many more rounds fit before the deadline -/
def pollLoop (keys : List (String × ContentHash)) : Nat → M Unit
  | 0 => do
    if ← pollRound keys then
      pure ()
    else
      ask .deadlinePassed
      throw (.reservationConflict "timed out waiting for shared payload operation")
  | n + 1 => do
    if ← pollRound keys then
      pure ()
    else
      pollLoop keys n

/-- `Coordinator::begin_payload_operations` -/
def beginPayloadOperations (keys : List (String × ContentHash)) : M Unit := do
  let n ← ask .pollBudget
  pollLoop (sortKeys keys) n

/-- the rest of an operation that holds the payload guard of `keys` -/
def holding {α : Type} (keys : List (String × ContentHash)) (body : M α) : M α := do
  let r ← attempt body
  ask (.removeActivePayloads (sortKeys keys))
  settle r

def withPayloads {α : Type} (keys : List (String × ContentHash)) (body : M α) : M α := do
  beginPayloadOperations keys
  holding keys body

/-- `Coordinator::begin_recovery` -/
def beginRecovery : M Unit :=
  withInner (ExceptT.mk (.call .insertActiveRecovery fun r => .ret r))

def withRecovery {α : Type} (body : M α) : M α := do
  beginRecovery
  let r ← attempt body
  ask .removeActiveRecovery
  settle r

/-! ## payloads on backends -/

/-- `Coordinator::node_for_backend_locked` -/
def nodeForBackendLocked (c : Config) (b : String) : Res (Option String) :=
  let owners := ((c.nodes.filter (fun n => n.backends.any (fun e => decide (e.1 = b)))).map
    NodeInfo.nodeId).insertionSort (fun x y => decide (x ≤ y))
  if owners.length > 1 then
    .error (.reservationConflict ("backend " ++ b ++ " is ambiguously registered by nodes " ++
      ", ".intercalate owners))
  else .ok owners.getLast?

def nodeForBackend (b : String) : M (Option String) :=
  withInner do
    let c ← config
    settle (nodeForBackendLocked c b)

/-- `g.backends.get(id)` -/
def lookupBackend (b : String) : M BackendInfo :=
  withInner do
    let c ← config
    settle (c.backend b)

def put (b k : String) (data : Bytes) : M Nat := ExceptT.mk (.call (.put b k data) fun r => .ret r)

def get (b k : String) : M Bytes := ExceptT.mk (.call (.get b k) fun r => .ret r)

def delete (b k : String) : M Unit := ExceptT.mk (.call (.delete b k) fun r => .ret r)

def exists_ (b k : String) : M Bool := ExceptT.mk (.call (.exists_ b k) fun r => .ret r)

/-- `Coordinator::node_operation` -/
def nodeOperation (nodeId b k : String) (op : NodeOp) : M NodeReply := do
  withInner do
    let c ← config
    if c.nodes.any (fun n => decide (n.nodeId = nodeId)) then
      pure ()
    else throw (.notFound ("node " ++ nodeId))
  ExceptT.mk (.call (.node nodeId b k op) fun r => .ret r)

/-- the error of a reply that is not ok -/
def replyError (r : NodeReply) (message : String) : ReclaimError :=
  r.error.getD (.backend message)

/-- `Coordinator::delete_payload` -/
def deletePayload (b k : String) : M Unit := do
  match ← nodeForBackend b with
  | none => do
    let _ ← lookupBackend b
    delete b k
  | some nid => do
    let reply ← nodeOperation nid b k .delete
    if !reply.ok then
      throw (replyError reply "node delete failed")

/-- `Coordinator::payload_exists` -/
def payloadExists (b k : String) : M Bool := do
  match ← nodeForBackend b with
  | none => do
    let _ ← lookupBackend b
    exists_ b k
  | some nid => do
    let reply ← nodeOperation nid b k .exists_
    if !reply.ok then
      throw (replyError reply "node exists failed")
    pure reply.existed

/-- `Coordinator::read_payload` -/
def readPayload (b k : String) : M Bytes := do
  match ← nodeForBackend b with
  | none => do
    let _ ← lookupBackend b
    get b k
  | some nid => do
    let reply ← nodeOperation nid b k .read
    if !reply.ok then
      throw (replyError reply "node read failed")
    match reply.payload with
    | none => throw (.protocol "node read returned no payload")
    | some d => pure d

section
variable (env : Env)

/-- the write and its verification; a refused call is an error of the whole function -/
def writeResult (b k : String) (data : Bytes) : M (Res Unit) := do
  let expected := env.sha256 data
  match ← nodeForBackend b with
  | none => do
    let _ ← lookupBackend b
    let size ← put b k data
    if size ≠ data.length then
      pure (.error (.backend
        s!"backend {b} reported storing {size} bytes, expected {data.length}"))
    else
      let stored ← get b k
      pure (env.verifySha256 stored expected)
  | some nid => do
    let reply ← nodeOperation nid b k (.store data expected)
    if !reply.ok then
      pure (.error (replyError reply "node store failed"))
    else if reply.size ≠ some data.length then
      pure (.error (.protocol ("node store returned size " ++ Store.showOption reply.size ++
        ", expected " ++ toString data.length)))
    else if reply.resultHash ≠ some expected then
      pure (.error (.protocol "node store returned a mismatched content hash"))
    else pure (.ok ())

/-- `Coordinator::write_payload_to` -/
def writePayloadTo (b k : String) (data : Bytes) : M Unit := do
  match ← writeResult env b k data with
  | .ok () => pure ()
  | .error e =>
    match ← attempt (deletePayload b k) with
    | .ok () => throw e
    | .error cleanup => throw (.internal
        s!"payload write verification failed ({e}); cleanup also failed ({cleanup})")

end

/-! ## audit rows -/

/-- an audit row of an object; the store numbers it -/
def auditOf (ts : Int) (actor action : String) (o : ReclaimObject)
    (prior new : Option LifecycleState) (policy : Option String) (attempt : Option Uuid)
    (detail : Json) : AuditEntry where
  id := 0
  tsMs := ts
  actor := actor
  action := action
  objectId := some o.id
  generation := some o.generation
  priorState := prior
  newState := new
  policy := policy
  attemptId := attempt
  node := none
  detail := detail

/-- `Coordinator::apply_transition` -/
def applyTransition (o : ReclaimObject) (target : LifecycleState) (actor action : String)
    (policy : Option String) (attempt : Option Uuid) : M ReclaimObject := do
  match ← settle (checkTransition o.lifecycleState target) with
  | .noop => pure o
  | .allowed => do
    let updated := { o with lifecycleState := target }
    withInner do
      let ts ← nowMs
      store (.updateObjectWithAudit updated
        (auditOf ts actor action o (some o.lifecycleState) (some target) policy attempt (.obj [])))
    pure updated

/-- `Coordinator::apply_object_update` -/
def applyObjectUpdate (o : ReclaimObject) (actor : String) (attempt : Option Uuid)
    (action : String) : M Unit :=
  withInner do
    let ts ← nowMs
    store (.updateObjectWithAudit o
      (auditOf ts actor action o none (some o.lifecycleState) none attempt (.obj [])))

end Coordinator

end ReclaimFabric
