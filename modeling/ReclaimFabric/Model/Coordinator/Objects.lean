import ReclaimFabric.Model.Coordinator.Core

/-!
# Coordinator: registration, object updates, lineage and planning

`create_object` with its payload path (`storePayload`, `storePayloadOnBackend` and the
compensation `rollbackReplicas`), the four metadata updates, the two lineage operations and
`plan`.

Registration stores the payload before it publishes the object row: every target backend is
written, or attached to the payload it already has, under the payload guard, and a failure
releases what was stored so far.
-/

namespace ReclaimFabric

structure CreateObjectRequest where
  object : ReclaimObject
  payloadB64 : Option String
  targetBackend : Option String
  replicateTo : List String

namespace Coordinator

open Prog (attempt settle)

section
variable (env : Env)

/-! ## payload storage -/

/-- keep the first occurrence of every backend -/
def distinctTargets (l : List String) : List String := l.reverse.dedup.reverse

/-- the key of a payload this backend has not got yet -/
def freshKey (h : ContentHash) (index : Nat) : String :=
  if index = 0 then dedupKey h else dedupKey h ++ "-r" ++ toString index

/-- the canonical key of a payload on a backend, and whether it has to be written -/
def canonicalKey (b : String) (h : ContentHash) (index : Nat) (existing : Option DedupEntry) :
    M (String × Bool) := do
  match existing with
  | some entry =>
    if entry.refCount = 0 then
      throw (.dedup s!"zero-reference dedup row for {h} on {b}")
    let canonical ← readPayload b entry.key
    settle (env.verifySha256 canonical h)
    withInner (store (.dedupAcquire h b))
    pure (entry.key, false)
  | none => pure (freshKey h index, true)

/-- write a new payload and its first reference -/
def storeNew (b key : String) (data : Bytes) (h : ContentHash) : M Unit := do
  writePayloadTo env b key data
  match ← attempt (withInner (store (.insertDedup ⟨h, b, key, 1, data.length⟩))) with
  | .ok () => pure ()
  | .error e => do
    mapErr (fun cleanup => .internal
        s!"dedup insert failed ({e}); payload cleanup also failed ({cleanup})")
      (deletePayload b key)
    throw e

/-- record the replica, or give the reference back -/
def recordReplica (r : Replica) : M Unit := do
  match ← attempt (withInner (store (.addReplica r))) with
  | .ok () => pure ()
  | .error e => do
    let last ← withInner (store (.dedupRelease r.contentHash r.location.backend))
    if last then
      mapErr (fun cleanup => .internal
          s!"replica insert failed ({e}); payload cleanup also failed ({cleanup})")
        (deletePayload r.location.backend r.location.key)
    throw e

/-- `Coordinator::store_payload_on_backend` -/
def storePayloadOnBackend (o : ReclaimObject) (b : String) (data : Bytes) (h : ContentHash)
    (now : Int) (index : Nat) : M Replica := do
  let (existing, ownerNode) ← withInner do
    let existing ← store (.getDedup h b)
    let c ← config
    let ownerNode ← settle (nodeForBackendLocked c b)
    pure (existing, ownerNode)
  let (key, stored) ← canonicalKey env b h index existing
  if stored then
    storeNew env b key data h
  let replicaId ← ask .newUuid
  let replica : Replica :=
    { replicaId := replicaId
      objectId := o.id
      generation := o.generation
      location := ⟨b, key, .hot⟩
      size := data.length
      contentHash := h
      createdAtMs := now
      verifiedAtMs := some now
      valid := true
      ownerNode := ownerNode }
  recordReplica replica
  pure replica

/-- the locked part of the compensation: the payloads nobody refers to any more -/
def releaseReplicas : List Replica → List (String × String) → M (List (String × String))
  | [], physical => pure physical
  | r :: rs, physical => do
    store (.deleteReplica r.replicaId)
    if ← store (.dedupRelease r.contentHash r.location.backend) then
      releaseReplicas rs (physical ++ [(r.location.backend, r.location.key)])
    else releaseReplicas rs physical

def deletePayloads : List (String × String) → M Unit
  | [] => pure ()
  | p :: ps => do
    deletePayload p.1 p.2
    deletePayloads ps

/-- `Coordinator::rollback_replicas_under_guard` -/
def rollbackReplicasUnderGuard (replicas : List Replica) : M Unit := do
  let physical ← withInner (releaseReplicas replicas [])
  deletePayloads physical

def replicaKeys (replicas : List Replica) : List (String × ContentHash) :=
  replicas.map fun r => (r.location.backend, r.contentHash)

/-- `Coordinator::rollback_replicas` -/
def rollbackReplicas (replicas : List Replica) : M Unit :=
  withPayloads (replicaKeys replicas) (rollbackReplicasUnderGuard replicas)

/-- the loop over the target backends -/
def storeOnTargets (o : ReclaimObject) (data : Bytes) (h : ContentHash) (now : Int) :
    List String → Nat → List Replica → M (List Replica)
  | [], _, out => pure out
  | b :: bs, index, out => do
    match ← attempt (storePayloadOnBackend env o b data h now index) with
    | .ok replica => storeOnTargets o data h now bs (index + 1) (out ++ [replica])
    | .error e => do
      rollbackReplicasUnderGuard out
      throw e

/-- `Coordinator::store_payload` -/
def storePayload (o : ReclaimObject) (b : String) (data : Bytes) (replicateTo : List String) :
    M (List Replica) := do
  let h := env.sha256 data
  let now ← nowMs
  let targets := distinctTargets (b :: replicateTo)
  withPayloads (targets.map fun id => (id, h)) (storeOnTargets env o data h now targets 0 [])

/-! ## registration -/

/-- the checks on the payload of a registration request -/
def preparePayload (req : CreateObjectRequest) (o : ReclaimObject) :
    Res (Option (Bytes × ContentHash × String)) :=
  let min := o.durabilityClass.minValidCopies
  match req.payloadB64 with
  | some payloadB64 => do
    match req.targetBackend with
    | none => throw (.invalidArgument "target_backend is required when payload_b64 is present")
    | some target =>
      if blank target then
        throw (.invalidArgument "target_backend must not be empty")
      if req.replicateTo.any blank then
        throw (.invalidArgument "replicate_to backend ids must not be empty")
      let data ← env.decodeBase64 payloadB64
      if data = [] then
        throw (.invalidArgument "empty payloads are not supported")
      let h := env.sha256 data
      match o.contentHash with
      | some expected =>
        if expected ≠ h then
          throw (.integrityFailure
            s!"payload does not match declared content hash: declared {expected}, actual {h}")
        else pure ()
      | none => pure ()
      if o.physicalSize ≠ 0 ∧ o.physicalSize ≠ data.length then
        throw (.invalidArgument
          (s!"declared physical size {o.physicalSize} does not match payload size " ++
            s!"{data.length}"))
      let targets := distinctTargets (target :: req.replicateTo)
      if targets.length < min then
        throw (.survivabilityViolation
          (s!"registration of {o.durabilityClass.debug} object requires at least {min} distinct " ++
            s!"backend copies, got {targets.length}"))
      pure (some (data, h, target))
  | none => do
    if req.targetBackend.isSome ∨ req.replicateTo ≠ [] then
      throw (.invalidArgument "target_backend/replicate_to require payload_b64")
    if min > 0 then
      throw (.survivabilityViolation
        (s!"registration of {o.durabilityClass.debug} object requires at least {min} valid " ++
          "payload copies"))
    pure none

/-- the audit rows of a registration -/
def creationAudits (now : Int) (o : ReclaimObject) (hasPayload : Bool) : List AuditEntry :=
  let detail : Json := .obj [("class", .str o.className), ("logical_size", .nat o.logicalSize),
    ("registered_state", .str LifecycleState.created.asStr)]
  let created := auditOf now "coordinator" "OBJECT_CREATED" o none
    (if hasPayload then none else some .created) none none detail
  if hasPayload then
    [created, auditOf now "coordinator" "OBJECT_PROMOTED_HOT" o (some .created) (some .hot) none
      none (.obj [])]
  else [created]

/-- `u32::try_from` of a number of replicas -/
def replicaCountU32 (n : Nat) : Res Nat :=
  if n < 2 ^ 32 then .ok n
  else .error (.invalidArgument "replica count exceeds u32")

/-- publish the object row, or release the replicas stored for it -/
def publishObject (o : ReclaimObject) (audits : List AuditEntry) (replicas : List Replica) :
    M ReclaimObject := do
  match ← attempt (withInner (store (.createObjectWithAudits o audits))) with
  | .ok () => pure o
  | .error e => do
    if replicas ≠ [] then
      mapErr (fun cleanup => .internal
          s!"object registration failed ({e}); replica cleanup also failed ({cleanup})")
        (rollbackReplicas replicas)
    throw e

/-- the object of a registration request as it is stored, before its payload -/
def registeredObject (o : ReclaimObject) (now : Int) : ReclaimObject :=
  if o.createdAtMs = 0 then
    { o with lifecycleState := .created, createdAtMs := now, lastAccessMs := now }
  else { o with lifecycleState := .created }

/-- the part of registration that holds the object guard -/
def registerObject (req : CreateObjectRequest) : M ReclaimObject := do
  let prepared ← settle (preparePayload env req req.object)
  if (← inner (.getObject req.object.id)).isSome then
    throw (.invalidArgument s!"object {req.object.id} already exists")
  let now ← nowMs
  let o := registeredObject req.object now
  match prepared with
  | none => publishObject o (creationAudits now o false) []
  | some (data, h, target) => do
    let o := { o with contentHash := some h, physicalSize := data.length }
    let replicas ← storePayload env o target data req.replicateTo
    let count ← settle (replicaCountU32 replicas.length)
    let o := { o with replicationCount := count, lifecycleState := .hot }
    publishObject o (creationAudits now o true) replicas

/-- `Coordinator::create_object` -/
def createObject (req : CreateObjectRequest) : M ReclaimObject := do
  settle req.object.validate
  withObject req.object.id (registerObject env req)

end

/-! ## object updates -/

/-- `Coordinator::touch` -/
def touch (id : Uuid) (actor : String) : M ReclaimObject :=
  withObject id do
    let o ← inner (.requireObject id)
    if o.lifecycleState = .reclaimed then
      throw (.invalidArgument "cannot touch a RECLAIMED object")
    if o.accessCount + 1 ≥ 2 ^ 64 then
      throw (.invalidArgument s!"object {o.id} access count overflow")
    let now ← nowMs
    let o := { o with accessCount := o.accessCount + 1, lastAccessMs := now }
    applyObjectUpdate o actor none "OBJECT_TOUCHED"
    pure o

/-- `Coordinator::pin` -/
def pin (id : Uuid) (actor : String) : M ReclaimObject :=
  withObject id do
    let o ← inner (.requireObject id)
    if o.lifecycleState = .reclaimed then
      throw (.invalidArgument "cannot pin a RECLAIMED object")
    let o := { o with pinned := true }
    applyObjectUpdate o actor none "OBJECT_PINNED"
    pure o

/-- `Coordinator::unpin` -/
def unpin (id : Uuid) (actor : String) : M ReclaimObject :=
  withObject id do
    let o ← inner (.requireObject id)
    let o := { o with pinned := false }
    applyObjectUpdate o actor none "OBJECT_UNPINNED"
    pure o

/-- `Coordinator::set_protected` -/
def setProtected (id : Uuid) (isProtected : Bool) (actor : String) : M ReclaimObject :=
  withObject id do
    let o ← inner (.requireObject id)
    let o := { o with isProtected := isProtected }
    applyObjectUpdate o actor none
      (if isProtected then "OBJECT_PROTECTED" else "OBJECT_UNPROTECTED")
    pure o

/-! ## lineage -/

def lineageAudit (ts : Int) (actor action : String) (parent child : Uuid) : AuditEntry where
  id := 0
  tsMs := ts
  actor := actor
  action := action
  objectId := some parent
  generation := none
  priorState := none
  newState := none
  policy := none
  attemptId := none
  node := none
  detail := .obj [("parent", .str parent.text), ("child", .str child.text)]

def lineageBusyError : ReclaimError :=
  .reservationConflict "lineage endpoint has an active lifecycle operation"

/-- `Coordinator::add_lineage` -/
def addLineage (parent child : Uuid) (kind : EdgeKind) (actor : String) : M Unit :=
  withInner do
    if ← ask (.lineageBusy parent child) then
      throw lineageBusyError
    let graph ← store .lineageGraph
    let _ ← settle (graph.addEdge parent child kind)
    store (.addLineageEdge parent child kind)
    let ts ← nowMs
    store (.appendAudit (lineageAudit ts actor ("LINEAGE_ADD_" ++ kind.asStr) parent child))

/-- `Coordinator::remove_lineage` -/
def removeLineage (parent child : Uuid) (kind : EdgeKind) (actor : String) : M Unit :=
  withInner do
    if ← ask (.lineageBusy parent child) then
      throw lineageBusyError
    store (.removeLineageEdge parent child kind)
    let ts ← nowMs
    store (.appendAudit (lineageAudit ts actor ("LINEAGE_REMOVE_" ++ kind.asStr) parent child))

/-- `Coordinator::lineage` -/
def lineage : M LineageGraph := inner .lineageGraph

/-! ## planning -/

/-- the reads of `Coordinator::decision_context` -/
def decisionContext (o : ReclaimObject) : M Unit := do
  let _ ← lineage
  let _ ← inner .listObjects
  let _ ← inner (.validReplicaCount o.id)
  let _ ← inner (.archivesFor o.id)
  pure ()

/-- `Coordinator::plan`; the policy registry, the pressure level and `policy::decide` are one
answer of the environment -/
def plan (id : Uuid) (actor : String) : M PolicyDecision := do
  let o ← inner (.requireObject id)
  decisionContext o
  withInner (pure ())
  let now ← nowMs
  withInner (pure ())
  let d ← ExceptT.mk (.call (.policyDecide o) fun r => .ret r)
  withInner do
    store (.insertDecision d.decision)
    store (.appendAudit (auditOf now actor "DECISION" o (some o.lifecycleState) none
      (some d.decision.policyId) none
      (.obj [("verdict", .str d.decision.verdict.debug), ("score", .float d.decision.score),
        ("threshold", .float d.decision.threshold), ("explanation", d.explanation)])))
  pure d

end Coordinator

end ReclaimFabric
