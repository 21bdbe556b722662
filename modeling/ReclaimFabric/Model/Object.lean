import ReclaimFabric.Model.Basic

/-!
# Objects, replicas, archives and the lifecycle table

`object.rs`, the record types of `archive.rs` and `dedup.rs`, and the transition table of
`lifecycle.rs`.
-/

namespace ReclaimFabric

/-! ## lifecycle -/

inductive LifecycleState where
  | created
  | hot
  | warm
  | cold
  | compressed
  | deduped
  | archived
  | recomputable
  | reclaimPending
  | reclaimed
  | failed
deriving DecidableEq

def LifecycleState.asStr : LifecycleState → String
  | .created => "CREATED"
  | .hot => "HOT"
  | .warm => "WARM"
  | .cold => "COLD"
  | .compressed => "COMPRESSED"
  | .deduped => "DEDUPED"
  | .archived => "ARCHIVED"
  | .recomputable => "RECOMPUTABLE"
  | .reclaimPending => "RECLAIM_PENDING"
  | .reclaimed => "RECLAIMED"
  | .failed => "FAILED"

def LifecycleState.parse (s : String) : Res LifecycleState :=
  if s = "CREATED" then .ok .created
  else if s = "HOT" then .ok .hot
  else if s = "WARM" then .ok .warm
  else if s = "COLD" then .ok .cold
  else if s = "COMPRESSED" then .ok .compressed
  else if s = "DEDUPED" then .ok .deduped
  else if s = "ARCHIVED" then .ok .archived
  else if s = "RECOMPUTABLE" then .ok .recomputable
  else if s = "RECLAIM_PENDING" then .ok .reclaimPending
  else if s = "RECLAIMED" then .ok .reclaimed
  else if s = "FAILED" then .ok .failed
  else .error (.invalidArgument ("unknown lifecycle state: " ++ s))

theorem LifecycleState.parse_asStr (s : LifecycleState) : parse s.asStr = .ok s := by
  cases s <;> rfl

inductive TransitionResult where
  | allowed
  | noop
deriving DecidableEq

/-- the static transition table -/
def LifecycleState.successors : LifecycleState → List LifecycleState
  | .created => [.hot, .warm, .cold, .failed]
  | .hot => [.warm, .cold, .compressed, .archived, .recomputable, .deduped, .failed]
  | .warm => [.hot, .cold, .compressed, .archived, .recomputable, .failed]
  | .cold => [.hot, .warm, .compressed, .archived, .recomputable, .deduped, .failed]
  | .compressed => [.hot, .warm, .cold, .archived, .recomputable, .failed]
  | .deduped => [.hot, .warm, .cold, .archived, .recomputable, .reclaimPending, .failed]
  | .archived => [.hot, .warm, .recomputable, .reclaimPending, .failed]
  | .recomputable => [.hot, .warm, .reclaimPending, .failed]
  | .reclaimPending => [.reclaimed, .hot, .warm, .failed]
  | .reclaimed => []
  | .failed => []

def checkTransition (src dst : LifecycleState) : Res TransitionResult :=
  if src = dst then .ok .noop
  else if dst ∈ src.successors then .ok .allowed
  else .error (.invalidTransition src.asStr dst.asStr)

/-! ## objects -/

inductive DurabilityClass where
  | ephemeral
  | recomputable
  | durable
  | critical
deriving DecidableEq

namespace DurabilityClass

def minValidCopies : DurabilityClass → Nat
  | .ephemeral => 0
  | .recomputable => 0
  | .durable => 1
  | .critical => 2

/-- `{:?}` -/
def debug : DurabilityClass → String
  | .ephemeral => "Ephemeral"
  | .recomputable => "Recomputable"
  | .durable => "Durable"
  | .critical => "Critical"

end DurabilityClass

inductive SurvivabilityClass where
  | ephemeral
  | recomputable
  | durable
  | critical
deriving DecidableEq

structure ReclaimObject where
  id : Uuid
  generation : Nat
  className : String
  logicalSize : Nat
  physicalSize : Nat
  compressedSize : Option Nat
  createdAtMs : Int
  lastAccessMs : Int
  accessCount : Nat
  reuseProbability : F64
  reuseHorizonSecs : Option Nat
  recomputeCost : Option F64
  recomputeLatencySecs : Option F64
  transferCost : Option F64
  migrationCost : Option F64
  storageCostPerByteSec : F64
  memoryCostPerByteSec : F64
  replicationCount : Nat
  durabilityClass : DurabilityClass
  survivabilityClass : SurvivabilityClass
  owner : String
  contentHash : Option ContentHash
  lifecycleState : LifecycleState
  policyVersion : String
  decisionEpoch : Nat
  pinned : Bool
  isProtected : Bool
  minRetentionDeadlineMs : Option Int
  maxRetentionDeadlineMs : Option Int
  appMetadata : List (String × Json)

namespace ReclaimObject

/-- `ReclaimObject::new` -/
def new (id : Uuid) (generation : Nat) (className : String) (logicalSize : Nat)
    (createdAtMs : Int) : ReclaimObject where
  id := id
  generation := generation
  className := className
  logicalSize := logicalSize
  physicalSize := 0
  compressedSize := none
  createdAtMs := createdAtMs
  lastAccessMs := createdAtMs
  accessCount := 0
  reuseProbability := .dec 0 0
  reuseHorizonSecs := none
  recomputeCost := none
  recomputeLatencySecs := none
  transferCost := none
  migrationCost := none
  storageCostPerByteSec := .dec 0 0
  memoryCostPerByteSec := .dec 0 0
  replicationCount := 0
  durabilityClass := .ephemeral
  survivabilityClass := .ephemeral
  owner := ""
  contentHash := none
  lifecycleState := .created
  policyVersion := ""
  decisionEpoch := 0
  pinned := false
  isProtected := false
  minRetentionDeadlineMs := none
  maxRetentionDeadlineMs := none
  appMetadata := []

/-- one optional cost field of `validate` -/
def checkCost (name : String) : Option F64 → Res Unit
  | none => .ok ()
  | some x =>
    if !x.isFinite || x.isNegative then
      .error (.invalidArgument (name ++ " must be finite and non-negative, got " ++ x.text))
    else .ok ()

def validate (o : ReclaimObject) : Res Unit := do
  if !o.reuseProbability.isFinite || !o.reuseProbability.inUnit then
    throw (.invalidArgument ("reuse_probability out of range: " ++ o.reuseProbability.text))
  checkCost "recompute_cost" o.recomputeCost
  checkCost "recompute_latency_secs" o.recomputeLatencySecs
  checkCost "transfer_cost" o.transferCost
  checkCost "migration_cost" o.migrationCost
  checkCost "storage_cost_per_byte_sec" (some o.storageCostPerByteSec)
  checkCost "memory_cost_per_byte_sec" (some o.memoryCostPerByteSec)
  if blank o.className then
    throw (.invalidArgument "class must not be empty")
  match o.minRetentionDeadlineMs, o.maxRetentionDeadlineMs with
  | some lo, some hi =>
    if lo > hi then
      throw (.invalidArgument
        "min_retention_deadline_ms must not exceed max_retention_deadline_ms")
    else pure ()
  | _, _ => pure ()

/-- `app_metadata.contains_key` -/
def hasMetadata (o : ReclaimObject) (k : String) : Bool := o.appMetadata.any (fun e => e.1 == k)

/-- `app_metadata.get` -/
def getMetadata (o : ReclaimObject) (k : String) : Option Json :=
  (o.appMetadata.find? (fun e => e.1 == k)).map Prod.snd

/-- `app_metadata.insert` (a sorted map) -/
def setMetadata (o : ReclaimObject) (k : String) (v : Json) : ReclaimObject :=
  { o with appMetadata :=
      o.appMetadata.filter (fun e => decide (e.1 < k)) ++ [(k, v)] ++
        o.appMetadata.filter (fun e => decide (k < e.1)) }

/-- `app_metadata.remove` -/
def removeMetadata (o : ReclaimObject) (k : String) : ReclaimObject :=
  { o with appMetadata := o.appMetadata.filter (fun e => e.1 != k) }

/-- `Coordinator::reconstructible`: there is an explicit recomputation recipe -/
def reconstructible (o : ReclaimObject) : Bool := o.recomputeCost.isSome

end ReclaimObject

/-! ## replicas, archives, dedup rows -/

inductive PhysicalKind where
  | hot
  | durable
  | archived
deriving DecidableEq

structure PhysicalLocation where
  backend : String
  key : String
  kind : PhysicalKind
deriving DecidableEq

structure Replica where
  replicaId : Uuid
  objectId : Uuid
  generation : Nat
  location : PhysicalLocation
  size : Nat
  contentHash : ContentHash
  createdAtMs : Int
  verifiedAtMs : Option Int
  valid : Bool
  ownerNode : Option String
deriving DecidableEq

structure ArchiveRecord where
  archiveId : String
  objectId : Uuid
  generation : Nat
  backend : String
  key : String
  size : Nat
  contentHash : ContentHash
  createdAtMs : Int
deriving DecidableEq

structure DedupEntry where
  contentHash : ContentHash
  backend : String
  key : String
  refCount : Nat
  payloadSize : Nat
deriving DecidableEq

/-- `dedup::dedup_key` -/
def dedupKey (h : ContentHash) : String := "dedup-" ++ h.text

end ReclaimFabric
