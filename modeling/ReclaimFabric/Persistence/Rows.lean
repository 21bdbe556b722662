import ReclaimFabric.Persistence.Decode

/-!
# Object and replica rows

A row is written by position (the parameters of the two statements) and read by column:

* `objectValues`, `objectColumns`, `objectAssignments`   `insert_object_row`, `update_object_row`;
* `rowToObject`                                          `row_to_object`;
* `replicaColumns`, `replicaValues`, `rowToReplica`      the same for replicas.

`objectRow` is the row of an object column by column.  Both statements write it
(`insertRow_object`, `setRow_object`), and `rowToObject_ok` says when the reader returns `o`: the
row agrees with `objectRow` outside the doubles and the metadata, which are read as those of `o`
(`ReadsObject`).  A replica has no such columns, so its row is `replicaRow` (`ReadsReplica`).
-/

namespace ReclaimFabric

open Result (bind_ok)
open Sql (Value Row insertRow setRow getInteger getText getReal optional ofOption getInteger_ok
  getText_ok optionalInteger_ok optionalText_ok getReal_of_real optionalReal_of_real)

/-! ## columns -/

inductive ObjectColumn where
  | id
  | generation
  | className
  | logicalSize
  | physicalSize
  | compressedSize
  | createdAtMs
  | lastAccessMs
  | accessCount
  | reuseProbability
  | reuseHorizonSecs
  | recomputeCost
  | recomputeLatencySecs
  | transferCost
  | migrationCost
  | storageCostPerByteSec
  | memoryCostPerByteSec
  | replicationCount
  | durabilityClass
  | survivabilityClass
  | owner
  | contentHash
  | lifecycleState
  | policyVersion
  | decisionEpoch
  | pinned
  | isProtected
  | minRetentionDeadlineMs
  | maxRetentionDeadlineMs
  | appMetadata
deriving DecidableEq

inductive ReplicaColumn where
  | replicaId
  | objectId
  | generation
  | backend
  | key
  | kind
  | size
  | contentHash
  | createdAtMs
  | verifiedAtMs
  | valid
  | ownerNode
deriving DecidableEq

/-- the columns that hold neither a double nor a JSON text -/
def ObjectColumn.discrete : ObjectColumn → Bool
  | .reuseProbability => false
  | .recomputeCost => false
  | .recomputeLatencySecs => false
  | .transferCost => false
  | .migrationCost => false
  | .storageCostPerByteSec => false
  | .memoryCostPerByteSec => false
  | .appMetadata => false
  | _ => true

/-! ## writing -/

/-- the columns an INSERT into `objects` names -/
def objectColumns : List ObjectColumn :=
  [.id, .generation, .className, .logicalSize, .physicalSize, .compressedSize,
    .createdAtMs, .lastAccessMs, .accessCount, .reuseProbability,
    .reuseHorizonSecs, .recomputeCost, .recomputeLatencySecs,
    .transferCost, .migrationCost, .storageCostPerByteSec,
    .memoryCostPerByteSec, .replicationCount, .durabilityClass,
    .survivabilityClass, .owner, .contentHash, .lifecycleState,
    .policyVersion, .decisionEpoch, .pinned, .isProtected,
    .minRetentionDeadlineMs, .maxRetentionDeadlineMs, .appMetadata]

/-- the assignments of the UPDATE of `objects` -/
def objectAssignments : List (ObjectColumn × Nat) :=
  [(.generation, 2), (.className, 3), (.logicalSize, 4), (.physicalSize, 5), (.compressedSize, 6),
    (.createdAtMs, 7), (.lastAccessMs, 8), (.accessCount, 9), (.reuseProbability, 10),
    (.reuseHorizonSecs, 11), (.recomputeCost, 12), (.recomputeLatencySecs, 13),
    (.transferCost, 14), (.migrationCost, 15), (.storageCostPerByteSec, 16),
    (.memoryCostPerByteSec, 17), (.replicationCount, 18), (.durabilityClass, 19),
    (.survivabilityClass, 20), (.owner, 21), (.contentHash, 22), (.lifecycleState, 23),
    (.policyVersion, 24), (.decisionEpoch, 25), (.pinned, 26), (.isProtected, 27),
    (.minRetentionDeadlineMs, 28), (.maxRetentionDeadlineMs, 29), (.appMetadata, 30)]

/-- the parameters of both statements; `checkObjectRow` makes their range checks -/
def objectValues (c : Crates) (o : ReclaimObject) : List (Value F64) :=
  [.text o.id.text,
    .integer o.generation, .text o.className,
    .integer o.logicalSize,
    .integer o.physicalSize,
    ofOption .integer (o.compressedSize.map Int.ofNat),
    .integer o.createdAtMs, .integer o.lastAccessMs,
    .integer o.accessCount, .real o.reuseProbability,
    ofOption .integer (o.reuseHorizonSecs.map Int.ofNat),
    ofOption .real o.recomputeCost, ofOption .real o.recomputeLatencySecs,
    ofOption .real o.transferCost, ofOption .real o.migrationCost,
    .real o.storageCostPerByteSec, .real o.memoryCostPerByteSec,
    .integer o.replicationCount, .text (duraStr o.durabilityClass),
    .text (survStr o.survivabilityClass), .text o.owner,
    ofOption .text (o.contentHash.map ContentHash.text), .text o.lifecycleState.asStr,
    .text o.policyVersion, .integer o.decisionEpoch,
    .integer (boolInt o.pinned), .integer (boolInt o.isProtected),
    ofOption .integer o.minRetentionDeadlineMs, ofOption .integer o.maxRetentionDeadlineMs,
    .text (c.metadataText o.appMetadata)]

def replicaColumns : List ReplicaColumn :=
  [.replicaId, .objectId, .generation, .backend, .key, .kind, .size,
    .contentHash, .createdAtMs, .verifiedAtMs, .valid, .ownerNode]

def replicaValues (r : Replica) : List (Value F64) :=
  [.text r.replicaId.text,
    .text r.objectId.text,
    .integer r.generation,
    .text r.location.backend,
    .text r.location.key,
    .text r.location.kind.asStr,
    .integer r.size,
    .text r.contentHash.text,
    .integer r.createdAtMs,
    ofOption .integer r.verifiedAtMs,
    .integer (boolInt r.valid),
    ofOption .text r.ownerNode]

/-! ## reading -/

section
variable {κ : Type} (row : Row κ F64) (col : κ) (field : String)

/-- `decode_u64(r.get::<_, i64>(col)?, field)` -/
def getU64 : Except (Sql.Error κ) Nat := do decodeU64 (← getInteger row col) field

def getOptionalU64 : Except (Sql.Error κ) (Option Nat) := do
  decodeOptionalU64 (← optional row col getInteger) field

def getU32 : Except (Sql.Error κ) Nat := do decodeU32 (← getInteger row col) field

def getBool : Except (Sql.Error κ) Bool := do decodeBool (← getInteger row col) field

def getF64 (c : Crates) : Except (Sql.Error κ) F64 := getReal row col c.ofInt

def getOptionalF64 (c : Crates) : Except (Sql.Error κ) (Option F64) :=
  optional row col (fun row col => getReal row col c.ofInt)

end

def rowToObject (c : Crates) (r : Row ObjectColumn F64) :
    Except (Sql.Error ObjectColumn) ReclaimObject := do
  let id ← getText r .id
  let className ← getText r .className
  let contentHash ← optional r .contentHash getText
  let lifecycleState ← getText r .lifecycleState
  let durability ← getText r .durabilityClass
  let survivability ← getText r .survivabilityClass
  let appMeta ← getText r .appMetadata
  let appMetadata ← decodeMetadata c appMeta
  let object : ReclaimObject := {
    id := ← decodeUuid c id "objects.id"
    generation := ← getU64 r .generation "objects.generation"
    className := className
    logicalSize := ← getU64 r .logicalSize "objects.logical_size"
    physicalSize := ← getU64 r .physicalSize "objects.physical_size"
    compressedSize := ← getOptionalU64 r .compressedSize "objects.compressed_size"
    createdAtMs := ← getInteger r .createdAtMs
    lastAccessMs := ← getInteger r .lastAccessMs
    accessCount := ← getU64 r .accessCount "objects.access_count"
    reuseProbability := ← getF64 r .reuseProbability c
    reuseHorizonSecs := ← getOptionalU64 r .reuseHorizonSecs "objects.reuse_horizon_secs"
    recomputeCost := ← getOptionalF64 r .recomputeCost c
    recomputeLatencySecs := ← getOptionalF64 r .recomputeLatencySecs c
    transferCost := ← getOptionalF64 r .transferCost c
    migrationCost := ← getOptionalF64 r .migrationCost c
    storageCostPerByteSec := ← getF64 r .storageCostPerByteSec c
    memoryCostPerByteSec := ← getF64 r .memoryCostPerByteSec c
    replicationCount := ← getU32 r .replicationCount "objects.replication_count"
    durabilityClass := ← decodeDurability durability
    survivabilityClass := ← decodeSurvivability survivability
    owner := ← getText r .owner
    contentHash := ← decodeOptionalHash contentHash "objects.content_hash"
    lifecycleState := ← decodeState lifecycleState
    policyVersion := ← getText r .policyVersion
    decisionEpoch := ← getU64 r .decisionEpoch "objects.decision_epoch"
    pinned := ← getBool r .pinned "objects.pinned"
    isProtected := ← getBool r .isProtected "objects.protected"
    minRetentionDeadlineMs := ← optional r .minRetentionDeadlineMs getInteger
    maxRetentionDeadlineMs := ← optional r .maxRetentionDeadlineMs getInteger
    appMetadata := appMetadata }
  match object.validate with
  | .error e =>
    throw (.invalidParameterName ("corrupt object " ++ object.id.text ++ ": " ++ e.text))
  | .ok _ => pure object

def rowToReplica (c : Crates) (r : Row ReplicaColumn F64) :
    Except (Sql.Error ReplicaColumn) Replica := do
  let rid ← getText r .replicaId
  let oid ← getText r .objectId
  let backend ← getText r .backend
  let key ← getText r .key
  let kind ← getText r .kind
  let hash ← getText r .contentHash
  let replica : Replica := {
    replicaId := ← decodeUuid c rid "replicas.replica_id"
    objectId := ← decodeUuid c oid "replicas.object_id"
    generation := ← getU64 r .generation "replicas.generation"
    location := { backend := backend, key := key, kind := ← decodeKind kind }
    size := ← getU64 r .size "replicas.size"
    contentHash := ← decodeHash hash "replicas.content_hash"
    createdAtMs := ← getInteger r .createdAtMs
    verifiedAtMs := ← optional r .verifiedAtMs getInteger
    valid := ← getBool r .valid "replicas.valid"
    ownerNode := ← optional r .ownerNode getText }
  match Store.validateReplicaDescriptor replica with
  | .error e =>
    throw (.invalidParameterName ("corrupt replica " ++ replica.replicaId.text ++ ": " ++ e.text))
  | .ok _ => pure replica

/-! ## what a column is read as -/

section
variable {κ : Type} {row : Row κ F64} {col : κ} {field : String}

theorem getU64_ok {n : Nat} : getU64 row col field = .ok n ↔ row col = .integer n := by
  rw [getU64, bind_ok]
  simp only [getInteger_ok, decodeU64_ok]
  constructor
  · rintro ⟨_, h, rfl⟩
    exact h
  · intro h
    exact ⟨_, h, rfl⟩

theorem getOptionalU64_ok {n : Option Nat} : getOptionalU64 row col field = .ok n ↔
    row col = ofOption .integer (n.map Int.ofNat) := by
  rw [getOptionalU64, bind_ok]
  simp only [optionalInteger_ok, decodeOptionalU64_ok]
  constructor
  · rintro ⟨_, h, rfl⟩
    exact h
  · intro h
    exact ⟨_, h, rfl⟩

theorem getU32_ok {n : Nat} :
    getU32 row col field = .ok n ↔ row col = .integer n ∧ n < 2 ^ 32 := by
  rw [getU32, bind_ok]
  simp only [getInteger_ok, decodeU32_ok]
  constructor
  · rintro ⟨_, h, rfl, hn⟩
    exact ⟨h, hn⟩
  · rintro ⟨h, hn⟩
    exact ⟨_, h, rfl, hn⟩

theorem getBool_ok {b : Bool} :
    getBool row col field = .ok b ↔ row col = .integer (boolInt b) := by
  rw [getBool, bind_ok]
  simp only [getInteger_ok, decodeBool_ok]
  constructor
  · rintro ⟨_, h, rfl⟩
    exact h
  · intro h
    exact ⟨_, h, rfl⟩

end

/-! ## objects -/

/-- the row of an object -/
def objectRow (c : Crates) (o : ReclaimObject) : Row ObjectColumn F64
  | .id => .text o.id.text
  | .generation => .integer o.generation
  | .className => .text o.className
  | .logicalSize => .integer o.logicalSize
  | .physicalSize => .integer o.physicalSize
  | .compressedSize => ofOption .integer (o.compressedSize.map Int.ofNat)
  | .createdAtMs => .integer o.createdAtMs
  | .lastAccessMs => .integer o.lastAccessMs
  | .accessCount => .integer o.accessCount
  | .reuseProbability => .real o.reuseProbability
  | .reuseHorizonSecs => ofOption .integer (o.reuseHorizonSecs.map Int.ofNat)
  | .recomputeCost => ofOption .real o.recomputeCost
  | .recomputeLatencySecs => ofOption .real o.recomputeLatencySecs
  | .transferCost => ofOption .real o.transferCost
  | .migrationCost => ofOption .real o.migrationCost
  | .storageCostPerByteSec => .real o.storageCostPerByteSec
  | .memoryCostPerByteSec => .real o.memoryCostPerByteSec
  | .replicationCount => .integer o.replicationCount
  | .durabilityClass => .text (duraStr o.durabilityClass)
  | .survivabilityClass => .text (survStr o.survivabilityClass)
  | .owner => .text o.owner
  | .contentHash => ofOption .text (o.contentHash.map ContentHash.text)
  | .lifecycleState => .text o.lifecycleState.asStr
  | .policyVersion => .text o.policyVersion
  | .decisionEpoch => .integer o.decisionEpoch
  | .pinned => .integer (boolInt o.pinned)
  | .isProtected => .integer (boolInt o.isProtected)
  | .minRetentionDeadlineMs => ofOption .integer o.minRetentionDeadlineMs
  | .maxRetentionDeadlineMs => ofOption .integer o.maxRetentionDeadlineMs
  | .appMetadata => .text (c.metadataText o.appMetadata)

section
variable {c : Crates} {o : ReclaimObject} {row : Row ObjectColumn F64}

/-- every parameter is in the place of its column -/
theorem insertRow_object : insertRow objectColumns (objectValues c o) = objectRow c o := by
  funext col
  cases col <;> rfl

/-- the UPDATE numbers the same parameters, and leaves the id -/
theorem setRow_object (hid : row .id = .text o.id.text) :
    setRow objectAssignments (objectValues c o) row = objectRow c o := by
  funext col
  cases col with
  | id => exact hid
  | _ => rfl

/-- the row reads as `o` -/
structure ReadsObject (c : Crates) (row : Row ObjectColumn F64) (o : ReclaimObject) : Prop where
  discrete : ∀ col, col.discrete = true → row col = objectRow c o col
  uuid : c.parseUuid o.id.text = .ok o.id
  replicas : o.replicationCount < 2 ^ 32
  reuseProbability : getF64 row .reuseProbability c = .ok o.reuseProbability
  recomputeCost : getOptionalF64 row .recomputeCost c = .ok o.recomputeCost
  recomputeLatencySecs :
    getOptionalF64 row .recomputeLatencySecs c = .ok o.recomputeLatencySecs
  transferCost : getOptionalF64 row .transferCost c = .ok o.transferCost
  migrationCost : getOptionalF64 row .migrationCost c = .ok o.migrationCost
  storageCostPerByteSec : getF64 row .storageCostPerByteSec c = .ok o.storageCostPerByteSec
  memoryCostPerByteSec : getF64 row .memoryCostPerByteSec c = .ok o.memoryCostPerByteSec
  appMetadata : ∃ text, row .appMetadata = .text text ∧ c.parseMetadata text = .ok o.appMetadata

theorem readsObject_of_ok (h : rowToObject c row = .ok o) :
    ReadsObject c row o ∧ o.validate = .ok () := by
  unfold rowToObject at h
  obtain ⟨_, hid, h⟩ := bind_ok.mp h
  obtain ⟨_, hclass, h⟩ := bind_ok.mp h
  obtain ⟨_, hhash, h⟩ := bind_ok.mp h
  obtain ⟨_, hstate, h⟩ := bind_ok.mp h
  obtain ⟨_, hdura, h⟩ := bind_ok.mp h
  obtain ⟨_, hsurv, h⟩ := bind_ok.mp h
  obtain ⟨_, hmeta, h⟩ := bind_ok.mp h
  obtain ⟨_, hparse, h⟩ := bind_ok.mp h
  obtain ⟨_, huuid, h⟩ := bind_ok.mp h
  obtain ⟨_, hgen, h⟩ := bind_ok.mp h
  obtain ⟨_, hlogical, h⟩ := bind_ok.mp h
  obtain ⟨_, hphysical, h⟩ := bind_ok.mp h
  obtain ⟨_, hcompressed, h⟩ := bind_ok.mp h
  obtain ⟨_, hcreated, h⟩ := bind_ok.mp h
  obtain ⟨_, haccess, h⟩ := bind_ok.mp h
  obtain ⟨_, hcount, h⟩ := bind_ok.mp h
  obtain ⟨_, hprob, h⟩ := bind_ok.mp h
  obtain ⟨_, hhorizon, h⟩ := bind_ok.mp h
  obtain ⟨_, hrecompute, h⟩ := bind_ok.mp h
  obtain ⟨_, hlatency, h⟩ := bind_ok.mp h
  obtain ⟨_, htransfer, h⟩ := bind_ok.mp h
  obtain ⟨_, hmigration, h⟩ := bind_ok.mp h
  obtain ⟨_, hstorage, h⟩ := bind_ok.mp h
  obtain ⟨_, hmemory, h⟩ := bind_ok.mp h
  obtain ⟨_, hrep, h⟩ := bind_ok.mp h
  obtain ⟨_, hdurability, h⟩ := bind_ok.mp h
  obtain ⟨_, hsurvivability, h⟩ := bind_ok.mp h
  obtain ⟨_, howner, h⟩ := bind_ok.mp h
  obtain ⟨_, hcontent, h⟩ := bind_ok.mp h
  obtain ⟨_, hlifecycle, h⟩ := bind_ok.mp h
  obtain ⟨_, hpolicy, h⟩ := bind_ok.mp h
  obtain ⟨_, hepoch, h⟩ := bind_ok.mp h
  obtain ⟨_, hpinned, h⟩ := bind_ok.mp h
  obtain ⟨_, hprot, h⟩ := bind_ok.mp h
  obtain ⟨_, hmin, h⟩ := bind_ok.mp h
  obtain ⟨_, hmax, h⟩ := bind_ok.mp h
  change (match ReclaimObject.validate _ with | .error e => _ | .ok _ => _) = _ at h
  split at h
  · cases h
  · next hv =>
    cases h
    obtain ⟨rfl, hcanonical⟩ := decodeUuid_ok.mp huuid
    obtain ⟨hcopies, hrange⟩ := getU32_ok.mp hrep
    obtain rfl := decodeDurability_ok.mp hdurability
    obtain rfl := decodeSurvivability_ok.mp hsurvivability
    obtain rfl := decodeOptionalHash_ok.mp hcontent
    obtain rfl := decodeState_ok.mp hlifecycle
    refine ⟨⟨?_, hcanonical, hrange, hprob, hrecompute, hlatency, htransfer, hmigration, hstorage,
      hmemory, _, getText_ok.mp hmeta, decodeMetadata_ok.mp hparse⟩, hv⟩
    intro col hcol
    cases col with
    | id => exact getText_ok.mp hid
    | generation => exact getU64_ok.mp hgen
    | className => exact getText_ok.mp hclass
    | logicalSize => exact getU64_ok.mp hlogical
    | physicalSize => exact getU64_ok.mp hphysical
    | compressedSize => exact getOptionalU64_ok.mp hcompressed
    | createdAtMs => exact getInteger_ok.mp hcreated
    | lastAccessMs => exact getInteger_ok.mp haccess
    | accessCount => exact getU64_ok.mp hcount
    | reuseHorizonSecs => exact getOptionalU64_ok.mp hhorizon
    | replicationCount => exact hcopies
    | durabilityClass => exact getText_ok.mp hdura
    | survivabilityClass => exact getText_ok.mp hsurv
    | owner => exact getText_ok.mp howner
    | contentHash => exact optionalText_ok.mp hhash
    | lifecycleState => exact getText_ok.mp hstate
    | policyVersion => exact getText_ok.mp hpolicy
    | decisionEpoch => exact getU64_ok.mp hepoch
    | pinned => exact getBool_ok.mp hpinned
    | isProtected => exact getBool_ok.mp hprot
    | minRetentionDeadlineMs => exact optionalInteger_ok.mp hmin
    | maxRetentionDeadlineMs => exact optionalInteger_ok.mp hmax
    | _ => cases hcol

theorem rowToObject_of_reads (h : ReadsObject c row o) (hv : o.validate = .ok ()) :
    rowToObject c row = .ok o := by
  obtain ⟨text, hmeta, hparse⟩ := h.appMetadata
  unfold rowToObject
  refine bind_ok.mpr ⟨_, getText_ok.mpr (h.discrete .id rfl), ?_⟩
  refine bind_ok.mpr ⟨_, getText_ok.mpr (h.discrete .className rfl), ?_⟩
  refine bind_ok.mpr ⟨_, optionalText_ok.mpr (h.discrete .contentHash rfl), ?_⟩
  refine bind_ok.mpr ⟨_, getText_ok.mpr (h.discrete .lifecycleState rfl), ?_⟩
  refine bind_ok.mpr ⟨_, getText_ok.mpr (h.discrete .durabilityClass rfl), ?_⟩
  refine bind_ok.mpr ⟨_, getText_ok.mpr (h.discrete .survivabilityClass rfl), ?_⟩
  refine bind_ok.mpr ⟨_, getText_ok.mpr hmeta, ?_⟩
  refine bind_ok.mpr ⟨_, decodeMetadata_ok.mpr hparse, ?_⟩
  refine bind_ok.mpr ⟨_, decodeUuid_ok.mpr ⟨rfl, h.uuid⟩, ?_⟩
  refine bind_ok.mpr ⟨_, getU64_ok.mpr (h.discrete .generation rfl), ?_⟩
  refine bind_ok.mpr ⟨_, getU64_ok.mpr (h.discrete .logicalSize rfl), ?_⟩
  refine bind_ok.mpr ⟨_, getU64_ok.mpr (h.discrete .physicalSize rfl), ?_⟩
  refine bind_ok.mpr ⟨_, getOptionalU64_ok.mpr (h.discrete .compressedSize rfl), ?_⟩
  refine bind_ok.mpr ⟨_, getInteger_ok.mpr (h.discrete .createdAtMs rfl), ?_⟩
  refine bind_ok.mpr ⟨_, getInteger_ok.mpr (h.discrete .lastAccessMs rfl), ?_⟩
  refine bind_ok.mpr ⟨_, getU64_ok.mpr (h.discrete .accessCount rfl), ?_⟩
  refine bind_ok.mpr ⟨_, h.reuseProbability, ?_⟩
  refine bind_ok.mpr ⟨_, getOptionalU64_ok.mpr (h.discrete .reuseHorizonSecs rfl), ?_⟩
  refine bind_ok.mpr ⟨_, h.recomputeCost, ?_⟩
  refine bind_ok.mpr ⟨_, h.recomputeLatencySecs, ?_⟩
  refine bind_ok.mpr ⟨_, h.transferCost, ?_⟩
  refine bind_ok.mpr ⟨_, h.migrationCost, ?_⟩
  refine bind_ok.mpr ⟨_, h.storageCostPerByteSec, ?_⟩
  refine bind_ok.mpr ⟨_, h.memoryCostPerByteSec, ?_⟩
  refine bind_ok.mpr ⟨_, getU32_ok.mpr ⟨h.discrete .replicationCount rfl, h.replicas⟩, ?_⟩
  refine bind_ok.mpr ⟨_, decodeDurability_ok.mpr rfl, ?_⟩
  refine bind_ok.mpr ⟨_, decodeSurvivability_ok.mpr rfl, ?_⟩
  refine bind_ok.mpr ⟨_, getText_ok.mpr (h.discrete .owner rfl), ?_⟩
  refine bind_ok.mpr ⟨_, decodeOptionalHash_ok.mpr rfl, ?_⟩
  refine bind_ok.mpr ⟨_, decodeState_ok.mpr rfl, ?_⟩
  refine bind_ok.mpr ⟨_, getText_ok.mpr (h.discrete .policyVersion rfl), ?_⟩
  refine bind_ok.mpr ⟨_, getU64_ok.mpr (h.discrete .decisionEpoch rfl), ?_⟩
  refine bind_ok.mpr ⟨_, getBool_ok.mpr (h.discrete .pinned rfl), ?_⟩
  refine bind_ok.mpr ⟨_, getBool_ok.mpr (h.discrete .isProtected rfl), ?_⟩
  refine bind_ok.mpr ⟨_, optionalInteger_ok.mpr (h.discrete .minRetentionDeadlineMs rfl), ?_⟩
  refine bind_ok.mpr ⟨_, optionalInteger_ok.mpr (h.discrete .maxRetentionDeadlineMs rfl), ?_⟩
  show (match o.validate with | .error e => _ | .ok _ => _) = _
  rw [hv]
  rfl

theorem rowToObject_ok :
    rowToObject c row = .ok o ↔ ReadsObject c row o ∧ o.validate = .ok () :=
  ⟨readsObject_of_ok, fun ⟨h, hv⟩ => rowToObject_of_reads h hv⟩

/-- what `objectRow` writes reads as the object, doubles included -/
theorem readsObject_objectRow (huuid : c.parseUuid o.id.text = .ok o.id)
    (hmeta : c.parseMetadata (c.metadataText o.appMetadata) = .ok o.appMetadata)
    (hrep : o.replicationCount < 2 ^ 32) : ReadsObject c (objectRow c o) o where
  discrete _ _ := rfl
  uuid := huuid
  replicas := hrep
  reuseProbability := getReal_of_real rfl
  recomputeCost := optionalReal_of_real rfl
  recomputeLatencySecs := optionalReal_of_real rfl
  transferCost := optionalReal_of_real rfl
  migrationCost := optionalReal_of_real rfl
  storageCostPerByteSec := getReal_of_real rfl
  memoryCostPerByteSec := getReal_of_real rfl
  appMetadata := ⟨_, rfl, hmeta⟩

end

/-! ## replicas -/

/-- the row of a replica -/
def replicaRow (r : Replica) : Row ReplicaColumn F64
  | .replicaId => .text r.replicaId.text
  | .objectId => .text r.objectId.text
  | .generation => .integer r.generation
  | .backend => .text r.location.backend
  | .key => .text r.location.key
  | .kind => .text r.location.kind.asStr
  | .size => .integer r.size
  | .contentHash => .text r.contentHash.text
  | .createdAtMs => .integer r.createdAtMs
  | .verifiedAtMs => ofOption .integer r.verifiedAtMs
  | .valid => .integer (boolInt r.valid)
  | .ownerNode => ofOption .text r.ownerNode

section
variable {c : Crates} {r : Replica} {row : Row ReplicaColumn F64}

theorem insertRow_replica : insertRow replicaColumns (replicaValues r) = replicaRow r := by
  funext col
  cases col <;> rfl

/-- no column of a replica is a double or a JSON text, so the row is the one that is written -/
structure ReadsReplica (c : Crates) (row : Row ReplicaColumn F64) (r : Replica) : Prop where
  columns : row = replicaRow r
  replica : c.parseUuid r.replicaId.text = .ok r.replicaId
  object : c.parseUuid r.objectId.text = .ok r.objectId

theorem readsReplica_of_ok (h : rowToReplica c row = .ok r) :
    ReadsReplica c row r ∧ Store.validateReplicaDescriptor r = .ok () := by
  unfold rowToReplica at h
  obtain ⟨_, hrid, h⟩ := bind_ok.mp h
  obtain ⟨_, hoid, h⟩ := bind_ok.mp h
  obtain ⟨_, hbackend, h⟩ := bind_ok.mp h
  obtain ⟨_, hkey, h⟩ := bind_ok.mp h
  obtain ⟨_, hkind, h⟩ := bind_ok.mp h
  obtain ⟨_, hhash, h⟩ := bind_ok.mp h
  obtain ⟨_, hreplica, h⟩ := bind_ok.mp h
  obtain ⟨_, hobject, h⟩ := bind_ok.mp h
  obtain ⟨_, hgen, h⟩ := bind_ok.mp h
  obtain ⟨_, hplace, h⟩ := bind_ok.mp h
  obtain ⟨_, hsize, h⟩ := bind_ok.mp h
  obtain ⟨_, hcontent, h⟩ := bind_ok.mp h
  obtain ⟨_, hcreated, h⟩ := bind_ok.mp h
  obtain ⟨_, hverified, h⟩ := bind_ok.mp h
  obtain ⟨_, hvalid, h⟩ := bind_ok.mp h
  obtain ⟨_, howner, h⟩ := bind_ok.mp h
  change (match Store.validateReplicaDescriptor _ with | .error e => _ | .ok _ => _) = _ at h
  split at h
  · cases h
  · next hv =>
    cases h
    obtain ⟨rfl, hcanonical⟩ := decodeUuid_ok.mp hreplica
    obtain ⟨rfl, hparent⟩ := decodeUuid_ok.mp hobject
    obtain rfl := decodeKind_ok.mp hplace
    obtain rfl := decodeHash_ok.mp hcontent
    refine ⟨⟨funext ?_, hcanonical, hparent⟩, hv⟩
    intro col
    cases col with
    | replicaId => exact getText_ok.mp hrid
    | objectId => exact getText_ok.mp hoid
    | generation => exact getU64_ok.mp hgen
    | backend => exact getText_ok.mp hbackend
    | key => exact getText_ok.mp hkey
    | kind => exact getText_ok.mp hkind
    | size => exact getU64_ok.mp hsize
    | contentHash => exact getText_ok.mp hhash
    | createdAtMs => exact getInteger_ok.mp hcreated
    | verifiedAtMs => exact optionalInteger_ok.mp hverified
    | valid => exact getBool_ok.mp hvalid
    | ownerNode => exact optionalText_ok.mp howner

theorem rowToReplica_of_reads (h : ReadsReplica c row r)
    (hv : Store.validateReplicaDescriptor r = .ok ()) : rowToReplica c row = .ok r := by
  obtain ⟨rfl, hreplica, hobject⟩ := h
  unfold rowToReplica
  refine bind_ok.mpr ⟨_, getText_ok.mpr rfl, ?_⟩
  refine bind_ok.mpr ⟨_, getText_ok.mpr rfl, ?_⟩
  refine bind_ok.mpr ⟨_, getText_ok.mpr rfl, ?_⟩
  refine bind_ok.mpr ⟨_, getText_ok.mpr rfl, ?_⟩
  refine bind_ok.mpr ⟨_, getText_ok.mpr rfl, ?_⟩
  refine bind_ok.mpr ⟨_, getText_ok.mpr rfl, ?_⟩
  refine bind_ok.mpr ⟨_, decodeUuid_ok.mpr ⟨rfl, hreplica⟩, ?_⟩
  refine bind_ok.mpr ⟨_, decodeUuid_ok.mpr ⟨rfl, hobject⟩, ?_⟩
  refine bind_ok.mpr ⟨_, getU64_ok.mpr rfl, ?_⟩
  refine bind_ok.mpr ⟨_, decodeKind_ok.mpr rfl, ?_⟩
  refine bind_ok.mpr ⟨_, getU64_ok.mpr rfl, ?_⟩
  refine bind_ok.mpr ⟨_, decodeHash_ok.mpr rfl, ?_⟩
  refine bind_ok.mpr ⟨_, getInteger_ok.mpr rfl, ?_⟩
  refine bind_ok.mpr ⟨_, optionalInteger_ok.mpr rfl, ?_⟩
  refine bind_ok.mpr ⟨_, getBool_ok.mpr rfl, ?_⟩
  refine bind_ok.mpr ⟨_, optionalText_ok.mpr rfl, ?_⟩
  show (match Store.validateReplicaDescriptor r with | .error e => _ | .ok _ => _) = _
  rw [hv]
  rfl

end

end ReclaimFabric
