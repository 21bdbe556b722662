import ReclaimFabric.Model.Coordinator.Reclaim

/-!
# Coordinator: compress, archive, restore and verify

The operations that move an object between storage tiers.  Each writes or attaches the new
payload first, then changes the ownership rows in one locked section, and undoes the rows that
were changed when a later one fails.
-/

namespace ReclaimFabric

structure CompressionResult where
  codec : String
  originalSize : Nat
  compressedSize : Nat
  originalHash : ContentHash
  compressedHash : ContentHash

namespace Coordinator

open Prog (attempt settle)

def compressionOriginalSizeKey : String :=
  "reclaim_fabric.internal.compression_original_size"

section
variable (env : Env)

/-- `ZstdCodec::decompress_bounded` -/
def decompressBounded (data : Bytes) (maxOutput : Nat) : Res Bytes := do
  let output ← env.zstdDecode data
  if output.length > maxOutput then
    throw (.decompressionFailure
      s!"zstd decompressed payload exceeds {maxOutput} byte limit")
  pure output

/-- `compression::compress_verified_with_bytes` -/
def compressVerified (data : Bytes) : Res (Bytes × CompressionResult) := do
  let compressed ← env.zstdEncode data
  let roundtrip ← decompressBounded env compressed data.length
  if roundtrip ≠ data then
    throw (.compressionFailure "compression round-trip produced different payload")
  pure (compressed, ⟨"zstd", data.length, compressed.length, env.sha256 data,
    env.sha256 compressed⟩)

/-! ## compress -/

/-- where the compressed payload goes, and whether it has to be written -/
def compressedTarget (b sourceKey : String) (h : ContentHash) (existing : Option DedupEntry) :
    M (String × Bool) := do
  match existing with
  | some entry =>
    if entry.refCount = 0 then
      throw (.dedup s!"zero-reference dedup row for {h} on {b}")
    let canonical ← readPayload b entry.key
    settle (env.verifySha256 canonical h)
    pure (entry.key, false)
  | none => pure (sourceKey ++ "-zstd", true)

/-- write the compressed payload, removing what a failed write left -/
def writeCompressed (b key : String) (data : Bytes) : M Unit := do
  match ← attempt (writePayloadTo env b key data) with
  | .ok () => pure ()
  | .error e =>
    match ← attempt (deletePayload b key) with
    | .ok () => throw e
    | .error cleanup => throw (.internal (s!"compressed payload write failed ({e}); partial " ++
        s!"payload cleanup also failed ({cleanup})"))

/-- the dedup row of the source payload (`none` for the empty payload) -/
def sourceDedup (primary : Replica) (newKey : String) (wrote : Bool) : M (Option DedupEntry) := do
  let b := primary.location.backend
  if primary.contentHash = emptyHash env then
    pure none
  else
    match ← inner (.getDedup primary.contentHash b) with
    | none => throw (.dedup s!"missing source dedup row for {primary.contentHash} on {b}")
    | some entry =>
      if entry.key ≠ primary.location.key then
        if wrote then
          let _ ← attempt (deletePayload b newKey)
        throw (.dedup (s!"source dedup key {entry.key} disagrees with replica key " ++
          s!"{primary.location.key}"))
      pure (some entry)

/-- how far the metadata section of compress got -/
structure CompressProgress where
  newRefRecorded : Bool := false
  oldRefReleased : Bool := false
  oldReplicaDeleted : Bool := false
  newReplicaAdded : Bool := false

/-- run a step; on failure stop with the progress made so far -/
def stage {α : Type} (p : CompressProgress) (x : M α) (k : α → M (CompressProgress × Res Unit)) :
    M (CompressProgress × Res Unit) := do
  match ← attempt x with
  | .error e => pure (p, .error e)
  | .ok a => k a

/-- the metadata section of compress; a failure is reported with the progress flags -/
def compressMetadata (primary new : Replica) (existingNew oldDedup : Option DedupEntry)
    (updated : ReclaimObject) (audit : AuditEntry) : M (CompressProgress × Res Unit) :=
  let b := primary.location.backend
  let rows (p : CompressProgress) : M (CompressProgress × Res Unit) :=
    stage p (store (.deleteReplica primary.replicaId)) fun _ =>
      let p := { p with oldReplicaDeleted := true }
      stage p (store (.addReplica new)) fun _ =>
        let p := { p with newReplicaAdded := true }
        stage p (store (.updateObjectWithAudit updated audit)) fun _ => pure (p, .ok ())
  if primary.contentHash ≠ new.contentHash then
    let record : M Unit :=
      if existingNew.isSome then store (.dedupAcquire new.contentHash b)
      else store (.insertDedup ⟨new.contentHash, b, new.location.key, 1, new.size⟩)
    stage {} record fun _ =>
      let p : CompressProgress := { newRefRecorded := true }
      if oldDedup.isSome then
        stage p (store (.dedupRelease primary.contentHash b)) fun _ =>
          rows { p with oldRefReleased := true }
      else rows p
  else rows {}

/-- the reference of the source payload is acquired again, or its row is put back -/
def restoreSourceRef (oldDedup : Option DedupEntry) : M Unit := do
  match oldDedup with
  | none => throw (.dedup "missing source dedup rollback snapshot")
  | some old =>
    if (← store (.getDedup old.contentHash old.backend)).isSome then
      store (.dedupAcquire old.contentHash old.backend)
    else store (.insertDedup old)

/-- the locked part of the compensation of compress -/
def undoCompress (p : CompressProgress) (primary new : Replica) (oldDedup : Option DedupEntry) :
    M Unit := do
  if p.newReplicaAdded then
    store (.deleteReplica new.replicaId)
  if p.oldReplicaDeleted then
    store (.addReplica primary)
  if p.oldRefReleased then
    restoreSourceRef oldDedup
  if p.newRefRecorded then
    let _ ← store (.dedupRelease new.contentHash primary.location.backend)

/-- the object row of a compressed object -/
def compressedObject (o : ReclaimObject) (r : CompressionResult) : ReclaimObject :=
  { o with
    compressedSize := some r.compressedSize, lifecycleState := .compressed,
    physicalSize := r.compressedSize }.setMetadata compressionOriginalSizeKey
      (.nat r.originalSize)

/-- the metadata section with its compensation -/
def recordCompressed (primary new : Replica)
    (existingNew oldDedup : Option DedupEntry) (updated : ReclaimObject) (audit : AuditEntry)
    (wrote : Bool) : M Unit := do
  let b := primary.location.backend
  let (progress, result) ← withProgress
    (withInner (compressMetadata primary new existingNew oldDedup updated audit))
  match result with
  | .ok () => pure ()
  | .error e => do
    let cleanup ← attempt (withInner (undoCompress progress primary new oldDedup))
    if wrote then
      let _ ← attempt (deletePayload b new.location.key)
    match cleanup with
    | .ok () => throw e
    | .error c => throw (.internal
        s!"compression metadata failed ({e}); rollback also failed ({c})")
where
  /-- a section that does not start has made no progress -/
  withProgress (x : M (CompressProgress × Res Unit)) : M (CompressProgress × Res Unit) := do
    match ← attempt x with
    | .ok r => pure r
    | .error e => pure ({}, .error e)

/-- the part of compress that holds the payload guard -/
def compressGuarded (o : ReclaimObject) (actor : String) (primary : Replica) (data : Bytes)
    (result : CompressionResult) : M CompressionResult := do
  let b := primary.location.backend
  let h := env.sha256 data
  let existingNew ← inner (.getDedup h b)
  let (newKey, wrote) ← compressedTarget env b primary.location.key h existingNew
  let ownerNode ← nodeForBackend b
  if wrote then
    writeCompressed env b newKey data
  let oldDedup ← sourceDedup env primary newKey wrote
  let updated := compressedObject o result
  let replicaId ← ask .newUuid
  let createdAt ← nowMs
  let verifiedAt ← nowMs
  let new : Replica :=
    { replicaId := replicaId
      objectId := o.id
      generation := o.generation
      location := ⟨b, newKey, primary.location.kind⟩
      size := result.compressedSize
      contentHash := h
      createdAtMs := createdAt
      verifiedAtMs := some verifiedAt
      valid := true
      ownerNode := ownerNode }
  let ts ← nowMs
  let audit := auditOf ts actor "OBJECT_COMPRESSED" updated (some o.lifecycleState)
    (some updated.lifecycleState) none none
    (.obj [("codec", .str result.codec), ("original_size", .nat result.originalSize),
      ("compressed_size", .nat result.compressedSize), ("compressed_hash", .str h.text),
      ("key", .str newKey)])
  recordCompressed primary new existingNew oldDedup updated audit wrote
  if oldDedup.any (fun e => decide (e.refCount = 1)) ∧ primary.contentHash ≠ h then
    match ← attempt (deletePayload b primary.location.key) with
    | .ok () => pure ()
    | .error e => withInner do
      let ts ← nowMs
      store (.insertFailure ⟨ts, some o.id, none, "COMPRESSION_SOURCE_CLEANUP_FAILED", e.text,
        false⟩)
  pure result

/-- the replica compress reads -/
def compressPrimary (o : ReclaimObject) (replicas : List Replica) : Option Replica :=
  replicas.find? fun r =>
    r.valid && decide (r.location.kind ≠ .archived) &&
      (o.contentHash.map (fun h => decide (r.contentHash = h))).getD true

/-- `Coordinator::compress` -/
def compress (id : Uuid) (actor : String) : M CompressionResult :=
  withObject id do
    let o ← inner (.requireObject id)
    if o.lifecycleState = .compressed then
      throw (.invalidArgument "object is already COMPRESSED")
    if o.hasMetadata compressionOriginalSizeKey then
      throw (.invalidArgument ("application metadata key " ++ quoted compressionOriginalSizeKey ++
        " is reserved"))
    let _ ← settle (checkTransition o.lifecycleState .compressed)
    let replicas ← inner (.replicasFor id)
    match compressPrimary o replicas with
    | none => throw (.notFound s!"no live payload for {id}")
    | some primary => do
      let b := primary.location.backend
      let data ← readPayload b primary.location.key
      settle (env.verifySha256 data primary.contentHash)
      let (compressed, result) ← settle (compressVerified env data)
      if o.contentHash.any (fun h => decide (h ≠ result.originalHash)) then
        throw (.integrityFailure (s!"object content hash {(o.contentHash.getD result.originalHash)}" ++
          s!" does not match source replica {result.originalHash}"))
      withPayloads [(b, primary.contentHash), (b, env.sha256 compressed)]
        (compressGuarded env o actor primary compressed result)

/-! ## archive -/

def archiveWrite (b k : String) (data : Bytes) (h : ContentHash) : M Nat :=
  ExceptT.mk (.call (.archiveWrite b k data h) fun r => .ret r)

def archiveRead (b k : String) : M Bytes := ExceptT.mk (.call (.archiveRead b k) fun r => .ret r)

/-- the replica archive reads -/
def archivePrimary (o : ReclaimObject) (replicas : List Replica) : Option Replica :=
  replicas.find? fun r =>
    r.valid && decide (r.location.kind ≠ .archived) &&
      (if o.compressedSize.isSome then decide (o.contentHash ≠ some r.contentHash)
        else decide (o.contentHash = some r.contentHash))

/-- the persisted original length of a compressed object -/
def originalSize (o : ReclaimObject) : Option Nat :=
  (o.getMetadata compressionOriginalSizeKey).bind Json.asU64

/-- the first configured archive backend -/
def firstArchive : M ArchiveInfo := do
  ask .lock
  let c ← config
  ask .unlock
  match c.archives.head? with
  | none => throw (.archiveFailure "no archive backend configured")
  | some a => pure a

/-- record the archive row and the ARCHIVED state, undoing both on failure -/
def recordArchive (o : ReclaimObject) (actor : String) (archive : ArchiveInfo)
    (record : ArchiveRecord) : M ArchiveRecord := do
  match ← attempt (withInner (store (.insertArchive record))) with
  | .ok () => pure ()
  | .error e => do
    mapErr (fun cleanup => .internal
        s!"archive metadata insert failed ({e}); archive payload cleanup also failed ({cleanup})")
      (archiveDelete archive.id record.key)
    throw e
  let archived := { o with lifecycleState := .archived }
  match ← attempt (withInner do
      let ts ← nowMs
      store (.updateObjectWithAudit archived
        (auditOf ts actor "OBJECT_ARCHIVED" archived (some o.lifecycleState) (some .archived) none
          none (.obj [("archive_key", .str record.key), ("archive_id", .str record.archiveId),
            ("size", .nat record.size)])))) with
  | .ok () => pure record
  | .error e => do
    match ← attempt (withInner (store (.deleteArchive record.archiveId))) with
    | .error cleanup => throw (.internal (s!"archive object commit failed ({e}); archive-row " ++
        s!"cleanup also failed ({cleanup})"))
    | .ok () => do
      mapErr (fun cleanup => .internal (s!"archive object commit failed ({e}); archive payload " ++
          s!"cleanup also failed ({cleanup})"))
        (archiveDelete archive.id record.key)
      throw e

/-- `Coordinator::archive` -/
def archive (id : Uuid) (actor : String) : M ArchiveRecord :=
  withObject id do
    let o ← inner (.requireObject id)
    if o.lifecycleState = .archived then
      let as ← inner (.archivesFor id)
      match as.getLast? with
      | none => throw (.integrityFailure s!"object {id} is ARCHIVED without an archive record")
      | some a => pure a
    else do
      let _ ← settle (checkTransition o.lifecycleState .archived)
      let replicas ← inner (.replicasFor id)
      match archivePrimary o replicas with
      | none => throw (.notFound s!"no live payload for {id}")
      | some primary => do
        if o.compressedSize.isSome ∧ (originalSize o).isNone then
          throw (.integrityFailure
            s!"compressed object {id} has no valid persisted original byte length")
        let data ← readPayload primary.location.backend primary.location.key
        settle (env.verifySha256 data primary.contentHash)
        let h := env.sha256 data
        let backend ← firstArchive
        let key := s!"{o.id}/{o.generation}/gen{primary.replicaId}"
        let size ← archiveWrite backend.id key data h
        let archiveId ← ask .newUuid
        let createdAt ← nowMs
        recordArchive o actor backend
          ⟨archiveId.text, o.id, o.generation, backend.id, key, size, h, createdAt⟩

/-! ## restore -/

/-- the logical bytes of an archived blob -/
def restoredBytes (o : ReclaimObject) (record : ArchiveRecord) (archived : Bytes) :
    Res Bytes := do
  match o.contentHash with
  | some expected =>
    if o.compressedSize.isSome ∧ expected ≠ record.contentHash then
      match originalSize o with
      | none => throw (.integrityFailure
          s!"compressed object {o.id} has no valid persisted original byte length")
      | some size =>
        let restored ← decompressBounded env archived size
        if restored.length ≠ size then
          throw (.integrityFailure (s!"restored byte length {restored.length} does not match " ++
            s!"persisted original length {size}"))
        env.verifySha256 restored expected
        pure restored
    else do
      env.verifySha256 archived expected
      pure archived
  | none => pure archived

/-- the state of a restored object -/
def restoredObject (o : ReclaimObject) (physicalSize replicas : Nat) : ReclaimObject :=
  { o with
    lifecycleState := .warm, physicalSize := physicalSize, compressedSize := none,
    replicationCount := replicas }.removeMetadata compressionOriginalSizeKey

def restoredAudit (ts : Int) (actor : String) (o : ReclaimObject) (detail : Json) : AuditEntry :=
  auditOf ts actor "OBJECT_RESTORED" o (some .archived) (some .warm) none none detail

/-- the object still has its logical copy: a state transition only -/
def restoreExisting (o : ReclaimObject) (actor : String) (existing : Replica)
    (h : ContentHash) : M ReclaimObject := do
  let bytes ← readPayload existing.location.backend existing.location.key
  settle (env.verifySha256 bytes h)
  let n ← inner (.validReplicaCount o.id)
  let count ← settle (replicaCountU32 n)
  let restored := restoredObject o existing.size count
  withInner do
    store (.updateObject restored)
    let ts ← nowMs
    store (.appendAudit (restoredAudit ts actor o
      (.obj [("backend", .str existing.location.backend), ("key", .str existing.location.key),
        ("reused_existing", .bool true)])))
  pure restored

/-- memory backends before file backends, then by id -/
def hotBackendOf (c : Config) : Option String :=
  let candidates := c.backends.filterMap fun e =>
    if e.2.kind = "memory" then some (0, e.1)
    else if e.2.kind = "file" then some (1, e.1)
    else none
  ((candidates.insertionSort (fun (a b : Nat × String) =>
    if a.1 = b.1 then a.2 ≤ b.2 else a.1 ≤ b.1)).map Prod.snd).head?

def hotBackend : M String := do
  ask .lock
  let c ← config
  ask .unlock
  match hotBackendOf c with
  | none => throw (.backend "no hot backend configured")
  | some b => pure b

/-- `record.key.replace(['/', '\\'], "-")` -/
def flattenKey (k : String) : String :=
  String.ofList (k.toList.map fun c => if c = '/' ∨ c = '\\' then '-' else c)

/-- the key of the restored payload, and whether it was written -/
def restoreTarget (b : String) (h : ContentHash) (record : ArchiveRecord) (data : Bytes)
    (existing : Option DedupEntry) : M (String × Bool) := do
  match existing with
  | some entry =>
    if entry.refCount = 0 then
      throw (.dedup s!"zero-reference dedup row for {h} on {b}")
    let canonical ← readPayload b entry.key
    settle (env.verifySha256 canonical h)
    pure (entry.key, false)
  | none => do
    let key := flattenKey record.key ++ "-restored"
    writePayloadTo env b key data
    pure (key, true)

/-- how far the metadata section of restore got -/
structure RestoreProgress where
  dedupRecorded : Bool := false
  replicaRecorded : Bool := false
  objectUpdated : Bool := false

/-- the metadata section of restore; a failure is reported with the progress flags -/
def restoreMetadata (o : ReclaimObject) (actor : String) (replica : Replica)
    (existing : Option DedupEntry) : M (RestoreProgress × Res ReclaimObject) := do
  let b := replica.location.backend
  let record : M Unit :=
    if existing.isSome then store (.dedupAcquire replica.contentHash b)
    else store (.insertDedup ⟨replica.contentHash, b, replica.location.key, 1, replica.size⟩)
  match ← attempt record with
  | .error e => pure ({}, .error e)
  | .ok () =>
    let p : RestoreProgress := { dedupRecorded := true }
    match ← attempt (store (.addReplica replica)) with
    | .error e => pure (p, .error e)
    | .ok () =>
      let p := { p with replicaRecorded := true }
      match ← attempt (restoredRow) with
      | .error e => pure (p, .error e)
      | .ok restored =>
        let p := { p with objectUpdated := true }
        match ← attempt (restoredTrail) with
        | .error e => pure (p, .error e)
        | .ok () => pure (p, .ok restored)
where
  /-- count the valid replicas and write the object row -/
  restoredRow : M ReclaimObject := do
    let n ← store (.validReplicaCount o.id)
    let count ← settle (replicaCountU32 n)
    let restored := restoredObject o replica.size count
    store (.updateObject restored)
    pure restored
  restoredTrail : M Unit := do
    let ts ← nowMs
    store (.appendAudit (restoredAudit ts actor o
      (.obj [("backend", .str replica.location.backend), ("key", .str replica.location.key)])))

/-- the locked part of the compensation of restore: must the payload be deleted? -/
def undoRestore (p : RestoreProgress) (o : ReclaimObject) (replica : Replica) (wrote : Bool) :
    M Bool := do
  if p.objectUpdated then
    store (.updateObject o)
  if p.replicaRecorded then
    store (.deleteReplica replica.replicaId)
  if p.dedupRecorded then
    store (.dedupRelease replica.contentHash replica.location.backend)
  else pure wrote

/-- the part of restore that holds the payload guard -/
def restoreGuarded (o : ReclaimObject) (actor b : String) (record : ArchiveRecord)
    (data : Bytes) : M ReclaimObject := do
  let h := env.sha256 data
  let existing ← inner (.getDedup h b)
  let (key, wrote) ← restoreTarget env b h record data existing
  let replicaId ← ask .newUuid
  let createdAt ← nowMs
  let verifiedAt ← nowMs
  let ownerNode ← nodeForBackend b
  let replica : Replica :=
    { replicaId := replicaId
      objectId := o.id
      generation := o.generation
      location := ⟨b, key, .hot⟩
      size := data.length
      contentHash := h
      createdAtMs := createdAt
      verifiedAtMs := some verifiedAt
      valid := true
      ownerNode := ownerNode }
  let (progress, result) ← withProgress (withInner (restoreMetadata o actor replica existing))
  match result with
  | .ok restored => pure restored
  | .error e => do
    if ← withInner (undoRestore progress o replica wrote) then
      mapErr (fun cleanup => .internal
          s!"restore metadata failed ({e}); payload cleanup also failed ({cleanup})")
        (deletePayload b key)
    throw e
where
  /-- a section that does not start has made no progress -/
  withProgress (x : M (RestoreProgress × Res ReclaimObject)) :
      M (RestoreProgress × Res ReclaimObject) := do
    match ← attempt x with
    | .ok r => pure r
    | .error e => pure ({}, .error e)

/-- `Coordinator::restore` -/
def restore (id : Uuid) (actor : String) : M ReclaimObject :=
  withObject id do
    let o ← inner (.requireObject id)
    if o.lifecycleState ≠ .archived then
      throw (.invalidArgument s!"object {o.id} is not ARCHIVED")
    let as ← inner (.archivesFor id)
    match as.getLast? with
    | none => throw (.notFound s!"no archive record for {id}")
    | some record => do
      let backend ← lookupArchive record.backend (archiveUnavailable record.backend)
      let archived ← archiveRead backend.id record.key
      settle (env.verifySha256 archived record.contentHash)
      let data ← settle (restoredBytes env o record archived)
      let h := env.sha256 data
      let replicas ← inner (.replicasFor id)
      match replicas.find? (fun r =>
          r.valid && decide (r.location.kind ≠ .archived) && decide (r.contentHash = h)) with
      | some existing => restoreExisting env o actor existing h
      | none => do
        let b ← hotBackend
        withPayloads [(b, h)] (restoreGuarded env o actor b record data)

/-! ## verify -/

/-- mark the rows that share a corrupt payload -/
def invalidateAll : List Replica → M Unit
  | [] => pure ()
  | r :: rs => do
    store (.updateReplica { r with valid := false })
    invalidateAll rs

/-- the locked section for a payload that failed verification -/
def invalidateShared (o : ReclaimObject) (r : Replica) (e : ReclaimError) : M Unit :=
  withInner do
    let all ← store .allReplicas
    invalidateAll (all.filter fun x =>
      x.valid && decide (x.location.backend = r.location.backend) &&
        decide (x.location.key = r.location.key) && decide (x.contentHash = r.contentHash))
    let ts ← nowMs
    store (.insertFailure ⟨ts, some o.id, none, "INTEGRITY_FAILURE", e.text, false⟩)

/-- read one payload and compare its hash -/
def checkReplica (r : Replica) : M Unit := do
  let data ← readPayload r.location.backend r.location.key
  settle (env.verifySha256 data r.contentHash)

def verifyReplicas (o : ReclaimObject) : List Replica → List Json → M (List Json)
  | [], results => pure results
  | r :: rs, results => do
    match ← attempt (checkReplica env r) with
    | .ok () => do
      let now ← nowMs
      withInner (store (.updateReplica { r with verifiedAtMs := some now, valid := true }))
      verifyReplicas o rs
        (results ++ [.obj [("replica", .str r.replicaId.text), ("ok", .bool true)]])
    | .error e => do
      invalidateShared o r e
      verifyReplicas o rs (results ++ [.obj [("replica", .str r.replicaId.text),
        ("ok", .bool false), ("error", .str e.text)]])

/-- `Coordinator::verify` -/
def verify (id : Uuid) (actor : String) : M Json :=
  withObject id do
    let o ← inner (.requireObject id)
    let replicas ← inner (.replicasFor id)
    withPayloads (replicaKeys replicas) do
      let results ← verifyReplicas env o replicas []
      withInner do
        let ts ← nowMs
        store (.appendAudit (auditOf ts actor "OBJECT_VERIFIED" o none none none none
          (.obj [("results", .arr results)])))
      pure (.obj [("object_id", .str o.id.text), ("results", .arr results)])

end

end Coordinator

end ReclaimFabric
