import ReclaimFabric.Model.Store

/-!
# Journal payloads

The pure part of `recovery.rs`: what a reclaim writes into its journal row (`journalPayload`),
the strict decoder (`parseJournalPayload`), the physical plan that is added when execution starts
(`withPhysicalDeletions`) and the identity checks recovery makes before it acts on an entry.
-/

namespace ReclaimFabric

/-- a strictly decoded payload; `physicalReplicaDeletions` is `none` before physical execution -/
structure ParsedJournalPayload where
  priorObject : ReclaimObject
  replicaDeletions : List Replica
  physicalReplicaDeletions : Option (List Replica)
  archiveDeletions : List ArchiveRecord

/-- `recovery::journal_payload` -/
def journalPayload (prior : ReclaimObject) (deletions : List Replica)
    (archiveDeletions : List ArchiveRecord) : JournalPayload :=
  .object ⟨.value prior, .value deletions, .value none, .value archiveDeletions⟩

/-- a required field of a journal payload -/
def requireField {α : Type} (name : String) : Field α → Res α
  | .missing => .error (.recovery ("journal payload missing required " ++ quoted name ++ " field"))
  | .malformed why => .error (.recovery ("invalid " ++ name ++ ": " ++ why))
  | .value a => .ok a

/-- `recovery::parse_journal_payload` -/
def parseJournalPayload : JournalPayload → Res ParsedJournalPayload
  | .notObject => .error (.recovery "journal payload must be a JSON object")
  | .object f => do
    let prior ← requireField "prior_object" f.priorObject
    match prior.validate with
    | .error e => throw (.recovery ("invalid prior_object: " ++ e.text))
    | .ok () => pure ()
    let deletions ← requireField "replica_deletions" f.replicaDeletions
    let physical ← requireField "physical_replica_deletions" f.physicalReplicaDeletions
    let archives ← requireField "archive_deletions" f.archiveDeletions
    pure ⟨prior, deletions, physical, archives⟩

/-- `recovery::parse_journal_deletions` -/
def parseJournalDeletions (p : JournalPayload) :
    Res (List Replica × List Replica × List ArchiveRecord) := do
  let parsed ← parseJournalPayload p
  match parsed.physicalReplicaDeletions with
  | none => throw (.recovery "physical journal phase has no durable physical deletion plan")
  | some physical => pure (parsed.replicaDeletions, physical, parsed.archiveDeletions)

/-- `recovery::validate_physical_subset`, after the identifiers in `seen` -/
def validatePhysicalSubset (scheduled : List Replica) : List Replica → List Uuid → Res Unit
  | [], _ => .ok ()
  | r :: rs, seen =>
    if r.replicaId ∈ seen then
      .error (.recovery s!"duplicate physical replica deletion {r.replicaId}")
    else if r ∉ scheduled then
      .error (.recovery
        s!"physical replica deletion {r.replicaId} is not an exact scheduled descriptor")
    else validatePhysicalSubset scheduled rs (r.replicaId :: seen)

/-- put a plan into a payload object -/
def JournalPayload.setPhysical (p : JournalPayload) (plan : List Replica) : JournalPayload :=
  match p with
  | .notObject => .notObject
  | .object f => .object { f with physicalReplicaDeletions := .value (some plan) }

/-- `recovery::with_physical_deletions` -/
def withPhysicalDeletions (p : JournalPayload) (plan : List Replica) : Res JournalPayload := do
  let parsed ← parseJournalPayload p
  if parsed.physicalReplicaDeletions.isSome then
    throw (.recovery "journal physical deletion plan is already set")
  validatePhysicalSubset parsed.replicaDeletions plan []
  pure (p.setPhysical plan)

/-- the null marker older pre-physical journals lack -/
def JournalPayload.compatible (p : JournalPayload) : JournalPayload :=
  match p with
  | .object ⟨a, b, .missing, d⟩ => .object ⟨a, b, .value none, d⟩
  | p => p

/-! ## identity of an entry and its payload -/

/-- the replica part of `validate_payload_identity` -/
def checkReplicas (e : JournalEntry) : List Replica → List Uuid → Res Unit
  | [], _ => .ok ()
  | r :: rs, seen =>
    if r.objectId ≠ e.objectId ∨ r.generation ≠ e.generation then
      .error (.recovery (s!"journal {e.attemptId} replica {r.replicaId} belongs to " ++
        s!"{r.objectId}/{r.generation}, expected {e.objectId}/{e.generation}"))
    else if r.replicaId ∈ seen then
      .error (.recovery
        s!"journal {e.attemptId} contains duplicate replica deletion {r.replicaId}")
    else if r.location.backend = "" ∨ r.location.key = "" then
      .error (.recovery
        s!"journal {e.attemptId} replica {r.replicaId} has an empty backend or key")
    else checkReplicas e rs (r.replicaId :: seen)

/-- the archive part of `validate_payload_identity` -/
def checkArchives (e : JournalEntry) : List ArchiveRecord → List String → Res Unit
  | [], _ => .ok ()
  | a :: as, seen =>
    if a.objectId ≠ e.objectId ∨ a.generation ≠ e.generation then
      .error (.recovery (s!"journal {e.attemptId} archive {a.archiveId} belongs to " ++
        s!"{a.objectId}/{a.generation}, expected {e.objectId}/{e.generation}"))
    else if a.archiveId ∈ seen then
      .error (.recovery
        s!"journal {e.attemptId} contains duplicate archive deletion {a.archiveId}")
    else if a.archiveId = "" ∨ a.backend = "" ∨ a.key = "" then
      .error (.recovery (s!"journal {e.attemptId} contains an archive deletion with an empty " ++
        "id, backend, or key"))
    else checkArchives e as (a.archiveId :: seen)

/-- `recovery::validate_payload_identity` -/
def validatePayloadIdentity (e : JournalEntry) (p : ParsedJournalPayload) : Res Unit := do
  if p.priorObject.id ≠ e.objectId ∨ p.priorObject.generation ≠ e.generation then
    throw (.recovery (s!"journal {e.attemptId} prior object identity " ++
      s!"{p.priorObject.id}/{p.priorObject.generation} does not match journal " ++
      s!"{e.objectId}/{e.generation}"))
  checkReplicas e p.replicaDeletions []
  match p.physicalReplicaDeletions with
  | none => pure ()
  | some plan =>
    match validatePhysicalSubset p.replicaDeletions plan [] with
    | .ok () => pure ()
    | .error err => throw (.recovery
        (s!"journal {e.attemptId} has invalid physical deletion plan: " ++ err.text))
  checkArchives e p.archiveDeletions []

end ReclaimFabric
