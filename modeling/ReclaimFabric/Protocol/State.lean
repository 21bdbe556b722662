import ReclaimFabric.Logic.Pool
import ReclaimFabric.Logic.Tables

/-!
# What the threads know about the shared state

The vocabulary of the coordination protocol: who holds which guard, what of an object never
changes, what a journal row records, which keys belong to which content, and what has to hold of
an object that nobody holds.

* `Own`, `Pay`, `Recovering`   the guards of one thread;
* `ReclaimObject.immut`, `Replica.desc`   the parts of a row that no operation changes;
* `Snapshot`, `payloadOf`      the payload of a journal row;
* `Named`                      the content a payload key stands for;
* `Settled`                    what an operation leaves behind when it drops its object.

A `Regime` says which faults and inputs a group of results excludes; the definitions that take it
are conditional on its flags.
-/

set_option linter.unusedSectionVars false

namespace ReclaimFabric

/-! ## rows -/

namespace ReclaimObject

/-- the fields that no operation changes once the object is registered -/
def immut (o : ReclaimObject) : ReclaimObject :=
  { o with
    physicalSize := 0, compressedSize := none, lastAccessMs := 0, accessCount := 0,
    replicationCount := 0, lifecycleState := .created, pinned := false, isProtected := false,
    appMetadata := [] }

/-- there is a recomputation recipe, or nothing has to be reconstructed -/
def Recipe (o : ReclaimObject) : Prop :=
  o.durabilityClass = .ephemeral ∨ o.recomputeCost.isSome = true

/-- what the store has checked of every row -/
structure RowOk (o : ReclaimObject) : Prop where
  valid : o.validate = .ok ()
  columns : Store.checkObjectRow o = .ok ()
  hashed : o.lifecycleState ≠ .created → o.contentHash.isSome = true

end ReclaimObject

/-- the values that clients set: pinned, protected and the access count -/
structure Flags where
  pinned : Bool
  isProtected : Bool
  accessCount : Nat
deriving DecidableEq

def ReclaimObject.flags (o : ReclaimObject) : Flags := ⟨o.pinned, o.isProtected, o.accessCount⟩

/-- a replica row without the outcome of its last verification -/
def Replica.desc (r : Replica) : Replica := { r with valid := false, verifiedAtMs := none }

/-- the payload a replica row refers to, as the payload guards name it -/
def Replica.slot (r : Replica) : String × ContentHash := (r.location.backend, r.contentHash)

/-- the row says where the payload is -/
def Replica.Located (r : Replica) : Prop := r.location.backend ≠ "" ∧ r.location.key ≠ ""

def rowOf (w : Traced) (X : Uuid) : Option ReclaimObject := w.store.objects.find? X

/-- one of the archive backends of this start of the coordinator -/
def Configured (backend : String) (w : Traced) : Prop :=
  ∃ a ∈ w.proc.config.archives, a.id = backend

/-! ## guards -/

/-- the thread holds the object -/
def Own (t : Tid) (X : Uuid) (w : Traced) : Prop := (X, t) ∈ w.proc.activeObjects

/-- the thread holds the payload -/
def Pay (t : Tid) (k : String × ContentHash) (w : Traced) : Prop := (k, t) ∈ w.proc.activePayloads

/-- the thread runs recovery -/
def Recovering (t : Tid) (w : Traced) : Prop := w.proc.activeRecovery = some t

/-- nobody holds the object -/
def Unowned (X : Uuid) (w : Traced) : Prop := ∀ t, ¬Own t X w

/-- the coordinator is fenced -/
def Lost (w : Traced) : Prop := w.proc.authorityLost = true

/-! ## journal rows -/

/-- what a reclaim records before it changes anything -/
structure Snapshot where
  prior : ReclaimObject
  dels : List Replica
  archs : List ArchiveRecord

/-- the journal payload of a snapshot and, once there is one, its physical plan -/
def payloadOf (S : Snapshot) (plan : Option (List Replica)) : JournalPayload :=
  .object ⟨.value S.prior, .value S.dels, .value plan, .value S.archs⟩

/-- the phases with a durable physical plan -/
def JournalPhase.physical : JournalPhase → Bool
  | .physicalStarted => true
  | .physicalDone => true
  | _ => false

/-- what the checks before a reservation establish of the object -/
structure PriorOk (o : ReclaimObject) (now : Int) : Prop where
  row : o.RowOk
  pinned : o.pinned = false
  isProtected : o.isProtected = false
  notReclaimed : o.lifecycleState ≠ .reclaimed
  notFailed : o.lifecycleState ≠ .failed
  deadline : ∀ d, o.minRetentionDeadlineMs = some d → d ≤ now
  copies : o.durabilityClass.minValidCopies = 0
  route : Coordinator.preflight o = .ok ()

/-- no reclaim of the object is unresolved -/
def NoOpen (X : Uuid) (w : Traced) : Prop :=
  ∀ j ∈ w.store.journal, j.objectId = X → j.phase.isOpen = false

/-- no reclaim of the object is in a physical phase -/
def NoPhysical (X : Uuid) (w : Traced) : Prop :=
  ∀ j ∈ w.store.journal, j.objectId = X → j.phase.physical = false

/-- the reservation of a journal row is open -/
def ReservationOpen (j : JournalEntry) (w : Traced) : Prop :=
  ∃ r ∈ w.store.reservations, r.attemptId = j.attemptId ∧ r.objectId = j.objectId ∧
    r.status = .isOpen

/-- the attempt of a journal row is open -/
def AttemptOpen (j : JournalEntry) (w : Traced) : Prop :=
  ∃ a ∈ w.store.attempts, a.attemptId = j.attemptId ∧ a.objectId = j.objectId ∧
    a.status = .isOpen

/-! ## keys -/

/-- the key of an archived blob -/
def archiveKey (X : Uuid) (gen : Nat) (rid : Uuid) : String := s!"{X}/{gen}/gen{rid}"

def ArchiveKeyOf (X : Uuid) (k : String) : Prop := ∃ gen rid, k = archiveKey X gen rid

/-- the key of a restored payload -/
def restoredKey (X : Uuid) (gen : Nat) (rid : Uuid) : String :=
  Coordinator.flattenKey (archiveKey X gen rid) ++ "-restored"

/-- the content a payload key stands for; `S` are the byte strings that occur -/
inductive Named (env : Env) (S : Set Bytes) (w : Traced) : String → ContentHash → Prop where
  | fresh (h : ContentHash) : Named env S w (dedupKey h) h
  | copy (h : ContentHash) (i : Nat) : Named env S w (dedupKey h ++ "-r" ++ toString i) h
  | restored {X : Uuid} {gen : Nat} {rid : Uuid} {o : ReclaimObject} {h : ContentHash} :
      rowOf w X = some o → o.contentHash = some h → Named env S w (restoredKey X gen rid) h
  | zstd {k : String} {h : ContentHash} {d c : Bytes} : Named env S w k h → d ∈ S →
      env.sha256 d = h → env.zstdEncode d = .ok c → Named env S w (k ++ "-zstd") (env.sha256 c)

/-! ## lineage -/

/-- a non-empty path of `DEPENDS_ON` edges -/
def Downstream (w : Traced) : Uuid → Uuid → Prop :=
  Relation.TransGen (LineageGraph.DependsOn w.store.lineage.rows)

/-- not known to be reclaimed or to have a recipe -/
def Exposed (w : Traced) (Z : Uuid) : Prop :=
  ∀ o, rowOf w Z = some o → o.lifecycleState ≠ .reclaimed ∧ o.recomputeCost = none

/-- no exposed object depends on `X` -/
def DependencySafe (w : Traced) (X : Uuid) : Prop :=
  ∀ Z, Z ≠ X → Exposed w Z → ¬Downstream w X Z

/-- a read of the lineage by a thread that holds `X`, whose attempt `a` was VALIDATED then -/
def Event.ReadsLineage (a X : Uuid) : Event → Prop
  | .call t _ (.store .lineageGraph) _ before => (X, t) ∈ before.proc.activeObjects ∧
      ∃ j ∈ before.store.journal, j.attemptId = a ∧ j.phase = .validated
  | _ => False

/-- an unresolved reclaim of `X` has read the lineage for its dependency check -/
def PastRead (w : Traced) (X : Uuid) : Prop :=
  ∃ j ∈ w.store.journal, j.objectId = X ∧ j.phase.isOpen = true ∧
    ∃ e ∈ w.log, Event.ReadsLineage j.attemptId X e

/-! ## acknowledged values -/

/-- what an operation that returned has set on `X` -/
def Op.effect (X : Uuid) : (op : Op) → Res op.Out → Option Flags → Option Flags
  | .createObject req, .ok o, f => if req.object.id = X then some o.flags else f
  | .touch id _, .ok o, f =>
    if id = X then f.map fun f => { f with accessCount := o.accessCount } else f
  | .pin id _, .ok _, f => if id = X then f.map fun f => { f with pinned := true } else f
  | .unpin id _, .ok _, f => if id = X then f.map fun f => { f with pinned := false } else f
  | .setProtected id b _, .ok _, f =>
    if id = X then f.map fun f => { f with isProtected := b } else f
  | _, _, f => f

/-- the object whose guard the operation holds -/
def Op.target : Op → Option Uuid
  | .createObject req => some req.object.id
  | .touch id _ => some id
  | .pin id _ => some id
  | .unpin id _ => some id
  | .setProtected id _ _ => some id
  | .reclaim req => some req.objectId
  | .compress id _ => some id
  | .archive id _ => some id
  | .restore id _ => some id
  | .verify id _ => some id
  | _ => none

/-- an operation on `X` returned Ok -/
def Event.Acks (X : Uuid) : Event → Prop
  | .returned _ op (.ok _) => op.target = some X
  | _ => False

/-- the reservation of the attempt of `j`, made when the object row was `prior` -/
def Event.Reserves (j : JournalEntry) (prior : ReclaimObject) (e : Event) : Prop :=
  ∃ t req j₀ r a before,
    e = .call t (.reclaim req) (.store (.createReclaimReservation j₀ r a)) (.ok ()) before ∧
    j₀.attemptId = j.attemptId ∧ j₀.objectId = j.objectId ∧ r.createdAtMs = j.createdAtMs ∧
    before.store.objects.find? j.objectId = some prior

/-- the values set by the last calls on `X` that returned Ok -/
def acknowledged (X : Uuid) : List Event → Option Flags
  | [] => none
  | .returned _ op r :: l => op.effect X r (acknowledged X l)
  | _ :: l => acknowledged X l

/-! ## regimes -/

/-- what the runs under consideration exclude -/
structure Regime where
  /-- no archived object without a recipe is reserved -/
  recipe : Bool
  /-- no edge is added below an object whose reclaim has read the lineage, to an exposed one -/
  edges : Bool
  /-- the calls of reclaim that are not rolled back do not fail -/
  wrapped : Bool
  /-- store calls do not fail and backends answer truthfully -/
  honest : Bool
  /-- the byte strings that occur, when `honest` -/
  bytes : Set Bytes

section
variable (m : Regime)

/-- an unresolved reclaim of an object nobody holds -/
structure Parked (j : JournalEntry) (w : Traced) : Prop where
  reserved : ReservationOpen j w
  attempted : AttemptOpen j w
  physical : j.phase.physical = true →
    (∃ o, rowOf w j.objectId = some o ∧ o.lifecycleState = .reclaimPending) ∧
    ∃ S plan a, j.payload = payloadOf S plan ∧ a ∈ S.archs ∧
      w.proc.config.archive a.backend = none

/-- no reclaim of the object is unresolved, or the way it is does no harm -/
structure Fine (X : Uuid) (w : Traced) : Prop where
  resolved : m.wrapped = true → NoOpen X w
  parked : m.honest = true → ∀ j ∈ w.store.journal, j.objectId = X → j.phase.isOpen = true →
    Parked j w

/-- the row has the values that were acknowledged -/
def Acked (X : Uuid) (w : Traced) : Prop :=
  ∀ o, rowOf w X = some o → acknowledged X w.log = some o.flags

/-- nothing was acknowledged since the reservation of an unresolved reclaim -/
def Untouched (j : JournalEntry) (w : Traced) : Prop :=
  ∀ S plan, j.payload = payloadOf S plan → acknowledged j.objectId w.log = some S.prior.flags ∧
    ∃ l₁ e l₂, w.log = l₁ ++ e :: l₂ ∧ e.Reserves j S.prior ∧ ∀ e' ∈ l₁, ¬e'.Acks j.objectId

/-- what an operation leaves behind when it drops its object -/
structure Settled (X : Uuid) (w : Traced) : Prop where
  fine : Lost w ∨ Fine m X w
  acked : m.wrapped = true → Acked X w
  untouched : m.wrapped = true → ∀ j ∈ w.store.journal, j.objectId = X →
    j.phase.isOpen = true → Untouched j w

end

end ReclaimFabric
