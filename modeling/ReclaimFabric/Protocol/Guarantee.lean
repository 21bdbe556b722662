import ReclaimFabric.Protocol.State

/-!
# Who may change what

`Guar` lists every kind of step a thread makes, each with the state-based facts that justify it.
`Keep t` is what thread `t` may rely on: the rows, journals and payloads it guards are left alone,
rows keep their identity, and so on.  `Last` describes the step in which an operation drops its
object, or recovery its guard.

Nothing here mentions a program: the walks through the operations establish `Guar`, and every
invariant of the runs is derived from it.
-/

set_option linter.unusedSectionVars false

namespace ReclaimFabric

/-! ## physical decisions -/

/-- the planned payloads and the archived blobs are gone: recovery commits -/
def Decided (j : JournalEntry) (w : Traced) : Prop :=
  ∃ S plan, j.payload = payloadOf S (some plan) ∧ j.phase.physical = true ∧
    (plan = [] → S.archs = [] → j.phase = .physicalDone) ∧
    (∀ r ∈ plan, w.payloads r.location.backend r.location.key = none) ∧
    ∀ a ∈ S.archs, w.blobs a.backend a.key = none

/-- something planned is still there, or nothing physical was reached: recovery rolls back -/
def Undecided (j : JournalEntry) (w : Traced) : Prop :=
  ∃ S plan, j.payload = payloadOf S (some plan) ∧
    ((plan = [] ∧ S.archs = [] ∧ j.phase = .physicalStarted) ∨
      (∃ r ∈ plan, w.payloads r.location.backend r.location.key ≠ none) ∨
      ∃ a ∈ S.archs, w.blobs a.backend a.key ≠ none)

/-- no reclaimed object with an unresolved journal has planned this payload -/
def NoGhost (k : String × ContentHash) (w : Traced) : Prop :=
  ∀ j ∈ w.store.journal, j.phase.isOpen = true → ∀ o, rowOf w j.objectId = some o →
    o.lifecycleState = .reclaimed → ∀ S plan, j.payload = payloadOf S (some plan) →
    ∀ r ∈ plan, r.slot ≠ k

/-- the replica rows of an object up to the outcome of their verification; a row can only become
invalid -/
structure SameReplicas (X : Uuid) (w w' : Traced) : Prop where
  back : ∀ r ∈ w'.store.replicas, r.objectId = X →
    ∃ r₀ ∈ w.store.replicas, r₀.desc = r.desc ∧ (r.valid = true → r₀.valid = true)
  forth : ∀ r₀ ∈ w.store.replicas, r₀.objectId = X →
    ∃ r ∈ w'.store.replicas, r.desc = r₀.desc

section
variable (env : Env) (m : Regime)

/-! ## what a thread relies on -/

structure Keep (t : Tid) (w w' : Traced) : Prop where
  own : ∀ X, Own t X w' ↔ Own t X w
  pay : ∀ k, Pay t k w' ↔ Pay t k w
  recovering : Recovering t w' ↔ Recovering t w
  config : w'.proc.config = w.proc.config
  lost : Lost w → Lost w'
  log : ∃ l, w'.log = l ++ w.log ∧ ∀ X, Own t X w → ∀ e ∈ l, ¬e.Acks X
  rows : ∀ X o, rowOf w X = some o → ∃ o', rowOf w' X = some o' ∧ o'.immut = o.immut
  reclaimed : (∃ X, Own t X w) → ∀ Z o, rowOf w Z = some o → o.lifecycleState = .reclaimed →
    ∃ o', rowOf w' Z = some o' ∧ o'.lifecycleState = .reclaimed
  row : ∀ X, Own t X w → rowOf w' X = rowOf w X
  journal : ∀ X, Own t X w → ∀ j : JournalEntry, j.objectId = X →
    (j ∈ w'.store.journal ↔ j ∈ w.store.journal)
  attempts : ∀ X, Own t X w → ∀ a : Attempt, a.objectId = X →
    (a ∈ w'.store.attempts ↔ a ∈ w.store.attempts)
  reservations : ∀ X, Own t X w → ∀ r : Reservation, r.objectId = X →
    (r ∈ w'.store.reservations ↔ r ∈ w.store.reservations)
  archives : ∀ X, Own t X w → ∀ a : ArchiveRecord, a.objectId = X →
    (a ∈ w'.store.archives ↔ a ∈ w.store.archives)
  replicas : ∀ X, Own t X w → SameReplicas X w w'
  slots : ∀ k, Pay t k w → ∀ r : Replica, r.slot = k →
    (r ∈ w'.store.replicas ↔ r ∈ w.store.replicas)
  dedup : ∀ b h, Pay t (b, h) w → w'.store.dedup.find? (h, b) = w.store.dedup.find? (h, b)
  payloads : m.honest = true → ∀ b h k, Pay t (b, h) w → Named env m.bytes w k h →
    w'.payloads b k = w.payloads b k
  blobs : ∀ X a k, Own t X w → ArchiveKeyOf X k → w'.blobs a k = w.blobs a k
  ghosts : m.honest = true → ∀ k, Pay t k w → NoGhost k w → NoGhost k w'
  downstream : m.edges = true → ∀ X, Own t X w → PastRead w X → ∀ Z, Z ≠ X → Exposed w' Z →
    Downstream w' X Z → Downstream w X Z
  data : Recovering t w → { w'.store.data with lineage := w.store.lineage } = w.store.data ∧
    w'.payloads = w.payloads ∧ w'.blobs = w.blobs

/-! ## justifications -/

/-- the states the tier operations start from -/
def Tiered (s : LifecycleState) : Prop :=
  s = .hot ∨ s = .warm ∨ s = .cold ∨ s = .compressed ∨ s = .deduped ∨ s = .archived

/-- the transition table allows the change of state, or there is none -/
def Legal (s s' : LifecycleState) : Prop := ∃ r, checkTransition s s' = .ok r

/-- why an object row is written -/
inductive RowJust (t : Tid) (op : Op) (w : Traced) (X : Uuid) (o' : ReclaimObject) : Prop where
  | create : Own t X w → rowOf w X = none →
      (o'.lifecycleState = .created ∨ o'.lifecycleState = .hot) → RowJust t op w X o'
  | flags {o : ReclaimObject} : Own t X w → rowOf w X = some o → o'.immut = o.immut →
      o'.lifecycleState = o.lifecycleState → RowJust t op w X o'
  | tier {o : ReclaimObject} : Own t X w → rowOf w X = some o → o'.immut = o.immut →
      o'.flags = o.flags → Tiered o.lifecycleState →
      (o'.lifecycleState = .compressed ∨ o'.lifecycleState = .archived ∨
        o'.lifecycleState = .warm) → Legal o.lifecycleState o'.lifecycleState →
      RowJust t op w X o'
  | route {o : ReclaimObject} {j : JournalEntry} {S : Snapshot} : Own t X w →
      rowOf w X = some o → j ∈ w.store.journal → j.objectId = X → j.phase = .reserved →
      j.payload = payloadOf S none →
      (o = S.prior ∨ o = { S.prior with lifecycleState := .recomputable }) →
      (o' = { S.prior with lifecycleState := .recomputable } ∨
        o' = { S.prior with lifecycleState := .reclaimPending }) →
      Legal o.lifecycleState o'.lifecycleState → RowJust t op w X o'
  | abort {o : ReclaimObject} {j : JournalEntry} {S : Snapshot} : Own t X w →
      rowOf w X = some o → o.lifecycleState ≠ .reclaimed → j ∈ w.store.journal →
      j.objectId = X → j.phase.isOpen = true → j.phase.physical = false →
      j.payload = payloadOf S none → o' = S.prior → RowJust t op w X o'
  | commit {j : JournalEntry} {S : Snapshot} {plan : List Replica} :
      (∃ req, op = .reclaim req) → Own t X w →
      rowOf w X = some { S.prior with lifecycleState := .reclaimPending } →
      j ∈ w.store.journal → j.objectId = X → j.phase = .physicalDone →
      j.payload = payloadOf S (some plan) →
      o' = { S.prior with lifecycleState := .reclaimed } →
      (∀ r ∈ w.store.replicas, r.objectId ≠ X) → (∀ a ∈ w.store.archives, a.objectId ≠ X) →
      (m.honest = true → Decided j w ∧ ∀ r ∈ plan, Pay t r.slot w) →
      (m.edges = true → DependencySafe w X) → RowJust t op w X o'
  | rollback {j : JournalEntry} {S : Snapshot} {plan : Option (List Replica)} :
      op = .recover → Recovering t w → j ∈ w.store.journal → j.objectId = X →
      j.phase.isOpen = true → j.payload = payloadOf S plan → o' = S.prior →
      (m.honest = true → ∀ o, rowOf w X = some o → o.lifecycleState ≠ .reclaimed) →
      RowJust t op w X o'
  | recommit {o : ReclaimObject} {j : JournalEntry} :
      op = .recover → Recovering t w → rowOf w X = some o → j ∈ w.store.journal →
      j.objectId = X → j.phase.physical = true → o'.immut = o.immut → o'.flags = o.flags →
      o'.lifecycleState = .reclaimed →
      (m.honest = true → Decided j w ∧ (∀ r ∈ w.store.replicas, r.objectId ≠ X) ∧
        ∀ a ∈ w.store.archives, a.objectId ≠ X) → RowJust t op w X o'
  | abandon {o : ReclaimObject} : op = .recover → Recovering t w →
      rowOf w X = some o → o.lifecycleState = .reclaimPending →
      o' = { o with lifecycleState := .failed } → RowJust t op w X o'

/-- why a replica row appears, goes or changes -/
inductive ReplicaJust (t : Tid) (w : Traced) : Option Replica → Option Replica → Prop where
  | add {r : Replica} : Own t r.objectId w → Pay t r.slot w →
      (rowOf w r.objectId = none ∨
        ∃ o, rowOf w r.objectId = some o ∧ Tiered o.lifecycleState) →
      (m.honest = true → NoPhysical r.objectId w ∧
        Named env m.bytes w r.location.key r.contentHash) → r.Located →
      ReplicaJust t w none (some r)
  | delete {r : Replica} : Own t r.objectId w → Pay t r.slot w → ReplicaJust t w (some r) none
  | update {r r' : Replica} : Pay t r.slot w → r'.desc = r.desc →
      (Own t r.objectId w ∨ r'.valid = false) → ReplicaJust t w (some r) (some r')
  | putBack {r : Replica} {j : JournalEntry} {S : Snapshot} {plan : Option (List Replica)} :
      Recovering t w → j ∈ w.store.journal → j.phase.isOpen = true →
      j.payload = payloadOf S plan → r ∈ S.dels → r.objectId = j.objectId →
      (m.honest = true → ∀ o, rowOf w j.objectId = some o → o.lifecycleState ≠ .reclaimed) →
      ReplicaJust t w none (some r)
  | recommit {r : Replica} {j : JournalEntry} : Recovering t w → j ∈ w.store.journal →
      j.phase.physical = true → r.objectId = j.objectId → ReplicaJust t w (some r) none

/-- why an archive row appears or goes -/
inductive ArchiveJust (t : Tid) (w : Traced) :
    Option ArchiveRecord → Option ArchiveRecord → Prop where
  | add {a : ArchiveRecord} {o : ReclaimObject} : Own t a.objectId w →
      rowOf w a.objectId = some o → Tiered o.lifecycleState → ArchiveKeyOf a.objectId a.key →
      (m.honest = true → NoPhysical a.objectId w) → a.generation = o.generation →
      a.archiveId ≠ "" → Configured a.backend w → ArchiveJust t w none (some a)
  | delete {a : ArchiveRecord} : Own t a.objectId w → ArchiveJust t w (some a) none
  | putBack {a : ArchiveRecord} {j : JournalEntry} {S : Snapshot}
      {plan : Option (List Replica)} : Recovering t w → j ∈ w.store.journal →
      j.phase.isOpen = true → j.payload = payloadOf S plan → a ∈ S.archs →
      a.objectId = j.objectId →
      (m.honest = true → ∀ o, rowOf w j.objectId = some o → o.lifecycleState ≠ .reclaimed) →
      ArchiveJust t w none (some a)
  | recommit {a : ArchiveRecord} {j : JournalEntry} : Recovering t w → j ∈ w.store.journal →
      j.phase.physical = true → a.objectId = j.objectId → ArchiveJust t w (some a) none

/-- why a journal row changes -/
inductive JournalJust (t : Tid) (w : Traced) (j j' : JournalEntry) : Prop where
  | validate : Own t j.objectId w → j.phase = .reserved → j'.phase = .validated →
      j'.payload = j.payload → JournalJust t w j j'
  | start {S : Snapshot} {plan : List Replica} : Own t j.objectId w → j.phase = .validated →
      j'.phase = .physicalStarted → j.payload = payloadOf S none →
      j'.payload = payloadOf S (some plan) → (∀ r ∈ plan, r ∈ S.dels) →
      (∃ o, rowOf w j.objectId = some o ∧ o.lifecycleState = .reclaimPending) →
      (∀ r ∈ w.store.replicas, r.objectId = j.objectId → ∃ d ∈ S.dels, d.desc = r.desc) →
      (∀ a ∈ w.store.archives, a.objectId = j.objectId → a ∈ S.archs) →
      (plan.map Replica.replicaId).Nodup → JournalJust t w j j'
  | done : Own t j.objectId w → j.phase = .physicalStarted → j'.phase = .physicalDone →
      j'.payload = j.payload → JournalJust t w j j'
  | close : (Own t j.objectId w ∨ Recovering t w) → j.phase.isOpen = true →
      j'.phase.isOpen = false → j'.payload = j.payload → JournalJust t w j j'

/-- the three rows of a new reservation -/
structure ReserveJust (t : Tid) (op : Op) (w : Traced) (j : JournalEntry) (r : Reservation)
    (a : Attempt) (S : Snapshot) : Prop where
  reclaim : ∃ req, op = .reclaim req
  own : Own t j.objectId w
  row : rowOf w j.objectId = some S.prior
  payload : j.payload = payloadOf S none
  phase : j.phase = .reserved
  generation : j.generation = S.prior.generation
  prior : PriorOk S.prior j.createdAtMs
  recipe : m.recipe = true → S.prior.Recipe
  reservation : r.attemptId = j.attemptId ∧ r.objectId = j.objectId ∧ r.status = .isOpen ∧
    r.createdAtMs = j.createdAtMs
  attempt : a.attemptId = j.attemptId ∧ a.objectId = j.objectId ∧ a.status = .isOpen
  dels : ∀ d ∈ S.dels, d.objectId = j.objectId ∧
    (m.honest = true → Named env m.bytes w d.location.key d.contentHash)
  archs : ∀ x ∈ S.archs, x.objectId = j.objectId ∧ ArchiveKeyOf j.objectId x.key
  acked : m.wrapped = true → acknowledged j.objectId w.log = some S.prior.flags
  alone : m.honest = true → NoOpen j.objectId w
  vacant : ∀ x ∈ w.store.reservations, x.objectId = j.objectId → x.status ≠ .isOpen
  covers : ∀ r ∈ w.store.replicas, r.objectId = j.objectId → ∃ d ∈ S.dels, d.desc = r.desc
  listed : ∀ d ∈ S.dels, ∃ r ∈ w.store.replicas, r.desc = d.desc
  filed : ∀ x ∈ S.archs, x ∈ w.store.archives
  delsNodup : (S.dels.map Replica.replicaId).Nodup
  archsNodup : (S.archs.map ArchiveRecord.archiveId).Nodup

/-! ## steps -/

/-- one step of thread `t` inside `op`; `b` says whether the coordinator serves requests -/
inductive Guar (b : Bool) (t : Tid) (op : Op) (w w' : Traced) : Prop where
  | quiet : Quiet w w' → Guar b t op w w'
  | acquire {X : Uuid} : b = true → Unowned X w → w.proc.activeRecovery = none →
      w'.store = w.store → w'.payloads = w.payloads → w'.blobs = w.blobs →
      w'.proc = { w.proc with activeObjects := (X, t) :: w.proc.activeObjects } →
      (∃ e, Event.isCall e = true ∧ w'.log = e :: w.log) → Guar b t op w w'
  | acquireKeys {ks : List (String × ContentHash)} : b = true → ks.Nodup →
      (∀ k ∈ ks, ∀ u, ¬Pay u k w) → w.proc.activeRecovery = none →
      w'.store = w.store → w'.payloads = w.payloads → w'.blobs = w.blobs →
      w'.proc = { w.proc with
        activePayloads := ks.map (fun k => (k, t)) ++ w.proc.activePayloads } →
      (∃ e, Event.isCall e = true ∧ w'.log = e :: w.log) → Guar b t op w w'
  | dropKeys {ks : List (String × ContentHash)} : (∀ k ∈ ks, ∀ u, Pay u k w → u = t) →
      (m.honest = true → ∀ X, Own t X w → ∀ j ∈ w.store.journal, j.objectId = X →
        j.phase.isOpen = true → ∀ o, rowOf w X = some o → o.lifecycleState = .reclaimed →
        Lost w) →
      w'.store = w.store → w'.payloads = w.payloads → w'.blobs = w.blobs →
      w'.proc = { w.proc with
        activePayloads := w.proc.activePayloads.filter (fun e => decide (e.1 ∉ ks)) } →
      (∃ e, Event.isCall e = true ∧ w'.log = e :: w.log) → Guar b t op w w'
  | acquireRecovery : op = .recover → w.proc.activeRecovery = none →
      w.proc.activeObjects = [] → w.proc.activePayloads = [] →
      w'.store = w.store → w'.payloads = w.payloads → w'.blobs = w.blobs →
      w'.proc = { w.proc with activeRecovery := some t } →
      (∃ e, Event.isCall e = true ∧ w'.log = e :: w.log) → Guar b t op w w'
  | row {X : Uuid} {o' : ReclaimObject} {T : Table ReclaimObject.id} : Still w w' →
      w'.store.data = { w.store.data with objects := T } →
      (∀ Y, T.find? Y = if Y = X then some o' else rowOf w Y) → o'.id = X → o'.RowOk →
      RowJust m t op w X o' → Guar b t op w w'
  | replica {id : Uuid} {old new : Option Replica} {T : Table Replica.replicaId} : Still w w' →
      w'.store.data = { w.store.data with replicas := T } →
      RowSwap w.store.replicas T id old new → ReplicaJust env m t w old new → Guar b t op w w'
  | archive {id : String} {old new : Option ArchiveRecord} {T : Table ArchiveRecord.archiveId} :
      Still w w' → w'.store.data = { w.store.data with archives := T } →
      RowSwap w.store.archives T id old new → ArchiveJust m t w old new → Guar b t op w w'
  | dedup {h : ContentHash} {be : String}
      {T : Table (fun e : DedupEntry => (e.contentHash, e.backend))} : Still w w' →
      w'.store.data = { w.store.data with dedup := T } →
      (∀ k, k ≠ (h, be) → T.find? k = w.store.dedup.find? k) →
      (Pay t (be, h) w ∨ Recovering t w) →
      (m.honest = true → ∀ e, T.find? (h, be) = some e → Named env m.bytes w e.key h) →
      Guar b t op w w'
  | lineage {T : Table (id : LineageEdge → LineageEdge)} : Still w w' →
      w'.store.data = { w.store.data with lineage := T } →
      (m.edges = true → ∀ X, PastRead w X → ∀ Z, Z ≠ X → Exposed w Z →
        Relation.TransGen (LineageGraph.DependsOn T.rows) X Z → Downstream w X Z) →
      Guar b t op w w'
  | reserve {j : JournalEntry} {r : Reservation} {a : Attempt} {S : Snapshot}
      {J : Table JournalEntry.attemptId} {V : Table Reservation.reservationId}
      {A : Table Attempt.attemptId} : Still w w' →
      w'.store.data = { w.store.data with journal := J, reservations := V, attempts := A } →
      RowSwap w.store.journal J j.attemptId none (some j) →
      RowSwap w.store.reservations V r.reservationId none (some r) →
      RowSwap w.store.attempts A a.attemptId none (some a) →
      w'.log = .call t op (.store (.createReclaimReservation j r a)) (.ok ()) w.toWorld :: w.log →
      ReserveJust env m t op w j r a S → Guar b t op w w'
  | journal {j j' : JournalEntry} {T : Table JournalEntry.attemptId} : Still w w' →
      w'.store.data = { w.store.data with journal := T } →
      RowSwap w.store.journal T j.attemptId (some j) (some j') → j'.objectId = j.objectId →
      j'.generation = j.generation → j'.createdAtMs = j.createdAtMs →
      JournalJust t w j j' → Guar b t op w w'
  | attempt {a : Attempt} {status : AttemptStatus} {now : Int} {T : Table Attempt.attemptId} :
      Still w w' → w'.store.data = { w.store.data with attempts := T } →
      RowSwap w.store.attempts T a.attemptId (some a)
        (some { a with status := status, updatedAtMs := now }) →
      (Own t a.objectId w ∨ Recovering t w) → Guar b t op w w'
  | reservations {which : Reservation → Bool} {status : ReservationStatus} : Still w w' →
      w'.store.data = { w.store.data with
        reservations := Store.closeReservations which status w.store.reservations } →
      (∀ r ∈ w.store.reservations, which r = true → Own t r.objectId w ∨ Recovering t w) →
      Guar b t op w w'
  | payload {be k : String} {h : ContentHash} {v : Option Bytes} : Pay t (be, h) w →
      (m.honest = true → Named env m.bytes w k h ∧ (v ≠ none → NoGhost (be, h) w)) →
      w'.store = w.store → w'.payloads = (w.setPayload be k v).payloads → w'.blobs = w.blobs →
      w'.proc = w.proc → (∃ e, Event.isCall e = true ∧ w'.log = e :: w.log) → Guar b t op w w'
  | blob {X : Uuid} {a k : String} {v : Option Bytes} : Own t X w → ArchiveKeyOf X k →
      (m.honest = true → v ≠ none →
        ∀ o, rowOf w X = some o → o.lifecycleState ≠ .reclaimed) →
      w'.store = w.store → w'.payloads = w.payloads → w'.blobs = (w.setBlob a k v).blobs →
      w'.proc = w.proc → (∃ e, Event.isCall e = true ∧ w'.log = e :: w.log) → Guar b t op w w'

variable {env m} {b : Bool} {t : Tid} {op : Op} {w w' : Traced}

/-- the configuration changes only with the process -/
theorem Guar.config (h : Guar env m b t op w w') : w'.proc.config = w.proc.config := by
  cases h with
  | quiet h => exact h.config
  | acquire _ _ _ _ _ _ hp => rw [hp]
  | acquireKeys _ _ _ _ _ _ _ hp => rw [hp]
  | dropKeys _ _ _ _ _ hp => rw [hp]
  | acquireRecovery _ _ _ _ _ _ _ hp => rw [hp]
  | row h => exact h.config
  | replica h => exact h.config
  | archive h => exact h.config
  | dedup h => exact h.config
  | lineage h => exact h.config
  | reserve h => exact h.config
  | journal h => exact h.config
  | attempt h => exact h.config
  | reservations h => exact h.config
  | payload _ _ _ _ _ hp => rw [hp]
  | blob _ _ _ _ _ _ hp => rw [hp]

end

end ReclaimFabric
