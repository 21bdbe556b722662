import ReclaimFabric.Recovery.Again
import ReclaimFabric.Lib.Replay

/-!
# Reconciliation as a function of the tables

What `reconcile_store` does to the tables when no call fails: a function that either gives the new
tables or says that something cannot be resolved.  The dedup table is left out; it is recounted
at the end, and no decision depends on it.

* `Core`            the tables recovery decides on;
* `Core.rollBack`, `Core.commit`   the two ways to resolve an entry;
* `Core.recover`    the whole run;
* `rollBack_again`, `commit_again`   from a state in which a resolution has been stopped, it leads
                    to the same tables.
-/

set_option linter.unusedSectionVars false

namespace ReclaimFabric

/-- the tables recovery decides on -/
structure Core where
  objects : Table ReclaimObject.id
  replicas : Table Replica.replicaId
  lineage : Table (id : LineageEdge → LineageEdge)
  attempts : Table Attempt.attemptId
  reservations : Table Reservation.reservationId
  archives : Table ArchiveRecord.archiveId
  journal : Table JournalEntry.attemptId

def Data.core (d : Data) : Core :=
  ⟨d.objects, d.replicas, d.lineage, d.attempts, d.reservations, d.archives, d.journal⟩

/-- a check passes -/
def passes (r : Res Unit) : Bool :=
  match r with
  | .ok _ => true
  | .error _ => false

theorem passes_iff {r : Res Unit} : passes r = true ↔ r = .ok () := by
  cases r with
  | ok u => exact ⟨fun _ => rfl, fun _ => rfl⟩
  | error e => exact ⟨nofun, nofun⟩

/-! ## what may be written -/

def ReclaimObject.writable (o : ReclaimObject) : Bool :=
  passes o.validate && passes (Store.checkObjectRow o)

/-- the stored replica is the expected one -/
def Replica.agrees (actual expected : Replica) : Bool :=
  decide (actual.objectId = expected.objectId) && decide (actual.generation = expected.generation) &&
    decide (actual.location = expected.location) && decide (actual.size = expected.size) &&
    decide (actual.contentHash = expected.contentHash) && decide (actual.valid = expected.valid)

/-- another row has the physical key with different content -/
def Replica.clashes (r expected : Replica) : Bool :=
  decide (r.location.backend = expected.location.backend) &&
    decide (r.location.key = expected.location.key) &&
    (decide (r.contentHash ≠ expected.contentHash) || decide (r.size ≠ expected.size))

/-- the stored replica is the one to be dropped -/
def Replica.matches (actual r : Replica) : Bool :=
  decide (actual.objectId = r.objectId) && decide (actual.generation = r.generation) &&
    decide (actual.location = r.location) && decide (actual.contentHash = r.contentHash)

def ArchiveRecord.agrees (actual expected : ArchiveRecord) : Bool :=
  decide (actual.objectId = expected.objectId) && decide (actual.generation = expected.generation) &&
    decide (actual.backend = expected.backend) && decide (actual.key = expected.key) &&
    decide (actual.size = expected.size) && decide (actual.contentHash = expected.contentHash)

def ArchiveRecord.clashes (a expected : ArchiveRecord) : Bool :=
  decide (a.backend = expected.backend) && decide (a.key = expected.key) &&
    (decide (a.contentHash ≠ expected.contentHash) || decide (a.size ≠ expected.size))

def ArchiveRecord.matches (actual a : ArchiveRecord) : Bool :=
  decide (actual.objectId = a.objectId) && decide (actual.generation = a.generation) &&
    decide (actual.backend = a.backend) && decide (actual.key = a.key) &&
    decide (actual.contentHash = a.contentHash)

def ArchiveRecord.writable (a : ArchiveRecord) : Bool :=
  passes (Store.sqlU64 "archive generation" a.generation) &&
    passes (Store.sqlU64 "archive size" a.size)

namespace Core

/-! ## the parts of a resolution -/

section
variable (e : JournalEntry) (now : Int)

/-- the object row as it was -/
def objectBack (prior : ReclaimObject) (O : Table ReclaimObject.id) :
    Option (Table ReclaimObject.id) :=
  match O.find? e.objectId with
  | some o =>
    if o.generation ≠ e.generation then none
    else if o.lifecycleState = prior.lifecycleState then some O
    else if prior.writable then some (O.replace prior) else none
  | none => if prior.writable then O.insert? prior else none

/-- the row of a reclaimed object -/
def reclaimed (o : ReclaimObject) : ReclaimObject :=
  { o with lifecycleState := .reclaimed, replicationCount := 0, physicalSize := 0,
           compressedSize := none }

/-- the object row says RECLAIMED -/
def objectGone (O : Table ReclaimObject.id) : Option (Table ReclaimObject.id) :=
  match O.find? e.objectId with
  | some o =>
    if o.generation ≠ e.generation then none
    else if o.lifecycleState ≠ .reclaimed ∨ o.replicationCount ≠ 0 ∨ o.physicalSize ≠ 0 ∨
        o.compressedSize.isSome then
      if (reclaimed o).writable then some (O.replace (reclaimed o)) else none
    else some O
  | none => none

def replicasBack (rs : List Replica) (R : Table Replica.replicaId) :
    Option (Table Replica.replicaId) :=
  R.restore Replica.agrees Replica.clashes (fun r => passes (Store.validateReplicaDescriptor r)) rs

def archivesBack (as : List ArchiveRecord) (A : Table ArchiveRecord.archiveId) :
    Option (Table ArchiveRecord.archiveId) :=
  A.restore ArchiveRecord.agrees ArchiveRecord.clashes ArchiveRecord.writable as

def replicasGone (rs : List Replica) (R : Table Replica.replicaId) :
    Option (Table Replica.replicaId) :=
  if rs.all (fun r => (R.find? r.replicaId).all (fun x => x.matches r)) then
    some (R.dropKeys (rs.map Replica.replicaId))
  else none

def archivesGone (as : List ArchiveRecord) (A : Table ArchiveRecord.archiveId) :
    Option (Table ArchiveRecord.archiveId) :=
  if as.all (fun a => (A.find? a.archiveId).all (fun x => x.matches a)) then
    some (A.dropKeys (as.map ArchiveRecord.archiveId))
  else none

/-- the attempt gets a terminal status, or has it -/
def attemptClosed (id : Uuid) (status : AttemptStatus) (A : Table Attempt.attemptId) :
    Option (Table Attempt.attemptId) :=
  match A.find? id with
  | some a =>
    if a.status = .isOpen then some (Store.closeAttempt id status now A)
    else if a.status = status then some A else none
  | none => none

/-- the journal row gets a terminal phase -/
def journalClosed (id : Uuid) (phase : JournalPhase) (J : Table JournalEntry.attemptId) :
    Option (Table JournalEntry.attemptId) :=
  match Store.allowedPrior phase with
  | none => none
  | some prior =>
    match J.find? id with
    | some j =>
      if j.phase ∈ prior then some (J.replace { j with phase := phase, updatedAtMs := now }) else none
    | none => none

/-- the replica rows can be counted, and every count can be stored -/
def countable (O : Table ReclaimObject.id) (R : Table Replica.replicaId) : Bool :=
  match Coordinator.liveEntries (O.rows.insertionSort (fun a b => a.id.le b.id))
      (Store.sortReplicas R.rows) [] with
  | .ok live => live.all (fun x => passes (Store.validateDedupEntry x))
  | .error _ => false

/-- the reservations of an attempt are closed -/
def reservationsClosed (status : ReservationStatus) (V : Table Reservation.reservationId) :
    Table Reservation.reservationId :=
  Store.closeReservations (fun r => decide (r.attemptId = e.attemptId)) status V

/-! ## one entry -/

/-- `rollback`, on the tables -/
def rollBack (p : ParsedJournalPayload) (c : Core) : Option Core := do
  let O ← objectBack e p.priorObject c.objects
  let R ← replicasBack p.replicaDeletions c.replicas
  let A ← archivesBack p.archiveDeletions c.archives
  if countable O R then
    let att ← attemptClosed now e.attemptId .rolledBack c.attempts
    let J ← journalClosed now e.attemptId .rolledBack c.journal
    pure ⟨O, R, c.lineage, att, reservationsClosed e .released c.reservations, A, J⟩
  else none

/-- `commit_after_crash`, on the tables -/
def commit (p : ParsedJournalPayload) (c : Core) : Option Core := do
  let R ← replicasGone p.replicaDeletions c.replicas
  let A ← archivesGone p.archiveDeletions c.archives
  let O ← objectGone e c.objects
  let att ← attemptClosed now e.attemptId .committed c.attempts
  let J ← journalClosed now e.attemptId .committed c.journal
  pure ⟨O, R, c.lineage, att, reservationsClosed e .committed c.reservations, A, J⟩

variable (physical : JournalPayload → Res Bool)

/-- which way an entry is resolved -/
def verdict (p : ParsedJournalPayload) : Option ReconcileOutcome :=
  match e.phase with
  | .reserved | .validated => some .rolledBack
  | .physicalStarted | .physicalDone =>
    if p.physicalReplicaDeletions = some [] ∧ p.archiveDeletions = [] then
      if e.phase = .physicalDone then some .committed else some .rolledBack
    else
      match physical e.payload with
      | .ok true => some .rolledBack
      | .ok false => some .committed
      | .error _ => none
  | _ => none

/-- `reconcile_entry`, on the tables -/
def reconcile (c : Core) : Option Core :=
  match Coordinator.entryPayload e with
  | .error _ => none
  | .ok p =>
    match verdict e physical p with
    | some .rolledBack => rollBack e now p c
    | some .committed => commit e now p c
    | _ => none

end

/-! ## the whole run -/

section
variable (physical : JournalPayload → Res Bool) (now : Int)

def reconcileAll : List JournalEntry → Core → Option Core
  | [], c => some c
  | e :: es, c => (reconcile e now physical c).bind (reconcileAll es)

/-- an abandoned reservation -/
def abandon (v : Reservation) (c : Core) : Option Core := do
  let O ← match c.objects.find? v.objectId with
    | some o =>
      if o.lifecycleState = .reclaimPending then
        if ({ o with lifecycleState := .failed } : ReclaimObject).writable then
          some (c.objects.replace { o with lifecycleState := .failed })
        else none
      else some c.objects
    | none => some c.objects
  if (c.reservations.find? v.reservationId).any (fun x => decide (x.status = .isOpen)) then
    let att ← attemptClosed now v.attemptId .failed c.attempts
    pure { c with
      objects := O
      attempts := att
      reservations := Store.closeReservations (fun x => decide (x.reservationId = v.reservationId))
        .expired c.reservations }
  else none

/-- the expiry pass when no journal is open -/
def expire : List Reservation → Core → Option Core
  | [], c => some c
  | v :: vs, c =>
    if v.expiresAtMs ≤ now then (abandon now v c).bind (expire vs) else expire vs c

def openJournal (c : Core) : List JournalEntry :=
  c.journal.query (fun j => j.phase.isOpen) Store.journalLe

def openReservations (c : Core) : List Reservation :=
  c.reservations.query (fun r => decide (r.status = .isOpen)) Store.reservationLe

/-- the lineage has no cycle -/
def acyclic (c : Core) : Bool :=
  match Store.addEdges c.lineage.rows
      (c.objects.rows.foldl (fun g o => g.addObject o.id) LineageGraph.default) with
  | .ok g => passes g.validate
  | .error _ => false

/-- `reconcile_store`, on the tables: `none` when something is left unresolved -/
def recover (c : Core) : Option Core := do
  let c₁ ← reconcileAll physical now c.openJournal c
  let c₂ ← expire now c₁.openReservations c₁
  if countable c₂.objects c₂.replicas && c₂.acyclic then pure c₂ else none

end

/-! ## a part that has been done is not done again -/

section
variable {e : JournalEntry} {now : Int} {p : ParsedJournalPayload} {c c' cm : Core}

theorem objectBack_again {prior : ReclaimObject} {O O' : Table ReclaimObject.id}
    (hid : prior.id = e.objectId) (hgen : prior.generation = e.generation)
    (h : objectBack e prior O = some O') : objectBack e prior O' = some O' := by
  have hprior (hO : O'.find? e.objectId = some prior) : objectBack e prior O' = some O' := by
    simp [objectBack, hO, hgen]
  unfold objectBack at h
  split at h
  · next o ho =>
    split at h
    · cases h
    · next hg =>
      split at h
      · next hs =>
        cases h
        simp only [objectBack, ho]
        rw [if_neg hg, if_pos hs]
      · split at h
        · cases h
          refine hprior ?_
          rw [Table.find?_replace, if_pos hid, ho]
          rfl
        · cases h
  · next hnone =>
    split at h
    · refine hprior ?_
      rw [Table.find?_insert? h, if_pos hid]
    · cases h

theorem objectGone_again {O O' : Table ReclaimObject.id} (h : objectGone e O = some O') :
    objectGone e O' = some O' := by
  unfold objectGone at h
  split at h
  · next o ho =>
    split at h
    · cases h
    · next hg =>
      split at h
      · next hs =>
        split at h
        · cases h
          have hid : o.id = e.objectId := Table.key_of_find? ho
          have hfind : (O.replace (reclaimed o)).find? e.objectId = some (reclaimed o) := by
            rw [Table.find?_replace, if_pos (show (reclaimed o).id = e.objectId from hid), ho]
            rfl
          have hgen : (reclaimed o).generation = e.generation := not_not.mp hg
          simp only [objectGone, hfind]
          rw [if_neg (not_not.mpr hgen), if_neg]
          simp [reclaimed]
        · cases h
      · next hs =>
        cases h
        simp only [objectGone, ho]
        rw [if_neg hg, if_neg hs]
  · cases h

theorem attemptClosed_again {id : Uuid} {status : AttemptStatus} {A A' : Table Attempt.attemptId}
    (hs : status ≠ .isOpen) (h : attemptClosed now id status A = some A') :
    attemptClosed now id status A' = some A' := by
  unfold attemptClosed at h
  split at h
  · next a ha =>
    split at h
    · next hopen =>
      cases h
      have hid := Table.key_of_find? ha
      have hfind : (Store.closeAttempt id status now A).find? id =
          some { a with status := status, updatedAtMs := now } := by
        rw [Store.closeAttempt, Table.find?_updateWhere, ha, Option.map_some, if_pos]
        simp [hid, hopen]
      simp [attemptClosed, hfind, hs]
    · next hopen =>
      split at h
      · next hst =>
        cases h
        simp only [attemptClosed, ha]
        rw [if_neg hopen, if_pos hst]
      · cases h
  · cases h

theorem reservationsClosed_again {status : ReservationStatus} (hs : status ≠ .isOpen)
    {V : Table Reservation.reservationId} :
    reservationsClosed e status (reservationsClosed e status V) = reservationsClosed e status V := by
  refine Table.ext_rows ?_
  show (V.rows.map _).map _ = V.rows.map _
  rw [List.map_map]
  refine List.map_congr_left ?_
  intro v _
  by_cases hv : v.attemptId = e.attemptId ∧ v.status = .isOpen
  · simp [hv.1, hv.2, hs]
  · have hcond : (decide (v.attemptId = e.attemptId) && decide (v.status = .isOpen)) = false := by
      rw [← Bool.decide_and]
      exact decide_eq_false hv
    simp only [Function.comp, hcond, Bool.false_eq_true, if_false]

theorem replicas_agree (r : Replica) : r.agrees r = true := by simp [Replica.agrees]

theorem archives_agree (a : ArchiveRecord) : a.agrees a = true := by simp [ArchiveRecord.agrees]

/-! ## a rollback that was stopped -/

/-- a part of the writes of a rollback has been made -/
structure BackMid (p : ParsedJournalPayload) (c c' cm : Core) : Prop where
  objects : cm.objects = c.objects ∨ cm.objects = c'.objects
  replicas : ∃ xs ys, p.replicaDeletions = xs ++ ys ∧ replicasBack xs c.replicas = some cm.replicas
  archives : ∃ xs ys, p.archiveDeletions = xs ++ ys ∧ archivesBack xs c.archives = some cm.archives
  reservations : cm.reservations = c.reservations ∨ cm.reservations = c'.reservations
  attempts : cm.attempts = c.attempts ∨ cm.attempts = c'.attempts
  journal : cm.journal = c.journal
  lineage : cm.lineage = c.lineage

/-- the parts of a rollback -/
theorem rollBack_some (h : rollBack e now p c = some c') :
    objectBack e p.priorObject c.objects = some c'.objects ∧
      replicasBack p.replicaDeletions c.replicas = some c'.replicas ∧
      archivesBack p.archiveDeletions c.archives = some c'.archives ∧
      countable c'.objects c'.replicas = true ∧
      attemptClosed now e.attemptId .rolledBack c.attempts = some c'.attempts ∧
      journalClosed now e.attemptId .rolledBack c.journal = some c'.journal ∧
      c'.reservations = reservationsClosed e .released c.reservations ∧ c'.lineage = c.lineage := by
  unfold rollBack at h
  obtain ⟨O, hO, h⟩ := Option.bind_eq_some_iff.mp h
  obtain ⟨R, hR, h⟩ := Option.bind_eq_some_iff.mp h
  obtain ⟨A, hA, h⟩ := Option.bind_eq_some_iff.mp h
  split at h
  · next hcount =>
    obtain ⟨att, hatt, h⟩ := Option.bind_eq_some_iff.mp h
    obtain ⟨J, hJ, h⟩ := Option.bind_eq_some_iff.mp h
    cases h
    exact ⟨hO, hR, hA, hcount, hatt, hJ, rfl, rfl⟩
  · cases h

theorem rollBack_eq_some {O : Table ReclaimObject.id} {R : Table Replica.replicaId}
    {A : Table ArchiveRecord.archiveId} {att : Table Attempt.attemptId}
    {J : Table JournalEntry.attemptId} (hO : objectBack e p.priorObject c.objects = some O)
    (hR : replicasBack p.replicaDeletions c.replicas = some R)
    (hA : archivesBack p.archiveDeletions c.archives = some A) (hcount : countable O R = true)
    (hatt : attemptClosed now e.attemptId .rolledBack c.attempts = some att)
    (hJ : journalClosed now e.attemptId .rolledBack c.journal = some J) :
    rollBack e now p c =
      some ⟨O, R, c.lineage, att, reservationsClosed e .released c.reservations, A, J⟩ := by
  simp only [rollBack, hO, hR, hA, hcount, hatt, hJ, bind, Option.bind, if_true, pure]

/-- from a state in which a rollback was stopped it leads to the same tables -/
theorem rollBack_again (hid : Identified e p) (h : rollBack e now p c = some c')
    (hm : BackMid p c c' cm) : rollBack e now p cm = some c' := by
  obtain ⟨hO, hR, hA, hcount, hatt, hJ, hV, hL⟩ := rollBack_some h
  have hO' : objectBack e p.priorObject cm.objects = some c'.objects := by
    rcases hm.objects with ho | ho
    · rw [ho]
      exact hO
    · rw [ho]
      exact objectBack_again hid.prior hid.generation hO
  have hR' : replicasBack p.replicaDeletions cm.replicas = some c'.replicas := by
    obtain ⟨xs, ys, hxs, hx⟩ := hm.replicas
    rw [hxs] at hR ⊢
    exact Table.restore_again replicas_agree hR hx
  have hA' : archivesBack p.archiveDeletions cm.archives = some c'.archives := by
    obtain ⟨xs, ys, hxs, hx⟩ := hm.archives
    rw [hxs] at hA ⊢
    exact Table.restore_again archives_agree hA hx
  have hatt' : attemptClosed now e.attemptId .rolledBack cm.attempts = some c'.attempts := by
    rcases hm.attempts with ha | ha
    · rw [ha]
      exact hatt
    · rw [ha]
      exact attemptClosed_again (by decide) hatt
  have hV' : reservationsClosed e .released cm.reservations = c'.reservations := by
    rcases hm.reservations with hv | hv
    · rw [hv, hV]
    · rw [hv, hV, reservationsClosed_again (by decide)]
  rw [rollBack_eq_some hO' hR' hA' hcount hatt' (hm.journal ▸ hJ), hV', hm.lineage, ← hL]

/-! ## a commit that was stopped -/

/-- a part of the writes of a commit has been made -/
structure ForthMid (p : ParsedJournalPayload) (c c' cm : Core) : Prop where
  objects : cm.objects = c.objects ∨ cm.objects = c'.objects
  replicas : ∃ xs ys, p.replicaDeletions = xs ++ ys ∧
    cm.replicas = c.replicas.dropKeys (xs.map Replica.replicaId)
  archives : ∃ xs ys, p.archiveDeletions = xs ++ ys ∧
    cm.archives = c.archives.dropKeys (xs.map ArchiveRecord.archiveId)
  reservations : cm.reservations = c.reservations ∨ cm.reservations = c'.reservations
  attempts : cm.attempts = c.attempts ∨ cm.attempts = c'.attempts
  journal : cm.journal = c.journal
  lineage : cm.lineage = c.lineage

theorem commit_some (h : commit e now p c = some c') :
    replicasGone p.replicaDeletions c.replicas = some c'.replicas ∧
      archivesGone p.archiveDeletions c.archives = some c'.archives ∧
      objectGone e c.objects = some c'.objects ∧
      attemptClosed now e.attemptId .committed c.attempts = some c'.attempts ∧
      journalClosed now e.attemptId .committed c.journal = some c'.journal ∧
      c'.reservations = reservationsClosed e .committed c.reservations ∧ c'.lineage = c.lineage := by
  unfold commit at h
  obtain ⟨R, hR, h⟩ := Option.bind_eq_some_iff.mp h
  obtain ⟨A, hA, h⟩ := Option.bind_eq_some_iff.mp h
  obtain ⟨O, hO, h⟩ := Option.bind_eq_some_iff.mp h
  obtain ⟨att, hatt, h⟩ := Option.bind_eq_some_iff.mp h
  obtain ⟨J, hJ, h⟩ := Option.bind_eq_some_iff.mp h
  cases h
  exact ⟨hR, hA, hO, hatt, hJ, rfl, rfl⟩

theorem commit_eq_some {O : Table ReclaimObject.id} {R : Table Replica.replicaId}
    {A : Table ArchiveRecord.archiveId} {att : Table Attempt.attemptId}
    {J : Table JournalEntry.attemptId} (hR : replicasGone p.replicaDeletions c.replicas = some R)
    (hA : archivesGone p.archiveDeletions c.archives = some A)
    (hO : objectGone e c.objects = some O)
    (hatt : attemptClosed now e.attemptId .committed c.attempts = some att)
    (hJ : journalClosed now e.attemptId .committed c.journal = some J) :
    commit e now p c =
      some ⟨O, R, c.lineage, att, reservationsClosed e .committed c.reservations, A, J⟩ := by
  simp only [commit, hO, hR, hA, hatt, hJ, bind, Option.bind, pure]

/-- dropping goes on where it was stopped -/
theorem replicasGone_again {xs ys : List Replica} {R R' : Table Replica.replicaId}
    (h : replicasGone (xs ++ ys) R = some R') :
    replicasGone (xs ++ ys) (R.dropKeys (xs.map Replica.replicaId)) = some R' := by
  unfold replicasGone at h ⊢
  split at h
  · next hall =>
    cases h
    rw [if_pos (Table.all_dropKeys hall), Table.dropKeys_again]
    intro k hk
    rw [List.map_append]
    exact List.mem_append_left _ hk
  · cases h

theorem archivesGone_again {xs ys : List ArchiveRecord} {A A' : Table ArchiveRecord.archiveId}
    (h : archivesGone (xs ++ ys) A = some A') :
    archivesGone (xs ++ ys) (A.dropKeys (xs.map ArchiveRecord.archiveId)) = some A' := by
  unfold archivesGone at h ⊢
  split at h
  · next hall =>
    cases h
    rw [if_pos (Table.all_dropKeys hall), Table.dropKeys_again]
    intro k hk
    rw [List.map_append]
    exact List.mem_append_left _ hk
  · cases h

/-- from a state in which a commit was stopped it leads to the same tables -/
theorem commit_again (h : commit e now p c = some c') (hm : ForthMid p c c' cm) :
    commit e now p cm = some c' := by
  obtain ⟨hR, hA, hO, hatt, hJ, hV, hL⟩ := commit_some h
  have hO' : objectGone e cm.objects = some c'.objects := by
    rcases hm.objects with ho | ho
    · rw [ho]
      exact hO
    · rw [ho]
      exact objectGone_again hO
  have hR' : replicasGone p.replicaDeletions cm.replicas = some c'.replicas := by
    obtain ⟨xs, ys, hxs, hx⟩ := hm.replicas
    rw [hxs] at hR
    rw [hxs, hx]
    exact replicasGone_again hR
  have hA' : archivesGone p.archiveDeletions cm.archives = some c'.archives := by
    obtain ⟨xs, ys, hxs, hx⟩ := hm.archives
    rw [hxs] at hA
    rw [hxs, hx]
    exact archivesGone_again hA
  have hatt' : attemptClosed now e.attemptId .committed cm.attempts = some c'.attempts := by
    rcases hm.attempts with ha | ha
    · rw [ha]
      exact hatt
    · rw [ha]
      exact attemptClosed_again (by decide) hatt
  have hV' : reservationsClosed e .committed cm.reservations = c'.reservations := by
    rcases hm.reservations with hv | hv
    · rw [hv, hV]
    · rw [hv, hV, reservationsClosed_again (by decide)]
  rw [commit_eq_some hR' hA' hO' hatt' (hm.journal ▸ hJ), hV', hm.lineage, ← hL]

end

end Core

end ReclaimFabric
