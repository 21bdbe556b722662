import ReclaimFabric.Recovery.Truth
import ReclaimFabric.Recovery.Recount

/-!
# The frame of a reconciliation

Recovery acts on rows named by a journal payload, which may hold anything.  The checks it makes
first confine it to the journalled object.

* `Framed`               what the reconciliation of an entry may do to the tables;
* `Identified`           what the identity checks establish about a payload;
* `reconcileEntry_framed`   one entry, with any store, payload, failure and physical answer;
* `recovery_frame`       with the recount at the end of `reconcile_store`.
-/

set_option linter.unusedSectionVars false

namespace ReclaimFabric

open Prog (Ran settle)
open Party (Triple)

section
variable {env : Env} {t : Tid} {op : Op} {w w' : Traced} {now : Int} {e : JournalEntry} {l : Bool}
  {d₀ d d' : Data} {p : ParsedJournalPayload}

/-! ## assertions about the tables -/

theorem alone_data {φ : Data → Prop} : (Party.alone env t op).Firm (fun w => φ w.store.data) :=
  Party.alone_firm fun _ _ hq h => by
    rw [hq.data]
    exact h

/-- a store method that keeps an assertion about the tables -/
theorem alone_write {φ : Data → Prop} {so : StoreOp}
    (h : ∀ s r s', φ s.data → so.run s = .ok (r, s') → φ s'.data) :
    (Party.alone env t op).Triple l (fun w => φ w.store.data) (Coordinator.store so)
      (fun _ w => φ w.store.data) (fun _ w => φ w.store.data) := by
  refine Triple.store alone_data ?_ fun _ _ _ _ _ h => h
  intro w r s hw _ _ hrun
  exact ⟨trivial, h w.store r s hw hrun⟩

/-- rows of the objects, replicas and archives tables change only for the journalled object, and
its row is overwritten only when the generation is that of the entry -/
structure Framed (e : JournalEntry) (d d' : Data) : Prop where
  objects : ∀ o, o.id ≠ e.objectId → (o ∈ d'.objects ↔ o ∈ d.objects)
  generation : ∀ o, d.objects.find? e.objectId = some o → o.generation ≠ e.generation →
    d'.objects.find? e.objectId = some o
  replicas : ∀ r, r.objectId ≠ e.objectId → (r ∈ d'.replicas ↔ r ∈ d.replicas)
  archives : ∀ a, a.objectId ≠ e.objectId → (a ∈ d'.archives ↔ a ∈ d.archives)

/-- the stored row of the object, if there is one, has the generation of the entry -/
def Current (e : JournalEntry) (d : Data) : Prop :=
  ∀ o, d.objects.find? e.objectId = some o → o.generation = e.generation

namespace Framed

theorem refl (e : JournalEntry) (d : Data) : Framed e d d :=
  ⟨fun _ _ => Iff.rfl, fun _ h _ => h, fun _ _ => Iff.rfl, fun _ _ => Iff.rfl⟩

theorem of_tables (h : Framed e d₀ d) (ho : d'.objects = d.objects)
    (hr : d'.replicas = d.replicas) (ha : d'.archives = d.archives) : Framed e d₀ d' where
  objects := by
    rw [ho]
    exact h.objects
  generation := by
    rw [ho]
    exact h.generation
  replicas := by
    rw [hr]
    exact h.replicas
  archives := by
    rw [ha]
    exact h.archives

/-- a new row of the object -/
theorem set_object (h : Framed e d₀ d) (hc : Current e d₀)
    (hs : ∀ o, o.id ≠ e.objectId → (o ∈ d'.objects ↔ o ∈ d.objects))
    (hr : d'.replicas = d.replicas) (ha : d'.archives = d.archives) : Framed e d₀ d' where
  objects := fun o ho => (hs o ho).trans (h.objects o ho)
  generation := fun o ho hne => absurd (hc o ho) hne
  replicas := by
    rw [hr]
    exact h.replicas
  archives := by
    rw [ha]
    exact h.archives

theorem set_replicas (h : Framed e d₀ d) (ho : d'.objects = d.objects)
    (hs : ∀ r, r.objectId ≠ e.objectId → (r ∈ d'.replicas ↔ r ∈ d.replicas))
    (ha : d'.archives = d.archives) : Framed e d₀ d' where
  objects := by
    rw [ho]
    exact h.objects
  generation := by
    rw [ho]
    exact h.generation
  replicas := fun r hr => (hs r hr).trans (h.replicas r hr)
  archives := by
    rw [ha]
    exact h.archives

theorem set_archives (h : Framed e d₀ d) (ho : d'.objects = d.objects)
    (hr : d'.replicas = d.replicas)
    (hs : ∀ a, a.objectId ≠ e.objectId → (a ∈ d'.archives ↔ a ∈ d.archives)) :
    Framed e d₀ d' where
  objects := by
    rw [ho]
    exact h.objects
  generation := by
    rw [ho]
    exact h.generation
  replicas := by
    rw [hr]
    exact h.replicas
  archives := fun a ha => (hs a ha).trans (h.archives a ha)

/-- the row that is read tells whether the object may be written -/
theorem current_of (h : Framed e d₀ d)
    (hd : ∀ o, d.objects.find? e.objectId = some o → o.generation = e.generation) :
    Current e d₀ := by
  intro o ho
  by_contra hne
  exact hne (hd o (h.generation o ho hne))

end Framed

/-! ## what the identity checks establish -/

/-- the rows a payload names belong to the journalled object -/
structure Identified (e : JournalEntry) (p : ParsedJournalPayload) : Prop where
  prior : p.priorObject.id = e.objectId
  generation : p.priorObject.generation = e.generation
  replicas : ∀ r ∈ p.replicaDeletions, r.objectId = e.objectId
  archives : ∀ a ∈ p.archiveDeletions, a.objectId = e.objectId

theorem checkReplicas_ok {rs : List Replica} {seen : List Uuid}
    (h : checkReplicas e rs seen = .ok ()) : ∀ r ∈ rs, r.objectId = e.objectId := by
  induction rs generalizing seen with
  | nil => exact nofun
  | cons r rs ih =>
    simp only [checkReplicas] at h
    split at h
    · cases h
    · next hid =>
      split at h
      · cases h
      · split at h
        · cases h
        · intro x hx
          rcases List.mem_cons.mp hx with rfl | hx
          · rw [not_or, not_not] at hid
            exact hid.1
          · exact ih h x hx

theorem checkArchives_ok {as : List ArchiveRecord} {seen : List String}
    (h : checkArchives e as seen = .ok ()) : ∀ a ∈ as, a.objectId = e.objectId := by
  induction as generalizing seen with
  | nil => exact nofun
  | cons a as ih =>
    simp only [checkArchives] at h
    split at h
    · cases h
    · next hid =>
      split at h
      · cases h
      · split at h
        · cases h
        · intro x hx
          rcases List.mem_cons.mp hx with rfl | hx
          · rw [not_or, not_not] at hid
            exact hid.1
          · exact ih h x hx

theorem validatePayloadIdentity_ok (h : validatePayloadIdentity e p = .ok ()) :
    Identified e p := by
  simp only [validatePayloadIdentity, bind, Except.bind] at h
  split at h
  · cases h
  · next hid =>
    rw [not_or, not_not, not_not] at hid
    cases hreps : checkReplicas e p.replicaDeletions [] with
    | error err =>
      rw [hreps] at h
      cases h
    | ok u =>
      rw [hreps] at h
      have harcs : checkArchives e p.archiveDeletions [] = .ok () := by
        cases hplan : p.physicalReplicaDeletions with
        | none =>
          rw [hplan] at h
          exact h
        | some plan =>
          rw [hplan] at h
          simp only at h
          split at h
          · exact h
          · cases h
      exact ⟨hid.1, hid.2, checkReplicas_ok hreps, checkArchives_ok harcs⟩

theorem entryPayload_identified (h : Coordinator.entryPayload e = .ok p) : Identified e p := by
  simp only [Coordinator.entryPayload, bind, Except.bind, pure, Except.pure] at h
  split at h
  · next parsed hparse =>
    cases hid : validatePayloadIdentity e parsed with
    | error err =>
      rw [hid] at h
      cases h
    | ok u =>
      rw [hid] at h
      have hp : parsed = p := by
        simp only at h
        split at h
        · cases h
        · split at h
          · cases h
          · cases h
            rfl
      exact hp ▸ validatePayloadIdentity_ok hid
  · cases h

/-! ## the writes of a reconciliation -/

/-- the rows the reconciliation has not touched -/
def framed (e : JournalEntry) (d : Data) (w : Traced) : Prop := Framed e d w.store.data

theorem firm_framed : (Party.alone env t op).Firm (framed e d₀) := alone_data (φ := Framed e d₀)

/-- a write to one of the other tables -/
theorem framed_other {so : StoreOp} (h : ∀ s r s', so.run s = .ok (r, s') →
      s'.data.objects = s.data.objects ∧ s'.data.replicas = s.data.replicas ∧
        s'.data.archives = s.data.archives) :
    (Party.alone env t op).Triple l (framed e d₀) (Coordinator.store so) (fun _ => framed e d₀)
      (fun _ => framed e d₀) := by
  refine alone_write (φ := Framed e d₀) fun s r s' hs hrun => ?_
  obtain ⟨ho, hr, ha⟩ := h s r s' hrun
  exact hs.of_tables ho hr ha

theorem framed_dedup {so : StoreOp}
    (h : ∀ s r s', so.run s = .ok (r, s') → ∃ T, s'.data = { s.data with dedup := T }) :
    (Party.alone env t op).Triple l (framed e d₀) (Coordinator.store so) (fun _ => framed e d₀)
      (fun _ => framed e d₀) := by
  refine framed_other fun s r s' hrun => ?_
  obtain ⟨T, hT⟩ := h s r s' hrun
  rw [hT]
  exact ⟨rfl, rfl, rfl⟩

theorem framed_reservations {a : Uuid} {status : ReservationStatus} :
    (Party.alone env t op).Triple l (framed e d₀)
      (Coordinator.store (.updateReservationForAttempt a status)) (fun _ => framed e d₀)
      (fun _ => framed e d₀) := by
  refine framed_other fun s r s' hrun => ?_
  rw [Store.updateReservationForAttempt_ok hrun]
  exact ⟨rfl, rfl, rfl⟩

theorem framed_attempt {a : Uuid} {status : AttemptStatus} :
    (Party.alone env t op).Triple l (framed e d₀)
      (Coordinator.store (.reconcileAttempt a status now)) (fun _ => framed e d₀)
      (fun _ => framed e d₀) := by
  refine framed_other fun s r s' hrun => ?_
  rcases Store.reconcileAttempt_ok hrun with ⟨x, T, _, _, _, hd⟩ | rfl
  · rw [hd]
    exact ⟨rfl, rfl, rfl⟩
  · exact ⟨rfl, rfl, rfl⟩

theorem framed_journal {a : Uuid} {phase : JournalPhase} :
    (Party.alone env t op).Triple l (framed e d₀)
      (Coordinator.store (.updateJournalPhase a phase now)) (fun _ => framed e d₀)
      (fun _ => framed e d₀) := by
  refine framed_other fun s r s' hrun => ?_
  obtain ⟨_, _, T, _, _, _, _, hd⟩ := Store.updateJournalPhase_ok hrun
  rw [hd]
  exact ⟨rfl, rfl, rfl⟩

/-- the row of the object is written -/
theorem framed_object {o : ReclaimObject} (hid : o.id = e.objectId) (hc : Current e d₀) :
    (Party.alone env t op).Triple l (framed e d₀) (Coordinator.store (.updateObject o))
      (fun _ => framed e d₀) (fun _ => framed e d₀) := by
  refine alone_write (φ := Framed e d₀) fun s r s' hs hrun => ?_
  obtain ⟨_, _, _, hd⟩ := Store.updateObject_ok hrun
  rw [hd]
  refine hs.set_object hc (fun x hx => ?_) rfl rfl
  show x ∈ s.objects.replace o ↔ x ∈ s.objects
  rw [Table.mem_replace]
  refine ⟨?_, fun h => .inl ⟨h, fun hk => hx (hk.trans hid)⟩⟩
  rintro (⟨h, _⟩ | ⟨rfl, _⟩)
  · exact h
  · exact absurd hid hx

theorem framed_create {o : ReclaimObject} (hid : o.id = e.objectId) (hc : Current e d₀) :
    (Party.alone env t op).Triple l (framed e d₀) (Coordinator.store (.createObject o))
      (fun _ => framed e d₀) (fun _ => framed e d₀) := by
  refine alone_write (φ := Framed e d₀) fun s r s' hs hrun => ?_
  obtain ⟨_, _, T, hT, hd⟩ := Store.createObject_ok hrun
  rw [hd]
  refine hs.set_object hc (fun x hx => ?_) rfl rfl
  show x ∈ T ↔ x ∈ s.objects
  rw [Table.mem_insert? hT]
  refine ⟨?_, .inl⟩
  rintro (h | rfl)
  · exact h
  · exact absurd hid hx

theorem framed_addReplica {x : Replica} (hid : x.objectId = e.objectId) :
    (Party.alone env t op).Triple l (framed e d₀) (Coordinator.store (.addReplica x))
      (fun _ => framed e d₀) (fun _ => framed e d₀) := by
  refine alone_write (φ := Framed e d₀) fun s r s' hs hrun => ?_
  obtain ⟨T, _, hT, hd⟩ := Store.addReplica_ok hrun
  rw [hd]
  refine hs.set_replicas rfl (fun y hy => ?_) rfl
  show y ∈ T ↔ y ∈ s.replicas
  rw [Table.mem_insert? hT]
  refine ⟨?_, .inl⟩
  rintro (h | rfl)
  · exact h
  · exact absurd hid hy

theorem framed_insertArchive {a : ArchiveRecord} (hid : a.objectId = e.objectId) :
    (Party.alone env t op).Triple l (framed e d₀) (Coordinator.store (.insertArchive a))
      (fun _ => framed e d₀) (fun _ => framed e d₀) := by
  refine alone_write (φ := Framed e d₀) fun s r s' hs hrun => ?_
  obtain ⟨T, ⟨_, hnone, _, _, hmem⟩, hd⟩ := Store.insertArchive_ok hrun
  rw [hd]
  refine hs.set_archives rfl rfl fun y hy => ?_
  show y ∈ T ↔ y ∈ s.archives
  rw [hmem]
  refine ⟨?_, fun h => .inl ⟨h, fun hk => nomatch hnone y h hk⟩⟩
  rintro (⟨h, _⟩ | h)
  · exact h
  · cases h
    exact absurd hid hy

/-! ## rollback -/

/-- what `get_object` of the journalled object tells -/
theorem framed_getObject :
    (Party.alone env t op).Triple l (framed e d₀) (Coordinator.store (.getObject e.objectId))
      (fun r w => framed e d₀ w ∧ ((∀ o, r = some o → o.generation = e.generation) → Current e d₀))
      (fun _ => framed e d₀) := by
  refine Triple.answer firm_framed (fun _ => firm_framed.and (.const _)) rfl
    (fun w r s hw _ hrun => ⟨hw, fun hgen => ?_⟩) fun _ _ h => h
  cases hrun
  exact hw.current_of hgen

theorem restoreObject_framed {prior : ReclaimObject} (hid : prior.id = e.objectId) :
    (Party.alone env t op).Triple l (framed e d₀) (Coordinator.restoreObject now e prior)
      (fun _ => framed e d₀) (fun _ => framed e d₀) := by
  refine Triple.bind framed_getObject fun r => ?_
  cases r with
  | none =>
    have hnone : ∀ o : ReclaimObject, none = some o → o.generation = e.generation :=
      fun _ h => by cases h
    refine @Triple.pre _ _ _ _ _ (fun w => Current e d₀ ∧ framed e d₀ w) _ _ _
      (Triple.of_pure fun hc => ?_)
      fun w hw => ⟨hw.2 hnone, hw.1⟩
    exact Triple.bind (framed_create hid hc) fun _ => Triple.pure fun _ h => h
  | some o =>
    refine Triple.refuse (fun _ _ h => h.1) fun hgen => ?_
    refine @Triple.pre _ _ _ _ _ (fun w => Current e d₀ ∧ framed e d₀ w) _ _ _
      (Triple.of_pure fun hc => ?_)
      fun w hw => ⟨hw.2 fun _ ho => Option.some.inj ho ▸ not_not.mp hgen, hw.1⟩
    refine Triple.ite (fun _ => ?_) fun _ => Triple.pure fun _ h => h
    exact Triple.bind (framed_object hid hc) fun _ => Triple.pure fun _ h => h

theorem repairDedupCounts_framed :
    (Party.alone env t op).Triple l (framed e d₀) Coordinator.repairDedupCounts
      (fun _ => framed e d₀) (fun _ => framed e d₀) := by
  refine (Triple.repairDedupCounts (R := fun _ => framed e d₀) firm_framed (fun _ => firm_framed)
    (fun _ _ h => h) (fun _ _ _ h => h) (fun _ _ _ h _ _ => h) ?_ ?_ ?_).post
    (fun _ _ h => h.elim fun _ h => h) (fun _ _ h => h)
  · intro _ _ _
    refine framed_dedup fun s r s' hrun => ?_
    obtain ⟨T, hT, _⟩ := Store.deleteDedup_ok hrun
    exact ⟨T, hT⟩
  · intro _ _ _
    refine framed_dedup fun s r s' hrun => ?_
    obtain ⟨T, hT, _⟩ := Store.upsertDedup_ok hrun
    exact ⟨T, hT⟩
  · intro _ _ _
    refine framed_dedup fun s r s' hrun => ?_
    obtain ⟨_, T, hT, _⟩ := Store.insertDedup_ok hrun
    exact ⟨T, hT⟩

theorem rollback_framed (hid : Identified e p) :
    (Party.alone env t op).Triple l (framed e d₀) (Coordinator.rollback now e p)
      (fun _ => framed e d₀) (fun _ => framed e d₀) := by
  refine Triple.bind (restoreObject_framed hid.prior) fun audit => ?_
  refine Triple.bind (Triple.restoreRollbackMetadata firm_framed (fun _ _ h => h)
    (fun r hr => framed_addReplica (hid.replicas r hr))
    fun a ha => framed_insertArchive (hid.archives a ha)) fun _ => ?_
  refine Triple.bind repairDedupCounts_framed fun _ => ?_
  have hrest : (Party.alone env t op).Triple l (framed e d₀) (do
      Coordinator.store (.updateReservationForAttempt e.attemptId .released)
      Coordinator.store (.reconcileAttempt e.attemptId .rolledBack now)
      Coordinator.store (.updateJournalPhase e.attemptId .rolledBack now)
      pure ReconcileOutcome.rolledBack) (fun _ => framed e d₀) (fun _ => framed e d₀) :=
    Triple.bind framed_reservations fun _ => Triple.bind framed_attempt fun _ =>
      Triple.bind framed_journal fun _ => Triple.pure fun _ h => h
  cases audit with
  | none => exact hrest
  | some a => exact Triple.bind (Triple.storeCalm rfl firm_framed) fun _ => hrest

/-! ## commit -/

/-- a list of rows without two of one key finds its rows -/
theorem find?_of_nodup {κ ρ : Type} [DecidableEq κ] {key : ρ → κ} {rows : List ρ}
    (hnd : (rows.map key).Nodup) {x : ρ} (hx : x ∈ rows) :
    rows.find? (fun y => decide (key y = key x)) = some x :=
  Table.find?_of_mem (T := ⟨rows, hnd⟩) hx

/-- every replica row is among those that were read -/
def framedReplicas (e : JournalEntry) (d : Data) (known : List Replica) (w : Traced) : Prop :=
  Framed e d w.store.data ∧ ∀ x ∈ w.store.data.replicas, x ∈ known

def framedArchives (e : JournalEntry) (d : Data) (known : List ArchiveRecord) (w : Traced) : Prop :=
  Framed e d w.store.data ∧ ∀ x ∈ w.store.data.archives, x ∈ known

theorem firm_framedReplicas {known : List Replica} :
    (Party.alone env t op).Firm (framedReplicas e d₀ known) :=
  alone_data (φ := fun d => Framed e d₀ d ∧ ∀ x ∈ d.replicas, x ∈ known)

theorem firm_framedArchives {known : List ArchiveRecord} :
    (Party.alone env t op).Firm (framedArchives e d₀ known) :=
  alone_data (φ := fun d => Framed e d₀ d ∧ ∀ x ∈ d.archives, x ∈ known)

theorem framed_deleteReplica {known : List Replica} (hnd : (known.map Replica.replicaId).Nodup)
    {x : Replica} (hid : x.objectId = e.objectId) (hm : Triple.Matches known x) :
    (Party.alone env t op).Triple l (framedReplicas e d₀ known)
      (Coordinator.store (.deleteReplica x.replicaId)) (fun _ => framedReplicas e d₀ known)
      (fun _ => framedReplicas e d₀ known) := by
  refine alone_write (φ := fun d => Framed e d₀ d ∧ ∀ x ∈ d.replicas, x ∈ known)
    fun s r s' hs hrun => ?_
  rw [Store.deleteReplica_ok hrun]
  refine ⟨hs.1.set_replicas rfl (fun y hy => ?_) rfl, fun y hy => hs.2 y (Table.mem_erase.mp hy).1⟩
  show y ∈ s.replicas.erase x.replicaId ↔ y ∈ s.replicas
  rw [Table.mem_erase]
  refine ⟨And.left, fun h => ⟨h, fun hk => hy ?_⟩⟩
  have hfind := find?_of_nodup hnd (hs.2 y h)
  rw [hk] at hfind
  exact (hm y hfind).1.trans hid

theorem framed_deleteArchive {known : List ArchiveRecord}
    (hnd : (known.map ArchiveRecord.archiveId).Nodup) {x : ArchiveRecord}
    (hid : x.objectId = e.objectId) (hm : Triple.MatchesArchive known x) :
    (Party.alone env t op).Triple l (framedArchives e d₀ known)
      (Coordinator.store (.deleteArchive x.archiveId)) (fun _ => framedArchives e d₀ known)
      (fun _ => framedArchives e d₀ known) := by
  refine alone_write (φ := fun d => Framed e d₀ d ∧ ∀ x ∈ d.archives, x ∈ known)
    fun s r s' hs hrun => ?_
  rw [Store.deleteArchive_ok hrun]
  refine ⟨hs.1.set_archives rfl rfl fun y hy => ?_, fun y hy => hs.2 y (Table.mem_erase.mp hy).1⟩
  show y ∈ s.archives.erase x.archiveId ↔ y ∈ s.archives
  rw [Table.mem_erase]
  refine ⟨And.left, fun h => ⟨h, fun hk => hy ?_⟩⟩
  have hfind := find?_of_nodup hnd (hs.2 y h)
  rw [hk] at hfind
  exact (hm y hfind).1.trans hid

theorem commitReplicas_framed {known rs : List Replica}
    (hnd : (known.map Replica.replicaId).Nodup) (hid : ∀ r ∈ rs, r.objectId = e.objectId) :
    (Party.alone env t op).Triple l (framedReplicas e d₀ known)
      (Coordinator.commitReplicas e known rs) (fun _ => framed e d₀) (fun _ => framed e d₀) := by
  refine (@Triple.commitReplicas _ _ _ (fun _ => framed e d₀) _
    (fun _ => framedReplicas e d₀ known) _ _ [] (fun _ _ _ h => h.1) ?_ ?_).post (fun _ _ h => h.1)
    fun _ _ h => h
  · intro _ r hr hm
    exact (framed_deleteReplica hnd (hid r hr) hm).post (fun _ _ h => h) fun _ _ h => h.1
  · intro _ r _
    refine alone_write (φ := fun d => Framed e d₀ d ∧ ∀ x ∈ d.replicas, x ∈ known)
      fun s _ s' hs hrun => ?_
    obtain ⟨_, _, _, _, T, hT, _⟩ := Store.dedupRelease_ok hrun
    rw [hT]
    exact ⟨hs.1.of_tables rfl rfl rfl, hs.2⟩

theorem commitArchives_framed {known as : List ArchiveRecord}
    (hnd : (known.map ArchiveRecord.archiveId).Nodup) (hid : ∀ a ∈ as, a.objectId = e.objectId) :
    (Party.alone env t op).Triple l (framedArchives e d₀ known)
      (Coordinator.commitArchives e known as) (fun _ => framed e d₀) (fun _ => framed e d₀) := by
  refine (@Triple.commitArchives _ _ _ (fun _ => framed e d₀) _
    (fun _ => framedArchives e d₀ known) _ _ [] (fun _ _ _ h => h.1) ?_).post (fun _ _ h => h.1)
    fun _ _ h => h
  intro _ a ha hm
  exact (framed_deleteArchive hnd (hid a ha) hm).post (fun _ _ h => h) fun _ _ h => h.1

theorem commitObject_framed {current : ReclaimObject} (hid : current.id = e.objectId)
    (hc : Current e d₀) :
    (Party.alone env t op).Triple l (framed e d₀) (Coordinator.commitObject now e current)
      (fun _ => framed e d₀) (fun _ => framed e d₀) := by
  refine Triple.ite (fun _ => ?_) fun _ => Triple.pure fun _ h => h
  exact Triple.bind (framed_object hid hc) fun _ => Triple.storeCalm rfl firm_framed

theorem commitAfterCrash_framed (hid : Identified e p) :
    (Party.alone env t op).Triple l (framed e d₀) (Coordinator.commitAfterCrash now e p)
      (fun _ => framed e d₀) (fun _ => framed e d₀) := by
  refine Triple.bind (R := fun r w => (∀ o, r = some o → o.id = e.objectId) ∧ framed e d₀ w ∧
    ((∀ o, r = some o → o.generation = e.generation) → Current e d₀)) ?_ fun r =>
    Triple.of_pure fun hrow => ?_
  · refine Triple.answer firm_framed (fun _ => (Party.Firm.const _).and
      (firm_framed.and (.const _))) rfl (fun w r s hw _ hrun => ?_) fun _ _ h => h
    cases hrun
    exact ⟨fun o ho => Table.key_of_find? ho, hw, fun hgen => hw.current_of hgen⟩
  cases r with
  | none => exact Triple.throw fun _ h => h.1
  | some current =>
    refine Triple.refuse (fun _ _ h => h.1) fun hgen => ?_
    refine @Triple.pre _ _ _ _ _ (fun w => Current e d₀ ∧ framed e d₀ w) _ _ _
      (Triple.of_pure fun hc => ?_)
      fun w hw => ⟨hw.2 fun _ ho => Option.some.inj ho ▸ not_not.mp hgen, hw.1⟩
    refine Triple.bind (R := fun known w => (known.map Replica.replicaId).Nodup ∧
      framedReplicas e d₀ known w) (Triple.answer firm_framed
      (fun known => (Party.Firm.const _).and firm_framedReplicas) rfl (fun w known s hw _ hrun => ?_)
      fun _ _ h => h) fun known => Triple.of_pure fun hnd => ?_
    · cases hrun
      refine ⟨?_, hw, fun x hx => ?_⟩
      · have := Table.nodup_query w.store.replicas (fun _ => true)
          (fun a b => a.replicaId.le b.replicaId)
        rwa [List.filter_eq_self.mpr fun _ _ => rfl] at this
      · exact (List.mem_insertionSort _).mpr hx
    refine Triple.bind (commitReplicas_framed hnd hid.replicas) fun _ => ?_
    refine Triple.bind (R := fun known w => (known.map ArchiveRecord.archiveId).Nodup ∧
      framedArchives e d₀ known w) (Triple.answer firm_framed
      (fun known => (Party.Firm.const _).and firm_framedArchives) rfl (fun w known s hw _ hrun => ?_)
      fun _ _ h => h) fun known => Triple.of_pure fun hnd => ?_
    · cases hrun
      refine ⟨?_, hw, fun x hx => ?_⟩
      · have := Table.nodup_query w.store.archives (fun _ => true)
          (fun a b => Store.archiveLe a b)
        rwa [List.filter_eq_self.mpr fun _ _ => rfl] at this
      · exact (List.mem_insertionSort _).mpr hx
    refine Triple.bind (commitArchives_framed hnd hid.archives) fun _ => ?_
    refine Triple.bind (commitObject_framed (hrow current rfl) hc) fun _ => ?_
    exact Triple.bind framed_reservations fun _ => Triple.bind framed_attempt fun _ =>
      Triple.bind framed_journal fun _ => Triple.pure fun _ h => h

/-! ## one entry -/

theorem reconcileEntry_framed (physical : JournalPayload → Res Bool) :
    (Party.alone env t op).Triple l (framed e d₀)
      (Coordinator.reconcileEntry (fun p => settle (physical p)) now e)
      (fun _ => framed e d₀) (fun _ => framed e d₀) := by
  refine Triple.bind (R := fun p w => Identified e p ∧ framed e d₀ w)
    (Triple.settle (fun p hp w hw => ⟨entryPayload_identified hp, hw⟩) fun _ _ _ h => h)
    fun p => Triple.of_pure fun hid => ?_
  have hphys : (Party.alone env t op).Triple l (framed e d₀)
      (Coordinator.reconcilePhysical (fun p => settle (physical p)) now e p)
      (fun _ => framed e d₀) (fun _ => framed e d₀) := by
    refine Triple.ite (fun _ => ?_) fun _ => ?_
    · exact Triple.ite (fun _ => commitAfterCrash_framed hid) fun _ => rollback_framed hid
    · refine Triple.bind (Triple.settle (fun _ _ _ h => h) fun _ _ _ h => h) fun found => ?_
      exact Triple.ite (fun _ => rollback_framed hid) fun _ => commitAfterCrash_framed hid
  cases e.phase with
  | reserved => exact rollback_framed hid
  | validated => exact rollback_framed hid
  | physicalStarted => exact hphys
  | physicalDone => exact hphys
  | committed => exact Triple.pure fun _ h => h
  | rolledBack => exact Triple.pure fun _ h => h
  | failed => exact Triple.pure fun _ h => h

/-! ## the recount -/

/-- alone, nothing has to be shown about a program of which nothing is asked -/
theorem alone_any {α : Type} (x : M α) : (Party.alone env t op).Triple l (fun _ => True) x
    (fun _ _ => True) (fun _ _ => True) := by
  have hany : ∀ (p : Prog Cmd Cmd.Reply (Res α)) (Q : Res α → Traced → Prop) (w : Traced),
      (∀ r w, Q r w) → wp (Party.alone env t op).agent p Q w := by
    intro p Q
    induction p with
    | ret a => exact fun w hQ => hQ a w
    | call c k ih =>
      intro w hQ w₁ _ _ i _
      show Agent.after (Party.alone env t op).agent w₁ (Traced.exec env t op c i w₁) _
      cases Traced.exec env t op c i w₁ with
      | none => exact (rfl : (Party.alone env t op).total = false)
      | some y => exact ⟨trivial, ih y.1 y.2 hQ⟩
  intro w _ _
  refine hany x.run _ w fun r w' => ?_
  cases r with
  | ok a => exact ⟨trivial, nofun⟩
  | error err => exact ⟨trivial, nofun⟩

theorem exclusive_alone : Exclusive (Party.alone env t op) (fun _ => True) where
  firm := fun φ => alone_data (φ := fun d => True ∧ φ d.replicas.rows d.dedup)
  delete := fun _ _ _ _ _ _ _ _ => ⟨trivial, trivial⟩
  upsert := fun _ _ _ _ _ _ _ _ => ⟨trivial, trivial⟩
  insert := fun _ _ _ _ _ _ _ _ => ⟨trivial, trivial⟩

theorem reconcileStore_recounted (physical : JournalPayload → M Bool) :
    (Party.alone env t op).Triple l (fun _ => True) (Coordinator.reconcileStore physical now)
      (fun _ w => w.store.Recounted) (fun _ _ => True) := by
  have hrec : (Party.alone env t op).Firm (fun w => w.store.Recounted) :=
    alone_data (φ := fun d => Recount d.replicas.rows d.dedup.rows)
  refine Triple.bind (alone_any _) fun _ => Triple.bind (alone_any _) fun rep => ?_
  refine Triple.bind (alone_any _) fun _ => Triple.bind (alone_any _) fun _ => ?_
  refine Triple.bind (R := fun _ w => w.store.Recounted)
    ((Triple.recounted exclusive_alone).post (fun _ _ h => h.2) fun _ _ h => h) fun repairs => ?_
  refine Triple.bind ((Triple.storeCalm rfl hrec).post (fun _ _ h => h) fun _ _ _ => trivial)
    fun graph => ?_
  split
  · exact Triple.pure fun _ h => h
  · exact Triple.pure fun _ h => h

/-- **Recovery touches only the journalled object, and leaves the recount.** -/
theorem recovery_frame (env : Env) (t : Tid) (op : Op) (physical : JournalPayload → Res Bool)
    (now : Int) :
    (∀ (e : JournalEntry) (w w' : Traced) (r : Res ReconcileOutcome),
      Ran (Traced.exec env t op)
        (Coordinator.reconcileEntry (fun p => settle (physical p)) now e).run w r w' →
      Framed e w.store.data w'.store.data) ∧
    ∀ (w w' : Traced) (report : RecoveryReport),
      Ran (Traced.exec env t op)
        (Coordinator.reconcileStore (fun p => settle (physical p)) now).run w (.ok report) w' →
      w'.store.Recounted := by
  refine ⟨fun e w w' r h => ?_, fun w w' report h => ?_⟩
  · have := (reconcileEntry_framed (l := false) physical).ran (Framed.refl e w.store.data) h
    cases r with
    | ok a => exact this
    | error err => exact this
  · exact (reconcileStore_recounted (l := false) _).ran trivial h

end

/-! ## a plan that was carried out by half -/

namespace Sample

def planned (n : Nat) (key : String) : Replica :=
  ⟨uuid n, uuid 10, 1, ⟨"disk", key, .durable⟩, 1, ⟨Fin.ofNat _ n⟩, 0, none, true, none⟩

def halfDone : JournalEntry where
  attemptId := uuid 20
  objectId := uuid 10
  generation := 1
  phase := .physicalStarted
  createdAtMs := 0
  updatedAtMs := 0
  payload := .object ⟨.value (object 10), .value [planned 11 "a", planned 12 "b"],
    .value (some [planned 11 "a", planned 12 "b"]), .value []⟩

/-- of two planned payloads one is gone -/
def halfDeleted : Traced where
  store := { Store.new with
    objects := ⟨[{ object 10 with lifecycleState := .reclaimPending }], by decide⟩
    replicas := ⟨[planned 11 "a", planned 12 "b"], by decide⟩
    attempts := ⟨[⟨uuid 20, uuid 10, 1, "p", 0, 0, .isOpen⟩], by decide⟩
    coordinator := some ⟨1, "p", uuid 1, 1⟩
    journal := ⟨[halfDone], by decide⟩ }
  payloads := fun _ k => if k = "b" then some [0] else none
  blobs := fun _ _ => none
  proc := Proc.start config 1 (uuid 1)
  issued := []
  log := []

/-- the planned payloads are said to be gone -/
theorem halfDone_commit :
    ((Coordinator.reconcileEntry (fun _ => settle (.ok false)) 0 halfDone).run.eval
      (Traced.exec env 1 .recover) (calm 100) 0 halfDeleted).any
      (fun x => match x.1 with
        | .ok o => decide (o = .committed)
        | .error _ => false) = true := by
  decide +kernel

theorem halfDeleted_commit :
    ((Coordinator.reconcileStore (fun _ => settle (.ok false)) 0).run.eval
      (Traced.exec env 1 .recover) (calm 100) 0 halfDeleted).any
      (fun x => match x.1 with
        | .ok report => decide (report.committed = [uuid 20])
        | .error _ => false) = true := by
  decide +kernel

end Sample

theorem recovery_frame_commit :
    (∃ o w', Ran (Traced.exec Sample.env 1 .recover)
      (Coordinator.reconcileEntry (fun _ => settle (.ok false)) 0 Sample.halfDone).run
      Sample.halfDeleted (.ok o) w' ∧ o = .committed ∧
      Framed Sample.halfDone Sample.halfDeleted.store.data w'.store.data) ∧
    ∃ report w', Ran (Traced.exec Sample.env 1 .recover)
      (Coordinator.reconcileStore (fun _ => settle (.ok false)) 0).run Sample.halfDeleted
      (.ok report) w' ∧ report.committed = [Sample.uuid 20] ∧ w'.store.Recounted := by
  refine ⟨?_, ?_⟩
  · obtain ⟨⟨r, w'⟩, hev, h⟩ := (Option.any_eq_true _ _).mp Sample.halfDone_commit
    cases r with
    | error err => cases h
    | ok o =>
      have hran := Prog.ran_of_eval hev
      refine ⟨o, w', hran, of_decide_eq_true h, ?_⟩
      exact (recovery_frame Sample.env 1 .recover (fun _ => .ok false) 0).1 _ _ w' _ hran
  · obtain ⟨⟨r, w'⟩, hev, h⟩ := (Option.any_eq_true _ _).mp Sample.halfDeleted_commit
    cases r with
    | error err => cases h
    | ok report =>
      have hran := Prog.ran_of_eval hev
      refine ⟨report, w', hran, of_decide_eq_true h, ?_⟩
      exact (recovery_frame Sample.env 1 .recover (fun _ => .ok false) 0).2 _ w' report hran

end ReclaimFabric
