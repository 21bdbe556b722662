import ReclaimFabric.Logic.Command
import ReclaimFabric.Logic.Tables
import ReclaimFabric.Lib.Result

/-!
# Which tables a store method writes

* `Data.Part`            the tables that operations decide on;
* `StoreOp.writes`       the tables a method may change;
* `StoreOp.run_same`     it changes no other;
* `Store.Legible`      the replica rows and the dedup rows are such as the queries decode.
-/

namespace ReclaimFabric

inductive Data.Part where
  | objects
  | replicas
  | lineage
  | dedup
  | attempts
  | reservations
  | archives
  | journal
deriving DecidableEq

/-- the table is the same -/
def Data.Same (d d' : Data) : Data.Part → Prop
  | .objects => d'.objects = d.objects
  | .replicas => d'.replicas = d.replicas
  | .lineage => d'.lineage = d.lineage
  | .dedup => d'.dedup = d.dedup
  | .attempts => d'.attempts = d.attempts
  | .reservations => d'.reservations = d.reservations
  | .archives => d'.archives = d.archives
  | .journal => d'.journal = d.journal

namespace Data.Same

variable {d : Data} {T : Part}

theorem refl (d : Data) (T : Part) : d.Same d T := by cases T <;> rfl

theorem setObjects {O : Table ReclaimObject.id} (hT : T ∉ [Part.objects]) :
    d.Same { d with objects := O } T := by
  cases T <;> first | rfl | exact absurd List.mem_cons_self hT

theorem setReplicas {R : Table Replica.replicaId} (hT : T ∉ [Part.replicas]) :
    d.Same { d with replicas := R } T := by
  cases T <;> first | rfl | exact absurd List.mem_cons_self hT

theorem setLineage {L : Table (id : LineageEdge → LineageEdge)} (hT : T ∉ [Part.lineage]) :
    d.Same { d with lineage := L } T := by
  cases T <;> first | rfl | exact absurd List.mem_cons_self hT

theorem setDedup {D : Table (fun e : DedupEntry => (e.contentHash, e.backend))}
    (hT : T ∉ [Part.dedup]) : d.Same { d with dedup := D } T := by
  cases T <;> first | rfl | exact absurd List.mem_cons_self hT

theorem setAttempts {A : Table Attempt.attemptId} (hT : T ∉ [Part.attempts]) :
    d.Same { d with attempts := A } T := by
  cases T <;> first | rfl | exact absurd List.mem_cons_self hT

theorem setReservations {V : Table Reservation.reservationId} (hT : T ∉ [Part.reservations]) :
    d.Same { d with reservations := V } T := by
  cases T <;> first | rfl | exact absurd List.mem_cons_self hT

theorem setArchives {A : Table ArchiveRecord.archiveId} (hT : T ∉ [Part.archives]) :
    d.Same { d with archives := A } T := by
  cases T <;> first | rfl | exact absurd List.mem_cons_self hT

theorem setJournal {J : Table JournalEntry.attemptId} (hT : T ∉ [Part.journal]) :
    d.Same { d with journal := J } T := by
  cases T <;> first | rfl | exact absurd List.mem_cons_self hT

end Data.Same

/-- the tables the method may change -/
def StoreOp.writes : StoreOp → List Data.Part
  | .createObject _ => [.objects]
  | .createObjectWithAudits _ _ => [.objects]
  | .updateObject _ => [.objects]
  | .updateObjectWithAudit _ _ => [.objects]
  | .addReplica _ => [.replicas]
  | .updateReplica _ => [.replicas]
  | .deleteReplica _ => [.replicas]
  | .addLineageEdge _ _ _ => [.lineage]
  | .removeLineageEdge _ _ _ => [.lineage]
  | .insertDedup _ => [.dedup]
  | .upsertDedup _ => [.dedup]
  | .dedupAcquire _ _ => [.dedup]
  | .dedupRelease _ _ => [.dedup]
  | .deleteDedup _ _ => [.dedup]
  | .updateAttempt _ _ _ => [.attempts]
  | .reconcileAttempt _ _ _ => [.attempts]
  | .updateReservation _ _ => [.reservations]
  | .updateReservationForAttempt _ _ => [.reservations]
  | .createReclaimReservation _ _ _ => [.attempts, .reservations, .journal]
  | .updateJournalPhase _ _ _ => [.journal]
  | .startJournalPhysical _ _ _ => [.journal]
  | .insertArchive _ => [.archives]
  | .deleteArchive _ => [.archives]
  | _ => []

section
variable {so : StoreOp} {s s' : Store} {r : so.Out} {T : Data.Part}

/-- a method changes no other table -/
theorem StoreOp.run_same (h : so.run s = .ok (r, s')) (hT : T ∉ so.writes) :
    s.data.Same s'.data T := by
  have hset {d : Data} (hd : s'.data = d) (hsame : s.data.Same d T) : s.data.Same s'.data T :=
    hd.symm ▸ hsame
  by_cases hc : so.calm = true
  · exact hset (StoreOp.run_calm hc h) (.refl _ T)
  cases so with
  | createObject o =>
    obtain ⟨-, -, _, -, hd⟩ := Store.createObject_ok h
    exact hset hd (.setObjects hT)
  | createObjectWithAudits o as =>
    obtain ⟨-, -, _, -, hd⟩ := Store.createObjectWithAudits_ok h
    exact hset hd (.setObjects hT)
  | updateObject o =>
    obtain ⟨-, -, -, hd⟩ := Store.updateObject_ok h
    exact hset hd (.setObjects hT)
  | updateObjectWithAudit o d =>
    obtain ⟨-, -, -, hd⟩ := Store.updateObjectWithAudit_ok h
    exact hset hd (.setObjects hT)
  | addReplica r =>
    obtain ⟨_, -, -, hd⟩ := Store.addReplica_ok h
    exact hset hd (.setReplicas hT)
  | updateReplica r =>
    obtain ⟨_, _, -, -, -, hd⟩ := Store.updateReplica_ok h
    exact hset hd (.setReplicas hT)
  | deleteReplica id => exact hset (Store.deleteReplica_ok h) (.setReplicas hT)
  | addLineageEdge p c kind =>
    obtain ⟨_, hd, -⟩ := Store.addLineageEdge_ok h
    exact hset hd (.setLineage hT)
  | removeLineageEdge p c kind => exact hset (Store.removeLineageEdge_ok h) (.setLineage hT)
  | insertDedup e =>
    obtain ⟨-, _, hd, -⟩ := Store.insertDedup_ok h
    exact hset hd (.setDedup hT)
  | upsertDedup e =>
    obtain ⟨_, hd, -⟩ := Store.upsertDedup_ok h
    exact hset hd (.setDedup hT)
  | dedupAcquire hash be =>
    obtain ⟨_, -, -, _, hd, -⟩ := Store.dedupAcquire_ok h
    exact hset hd (.setDedup hT)
  | dedupRelease hash be =>
    obtain ⟨_, -, -, -, _, hd, -⟩ := Store.dedupRelease_ok h
    exact hset hd (.setDedup hT)
  | deleteDedup hash be =>
    obtain ⟨_, hd, -⟩ := Store.deleteDedup_ok h
    exact hset hd (.setDedup hT)
  | updateAttempt id status now =>
    obtain ⟨_, _, -, -, -, hd⟩ := Store.updateAttempt_ok h
    exact hset hd (.setAttempts hT)
  | reconcileAttempt id status now =>
    rcases Store.reconcileAttempt_ok h with ⟨_, _, -, -, -, hd⟩ | hs
    · exact hset hd (.setAttempts hT)
    · exact hset (congrArg Store.data hs) (.refl _ T)
  | updateReservation id status =>
    obtain ⟨_, -, -, hd⟩ := Store.updateReservation_ok h
    exact hset hd (.setReservations hT)
  | updateReservationForAttempt id status =>
    exact hset (Store.updateReservationForAttempt_ok h) (.setReservations hT)
  | createReclaimReservation j v a =>
    obtain ⟨_, _, _, -, -, -, hd⟩ := Store.createReclaimReservation_ok h
    have hno : ∀ p ∈ [Data.Part.attempts, .reservations, .journal], T ≠ p :=
      fun p hp hTp => hT (hTp ▸ hp)
    refine hset hd ?_
    cases T <;> first | rfl | exact absurd rfl (hno _ (by decide))
  | updateJournalPhase id phase now =>
    obtain ⟨_, _, _, -, -, -, -, hd⟩ := Store.updateJournalPhase_ok h
    exact hset hd (.setJournal hT)
  | startJournalPhysical id payload now =>
    obtain ⟨_, _, -, -, -, hd⟩ := Store.startJournalPhysical_ok h
    exact hset hd (.setJournal hT)
  | insertArchive a =>
    obtain ⟨_, -, hd⟩ := Store.insertArchive_ok h
    exact hset hd (.setArchives hT)
  | deleteArchive id => exact hset (Store.deleteArchive_ok h) (.setArchives hT)
  | _ => exact absurd rfl hc

end

/-! ## rows that can be read -/

/-- the replica rows are such as `row_to_replica` decodes, and the numbers of a dedup row fit their
signed columns; a count of zero and an empty key are read like any other -/
structure Store.Legible (s : Store) : Prop where
  replicas : ∀ r ∈ s.replicas, Store.validateReplicaDescriptor r = .ok ()
  dedup : ∀ e ∈ s.dedup, e.refCount ≤ i64Max ∧ e.payloadSize ≤ i64Max

theorem Store.sqlU64_iff {field : String} {n : Nat} :
    Store.sqlU64 field n = .ok () ↔ n ≤ i64Max := by
  rw [Store.sqlU64]
  split
  · next h => exact ⟨fun _ => h, fun _ => rfl⟩
  · next h => exact ⟨fun h' => (by cases h'), fun h' => absurd h' h⟩

theorem validateDedupEntry_ok {e : DedupEntry} : Store.validateDedupEntry e = .ok () ↔
    ¬(e.backend = "" ∨ e.key = "") ∧ e.refCount ≠ 0 ∧ e.refCount ≤ i64Max ∧
      e.payloadSize ≤ i64Max := by
  rw [Store.validateDedupEntry]
  by_cases hb : e.backend = "" ∨ e.key = ""
  · rw [if_pos hb]
    exact ⟨fun h => (by cases h), fun h => absurd hb h.1⟩
  rw [if_neg hb]
  by_cases hc : e.refCount = 0
  · rw [if_pos hc]
    exact ⟨fun h => (by cases h), fun h => absurd hc h.2.1⟩
  rw [if_neg hc]
  refine Result.bind_ok.trans ?_
  constructor
  · rintro ⟨_, hcount, hsize⟩
    exact ⟨hb, hc, Store.sqlU64_iff.mp hcount, Store.sqlU64_iff.mp hsize⟩
  · rintro ⟨-, -, hcount, hsize⟩
    exact ⟨(), Store.sqlU64_iff.mpr hcount, Store.sqlU64_iff.mpr hsize⟩

theorem Store.DedupSet.fits {s s' : Store} {k : ContentHash × String} {v : Option DedupEntry}
    (h : Store.DedupSet s s' k v)
    (hs : ∀ e ∈ s.dedup, e.refCount ≤ i64Max ∧ e.payloadSize ≤ i64Max)
    (hv : ∀ e, v = some e → e.refCount ≤ i64Max ∧ e.payloadSize ≤ i64Max) :
    ∀ e ∈ s'.dedup, e.refCount ≤ i64Max ∧ e.payloadSize ≤ i64Max := by
  obtain ⟨T, hd, hT⟩ := h
  have hD : s'.dedup = T := congrArg Data.dedup hd
  intro e he
  have hfind := hT (e.contentHash, e.backend)
  rw [← hD, Table.find?_of_mem he] at hfind
  split at hfind
  · exact hv e hfind.symm
  · exact hs e (Table.mem_of_find? hfind.symm)

section
variable {so : StoreOp} {s s' : Store} {r : so.Out}

/-- what a method writes into the dedup table fits -/
theorem StoreOp.run_fits (hs : ∀ e ∈ s.dedup, e.refCount ≤ i64Max ∧ e.payloadSize ≤ i64Max)
    (h : so.run s = .ok (r, s')) :
    ∀ e ∈ s'.dedup, e.refCount ≤ i64Max ∧ e.payloadSize ≤ i64Max := by
  by_cases hT : decide (Data.Part.dedup ∈ so.writes) = false
  · rw [show s'.dedup = s.dedup from StoreOp.run_same h (of_decide_eq_false hT)]
    exact hs
  have hvalid {e : DedupEntry} (hv : Store.validateDedupEntry e = .ok ()) :
      e.refCount ≤ i64Max ∧ e.payloadSize ≤ i64Max := (validateDedupEntry_ok.mp hv).2.2
  cases so with
  | insertDedup e =>
    refine (Store.insertDedup_ok h).2.fits hs ?_
    rintro _ ⟨⟩
    exact (Result.bind_ok.mp h).elim fun _ hv => hvalid hv.1
  | upsertDedup e =>
    refine Store.DedupSet.fits (Store.upsertDedup_ok h) hs ?_
    rintro _ ⟨⟩
    exact (Result.bind_ok.mp h).elim fun _ hv => hvalid hv.1
  | dedupAcquire x b =>
    change Store.dedupAcquire x b s = _ at h
    obtain ⟨e, he, -, hset⟩ := Store.dedupAcquire_ok h
    refine Store.DedupSet.fits hset hs ?_
    rintro _ ⟨⟩
    have hroom : e.refCount < i64Max := by
      simp only [Store.dedupAcquire, he] at h
      split at h
      · next hc => exact hc.2
      · cases h
    exact ⟨hroom, (hs e (Table.mem_of_find? he)).2⟩
  | dedupRelease x b =>
    obtain ⟨e, he, hpos, -, hset⟩ := Store.dedupRelease_ok h
    refine Store.DedupSet.fits hset hs ?_
    intro e' he'
    split at he'
    · cases he'
    · next hne =>
      cases he'
      obtain ⟨hcount, hsize⟩ := hs e (Table.mem_of_find? he)
      exact ⟨le_trans (Nat.sub_le _ _) hcount, hsize⟩
  | deleteDedup x b =>
    refine Store.DedupSet.fits (Store.deleteDedup_ok h) hs ?_
    rintro _ ⟨⟩
  | _ => exact absurd rfl hT

/-- what a method writes into the replica table is a row that is decoded -/
theorem StoreOp.run_described
    (hs : ∀ x ∈ s.replicas, Store.validateReplicaDescriptor x = .ok ())
    (h : so.run s = .ok (r, s')) :
    ∀ x ∈ s'.replicas, Store.validateReplicaDescriptor x = .ok () := by
  by_cases hT : decide (Data.Part.replicas ∈ so.writes) = false
  · rw [show s'.replicas = s.replicas from StoreOp.run_same h (of_decide_eq_false hT)]
    exact hs
  cases so with
  | addReplica x =>
    obtain ⟨T, -, hins, hd⟩ := Store.addReplica_ok h
    have hR : s'.replicas = T := congrArg Data.replicas hd
    rw [hR]
    intro y hy
    rcases (Table.mem_insert? hins).mp hy with hy | rfl
    · exact hs y hy
    · exact (Result.bind_ok.mp h).elim fun _ hv => hv.1
  | updateReplica x =>
    obtain ⟨old, T, -, ⟨-, -, -, -, hmem⟩, -, hd⟩ := Store.updateReplica_ok h
    have hR : s'.replicas = T := congrArg Data.replicas hd
    rw [hR]
    intro y hy
    rcases (hmem y).mp hy with ⟨hy, -⟩ | hy
    · exact hs y hy
    · cases hy
      exact (Result.bind_ok.mp h).elim fun _ hv => hv.1
  | deleteReplica id =>
    have hR : s'.replicas = s.replicas.erase id := congrArg Data.replicas (Store.deleteReplica_ok h)
    rw [hR]
    exact fun y hy => hs y (Table.mem_erase.mp hy).1
  | _ => exact absurd rfl hT

/-- no method writes a row that cannot be read -/
theorem StoreOp.run_legible (hs : s.Legible) (h : so.run s = .ok (r, s')) : s'.Legible :=
  ⟨StoreOp.run_described hs.replicas h, StoreOp.run_fits hs.dedup h⟩

end

end ReclaimFabric
