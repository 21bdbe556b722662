import ReclaimFabric.Logic.Alone
import ReclaimFabric.Protocol.Script

/-!
# A failed archive and the archives before it

`archive` writes a blob under a key made of the object, its generation and the replica it reads,
records an archive row for it and marks the object ARCHIVED; when one of the two rows cannot be
written it deletes the blob.  A replica that survives a restore gives the same key again, so the
blob that the clean-up deletes may be the one of an earlier archive.

* `Intact`          the blob of an archive row is there, with the bytes its hash names;
* `ArchiveTarget`   the blob that a call of `archive` writes;
* `Unshared`        no earlier archive row relies on that blob;
* `ArchivesKept`    what a failed call has to leave alone;
* `archive_failed_kept`   it does, as long as the blob is not shared;
* `archive_shared_loses`  where the blob is shared, a call that can succeed can lose it.
-/

set_option linter.unusedSectionVars false

namespace ReclaimFabric

open Prog (Ran attempt settle)

/-! ## what has to be kept -/

/-- the blob of the archive row is there, with the bytes its hash names -/
def Intact (env : Env) (w : Traced) (a : ArchiveRecord) : Prop :=
  ∃ d, w.blobs a.backend a.key = some d ∧ env.sha256 d = a.contentHash

/-- `archive` of the object in `w` writes the blob `k` of archive backend `b` -/
structure ArchiveTarget (w : Traced) (id : Uuid) (b k : String) : Prop where
  target : ∃ o rs p a, w.store.objects.find? id = some o ∧ o.lifecycleState ≠ .archived ∧
    (∃ x, checkTransition o.lifecycleState .archived = .ok x) ∧
    rs = Store.sortReplicas (w.store.replicas.rows.filter fun r => decide (r.objectId = id)) ∧
    Coordinator.archivePrimary o rs = some p ∧ w.proc.config.archives.head? = some a ∧
    b = a.id ∧ k = archiveKey o.id o.generation p.replicaId

/-- the blob that `archive` writes is not the intact blob of an archive row -/
def Unshared (env : Env) (w : Traced) (id : Uuid) : Prop :=
  ∀ b k, ArchiveTarget w id b k → ∀ a ∈ w.store.archives, Intact env w a →
    ¬(a.backend = b ∧ a.key = k)

/-- the archive rows are still there, with their blobs, and the object rows are unchanged -/
structure ArchivesKept (env : Env) (w w' : Traced) : Prop where
  rows : ∀ a ∈ w.store.archives, a ∈ w'.store.archives
  blobs : ∀ a ∈ w.store.archives, Intact env w a → Intact env w' a
  objects : w'.store.objects = w.store.objects

section
variable {env : Env} {t : Tid} {op : Op} {w w₁ w' : Traced} {ok : Gate} {b k : String}

/-! ## one blob -/

/-- the object rows and the archive rows are there, and at most one blob differs -/
structure BlobOnly (b k : String) (w w' : Traced) : Prop where
  objects : w'.store.objects = w.store.objects
  rows : ∀ a ∈ w.store.archives, a ∈ w'.store.archives
  blobs : ∀ b' k', ¬(b' = b ∧ k' = k) → w'.blobs b' k' = w.blobs b' k'

theorem Rests.blobOnly (h : Rests w w') : BlobOnly b k w w' where
  objects := h.objects
  rows := by
    rw [h.archives]
    exact fun _ ha => ha
  blobs := by
    rw [h.blobs]
    exact fun _ _ _ => rfl

theorem BlobOnly.trans (h : BlobOnly b k w w₁) (h' : BlobOnly b k w₁ w') : BlobOnly b k w w' where
  objects := h'.objects.trans h.objects
  rows := fun a ha => h'.rows a (h.rows a ha)
  blobs := fun b' k' hne => (h'.blobs b' k' hne).trans (h.blobs b' k' hne)

theorem BlobOnly.kept (h : BlobOnly b k w w')
    (hu : ∀ a ∈ w.store.archives, Intact env w a → ¬(a.backend = b ∧ a.key = k)) :
    ArchivesKept env w w' where
  rows := h.rows
  objects := h.objects
  blobs := by
    intro a ha hi
    obtain ⟨d, hd, hsha⟩ := hi
    refine ⟨d, ?_, hsha⟩
    rw [h.blobs a.backend a.key (hu a ha ⟨d, hd, hsha⟩)]
    exact hd

theorem Rests.archivesKept (h : Rests w w') : ArchivesKept env w w' where
  rows := (h.blobOnly (b := "") (k := "")).rows
  objects := h.objects
  blobs := by
    rintro a - ⟨d, hd, hsha⟩
    refine ⟨d, ?_, hsha⟩
    rw [h.blobs]
    exact hd

/-- a call on the archive backend changes the blob it names -/
theorem blobOnly_step {c : Cmd} (hc : c.onBlob b k = true) {i : Input} {r : c.Reply}
    (h : gated ok env t op c i w = some (r, w')) : BlobOnly b k w w' := by
  obtain ⟨⟨x, y⟩, hy, hw⟩ := Option.map_eq_some_iff.mp (gated_eq_some.mp h).1
  cases hw
  rcases exec_onBlob hc hy with rfl | ⟨v, rfl⟩
  · exact ⟨rfl, fun _ ha => ha, fun _ _ _ => rfl⟩
  · exact ⟨rfl, fun _ ha => ha, fun b' k' hne => if_neg hne⟩

theorem blobOnly_archiveWrite {data : Bytes} {hash : ContentHash} {r : Res Nat}
    (h : Ran (gated ok env t op) (Coordinator.archiveWrite b k data hash).run w r w') :
    BlobOnly b k w w' := by
  obtain ⟨i, a, he, -⟩ := ran_call (c := .archiveWrite b k data hash) (k := fun r => r) h
  exact blobOnly_step (by simp [Cmd.onBlob]) he

theorem blobOnly_archiveDelete {r : Res Unit}
    (h : Ran (gated ok env t op) (Coordinator.archiveDelete b k).run w r w') :
    BlobOnly b k w w' := by
  obtain ⟨i, a, he, -⟩ := ran_call (c := .archiveDelete b k) (k := fun r => r) h
  exact blobOnly_step (by simp [Cmd.onBlob]) he

/-! ## the two rows -/

/-- a new archive row is added to the others -/
theorem blobOnly_insertArchive {record : ArchiveRecord} {r : Res Unit}
    (h : Ran (gated ok env t op)
      (Coordinator.withInner (Coordinator.store (.insertArchive record))).run w r w') :
    (∃ err, r = .error err ∧ Rests w w') ∨
      BlobOnly b k w w' ∧ ∀ a ∈ w.store.archives, a.archiveId ≠ record.archiveId := by
  rcases ran_innerWrite h with ⟨err, hr, hs⟩ | ⟨_, s, s', -, hs, hrun, hs', hon⟩
  · exact .inl ⟨err, hr, hs⟩
  obtain ⟨T, hT, hd⟩ := Store.insertArchive_ok hrun
  have harch : s.archives = w.store.archives := congrArg Data.archives hs
  have hnew (a : ArchiveRecord) (ha : a ∈ w.store.archives) : a.archiveId ≠ record.archiveId := by
    intro hid
    rw [← harch] at ha
    cases hT.2.1 a ha hid
  refine .inr ⟨⟨?_, ?_, ?_⟩, hnew⟩
  · have : w'.store.objects = s.objects := congrArg Data.objects (hs'.symm.trans hd)
    exact this.trans (congrArg Data.objects hs)
  · intro a ha
    have : w'.store.archives = T := congrArg Data.archives (hs'.symm.trans hd)
    rw [this]
    refine (hT.2.2.2.2 a).mpr (.inl ⟨?_, hnew a ha⟩)
    rw [harch]
    exact ha
  · rw [hon.blobs]
    exact fun _ _ _ => rfl

/-- the row of this call is deleted -/
theorem blobOnly_deleteArchive {id : String} {r : Res Unit} {w₀ : Traced}
    (h : Ran (gated ok env t op)
      (Coordinator.withInner (Coordinator.store (.deleteArchive id))).run w r w')
    (h₀ : BlobOnly b k w₀ w) (hid : ∀ a ∈ w₀.store.archives, a.archiveId ≠ id) :
    BlobOnly b k w₀ w' := by
  rcases ran_innerWrite h with ⟨err, -, hs⟩ | ⟨_, s, s', -, hs, hrun, hs', hon⟩
  · exact h₀.trans hs.blobOnly
  have hd := Store.deleteArchive_ok hrun
  have hdata : w'.store.data = { s.data with archives := s.archives.erase id } := hs'.symm.trans hd
  have hobj : w'.store.objects = s.objects := congrArg Data.objects hdata
  have harch : w'.store.archives = s.archives.erase id := congrArg Data.archives hdata
  refine ⟨(hobj.trans (congrArg Data.objects hs)).trans h₀.objects, ?_, ?_⟩
  · intro a ha
    rw [harch, Table.mem_erase]
    refine ⟨?_, hid a ha⟩
    rw [show s.archives = w.store.archives from congrArg Data.archives hs]
    exact h₀.rows a ha
  · intro b' k' hne
    rw [hon.blobs]
    exact h₀.blobs b' k' hne

/-- a failed write of the archive row or of the object row -/
theorem blobOnly_recordArchive {o : ReclaimObject} {actor : String} {a : ArchiveInfo}
    {record : ArchiveRecord} {err : ReclaimError}
    (h : Ran (gated ok env t op) (Coordinator.recordArchive o actor a record).run w (.error err) w') :
    BlobOnly a.id record.key w w' := by
  have hdelete {g : ReclaimError → ReclaimError} {e : ReclaimError} {w₁ : Traced}
      {r : Res ArchiveRecord} (hrun : Ran (gated ok env t op) (do
        Coordinator.mapErr g (Coordinator.archiveDelete a.id record.key)
        throw e : M ArchiveRecord).run w₁ r w') : BlobOnly a.id record.key w₁ w' := by
    rcases ran_seq.mp hrun with ⟨_, -, hx⟩ | ⟨_, w₂, hx, hlast⟩
    · obtain ⟨_, hx, -⟩ := ran_mapErr hx
      exact blobOnly_archiveDelete hx
    · obtain ⟨_, hx, -⟩ := ran_mapErr hx
      rw [(ran_throw hlast).2]
      exact blobOnly_archiveDelete hx
  obtain ⟨o₁, w₁, hinsert, h⟩ := ran_attempt_seq h
  cases o₁ with
  | error e =>
    have hs : BlobOnly a.id record.key w w₁ := by
      rcases blobOnly_insertArchive hinsert with ⟨_, -, hs⟩ | ⟨hs, -⟩
      · exact hs.blobOnly
      · exact hs
    rcases ran_seq.mp h with ⟨_, -, hx⟩ | ⟨_, w₂, hx, hlast⟩
    · obtain ⟨_, hx, -⟩ := ran_mapErr hx
      exact hs.trans (blobOnly_archiveDelete hx)
    · obtain ⟨_, hx, -⟩ := ran_mapErr hx
      rw [(ran_throw_seq hlast).2]
      exact hs.trans (blobOnly_archiveDelete hx)
  | ok _ =>
    obtain ⟨hs, hnew⟩ : BlobOnly a.id record.key w w₁ ∧
        ∀ x ∈ w.store.archives, x.archiveId ≠ record.archiveId := by
      rcases blobOnly_insertArchive hinsert with ⟨_, hno, -⟩ | hs
      · cases hno
      · exact hs
    obtain ⟨o₂, w₂, hupdate, h⟩ := ran_attempt_seq h
    cases o₂ with
    | ok _ => cases (ran_pure.mp h).1
    | error e =>
      have hrest : Rests w₁ w₂ := by
        rcases ran_withInner hupdate with ⟨_, -, hs, -⟩ | ⟨u₁, u₂, hu, hx, hu'⟩
        · exact hs.toRests
        obtain ⟨_, ts, u₃, hnow, hx⟩ := ran_ask_seq hx
        obtain ⟨i, he⟩ := ran_storeCall hx
        rcases gated_store he with ⟨_, -, hr⟩ | ⟨_, hno, -⟩
        · exact (hu.trans (rests_step rfl hnow)).toRests.trans (hr.trans hu'.toRests)
        · cases hno
      have hs₂ := hs.trans hrest.blobOnly
      obtain ⟨o₃, w₃, herase, h⟩ := ran_attempt_seq h
      have hs₃ := blobOnly_deleteArchive herase hs₂ hnew
      cases o₃ with
      | error c =>
        rw [(ran_throw h).2]
        exact hs₃
      | ok _ => exact hs₃.trans (hdelete h)

/-! ## archive -/

theorem ran_firstArchive {r : Res ArchiveInfo}
    (h : Ran (gated ok env t op) Coordinator.firstArchive.run w r w') :
    Resting w w' ∧ ∀ a, r = .ok a → w.proc.config.archives.head? = some a := by
  obtain ⟨_, _, w₁, hlock, h⟩ := ran_ask_seq h
  have hs₁ := rests_step rfl hlock
  rcases ran_seq.mp h with ⟨_, -, hx⟩ | ⟨c, w₂, hx, h⟩
  · cases (ran_config hx).1
  obtain ⟨hc, hs⟩ := ran_config hx
  cases hc
  have hs₂ := hs₁.trans hs
  obtain ⟨_, _, w₃, hunlock, h⟩ := ran_ask_seq h
  have hs₃ := hs₂.trans (rests_step rfl hunlock)
  rw [← hs₁.config]
  cases hh : w₁.proc.config.archives.head? with
  | none =>
    rw [hh] at h
    obtain ⟨rfl, rfl⟩ := ran_throw h
    exact ⟨hs₃, nofun⟩
  | some a =>
    rw [hh] at h
    obtain ⟨rfl, rfl⟩ := ran_pure.mp h
    refine ⟨hs₃, ?_⟩
    rintro _ ⟨⟩
    rfl

/-- the part of `archive` that writes -/
def Coordinator.writeArchive (o : ReclaimObject) (actor : String) (backend : ArchiveInfo)
    (key : String) (data : Bytes) (hash : ContentHash) : M ArchiveRecord := do
  let size ← archiveWrite backend.id key data hash
  let archiveId ← ask .newUuid
  let createdAt ← nowMs
  recordArchive o actor backend
    ⟨archiveId.text, o.id, o.generation, backend.id, key, size, hash, createdAt⟩

/-- nothing but the blob of this call and its rows is written -/
theorem blobOnly_writeArchive {o : ReclaimObject} {actor key : String} {backend : ArchiveInfo}
    {data : Bytes} {hash : ContentHash} {err : ReclaimError}
    (h : Ran (gated ok env t op) (Coordinator.writeArchive o actor backend key data hash).run w
      (.error err) w') : BlobOnly backend.id key w w' := by
  rcases ran_seq.mp h with ⟨_, -, hx⟩ | ⟨size, w₁, hx, h⟩
  · exact blobOnly_archiveWrite hx
  obtain ⟨_, aid, w₂, hid, h⟩ := ran_ask_seq h
  obtain ⟨_, created, w₃, hnow, h⟩ := ran_ask_seq h
  have hrest := (rests_step rfl hid).trans (rests_step rfl hnow)
  exact (blobOnly_archiveWrite hx).trans (hrest.blobOnly.trans (blobOnly_recordArchive h))

/-- an operation is refused, or it is its body; another run of the body makes another run of it -/
theorem ran_withObject_again {α : Type} {id : Uuid} {body : M α} {r : Res α}
    (h : Ran (gated ok env t op) (Coordinator.withObject id body).run w r w') :
    (∃ err, r = .error err ∧ Resting w w') ∨
      ∃ w₁ w₂, Resting w w₁ ∧ Ran (gated ok env t op) body.run w₁ r w₂ ∧
        Resting w₂ w' ∧ ∀ r' w₃ w₄ i u, Ran (gated ok env t op) body.run w₁ r' w₃ →
          gated ok env t op (.removeActiveObject id) i w₃ = some (u, w₄) →
          Ran (gated ok env t op) (Coordinator.withObject id body).run w r' w₄ := by
  rcases ran_seq.mp h with ⟨err, rfl, hx⟩ | ⟨_, w₁, hx, h⟩
  · exact .inl ⟨err, rfl, rests (restful_beginObjectOperation id) hx⟩
  obtain ⟨o, w₂, hbody, h⟩ := ran_attempt_seq h
  obtain ⟨_, _, w₃, hdrop, h⟩ := ran_ask_seq h
  obtain ⟨rfl, rfl⟩ := ran_settle.mp h
  refine .inr ⟨w₁, w₂, rests (restful_beginObjectOperation id) hx, hbody, rests_step rfl hdrop, ?_⟩
  intro r' w₃ w₄ i u hbody' hdrop'
  exact ran_seq.mpr (.inr ⟨_, w₁, hx, ran_attempt_then hbody'
    (ran_ask_then hdrop' (ran_settle.mpr ⟨rfl, rfl⟩))⟩)

/-- `archive` only reads, or it gets as far as its target; from there it may go on differently -/
theorem ran_archive {id : Uuid} {actor : String} {r : Res ArchiveRecord}
    (h : Ran (gated ok env t op) (Coordinator.archive env id actor).run w r w') :
    (Resting w w' ∧ ∀ a, r = .ok a →
        ∃ o, w.store.objects.find? id = some o ∧ o.lifecycleState = .archived) ∨
      ∃ o backend key data hash w₁ w₂, ArchiveTarget w id backend.id key ∧ Resting w w₁ ∧
        Ran (gated ok env t op)
          (Coordinator.writeArchive o actor backend key data hash).run w₁ r w₂ ∧
        Resting w₂ w' ∧ ∀ r' w₃ w₄ i u, Ran (gated ok env t op)
            (Coordinator.writeArchive o actor backend key data hash).run w₁ r' w₃ →
          gated ok env t op (.removeActiveObject id) i w₃ = some (u, w₄) →
          Ran (gated ok env t op) (Coordinator.archive env id actor).run w r' w₄ := by
  rcases ran_withObject_again h with ⟨_, rfl, hs⟩ | ⟨w₀, w₉, hs₀, h, hs', hagain⟩
  · exact .inl ⟨hs, nofun⟩
  rcases ran_seq.mp h with ⟨_, rfl, hx⟩ | ⟨o, w₁, hobject, h⟩
  · exact .inl ⟨hs₀.trans ((ran_innerRead rfl hx).1.trans hs'), nofun⟩
  obtain ⟨hs, hread⟩ := ran_innerRead rfl hobject
  have hs₁ := hs₀.trans hs
  obtain ⟨s, s', hsd, hrun⟩ := hread o rfl
  have hrow : w.store.objects.find? id = some o := by
    rw [← hs₀.objects, ← show s.objects = w₀.store.objects from congrArg Data.objects hsd]
    exact Store.requireObject_ok hrun
  split at h
  · next hstate =>
    refine .inl ⟨?_, fun _ _ => ⟨o, hrow, hstate⟩⟩
    rcases ran_seq.mp h with ⟨_, -, hx⟩ | ⟨as, w₂, hx, h⟩
    · exact hs₁.trans ((ran_innerRead rfl hx).1.trans hs')
    · have hs₂ := hs₁.trans (ran_innerRead rfl hx).1
      cases hlast : as.getLast? with
      | none =>
        rw [hlast] at h
        rw [(ran_throw h).2] at hs'
        exact hs₂.trans hs'
      | some a =>
        rw [hlast] at h
        rw [(ran_pure.mp h).2] at hs'
        exact hs₂.trans hs'
  · next hstate =>
    rcases ran_seq.mp h with ⟨_, rfl, hx⟩ | ⟨x, w₂, hsettle, hrest⟩
    · rw [(ran_settle.mp hx).2] at hs'
      exact .inl ⟨hs₁.trans hs', nofun⟩
    obtain ⟨hlegal, rfl⟩ := ran_settle.mp hsettle
    rcases ran_seq.mp hrest with ⟨_, rfl, hx⟩ | ⟨rs, w₃, hreplicas, h⟩
    · exact .inl ⟨hs₁.trans ((ran_innerRead rfl hx).1.trans hs'), nofun⟩
    obtain ⟨hs, hread⟩ := ran_innerRead rfl hreplicas
    have hs₃ := hs₁.trans hs
    obtain ⟨s₃, _, hsd₃, hrun₃⟩ := hread rs rfl
    have hrs : rs = Store.sortReplicas
        (w.store.replicas.rows.filter fun r => decide (r.objectId = id)) := by
      cases hrun₃
      rw [show s₃.replicas = w₂.store.replicas from congrArg Data.replicas hsd₃, hs₁.replicas]
    cases hp : Coordinator.archivePrimary o rs with
    | none =>
      rw [hp] at h
      obtain ⟨rfl, hw⟩ := ran_throw h
      rw [hw] at hs'
      exact .inl ⟨hs₃.trans hs', nofun⟩
    | some primary =>
      rw [hp] at h
      simp only at h
      split at h
      · obtain ⟨rfl, hw⟩ := ran_throw_seq h
        rw [hw] at hs'
        exact .inl ⟨hs₃.trans hs', nofun⟩
      next hsize =>
      rcases ran_seq.mp h with ⟨_, rfl, hx⟩ | ⟨data, w₄, hpayload, h⟩
      · exact .inl ⟨hs₃.trans ((rests (restful_readPayload _ _) hx).trans hs'), nofun⟩
      have hs₄ := hs₃.trans (rests (restful_readPayload _ _) hpayload)
      rcases ran_seq.mp h with ⟨_, rfl, hx⟩ | ⟨_, w₅, hverify, hlast⟩
      · rw [(ran_settle.mp hx).2] at hs'
        exact .inl ⟨hs₄.trans hs', nofun⟩
      obtain ⟨-, rfl⟩ := ran_settle.mp hverify
      rcases ran_seq.mp hlast with ⟨_, rfl, hx⟩ | ⟨backend, w₆, hfirst, h⟩
      · exact .inl ⟨hs₄.trans ((ran_firstArchive hx).1.trans hs'), nofun⟩
      obtain ⟨hs, hhead⟩ := ran_firstArchive hfirst
      refine .inr ⟨o, backend, archiveKey o.id o.generation primary.replicaId, data,
        env.sha256 data, w₆, w₉, ?_, hs₄.trans hs, h, hs', ?_⟩
      · refine ⟨o, rs, primary, backend, hrow, hstate, ⟨x, hlegal.symm⟩, hrs, hp, ?_, rfl, rfl⟩
        rw [← hs₄.config]
        exact hhead backend rfl
      · intro r' w₇ w₈ i u hwrite hdrop
        refine hagain r' w₇ w₈ i u (ran_seq.mpr (.inr ⟨o, _, hobject, ?_⟩)) hdrop
        rw [if_neg hstate]
        refine ran_seq.mpr (.inr ⟨x, _, hsettle, ran_seq.mpr (.inr ⟨rs, w₃, hreplicas, ?_⟩)⟩)
        rw [hp]
        simp only [if_neg hsize]
        exact ran_seq.mpr (.inr ⟨data, _, hpayload, ran_seq.mpr (.inr ⟨_, _, hverify,
          ran_seq.mpr (.inr ⟨backend, w₆, hfirst, hwrite⟩)⟩)⟩)

/-! ## the call that could have succeeded fails -/

/-- a section that ran on the store may as well have failed there -/
theorem ran_inner_fails {so : StoreOp} {a : so.Out}
    (h : Ran (gated (fun _ _ _ _ => true) env t op)
      (Coordinator.withInner (Coordinator.store so)).run w (.ok a) w') (e : ReclaimError) :
    ∃ w'', Ran (gated (fun _ _ _ _ => true) env t op)
        (Coordinator.withInner (Coordinator.store so)).run w (.error e) w'' ∧
      Rests w w'' ∧ w''.proc.mutex = none := by
  obtain ⟨_, lost, w₁, hload, h⟩ := ran_ask_seq h
  cases lost with
  | true => cases (ran_throw_seq h).1
  | false =>
    obtain ⟨_, _, w₂, hlock, h⟩ := ran_ask_seq h
    obtain ⟨_, p, w₃, hproc, h⟩ := ran_ask_seq h
    obtain ⟨_, now, w₄, hnow, h⟩ := ran_ask_seq h
    obtain ⟨o, w₅, hbeat, h⟩ := ran_attempt_seq h
    obtain ⟨_, hcall⟩ := ran_storeCall hbeat
    cases o with
    | error err =>
      obtain ⟨_, _, w₆, -, h⟩ := ran_ask_seq h
      obtain ⟨_, _, w₇, -, h⟩ := ran_ask_seq h
      cases (ran_throw h).1
    | ok _ =>
      obtain ⟨w₆, hfault⟩ : ∃ w₆, gated (fun _ _ _ _ => true) env t op (.store so)
          { fault := some e } w₅ = some (.error e, w₆) := ⟨_, gated_eq_some.mpr ⟨rfl, rfl⟩⟩
      obtain ⟨w₇, hunlock, hfree⟩ : ∃ w₇, gated (fun _ _ _ _ => true) env t op .unlock {} w₆ =
          some ((), w₇) ∧ w₇.proc.mutex = none := ⟨_, gated_eq_some.mpr ⟨rfl, rfl⟩, rfl⟩
      refine ⟨w₇, ran_ask_then hload (ran_ask_then hlock (ran_ask_then hproc (ran_ask_then hnow
        (ran_attempt_then hbeat (ran_attempt_then (.call hfault .ret)
          (ran_ask_then hunlock (ran_settle.mpr ⟨rfl, rfl⟩))))))), ?_, hfree⟩
      have hrest := (rests_step rfl hload).trans ((rests_step rfl hlock).trans
        ((rests_step rfl hproc).trans ((rests_step rfl hnow).trans (rests_step rfl hcall))))
      rcases gated_store hfault with ⟨_, -, hs⟩ | ⟨_, hno, -⟩
      · exact hrest.toRests.trans (hs.trans (rests_step rfl hunlock).toRests)
      · cases hno

/-- the key that a backend took for a write it takes for a deletion -/
theorem archiveDelete_of_written {b k : String} {data : Bytes} {hash : ContentHash} {i : Input}
    {n : Nat} {w₂ : Traced}
    (h : gated (fun _ _ _ _ => true) env t op (.archiveWrite b k data hash) i w = some (.ok n, w₁))
    (hs : OnTables w₁ w₂) :
    ∃ w₃, gated (fun _ _ _ _ => true) env t op (.archiveDelete b k) {} w₂ = some (.ok (), w₃) ∧
      w₃.blobs b k = none ∧ w₃.proc = w₂.proc := by
  obtain ⟨⟨r, x⟩, hx, hw⟩ := Option.map_eq_some_iff.mp (gated_eq_some.mp h).1
  cases hw
  have hconfig : w₂.proc.config = w.proc.config := by
    rw [hs.config]
    have hon : (Cmd.archiveWrite b k data hash).onBlob b k = true := by simp [Cmd.onBlob]
    rcases exec_onBlob hon hx with rfl | ⟨v, rfl⟩
    · rfl
    · rfl
  have hr : execArchiveWrite env b k data hash i w.toWorld = (.ok n, x) := Option.some.inj hx
  have htakes : execArchiveDelete b k {} w₂.toWorld = (.ok (), w₂.toWorld.setBlob b k none) := by
    unfold execArchiveWrite onArchive at hr
    unfold execArchiveDelete onArchive
    rw [show w₂.toWorld.proc.config = w.toWorld.proc.config from hconfig]
    split at hr
    · cases hr
    · split at hr
      · cases hr
      · rfl
  refine ⟨_, gated_eq_some.mpr ⟨congrArg (Option.map _) (congrArg some htakes), rfl⟩, ?_, rfl⟩
  exact if_pos ⟨rfl, rfl⟩

/-- where the blob and the rows can be written, the call can also fail and clean up -/
theorem ran_writeArchive_fails {o : ReclaimObject} {actor key : String} {backend : ArchiveInfo}
    {data : Bytes} {hash : ContentHash} {record : ArchiveRecord}
    (h : Ran (gated (fun _ _ _ _ => true) env t op)
      (Coordinator.writeArchive o actor backend key data hash).run w (.ok record) w')
    (e : ReclaimError) :
    ∃ w'', Ran (gated (fun _ _ _ _ => true) env t op)
        (Coordinator.writeArchive o actor backend key data hash).run w (.error e) w'' ∧
      w''.blobs backend.id key = none ∧ w''.proc.mutex = none := by
  obtain ⟨size, w₁, hwrite, h⟩ := ran_seq_ok h
  obtain ⟨i, a, hblob, hsize⟩ :=
    ran_call (c := .archiveWrite backend.id key data hash) (k := fun r => r) hwrite
  obtain ⟨_, aid, w₂, hid, h⟩ := ran_ask_seq h
  obtain ⟨_, created, w₃, hnow, h⟩ := ran_ask_seq h
  obtain ⟨o₁, w₄, hinsert, h⟩ := ran_attempt_seq h
  cases o₁ with
  | error err =>
    rcases ran_seq.mp h with ⟨_, hno, -⟩ | ⟨_, w₅, -, hlast⟩
    · cases hno
    · cases (ran_throw_seq hlast).1
  | ok _ =>
    obtain ⟨w₅, hfails, hs, hfree⟩ := ran_inner_fails hinsert e
    rw [← hsize] at hblob
    have hrest := (rests_step rfl hid).trans (rests_step rfl hnow)
    obtain ⟨w₆, hdelete, hgone, hproc⟩ :=
      archiveDelete_of_written hblob (hrest.toRests.trans hs).toOnTables
    refine ⟨w₆, ?_, hgone, ?_⟩
    · unfold Coordinator.writeArchive
      refine ran_seq.mpr (.inr ⟨size, w₁, hwrite, ?_⟩)
      refine ran_ask_then hid (ran_ask_then hnow (ran_attempt_then hfails ?_))
      exact ran_seq.mpr (.inr ⟨(), w₆, ran_attempt_then (.call hdelete .ret)
        (ran_pure.mpr ⟨rfl, rfl⟩), ran_seq.mpr (.inl ⟨e, rfl, .ret⟩)⟩)
    · rw [hproc]
      exact hfree

theorem ArchiveTarget.unique {id : Uuid} {b k b' k' : String} (h : ArchiveTarget w id b k)
    (h' : ArchiveTarget w id b' k') : b = b' ∧ k = k' := by
  obtain ⟨o, rs, p, a, ho, -, -, rfl, hp, ha, rfl, rfl⟩ := h.target
  obtain ⟨o', rs', p', a', ho', -, -, rfl, hp', ha', rfl, rfl⟩ := h'.target
  cases ho.symm.trans ho'
  cases hp.symm.trans hp'
  cases ha.symm.trans ha'
  exact ⟨rfl, rfl⟩

/-! ## the condition is enough, and only it -/

/-- **A failed archive leaves the earlier archives alone as long as it does not share a blob with
one of them.**  Whatever the state and whichever calls fail, a run of `archive` that returns an
error keeps every archive row, its intact blob and the object rows, provided that the blob it would
write is not the intact blob of an archive row already. -/
theorem archive_failed_kept {id : Uuid} {actor : String} {err : ReclaimError}
    (hu : Unshared env w id)
    (h : Ran (Traced.exec env t op) (Coordinator.archive env id actor).run w (.error err) w') :
    ArchivesKept env w w' := by
  rw [← gated_open] at h
  rcases ran_archive h with
    ⟨hs, -⟩ | ⟨o, backend, key, data, hash, w₁, w₂, htarget, hs, hwrite, hs', -⟩
  · exact hs.archivesKept
  refine BlobOnly.kept ?_ (hu backend.id key htarget)
  exact hs.blobOnly.trans ((blobOnly_writeArchive hwrite).trans hs'.blobOnly)

/-- **Only then**: a call that would share the blob, and can succeed, can also fail with any error
and lose it. -/
theorem archive_shared_loses {id : Uuid} {actor : String} {record : ArchiveRecord}
    (hu : ¬Unshared env w id)
    (h : Ran (Traced.exec env t op) (Coordinator.archive env id actor).run w (.ok record) w')
    (err : ReclaimError) :
    ∃ w'', Ran (Traced.exec env t op) (Coordinator.archive env id actor).run w (.error err) w'' ∧
      ¬ArchivesKept env w w'' := by
  rw [← gated_open] at h ⊢
  unfold Unshared at hu
  push Not at hu
  obtain ⟨b, k, htarget, a, ha, hintact, rfl, rfl⟩ := hu
  rcases ran_archive h with
    ⟨-, hdone⟩ | ⟨o, backend, key, data, hash, w₁, w₂, htarget', hs, hwrite, hs', hagain⟩
  · obtain ⟨o, ho, hstate⟩ := hdone _ rfl
    obtain ⟨o', _, _, _, ho', hstate', -⟩ := htarget.target
    rw [ho] at ho'
    cases ho'
    exact absurd hstate hstate'
  obtain ⟨hback, hkey⟩ := htarget.unique htarget'
  obtain ⟨w₃, hfails, hgone, hfree⟩ := ran_writeArchive_fails hwrite err
  obtain ⟨w₄, hdrop, hblobs⟩ : ∃ w₄, gated (fun _ _ _ _ => true) env t op
      (.removeActiveObject id) {} w₃ = some ((), w₄) ∧ w₄.blobs = w₃.blobs := by
    refine ⟨_, gated_eq_some.mpr ⟨congrArg (Option.map _) (if_pos ?_), rfl⟩, rfl⟩
    exact Option.isNone_iff_eq_none.mpr hfree
  refine ⟨w₄, hagain _ w₃ w₄ _ _ hfails hdrop, fun hkept => ?_⟩
  obtain ⟨d, hd, -⟩ := hkept.blobs a ha hintact
  rw [hblobs, hback, hkey, hgone] at hd
  cases hd

end

namespace Sample

def archive : Op := .archive (uuid 10) "client"

/-- a registered object -/
def registered : Option Sys := after free (opened free) (register (object 10) "x") 200

/-- the object has been archived and restored; its replica and its archive row are still there -/
def roundTrip : Option Sys :=
  after free (after free registered archive 400) (.restore (uuid 10) "client") 600

theorem registered_reached : Reached anyRun registered :=
  (reached_opened free_ok trivial).after free_ok

theorem roundTrip_reached : Reached anyRun roundTrip :=
  (registered_reached.after free_ok).after free_ok

/-- the outcome is an error -/
def failed {α : Type} : Res α → Bool
  | .ok _ => false
  | .error _ => true

/-- the second archive cannot write its row and removes the blob of the first -/
theorem roundTrip_loses : (roundTrip.any fun s =>
    ((Coordinator.archive env (uuid 10) "client").run.eval (Traced.exec env 1 archive)
      (failing 47 800) 0 s.shared).any fun x => failed x.1 &&
        s.shared.store.archives.rows.any fun a =>
          (s.shared.blobs a.backend a.key).any (fun d => decide (env.sha256 d = a.contentHash)) &&
            (x.2.blobs a.backend a.key).isNone) = true := by
  decide +kernel

/-- the first archive cannot write its row -/
theorem registered_fails : (registered.any fun s =>
    decide (s.shared.store.archives.rows = []) &&
    ((Coordinator.archive env (uuid 10) "client").run.eval (Traced.exec env 1 archive)
      (failing 47 400) 0 s.shared).any fun x => failed x.1) = true := by
  decide +kernel

end Sample

theorem archive_failed_loses : ∃ s err w', Reach Sample.env anyRun s ∧
    Ran (Traced.exec Sample.env 1 Sample.archive)
      (Coordinator.archive Sample.env (Sample.uuid 10) "client").run s.shared (.error err) w' ∧
    ¬ArchivesKept Sample.env s.shared w' := by
  obtain ⟨s, hs, h⟩ := (Option.any_eq_true _ _).mp Sample.roundTrip_loses
  obtain ⟨⟨r, w'⟩, hev, h⟩ := (Option.any_eq_true _ _).mp h
  rw [Bool.and_eq_true, List.any_eq_true] at h
  obtain ⟨hr, a, ha, h⟩ := h
  rw [Bool.and_eq_true, Option.any_eq_true] at h
  obtain ⟨⟨d, hd, hsha⟩, hgone⟩ := h
  cases r with
  | ok _ => cases hr
  | error err =>
    refine ⟨s, err, w', Sample.roundTrip_reached s hs, Prog.ran_of_eval hev, fun hkept => ?_⟩
    obtain ⟨d', hd', -⟩ := hkept.blobs a ha ⟨d, hd, of_decide_eq_true hsha⟩
    have hgone : (w'.blobs a.backend a.key).isNone = true := hgone
    rw [hd'] at hgone
    cases hgone

theorem archive_failed_kept_first : ∃ s err w', Reach Sample.env anyRun s ∧
    Ran (Traced.exec Sample.env 1 Sample.archive)
      (Coordinator.archive Sample.env (Sample.uuid 10) "client").run s.shared (.error err) w' ∧
    ArchivesKept Sample.env s.shared w' := by
  obtain ⟨s, hs, h⟩ := (Option.any_eq_true _ _).mp Sample.registered_fails
  rw [Bool.and_eq_true] at h
  obtain ⟨⟨r, w'⟩, hev, hr⟩ := (Option.any_eq_true _ _).mp h.2
  cases r with
  | ok _ => cases hr
  | error err =>
    have hran := Prog.ran_of_eval hev
    have hunshared : Unshared Sample.env s.shared (Sample.uuid 10) := by
      intro b k _ a ha
      rw [← Table.mem_rows, of_decide_eq_true h.1] at ha
      exact absurd ha List.not_mem_nil
    exact ⟨s, err, w', Sample.registered_reached s hs, hran, archive_failed_kept hunshared hran⟩

end ReclaimFabric
