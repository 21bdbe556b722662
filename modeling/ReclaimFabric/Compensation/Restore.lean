import ReclaimFabric.Compensation.Compress

/-!
# The compensation of restore

The metadata section of `restore` notes in three flags how far it got.  An object that still has
its logical copy takes another path, which has no compensation.

* `Restoring`             the tables are those of the start with the changes the flags stand for;
* `restoreMetadata_applied`, `undoRestore_applied`   the section and its compensation;
* `restoreGuarded_undone` a failed write of the section leaves rows and referenced payloads;
* `restoreExisting_undone` the other path: only the audit record comes after a write.
-/

set_option linter.unusedSectionVars false

namespace ReclaimFabric

open Prog (Ran Only attempt settle)
open Coordinator (RestoreProgress)

/-! ## what the flags stand for -/

/-- what restore has read before it writes -/
structure RestoreSetting (o : ReclaimObject) (replica : Replica) (existing : Option DedupEntry)
    (d : Data) : Prop where
  row : d.objects.find? o.id = some o
  target : d.dedup.find? (replica.contentHash, replica.location.backend) = existing
  counted : ∀ e, existing = some e → e.refCount ≠ 0

/-- the tables with the changes that the flags stand for -/
structure Restoring (o : ReclaimObject) (replica : Replica) (existing : Option DedupEntry)
    (p : RestoreProgress) (d₀ d : Data) : Prop where
  objects : ∀ X, ¬(p.objectUpdated = true ∧ X = o.id) → d.objects.find? X = d₀.objects.find? X
  replicas : ∀ r, r ∈ d.replicas ↔ r ∈ d₀.replicas ∨ (p.replicaRecorded = true ∧ r = replica)
  fresh : p.replicaRecorded = true → ∀ r ∈ d₀.replicas, r.replicaId ≠ replica.replicaId
  dedup : ∀ key, d.dedup.find? key =
    if p.dedupRecorded = true ∧ key = (replica.contentHash, replica.location.backend) then
      some (referenced existing replica)
    else d₀.dedup.find? key

section
variable {o : ReclaimObject} {replica : Replica} {existing : Option DedupEntry}
  {p : RestoreProgress} {d₀ d : Data} {s s' : Store}

theorem Restoring.start (d : Data) : Restoring o replica existing {} d d where
  objects := fun _ _ => rfl
  replicas := by
    intro r
    constructor
    · exact fun hr => .inl hr
    · rintro (hr | ⟨hno, -⟩)
      · exact hr
      · cases hno
  fresh := nofun
  dedup := by
    intro key
    rw [if_neg (fun h => Bool.noConfusion h.1)]

/-- no flag is set: the rows are those of the start -/
theorem Restoring.equalRows (h : Restoring o replica existing {} d₀ d) : EqualRows d₀ d where
  objects := fun X => h.objects X (fun hc => Bool.noConfusion hc.1)
  replicas := by
    intro r
    rw [h.replicas]
    constructor
    · rintro (hr | ⟨hno, -⟩)
      · exact hr
      · cases hno
    · exact fun hr => .inl hr
  dedup := by
    intro key
    rw [h.dedup, if_neg (fun hc => Bool.noConfusion hc.1)]

/-! ## the writes of the section -/

theorem Restoring.record (h : Restoring o replica existing {} d₀ s.data)
    (hset : Store.DedupSet s s' (replica.contentHash, replica.location.backend)
      (some (referenced existing replica))) :
    Restoring o replica existing { dedupRecorded := true } d₀ s'.data := by
  obtain ⟨T, hd, hfind⟩ := hset
  rw [hd]
  refine ⟨h.objects, h.replicas, h.fresh, ?_⟩
  intro key
  rw [hfind key]
  by_cases hk : key = (replica.contentHash, replica.location.backend)
  · rw [if_pos hk, if_pos ⟨rfl, hk⟩]
  · rw [if_neg hk, if_neg (fun hc => hk hc.2)]
    exact h.equalRows.dedup key

theorem Restoring.addReplica (h : Restoring o replica existing p d₀ s.data)
    (hno : p.replicaRecorded = false) {u : Unit}
    (hrun : Store.addReplica replica s = .ok (u, s')) :
    Restoring o replica existing { p with replicaRecorded := true } d₀ s'.data := by
  obtain ⟨T, hswap, -, hd⟩ := Store.addReplica_ok hrun
  have hrow (r : Replica) : r ∈ s.replicas ↔ r ∈ d₀.replicas := by
    have hold : r ∈ s.replicas ↔ _ := h.replicas r
    rw [hold, hno]
    constructor
    · rintro (hr | ⟨hc, -⟩)
      · exact hr
      · cases hc
    · exact fun hr => .inl hr
  have hfresh (r : Replica) (hr : r ∈ s.replicas) : r.replicaId ≠ replica.replicaId := by
    intro hid
    cases hswap.2.1 r hr hid
  rw [hd]
  refine ⟨h.objects, ?_, fun _ r hr => hfresh r ((hrow r).mpr hr), h.dedup⟩
  intro r
  show r ∈ T ↔ _
  rw [hswap.2.2.2.2 r]
  constructor
  · rintro (⟨hr, -⟩ | hr)
    · exact .inl ((hrow r).mp hr)
    · cases hr
      exact .inr ⟨rfl, rfl⟩
  · rintro (hr | ⟨-, rfl⟩)
    · have hmem := (hrow r).mpr hr
      exact .inl ⟨hmem, hfresh r hmem⟩
    · exact .inr rfl

theorem Restoring.updateRow (h : Restoring o replica existing p d₀ s.data) {x : ReclaimObject}
    (hid : x.id = o.id) {u : Unit} (hrun : Store.updateObject x s = .ok (u, s')) :
    Restoring o replica existing { p with objectUpdated := true } d₀ s'.data := by
  obtain ⟨-, -, -, hd⟩ := Store.updateObject_ok hrun
  rw [hd]
  refine ⟨?_, h.replicas, h.fresh, h.dedup⟩
  intro X hX
  have hne : X ≠ o.id := fun he => hX ⟨rfl, he⟩
  show (s.objects.replace x).find? X = _
  rw [Table.find?_replace, if_neg (fun he => hne (he.symm.trans hid))]
  exact h.objects X fun hc => hne hc.2

/-! ## the compensation -/

theorem Restoring.restoreRow (hs : RestoreSetting o replica existing d₀)
    (h : Restoring o replica existing p d₀ s.data) {u : Unit}
    (hrun : Store.updateObject o s = .ok (u, s')) :
    Restoring o replica existing { p with objectUpdated := false } d₀ s'.data := by
  obtain ⟨-, -, ⟨old, hold⟩, hd⟩ := Store.updateObject_ok hrun
  rw [hd]
  refine ⟨?_, h.replicas, h.fresh, h.dedup⟩
  intro X _
  show (s.objects.replace o).find? X = _
  rw [Table.find?_replace]
  by_cases hX : o.id = X
  · rw [if_pos hX, ← hX, hold, hs.row]
    rfl
  · rw [if_neg hX]
    exact h.objects X fun hc => hX hc.2.symm

theorem Restoring.deleteReplica (h : Restoring o replica existing p d₀ s.data)
    (hadd : p.replicaRecorded = true) {u : Unit}
    (hrun : Store.deleteReplica replica.replicaId s = .ok (u, s')) :
    Restoring o replica existing { p with replicaRecorded := false } d₀ s'.data := by
  have hfresh := h.fresh hadd
  rw [Store.deleteReplica_ok hrun]
  refine ⟨h.objects, ?_, nofun, h.dedup⟩
  intro r
  show r ∈ s.replicas.erase replica.replicaId ↔ _
  rw [Table.mem_erase]
  have hold : r ∈ s.replicas ↔ _ := h.replicas r
  rw [hold]
  constructor
  · rintro ⟨hr | ⟨-, rfl⟩, hid⟩
    · exact .inl hr
    · exact absurd rfl hid
  · rintro (hr | ⟨hno, -⟩)
    · exact ⟨.inl hr, hfresh r hr⟩
    · cases hno

/-- the reference is given back; it was the last one only when the row is new -/
theorem Restoring.release (hs : RestoreSetting o replica existing d₀)
    (h : Restoring o replica existing p d₀ s.data) (hrec : p.dedupRecorded = true) {last : Bool}
    (hrun : Store.dedupRelease replica.contentHash replica.location.backend s = .ok (last, s')) :
    (last = true → existing = none) ∧
      Restoring o replica existing { p with dedupRecorded := false } d₀ s'.data := by
  obtain ⟨e, hfind, -, hlast, T, hd, hset⟩ := Store.dedupRelease_ok hrun
  have he : e = referenced existing replica := by
    have hread : s.dedup.find? _ = _ := h.dedup (replica.contentHash, replica.location.backend)
    rw [if_pos ⟨hrec, rfl⟩, hfind] at hread
    exact Option.some.inj hread
  obtain ⟨hback, hnone⟩ := unreferenced_referenced replica hs.counted
  rw [← he] at hback hnone
  rw [hd]
  refine ⟨?_, h.objects, h.replicas, h.fresh, ?_⟩
  · rw [hlast, decide_eq_true_iff]
    exact hnone
  · intro key
    rw [hset key]
    by_cases hk : key = (replica.contentHash, replica.location.backend)
    · rw [if_pos hk]
      show unreferenced e = _
      rw [hback, if_neg (fun hc => Bool.noConfusion hc.1), hk, hs.target]
    · have hprev : s.dedup.find? key = _ := h.dedup key
      rw [if_neg hk, hprev]
      simp only [hk, and_false, if_false]

end

/-! ## the section -/

section
variable {B : Set Bytes} [DecidablePred (· ∈ B)] {n : Nat} {env : Env} {t : Tid} {op : Op}
  {w w' : Traced} {o : ReclaimObject} {replica : Replica} {existing : Option DedupEntry}
  {p : RestoreProgress} {d₀ : Data} {actor : String}

theorem overflows_count {X : Uuid} {count : Nat} :
    (StoreOp.validReplicaCount X).overflows count = decide (2 ^ 32 ≤ count) := rfl

/-- a count fails, does not fit, or is carried on with -/
theorem lone_count {α : Type} {X : Uuid} {f : Nat → M α} {r : Res α} (hn : n ≤ w.log.length)
    (h : Ran (gated (lone B n) env t op) (do
      let count ← Coordinator.store (.validReplicaCount X)
      let count ← settle (Coordinator.replicaCountU32 count)
      f count : M α).run w r w') :
    ((∃ e, r = .error e) ∧ Rests w w' ∧ w'.failures n = [.validReplicaCount X]) ∨
      ∃ count w₁, Rests w w₁ ∧ w₁.failures n = w.failures n ∧
        Ran (gated (lone B n) env t op) (f count).run w₁ r w' := by
  rcases ran_seq.mp h with ⟨e, rfl, hx⟩ | ⟨count, w₁, hx, h⟩
  · obtain ⟨i, he⟩ := ran_storeCall hx
    rcases lone_store hn he with ⟨_, -, hs, -, hf⟩ | ⟨_, hno, -⟩
    · exact .inl ⟨⟨e, rfl⟩, hs, hf⟩
    · cases hno
  obtain ⟨i, he⟩ := ran_storeCall hx
  rcases lone_store hn he with ⟨_, hno, -⟩ | ⟨a, ha, hrun, hon, hf⟩
  · cases hno
  cases ha
  have hstore : w.store = w₁.store := (Prod.mk.inj (Except.ok.inj hrun)).2
  have hs : Rests w w₁ := ⟨hon, congrArg Store.data hstore.symm⟩
  rcases hf with ⟨hover, hf⟩ | ⟨hfits, hf⟩
  · rw [overflows_count, decide_eq_true_iff] at hover
    unfold Coordinator.replicaCountU32 at h
    rw [if_neg (Nat.not_lt.mpr hover)] at h
    obtain ⟨rfl, rfl⟩ := ran_throw_seq h
    exact .inl ⟨⟨_, rfl⟩, hs, hf⟩
  · rw [overflows_count, decide_eq_false_iff_not] at hfits
    unfold Coordinator.replicaCountU32 at h
    rw [if_pos (Nat.not_le.mp hfits)] at h
    exact .inr ⟨count, w₁, hs, hf, h⟩

/-- the count and the object row of the section -/
theorem restoredRow_ran {r : Res ReclaimObject} (hn : n ≤ w.log.length)
    (h : Ran (gated (lone B n) env t op)
      (Coordinator.restoreMetadata.restoredRow o replica).run w r w') :
    ((∃ e, r = .error e) ∧ Rests w w' ∧ w'.failures n ≠ []) ∨
      (∃ x, r = .ok x) ∧ OnTables w w' ∧ w'.failures n = w.failures n ∧
        ∃ x u s s', x.id = o.id ∧ s.data = w.store.data ∧ Store.updateObject x s = .ok (u, s') ∧
          s'.data = w'.store.data := by
  rcases lone_count hn h with ⟨he, hs, hf⟩ | ⟨count, w₁, hs, hf, h₁⟩
  · refine .inl ⟨he, hs, ?_⟩
    rw [hf]
    exact List.cons_ne_nil _ _
  have hn₁ := hs.toOnTables.length hn
  rcases ran_seq.mp h₁ with ⟨e, rfl, hx⟩ | ⟨_, w₂, hx, h₂⟩
  · obtain ⟨i, he⟩ := ran_storeCall hx
    rcases lone_store hn₁ he with ⟨_, -, hs', -, hf'⟩ | ⟨_, hno, -⟩
    · refine .inl ⟨⟨e, rfl⟩, hs.trans hs', ?_⟩
      rw [hf']
      exact List.cons_ne_nil _ _
    · cases hno
  · obtain ⟨i, he⟩ := ran_storeCall hx
    obtain ⟨rfl, rfl⟩ := ran_pure.mp h₂
    rcases lone_store hn₁ he with ⟨_, hno, -⟩ | ⟨_, -, hrun, hon, hf'⟩
    · cases hno
    rcases hf' with ⟨hno, -⟩ | ⟨-, hf'⟩
    · cases hno
    · exact .inr ⟨⟨_, rfl⟩, hs.toOnTables.trans hon, hf'.trans hf,
        Coordinator.restoredObject o replica.size count, _, w₁.store, w'.store, rfl, hs.data, hrun,
        rfl⟩

/-- the audit record of the section -/
theorem restoredTrail_ran {r : Res Unit} (hn : n ≤ w.log.length)
    (h : Ran (gated (lone B n) env t op)
      (Coordinator.restoreMetadata.restoredTrail o actor replica).run w r w') :
    ((∃ e, r = .error e) ∧ Rests w w' ∧ w'.failures n ≠ []) ∨
      (∃ x, r = .ok x) ∧ OnTables w w' ∧ w'.failures n = w.failures n := by
  obtain ⟨_, ts, w₁, hts, h₁⟩ := ran_ask_seq h
  have hs := rests_step rfl hts
  have hf₁ := gated_failures hn hts
  obtain ⟨i, he⟩ := ran_storeCall h₁
  rcases lone_store (hs.toOnTables.length hn) he with ⟨e, rfl, hs', -, hf⟩ | ⟨_, rfl, -, hon, hf⟩
  · refine .inl ⟨⟨e, rfl⟩, hs.toRests.trans hs', ?_⟩
    rw [hf]
    exact List.cons_ne_nil _ _
  · rcases hf with ⟨hno, -⟩ | ⟨-, hf⟩
    · cases hno
    · exact .inr ⟨⟨_, rfl⟩, hs.toOnTables.trans hon, hf.trans hf₁⟩

/-- the part of the section after the reference is recorded -/
theorem restoreRows_applied {r : Res (RestoreProgress × Res ReclaimObject)} (hn : n ≤ w.log.length)
    (hp : Restoring o replica existing { dedupRecorded := true } d₀ w.store.data)
    (h : Ran (gated (lone B n) env t op) (do
      let p : RestoreProgress := { dedupRecorded := true }
      match ← attempt (Coordinator.store (.addReplica replica)) with
      | .error e => pure (p, .error e)
      | .ok () =>
        let p := { p with replicaRecorded := true }
        match ← attempt (Coordinator.restoreMetadata.restoredRow o replica) with
        | .error e => pure (p, .error e)
        | .ok restored =>
          let p := { p with objectUpdated := true }
          match ← attempt (Coordinator.restoreMetadata.restoredTrail o actor replica) with
          | .error e => pure (p, .error e)
          | .ok () => pure (p, .ok restored) : M (RestoreProgress × Res ReclaimObject)).run w r w') :
    SectionEnd (Restoring o replica existing · d₀) n w r w' := by
  rcases lone_attempt hn (fun _ => rfl) h with ⟨e, w₁, hs, hf, h₁⟩ | ⟨_, w₁, hrun, hon, hf, h₁⟩
  · obtain ⟨rfl, rfl⟩ := ran_pure.mp h₁
    exact .failed hs hf hp
  refine .after hon hf ?_
  have hn₁ := hon.length hn
  have hp₁ := hp.addReplica rfl hrun
  obtain ⟨x, w₂, hx, h₂⟩ := ran_attempt_seq h₁
  rcases restoredRow_ran hn₁ hx with
    ⟨⟨e, rfl⟩, hs, hf⟩ | ⟨⟨y, rfl⟩, hon, hf, x, u, s, s', hid, hsd, hrun, hsd'⟩
  · obtain ⟨rfl, rfl⟩ := ran_pure.mp h₂
    exact .failed hs hf hp₁
  refine .after hon hf ?_
  have hn₂ := hon.length hn₁
  rw [← hsd] at hp₁
  have hp₂ := hp₁.updateRow hid hrun
  rw [hsd'] at hp₂
  obtain ⟨x, w₃, hx, h₃⟩ := ran_attempt_seq h₂
  rcases restoredTrail_ran hn₂ hx with ⟨⟨e, rfl⟩, hs, hf⟩ | ⟨⟨_, rfl⟩, hon, hf⟩
  · obtain ⟨rfl, rfl⟩ := ran_pure.mp h₃
    exact .failed hs hf hp₂
  · obtain ⟨rfl, rfl⟩ := ran_pure.mp h₃
    exact ⟨hon, _, _, rfl, .inr ⟨⟨_, rfl⟩, hf⟩⟩

theorem restoreMetadata_applied {r : Res (RestoreProgress × Res ReclaimObject)}
    (hn : n ≤ w.log.length) (hs : RestoreSetting o replica existing w.store.data)
    (h : Ran (gated (lone B n) env t op)
      (Coordinator.restoreMetadata o actor replica existing).run w r w') :
    SectionEnd (Restoring o replica existing · w.store.data) n w r w' := by
  have hstart : Restoring o replica existing {} w.store.data w.store.data := .start _
  cases hex : existing with
  | none =>
    subst hex
    rcases lone_attempt hn (fun _ => rfl) h with ⟨e, w₁, hs', hf, h₁⟩ | ⟨_, w₁, hrun, hon, hf, h₁⟩
    · obtain ⟨rfl, rfl⟩ := ran_pure.mp h₁
      exact .failed hs' hf hstart
    · exact .after hon hf (restoreRows_applied (hon.length hn)
        (hstart.record (Store.insertDedup_ok hrun).2) h₁)
  | some e =>
    subst hex
    rcases lone_attempt hn (fun _ => rfl) h with ⟨e, w₁, hs', hf, h₁⟩ | ⟨_, w₁, hrun, hon, hf, h₁⟩
    · obtain ⟨rfl, rfl⟩ := ran_pure.mp h₁
      exact .failed hs' hf hstart
    · refine .after hon hf (restoreRows_applied (hon.length hn) (hstart.record ?_) h₁)
      obtain ⟨x, hfind, -, hset⟩ := Store.dedupAcquire_ok hrun
      have hx : x = e := Option.some.inj (hfind.symm.trans hs.target)
      rw [hx] at hset
      exact hset

/-! ## its compensation -/

theorem undoRestore_applied {wrote : Bool} {u : Res Bool}
    (hs : RestoreSetting o replica existing d₀) (hwrote : existing = none → wrote = true)
    (hw : Undoing (Restoring o replica existing · d₀) n p w)
    (h : Ran (gated (lone B n) env t op) (Coordinator.undoRestore p o replica wrote).run w u w') :
    OnTables w w' ∧ (∃ last, u = .ok last ∧ (last = true → wrote = true)) ∧
      EqualRows d₀ w'.store.data := by
  -- one flag after the other is taken back
  have hrow : ∃ w₁, OnTables w w₁ ∧
      Undoing (Restoring o replica existing · d₀) n { p with objectUpdated := false } w₁ ∧
      Ran (gated (lone B n) env t op) (do
        if p.replicaRecorded then
          Coordinator.store (.deleteReplica replica.replicaId)
        if p.dedupRecorded then
          Coordinator.store (.dedupRelease replica.contentHash replica.location.backend)
        else pure wrote : M Bool).run w₁ u w' := by
    unfold Coordinator.undoRestore at h
    rcases ran_guarded h with ⟨-, hx⟩ | ⟨hno, hx⟩
    · obtain ⟨_, w₁, hrun, hon, hf, hx⟩ := lone_sure_seq hw.length hw.failed hx
      exact ⟨w₁, hon, hw.next hon hf (hw.applied.restoreRow hs hrun), hx⟩
    · refine ⟨w, (Rests.refl w).toOnTables, ⟨hw.length, hw.failed, ?_⟩, hx⟩
      have hp : { p with objectUpdated := false } = p := by
        rw [← Bool.eq_false_of_not_eq_true hno]
      rw [hp]
      exact hw.applied
  obtain ⟨w₁, hon₁, hw₁, h₁⟩ := hrow
  have hrep : ∃ w₂, OnTables w w₂ ∧ Undoing (Restoring o replica existing · d₀) n
      { dedupRecorded := p.dedupRecorded } w₂ ∧
      Ran (gated (lone B n) env t op) (if p.dedupRecorded then
        Coordinator.store (.dedupRelease replica.contentHash replica.location.backend)
        else pure wrote : M Bool).run w₂ u w' := by
    rcases ran_guarded h₁ with ⟨hadd, hx⟩ | ⟨hno, hx⟩
    · obtain ⟨_, w₂, hrun, hon, hf, hx⟩ := lone_sure_seq hw₁.length hw₁.failed hx
      exact ⟨w₂, hon₁.trans hon, hw₁.next hon hf (hw₁.applied.deleteReplica hadd hrun), hx⟩
    · refine ⟨w₁, hon₁, ⟨hw₁.length, hw₁.failed, ?_⟩, hx⟩
      have hp : ({ dedupRecorded := p.dedupRecorded } : RestoreProgress) =
          { p with objectUpdated := false } := by
        rw [← Bool.eq_false_of_not_eq_true hno]
      rw [hp]
      exact hw₁.applied
  obtain ⟨w₂, hon₂, hw₂, h₂⟩ := hrep
  by_cases hrec : p.dedupRecorded = true
  · rw [if_pos hrec] at h₂
    obtain ⟨last, rfl, hrun, hon, -⟩ := lone_sure hw₂.length hw₂.failed h₂
    obtain ⟨hlast, hundone⟩ := hw₂.applied.release hs hrec hrun
    exact ⟨hon₂.trans hon, ⟨last, rfl, fun h => hwrote (hlast h)⟩, hundone.equalRows⟩
  · rw [if_neg hrec] at h₂
    obtain ⟨rfl, rfl⟩ := ran_pure.mp h₂
    refine ⟨hon₂, ⟨wrote, rfl, id⟩, ?_⟩
    have happlied := hw₂.applied
    rw [Bool.eq_false_of_not_eq_true hrec] at happlied
    exact happlied.equalRows

/-- the section with its compensation -/
def Coordinator.recordRestored (o : ReclaimObject) (actor : String) (replica : Replica)
    (existing : Option DedupEntry) (wrote : Bool) : M ReclaimObject := do
  let (progress, result) ← restoreGuarded.withProgress
    (withInner (restoreMetadata o actor replica existing))
  match result with
  | .ok restored => pure restored
  | .error e => do
    if ← withInner (undoRestore progress o replica wrote) then
      mapErr (fun cleanup => .internal
          s!"restore metadata failed ({e}); payload cleanup also failed ({cleanup})")
        (deletePayload replica.location.backend replica.location.key)
    throw e

/-- the payload that was written is deleted, and the error is returned -/
theorem discard_restored {wrote last : Bool} {b k : String} {e : ReclaimError}
    {g : ReclaimError → ReclaimError} {u : Res ReclaimObject} (hlast : last = true → wrote = true)
    (h : Ran (gated (lone B n) env t op) (do
      if last then
        Coordinator.mapErr g (Coordinator.deletePayload b k)
      throw e : M ReclaimObject).run w u w') :
    (∃ e', u = .error e') ∧ PayloadOnly wrote b k w w' ∧ w'.store.data = w.store.data ∧
      (Clean n w → Clean n w') := by
  rcases ran_guarded h with ⟨hdel, hx⟩ | ⟨-, hx⟩
  · rw [hlast hdel]
    have hon {o : Res Unit} {w₁ : Traced} (hx : Ran (gated (lone B n) env t op)
        (Coordinator.mapErr g (Coordinator.deletePayload b k)).run w o w₁) :
        OnPayload b k w w₁ ∧ (Clean n w → Clean n w₁) := by
      obtain ⟨_, hx, -⟩ := ran_mapErr hx
      exact ⟨onPayload_ran (writesAt_deletePayload b k) hx,
        fun hw => clean_ran (writesAt_deletePayload b k).plain hw hx⟩
    rcases ran_seq.mp hx with ⟨e', rfl, hcall⟩ | ⟨_, w₁, hcall, hlast⟩
    · exact ⟨⟨e', rfl⟩, (hon hcall).1.payloads, (hon hcall).1.data, (hon hcall).2⟩
    · obtain ⟨rfl, rfl⟩ := ran_throw hlast
      exact ⟨⟨e, rfl⟩, (hon hcall).1.payloads, (hon hcall).1.data, (hon hcall).2⟩
  · obtain ⟨rfl, rfl⟩ := ran_throw hx
    exact ⟨⟨e, rfl⟩, fun _ _ _ => rfl, rfl, id⟩

theorem recordRestored_undone {wrote : Bool} {u : Res ReclaimObject} (hw : Clean n w)
    (hs : RestoreSetting o replica existing w.store.data) (hwrote : existing = none → wrote = true)
    (h : Ran (gated (lone B n) env t op)
      (Coordinator.recordRestored o actor replica existing wrote).run w u w') :
    Clean n w' ∨ (∃ e, u = .error e) ∧ EqualRows w.store.data w'.store.data ∧
      PayloadOnly wrote replica.location.backend replica.location.key w w' := by
  rcases ran_seq.mp h with ⟨_, -, hx⟩ | ⟨q, w₁, hx, h⟩
  · obtain ⟨_, hno, -⟩ := ran_progress hx (fun _ => rfl) fun _ => rfl
    cases hno
  obtain ⟨_, hq, hend⟩ := ran_progress hx (fun _ => rfl) fun _ => rfl
  cases hq
  rcases hend with ⟨⟨e, rfl⟩, hrest⟩ | ⟨w₂, w₃, o', hrest, hbody, hrest', hq⟩
  · -- the section did not start, and there is no row to undo
    have hclean := hw.resting hrest
    have hnothing : Restful (Coordinator.withInner (Coordinator.undoRestore {} o replica wrote)) :=
      restful_withInner only_pure
    rcases ran_seq.mp h with ⟨_, -, hundo⟩ | ⟨last, w₂, hundo, hrun⟩
    · exact .inl (hclean.resting (rests hnothing hundo))
    · have hlast : last = true → last = true := id
      exact .inl ((discard_restored hlast hrun).2.2.2 (hclean.resting (rests hnothing hundo)))
  have hn₂ := hrest.toOnTables.length hw.1
  have hs₂ : RestoreSetting o replica existing w₂.store.data := by
    rw [hrest.data]
    exact hs
  obtain ⟨hon, p, res, rfl, hend⟩ := restoreMetadata_applied hn₂ hs₂ hbody
  cases hq _ rfl
  have hn₃ := hon.length hn₂
  rcases hend with ⟨⟨e, rfl⟩, happlied, hf⟩ | ⟨⟨x, rfl⟩, hf⟩
  · refine .inr ?_
    have hn₁ := hrest'.toOnTables.length hn₃
    have hf₁ := failures_ne_nil hn₃ hf hrest'.log
    have hundo {x : Res Bool} {w₄ : Traced} (hx : Ran (gated (lone B n) env t op)
        (Coordinator.withInner (Coordinator.undoRestore p o replica wrote)).run w₁ x w₄) :
        OnTables w₁ w₄ ∧ (∃ last, x = .ok last ∧ (last = true → wrote = true)) ∧
          EqualRows w₂.store.data w₄.store.data := by
      rcases ran_withInner hx with ⟨_, -, -, hno⟩ | ⟨w₅, w₆, hr₅, hbody₅, hr₆⟩
      · exact absurd (lone_assured hn₁ hf₁) hno
      have hundoing : Undoing (Restoring o replica existing · w₂.store.data) n p w₅ := by
        refine ⟨hr₅.toOnTables.length hn₁, failures_ne_nil hn₁ hf₁ hr₅.log, ?_⟩
        rw [hr₅.data, hrest'.data]
        exact happlied
      obtain ⟨hon₅, hlast, hrows⟩ := undoRestore_applied hs₂ hwrote hundoing hbody₅
      refine ⟨hr₅.toOnTables.trans (hon₅.trans hr₆.toOnTables), hlast, ?_⟩
      rw [hr₆.data]
      exact hrows
    rcases ran_seq.mp h with ⟨_, -, hx⟩ | ⟨last, w₄, hx, hrun⟩
    · obtain ⟨-, ⟨_, hno, -⟩, -⟩ := hundo hx
      cases hno
    obtain ⟨hon₄, ⟨_, hlast, hdel⟩, hrows⟩ := hundo hx
    cases hlast
    obtain ⟨hu, hpay, hdata, -⟩ := discard_restored hdel hrun
    refine ⟨hu, ?_, ?_⟩
    · rw [hdata, ← hrest.data]
      exact hrows
    · have hall : OnTables w w₄ :=
        hrest.toOnTables.trans (hon.trans (hrest'.toOnTables.trans hon₄))
      exact hall.payloadOnly.trans hpay
  · refine .inl ?_
    obtain ⟨-, rfl⟩ := ran_pure.mp h
    have hclean₃ : Clean n w₃ := by
      refine ⟨hn₃, ?_⟩
      rw [hf]
      exact (hw.resting hrest).2
    exact hclean₃.resting hrest'

/-! ## the payload -/

/-- the key under which a new payload is restored -/
def vaultKey (record : ArchiveRecord) : String := Coordinator.flattenKey record.key ++ "-restored"

theorem writesAt_restoreTarget {b : String} {g : ContentHash} {record : ArchiveRecord}
    {data : Bytes} {ex : Option DedupEntry} :
    WritesAt b (vaultKey record) (Coordinator.restoreTarget env b g record data ex) := by
  cases ex with
  | none => exact only_bind (writesAt_writePayloadTo b _ data) fun _ => only_pure
  | some e =>
    have hread : WritesAt b (vaultKey record) (do
        let canonical ← Coordinator.readPayload b e.key
        settle (env.verifySha256 canonical g)
        pure (e.key, false) : M (String × Bool)) :=
      only_bind (restful_readPayload b e.key).writesAt fun _ =>
        only_bind only_settle fun _ => only_pure
    exact only_ite (only_bind only_throw fun _ => hread) hread

/-- a payload is written under its own key when no row has its hash -/
theorem restoreTarget_ok {b key : String} {g : ContentHash} {record : ArchiveRecord} {data : Bytes}
    {wrote : Bool} (h : Ran (gated (lone B n) env t op)
      (Coordinator.restoreTarget env b g record data existing).run w (.ok (key, wrote)) w') :
    (∀ e, existing = some e → e.refCount ≠ 0) ∧ (existing = none → wrote = true) ∧
      (wrote = true → existing = none ∧ key = vaultKey record) ∧ PayloadOnly wrote b key w w' := by
  cases existing with
  | none =>
    obtain ⟨_, w₁, hx, h⟩ := ran_seq_ok h
    obtain ⟨hr, rfl⟩ := ran_pure.mp h
    cases hr
    refine ⟨?_, fun _ => rfl, fun _ => ⟨rfl, rfl⟩,
      (onPayload_ran (writesAt_writePayloadTo b _ data) hx).payloads⟩
    rintro _ ⟨⟩
  | some e =>
    unfold Coordinator.restoreTarget at h
    simp only at h
    split at h
    · cases (ran_throw_seq h).1
    · next hne =>
      obtain ⟨_, w₁, hx, h⟩ := ran_seq_ok h
      obtain ⟨_, w₂, hv, h⟩ := ran_seq_ok h
      obtain ⟨hr, rfl⟩ := ran_pure.mp h
      obtain ⟨-, rfl⟩ := ran_settle.mp hv
      cases hr
      have hread := (rests (restful_readPayload b e.key) hx).toOnTables
      refine ⟨?_, fun hno => absurd hno (Option.some_ne_none e), Bool.noConfusion,
        hread.payloadOnly⟩
      rintro _ ⟨⟩
      exact hne

/-- the part of `restore` that writes a payload -/
theorem restoreGuarded_undone {b : String} {record : ArchiveRecord} {data : Bytes}
    {u : Res ReclaimObject} (hw : Clean n w) (hrow : w.store.objects.find? o.id = some o)
    (hfresh : w.store.dedup.find? (env.sha256 data, b) = none →
      ∀ e ∈ w.store.dedup, ¬(e.backend = b ∧ e.key = vaultKey record))
    (h : Ran (gated (lone B n) env t op)
      (Coordinator.restoreGuarded env o actor b record data).run w u w') :
    Clean n w' ∨ (∃ e, u = .error e) ∧ Undone w w' := by
  rcases clean_seq (restful_inner rfl).plain hw h with hend | ⟨existing, w₁, hx, hw₁, h₁⟩
  · exact .inl hend
  obtain ⟨hs₁, hread⟩ := ran_innerRead rfl hx
  obtain ⟨s, s', hsd, hrun⟩ := hread existing rfl
  have htarget : w.store.dedup.find? (env.sha256 data, b) = existing := by
    cases hrun
    rw [show s.dedup = w.store.dedup from congrArg Data.dedup hsd]
  rcases clean_seq writesAt_restoreTarget.plain hw₁ h₁ with
    hend | ⟨⟨key, wrote⟩, w₂, hx, hw₂, h₂⟩
  · exact .inl hend
  obtain ⟨hcount, hwrote, hnew, hpay⟩ := restoreTarget_ok hx
  have hdata := (onPayload_ran writesAt_restoreTarget hx).data.trans hs₁.data
  obtain ⟨_, rid, w₃, hid, h₃⟩ := ran_ask_seq h₂
  obtain ⟨_, created, w₄, hcreated, h₄⟩ := ran_ask_seq h₃
  obtain ⟨_, verified, w₅, hverified, h₅⟩ := ran_ask_seq h₄
  have hs₅ := (rests_step rfl hid).trans ((rests_step rfl hcreated).trans (rests_step rfl hverified))
  rcases clean_seq (restful_nodeForBackend _).plain (hw₂.resting hs₅) h₅ with
    hend | ⟨owner, w₆, hx, hw₆, h₆⟩
  · exact .inl hend
  have hs₆ := hs₅.trans (rests (restful_nodeForBackend _) hx)
  have hdata₆ := hs₆.data.trans hdata
  have hsetting {replica : Replica} (hb : replica.location.backend = b)
      (hg : replica.contentHash = env.sha256 data) :
      RestoreSetting o replica existing w₆.store.data := by
    rw [hdata₆]
    refine ⟨hrow, ?_, hcount⟩
    rw [hb, hg]
    exact htarget
  have hsection := fun hs => recordRestored_undone hw₆ hs hwrote h₆
  rcases hsection (hsetting rfl rfl) with hend | ⟨hu, hrows, hpay₆⟩
  · exact .inl hend
  · have hall := hs₁.toOnTables.payloadOnly.trans (hpay.trans
      (hs₆.toOnTables.payloadOnly.trans hpay₆))
    refine .inr ⟨hu, EqualRows.undone ?_ hall ?_⟩
    · rw [← hdata₆]
      exact hrows
    · rintro e he ⟨hwritten, hat⟩
      obtain ⟨hnone, hkey⟩ := hnew hwritten
      have hat : e.backend = b ∧ e.key = vaultKey record := by
        rw [← hkey]
        exact hat
      exact hfresh (htarget.trans hnone) e he hat

/-! ## the other path -/

def StoreOp.audits : StoreOp → Bool
  | .appendAudit _ => true
  | _ => false

/-- the locked section of `restoreExisting`: a failed audit record leaves the new object row -/
theorem existingRows_outcome {x : ReclaimObject} {g : Int → AuditEntry} {u : Res Unit}
    (hw : Clean n w) (hrow : w.store.objects.find? x.id ≠ some x)
    (h : Ran (gated (lone B n) env t op) (do
      Coordinator.store (.updateObject x)
      let ts ← Coordinator.nowMs
      Coordinator.store (.appendAudit (g ts)) : M Unit).run w u w') :
    (∃ e, u = .error e) ∧ (∃ so ∈ w'.failures n, so.metadata = true ∧
        (so.audits = false ∧ Rests w w' ∨
          so.audits = true ∧ w'.store.objects.find? x.id ≠ w.store.objects.find? x.id)) ∨
      Clean n w' := by
  rcases ran_seq.mp h with ⟨e, rfl, hx⟩ | ⟨_, w₁, hx, h₁⟩
  · obtain ⟨i, he⟩ := ran_storeCall hx
    rcases lone_store hw.1 he with ⟨_, -, hs, -, hf⟩ | ⟨_, hno, -⟩
    · refine .inl ⟨⟨e, rfl⟩, .updateObject x, ?_, rfl, .inl ⟨rfl, hs⟩⟩
      rw [hf]
      exact List.mem_cons_self
    · cases hno
  obtain ⟨i, he⟩ := ran_storeCall hx
  rcases lone_store hw.1 he with ⟨_, hno, -⟩ | ⟨_, -, hrun, hon, hf⟩
  · cases hno
  rcases hf with ⟨hno, -⟩ | ⟨-, hf⟩
  · cases hno
  have hnew : w₁.store.objects.find? x.id = some x := by
    obtain ⟨-, -, ⟨old, hold⟩, hd⟩ := Store.updateObject_ok hrun
    rw [show w₁.store.objects = w.store.objects.replace x from congrArg Data.objects hd,
      Table.find?_replace, if_pos rfl, hold]
    rfl
  have hw₁ : Clean n w₁ := by
    refine ⟨hon.length hw.1, ?_⟩
    rw [hf]
    exact hw.2
  obtain ⟨_, ts, w₂, hts, h₂⟩ := ran_ask_seq h₁
  have hs₂ := rests_step rfl hts
  have hw₂ := hw₁.resting hs₂
  obtain ⟨i, he⟩ := ran_storeCall h₂
  rcases lone_store hw₂.1 he with ⟨e, rfl, hs, -, hf⟩ | ⟨_, -, -, hon, hf⟩
  · refine .inl ⟨⟨e, rfl⟩, .appendAudit (g ts), ?_, rfl, .inr ⟨rfl, ?_⟩⟩
    · rw [hf]
      exact List.mem_cons_self
    · rw [hs.objects, hs₂.objects, hnew]
      exact hrow.symm
  · rcases hf with ⟨hno, -⟩ | ⟨-, hf⟩
    · cases hno
    · refine .inr ⟨hon.length hw₂.1, ?_⟩
      rw [hf]
      exact hw₂.2

/-- a count in a section of its own -/
theorem lone_innerCount {α : Type} {X : Uuid} {f : Nat → M α} {r : Res α} (hw : Clean n w)
    (h : Ran (gated (lone B n) env t op) (do
      let count ← Coordinator.inner (.validReplicaCount X)
      let count ← settle (Coordinator.replicaCountU32 count)
      f count : M α).run w r w') :
    Clean n w' ∨
      ((∃ e, r = .error e) ∧ .validReplicaCount X ∈ w'.failures n ∧ Rests w w') ∨
      ∃ count w₁, Rests w w₁ ∧ Clean n w₁ ∧
        Ran (gated (lone B n) env t op) (f count).run w₁ r w' := by
  rcases ran_seq.mp h with ⟨e, rfl, hx⟩ | ⟨count, w₁, hx, h₁⟩
  · rcases ran_withInner hx with ⟨_, -, hs, -⟩ | ⟨u₁, u₂, hs, hbody, hs'⟩
    · exact .inl (hw.resting hs)
    obtain ⟨i, he⟩ := ran_storeCall hbody
    have hn := (hw.resting hs).1
    rcases lone_store hn he with ⟨_, -, hfail, -, hf⟩ | ⟨_, hno, -⟩
    · refine .inr (.inl ⟨⟨e, rfl⟩, ?_, hs.toRests.trans (hfail.trans hs'.toRests)⟩)
      refine mem_failures (hfail.toOnTables.length hn) hs'.log ?_
      rw [hf]
      exact List.mem_cons_self
    · cases hno
  rcases ran_withInner hx with ⟨_, hno, -⟩ | ⟨u₁, u₂, hs, hbody, hs'⟩
  · cases hno
  obtain ⟨i, he⟩ := ran_storeCall hbody
  have hw₁ := hw.resting hs
  rcases lone_store hw₁.1 he with ⟨_, hno, -⟩ | ⟨a, ha, hrun, hon, hf⟩
  · cases hno
  cases ha
  have hstore : u₁.store = u₂.store := (Prod.mk.inj (Except.ok.inj hrun)).2
  have hread : Rests u₁ u₂ := ⟨hon, congrArg Store.data hstore.symm⟩
  have hall := hs.toRests.trans (hread.trans hs'.toRests)
  unfold Coordinator.replicaCountU32 at h₁
  rcases hf with ⟨hover, hf⟩ | ⟨hfits, hf⟩
  · rw [overflows_count, decide_eq_true_iff] at hover
    rw [if_neg (Nat.not_lt.mpr hover)] at h₁
    obtain ⟨rfl, rfl⟩ := ran_throw_seq h₁
    refine .inr (.inl ⟨⟨_, rfl⟩, mem_failures (hon.length hw₁.1) hs'.log ?_, hall⟩)
    rw [hf]
    exact List.mem_cons_self
  · rw [overflows_count, decide_eq_false_iff_not] at hfits
    rw [if_pos (Nat.not_le.mp hfits)] at h₁
    have hw₂ : Clean n u₂ := by
      refine ⟨hon.length hw₁.1, ?_⟩
      rw [hf]
      exact hw₁.2
    exact .inr (.inr ⟨count, w₁, hall, hw₂.resting hs', h₁⟩)

theorem restoreExisting_outcome {r : Replica} {g : ContentHash} {u : Res ReclaimObject}
    (hw : Clean n w) (hrow : w.store.objects.find? o.id = some o)
    (hstate : o.lifecycleState = .archived)
    (h : Ran (gated (lone B n) env t op)
      (Coordinator.restoreExisting env o actor r g).run w u w') :
    Clean n w' ∨ (∃ e, u = .error e) ∧ ∃ so ∈ w'.failures n, so.metadata = true ∧
      (so.audits = false ∧ Undone w w' ∨ so.audits = true ∧ ¬Undone w w') := by
  rcases clean_seq (restful_readPayload _ _).plain hw h with hend | ⟨bytes, w₁, hx, hw₁, h₁⟩
  · exact .inl hend
  have hs₁ := (rests (restful_readPayload _ _) hx).toRests
  rcases clean_settle hw₁ h₁ with hend | ⟨_, -, h₁⟩
  · exact .inl hend
  rcases lone_innerCount hw₁ h₁ with hend | ⟨hu, hso, hs⟩ | ⟨count, w₂, hs, hw₂, h₂⟩
  · exact .inl hend
  · exact .inr ⟨hu, _, hso, rfl, .inl ⟨rfl, (hs₁.trans hs).undone⟩⟩
  have hs₂ := hs₁.trans hs
  set x := Coordinator.restoredObject o r.size count
  have hid : x.id = o.id := rfl
  have hold : w₂.store.objects.find? x.id ≠ some x := by
    rw [hs₂.objects, hid, hrow]
    intro hsame
    have hwarm : x.lifecycleState = .warm := rfl
    rw [← Option.some.inj hsame, hstate] at hwarm
    cases hwarm
  have hsection {y : Res Unit} {w₃ : Traced} (hy : Ran (gated (lone B n) env t op)
      (Coordinator.withInner do
        Coordinator.store (.updateObject x)
        let ts ← Coordinator.nowMs
        Coordinator.store (.appendAudit (Coordinator.restoredAudit ts actor o
          (.obj [("backend", .str r.location.backend), ("key", .str r.location.key),
            ("reused_existing", .bool true)])))).run w₂ y w₃) :
      Clean n w₃ ∨ (∃ e, y = .error e) ∧ ∃ so ∈ w₃.failures n, so.metadata = true ∧
        (so.audits = false ∧ Undone w w₃ ∨ so.audits = true ∧ ¬Undone w w₃) := by
    rcases ran_withInner hy with ⟨_, -, hs, -⟩ | ⟨u₁, u₂, hs, hbody, hs'⟩
    · exact .inl (hw₂.resting hs)
    have hold₁ : u₁.store.objects.find? x.id ≠ some x := by
      rw [hs.objects]
      exact hold
    rcases existingRows_outcome (hw₂.resting hs) hold₁ hbody with ⟨hy, so, hso, hm, hend⟩ | hend
    · have hn := gated_ran_length (hw₂.resting hs).1 hbody
      refine .inr ⟨hy, so, mem_failures hn hs'.log hso, hm, hend.imp ?_ ?_⟩
      · rintro ⟨ha, hrest⟩
        exact ⟨ha, (hs₂.trans (hs.toRests.trans (hrest.trans hs'.toRests))).undone⟩
      · rintro ⟨ha, hchanged⟩
        refine ⟨ha, fun hundone => hchanged ?_⟩
        rw [hs.objects, hs₂.objects, ← hs'.objects]
        exact hundone.objects x.id
    · exact .inl (hend.resting hs')
  rcases ran_seq.mp h₂ with ⟨e, rfl, hy⟩ | ⟨_, w₃, hy, h₃⟩
  · rcases hsection hy with hend | ⟨-, hend⟩
    · exact .inl hend
    · exact .inr ⟨⟨e, rfl⟩, hend⟩
  · obtain ⟨rfl, rfl⟩ := ran_pure.mp h₃
    rcases hsection hy with hend | ⟨⟨_, hno⟩, -⟩
    · exact .inl hend
    · cases hno

/-! ## restore -/

/-- the object still has its logical copy: a valid replica with its content hash -/
def HotCopy (w : Traced) (id : Uuid) : Prop :=
  ∃ o r, w.store.objects.find? id = some o ∧ r ∈ w.store.replicas ∧ r.objectId = id ∧
    r.valid = true ∧ r.location.kind ≠ .archived ∧ o.contentHash = some r.contentHash

theorem restful_hotBackend : Restful Coordinator.hotBackend := by
  refine only_bind (restful_ask rfl) fun _ => only_bind restful_config fun c => ?_
  refine only_bind (restful_ask rfl) fun _ => ?_
  cases Coordinator.hotBackendOf c with
  | none => exact only_throw
  | some b => exact only_pure

/-- the logical copy is what restore looks for -/
theorem hotCopy_iff {id : Uuid} {rs : List Replica} {g : ContentHash}
    (hrow : w.store.objects.find? id = some o) (hhash : o.contentHash = some g)
    (hrs : ∀ r, r ∈ rs ↔ r ∈ w.store.replicas ∧ r.objectId = id) :
    HotCopy w id ↔ (rs.find? fun r => r.valid && decide (r.location.kind ≠ .archived) &&
      decide (r.contentHash = g)).isSome = true := by
  rw [List.find?_isSome]
  constructor
  · rintro ⟨o', r, hrow', hr, hid, hvalid, hkind, hsame⟩
    have ho : o' = o := Option.some.inj (hrow'.symm.trans hrow)
    rw [ho, hhash] at hsame
    refine ⟨r, (hrs r).mpr ⟨hr, hid⟩, ?_⟩
    simp [hvalid, hkind, (Option.some.inj hsame).symm]
  · rintro ⟨r, hr, hcheck⟩
    simp only [Bool.and_eq_true, decide_eq_true_eq] at hcheck
    obtain ⟨⟨hvalid, hkind⟩, hsame⟩ := hcheck
    obtain ⟨hmem, hid⟩ := (hrs r).mp hr
    exact ⟨o, r, hrow, hmem, hid, hvalid, hkind, by rw [hhash, hsame]⟩

/-- **restore undoes its metadata**, apart from the object row of an object that still has its
logical copy when the audit record cannot be written -/
theorem restore_outcome {id : Uuid} {u : Res ReclaimObject} (hB : Set.InjOn env.sha256 B)
    (hnamed : KeysNamed env B w) (hrows : ∀ X o, rowOf w X = some o → o.RowOk)
    (harch : ∀ a ∈ w.store.archives, ArchiveKeyOf a.objectId a.key) (hw : Clean n w)
    (h : Ran (gated (lone B n) env t op) (Coordinator.restore env id actor).run w u w') :
    Clean n w' ∨ (∃ e, u = .error e) ∧ (¬HotCopy w id ∧ Undone w w' ∨
      HotCopy w id ∧ ∃ so ∈ w'.failures n, so.metadata = true ∧
        (so.audits = false ∧ Undone w w' ∨ so.audits = true ∧ ¬Undone w w')) := by
  rcases ran_withObject h with ⟨_, -, hs⟩ | ⟨w₀, w₉, hs₀, h, hs'⟩
  · exact .inl (hw.resting hs)
  have hw₀ := hw.resting hs₀
  rcases clean_seq (restful_inner rfl).plain hw₀ h with hend | ⟨o, w₁, hx, hw₁, h₁⟩
  · exact .inl (hend.resting hs')
  obtain ⟨hs, hread⟩ := ran_innerRead rfl hx
  have hs₁ := hs₀.trans hs
  obtain ⟨s, _, hsd, hrun⟩ := hread o rfl
  have hrow : w.store.objects.find? id = some o := by
    rw [← hs₀.objects, ← show s.objects = w₀.store.objects from congrArg Data.objects hsd]
    exact Store.requireObject_ok hrun
  have hid : o.id = id := Table.key_of_find? hrow
  rcases clean_check hw₁ h₁ with hend | ⟨hstate, h₁⟩
  · exact .inl (hend.resting hs')
  have hstate : o.lifecycleState = .archived := Decidable.not_not.mp hstate
  obtain ⟨g, hhash⟩ := Option.isSome_iff_exists.mp
    ((hrows id o hrow).hashed (by rw [hstate]; exact nofun))
  rcases clean_seq (restful_inner rfl).plain hw₁ h₁ with hend | ⟨as, w₂, hx, hw₂, h₂⟩
  · exact .inl (hend.resting hs')
  obtain ⟨hs, hread⟩ := ran_innerRead rfl hx
  have hs₂ := hs₁.trans hs
  obtain ⟨s₂, _, hsd₂, hrun₂⟩ := hread as rfl
  cases hrec : as.getLast? with
  | none =>
    rw [hrec] at h₂
    rw [(ran_throw h₂).2] at hs'
    exact .inl (hw₂.resting hs')
  | some record =>
    rw [hrec] at h₂
    obtain ⟨gen, rid, hkey⟩ : ArchiveKeyOf id record.key := by
      obtain ⟨hmem, hof⟩ := (Store.archivesFor_ok hrun₂).mp (List.mem_of_getLast? hrec)
      rw [show s₂.archives = w₁.store.archives from congrArg Data.archives hsd₂, hs₁.archives]
        at hmem
      rw [← hof]
      exact harch record hmem
    rcases clean_seq restful_lookupArchive.plain hw₂ h₂ with hend | ⟨backend, w₃, hx, hw₃, h₃⟩
    · exact .inl (hend.resting hs')
    have hs₃ := hs₂.trans (rests restful_lookupArchive hx)
    have harchived : Restful (Coordinator.archiveRead backend.id record.key) := restful_call rfl
    rcases clean_seq harchived.plain hw₃ h₃ with hend | ⟨archived, w₄, hx, hw₄, h₄⟩
    · exact .inl (hend.resting hs')
    have hs₄ := hs₃.trans (rests harchived hx)
    rcases clean_settle hw₄ h₄ with hend | ⟨_, -, h₄⟩
    · exact .inl (hend.resting hs')
    rcases clean_settle hw₄ h₄ with hend | ⟨data, hdata, h₄⟩
    · exact .inl (hend.resting hs')
    have hsha : env.sha256 data = g := restoredBytes_ok hhash hdata
    rcases clean_seq (restful_inner rfl).plain hw₄ h₄ with hend | ⟨rs, w₅, hx, hw₅, h₅⟩
    · exact .inl (hend.resting hs')
    obtain ⟨hs, hread⟩ := ran_innerRead rfl hx
    have hs₅ := hs₄.trans hs
    obtain ⟨s₅, _, hsd₅, hrun₅⟩ := hread rs rfl
    have hrs (r : Replica) : r ∈ rs ↔ r ∈ w.store.replicas ∧ r.objectId = id := by
      rw [← hs₄.replicas, ← show s₅.replicas = w₄.store.replicas from congrArg Data.replicas hsd₅]
      exact Store.replicasFor_ok hrun₅
    have hcopy := hotCopy_iff hrow hhash hrs
    rw [← hsha] at hcopy
    have hrow₅ : w₅.store.objects.find? o.id = some o := by
      rw [hs₅.objects, hid]
      exact hrow
    cases hfind : rs.find? fun r => r.valid && decide (r.location.kind ≠ .archived) &&
        decide (r.contentHash = env.sha256 data) with
    | some r =>
      rw [hfind] at h₅ hcopy
      rcases restoreExisting_outcome hw₅ hrow₅ hstate h₅ with hend | ⟨hu, so, hso, hm, hend⟩
      · exact .inl (hend.resting hs')
      · have hn := gated_ran_length hw₅.1 h₅
        refine .inr ⟨hu, .inr ⟨hcopy.mpr rfl, so, mem_failures hn hs'.log hso, hm,
          ?_⟩⟩
        rw [← undone_between hs₅.toRests hs'.toRests]
        exact hend
    | none =>
      rw [hfind] at h₅ hcopy
      have hno : ¬HotCopy w id := fun hc => Bool.noConfusion (hcopy.mp hc)
      rcases clean_seq restful_hotBackend.plain hw₅ h₅ with hend | ⟨b, w₆, hx, hw₆, h₆⟩
      · exact .inl (hend.resting hs')
      have hs₆ := hs₅.trans (rests restful_hotBackend hx)
      rcases ran_withPayloads h₆ with ⟨_, -, hs, -⟩ | ⟨w₇, w₈, hs, h₇, hs₈⟩
      · exact .inl ((hw₆.resting hs).resting hs')
      have hs₇ := hs₆.trans hs
      have hname : Named env B w (vaultKey record) (env.sha256 data) := by
        rw [hsha, vaultKey, hkey]
        exact .restored hrow hhash
      have hfresh := hnamed.unused hB (b := b) hname
      rw [← hs₇.dedup] at hfresh
      have hrow₇ : w₇.store.objects.find? o.id = some o := by
        rw [hs₇.objects, hid]
        exact hrow
      rcases restoreGuarded_undone (hw₆.resting hs) hrow₇ hfresh h₇ with hend | ⟨hu, hundone⟩
      · exact .inl ((hend.resting hs₈).resting hs')
      · exact .inr ⟨hu, .inl ⟨hno, (undone_between hs₇.toRests (hs₈.trans hs').toRests).mp hundone⟩⟩

/-! ## compress and restore -/

/-- restore of an object with a logical copy, whose audit record cannot be written -/
def AuditLost (op : Op) (so : StoreOp) (w : Traced) : Prop :=
  ∃ id actor, op = .restore id actor ∧ so.audits = true ∧ HotCopy w id

/-- **compress and restore undo their metadata, apart from one case.**  From a state reached without
faults, a run in which one store call of a metadata section fails and the calls after it succeed
returns an error and leaves the rows and the payloads they refer to as they were, exactly when it
is not the audit record of a restore that found the logical copy of the object. -/
theorem metadata_undone_iff {s : Sys} {r : Res op.Out} {so : StoreOp}
    (hB : Set.InjOn env.sha256 B) (hs : Reach env (truthfulRun env B) s)
    (hop : (∃ id actor, op = .compress id actor) ∨ ∃ id actor, op = .restore id actor)
    (h : Ran (gated (lone B s.shared.log.length) env t op) (op.prog env).run s.shared r w')
    (hso : so ∈ w'.failures s.shared.log.length) (hm : so.metadata = true) :
    ((∃ e, r = .error e) ∧ Undone s.shared w') ↔ ¬AuditLost op so s.shared := by
  have hinv := (hs.mono truthfulRun_mode).inv (fun _ => hB)
  have htrue := hinv.truthful rfl
  have hnamed : KeysNamed env B s.shared := ⟨htrue.replicas, htrue.dedup⟩
  have hstart := clean_start s.shared
  have hnot : ¬Clean s.shared.log.length w' := by
    intro hclean
    rw [hclean.2 so hso] at hm
    cases hm
  rcases hop with ⟨id, actor, rfl⟩ | ⟨id, actor, rfl⟩
  · rcases compress_undone hB hnamed hstart h with hclean | hundone
    · exact absurd hclean hnot
    · exact iff_of_true hundone nofun
  · have hlost : AuditLost (.restore id actor) so s.shared ↔
        so.audits = true ∧ HotCopy s.shared id := by
      constructor
      · rintro ⟨_, _, ⟨⟩, hcase⟩
        exact hcase
      · exact fun hcase => ⟨id, actor, rfl, hcase⟩
    rw [hlost]
    rcases restore_outcome hB hnamed hinv.rows hinv.archives hstart h with
      hclean | ⟨hr, ⟨hcopy, hundone⟩ | ⟨hcopy, so', hso', -, hend⟩⟩
    · exact absurd hclean hnot
    · exact iff_of_true ⟨hr, hundone⟩ fun hc => hcopy hc.2
    · rw [lone_unique (Nat.le_refl _) (failures_start s.shared) h hso hso'] at hend
      rcases hend with ⟨haudit, hundone⟩ | ⟨haudit, hundone⟩
      · refine iff_of_true ⟨hr, hundone⟩ fun hc => ?_
        rw [haudit] at hc
        cases hc.1
      · exact iff_of_false (fun hc => hundone hc.2) fun hc => hc ⟨haudit, hcopy⟩

end

namespace Sample

/-- the payload of the object, and its compressed form -/
def contents : Set Bytes := { d | d ∈ [[97], [40, 97]] }

instance : DecidablePred (· ∈ contents) :=
  inferInstanceAs (DecidablePred fun d : Bytes => d ∈ [[97], [40, 97]])

theorem contents_inj : Set.InjOn env.sha256 contents := by
  have h : ∀ d ∈ [[97], [40, 97]], ∀ e ∈ [[97], [40, 97]], env.sha256 d = env.sha256 e → d = e := by
    decide
  exact fun d hd e he => h d hd e he

/-- a registered object -/
def onDisk : Option Sys :=
  after (truthful [[97], [40, 97]]) (opened (truthful [[97], [40, 97]]))
    (register (object 10) "a") 200

/-- the object has been archived; its replica is still there -/
def inVault : Option Sys :=
  after (truthful [[97], [40, 97]]) onDisk (.archive (uuid 10) "client") 400

theorem onDisk_reached : Reached (truthfulRun env contents) onDisk :=
  (reached_opened truthful_ok trivial).after truthful_ok

theorem inVault_reached : Reached (truthfulRun env contents) inVault :=
  onDisk_reached.after truthful_ok

/-- the operation runs alone and its `j`-th command fails -/
def alone (op : Op) (j : Nat) (s : Sys) : Option (Res op.Out × Traced) :=
  (op.prog env).run.eval (gated (lone contents s.shared.log.length) env 1 op) (failing j 600) 0
    s.shared

/-- restore cannot write its audit record, and the object stays WARM -/
theorem inVault_warm : (inVault.any fun s => (alone (.restore (uuid 10) "client") 61 s).any fun x =>
    (x.2.failures s.shared.log.length).any StoreOp.metadata &&
      decide ((rowOf s.shared (uuid 10)).map ReclaimObject.lifecycleState = some .archived) &&
      decide ((rowOf x.2 (uuid 10)).map ReclaimObject.lifecycleState = some .warm)) = true := by
  decide +kernel

/-- compress cannot write the object row, its last write -/
theorem onDisk_fails : (onDisk.any fun s => (alone (.compress (uuid 10) "client") 90 s).any fun x =>
    (x.2.failures s.shared.log.length).any StoreOp.metadata) = true := by
  decide +kernel

end Sample

theorem restore_audit_lost : ∃ s r w' so, Reach Sample.env (truthfulRun Sample.env Sample.contents) s ∧
    Ran (gated (lone Sample.contents s.shared.log.length) Sample.env 1
        (.restore (Sample.uuid 10) "client"))
      (Op.prog Sample.env (.restore (Sample.uuid 10) "client")).run s.shared r w' ∧
    so ∈ w'.failures s.shared.log.length ∧ so.metadata = true ∧
    ¬((∃ e, r = .error e) ∧ Undone s.shared w') := by
  obtain ⟨s, hs, h⟩ := (Option.any_eq_true _ _).mp Sample.inVault_warm
  obtain ⟨⟨r, w'⟩, hev, h⟩ := (Option.any_eq_true _ _).mp h
  rw [Bool.and_eq_true, Bool.and_eq_true, List.any_eq_true] at h
  obtain ⟨⟨⟨so, hso, hm⟩, hbefore⟩, hafter⟩ := h
  refine ⟨s, r, w', so, Sample.inVault_reached s hs, Prog.ran_of_eval hev, hso, hm, ?_⟩
  rintro ⟨-, hundone⟩
  have hafter := of_decide_eq_true hafter
  rw [show rowOf w' (Sample.uuid 10) = rowOf s.shared (Sample.uuid 10) from hundone.objects _,
    of_decide_eq_true hbefore] at hafter
  cases hafter

theorem metadata_undone_iff_compress : ∃ s r w' so,
    Reach Sample.env (truthfulRun Sample.env Sample.contents) s ∧
    Ran (gated (lone Sample.contents s.shared.log.length) Sample.env 1
        (.compress (Sample.uuid 10) "client"))
      (Op.prog Sample.env (.compress (Sample.uuid 10) "client")).run s.shared r w' ∧
    so ∈ w'.failures s.shared.log.length ∧ so.metadata = true ∧
    (∃ e, r = .error e) ∧ Undone s.shared w' := by
  obtain ⟨s, hs, h⟩ := (Option.any_eq_true _ _).mp Sample.onDisk_fails
  obtain ⟨⟨r, w'⟩, hev, h⟩ := (Option.any_eq_true _ _).mp h
  obtain ⟨so, hso, hm⟩ := List.any_eq_true.mp h
  have hreach := Sample.onDisk_reached s hs
  have hran := Prog.ran_of_eval hev
  have hop : (∃ id actor, Op.compress (Sample.uuid 10) "client" = .compress id actor) ∨
      ∃ id actor, Op.compress (Sample.uuid 10) "client" = .restore id actor := .inl ⟨_, _, rfl⟩
  exact ⟨s, r, w', so, hreach, hran, hso, hm,
    (metadata_undone_iff Sample.contents_inj hreach hop hran hso hm).mpr nofun⟩

end ReclaimFabric
