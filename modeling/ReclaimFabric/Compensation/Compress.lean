import ReclaimFabric.Compensation.Single

/-!
# The compensation of compress

The metadata section of `compress` notes in four flags how far it got, and its compensation undoes
what the flags say, in the opposite order.

* `Compressing`     the tables are those of the start with the changes the flags stand for;
* `Compressing.…`   one lemma for each write that sets a flag and each that takes one back;
* `compressMetadata_applied`, `undoCompress_applied`   the section and its compensation;
* `compress_undone`   a failed write of the section leaves rows and referenced payloads as they were.
-/

set_option linter.unusedSectionVars false

namespace ReclaimFabric

open Prog (Ran Only attempt settle)
open Coordinator (CompressProgress)

/-! ## what the flags stand for -/

/-- what compress has read before it writes -/
structure CompressSetting (primary new : Replica) (existing old : Option DedupEntry) (d : Data) :
    Prop where
  source : primary ∈ d.replicas
  backend : new.location.backend = primary.location.backend
  target : d.dedup.find? (new.contentHash, primary.location.backend) = existing
  counted : ∀ e, existing = some e → e.refCount ≠ 0
  snapshot : ∀ e, old = some e →
    d.dedup.find? (primary.contentHash, primary.location.backend) = some e

/-- the tables with the changes that the flags stand for -/
structure Compressing (primary new : Replica) (existing old : Option DedupEntry)
    (p : CompressProgress) (d₀ d : Data) : Prop where
  objects : d.objects = d₀.objects
  replicas : ∀ r, r ∈ d.replicas ↔
    (r ∈ d₀.replicas ∧ (p.oldReplicaDeleted = true → r.replicaId ≠ primary.replicaId)) ∨
      (p.newReplicaAdded = true ∧ r = new)
  added : p.newReplicaAdded = true → p.oldReplicaDeleted = true ∧
    ∀ r ∈ d₀.replicas, r.replicaId ≠ primary.replicaId → r.replicaId ≠ new.replicaId
  dedup : ∀ key, d.dedup.find? key =
    if p.newRefRecorded = true ∧ key = (new.contentHash, primary.location.backend) then
      some (referenced existing new)
    else if p.oldRefReleased = true ∧ key = (primary.contentHash, primary.location.backend) then
      old.bind unreferenced
    else d₀.dedup.find? key
  distinct : p.newRefRecorded = true → primary.contentHash ≠ new.contentHash
  released : p.oldRefReleased = true → old.isSome = true ∧ p.newRefRecorded = true

section
variable {primary new : Replica} {existing old : Option DedupEntry} {p : CompressProgress}
  {d₀ d : Data} {s s' : Store}

theorem Compressing.start (d : Data) : Compressing primary new existing old {} d d where
  objects := rfl
  replicas := by
    intro r
    constructor
    · exact fun hr => .inl ⟨hr, nofun⟩
    · rintro (⟨hr, -⟩ | ⟨hno, -⟩)
      · exact hr
      · cases hno
  added := nofun
  dedup := by
    intro key
    rw [if_neg (fun h => Bool.noConfusion h.1), if_neg (fun h => Bool.noConfusion h.1)]
  distinct := nofun
  released := nofun

/-- no flag is set: the rows are those of the start -/
theorem Compressing.equalRows (h : Compressing primary new existing old {} d₀ d) :
    EqualRows d₀ d where
  objects := by
    rw [h.objects]
    exact fun _ => rfl
  replicas := by
    intro r
    rw [h.replicas]
    constructor
    · rintro (⟨hr, -⟩ | ⟨hno, -⟩)
      · exact hr
      · cases hno
    · exact fun hr => .inl ⟨hr, nofun⟩
  dedup := by
    intro key
    rw [h.dedup, if_neg (fun h => Bool.noConfusion h.1), if_neg (fun h => Bool.noConfusion h.1)]

/-! ## the writes of the section -/

/-- the reference of the new payload -/
theorem Compressing.record (h : Compressing primary new existing old {} d₀ s.data)
    (hne : primary.contentHash ≠ new.contentHash)
    (hset : Store.DedupSet s s' (new.contentHash, primary.location.backend)
      (some (referenced existing new))) :
    Compressing primary new existing old { newRefRecorded := true } d₀ s'.data := by
  obtain ⟨T, hd, hfind⟩ := hset
  rw [hd]
  refine ⟨h.objects, h.replicas, nofun, ?_, fun _ => hne, nofun⟩
  intro key
  rw [hfind key]
  by_cases hk : key = (new.contentHash, primary.location.backend)
  · rw [if_pos hk, if_pos ⟨rfl, hk⟩]
  · rw [if_neg hk, if_neg (fun hc => hk hc.2), if_neg (fun hc => Bool.noConfusion hc.1)]
    exact h.equalRows.dedup key

/-- the reference of the source payload -/
theorem Compressing.release (hs : CompressSetting primary new existing old d₀)
    (h : Compressing primary new existing old p d₀ s.data) (hnew : p.newRefRecorded = true)
    (hfree : p.oldRefReleased = false) (hold : old.isSome = true) {last : Bool}
    (hrun : Store.dedupRelease primary.contentHash primary.location.backend s = .ok (last, s')) :
    Compressing primary new existing old { p with oldRefReleased := true } d₀ s'.data := by
  obtain ⟨e, hfind, -, -, T, hd, hset⟩ := Store.dedupRelease_ok hrun
  obtain ⟨e₀, rfl⟩ := Option.isSome_iff_exists.mp hold
  have hkey : (primary.contentHash, primary.location.backend) ≠
      (new.contentHash, primary.location.backend) := fun hk => h.distinct hnew (Prod.mk.inj hk).1
  have he : e = e₀ := by
    have hread : s.dedup.find? _ = _ := h.dedup (primary.contentHash, primary.location.backend)
    rw [if_neg (fun hc => hkey hc.2), if_neg (fun hc => by rw [hfree] at hc; cases hc.1),
      hs.snapshot e₀ rfl, hfind] at hread
    exact Option.some.inj hread
  subst he
  rw [hd]
  refine ⟨h.objects, h.replicas, h.added, ?_, h.distinct, fun _ => ⟨rfl, hnew⟩⟩
  intro key
  rw [hset key]
  by_cases hk : key = (primary.contentHash, primary.location.backend)
  · rw [if_pos hk]
    show unreferenced e = _
    rw [if_neg (fun hc => hkey (hk.symm.trans hc.2)), if_pos ⟨rfl, hk⟩]
    rfl
  · have hold : s.dedup.find? key = _ := h.dedup key
    rw [if_neg hk, hold]
    simp only [hk, and_false, if_false]

theorem Compressing.deleteOld (h : Compressing primary new existing old p d₀ s.data)
    (hno : p.newReplicaAdded = false) {u : Unit}
    (hrun : Store.deleteReplica primary.replicaId s = .ok (u, s')) :
    Compressing primary new existing old { p with oldReplicaDeleted := true } d₀ s'.data := by
  rw [Store.deleteReplica_ok hrun]
  refine ⟨h.objects, ?_, ?_, h.dedup, h.distinct, h.released⟩
  · intro r
    show r ∈ s.replicas.erase primary.replicaId ↔ _
    rw [Table.mem_erase]
    have hold : r ∈ s.replicas ↔ _ := h.replicas r
    rw [hold]
    constructor
    · rintro ⟨⟨hr, -⟩ | ⟨hadd, -⟩, hne⟩
      · exact .inl ⟨hr, fun _ => hne⟩
      · rw [hno] at hadd
        cases hadd
    · rintro (⟨hr, hne⟩ | ⟨hadd, -⟩)
      · exact ⟨.inl ⟨hr, fun _ => hne rfl⟩, hne rfl⟩
      · have hadd : p.newReplicaAdded = true := hadd
        rw [hno] at hadd
        cases hadd
  · intro hadd
    have hadd : p.newReplicaAdded = true := hadd
    rw [hno] at hadd
    cases hadd

theorem Compressing.addNew (h : Compressing primary new existing old p d₀ s.data)
    (hdel : p.oldReplicaDeleted = true) (hno : p.newReplicaAdded = false) {u : Unit}
    (hrun : Store.addReplica new s = .ok (u, s')) :
    Compressing primary new existing old { p with newReplicaAdded := true } d₀ s'.data := by
  obtain ⟨T, hswap, -, hd⟩ := Store.addReplica_ok hrun
  have hrow (r : Replica) : r ∈ s.replicas ↔ r ∈ d₀.replicas ∧ r.replicaId ≠ primary.replicaId := by
    have hold : r ∈ s.replicas ↔ _ := h.replicas r
    rw [hold]
    constructor
    · rintro (⟨hr, hne⟩ | ⟨hadd, -⟩)
      · exact ⟨hr, hne hdel⟩
      · rw [hno] at hadd
        cases hadd
    · exact fun hr => .inl ⟨hr.1, fun _ => hr.2⟩
  have hfresh (r : Replica) (hr : r ∈ s.replicas) : r.replicaId ≠ new.replicaId := by
    intro hid
    cases hswap.2.1 r hr hid
  rw [hd]
  refine ⟨h.objects, ?_, ?_, h.dedup, h.distinct, h.released⟩
  · intro r
    show r ∈ T ↔ _
    rw [hswap.2.2.2.2 r]
    constructor
    · rintro (⟨hr, -⟩ | hr)
      · exact .inl ⟨((hrow r).mp hr).1, fun _ => ((hrow r).mp hr).2⟩
      · cases hr
        exact .inr ⟨rfl, rfl⟩
    · rintro (⟨hr, hne⟩ | ⟨-, rfl⟩)
      · have hmem := (hrow r).mpr ⟨hr, hne hdel⟩
        exact .inl ⟨hmem, hfresh r hmem⟩
      · exact .inr rfl
  · exact fun _ => ⟨hdel, fun r hr hne => hfresh r ((hrow r).mpr ⟨hr, hne⟩)⟩

/-! ## the compensation -/

theorem Compressing.deleteNew (h : Compressing primary new existing old p d₀ s.data)
    (hadd : p.newReplicaAdded = true) {u : Unit}
    (hrun : Store.deleteReplica new.replicaId s = .ok (u, s')) :
    Compressing primary new existing old { p with newReplicaAdded := false } d₀ s'.data := by
  obtain ⟨hdel, hfresh⟩ := h.added hadd
  rw [Store.deleteReplica_ok hrun]
  refine ⟨h.objects, ?_, nofun, h.dedup, h.distinct, h.released⟩
  intro r
  show r ∈ s.replicas.erase new.replicaId ↔ _
  rw [Table.mem_erase]
  have hold : r ∈ s.replicas ↔ _ := h.replicas r
  rw [hold]
  constructor
  · rintro ⟨⟨hr, hne⟩ | ⟨-, rfl⟩, hid⟩
    · exact .inl ⟨hr, hne⟩
    · exact absurd rfl hid
  · rintro (⟨hr, hne⟩ | ⟨hno, -⟩)
    · exact ⟨.inl ⟨hr, hne⟩, hfresh r hr (hne hdel)⟩
    · cases hno

theorem Compressing.addOld (hs : CompressSetting primary new existing old d₀)
    (h : Compressing primary new existing old p d₀ s.data) (hno : p.newReplicaAdded = false)
    {u : Unit} (hrun : Store.addReplica primary s = .ok (u, s')) :
    Compressing primary new existing old { p with oldReplicaDeleted := false } d₀ s'.data := by
  obtain ⟨T, hswap, -, hd⟩ := Store.addReplica_ok hrun
  rw [hd]
  refine ⟨h.objects, ?_, ?_, h.dedup, h.distinct, h.released⟩
  · intro r
    show r ∈ T ↔ _
    have hold : r ∈ s.replicas ↔ _ := h.replicas r
    rw [hswap.2.2.2.2 r, hold]
    constructor
    · rintro (⟨⟨hr, -⟩ | ⟨hadd, -⟩, -⟩ | hr)
      · exact .inl ⟨hr, nofun⟩
      · rw [hno] at hadd
        cases hadd
      · cases hr
        exact .inl ⟨hs.source, nofun⟩
    · rintro (⟨hr, -⟩ | ⟨hadd, -⟩)
      · by_cases hid : r.replicaId = primary.replicaId
        · exact .inr (congrArg some (Table.eq_of_key hs.source hr hid.symm))
        · exact .inl ⟨.inl ⟨hr, fun _ => hid⟩, hid⟩
      · have hadd : p.newReplicaAdded = true := hadd
        rw [hno] at hadd
        cases hadd
  · intro hadd
    have hadd : p.newReplicaAdded = true := hadd
    rw [hno] at hadd
    cases hadd

/-- the row of the source payload is put back -/
theorem Compressing.restoreOld (hs : CompressSetting primary new existing old d₀)
    (h : Compressing primary new existing old p d₀ s.data) {e : DedupEntry} (hold : old = some e)
    (hset : Store.DedupSet s s' (primary.contentHash, primary.location.backend) (some e)) :
    Compressing primary new existing old { p with oldRefReleased := false } d₀ s'.data := by
  obtain ⟨T, hd, hfind⟩ := hset
  rw [hd]
  refine ⟨h.objects, h.replicas, h.added, ?_, h.distinct, nofun⟩
  intro key
  rw [hfind key]
  by_cases hk : key = (primary.contentHash, primary.location.backend)
  · rw [if_pos hk, if_neg, if_neg (fun hc => Bool.noConfusion hc.1), hk, hs.snapshot e hold]
    rintro ⟨hnew, hc⟩
    exact h.distinct hnew (Prod.mk.inj (hk.symm.trans hc)).1
  · have hprev : s.dedup.find? key = _ := h.dedup key
    rw [if_neg hk, hprev]
    simp only [hk, and_false, if_false]

/-- the reference of the new payload is given back -/
theorem Compressing.releaseNew (hs : CompressSetting primary new existing old d₀)
    (h : Compressing primary new existing old p d₀ s.data) (hnew : p.newRefRecorded = true)
    (hfree : p.oldRefReleased = false) {last : Bool}
    (hrun : Store.dedupRelease new.contentHash primary.location.backend s = .ok (last, s')) :
    Compressing primary new existing old { p with newRefRecorded := false } d₀ s'.data := by
  obtain ⟨e, hfind, -, -, T, hd, hset⟩ := Store.dedupRelease_ok hrun
  have he : e = referenced existing new := by
    have hread : s.dedup.find? _ = _ := h.dedup (new.contentHash, primary.location.backend)
    rw [if_pos ⟨hnew, rfl⟩, hfind] at hread
    exact Option.some.inj hread
  have hback : unreferenced e = existing := by
    rw [he]
    exact (unreferenced_referenced new hs.counted).1
  rw [hd]
  refine ⟨h.objects, h.replicas, h.added, ?_, nofun, ?_⟩
  · intro key
    rw [hset key]
    by_cases hk : key = (new.contentHash, primary.location.backend)
    · rw [if_pos hk]
      show unreferenced e = _
      rw [hback, if_neg (fun hc => Bool.noConfusion hc.1), if_neg, hk, hs.target]
      rintro ⟨hc, -⟩
      have hc : p.oldRefReleased = true := hc
      rw [hfree] at hc
      cases hc
    · have hprev : s.dedup.find? key = _ := h.dedup key
      rw [if_neg hk, hprev]
      simp only [hk, and_false, if_false]
  · intro hc
    have hc : p.oldRefReleased = true := hc
    rw [hfree] at hc
    cases hc

end

/-! ## the section -/

section
variable {B : Set Bytes} [DecidablePred (· ∈ B)] {n : Nat} {env : Env} {t : Tid} {op : Op}
  {w w' : Traced} {primary new : Replica} {existing old : Option DedupEntry}
  {p : CompressProgress} {d₀ : Data} {updated : ReclaimObject} {audit : AuditEntry}
  {r : Res (CompressProgress × Res Unit)}

/-- a call of the section fails and ends it, or is carried out -/
theorem ran_stage {so : StoreOp} {k : so.Out → M (CompressProgress × Res Unit)}
    (hn : n ≤ w.log.length) (hso : ∀ a, so.overflows a = false)
    (h : Ran (gated (lone B n) env t op) (Coordinator.stage p (Coordinator.store so) k).run w r w') :
    (∃ e, r = .ok (p, .error e) ∧ Rests w w' ∧ w'.failures n ≠ []) ∨
      ∃ a w₁, so.run w.store = .ok (a, w₁.store) ∧ OnTables w w₁ ∧ w₁.failures n = w.failures n ∧
        Ran (gated (lone B n) env t op) (k a).run w₁ r w' := by
  rcases lone_attempt hn hso h with ⟨e, w₁, hs, hf, h⟩ | hok
  · obtain ⟨rfl, rfl⟩ := ran_pure.mp h
    exact .inl ⟨e, rfl, hs, hf⟩
  · exact .inr hok

/-- the last three calls of the section -/
def Coordinator.compressRows (primary new : Replica) (updated : ReclaimObject) (audit : AuditEntry)
    (p : CompressProgress) : M (CompressProgress × Res Unit) :=
  stage p (store (.deleteReplica primary.replicaId)) fun _ =>
    let p := { p with oldReplicaDeleted := true }
    stage p (store (.addReplica new)) fun _ =>
      let p := { p with newReplicaAdded := true }
      stage p (store (.updateObjectWithAudit updated audit)) fun _ => pure (p, .ok ())

theorem compressRows_applied (hn : n ≤ w.log.length)
    (hp : Compressing primary new existing old p d₀ w.store.data)
    (hold : p.newReplicaAdded = false)
    (h : Ran (gated (lone B n) env t op)
      (Coordinator.compressRows primary new updated audit p).run w r w') :
    SectionEnd (Compressing primary new existing old · d₀) n w r w' := by
  rcases ran_stage hn (fun _ => rfl) h with ⟨e, rfl, hs, hf⟩ | ⟨_, w₁, hrun₁, hon₁, hf₁, h₁⟩
  · exact .failed hs hf hp
  refine .after hon₁ hf₁ ?_
  have hp₁ := hp.deleteOld hold hrun₁
  have hn₁ := hon₁.length hn
  rcases ran_stage hn₁ (fun _ => rfl) h₁ with ⟨e, rfl, hs, hf⟩ | ⟨_, w₂, hrun₂, hon₂, hf₂, h₂⟩
  · exact .failed hs hf hp₁
  refine .after hon₂ hf₂ ?_
  have hp₂ := hp₁.addNew rfl hold hrun₂
  rcases ran_stage (hon₂.length hn₁) (fun _ => rfl) h₂ with ⟨e, rfl, hs, hf⟩ | ⟨_, w₃, -, hon₃, hf₃, h₃⟩
  · exact .failed hs hf hp₂
  obtain ⟨rfl, rfl⟩ := ran_pure.mp h₃
  exact ⟨hon₃, _, _, rfl, .inr ⟨⟨_, rfl⟩, hf₃⟩⟩

theorem compressMetadata_applied (hn : n ≤ w.log.length)
    (hs : CompressSetting primary new existing old w.store.data)
    (h : Ran (gated (lone B n) env t op)
      (Coordinator.compressMetadata primary new existing old updated audit).run w r w') :
    SectionEnd (Compressing primary new existing old · w.store.data) n w r w' := by
  have hstart : Compressing primary new existing old {} w.store.data w.store.data := .start _
  by_cases hne : primary.contentHash ≠ new.contentHash
  swap
  · have h : Ran (gated (lone B n) env t op)
        (if primary.contentHash ≠ new.contentHash then _
          else Coordinator.compressRows primary new updated audit {}).run w r w' := h
    rw [if_neg hne] at h
    exact compressRows_applied hn hstart rfl h
  -- once the reference of the new payload is recorded
  have hrest {w₁ : Traced} (hon : OnTables w w₁) (hf : w₁.failures n = w.failures n)
      (hset : Store.DedupSet w.store w₁.store (new.contentHash, primary.location.backend)
        (some (referenced existing new)))
      (h₁ : Ran (gated (lone B n) env t op)
        (if old.isSome then
          Coordinator.stage { newRefRecorded := true }
            (Coordinator.store (.dedupRelease primary.contentHash primary.location.backend)) fun _ =>
              Coordinator.compressRows primary new updated audit
                { newRefRecorded := true, oldRefReleased := true }
        else Coordinator.compressRows primary new updated audit { newRefRecorded := true }).run
          w₁ r w') :
      SectionEnd (Compressing primary new existing old · w.store.data) n w r w' := by
    have hp₁ := hstart.record hne hset
    refine .after hon hf ?_
    cases ho : old.isSome with
    | false =>
      rw [ho] at h₁
      exact compressRows_applied (hon.length hn) hp₁ rfl h₁
    | true =>
      rw [ho] at h₁
      rcases ran_stage (hon.length hn) (fun _ => rfl) h₁ with ⟨e, rfl, hs', hf'⟩ | ⟨_, w₂, hrun₂, hon₂, hf₂, h₂⟩
      · exact .failed hs' hf' hp₁
      · refine .after hon₂ hf₂ ?_
        exact compressRows_applied (hon₂.length (hon.length hn))
          (hp₁.release hs rfl rfl ho hrun₂) rfl h₂
  have h : Ran (gated (lone B n) env t op) (if primary.contentHash ≠ new.contentHash then
      Coordinator.stage {} (if existing.isSome then
          Coordinator.store (.dedupAcquire new.contentHash primary.location.backend)
        else Coordinator.store (.insertDedup ⟨new.contentHash, primary.location.backend,
          new.location.key, 1, new.size⟩)) _ else _).run w r w' := h
  rw [if_pos hne] at h
  cases hex : existing with
  | none =>
    subst hex
    rcases ran_stage hn (fun _ => rfl) h with ⟨e, rfl, hs', hf⟩ | ⟨_, w₁, hrun, hon, hf, h₁⟩
    · exact .failed hs' hf hstart
    · refine hrest hon hf ?_ h₁
      have hset := (Store.insertDedup_ok hrun).2
      rw [referenced, hs.backend]
      exact hset
  | some e =>
    subst hex
    rcases ran_stage hn (fun _ => rfl) h with
      ⟨e', rfl, hs', hf⟩ | ⟨_, w₁, hrun, hon, hf, h₁⟩
    · exact .failed hs' hf hstart
    · refine hrest hon hf ?_ h₁
      obtain ⟨x, hfind, -, hset⟩ := Store.dedupAcquire_ok hrun
      have hx : x = e := Option.some.inj (hfind.symm.trans hs.target)
      rw [hx] at hset
      exact hset

/-! ## its compensation -/

/-- the row of the source payload comes back -/
theorem restoreSourceRef_applied {u : Res Unit} (hn : n ≤ w.log.length) (hf : w.failures n ≠ [])
    (hs : CompressSetting primary new existing old d₀)
    (hp : Compressing primary new existing old p d₀ w.store.data) (hrel : p.oldRefReleased = true)
    (h : Ran (gated (lone B n) env t op) (Coordinator.restoreSourceRef old).run w u w') :
    OnTables w w' ∧ u = .ok () ∧
      Compressing primary new existing old { p with oldRefReleased := false } d₀ w'.store.data := by
  obtain ⟨e, hold⟩ := Option.isSome_iff_exists.mp (hp.released hrel).1
  have hsnap := hs.snapshot e hold
  have hkey : (e.contentHash, e.backend) = (primary.contentHash, primary.location.backend) :=
    Table.key_of_find? (T := d₀.dedup) hsnap
  have hnow : w.store.dedup.find? (e.contentHash, e.backend) = unreferenced e := by
    have hread : w.store.dedup.find? _ = _ :=
      hp.dedup (primary.contentHash, primary.location.backend)
    rw [hkey, hread, if_neg, if_pos ⟨hrel, rfl⟩, hold]
    · rfl
    · rintro ⟨hnew, hc⟩
      exact hp.distinct hnew (Prod.mk.inj hc).1
  rw [hold] at h
  rcases lone_sure_seq hn hf h with ⟨found, w₁, hrun₁, hon₁, hf₁, h₁⟩
  obtain ⟨hread, hstore⟩ := Prod.mk.inj (Except.ok.inj hrun₁)
  have hfound : found = unreferenced e := hread.symm.trans hnow
  have hdata₁ : w₁.store.data = w.store.data := congrArg Store.data hstore.symm
  have hn₁ := hon₁.length hn
  have hf₁' : w₁.failures n ≠ [] := by
    rw [hf₁]
    exact hf
  rw [hfound] at h₁
  have hp₁ : Compressing primary new existing old p d₀ w₁.store.data := by
    rw [hdata₁]
    exact hp
  by_cases hone : e.refCount = 1
  · have hnone : unreferenced e = none := if_pos hone
    rw [hnone] at h₁
    obtain ⟨a, rfl, hrun₂, hon₂, -⟩ := lone_sure hn₁ hf₁' h₁
    have hset := (Store.insertDedup_ok hrun₂).2
    rw [hkey] at hset
    exact ⟨hon₁.trans hon₂, rfl, hp₁.restoreOld hs hold hset⟩
  · have hsome : unreferenced e = some { e with refCount := e.refCount - 1 } := if_neg hone
    rw [hsome] at h₁
    obtain ⟨a, rfl, hrun₂, hon₂, -⟩ := lone_sure hn₁ hf₁' h₁
    obtain ⟨x, hfind, hpos, hset⟩ := Store.dedupAcquire_ok hrun₂
    have hx : x = { e with refCount := e.refCount - 1 } := by
      have hread : w₁.store.dedup.find? (e.contentHash, e.backend) = _ :=
        (congrArg (fun d : Data => d.dedup.find? (e.contentHash, e.backend)) hdata₁).trans hnow
      rw [hsome, hfind] at hread
      exact Option.some.inj hread
    have hback : { x with refCount := x.refCount + 1 } = e := by
      rw [hx] at hpos ⊢
      have hcount : e.refCount - 1 + 1 = e.refCount := by
        have hpos : 1 ≤ e.refCount - 1 := hpos
        omega
      show { e with refCount := e.refCount - 1 + 1 } = e
      rw [hcount]
    rw [hback, hkey] at hset
    exact ⟨hon₁.trans hon₂, rfl, hp₁.restoreOld hs hold hset⟩

theorem undoCompress_applied {u : Res Unit} (hs : CompressSetting primary new existing old d₀)
    (hw : Undoing (Compressing primary new existing old · d₀) n p w)
    (h : Ran (gated (lone B n) env t op) (Coordinator.undoCompress p primary new old).run w u w') :
    OnTables w w' ∧ u = .ok () ∧ EqualRows d₀ w'.store.data := by
  -- one flag after the other is taken back
  have hnew : ∃ w₁, OnTables w w₁ ∧
      Undoing (Compressing primary new existing old · d₀) n { p with newReplicaAdded := false } w₁ ∧
      Ran (gated (lone B n) env t op) (do
        if p.oldReplicaDeleted then
          Coordinator.store (.addReplica primary)
        if p.oldRefReleased then
          Coordinator.restoreSourceRef old
        if p.newRefRecorded then
          let _ ← Coordinator.store (.dedupRelease new.contentHash primary.location.backend) :
        M Unit).run w₁ u w' := by
    unfold Coordinator.undoCompress at h
    rcases ran_guarded h with ⟨hadd, hx⟩ | ⟨hadd, hx⟩
    · obtain ⟨_, w₁, hrun, hon, hf, hx⟩ := lone_sure_seq hw.length hw.failed hx
      exact ⟨w₁, hon, hw.next hon hf (hw.applied.deleteNew hadd hrun), hx⟩
    · refine ⟨w, (Rests.refl w).toOnTables, ⟨hw.length, hw.failed, ?_⟩, hx⟩
      have hp : { p with newReplicaAdded := false } = p := by
        rw [← Bool.eq_false_of_not_eq_true hadd]
      rw [hp]
      exact hw.applied
  obtain ⟨w₁, hon₁, hw₁, h₁⟩ := hnew
  have hold : ∃ w₂, OnTables w w₂ ∧ Undoing (Compressing primary new existing old · d₀) n
      { p with newReplicaAdded := false, oldReplicaDeleted := false } w₂ ∧
      Ran (gated (lone B n) env t op) (do
        if p.oldRefReleased then
          Coordinator.restoreSourceRef old
        if p.newRefRecorded then
          let _ ← Coordinator.store (.dedupRelease new.contentHash primary.location.backend) :
        M Unit).run w₂ u w' := by
    rcases ran_guarded h₁ with ⟨hdel, hx⟩ | ⟨hdel, hx⟩
    · obtain ⟨_, w₂, hrun, hon, hf, hx⟩ := lone_sure_seq hw₁.length hw₁.failed hx
      exact ⟨w₂, hon₁.trans hon, hw₁.next hon hf (hw₁.applied.addOld hs rfl hrun), hx⟩
    · refine ⟨w₁, hon₁, ⟨hw₁.length, hw₁.failed, ?_⟩, hx⟩
      have hp : { p with newReplicaAdded := false, oldReplicaDeleted := false } =
          { p with newReplicaAdded := false } := by
        rw [← Bool.eq_false_of_not_eq_true hdel]
      rw [hp]
      exact hw₁.applied
  obtain ⟨w₂, hon₂, hw₂, h₂⟩ := hold
  have href : ∃ w₃, OnTables w w₃ ∧ Undoing (Compressing primary new existing old · d₀) n
      { newRefRecorded := p.newRefRecorded } w₃ ∧
      Ran (gated (lone B n) env t op) (do
        if p.newRefRecorded then
          let _ ← Coordinator.store (.dedupRelease new.contentHash primary.location.backend) :
        M Unit).run w₃ u w' := by
    rcases ran_guarded h₂ with ⟨hrel, hx⟩ | ⟨hrel, hx⟩
    · rcases ran_seq.mp hx with ⟨_, -, hx⟩ | ⟨_, w₃, hx, hrest⟩
      · have happlied := restoreSourceRef_applied hw₂.length hw₂.failed hs hw₂.applied hrel hx
        cases happlied.2.1
      · obtain ⟨hon, -, hq⟩ :=
          restoreSourceRef_applied hw₂.length hw₂.failed hs hw₂.applied hrel hx
        exact ⟨w₃, hon₂.trans hon, hw₂.next hon (lone_ran hw₂.length hw₂.failed hx) hq, hrest⟩
    · refine ⟨w₂, hon₂, ⟨hw₂.length, hw₂.failed, ?_⟩, hx⟩
      have hp : ({ newRefRecorded := p.newRefRecorded } : CompressProgress) =
          { p with newReplicaAdded := false, oldReplicaDeleted := false } := by
        rw [Bool.eq_false_of_not_eq_true hrel]
      rw [hp]
      exact hw₂.applied
  obtain ⟨w₃, hon₃, hw₃, h₃⟩ := href
  by_cases hrec : p.newRefRecorded = true
  · rw [if_pos hrec] at h₃
    obtain ⟨_, w₄, hrun, hon, -, hx⟩ := lone_sure_seq hw₃.length hw₃.failed h₃
    obtain ⟨rfl, rfl⟩ := ran_pure.mp hx
    exact ⟨hon₃.trans hon, rfl, (hw₃.applied.releaseNew hs hrec rfl hrun).equalRows⟩
  · rw [if_neg hrec] at h₃
    obtain ⟨rfl, rfl⟩ := ran_pure.mp h₃
    refine ⟨hon₃, rfl, ?_⟩
    have happlied := hw₃.applied
    rw [Bool.eq_false_of_not_eq_true hrec] at happlied
    exact happlied.equalRows

/-! ## the section and its compensation -/

/-- the error of the section, or that of its compensation too -/
theorem throw_either {e : ReclaimError} {g : ReclaimError → ReclaimError} {u : Res Unit}
    {exec : (c : Cmd) → Input → Traced → Option (c.Reply × Traced)} (cleanup : Res Unit)
    (h : Ran exec (match cleanup with
      | .ok () => throw e
      | .error c => throw (g c) : M Unit).run w u w') : (∃ e', u = .error e') ∧ w' = w := by
  cases cleanup with
  | ok _ =>
    obtain ⟨hu, hw⟩ := ran_throw h
    exact ⟨⟨_, hu⟩, hw⟩
  | error c =>
    obtain ⟨hu, hw⟩ := ran_throw h
    exact ⟨⟨_, hu⟩, hw⟩

/-- the payload that was written is deleted, and the error is returned -/
theorem discard_written {wrote : Bool} {b k : String} {cleanup : Res Unit} {e : ReclaimError}
    {g : ReclaimError → ReclaimError} {u : Res Unit}
    (h : Ran (gated (lone B n) env t op) (do
      if wrote then
        let _ ← attempt (Coordinator.deletePayload b k)
      match cleanup with
      | .ok () => throw e
      | .error c => throw (g c) : M Unit).run w u w') :
    (∃ e', u = .error e') ∧ PayloadOnly wrote b k w w' ∧ w'.store.data = w.store.data ∧
      (Clean n w → Clean n w') := by
  cases wrote with
  | false =>
    obtain ⟨hu, rfl⟩ := throw_either cleanup h
    exact ⟨hu, fun _ _ _ => rfl, rfl, id⟩
  | true =>
    obtain ⟨o, w₁, hx, h⟩ := ran_attempt_seq h
    obtain ⟨hu, rfl⟩ := throw_either cleanup h
    have hon := onPayload_ran (writesAt_deletePayload b k) hx
    exact ⟨hu, hon.payloads, hon.data,
      fun hw => clean_ran (writesAt_deletePayload b k).plain hw hx⟩

theorem recordCompressed_undone {wrote : Bool} {u : Res Unit} (hw : Clean n w)
    (hs : CompressSetting primary new existing old w.store.data)
    (h : Ran (gated (lone B n) env t op)
      (Coordinator.recordCompressed primary new existing old updated audit wrote).run w u w') :
    Clean n w' ∨ (∃ e, u = .error e) ∧ EqualRows w.store.data w'.store.data ∧
      PayloadOnly wrote primary.location.backend new.location.key w w' := by
  rcases ran_seq.mp h with ⟨_, -, hx⟩ | ⟨q, w₁, hx, h⟩
  · obtain ⟨_, hno, -⟩ := ran_progress hx (fun _ => rfl) fun _ => rfl
    cases hno
  obtain ⟨_, hq, hend⟩ := ran_progress hx (fun _ => rfl) fun _ => rfl
  cases hq
  rcases hend with ⟨⟨e, rfl⟩, hrest⟩ | ⟨w₂, w₃, o', hrest, hbody, hrest', hq⟩
  · -- the section did not start, and there is nothing to undo
    obtain ⟨c, w₂, hundo, h⟩ := ran_attempt_seq h
    have hnothing : Restful (Coordinator.withInner (Coordinator.undoCompress {} primary new old)) :=
      restful_withInner only_pure
    have hclean := (hw.resting hrest).resting (rests hnothing hundo)
    exact .inl ((discard_written h).2.2.2 hclean)
  have hn₂ := hrest.toOnTables.length hw.1
  have hs₂ : CompressSetting primary new existing old w₂.store.data := by
    rw [hrest.data]
    exact hs
  obtain ⟨hon, p, res, rfl, hend⟩ := compressMetadata_applied hn₂ hs₂ hbody
  cases hq _ rfl
  have hn₃ := hon.length hn₂
  rcases hend with ⟨⟨e, rfl⟩, happlied, hf⟩ | ⟨⟨_, rfl⟩, hf⟩
  · refine .inr ?_
    have hn₁ := hrest'.toOnTables.length hn₃
    have hf₁ := failures_ne_nil hn₃ hf hrest'.log
    obtain ⟨c, w₄, hundo, h⟩ := ran_attempt_seq h
    rcases ran_withInner hundo with ⟨_, -, -, hno⟩ | ⟨w₅, w₆, hr₅, hbody₅, hr₆⟩
    · exact absurd (lone_assured hn₁ hf₁) hno
    have hundoing : Undoing (Compressing primary new existing old · w₂.store.data) n p w₅ := by
      refine ⟨hr₅.toOnTables.length hn₁, failures_ne_nil hn₁ hf₁ hr₅.log, ?_⟩
      rw [hr₅.data, hrest'.data]
      exact happlied
    obtain ⟨hon₅, -, hrows⟩ := undoCompress_applied hs₂ hundoing hbody₅
    obtain ⟨hu, hpay, hdata, -⟩ := discard_written h
    refine ⟨hu, ?_, ?_⟩
    · rw [hdata, hr₆.data, ← hrest.data]
      exact hrows
    · have hall : OnTables w w₄ := hrest.toOnTables.trans (hon.trans (hrest'.toOnTables.trans
        (hr₅.toOnTables.trans (hon₅.trans hr₆.toOnTables))))
      exact hall.payloadOnly.trans hpay
  · refine .inl ?_
    obtain ⟨-, rfl⟩ := ran_pure.mp h
    have hclean₃ : Clean n w₃ := by
      refine ⟨hn₃, ?_⟩
      rw [hf]
      exact (hw.resting hrest).2
    exact hclean₃.resting hrest'

/-! ## compress -/

theorem restful_compressedTarget {b sk : String} {g : ContentHash} {ex : Option DedupEntry} :
    Restful (Coordinator.compressedTarget env b sk g ex) := by
  cases ex with
  | none => exact only_pure
  | some e =>
    have hread : Restful (do
        let canonical ← Coordinator.readPayload b e.key
        settle (env.verifySha256 canonical g)
        pure (e.key, false) : M (String × Bool)) :=
      only_bind (restful_readPayload b e.key) fun _ => only_bind only_settle fun _ => only_pure
    exact only_ite (only_bind only_throw fun _ => hread) hread

/-- a payload is written under a new key when no row has its hash -/
theorem compressedTarget_ok {b sk newKey : String} {g : ContentHash} {ex : Option DedupEntry}
    {wrote : Bool} (h : Ran (gated (lone B n) env t op)
      (Coordinator.compressedTarget env b sk g ex).run w (.ok (newKey, wrote)) w') :
    (∀ e, ex = some e → e.refCount ≠ 0) ∧
      (wrote = true → ex = none ∧ newKey = sk ++ "-zstd") := by
  cases ex with
  | none =>
    cases (ran_pure.mp h).1
    refine ⟨?_, fun _ => ⟨rfl, rfl⟩⟩
    rintro _ ⟨⟩
  | some e =>
    unfold Coordinator.compressedTarget at h
    simp only at h
    split at h
    · cases (ran_throw_seq h).1
    · next hne =>
      obtain ⟨_, w₁, -, h⟩ := ran_seq_ok h
      obtain ⟨_, w₂, -, h⟩ := ran_seq_ok h
      cases (ran_pure.mp h).1
      refine ⟨?_, Bool.noConfusion⟩
      rintro _ ⟨⟩
      exact hne

theorem writesAt_writeCompressed (b k : String) (data : Bytes) :
    WritesAt b k (Coordinator.writeCompressed env b k data) := by
  refine only_bind (only_attempt (writesAt_writePayloadTo b k data)) fun o => ?_
  cases o with
  | ok _ => exact only_pure
  | error e =>
    refine only_bind (only_attempt (writesAt_deletePayload b k)) fun o => ?_
    cases o with
    | ok _ => exact only_throw
    | error c => exact only_throw

theorem writesAt_sourceDedup {newKey : String} {wrote : Bool} :
    WritesAt primary.location.backend newKey
      (Coordinator.sourceDedup env primary newKey wrote) := by
  refine only_ite only_pure (only_bind (restful_inner rfl).writesAt fun found => ?_)
  cases found with
  | none => exact only_throw
  | some e =>
    refine only_ite ?_ only_pure
    exact only_ite (only_bind (only_attempt (writesAt_deletePayload _ _)) fun _ =>
      only_bind only_throw fun _ => only_pure) (only_bind only_throw fun _ => only_pure)

/-- the row of the source payload is read, and nothing is written -/
theorem sourceDedup_ok {newKey : String} {wrote : Bool}
    (h : Ran (gated (lone B n) env t op)
      (Coordinator.sourceDedup env primary newKey wrote).run w (.ok old) w') :
    Resting w w' ∧ ∀ e, old = some e →
      w.store.dedup.find? (primary.contentHash, primary.location.backend) = some e := by
  unfold Coordinator.sourceDedup at h
  split at h
  · obtain ⟨hold, rfl⟩ := ran_pure.mp h
    cases hold
    refine ⟨.refl w', ?_⟩
    rintro _ ⟨⟩
  · obtain ⟨found, w₁, hx, h⟩ := ran_seq_ok h
    obtain ⟨hs, hread⟩ := ran_innerRead rfl hx
    obtain ⟨s, s', hsd, hrun⟩ := hread found rfl
    have hfound : w.store.dedup.find? (primary.contentHash, primary.location.backend) = found := by
      cases hrun
      rw [show s.dedup = w.store.dedup from congrArg Data.dedup hsd]
    cases found with
    | none => cases (ran_throw h).1
    | some e =>
      simp only at h
      split at h
      · split at h
        · obtain ⟨_, w₂, -, h⟩ := ran_attempt_seq h
          cases (ran_throw_seq h).1
        · cases (ran_throw_seq h).1
      · obtain ⟨hold, rfl⟩ := ran_pure.mp h
        cases hold
        refine ⟨hs, ?_⟩
        rintro _ ⟨⟩
        exact hfound

/-- the part of `compress` after its rows are committed -/
def Coordinator.releaseSource (o : ReclaimObject) (primary : Replica) (h : ContentHash)
    (oldDedup : Option DedupEntry) (result : CompressionResult) : M CompressionResult := do
  if oldDedup.any (fun e => decide (e.refCount = 1)) ∧ primary.contentHash ≠ h then
    match ← attempt (deletePayload primary.location.backend primary.location.key) with
    | .ok () => pure ()
    | .error e => withInner do
      let ts ← nowMs
      store (.insertFailure ⟨ts, some o.id, none, "COMPRESSION_SOURCE_CLEANUP_FAILED", e.text,
        false⟩)
  pure result

theorem plain_releaseSource {o : ReclaimObject} {g : ContentHash} {result : CompressionResult} :
    Plain (Coordinator.releaseSource o primary g old result) := by
  refine only_ite (only_bind (only_attempt (writesAt_deletePayload _ _).plain) fun x => ?_) only_pure
  cases x with
  | ok _ => exact only_pure
  | error e =>
    refine only_bind (only_withInner (fun _ hc => plain_of_restful hc) ?_) fun _ => only_pure
    exact only_bind (restful_ask rfl).plain fun ts => .call (by rintro _ ⟨⟩; rfl) fun _ => .ret _

/-- the part of `compress` after its payload is in place -/
def Coordinator.recordTarget (env : Env) (o : ReclaimObject) (actor : String) (primary : Replica)
    (h : ContentHash) (result : CompressionResult) (existingNew : Option DedupEntry)
    (newKey : String) (wrote : Bool) (ownerNode : Option String) : M CompressionResult := do
  let b := primary.location.backend
  let oldDedup ← sourceDedup env primary newKey wrote
  let updated := compressedObject o result
  let replicaId ← ask .newUuid
  let createdAt ← nowMs
  let verifiedAt ← nowMs
  let new : Replica :=
    { replicaId := replicaId
      objectId := o.id
      generation := o.generation
      location := ⟨b, newKey, primary.location.kind⟩
      size := result.compressedSize
      contentHash := h
      createdAtMs := createdAt
      verifiedAtMs := some verifiedAt
      valid := true
      ownerNode := ownerNode }
  let ts ← nowMs
  let audit := auditOf ts actor "OBJECT_COMPRESSED" updated (some o.lifecycleState)
    (some updated.lifecycleState) none none
    (.obj [("codec", .str result.codec), ("original_size", .nat result.originalSize),
      ("compressed_size", .nat result.compressedSize), ("compressed_hash", .str h.text),
      ("key", .str newKey)])
  recordCompressed primary new existingNew oldDedup updated audit wrote
  releaseSource o primary h oldDedup result

theorem recordTarget_undone {o : ReclaimObject} {actor newKey : String} {g : ContentHash}
    {result : CompressionResult} {wrote : Bool} {owner : Option String} {u : Res CompressionResult}
    (hw : Clean n w) (hsource : primary ∈ w.store.replicas)
    (htarget : w.store.dedup.find? (g, primary.location.backend) = existing)
    (hcount : ∀ e, existing = some e → e.refCount ≠ 0)
    (h : Ran (gated (lone B n) env t op) (Coordinator.recordTarget env o actor primary g result
      existing newKey wrote owner).run w u w') :
    Clean n w' ∨ (∃ e, u = .error e) ∧ EqualRows w.store.data w'.store.data ∧
      PayloadOnly wrote primary.location.backend newKey w w' := by
  rcases clean_seq writesAt_sourceDedup.plain hw h with hend | ⟨old, w₁, hx, hw₁, h₁⟩
  · exact .inl hend
  obtain ⟨hs₁, hsnap⟩ := sourceDedup_ok hx
  obtain ⟨_, rid, w₂, hid, h₂⟩ := ran_ask_seq h₁
  obtain ⟨_, created, w₃, hcreated, h₃⟩ := ran_ask_seq h₂
  obtain ⟨_, verified, w₄, hverified, h₄⟩ := ran_ask_seq h₃
  obtain ⟨_, ts, w₅, hts, h₅⟩ := ran_ask_seq h₄
  have hs₅ := hs₁.trans ((rests_step rfl hid).trans ((rests_step rfl hcreated).trans
    ((rests_step rfl hverified).trans (rests_step rfl hts))))
  have hsetting {new : Replica} (hb : new.location.backend = primary.location.backend)
      (hg : new.contentHash = g) : CompressSetting primary new existing old w₅.store.data := by
    rw [hs₅.data]
    refine ⟨hsource, hb, ?_, hcount, hsnap⟩
    rw [hg]
    exact htarget
  rcases ran_seq.mp h₅ with ⟨e, rfl, hx⟩ | ⟨_, w₆, hx, h₆⟩
  · have hsection := fun hs => recordCompressed_undone (hw.resting hs₅) hs hx
    rcases hsection (hsetting rfl rfl) with hend | ⟨-, hrows, hpay⟩
    · exact .inl hend
    · refine .inr ⟨⟨e, rfl⟩, ?_, hs₅.toOnTables.payloadOnly.trans hpay⟩
      rw [← hs₅.data]
      exact hrows
  · refine .inl (clean_ran plain_releaseSource ?_ h₆)
    have hsection := fun hs => recordCompressed_undone (hw.resting hs₅) hs hx
    rcases hsection (hsetting rfl rfl) with hend | ⟨⟨e, hno⟩, -⟩
    · exact hend
    · cases hno

theorem compressGuarded_undone {o : ReclaimObject} {actor : String} {data : Bytes}
    {result : CompressionResult} {u : Res CompressionResult} (hw : Clean n w)
    (hsource : primary ∈ w.store.replicas)
    (hfresh : w.store.dedup.find? (env.sha256 data, primary.location.backend) = none →
      ∀ e ∈ w.store.dedup, ¬(e.backend = primary.location.backend ∧
        e.key = primary.location.key ++ "-zstd"))
    (h : Ran (gated (lone B n) env t op)
      (Coordinator.compressGuarded env o actor primary data result).run w u w') :
    Clean n w' ∨ (∃ e, u = .error e) ∧ Undone w w' := by
  rcases clean_seq (restful_inner rfl).plain hw h with hend | ⟨existing, w₁, hx, hw₁, h₁⟩
  · exact .inl hend
  obtain ⟨hs₁, hread⟩ := ran_innerRead rfl hx
  obtain ⟨s, s', hsd, hrun⟩ := hread existing rfl
  have htarget : w.store.dedup.find? (env.sha256 data, primary.location.backend) = existing := by
    cases hrun
    rw [show s.dedup = w.store.dedup from congrArg Data.dedup hsd]
  rcases clean_seq restful_compressedTarget.plain hw₁ h₁ with
    hend | ⟨⟨newKey, wrote⟩, w₂, hx, hw₂, h₂⟩
  · exact .inl hend
  obtain ⟨hcount, hnew⟩ := compressedTarget_ok hx
  have hs₂ := hs₁.trans (rests restful_compressedTarget hx)
  rcases clean_seq (restful_nodeForBackend _).plain hw₂ h₂ with hend | ⟨owner, w₃, hx, hw₃, h₃⟩
  · exact .inl hend
  have hs₃ := hs₂.trans (rests (restful_nodeForBackend _) hx)
  -- the rows are those of the start when the section is reached
  have hrecord {w₄ : Traced} (hw₄ : Clean n w₄) (hdata : w₄.store.data = w.store.data)
      (hpay : PayloadOnly wrote primary.location.backend newKey w w₄)
      (h₄ : Ran (gated (lone B n) env t op) (Coordinator.recordTarget env o actor primary
        (env.sha256 data) result existing newKey wrote owner).run w₄ u w') :
      Clean n w' ∨ (∃ e, u = .error e) ∧ Undone w w' := by
    have hsource₄ : primary ∈ w₄.store.replicas := by
      rw [show w₄.store.replicas = w.store.replicas from congrArg Data.replicas hdata]
      exact hsource
    have htarget₄ : w₄.store.dedup.find? (env.sha256 data, primary.location.backend) = existing := by
      rw [show w₄.store.dedup = w.store.dedup from congrArg Data.dedup hdata]
      exact htarget
    rcases recordTarget_undone hw₄ hsource₄ htarget₄ hcount h₄ with hend | ⟨hu, hrows, hpay₄⟩
    · exact .inl hend
    · refine .inr ⟨hu, EqualRows.undone ?_ (hpay.trans hpay₄) ?_⟩
      · rw [← hdata]
        exact hrows
      · rintro e he ⟨hwrote, hat⟩
        obtain ⟨hnone, hkey⟩ := hnew hwrote
        rw [hkey] at hat
        exact hfresh (htarget.trans hnone) e he hat
  have h₃ : Ran (gated (lone B n) env t op)
      (if wrote = true then
        Coordinator.writeCompressed env primary.location.backend newKey data >>= fun _ =>
          Coordinator.recordTarget env o actor primary (env.sha256 data) result existing newKey wrote
            owner
      else Coordinator.recordTarget env o actor primary (env.sha256 data) result existing newKey
        wrote owner).run w₃ u w' := h₃
  rcases ran_guarded h₃ with ⟨hwrote, hx⟩ | ⟨hwrote, hx⟩
  · rcases clean_seq (writesAt_writeCompressed _ newKey data).plain hw₃ hx with
      hend | ⟨_, w₄, hx, hw₄, h₄⟩
    · exact .inl hend
    · have hon := onPayload_ran (writesAt_writeCompressed _ newKey data) hx
      refine hrecord hw₄ (hon.data.trans hs₃.data) ?_ h₄
      rw [hwrote]
      exact hs₃.toOnTables.payloadOnly.trans hon.payloads
  · exact hrecord hw₃ hs₃.data hs₃.toOnTables.payloadOnly hx

/-- the keys stand for their contents -/
structure KeysNamed (env : Env) (B : Set Bytes) (w : Traced) : Prop where
  replicas : ∀ r ∈ w.store.replicas, Named env B w r.location.key r.contentHash
  dedup : ∀ e ∈ w.store.dedup, Named env B w e.key e.contentHash

/-- a dedup row under a key with a known content is the row of that content -/
theorem KeysNamed.unused (h : KeysNamed env B w) (hB : Set.InjOn env.sha256 B) {b k : String}
    {g : ContentHash} (hk : Named env B w k g) (hnone : w.store.dedup.find? (g, b) = none)
    (e : DedupEntry) (he : e ∈ w.store.dedup) : ¬(e.backend = b ∧ e.key = k) := by
  rintro ⟨rfl, rfl⟩
  have hsame : e.contentHash = g := Named.functional hB (h.dedup e he) hk
  have hfind : w.store.dedup.find? (e.contentHash, e.backend) = some e := Table.find?_of_mem he
  rw [hsame, hnone] at hfind
  cases hfind

/-- **compress undoes its metadata**: after a failed write of its section it returns an error, and
the rows and the payloads they refer to are as before -/
theorem compress_undone {id : Uuid} {actor : String} {u : Res CompressionResult}
    (hB : Set.InjOn env.sha256 B) (hnamed : KeysNamed env B w) (hw : Clean n w)
    (h : Ran (gated (lone B n) env t op) (Coordinator.compress env id actor).run w u w') :
    Clean n w' ∨ (∃ e, u = .error e) ∧ Undone w w' := by
  rcases ran_withObject h with ⟨_, -, hs⟩ | ⟨w₀, w₉, hs₀, h, hs'⟩
  · exact .inl (hw.resting hs)
  have hw₀ := hw.resting hs₀
  suffices hbody : Clean n w₉ ∨ (∃ e, u = .error e) ∧ Undone w w₉ by
    rcases hbody with hend | ⟨hu, hundone⟩
    · exact .inl (hend.resting hs')
    · exact .inr ⟨hu, (undone_between (.refl w) hs'.toRests).mp hundone⟩
  rcases clean_seq (restful_inner rfl).plain hw₀ h with hend | ⟨o, w₁, hx, hw₁, h₁⟩
  · exact .inl hend
  have hs₁ := hs₀.trans (rests (restful_inner rfl) hx)
  rcases clean_check hw₁ h₁ with hend | ⟨-, h₁⟩
  · exact .inl hend
  rcases clean_check hw₁ h₁ with hend | ⟨-, h₁⟩
  · exact .inl hend
  rcases clean_settle hw₁ h₁ with hend | ⟨_, -, h₁⟩
  · exact .inl hend
  rcases clean_seq (restful_inner rfl).plain hw₁ h₁ with hend | ⟨rs, w₂, hx, hw₂, h₂⟩
  · exact .inl hend
  obtain ⟨hs, hread⟩ := ran_innerRead rfl hx
  have hs₂ := hs₁.trans hs
  obtain ⟨s, s', hsd, hrun⟩ := hread rs rfl
  cases hp : Coordinator.compressPrimary o rs with
  | none =>
    rw [hp] at h₂
    rw [(ran_throw h₂).2]
    exact .inl hw₂
  | some primary =>
    rw [hp] at h₂
    have hsource : primary ∈ w.store.replicas := by
      have hmem := ((Store.replicasFor_ok hrun).mp (List.mem_of_find?_eq_some hp)).1
      rw [show s.replicas = w₁.store.replicas from congrArg Data.replicas hsd, hs₁.replicas] at hmem
      exact hmem
    rcases clean_seq (restful_readPayload _ _).plain hw₂ h₂ with hend | ⟨data, w₃, hx, hw₃, h₃⟩
    · exact .inl hend
    have hdata := lone_readPayload hx
    have hs₃ := hs₂.trans (rests (restful_readPayload _ _) hx)
    rcases clean_settle hw₃ h₃ with hend | ⟨_, hverified, h₃⟩
    · exact .inl hend
    rcases clean_settle hw₃ h₃ with hend | ⟨⟨c, result⟩, hcompressed, h₃⟩
    · exact .inl hend
    rcases clean_check hw₃ h₃ with hend | ⟨-, h₃⟩
    · exact .inl hend
    rcases ran_withPayloads h₃ with ⟨_, -, hs, -⟩ | ⟨w₄, w₅, hs, h₄, hs₅⟩
    · exact .inl (hw₃.resting hs)
    have hs₄ := hs₃.trans hs
    have hkey : Named env B w (primary.location.key ++ "-zstd") (env.sha256 c) :=
      .zstd (hnamed.replicas primary hsource) hdata (verifySha256_ok hverified)
        (compressVerified_ok hcompressed)
    have hsource₄ : primary ∈ w₄.store.replicas := by
      rw [hs₄.replicas]
      exact hsource
    have hfresh := hnamed.unused hB (b := primary.location.backend) hkey
    rw [← hs₄.dedup] at hfresh
    rcases compressGuarded_undone (hw₃.resting hs) hsource₄ hfresh h₄ with hend | ⟨hu, hundone⟩
    · exact .inl (hend.resting hs₅)
    · exact .inr ⟨hu, (undone_between hs₄.toRests hs₅.toRests).mp hundone⟩

end

end ReclaimFabric
