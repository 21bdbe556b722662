import ReclaimFabric.Recovery.Frame

/-!
# Running recovery again

`reconcile_store` with a physical answer that is known is a program over the store alone.

* `StoreOp.mild`  the store methods that leave the journal, the objects and the lineage alone;
* `Only`          every command of a part of recovery is of that kind.
-/

set_option linter.unusedSectionVars false

namespace ReclaimFabric

open Prog (Ran Only Passed settle attempt)

/-! ## commands of recovery -/

/-- the store method writes neither the journal nor an object row nor an edge, and no audit row -/
def StoreOp.mild : StoreOp → Bool
  | .createObject _ => false
  | .createObjectWithAudits _ _ => false
  | .updateObject _ => false
  | .updateObjectWithAudit _ _ => false
  | .addLineageEdge _ _ _ => false
  | .removeLineageEdge _ _ _ => false
  | .appendAudit _ => false
  | .createReclaimReservation _ _ _ => false
  | .updateJournalPhase _ _ _ => false
  | .startJournalPhysical _ _ _ => false
  | _ => true

/-- the command is a mild store method -/
def Mild (c : Cmd) : Prop := ∃ so, c = .store so ∧ so.mild = true

/-- the command is a store method -/
def OnStore (c : Cmd) : Prop := ∃ so, c = .store so

theorem only_store {S : Cmd → Prop} {so : StoreOp} (h : S (.store so)) : Only S (Coordinator.store so).run :=
  .call h fun _ => .ret _

section
variable {so : StoreOp}

theorem mild_store (h : so.mild = true) : Only Mild (Coordinator.store so).run :=
  only_store ⟨so, rfl, h⟩

section
variable {S : Cmd → Prop} (hobjects : S (.store .listObjects)) (hreplicas : S (.store .allReplicas))
  (hdedup : S (.store .listDedup)) (hdelete : ∀ x b, S (.store (.deleteDedup x b))) (hupsert : ∀ x, S (.store (.upsertDedup x)))
  (hinsert : ∀ x, S (.store (.insertDedup x)))

include hdelete hupsert in
theorem repairStored_only {es live : List DedupEntry} {repairs : List String} :
    Only S (Coordinator.repairStored es live repairs).run := by
  induction es generalizing live repairs with
  | nil => exact only_pure
  | cons e es ih =>
    unfold Coordinator.repairStored
    simp only
    split
    · exact only_bind (only_store (hdelete _ _)) fun _ => ih
    · exact only_ite (only_bind (only_store (hupsert _)) fun _ => ih) ih

include hinsert in
theorem recreateMissing_only {xs : List DedupEntry} {repairs : List String} :
    Only S (Coordinator.recreateMissing xs repairs).run := by
  induction xs generalizing repairs with
  | nil => exact only_pure
  | cons x xs ih => exact only_bind (only_store (hinsert x)) fun _ => ih

include hobjects hreplicas hdedup hdelete hupsert hinsert in
/-- the repair reads, and writes the dedup table -/
theorem repairDedupCounts_only : Only S Coordinator.repairDedupCounts.run := by
  refine only_bind (only_store hobjects) fun _ => only_bind (only_store hreplicas) fun _ => ?_
  refine only_bind only_settle fun _ => only_bind (only_store hdedup) fun _ => ?_
  exact only_bind (repairStored_only hdelete hupsert) fun _ => recreateMissing_only hinsert

end

theorem repairDedupCounts_mild : Only Mild Coordinator.repairDedupCounts.run :=
  repairDedupCounts_only ⟨_, rfl, rfl⟩ ⟨_, rfl, rfl⟩ ⟨_, rfl, rfl⟩ (fun _ _ => ⟨_, rfl, rfl⟩)
    (fun _ => ⟨_, rfl, rfl⟩) fun _ => ⟨_, rfl, rfl⟩

variable {e : JournalEntry} {now : Int} {p : ParsedJournalPayload}

theorem restoreReplicas_mild {rs known : List Replica} :
    Only Mild (Coordinator.restoreReplicas e rs known).run := by
  induction rs generalizing known with
  | nil => exact only_pure
  | cons r rs ih =>
    unfold Coordinator.restoreReplicas
    split
    · exact only_ite (only_bind only_throw fun _ => ih) ih
    · refine only_ite (only_bind only_throw fun _ => ?_) ?_
      · exact only_bind (mild_store rfl) fun _ => ih
      · exact only_bind (mild_store rfl) fun _ => ih

theorem restoreArchives_mild {as known : List ArchiveRecord} :
    Only Mild (Coordinator.restoreArchives e as known).run := by
  induction as generalizing known with
  | nil => exact only_pure
  | cons a as ih =>
    unfold Coordinator.restoreArchives
    split
    · exact only_ite (only_bind only_throw fun _ => ih) ih
    · refine only_ite (only_bind only_throw fun _ => ?_) ?_
      · exact only_bind (mild_store rfl) fun _ => ih
      · exact only_bind (mild_store rfl) fun _ => ih

theorem restoreRollbackMetadata_mild : Only Mild (Coordinator.restoreRollbackMetadata e p).run := by
  refine only_bind (mild_store rfl) fun _ => only_bind restoreReplicas_mild fun _ => ?_
  exact only_bind (mild_store rfl) fun _ => restoreArchives_mild

theorem commitReplicas_mild {rs known : List Replica} :
    Only Mild (Coordinator.commitReplicas e known rs).run := by
  induction rs with
  | nil => exact only_pure
  | cons r rs ih =>
    have hrest : Only Mild (do
        Coordinator.store (.deleteReplica r.replicaId)
        let _ ← attempt (Coordinator.store (.dedupRelease r.contentHash r.location.backend))
        Coordinator.commitReplicas e known rs : M Unit).run :=
      only_bind (mild_store rfl) fun _ => only_bind (only_attempt (mild_store rfl)) fun _ => ih
    unfold Coordinator.commitReplicas
    split
    · exact only_ite (only_bind only_throw fun _ => hrest) hrest
    · exact hrest

theorem commitArchives_mild {as known : List ArchiveRecord} :
    Only Mild (Coordinator.commitArchives e known as).run := by
  induction as with
  | nil => exact only_pure
  | cons a as ih =>
    have hrest : Only Mild (do
        Coordinator.store (.deleteArchive a.archiveId)
        Coordinator.commitArchives e known as : M Unit).run :=
      only_bind (mild_store rfl) fun _ => ih
    unfold Coordinator.commitArchives
    split
    · exact only_ite (only_bind only_throw fun _ => hrest) hrest
    · exact hrest

end

/-! ## what the mild methods keep -/

theorem StoreOp.run_mild {so : StoreOp} (hm : so.mild = true) {s s' : Store} {r : so.Out}
    (h : so.run s = .ok (r, s')) :
    s'.journal = s.journal ∧ s'.lineage = s.lineage ∧ s'.objects = s.objects := by
  have hdata {d : Data} (hd : s'.data = d) (hj : d.journal = s.journal)
      (hl : d.lineage = s.lineage) (ho : d.objects = s.objects) :
      s'.journal = s.journal ∧ s'.lineage = s.lineage ∧ s'.objects = s.objects :=
    ⟨(congrArg Data.journal hd).trans hj, (congrArg Data.lineage hd).trans hl,
      (congrArg Data.objects hd).trans ho⟩
  by_cases hc : so.calm = true
  · exact hdata (StoreOp.run_calm hc h) rfl rfl rfl
  cases so with
  | createObject o => cases hm
  | createObjectWithAudits o as => cases hm
  | updateObject o => cases hm
  | updateObjectWithAudit o a => cases hm
  | addReplica x =>
    obtain ⟨T, _, _, hd⟩ := Store.addReplica_ok h
    exact hdata hd rfl rfl rfl
  | updateReplica x =>
    obtain ⟨_, T, _, _, _, hd⟩ := Store.updateReplica_ok h
    exact hdata hd rfl rfl rfl
  | deleteReplica id => exact hdata (Store.deleteReplica_ok h) rfl rfl rfl
  | addLineageEdge p c k => cases hm
  | removeLineageEdge p c k => cases hm
  | insertDedup x =>
    obtain ⟨_, T, hd, _⟩ := Store.insertDedup_ok h
    exact hdata hd rfl rfl rfl
  | upsertDedup x =>
    obtain ⟨T, hd, _⟩ := Store.upsertDedup_ok h
    exact hdata hd rfl rfl rfl
  | dedupAcquire x b =>
    obtain ⟨_, _, _, T, hd, _⟩ := Store.dedupAcquire_ok h
    exact hdata hd rfl rfl rfl
  | dedupRelease x b =>
    obtain ⟨_, _, _, _, T, hd, _⟩ := Store.dedupRelease_ok h
    exact hdata hd rfl rfl rfl
  | deleteDedup x b =>
    obtain ⟨T, hd, _⟩ := Store.deleteDedup_ok h
    exact hdata hd rfl rfl rfl
  | updateAttempt id st n =>
    obtain ⟨_, T, _, _, _, hd⟩ := Store.updateAttempt_ok h
    exact hdata hd rfl rfl rfl
  | reconcileAttempt id st n =>
    rcases Store.reconcileAttempt_ok h with ⟨_, T, _, _, _, hd⟩ | rfl
    · exact hdata hd rfl rfl rfl
    · exact ⟨rfl, rfl, rfl⟩
  | updateReservation id st =>
    obtain ⟨_, _, _, hd⟩ := Store.updateReservation_ok h
    exact hdata hd rfl rfl rfl
  | updateReservationForAttempt id st => exact hdata (Store.updateReservationForAttempt_ok h) rfl rfl rfl
  | insertArchive a =>
    obtain ⟨T, _, hd⟩ := Store.insertArchive_ok h
    exact hdata hd rfl rfl rfl
  | deleteArchive id => exact hdata (Store.deleteArchive_ok h) rfl rfl rfl
  | createReclaimReservation j v a => cases hm
  | updateJournalPhase id ph n => cases hm
  | startJournalPhysical id pl n => cases hm
  | _ => exact absurd rfl hc

section
variable {env : Env} {t : Tid} {op : Op} {w w' : Traced} {e : JournalEntry} {now : Int}
  {p : ParsedJournalPayload} {l : Bool} {J : Table JournalEntry.attemptId}

/-- one store step, by its outcome -/
theorem store_step {so : StoreOp} {i : Input} {r : Res so.Out}
    (h : Traced.exec env t op (.store so) i w = some (r, w')) :
    (∃ err, r = .error err ∧ w'.store = w.store) ∨
      ∃ a, r = .ok a ∧ so.run w.store = .ok (a, w'.store) := by
  obtain ⟨⟨b, y⟩, hy, hw⟩ := Option.map_eq_some_iff.mp h
  cases hw
  simp only [exec, Option.some.injEq] at hy
  unfold execStore at hy
  split at hy
  · cases hy
    exact .inl ⟨_, rfl, rfl⟩
  · split at hy
    · cases hy
      exact .inl ⟨_, rfl, rfl⟩
    · next a s hrun =>
      cases hy
      exact .inr ⟨a, rfl, hrun⟩

/-- a store method as a program, by its outcome -/
theorem ran_store {so : StoreOp} {r : Res so.Out}
    (h : Ran (Traced.exec env t op) (Coordinator.store so).run w r w') :
    (∃ err, r = .error err ∧ w'.store = w.store) ∨
      ∃ a, r = .ok a ∧ so.run w.store = .ok (a, w'.store) := by
  have h : Ran (Traced.exec env t op) (.call (.store so) fun x => .ret x) w r w' := h
  cases h with
  | call he h =>
    cases h
    exact store_step he

end

end ReclaimFabric
