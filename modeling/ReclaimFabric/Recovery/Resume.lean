import ReclaimFabric.Recovery.Refine

/-!
# The journal pass can be stopped and started again

The rest of `reconcile_entry`, and the pass over the open entries, against the functions on the
tables.

* `DropLoop`           a loop that drops the planned rows of a table;
* `reconcileEntry_ran`, `reconcileEntries_ran`         an entry, or all of them, are resolved
                       exactly when the function on the tables is defined;
* `reconcileEntry_passed`, `reconcileEntries_passed`   where that is stopped, what is still open
                       leads to the same tables;
* `Core.Alike`         tables that differ in the times of updates.
-/

set_option linter.unusedSectionVars false

namespace ReclaimFabric

open Prog (Ran Passed Only settle attempt)

namespace Coordinator

variable {env : Env} {t : Tid} {op : Op} {w wm w' : Traced} {e : JournalEntry} {now : Int}
  {p : ParsedJournalPayload}

/-- the reference may be gone already; the dedup table alone is concerned -/
theorem release_passed {x : ContentHash} {b : String}
    (h : Passed (sturdy env t op) (attempt (store (.dedupRelease x b)) : M (Res Bool)).run w wm) :
    wm.core = w.core :=
  dedup_passed (only_attempt (only_store ⟨_, rfl, fun _ => List.mem_singleton.mp⟩)) h

/-! ## a commit -/

/-- `loop` drops the rows of a list from one table, when those that are there are the planned ones;
`step x k` drops `x` and goes on with `k` -/
structure DropLoop (env : Env) (t : Tid) (op : Op) {κ ρ : Type} [DecidableEq κ] {key : ρ → κ}
    (same : ρ → ρ → Bool) (tab : Core → Table key) (set : Core → Table key → Core)
    (step : ρ → M Unit → M Unit) (loop : List ρ → List ρ → M Unit) : Prop where
  nil : ∀ known, loop known [] = pure ()
  cons : ∀ known x xs, ∃ err, loop known (x :: xs) =
    if (known.find? (fun r => decide (key r = key x))).all (fun y => same y x) = true then
      step x (loop known xs) else throw err
  ran : ∀ {x k w r w'}, Ran (sturdy env t op) (step x k).run w r w' →
    ∃ w₁, w₁.core = set w.core ((tab w.core).erase (key x)) ∧ Ran (sturdy env t op) k.run w₁ r w'
  passed : ∀ {x k w wm}, Passed (sturdy env t op) (step x k).run w wm → wm.core = w.core ∨
    wm.core = set w.core ((tab w.core).erase (key x)) ∨
    ∃ w₁, w₁.core = set w.core ((tab w.core).erase (key x)) ∧ Passed (sturdy env t op) k.run w₁ wm
  get : ∀ c T, tab (set c T) = T
  set_set : ∀ c T T', set (set c T) T' = set c T'
  set_get : ∀ c, set c (tab c) = c

namespace DropLoop

variable {κ ρ : Type} [DecidableEq κ] {key : ρ → κ} {same : ρ → ρ → Bool}
  {tab : Core → Table key} {set : Core → Table key → Core} {step : ρ → M Unit → M Unit}
  {loop : List ρ → List ρ → M Unit} {xs known : List ρ} {T₀ : Table key}
  (hl : DropLoop env t op same tab set step loop)
include hl

/-- the loop succeeds exactly when every row that is there is the planned one -/
theorem finished {r : Res Unit} (hk : known.Perm T₀.rows)
    (h : Ran (sturdy env t op) (loop known xs).run w r w') :
    (r = .ok () ∧ xs.all (fun x => (T₀.find? (key x)).all (fun y => same y x)) = true ∧
      w'.core = set w.core ((tab w.core).dropKeys (xs.map key))) ∨
    (∃ err, r = .error err) ∧
      xs.all (fun x => (T₀.find? (key x)).all (fun y => same y x)) = false := by
  induction xs generalizing w with
  | nil =>
    rw [hl.nil] at h
    obtain ⟨rfl, rfl⟩ := ran_pure.mp h
    refine .inl ⟨rfl, rfl, ?_⟩
    rw [List.map_nil, Table.dropKeys_nil, hl.set_get]
  | cons x xs ih =>
    obtain ⟨err, heq⟩ := hl.cons known x xs
    rw [heq, Table.find?_of_perm hk] at h
    rw [List.all_cons]
    by_cases hx : (T₀.find? (key x)).all (fun y => same y x) = true
    · rw [if_pos hx] at h
      rw [hx, Bool.true_and]
      obtain ⟨w₁, hc₁, h⟩ := hl.ran h
      rcases ih h with ⟨hr, hall, hw'⟩ | hbad
      · refine .inl ⟨hr, hall, ?_⟩
        rw [hw', hc₁, hl.get, hl.set_set, Table.dropKeys_cons, List.map_cons]
      · exact .inr hbad
    · rw [if_neg hx] at h
      cases h
      rw [eq_false_of_ne_true hx, Bool.false_and]
      exact .inr ⟨⟨err, rfl⟩, rfl⟩

/-- a loop that was stopped has dropped a first part of the rows -/
theorem stopped (hk : known.Perm T₀.rows)
    (h : Passed (sturdy env t op) (loop known xs).run w wm) :
    ∃ done rest, xs = done ++ rest ∧
      wm.core = set w.core ((tab w.core).dropKeys (done.map key)) := by
  have hstart {ys : List ρ} (hs : wm.core = w.core) : ∃ done rest, ys = done ++ rest ∧
      wm.core = set w.core ((tab w.core).dropKeys (done.map key)) := by
    refine ⟨[], ys, rfl, ?_⟩
    rw [hs, List.map_nil, Table.dropKeys_nil, hl.set_get]
  induction xs generalizing w with
  | nil =>
    rw [hl.nil] at h
    cases h
    exact hstart rfl
  | cons x xs ih =>
    obtain ⟨err, heq⟩ := hl.cons known x xs
    rw [heq, Table.find?_of_perm hk] at h
    by_cases hx : (T₀.find? (key x)).all (fun y => same y x) = true
    · rw [if_pos hx] at h
      have hnext {done : List ρ} {w₁ : Traced}
          (hc₁ : w₁.core = set w.core ((tab w.core).erase (key x)))
          (hs : wm.core = set w₁.core ((tab w₁.core).dropKeys (done.map key))) :
          wm.core = set w.core ((tab w.core).dropKeys ((x :: done).map key)) := by
        rw [hs, hc₁, hl.get, hl.set_set, Table.dropKeys_cons, List.map_cons]
      rcases hl.passed h with hs | hs | ⟨w₁, hc₁, h⟩
      · exact hstart hs
      · refine ⟨[x], xs, rfl, ?_⟩
        rw [hs, List.map_singleton, ← Table.dropKeys_cons, Table.dropKeys_nil]
      · obtain ⟨done, rest, hxs, hs⟩ := ih h fun hs => ⟨[], _, rfl, by
          rw [hs, List.map_nil, Table.dropKeys_nil, hl.set_get]⟩
        exact ⟨x :: done, rest, by rw [hxs]; rfl, hnext hc₁ hs⟩
    · rw [if_neg hx] at h
      cases h
      exact hstart rfl

end DropLoop

theorem commitReplicas_drops : DropLoop env t op Replica.matches Core.replicas
    (fun c T => { c with replicas := T })
    (fun r k => do
      store (.deleteReplica r.replicaId)
      let _ ← attempt (store (.dedupRelease r.contentHash r.location.backend))
      k) (commitReplicas e) where
  nil _ := rfl
  cons known x xs := by
    refine ⟨.recovery (s!"journal {e.attemptId} replica deletion {x.replicaId} does not " ++
      "match stored metadata"), ?_⟩
    rw [commitReplicas]
    cases known.find? (fun r => decide (r.replicaId = x.replicaId)) with
    | none => rfl
    | some y =>
      have hm : y.matches x = true ↔ ¬(y.objectId ≠ x.objectId ∨ y.generation ≠ x.generation ∨
          y.location ≠ x.location ∨ y.contentHash ≠ x.contentHash) := by
        simp [Replica.matches, and_assoc]
      by_cases hy : y.matches x = true
      · rw [Option.all_some, if_pos hy]
        exact if_neg (hm.mp hy)
      · rw [Option.all_some, if_neg hy]
        exact if_pos (not_not.mp (mt hm.mpr hy))
  ran h := by
    rcases acts_ran (StoreOp.acts_deleteReplica _) h with ⟨-, hno⟩ | ⟨_, w₁, hsome, h⟩
    · cases hno
    rcases ran_seq.mp h with ⟨_, -, hx⟩ | ⟨_, w₂, hx, h⟩
    · obtain ⟨_, hno, -⟩ := ran_attempt.mp hx
      cases hno
    · refine ⟨w₂, ?_, h⟩
      exact (release_passed hx.passed).trans (Option.some.inj hsome).symm
  passed h := by
    rcases acts_passed (StoreOp.acts_deleteReplica _) h with hs | ⟨c, hsome, hs | ⟨_, w₁, hs, h⟩⟩
    · exact .inl hs
    · exact .inr (.inl (hs.trans (Option.some.inj hsome).symm))
    have hc₁ := hs.trans (Option.some.inj hsome).symm
    rcases passed_seq h with hx | ⟨_, w₂, hx, h⟩
    · exact .inr (.inl ((release_passed hx).trans hc₁))
    · exact .inr (.inr ⟨w₂, (release_passed hx.passed).trans hc₁, h⟩)
  get _ _ := rfl
  set_set _ _ _ := rfl
  set_get _ := rfl

theorem commitArchives_drops : DropLoop env t op ArchiveRecord.matches Core.archives
    (fun c T => { c with archives := T })
    (fun a k => store (.deleteArchive a.archiveId) >>= fun _ => k) (commitArchives e) where
  nil _ := rfl
  cons known x xs := by
    refine ⟨.recovery (s!"journal {e.attemptId} archive deletion {x.archiveId} does not " ++
      "match stored metadata"), ?_⟩
    rw [commitArchives]
    cases known.find? (fun a => decide (a.archiveId = x.archiveId)) with
    | none => rfl
    | some y =>
      have hm : y.matches x = true ↔ ¬(y.objectId ≠ x.objectId ∨ y.generation ≠ x.generation ∨
          y.backend ≠ x.backend ∨ y.key ≠ x.key ∨ y.contentHash ≠ x.contentHash) := by
        simp [ArchiveRecord.matches, and_assoc]
      by_cases hy : y.matches x = true
      · rw [Option.all_some, if_pos hy]
        exact if_neg (hm.mp hy)
      · rw [Option.all_some, if_neg hy]
        exact if_pos (not_not.mp (mt hm.mpr hy))
  ran h := by
    rcases acts_ran (StoreOp.acts_deleteArchive _) h with ⟨-, hno⟩ | ⟨_, w₁, hsome, h⟩
    · cases hno
    · exact ⟨w₁, (Option.some.inj hsome).symm, h⟩
  passed h := by
    rcases acts_passed (StoreOp.acts_deleteArchive _) h with hs | ⟨c, hsome, hs | ⟨_, w₁, hs, h⟩⟩
    · exact .inl hs
    · exact .inr (.inl (hs.trans (Option.some.inj hsome).symm))
    · exact .inr (.inr ⟨w₁, hs.trans (Option.some.inj hsome).symm, h⟩)
  get _ _ := rfl
  set_set _ _ _ := rfl
  set_get _ := rfl

section
variable {current : ReclaimObject}

theorem commitObject_ran {r : Res Unit} (hrow : w.core.objects.find? e.objectId = some current)
    (hgen : current.generation = e.generation)
    (h : Ran (sturdy env t op) (commitObject now e current).run w r w') :
    (∃ O, r = .ok () ∧ Core.objectGone e w.core.objects = some O ∧
      w'.core = { w.core with objects := O }) ∨
    (∃ err, r = .error err) ∧ Core.objectGone e w.core.objects = none := by
  simp only [Core.objectGone, hrow]
  rw [if_neg (not_not.mpr hgen)]
  rw [commitObject] at h
  split at h
  · next hdiff =>
    rw [if_pos hdiff]
    have hid : current.id = e.objectId := Table.key_of_find? hrow
    have hfind : w.core.objects.find? (Core.reclaimed current).id ≠ none := by
      rw [show (Core.reclaimed current).id = e.objectId from hid, hrow]
      exact Option.some_ne_none current
    rcases acts_ran (StoreOp.acts_updateObject (Core.reclaimed current)) h with
      ⟨herr, hnone⟩ | ⟨_, w₁, hsome, h⟩
    · by_cases hw : (Core.reclaimed current).writable = true
      · rw [if_pos ⟨hw, hfind⟩] at hnone
        cases hnone
      · exact .inr ⟨herr, if_neg hw⟩
    by_cases hw : (Core.reclaimed current).writable = true
    · rw [if_pos ⟨hw, hfind⟩] at hsome
      have hfits : passes (Store.sqlOptionalU64 "audit generation" (some e.generation)) = true := by
        rw [← hgen]
        exact @ReclaimObject.writable_generation (Core.reclaimed current) hw
      rcases acts_last (StoreOp.acts_appendAudit _) h with ⟨-, hno⟩ | ⟨_, hr, hsome'⟩
      · cases hno.symm.trans (if_pos hfits)
      · refine .inl ⟨_, hr, if_pos hw, ?_⟩
        rw [← Option.some.inj ((if_pos hfits).symm.trans hsome'), ← Option.some.inj hsome]
    · rw [if_neg fun hboth => hw hboth.1] at hsome
      cases hsome
  · next hsame =>
    rw [if_neg hsame]
    obtain ⟨rfl, rfl⟩ := ran_pure.mp h
    exact .inl ⟨_, rfl, rfl, rfl⟩

theorem commitObject_passed {O : Table ReclaimObject.id}
    (hrow : w.core.objects.find? e.objectId = some current)
    (hO : Core.objectGone e w.core.objects = some O)
    (h : Passed (sturdy env t op) (commitObject now e current).run w wm) :
    wm.core = w.core ∨ wm.core = { w.core with objects := O } := by
  simp only [Core.objectGone, hrow] at hO
  split at hO
  · cases hO
  rw [commitObject] at h
  split at h
  · next hdiff =>
    rw [if_pos hdiff] at hO
    split at hO
    swap
    · cases hO
    rcases acts_passed (StoreOp.acts_updateObject (Core.reclaimed current)) h with
      hs | ⟨c, hsome, hrest⟩
    · exact .inl hs
    have hc : c = { w.core with objects := O } := by
      split at hsome
      · rw [← Option.some.inj hsome, ← Option.some.inj hO]
      · cases hsome
    refine .inr ?_
    rcases hrest with hs | ⟨_, w₁, hs, h⟩
    · exact hs.trans hc
    rcases acts_stop (StoreOp.acts_appendAudit _) h with hs' | hsome'
    · exact hs'.trans (hs.trans hc)
    · split at hsome'
      · exact (Option.some.inj hsome').symm.trans (hs.trans hc)
      · cases hsome'
  · cases h
    exact .inl rfl

end

theorem commitAfterCrash_onStore : Only OnStore (commitAfterCrash now e p).run :=
  commitAfterCrash_tame.mono fun _ h => ⟨h.choose, h.choose_spec.1⟩

/-- `commit_after_crash` computes `Core.commit` -/
theorem commitAfterCrash_ran {r : Res ReconcileOutcome}
    (h : Ran (sturdy env t op) (commitAfterCrash now e p).run w r w') :
    (r = .ok .committed ∧ Core.commit e now p w.core = some w'.core) ∨
      (∃ err, r = .error err) ∧ Core.commit e now p w.core = none := by
  have hbad {err : ReclaimError} (hr : r = .error err)
      (hno : ∀ c', Core.commit e now p w.core ≠ some c') :
      (r = .ok .committed ∧ Core.commit e now p w.core = some w'.core) ∨
        (∃ err, r = .error err) ∧ Core.commit e now p w.core = none :=
    .inr ⟨⟨err, hr⟩, Option.eq_none_iff_forall_ne_some.mpr hno⟩
  obtain ⟨w₁, hs₁, h⟩ := sturdy_read (q := .getObject e.objectId) rfl h
  have hc₁ : w₁.core = w.core := congrArg Store.core hs₁
  cases hrow : w.core.objects.find? e.objectId with
  | none =>
    simp only [show w.store.objects.find? e.objectId = none from hrow] at h
    cases h
    refine hbad rfl fun c' hc' => ?_
    have hO := (Core.commit_some hc').2.2.1
    simp only [Core.objectGone, hrow] at hO
    cases hO
  | some current =>
    simp only [show w.store.objects.find? e.objectId = some current from hrow] at h
    by_cases hgen : current.generation ≠ e.generation
    · rw [if_pos hgen] at h
      cases h
      refine hbad rfl fun c' hc' => ?_
      have hO := (Core.commit_some hc').2.2.1
      simp only [Core.objectGone, hrow] at hO
      rw [if_pos hgen] at hO
      cases hO
    rw [if_neg hgen] at h
    obtain ⟨w₂, hs₂, h⟩ := sturdy_read (q := .allReplicas) rfl h
    have hc₂ : w₂.core = w.core := (congrArg Store.core hs₂).trans hc₁
    have hk : (Store.sortReplicas w₁.store.replicas.rows).Perm w.core.replicas.rows := by
      rw [show w₁.store.replicas = w.core.replicas from congrArg Core.replicas hc₁]
      exact List.perm_insertionSort _ _
    rcases ran_seq.mp h with ⟨err, hr, hx⟩ | ⟨_, w₃, hx, h⟩
    · refine hbad hr fun c' hc' => ?_
      have hR := (Core.commit_some hc').1
      rcases commitReplicas_drops.finished hk hx with ⟨hno, -⟩ | ⟨-, hall⟩
      · cases hno
      · cases hR.symm.trans (if_neg (ne_true_of_eq_false hall))
    rcases commitReplicas_drops.finished hk hx with ⟨-, hall, hc₃⟩ | ⟨⟨_, hno⟩, -⟩
    swap
    · cases hno
    have hR : Core.replicasGone p.replicaDeletions w.core.replicas = some _ := if_pos hall
    rw [hc₂] at hc₃
    obtain ⟨w₄, hs₄, h⟩ := sturdy_read (q := .listArchives) rfl h
    have hc₄ := (congrArg Store.core hs₄).trans hc₃
    have hk : (Store.sortArchives w₃.store.archives.rows).Perm w.core.archives.rows := by
      rw [show w₃.store.archives = w.core.archives from congrArg Core.archives hc₃]
      exact List.perm_insertionSort _ _
    rcases ran_seq.mp h with ⟨err, hr, hx⟩ | ⟨_, w₅, hx, h⟩
    · refine hbad hr fun c' hc' => ?_
      have hA := (Core.commit_some hc').2.1
      rcases commitArchives_drops.finished hk hx with ⟨hno, -⟩ | ⟨-, hall⟩
      · cases hno
      · cases hA.symm.trans (if_neg (ne_true_of_eq_false hall))
    rcases commitArchives_drops.finished hk hx with ⟨-, hall, hc₅⟩ | ⟨⟨_, hno⟩, -⟩
    swap
    · cases hno
    have hA : Core.archivesGone p.archiveDeletions w.core.archives = some _ := if_pos hall
    rw [show w₄.core = _ from hc₄] at hc₅
    have hrow₅ : w₅.core.objects.find? e.objectId = some current := by
      rw [hc₅]
      exact hrow
    rcases ran_seq.mp h with ⟨err, hr, hx⟩ | ⟨_, w₆, hx, h⟩
    · refine hbad hr fun c' hc' => ?_
      have hO := (Core.commit_some hc').2.2.1
      rcases commitObject_ran hrow₅ (not_not.mp hgen) hx with ⟨_, hno, -⟩ | ⟨-, hnone⟩
      · cases hno
      · rw [hc₅] at hnone
        cases hnone.symm.trans hO
    rcases commitObject_ran hrow₅ (not_not.mp hgen) hx with ⟨O, -, hO, hc₆⟩ | ⟨⟨_, hno⟩, -⟩
    swap
    · cases hno
    rw [hc₅] at hO hc₆
    rcases closing_ran (by decide) h with ⟨T, J, hr, hT, hJ, hc'⟩ | ⟨⟨err, hr⟩, hnone⟩
    · rw [hc₆] at hT hJ hc'
      exact .inl ⟨hr, by rw [Core.commit_eq_some hR hA hO hT hJ, hc']⟩
    · rw [hc₆] at hnone
      refine hbad hr fun c' hc' => ?_
      obtain ⟨-, -, -, hT, hJ, -⟩ := Core.commit_some hc'
      rcases hnone with hnone | hnone
      · cases hnone.symm.trans hT
      · cases hnone.symm.trans hJ

/-- the tables where a commit can be stopped -/
theorem commitAfterCrash_passed {c' : Core} (hcommit : Core.commit e now p w.core = some c')
    (h : Passed (sturdy env t op) (commitAfterCrash now e p).run w wm) :
    Core.ForthMid p w.core c' wm.core ∨ wm.core = c' := by
  obtain ⟨hR, hA, hO, hT, hJ, hV, hL⟩ := Core.commit_some hcommit
  have hstart (hs : wm.core = w.core) : Core.ForthMid p w.core c' wm.core := by
    rw [hs]
    exact ⟨.inl rfl, ⟨[], _, rfl, Table.dropKeys_nil.symm⟩, ⟨[], _, rfl, Table.dropKeys_nil.symm⟩,
      .inl rfl, .inl rfl, rfl, rfl⟩
  -- the rows are gone, and the entry may be closed in part
  have hend {O : Table ReclaimObject.id} {V : Table Reservation.reservationId}
      {T : Table Attempt.attemptId} (hO' : O = w.core.objects ∨ O = c'.objects)
      (hV' : V = w.core.reservations ∨ V = c'.reservations)
      (hT' : T = w.core.attempts ∨ T = c'.attempts)
      (hs : wm.core = ⟨O, w.core.replicas.dropKeys (p.replicaDeletions.map Replica.replicaId),
        w.core.lineage, T, V,
        w.core.archives.dropKeys (p.archiveDeletions.map ArchiveRecord.archiveId),
        w.core.journal⟩) : Core.ForthMid p w.core c' wm.core := by
    rw [hs]
    exact ⟨hO', ⟨_, [], (List.append_nil _).symm, rfl⟩, ⟨_, [], (List.append_nil _).symm, rfl⟩,
      hV', hT', rfl, rfl⟩
  rcases passed_read (q := .getObject e.objectId) rfl h with hs | ⟨w₁, hs₁, h⟩
  · exact .inl (hstart (congrArg Store.core hs))
  have hc₁ : w₁.core = w.core := congrArg Store.core hs₁
  cases hrow : w.core.objects.find? e.objectId with
  | none =>
    simp only [Core.objectGone, hrow] at hO
    cases hO
  | some current =>
    simp only [show w.store.objects.find? e.objectId = some current from hrow] at h
    by_cases hgen : current.generation ≠ e.generation
    · simp only [Core.objectGone, hrow] at hO
      rw [if_pos hgen] at hO
      cases hO
    rw [if_neg hgen] at h
    rcases passed_read (q := .allReplicas) rfl h with hs | ⟨w₂, hs₂, h⟩
    · exact .inl (hstart ((congrArg Store.core hs).trans hc₁))
    have hc₂ : w₂.core = w.core := (congrArg Store.core hs₂).trans hc₁
    have hk : (Store.sortReplicas w₁.store.replicas.rows).Perm w.core.replicas.rows := by
      rw [show w₁.store.replicas = w.core.replicas from congrArg Core.replicas hc₁]
      exact List.perm_insertionSort _ _
    rcases passed_seq h with hx | ⟨_, w₃, hx, h⟩
    · obtain ⟨xs, ys, hxs, hs⟩ := commitReplicas_drops.stopped hk hx
      rw [hc₂] at hs
      refine .inl ?_
      rw [hs]
      exact ⟨.inl rfl, ⟨xs, ys, hxs, rfl⟩, ⟨[], _, rfl, Table.dropKeys_nil.symm⟩, .inl rfl,
        .inl rfl, rfl, rfl⟩
    rcases commitReplicas_drops.finished hk hx with ⟨-, hgoneR, hc₃⟩ | ⟨⟨_, hno⟩, -⟩
    swap
    · cases hno
    rw [hc₂] at hc₃
    have hmid (hs : wm.core = { w.core with
        replicas := w.core.replicas.dropKeys (p.replicaDeletions.map Replica.replicaId) }) :
        Core.ForthMid p w.core c' wm.core := by
      rw [hs]
      exact ⟨.inl rfl, ⟨_, [], (List.append_nil _).symm, rfl⟩,
        ⟨[], _, rfl, Table.dropKeys_nil.symm⟩, .inl rfl, .inl rfl, rfl, rfl⟩
    rcases passed_read (q := .listArchives) rfl h with hs | ⟨w₄, hs₄, h⟩
    · exact .inl (hmid ((congrArg Store.core hs).trans hc₃))
    have hc₄ : w₄.core = _ := (congrArg Store.core hs₄).trans hc₃
    have hk : (Store.sortArchives w₃.store.archives.rows).Perm w.core.archives.rows := by
      rw [show w₃.store.archives = w.core.archives from congrArg Core.archives hc₃]
      exact List.perm_insertionSort _ _
    rcases passed_seq h with hx | ⟨_, w₅, hx, h⟩
    · obtain ⟨xs, ys, hxs, hs⟩ := commitArchives_drops.stopped hk hx
      rw [hc₄] at hs
      refine .inl ?_
      rw [hs]
      exact ⟨.inl rfl, ⟨_, [], (List.append_nil _).symm, rfl⟩, ⟨xs, ys, hxs, rfl⟩, .inl rfl,
        .inl rfl, rfl, rfl⟩
    rcases commitArchives_drops.finished hk hx with ⟨-, hgoneA, hc₅⟩ | ⟨⟨_, hno⟩, -⟩
    swap
    · cases hno
    rw [hc₄] at hc₅
    have hrow₅ : w₅.core.objects.find? e.objectId = some current := by
      rw [hc₅]
      exact hrow
    have hO₅ : Core.objectGone e w₅.core.objects = some c'.objects := by
      rw [hc₅]
      exact hO
    rcases passed_seq h with hx | ⟨_, w₆, hx, h⟩
    · rcases commitObject_passed hrow₅ hO₅ hx with hs | hs
      · rw [hc₅] at hs
        exact .inl (hend (.inl rfl) (.inl rfl) (.inl rfl) hs)
      · rw [hc₅] at hs
        exact .inl (hend (.inr rfl) (.inl rfl) (.inl rfl) hs)
    rcases commitObject_ran hrow₅ (not_not.mp hgen) hx with ⟨O, -, hO', hc₆⟩ | ⟨⟨_, hno⟩, -⟩
    swap
    · cases hno
    rw [Option.some.inj (hO'.symm.trans hO₅), hc₅] at hc₆
    rcases closing_passed (by decide) h with ⟨V, T, hV', hT', hs⟩ | ⟨T, J, hT', hJ', hs⟩
    · rw [hc₆] at hV' hT' hs
      refine .inl (hend (.inr rfl) ?_ ?_ hs)
      · exact hV'.imp_right fun hV' => hV'.trans hV.symm
      · exact hT'.imp_right fun hT' => Option.some.inj (hT'.symm.trans hT)
    · rw [hc₆] at hT' hJ' hs
      have hall := Core.commit_eq_some (if_pos hgoneR) (if_pos hgoneA) hO hT' hJ'
      exact .inr (hs.trans (Option.some.inj (hall.symm.trans hcommit)))

/-! ## one entry -/

section
variable {physical : JournalPayload → Res Bool}

theorem verdict_physical (hphase : e.phase = .physicalStarted ∨ e.phase = .physicalDone) :
    Core.verdict e physical p =
      if p.physicalReplicaDeletions = some [] ∧ p.archiveDeletions = [] then
        if e.phase = .physicalDone then some .committed else some .rolledBack
      else (physical e.payload).toOption.map fun found =>
        if found = true then .rolledBack else .committed := by
  rcases hphase with h | h <;> simp only [Core.verdict, h] <;>
    rcases physical e.payload with err | (_ | _) <;> rfl

/-- what is run for an entry, and its function on the tables -/
inductive Decided (now : Int) (e : JournalEntry) :
    M ReconcileOutcome → (Core → Option Core) → Prop where
  | rollback {p : ParsedJournalPayload} : Identified e p →
      Decided now e (rollback now e p) (Core.rollBack e now p)
  | commit {p : ParsedJournalPayload} :
      Decided now e (commitAfterCrash now e p) (Core.commit e now p)
  | left {x : Res ReconcileOutcome} : (∀ o, x = .ok o → o = .failed) →
      Decided now e (settle x) fun _ => none

/-- an entry is rolled back, committed, or left alone -/
theorem reconcileEntry_decided (physical : JournalPayload → Res Bool) (now : Int)
    (e : JournalEntry) : Decided now e (reconcileEntry (fun q => settle (physical q)) now e)
      (Core.reconcile e now physical) := by
  cases hp : entryPayload e with
  | error err =>
    have hact : reconcileEntry (fun q => settle (physical q)) now e = settle (.error err) := by
      rw [reconcileEntry, hp]
      rfl
    have hcore : Core.reconcile e now physical = fun _ => none := by
      funext c
      simp only [Core.reconcile, hp]
    rw [hact, hcore]
    exact .left fun _ h => (by cases h)
  | ok p =>
    have hback (hv : Core.verdict e physical p = some .rolledBack)
        (hact : reconcileEntry (fun q => settle (physical q)) now e = rollback now e p) :
        Decided now e (reconcileEntry (fun q => settle (physical q)) now e)
          (Core.reconcile e now physical) := by
      have hcore : Core.reconcile e now physical = Core.rollBack e now p := by
        funext c
        simp only [Core.reconcile, hp, hv]
      rw [hact, hcore]
      exact .rollback (entryPayload_identified hp)
    have hforth (hv : Core.verdict e physical p = some .committed)
        (hact : reconcileEntry (fun q => settle (physical q)) now e = commitAfterCrash now e p) :
        Decided now e (reconcileEntry (fun q => settle (physical q)) now e)
          (Core.reconcile e now physical) := by
      have hcore : Core.reconcile e now physical = Core.commit e now p := by
        funext c
        simp only [Core.reconcile, hp, hv]
      rw [hact, hcore]
      exact .commit
    have hleft {x : Res ReconcileOutcome} (hv : Core.verdict e physical p = none)
        (hx : ∀ o, x = .ok o → o = .failed)
        (hact : reconcileEntry (fun q => settle (physical q)) now e = settle x) :
        Decided now e (reconcileEntry (fun q => settle (physical q)) now e)
          (Core.reconcile e now physical) := by
      have hcore : Core.reconcile e now physical = fun _ => none := by
        funext c
        simp only [Core.reconcile, hp, hv]
      rw [hact, hcore]
      exact .left hx
    have hphysical (hphase : e.phase = .physicalStarted ∨ e.phase = .physicalDone)
        (hact : reconcileEntry (fun q => settle (physical q)) now e =
          reconcilePhysical (fun q => settle (physical q)) now e p) :
        Decided now e (reconcileEntry (fun q => settle (physical q)) now e)
          (Core.reconcile e now physical) := by
      have hv := @verdict_physical e p physical hphase
      rw [reconcilePhysical] at hact
      by_cases hplan : p.physicalReplicaDeletions = some [] ∧ p.archiveDeletions = []
      · rw [if_pos hplan] at hv hact
        by_cases hdone : e.phase = .physicalDone
        · rw [if_pos hdone] at hv hact
          exact hforth hv hact
        · rw [if_neg hdone] at hv hact
          exact hback hv hact
      · rw [if_neg hplan] at hv hact
        rcases hfound : physical e.payload with err | (_ | _)
        · rw [hfound] at hv hact
          exact hleft hv (fun _ h => (by cases h)) (hact.trans rfl)
        · rw [hfound] at hv hact
          exact hforth hv hact
        · rw [hfound] at hv hact
          exact hback hv hact
    cases hphase : e.phase
    case reserved =>
      exact hback (by simp only [Core.verdict, hphase])
        (by simp only [reconcileEntry, hp, hphase]; rfl)
    case validated =>
      exact hback (by simp only [Core.verdict, hphase])
        (by simp only [reconcileEntry, hp, hphase]; rfl)
    case physicalStarted =>
      exact hphysical (.inl hphase) (by simp only [reconcileEntry, hp, hphase]; rfl)
    case physicalDone =>
      exact hphysical (.inr hphase) (by simp only [reconcileEntry, hp, hphase]; rfl)
    -- a closed entry is not listed; were it, it would be left alone
    all_goals
      exact @hleft (.ok .failed) (by simp only [Core.verdict, hphase])
        (fun _ h => (Except.ok.inj h).symm) (by simp only [reconcileEntry, hp, hphase]; rfl)

theorem reconcileEntry_onStore :
    Only OnStore (reconcileEntry (fun q => settle (physical q)) now e).run := by
  have hd := reconcileEntry_decided physical now e
  generalize reconcileEntry (fun q => settle (physical q)) now e = x at hd ⊢
  generalize Core.reconcile e now physical = f at hd
  cases hd with
  | rollback => exact rollback_onStore
  | commit => exact commitAfterCrash_onStore
  | left => exact only_settle

/-- `reconcile_entry` computes `Core.reconcile`: it says that the entry has been resolved exactly
when it is defined -/
theorem reconcileEntry_ran {r : Res ReconcileOutcome} (hleg : w.store.Legible)
    (h : Ran (sturdy env t op) (reconcileEntry (fun q => settle (physical q)) now e).run w r w') :
    ((∃ o, r = .ok o ∧ o ≠ .failed) ∧ Core.reconcile e now physical w.core = some w'.core) ∨
      (∀ o, r = .ok o → o = .failed) ∧ Core.reconcile e now physical w.core = none := by
  have hd := reconcileEntry_decided physical now e
  generalize reconcileEntry (fun q => settle (physical q)) now e = x at hd h
  generalize Core.reconcile e now physical = f at hd ⊢
  cases hd with
  | rollback hid =>
    rcases rollback_ran hid hleg h with ⟨hr, hsome⟩ | ⟨⟨err, rfl⟩, hno⟩
    · exact .inl ⟨⟨_, hr, by decide⟩, hsome⟩
    · exact .inr ⟨fun _ h => (by cases h), hno⟩
  | commit =>
    rcases commitAfterCrash_ran h with ⟨hr, hsome⟩ | ⟨⟨err, rfl⟩, hno⟩
    · exact .inl ⟨⟨_, hr, by decide⟩, hsome⟩
    · exact .inr ⟨fun _ h => (by cases h), hno⟩
  | left hx =>
    obtain ⟨rfl, rfl⟩ := ran_settle.mp h
    exact .inr ⟨hx, rfl⟩

/-- where the resolution of an entry is stopped, it is either done or can be begun again, with the
same outcome -/
theorem reconcileEntry_passed {c' : Core} (hleg : w.store.Legible)
    (hdone : Core.reconcile e now physical w.core = some c')
    (h : Passed (sturdy env t op) (reconcileEntry (fun q => settle (physical q)) now e).run w wm) :
    wm.core = c' ∨
      wm.core.journal = w.core.journal ∧ Core.reconcile e now physical wm.core = some c' := by
  have hd := reconcileEntry_decided physical now e
  generalize reconcileEntry (fun q => settle (physical q)) now e = x at hd h
  generalize Core.reconcile e now physical = f at hd hdone ⊢
  cases hd with
  | rollback hid =>
    rcases rollback_passed hid hleg hdone h with hmid | hs
    · exact .inr ⟨hmid.journal, Core.rollBack_again hid hdone hmid⟩
    · exact .inl hs
  | commit =>
    rcases commitAfterCrash_passed hdone h with hmid | hs
    · exact .inr ⟨hmid.journal, Core.commit_again hdone hmid⟩
    · exact .inl hs
  | left => cases hdone

end

end Coordinator

/-! ## the journal -/

section
variable {ρ : Type} {t : ρ → Int} {u : ρ → Uuid}

theorem Uuid.timed_le (t : ρ → Int) (u : ρ → Uuid) {a b : ρ} :
    (if t a = t b then (u a).le (u b) else decide (t a ≤ t b)) = true ↔
      t a < t b ∨ t a = t b ∧ (u a).bits ≤ (u b).bits := by
  split
  · next h => simp [h, Uuid.le]
  · next h =>
    rw [decide_eq_true_eq]
    constructor
    · exact fun hle => .inl (lt_of_le_of_ne hle h)
    · rintro (hlt | ⟨heq, -⟩)
      · exact hlt.le
      · exact absurd heq h

/-- the order of creation, with the identifier for rows created at one time -/
theorem Uuid.timed_order {le : ρ → ρ → Bool}
    (hle : ∀ {a b}, le a b = true ↔ t a < t b ∨ t a = t b ∧ (u a).bits ≤ (u b).bits) :
    (∀ a b, le a b = true ∨ le b a = true) ∧
      (∀ a b c, le a b = true → le b c = true → le a c = true) ∧
      ∀ a b, le a b = true → le b a = true → u a = u b := by
  refine ⟨fun a b => ?_, fun a b c => ?_, fun a b => ?_⟩
  · rw [hle, hle]
    omega
  · rw [hle, hle, hle]
    omega
  · rw [hle, hle]
    intro hab hba
    have hbits : (u a).bits = (u b).bits := by omega
    exact congrArg Uuid.mk hbits

end

theorem Store.journalLe_iff {a b : JournalEntry} : Store.journalLe a b = true ↔
    a.createdAtMs < b.createdAtMs ∨
      a.createdAtMs = b.createdAtMs ∧ a.attemptId.bits ≤ b.attemptId.bits :=
  Uuid.timed_le JournalEntry.createdAtMs JournalEntry.attemptId

namespace Core

variable {physical : JournalPayload → Res Bool} {now : Int} {e : JournalEntry}
  {es : List JournalEntry} {c c₁ : Core}

theorem journalClosed_some {id : Uuid} {ph : JournalPhase} {J J' : Table JournalEntry.attemptId}
    (h : journalClosed now id ph J = some J') : ∃ j, J.find? id = some j ∧
      J' = J.replace { j with phase := ph, updatedAtMs := now } := by
  unfold journalClosed at h
  split at h
  · cases h
  split at h
  · next j hj =>
    split at h
    · cases h
      exact ⟨j, hj, rfl⟩
    · cases h
  · cases h

/-- an entry that is resolved is closed, and no other entry changes -/
theorem reconcile_closes (h : reconcile e now physical c = some c₁) :
    ∃ ph j, ph.isOpen = false ∧ c.journal.find? e.attemptId = some j ∧
      c₁.journal = c.journal.replace { j with phase := ph, updatedAtMs := now } := by
  unfold reconcile at h
  split at h
  · cases h
  · split at h
    · obtain ⟨-, -, -, -, -, hJ, -⟩ := rollBack_some h
      obtain ⟨j, hj, hJ⟩ := journalClosed_some hJ
      exact ⟨_, j, rfl, hj, hJ⟩
    · obtain ⟨-, -, -, -, hJ, -⟩ := commit_some h
      obtain ⟨j, hj, hJ⟩ := journalClosed_some hJ
      exact ⟨_, j, rfl, hj, hJ⟩
    · cases h

/-- once the first of the open entries is resolved the others are left, in their order -/
theorem openJournal_tail (hopen : c.openJournal = e :: es)
    (h : reconcile e now physical c = some c₁) : c₁.openJournal = es := by
  obtain ⟨ph, j, hph, hj, hJ⟩ := reconcile_closes h
  have hid : j.attemptId = e.attemptId := Table.key_of_find? hj
  obtain ⟨htotal, htrans, hanti⟩ := Uuid.timed_order @Store.journalLe_iff
  refine Table.query_drop htotal htrans hanti (show _ = [] ++ e :: es from hopen) fun r => ?_
  rw [hJ, Table.mem_replace]
  constructor
  · rintro ⟨⟨hr, hne⟩ | ⟨rfl, -⟩, ho⟩
    · exact ⟨⟨hr, ho⟩, hid ▸ hne⟩
    · cases hph.symm.trans ho
  · rintro ⟨⟨hr, ho⟩, hne⟩
    exact ⟨.inl ⟨hr, fun heq => hne (heq.trans hid)⟩, ho⟩

end Core

/-! ## tables that differ in the times of their updates -/

/-- a journal row; when it is closed, but for the time of its last update -/
def JournalEntry.untimed (j : JournalEntry) : JournalEntry :=
  if j.phase.isOpen = true then j else { j with updatedAtMs := 0 }

namespace JournalEntry

@[simp] theorem untimed_attemptId (j : JournalEntry) : j.untimed.attemptId = j.attemptId := by
  unfold untimed
  split <;> rfl

@[simp] theorem untimed_phase (j : JournalEntry) : j.untimed.phase = j.phase := by
  unfold untimed
  split <;> rfl

theorem untimed_open {j : JournalEntry} (h : j.phase.isOpen = true) : j.untimed = j := if_pos h

theorem eq_of_untimed {j j' : JournalEntry} (hopen : j.phase.isOpen = true)
    (h : j'.untimed = j.untimed) : j' = j := by
  have hphase : j'.phase = j.phase := by rw [← untimed_phase j', h, untimed_phase]
  rw [← untimed_open hopen, ← h, untimed_open (hphase ▸ hopen)]

end JournalEntry

/-- an attempt has the status of another one, at whatever time, or is still open where that one has
failed -/
def Attempt.Behind (a am : Attempt) : Prop :=
  ∃ status time, am = { a with status := status, updatedAtMs := time } ∧
    (status = a.status ∨ status = .isOpen ∧ a.status = .failed)

theorem Attempt.Behind.trans {a b d : Attempt} (hab : a.Behind b) (hbd : b.Behind d) :
    a.Behind d := by
  obtain ⟨s, u, rfl, hs⟩ := hab
  obtain ⟨s', u', rfl, hs'⟩ := hbd
  refine ⟨s', u', rfl, ?_⟩
  rcases hs with rfl | ⟨rfl, hf⟩
  · exact hs'
  · rcases hs' with rfl | ⟨-, hno⟩
    · exact .inr ⟨rfl, hf⟩
    · cases hno

namespace Core

variable {physical : JournalPayload → Res Bool} {now : Int} {e : JournalEntry}
  {es : List JournalEntry} {c c' cm : Core}

/-- the tables are the same up to the times of updates -/
structure Alike (c cm : Core) : Prop where
  objects : cm.objects = c.objects
  replicas : cm.replicas = c.replicas
  lineage : cm.lineage = c.lineage
  reservations : cm.reservations = c.reservations
  archives : cm.archives = c.archives
  attempts : ∀ id, Option.Rel Attempt.Behind (c.attempts.find? id) (cm.attempts.find? id)
  journal : Table.Alike JournalEntry.untimed c.journal cm.journal

theorem Alike.refl : Alike c c where
  objects := rfl
  replicas := rfl
  lineage := rfl
  reservations := rfl
  archives := rfl
  attempts id := by
    cases c.attempts.find? id with
    | none => exact .none
    | some a => exact .some ⟨a.status, a.updatedAtMs, rfl, .inl rfl⟩
  journal := .refl

theorem Alike.trans {d : Core} (h : Alike c cm) (h' : Alike cm d) : Alike c d where
  objects := h'.objects.trans h.objects
  replicas := h'.replicas.trans h.replicas
  lineage := h'.lineage.trans h.lineage
  reservations := h'.reservations.trans h.reservations
  archives := h'.archives.trans h.archives
  attempts id := by
    have h₁ := h.attempts id
    have h₂ := h'.attempts id
    generalize c.attempts.find? id = x at h₁ ⊢
    generalize cm.attempts.find? id = y at h₁ h₂
    generalize d.attempts.find? id = z at h₂ ⊢
    cases h₁ with
    | none =>
      cases h₂
      exact .none
    | some hab =>
      cases h₂ with
      | some hbc => exact .some (hab.trans hbc)
  journal := h.journal.trans h'.journal

theorem openJournal_alike (h : Alike c cm) : cm.openJournal = c.openJournal :=
  (h.journal.query (fun r => by rw [JournalEntry.untimed_phase])
    fun _ => JournalEntry.untimed_open).symm

/-- the attempt that is closed was open, or had the status already -/
theorem attemptClosed_some {id : Uuid} {status : AttemptStatus} {A A' : Table Attempt.attemptId}
    (h : attemptClosed now id status A = some A') : ∃ a time, A.find? id = some a ∧
      (a.status = .isOpen ∨ a.status = status) ∧ ∀ k, A'.find? k =
        if k = id then some { a with status := status, updatedAtMs := time } else A.find? k := by
  unfold attemptClosed at h
  split at h
  swap
  · cases h
  next a ha =>
  have hid : a.attemptId = id := Table.key_of_find? ha
  by_cases hopen : a.status = .isOpen
  · rw [if_pos hopen] at h
    cases h
    refine ⟨a, now, ha, .inl hopen, fun k => ?_⟩
    rw [Store.closeAttempt, Table.find?_updateWhere]
    split
    · next hk =>
      rw [hk, ha, Option.map_some, if_pos]
      simp [hid, hopen]
    · next hk =>
      cases hf : A.find? k with
      | none => rfl
      | some b =>
        have hb : b.attemptId ≠ id := fun heq => hk ((Table.key_of_find? hf).symm.trans heq)
        rw [Option.map_some, if_neg]
        simp [hb]
  · rw [if_neg hopen] at h
    split at h
    · next hst =>
      cases h
      refine ⟨a, a.updatedAtMs, ha, .inr hst, fun k => ?_⟩
      split
      · next hk => rw [hk, ha, ← hst]
      · rfl
    · cases h

theorem attemptClosed_ok (now : Int) {id : Uuid} {status : AttemptStatus}
    {A : Table Attempt.attemptId} {a : Attempt} (ha : A.find? id = some a)
    (hst : a.status = .isOpen ∨ a.status = status) :
    ∃ A', attemptClosed now id status A = some A' := by
  simp only [attemptClosed, ha]
  by_cases hopen : a.status = .isOpen
  · exact ⟨_, if_pos hopen⟩
  · exact ⟨A, (if_neg hopen).trans (if_pos (hst.resolve_left hopen))⟩

theorem attemptClosed_alike (now' : Int) {id : Uuid} {status : AttemptStatus}
    {A A' Am : Table Attempt.attemptId} (hA : attemptClosed now id status A = some A')
    (h : ∀ id, Option.Rel Attempt.Behind (A.find? id) (Am.find? id)) :
    ∃ Am', attemptClosed now' id status Am = some Am' ∧
      ∀ id, Option.Rel Attempt.Behind (A'.find? id) (Am'.find? id) := by
  obtain ⟨a, u, ha, hst, hfind⟩ := attemptClosed_some hA
  obtain ⟨am, ham, s, um, rfl, hs⟩ : ∃ am, Am.find? id = some am ∧ a.Behind am := by
    have hid := h id
    rw [ha] at hid
    generalize Am.find? id = y at hid ⊢
    cases hid with
    | some hab => exact ⟨_, rfl, hab⟩
  have hstm : s = .isOpen ∨ s = status := by
    rcases hs with rfl | ⟨rfl, -⟩
    · exact hst
    · exact .inl rfl
  obtain ⟨Am', hAm⟩ := attemptClosed_ok now' ham hstm
  obtain ⟨am', um', ham', -, hfindm⟩ := attemptClosed_some hAm
  refine ⟨Am', hAm, fun k => ?_⟩
  rw [hfind, hfindm]
  split
  · rw [← Option.some.inj (ham.symm.trans ham')]
    exact .some ⟨status, um', rfl, .inl rfl⟩
  · exact h k

theorem journalClosed_alike (now' : Int) {id : Uuid} {ph : JournalPhase}
    {J J' Jm : Table JournalEntry.attemptId} (hph : ph.isOpen = false)
    (hJ : journalClosed now id ph J = some J') (h : Table.Alike JournalEntry.untimed J Jm) :
    ∃ Jm', journalClosed now' id ph Jm = some Jm' ∧
      Table.Alike JournalEntry.untimed J' Jm' := by
  unfold journalClosed at hJ ⊢
  split at hJ
  · cases hJ
  next prior hprior =>
  split at hJ
  swap
  · cases hJ
  next j hj =>
  split at hJ
  swap
  · cases hJ
  next hmem =>
  cases hJ
  -- the row was open, so it is the same one
  have hopen : j.phase.isOpen = true := by
    cases ph <;> cases hprior <;> cases hph <;> revert hmem <;> cases j.phase <;> decide
  have hjm : Jm.find? id = some j :=
    h.find?_eq JournalEntry.untimed_attemptId (fun _ => JournalEntry.eq_of_untimed hopen) hj
  refine ⟨_, by simp only [hjm]; exact if_pos hmem, ?_⟩
  refine h.replace JournalEntry.untimed_attemptId ?_
  unfold JournalEntry.untimed
  rw [if_neg (ne_true_of_eq_false hph), if_neg (ne_true_of_eq_false hph)]

/-- at another time, and on tables that differ in times, an entry is resolved in the same way -/
theorem reconcile_alike (now' : Int) (hc : reconcile e now physical c = some c') (h : Alike c cm) :
    ∃ cm', reconcile e now' physical cm = some cm' ∧ Alike c' cm' := by
  unfold reconcile at hc ⊢
  cases hp : Coordinator.entryPayload e with
  | error err =>
    simp only [hp] at hc
    cases hc
  | ok p =>
    simp only [hp] at hc ⊢
    rcases hv : verdict e physical p with _ | (_ | _ | _)
    all_goals simp only [hv] at hc ⊢
    · cases hc
    · obtain ⟨hR, hA, hO, hatt, hJ, hV, hL⟩ := commit_some hc
      obtain ⟨T, hT, hTalike⟩ := attemptClosed_alike now' hatt h.attempts
      obtain ⟨J, hJ', hJalike⟩ := journalClosed_alike now' rfl hJ h.journal
      refine ⟨_, commit_eq_some (h.replicas ▸ hR) (h.archives ▸ hA) (h.objects ▸ hO) hT hJ', ?_⟩
      exact ⟨rfl, rfl, h.lineage.trans hL.symm, (by rw [hV, h.reservations]), rfl, hTalike, hJalike⟩
    · obtain ⟨hO, hR, hA, hcount, hatt, hJ, hV, hL⟩ := rollBack_some hc
      obtain ⟨T, hT, hTalike⟩ := attemptClosed_alike now' hatt h.attempts
      obtain ⟨J, hJ', hJalike⟩ := journalClosed_alike now' rfl hJ h.journal
      refine ⟨_, rollBack_eq_some (h.objects ▸ hO) (h.replicas ▸ hR) (h.archives ▸ hA) hcount hT
        hJ', ?_⟩
      exact ⟨rfl, rfl, h.lineage.trans hL.symm, (by rw [hV, h.reservations]), rfl, hTalike, hJalike⟩
    · cases hc

theorem reconcileAll_alike (now' : Int) (hc : reconcileAll physical now es c = some c')
    (h : Alike c cm) :
    ∃ cm', reconcileAll physical now' es cm = some cm' ∧ Alike c' cm' := by
  induction es generalizing c cm with
  | nil =>
    cases hc
    exact ⟨cm, rfl, h⟩
  | cons e es ih =>
    obtain ⟨c₁, hc₁, hrest⟩ := Option.bind_eq_some_iff.mp hc
    obtain ⟨cm₁, hcm₁, h₁⟩ := reconcile_alike now' hc₁ h
    obtain ⟨cm', hcm', h'⟩ := ih hrest h₁
    exact ⟨cm', Option.bind_eq_some_iff.mpr ⟨cm₁, hcm₁, hcm'⟩, h'⟩

end Core

namespace Coordinator

variable {env : Env} {t : Tid} {op : Op} {w wm w' : Traced} {now : Int}
  {physical : JournalPayload → Res Bool} {es : List JournalEntry} {report : RecoveryReport}

theorem noteOutcome_resolved {e : JournalEntry} {o : ReconcileOutcome} (h : o ≠ .failed) :
    (noteOutcome report e (.ok o)).errors = report.errors := by
  cases o
  · rfl
  · rfl
  · exact absurd rfl h

theorem noteOutcome_left {e : JournalEntry} {r : Res ReconcileOutcome}
    (h : ∀ o, r = .ok o → o = .failed) :
    (noteOutcome report e r).errors.length = report.errors.length + 1 := by
  cases r with
  | error err => exact List.length_append
  | ok o =>
    rw [h o rfl]
    exact List.length_append

/-- the pass over the entries computes `Core.reconcileAll`: it reports no new error exactly when
that is defined -/
theorem reconcileEntries_ran {r : Res RecoveryReport} (hleg : w.store.Legible)
    (h : Ran (sturdy env t op)
      (reconcileEntries (fun q => settle (physical q)) now es report).run w r w') :
    ∃ report', r = .ok report' ∧
      ((report'.errors = report.errors ∧
          Core.reconcileAll physical now es w.core = some w'.core) ∨
        report.errors.length < report'.errors.length ∧
          Core.reconcileAll physical now es w.core = none) := by
  induction es generalizing w report with
  | nil =>
    obtain ⟨rfl, rfl⟩ := ran_pure.mp h
    exact ⟨report, rfl, .inl ⟨rfl, rfl⟩⟩
  | cons e es ih =>
    obtain ⟨o, w₁, hx, hrest⟩ := ran_attempt_seq h
    have hleg₁ := legible_passed reconcileEntry_onStore hx.passed hleg
    obtain ⟨report', hr, hlist⟩ := ih hleg₁ hrest
    refine ⟨report', hr, ?_⟩
    rw [Core.reconcileAll]
    rcases reconcileEntry_ran hleg hx with ⟨⟨out, rfl, hout⟩, hsome⟩ | ⟨hleft, hnone⟩
    · rw [noteOutcome_resolved hout] at hlist
      rw [hsome, Option.bind_some]
      exact hlist
    · rw [hnone, Option.bind_none]
      have hlen := @noteOutcome_left report e o hleft
      refine .inr ⟨?_, rfl⟩
      rcases hlist with ⟨heq, -⟩ | ⟨hlt, -⟩
      · rw [heq]
        omega
      · omega

/-- where the pass is stopped, the entries still open lead to the same tables -/
theorem reconcileEntries_passed {c' : Core} (hleg : w.store.Legible)
    (hopen : w.core.openJournal = es)
    (hdone : Core.reconcileAll physical now es w.core = some c')
    (h : Passed (sturdy env t op)
      (reconcileEntries (fun q => settle (physical q)) now es report).run w wm) :
    Core.reconcileAll physical now wm.core.openJournal wm.core = some c' := by
  induction es generalizing w report with
  | nil =>
    cases h
    rw [hopen]
    exact hdone
  | cons e es ih =>
    obtain ⟨c₁, hc₁, hrest⟩ := Option.bind_eq_some_iff.mp hdone
    have htail := Core.openJournal_tail hopen hc₁
    rcases passed_seq h with hx | ⟨o, w₁, hx, h⟩
    · rcases reconcileEntry_passed hleg hc₁ (passed_attempt hx) with hs | ⟨hJ, hs⟩
      · rw [hs, htail]
        exact hrest
      · have hsame : wm.core.openJournal = e :: es := by
          rw [Core.openJournal, hJ]
          exact hopen
        rw [hsame, Core.reconcileAll, hs]
        exact hrest
    · obtain ⟨o', -, hx⟩ := ran_attempt.mp hx
      rcases reconcileEntry_ran hleg hx with ⟨-, hsome⟩ | ⟨-, hnone⟩
      · have hw₁ : w₁.core = c₁ := Option.some.inj (hsome.symm.trans hc₁)
        refine ih (legible_passed reconcileEntry_onStore hx.passed hleg) ?_ ?_ h
        · rw [hw₁]
          exact htail
        · rw [hw₁]
          exact hrest
      · cases hnone.symm.trans hc₁

end Coordinator

end ReclaimFabric
