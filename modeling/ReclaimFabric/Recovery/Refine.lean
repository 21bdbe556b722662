import ReclaimFabric.Recovery.Tables
import ReclaimFabric.Recovery.Repair
import ReclaimFabric.Logic.Writes

/-!
# Recovery computes the tables

`reconcile_store`, run alone on a database that does not fail and with a physical answer that is
fixed, against `Core.recover`.

* `Store.core`             the tables recovery decides on;
* `…_ran`                  a part of recovery succeeds exactly when its function on the tables is
                           defined, and leaves the tables the function computes;
* `…_passed`               the tables where a part can be stopped.

The dedup table is no part of `Core`; all that is needed of it is that its rows can be written.
-/

set_option linter.unusedSectionVars false

namespace ReclaimFabric

open Prog (Ran Passed Only settle attempt)

/-- the tables recovery decides on -/
def Store.core (s : Store) : Core := s.data.core

abbrev Traced.core (w : Traced) : Core := w.store.core

section
variable {env : Env} {t : Tid} {op : Op} {w wm w' : Traced}

/-! ## steps -/

/-- a store method and what follows it -/
theorem sturdy_seq {α : Type} {so : StoreOp} {f : so.Out → M α} {r : Res α}
    (h : Ran (sturdy env t op) (Coordinator.store so >>= f).run w r w') :
    (∃ err, so.run w.store = .error err ∧ r = .error err) ∨
      ∃ a w₁, so.run w.store = .ok (a, w₁.store) ∧ Ran (sturdy env t op) (f a).run w₁ r w' := by
  rcases ran_seq.mp h with ⟨err, rfl, hx⟩ | ⟨a, w₁, hx, hrest⟩
  · rcases sturdy_store hx with ⟨_, herr, hrun⟩ | ⟨_, hno, -⟩
    · cases herr
      exact .inl ⟨err, hrun, rfl⟩
    · cases hno
  · rcases sturdy_store hx with ⟨_, hno, -⟩ | ⟨_, ha, hrun⟩
    · cases hno
    · cases ha
      exact .inr ⟨a, w₁, hrun, hrest⟩

/-- a store method that was stopped, or has been run -/
theorem sturdy_stop {so : StoreOp} (h : Passed (sturdy env t op) (Coordinator.store so).run w wm) :
    wm.store = w.store ∨ ∃ a, so.run w.store = .ok (a, wm.store) := by
  have h : Passed (sturdy env t op) (.call (.store so) fun x => .ret x) w wm := h
  cases h with
  | here => exact .inl rfl
  | later he h =>
    cases h with
    | here =>
      obtain ⟨i, hi⟩ := sturdy_exec he
      rcases store_step hi with ⟨_, _, hs⟩ | ⟨a, _, hrun⟩
      · exact .inl hs
      · exact .inr ⟨a, hrun⟩

/-- a store method and what follows it, stopped somewhere -/
theorem passed_store {α : Type} {so : StoreOp} {f : so.Out → M α}
    (h : Passed (sturdy env t op) (Coordinator.store so >>= f).run w wm) :
    wm.store = w.store ∨ ∃ a w₁, so.run w.store = .ok (a, w₁.store) ∧
      (wm.store = w₁.store ∨ Passed (sturdy env t op) (f a).run w₁ wm) := by
  rcases passed_seq h with hx | ⟨a, w₁, hx, hrest⟩
  · rcases sturdy_stop hx with hs | ⟨a, hrun⟩
    · exact .inl hs
    · exact .inr ⟨a, wm, hrun, .inl rfl⟩
  · rcases sturdy_store hx with ⟨_, hno, -⟩ | ⟨_, ha, hrun⟩
    · cases hno
    · cases ha
      exact .inr ⟨a, w₁, hrun, .inr hrest⟩

/-- a query and what follows it, stopped somewhere -/
theorem passed_read {α : Type} {q : StoreOp} {a : q.Out} {f : q.Out → M α}
    (hrun : q.run w.store = .ok (a, w.store))
    (h : Passed (sturdy env t op) (Coordinator.store q >>= f).run w wm) :
    wm.store = w.store ∨
      ∃ w₁, w₁.store = w.store ∧ Passed (sturdy env t op) (f a).run w₁ wm := by
  rcases passed_store h with hs | ⟨b, w₁, hb, hrest⟩
  · exact .inl hs
  · obtain ⟨hab, hs⟩ := Prod.mk.inj (Except.ok.inj (hrun.symm.trans hb))
    rcases hrest with hs' | hrest
    · exact .inl (hs'.trans hs.symm)
    · rw [← hab] at hrest
      exact .inr ⟨w₁, hs.symm, hrest⟩

/-- the rows stay readable, whatever runs on the store -/
theorem legible_passed {α : Type} {p : Prog Cmd Cmd.Reply α} (hp : Only OnStore p)
    (h : Passed (sturdy env t op) p w wm) (hw : w.store.Legible) : wm.store.Legible := by
  refine hp.passed (K := fun w => w.store.Legible) ?_ h hw
  rintro _ i w₁ r w₂ ⟨so, rfl⟩ he hleg
  obtain ⟨i, hi⟩ := sturdy_exec he
  rcases store_step hi with ⟨_, _, hs⟩ | ⟨a, _, hrun⟩
  · rwa [hs]
  · exact StoreOp.run_legible hleg hrun

end

/-! ## putting rows back -/

/-- `loop` puts the rows of a list back into one table, in the way of `Table.restore` -/
structure RestoreLoop {κ ρ : Type} [DecidableEq κ] {key : ρ → κ} (ok clash : ρ → ρ → Bool)
    (valid : ρ → Bool) (tab : Core → Table key) (set : Core → Table key → Core)
    (ins : ρ → StoreOp) (loop : List ρ → List ρ → M Unit) : Prop where
  nil : ∀ known, loop [] known = pure ()
  present : ∀ x xs known y, known.find? (fun r => decide (key r = key x)) = some y →
    ∃ err, loop (x :: xs) known = if ok y x then loop xs known else throw err
  absent : ∀ x xs known, known.find? (fun r => decide (key r = key x)) = none →
    ∃ err, loop (x :: xs) known = if known.any (fun y => clash y x) then throw err
      else Coordinator.store (ins x) >>= fun _ => loop xs (x :: known)
  insert : ∀ x s, (∃ T a s', valid x = true ∧ (tab s.core).insert? x = some T ∧
      (ins x).run s = .ok (a, s') ∧ s'.core = set s.core T) ∨
    (valid x = false ∨ (tab s.core).insert? x = none) ∧ ∃ err, (ins x).run s = .error err
  get : ∀ c T, tab (set c T) = T
  set_set : ∀ c T T', set (set c T) T' = set c T'
  set_get : ∀ c, set c (tab c) = c

namespace RestoreLoop

variable {κ ρ : Type} [DecidableEq κ] {key : ρ → κ} {ok clash : ρ → ρ → Bool}
  {valid : ρ → Bool} {tab : Core → Table key} {set : Core → Table key → Core}
  {ins : ρ → StoreOp} {loop : List ρ → List ρ → M Unit}
  {env : Env} {t : Tid} {op : Op} {w wm w' : Traced} {xs known : List ρ}
  (hl : RestoreLoop ok clash valid tab set ins loop)
include hl

theorem inserted {x : ρ} {w₁ : Traced} {a : (ins x).Out} (hk : known.Perm (tab w.core).rows)
    (h : (ins x).run w.store = .ok (a, w₁.store)) :
    valid x = true ∧ (tab w.core).insert? x = some (tab w₁.core) ∧
      w₁.core = set w.core (tab w₁.core) ∧ (x :: known).Perm (tab w₁.core).rows := by
  rcases hl.insert x w.store with ⟨T, a', s', hv, hT, hrun, hs'⟩ | ⟨-, err, hrun⟩
  · have hw₁ : w₁.core = set w.core T := by
      rw [← hs']
      exact congrArg Store.core (Prod.mk.inj (Except.ok.inj (h.symm.trans hrun))).2
    have htab : tab w₁.core = T := by rw [hw₁, hl.get]
    refine ⟨hv, htab ▸ hT, htab ▸ hw₁, ?_⟩
    rw [htab, (Table.insert?_eq_some hT).2]
    exact (hk.cons x).trans (List.perm_append_singleton x _).symm
  · cases h.symm.trans hrun

theorem refused {x : ρ} {err : ReclaimError} (h : (ins x).run w.store = .error err) :
    (if !valid x then none
      else ((tab w.core).insert? x).bind (Table.restore ok clash valid xs)) = none := by
  rcases hl.insert x w.store with ⟨T, a, s', -, -, hrun, -⟩ | ⟨hv | hins, -⟩
  · cases h.symm.trans hrun
  · rw [hv, Bool.not_false, if_pos rfl]
  · have hins : (tab w.core).insert? x = none := hins
    rw [hins, Option.bind_none, ite_self]

/-- the loop succeeds exactly when the rows can be put back -/
theorem ran {r : Res Unit} (hk : known.Perm (tab w.core).rows)
    (h : Ran (sturdy env t op) (loop xs known).run w r w') :
    (∃ T, r = .ok () ∧ (tab w.core).restore ok clash valid xs = some T ∧ w'.core = set w.core T) ∨
      (∃ err, r = .error err) ∧ (tab w.core).restore ok clash valid xs = none := by
  induction xs generalizing w known with
  | nil =>
    rw [hl.nil] at h
    obtain ⟨rfl, rfl⟩ := ran_pure.mp h
    exact .inl ⟨tab w'.core, rfl, rfl, (hl.set_get _).symm⟩
  | cons x xs ih =>
    have hfind := Table.find?_of_perm hk (key x)
    cases hx : (tab w.core).find? (key x) with
    | some y =>
      obtain ⟨err, heq⟩ := hl.present x xs known y (hfind.trans hx)
      rw [heq] at h
      rw [Table.restore_found hx]
      by_cases hok : ok y x = true
      · rw [if_pos hok] at h ⊢
        exact ih hk h
      · rw [if_neg hok] at h ⊢
        cases h
        exact .inr ⟨⟨err, rfl⟩, rfl⟩
    | none =>
      obtain ⟨err, heq⟩ := hl.absent x xs known (hfind.trans hx)
      rw [heq, hk.any_eq] at h
      rw [Table.restore_missing hx]
      by_cases hc : (tab w.core).rows.any (fun y => clash y x) = true
      · rw [if_pos hc] at h
        cases h
        rw [hc, Bool.true_or, if_pos rfl]
        exact .inr ⟨⟨err, rfl⟩, rfl⟩
      rw [if_neg hc] at h
      rw [eq_false_of_ne_true hc, Bool.false_or]
      rcases sturdy_seq h with ⟨err', hrun, rfl⟩ | ⟨a, w₁, hrun, hrest⟩
      · exact .inr ⟨⟨err', rfl⟩, hl.refused hrun⟩
      obtain ⟨hv, hins, hw₁, hk₁⟩ := hl.inserted hk hrun
      rw [hv, Bool.not_true, if_neg Bool.false_ne_true, hins, Option.bind_some]
      rcases ih hk₁ hrest with ⟨T, hr, hT, hw'⟩ | hbad
      · refine .inl ⟨T, hr, hT, ?_⟩
        rw [hw', hw₁, hl.set_set]
      · exact .inr hbad

/-- a loop that was stopped has put a first part of the rows back -/
theorem passed (hk : known.Perm (tab w.core).rows)
    (h : Passed (sturdy env t op) (loop xs known).run w wm) :
    ∃ done rest T, xs = done ++ rest ∧ (tab w.core).restore ok clash valid done = some T ∧
      wm.core = set w.core T := by
  induction xs generalizing w known with
  | nil =>
    rw [hl.nil] at h
    cases h
    exact ⟨[], [], _, rfl, rfl, (hl.set_get _).symm⟩
  | cons x xs ih =>
    have hstart (hs : wm.store = w.store) : ∃ done rest T, x :: xs = done ++ rest ∧
        (tab w.core).restore ok clash valid done = some T ∧ wm.core = set w.core T := by
      refine ⟨[], x :: xs, _, rfl, rfl, ?_⟩
      rw [hl.set_get]
      exact congrArg Store.core hs
    have hfind := Table.find?_of_perm hk (key x)
    cases hx : (tab w.core).find? (key x) with
    | some y =>
      obtain ⟨err, heq⟩ := hl.present x xs known y (hfind.trans hx)
      rw [heq] at h
      by_cases hok : ok y x = true
      · rw [if_pos hok] at h
        obtain ⟨done, rest, T, hxs, hT, hwm⟩ := ih hk h
        refine ⟨x :: done, rest, T, by rw [hxs]; rfl, ?_, hwm⟩
        rw [Table.restore_found hx, if_pos hok]
        exact hT
      · rw [if_neg hok] at h
        cases h
        exact hstart rfl
    | none =>
      obtain ⟨err, heq⟩ := hl.absent x xs known (hfind.trans hx)
      rw [heq, hk.any_eq] at h
      by_cases hc : (tab w.core).rows.any (fun y => clash y x) = true
      · rw [if_pos hc] at h
        cases h
        exact hstart rfl
      rw [if_neg hc] at h
      rcases passed_store h with hs | ⟨a, w₁, hrun, hrest⟩
      · exact hstart hs
      obtain ⟨hv, hins, hw₁, hk₁⟩ := hl.inserted hk hrun
      have hstep {ys : List ρ} : (tab w.core).restore ok clash valid (x :: ys) =
          (tab w₁.core).restore ok clash valid ys := by
        rw [Table.restore_missing hx, eq_false_of_ne_true hc, hv, Bool.not_true, Bool.or_self,
          if_neg Bool.false_ne_true, hins, Option.bind_some]
      rcases hrest with hs | hrest
      · refine ⟨[x], xs, tab w₁.core, rfl, hstep, ?_⟩
        rw [← hw₁]
        exact congrArg Store.core hs
      · obtain ⟨done, rest, T, hxs, hT, hwm⟩ := ih hk₁ hrest
        refine ⟨x :: done, rest, T, by rw [hxs]; rfl, hstep.trans hT, ?_⟩
        rw [hwm, hw₁, hl.set_set]

end RestoreLoop

namespace Coordinator

variable {env : Env} {t : Tid} {op : Op} {w wm w' : Traced} {e : JournalEntry}

theorem addReplica_cases (r : Replica) (s : Store) :
    (∃ T a s', passes (Store.validateReplicaDescriptor r) = true ∧
      s.core.replicas.insert? r = some T ∧ (StoreOp.addReplica r).run s = .ok (a, s') ∧
      s'.core = { s.core with replicas := T }) ∨
    (passes (Store.validateReplicaDescriptor r) = false ∨ s.core.replicas.insert? r = none) ∧
      ∃ err, (StoreOp.addReplica r).run s = .error err := by
  change (∃ T a s', _ ∧ s.replicas.insert? r = some T ∧ Store.addReplica r s = .ok (a, s') ∧ _) ∨
    (_ ∨ s.replicas.insert? r = none) ∧ ∃ err, Store.addReplica r s = .error err
  rw [Store.addReplica]
  cases hv : Store.validateReplicaDescriptor r with
  | error err => exact .inr ⟨.inl rfl, err, rfl⟩
  | ok u =>
    cases hT : s.replicas.insert? r with
    | none => exact .inr ⟨.inr rfl, _, rfl⟩
    | some T => exact .inl ⟨T, (), _, rfl, rfl, rfl, rfl⟩

theorem restoreReplicas_restores : RestoreLoop Replica.agrees Replica.clashes
    (fun r => passes (Store.validateReplicaDescriptor r)) Core.replicas
    (fun c T => { c with replicas := T }) StoreOp.addReplica (restoreReplicas e) where
  nil _ := rfl
  present x xs known y hy := by
    refine ⟨.recovery (s!"journal {e.attemptId} cannot roll back conflicting replica " ++
      s!"{x.replicaId}"), ?_⟩
    have hag : y.agrees x = true ↔ ¬(y.objectId ≠ x.objectId ∨ y.generation ≠ x.generation ∨
        y.location ≠ x.location ∨ y.size ≠ x.size ∨ y.contentHash ≠ x.contentHash ∨
        y.valid ≠ x.valid) := by
      simp [Replica.agrees, and_assoc]
    rw [restoreReplicas, hy]
    by_cases hok : y.agrees x = true
    · rw [if_pos hok]
      exact if_neg (hag.mp hok)
    · rw [if_neg hok]
      exact if_pos (not_not.mp (mt hag.mpr hok))
  absent x xs known hy := by
    refine ⟨.recovery (s!"journal {e.attemptId} cannot restore replica " ++
      s!"{x.replicaId}: its physical key is assigned to different content"), ?_⟩
    rw [restoreReplicas, hy]
    by_cases hc : known.any (fun y => y.clashes x) = true
    · rw [if_pos hc]
      exact if_pos hc
    · rw [if_neg hc]
      exact if_neg hc
  insert x s := addReplica_cases x s
  get _ _ := rfl
  set_set _ _ _ := rfl
  set_get _ := rfl

theorem insertArchive_cases (x : ArchiveRecord) (s : Store) :
    (∃ T a s', x.writable = true ∧ s.core.archives.insert? x = some T ∧
      (StoreOp.insertArchive x).run s = .ok (a, s') ∧ s'.core = { s.core with archives := T }) ∨
    (x.writable = false ∨ s.core.archives.insert? x = none) ∧
      ∃ err, (StoreOp.insertArchive x).run s = .error err := by
  change (∃ T a s', _ ∧ s.archives.insert? x = some T ∧ Store.insertArchive x s = .ok (a, s') ∧ _) ∨
    (_ ∨ s.archives.insert? x = none) ∧ ∃ err, Store.insertArchive x s = .error err
  rw [Store.insertArchive, ArchiveRecord.writable]
  cases hg : Store.sqlU64 "archive generation" x.generation with
  | error err => exact .inr ⟨.inl rfl, err, rfl⟩
  | ok u =>
    cases hs : Store.sqlU64 "archive size" x.size with
    | error err => exact .inr ⟨.inl rfl, err, rfl⟩
    | ok u =>
      cases hT : s.archives.insert? x with
      | none => exact .inr ⟨.inr rfl, _, rfl⟩
      | some T => exact .inl ⟨T, (), _, rfl, rfl, rfl, rfl⟩

theorem restoreArchives_restores : RestoreLoop ArchiveRecord.agrees ArchiveRecord.clashes
    ArchiveRecord.writable Core.archives (fun c T => { c with archives := T })
    StoreOp.insertArchive (restoreArchives e) where
  nil _ := rfl
  present x xs known y hy := by
    refine ⟨.recovery (s!"journal {e.attemptId} cannot roll back conflicting archive " ++
      s!"{x.archiveId}"), ?_⟩
    have hag : y.agrees x = true ↔ ¬(y.objectId ≠ x.objectId ∨ y.generation ≠ x.generation ∨
        y.backend ≠ x.backend ∨ y.key ≠ x.key ∨ y.size ≠ x.size ∨
        y.contentHash ≠ x.contentHash) := by
      simp [ArchiveRecord.agrees, and_assoc]
    rw [restoreArchives, hy]
    by_cases hok : y.agrees x = true
    · rw [if_pos hok]
      exact if_neg (hag.mp hok)
    · rw [if_neg hok]
      exact if_pos (not_not.mp (mt hag.mpr hok))
  absent x xs known hy := by
    refine ⟨.recovery (s!"journal {e.attemptId} cannot restore archive " ++
      s!"{x.archiveId}: its physical key is assigned to different content"), ?_⟩
    rw [restoreArchives, hy]
    by_cases hc : known.any (fun y => y.clashes x) = true
    · rw [if_pos hc]
      exact if_pos hc
    · rw [if_neg hc]
      exact if_neg hc
  insert x s := insertArchive_cases x s
  get _ _ := rfl
  set_set _ _ _ := rfl
  set_get _ := rfl

variable {p : ParsedJournalPayload}

/-- both tables are put back -/
theorem restoreRollbackMetadata_ran {r : Res Unit}
    (h : Ran (sturdy env t op) (restoreRollbackMetadata e p).run w r w') :
    (∃ R A, r = .ok () ∧ Core.replicasBack p.replicaDeletions w.core.replicas = some R ∧
      Core.archivesBack p.archiveDeletions w.core.archives = some A ∧
      w'.core = { w.core with replicas := R, archives := A }) ∨
    (∃ err, r = .error err) ∧ (Core.replicasBack p.replicaDeletions w.core.replicas = none ∨
      Core.archivesBack p.archiveDeletions w.core.archives = none) := by
  obtain ⟨w₁, hs₁, h⟩ := sturdy_read (q := .allReplicas) rfl h
  have hc₁ : w₁.core = w.core := congrArg Store.core hs₁
  have hperm : (Store.sortReplicas w.store.replicas.rows).Perm w₁.core.replicas.rows := by
    rw [hc₁]
    exact List.perm_insertionSort _ _
  rcases ran_seq.mp h with ⟨err, rfl, hx⟩ | ⟨_, w₂, hx, hrest⟩
  · rcases restoreReplicas_restores.ran hperm hx with ⟨T, hno, -⟩ | ⟨-, hR⟩
    · cases hno
    · exact .inr ⟨⟨err, rfl⟩, .inl (hc₁ ▸ hR)⟩
  · rcases restoreReplicas_restores.ran hperm hx with ⟨R, -, hR, hc₂⟩ | ⟨⟨_, hno⟩, -⟩
    swap
    · cases hno
    rw [hc₁] at hR hc₂
    obtain ⟨w₃, hs₃, hrest⟩ := sturdy_read (q := .listArchives) rfl hrest
    have hc₃ : w₃.core = { w.core with replicas := R } := (congrArg Store.core hs₃).trans hc₂
    have hperm : (Store.sortArchives w₂.store.archives.rows).Perm w₃.core.archives.rows := by
      rw [show w₃.core.archives = w₂.store.archives from congrArg Store.archives hs₃]
      exact List.perm_insertionSort _ _
    rcases restoreArchives_restores.ran hperm hrest with ⟨A, hr, hA, hw'⟩ | ⟨hr, hA⟩
    · rw [hc₃] at hA hw'
      exact .inl ⟨R, A, hr, hR, hA, hw'⟩
    · rw [hc₃] at hA
      exact .inr ⟨hr, .inr hA⟩

theorem restoreRollbackMetadata_passed
    (h : Passed (sturdy env t op) (restoreRollbackMetadata e p).run w wm) :
    ∃ xs ys xs' ys' R A, p.replicaDeletions = xs ++ ys ∧ p.archiveDeletions = xs' ++ ys' ∧
      Core.replicasBack xs w.core.replicas = some R ∧
      Core.archivesBack xs' w.core.archives = some A ∧
      wm.core = { w.core with replicas := R, archives := A } := by
  rcases passed_read (q := .allReplicas) rfl h with hs | ⟨w₁, hs₁, h⟩
  · exact ⟨[], _, [], _, _, _, rfl, rfl, rfl, rfl, congrArg Store.core hs⟩
  have hc₁ : w₁.core = w.core := congrArg Store.core hs₁
  have hperm : (Store.sortReplicas w.store.replicas.rows).Perm w₁.core.replicas.rows := by
    rw [hc₁]
    exact List.perm_insertionSort _ _
  rcases passed_seq h with hx | ⟨_, w₂, hx, hrest⟩
  · obtain ⟨xs, ys, R, hxs, hR, hwm⟩ := restoreReplicas_restores.passed hperm hx
    rw [hc₁] at hR hwm
    exact ⟨xs, ys, [], _, R, _, hxs, rfl, hR, rfl, hwm⟩
  · rcases restoreReplicas_restores.ran hperm hx with ⟨R, -, hR, hc₂⟩ | ⟨⟨_, hno⟩, -⟩
    swap
    · cases hno
    rw [hc₁] at hR hc₂
    have hall : p.replicaDeletions = p.replicaDeletions ++ [] := (List.append_nil _).symm
    rcases passed_read (q := .listArchives) rfl hrest with hs | ⟨w₃, hs₃, hrest⟩
    · refine ⟨_, [], [], _, R, _, hall, rfl, hR, rfl, ?_⟩
      exact (congrArg Store.core hs).trans hc₂
    have hc₃ : w₃.core = { w.core with replicas := R } := (congrArg Store.core hs₃).trans hc₂
    have hperm : (Store.sortArchives w₂.store.archives.rows).Perm w₃.core.archives.rows := by
      rw [show w₃.core.archives = w₂.store.archives from congrArg Store.archives hs₃]
      exact List.perm_insertionSort _ _
    obtain ⟨xs, ys, A, hxs, hA, hwm⟩ := restoreArchives_restores.passed hperm hrest
    rw [hc₃] at hA hwm
    exact ⟨_, [], xs, ys, R, A, hall, hxs, hR, hA, hwm⟩

end Coordinator

/-! ## single methods -/

/-- on the tables the method is `f`: it succeeds exactly when `f` is defined -/
def StoreOp.Acts (so : StoreOp) (f : Core → Option Core) : Prop :=
  ∀ s, (∃ a s', so.run s = .ok (a, s') ∧ f s.core = some s'.core) ∨
    (∃ err, so.run s = .error err) ∧ f s.core = none

section
variable {env : Env} {t : Tid} {op : Op} {w wm w' : Traced} {so : StoreOp} {f : Core → Option Core}
  {α : Type} {k : so.Out → M α}

theorem acts_ran {r : Res α} (hf : so.Acts f)
    (h : Ran (sturdy env t op) (Coordinator.store so >>= k).run w r w') :
    ((∃ err, r = .error err) ∧ f w.core = none) ∨
      ∃ a w₁, f w.core = some w₁.core ∧ Ran (sturdy env t op) (k a).run w₁ r w' := by
  rcases sturdy_seq h with ⟨err, hrun, rfl⟩ | ⟨a, w₁, hrun, hrest⟩
  · rcases hf w.store with ⟨_, _, hok, -⟩ | ⟨-, hnone⟩
    · cases hrun.symm.trans hok
    · exact .inl ⟨⟨err, rfl⟩, hnone⟩
  · rcases hf w.store with ⟨_, _, hok, hsome⟩ | ⟨⟨_, herr⟩, -⟩
    · cases (Prod.mk.inj (Except.ok.inj (hrun.symm.trans hok))).2
      exact .inr ⟨a, w₁, hsome, hrest⟩
    · cases hrun.symm.trans herr

theorem acts_passed (hf : so.Acts f)
    (h : Passed (sturdy env t op) (Coordinator.store so >>= k).run w wm) :
    wm.core = w.core ∨ ∃ c, f w.core = some c ∧
      (wm.core = c ∨ ∃ a w₁, w₁.core = c ∧ Passed (sturdy env t op) (k a).run w₁ wm) := by
  rcases passed_store h with hs | ⟨a, w₁, hrun, hrest⟩
  · exact .inl (congrArg Store.core hs)
  · rcases hf w.store with ⟨_, _, hok, hsome⟩ | ⟨⟨_, herr⟩, -⟩
    · cases (Prod.mk.inj (Except.ok.inj (hrun.symm.trans hok))).2
      refine .inr ⟨_, hsome, ?_⟩
      rcases hrest with hs | hrest
      · exact .inl (congrArg Store.core hs)
      · exact .inr ⟨a, w₁, rfl, hrest⟩
    · cases hrun.symm.trans herr

theorem acts_last {r : Res so.Out} (hf : so.Acts f)
    (h : Ran (sturdy env t op) (Coordinator.store so).run w r w') :
    ((∃ err, r = .error err) ∧ f w.core = none) ∨ ∃ a, r = .ok a ∧ f w.core = some w'.core := by
  rcases sturdy_store h with ⟨err, rfl, hrun⟩ | ⟨a, rfl, hrun⟩
  · rcases hf w.store with ⟨_, _, hok, -⟩ | ⟨-, hnone⟩
    · cases hrun.symm.trans hok
    · exact .inl ⟨⟨err, rfl⟩, hnone⟩
  · rcases hf w.store with ⟨_, _, hok, hsome⟩ | ⟨⟨_, herr⟩, -⟩
    · cases (Prod.mk.inj (Except.ok.inj (hrun.symm.trans hok))).2
      exact .inr ⟨a, rfl, hsome⟩
    · cases hrun.symm.trans herr

theorem acts_stop (hf : so.Acts f)
    (h : Passed (sturdy env t op) (Coordinator.store so).run w wm) :
    wm.core = w.core ∨ f w.core = some wm.core := by
  rcases sturdy_stop h with hs | ⟨a, hrun⟩
  · exact .inl (congrArg Store.core hs)
  · rcases hf w.store with ⟨_, _, hok, hsome⟩ | ⟨⟨_, herr⟩, -⟩
    · cases (Prod.mk.inj (Except.ok.inj (hrun.symm.trans hok))).2
      exact .inr hsome
    · cases hrun.symm.trans herr

end

theorem ReclaimObject.writable_iff {o : ReclaimObject} :
    o.writable = true ↔ o.validate = .ok () ∧ Store.checkObjectRow o = .ok () := by
  rw [ReclaimObject.writable, Bool.and_eq_true, passes_iff, passes_iff]

namespace StoreOp

theorem acts_updateObject (o : ReclaimObject) : (StoreOp.updateObject o).Acts fun c =>
    if o.writable = true ∧ c.objects.find? o.id ≠ none then
      some { c with objects := c.objects.replace o } else none := by
  intro s
  change (∃ a s', Store.updateObject o s = .ok (a, s') ∧ _) ∨
    (∃ err, Store.updateObject o s = .error err) ∧ _
  rw [Store.updateObject, Store.updateObjectRow]
  have hw := @ReclaimObject.writable_iff o
  cases hv : o.validate with
  | error err =>
    refine .inr ⟨⟨err, rfl⟩, if_neg fun h => ?_⟩
    cases hv.symm.trans (hw.mp h.1).1
  | ok u =>
    cases hc : Store.checkObjectRow o with
    | error err =>
      refine .inr ⟨⟨err, rfl⟩, if_neg fun h => ?_⟩
      cases hc.symm.trans (hw.mp h.1).2
    | ok u =>
      cases hf : s.objects.find? o.id with
      | none => exact .inr ⟨⟨_, rfl⟩, if_neg fun h => h.2 hf⟩
      | some old =>
        refine .inl ⟨(), _, rfl, if_pos ⟨hw.mpr ⟨hv, hc⟩, fun h => ?_⟩⟩
        cases hf.symm.trans h

theorem acts_createObject (o : ReclaimObject) : (StoreOp.createObject o).Acts fun c =>
    if o.writable = true then (c.objects.insert? o).map fun O => { c with objects := O }
      else none := by
  intro s
  change (∃ a s', Store.createObject o s = .ok (a, s') ∧ _) ∨
    (∃ err, Store.createObject o s = .error err) ∧ _
  rw [Store.createObject, Store.insertObjectRow]
  have hw := @ReclaimObject.writable_iff o
  cases hv : o.validate with
  | error err =>
    refine .inr ⟨⟨err, rfl⟩, if_neg fun h => ?_⟩
    cases hv.symm.trans (hw.mp h).1
  | ok u =>
    cases hc : Store.checkObjectRow o with
    | error err =>
      refine .inr ⟨⟨err, rfl⟩, if_neg fun h => ?_⟩
      cases hc.symm.trans (hw.mp h).2
    | ok u =>
      have hok := hw.mpr ⟨hv, hc⟩
      cases hf : s.objects.insert? o with
      | none =>
        refine .inr ⟨⟨_, rfl⟩, (if_pos hok).trans ?_⟩
        exact congrArg (Option.map _) hf
      | some O =>
        refine .inl ⟨(), _, rfl, (if_pos hok).trans ?_⟩
        exact congrArg (Option.map _) hf

/-- an audit row changes none of the tables -/
theorem acts_appendAudit (a : AuditEntry) : (StoreOp.appendAudit a).Acts fun c =>
    if passes (Store.sqlOptionalU64 "audit generation" a.generation) = true then some c
      else none := by
  intro s
  change (∃ x s', Store.appendAudit a s = .ok (x, s') ∧ _) ∨
    (∃ err, Store.appendAudit a s = .error err) ∧ _
  rw [Store.appendAudit, Store.insertAuditRow]
  cases Store.sqlOptionalU64 "audit generation" a.generation with
  | error err => exact .inr ⟨⟨err, rfl⟩, if_neg Bool.false_ne_true⟩
  | ok u => exact .inl ⟨(), _, rfl, if_pos rfl⟩

theorem acts_deleteReplica (id : Uuid) : (StoreOp.deleteReplica id).Acts fun c =>
    some { c with replicas := c.replicas.erase id } := fun _ => .inl ⟨(), _, rfl, rfl⟩

theorem acts_deleteArchive (id : String) : (StoreOp.deleteArchive id).Acts fun c =>
    some { c with archives := c.archives.erase id } := fun _ => .inl ⟨(), _, rfl, rfl⟩

theorem acts_updateReservationForAttempt (e : JournalEntry) (status : ReservationStatus) :
    (StoreOp.updateReservationForAttempt e.attemptId status).Acts fun c =>
      some { c with reservations := Core.reservationsClosed e status c.reservations } :=
  fun _ => .inl ⟨(), _, rfl, rfl⟩

theorem acts_updateReservation (id : Uuid) (status : ReservationStatus) :
    (StoreOp.updateReservation id status).Acts fun c =>
      if (c.reservations.find? id).any (fun x => decide (x.status = .isOpen)) = true then
        some { c with
          reservations := Store.closeReservations (fun x => decide (x.reservationId = id)) status
            c.reservations }
      else none := by
  intro s
  change (∃ x s', Store.updateReservation id status s = .ok (x, s') ∧ _) ∨
    (∃ err, Store.updateReservation id status s = .error err) ∧ _
  change (∃ x s', _ ∧ (if (s.reservations.find? id).any _ = true then _ else none) = _) ∨
    _ ∧ (if (s.reservations.find? id).any _ = true then _ else none) = _
  rw [Store.updateReservation]
  cases s.reservations.find? id with
  | none => exact .inr ⟨⟨_, rfl⟩, rfl⟩
  | some v =>
    by_cases hv : v.status = .isOpen
    · have hany : (some v).any (fun x => decide (x.status = .isOpen)) = true := decide_eq_true hv
      refine .inl ⟨(), _, if_pos hv, if_pos hany⟩
    · have hany : ¬(some v).any (fun x => decide (x.status = .isOpen)) = true :=
        fun h => hv (of_decide_eq_true h)
      exact .inr ⟨⟨_, if_neg hv⟩, if_neg hany⟩

theorem acts_reconcileAttempt {id : Uuid} {status : AttemptStatus} {now : Int}
    (hs : status ≠ .isOpen) : (StoreOp.reconcileAttempt id status now).Acts fun c =>
      (Core.attemptClosed now id status c.attempts).map fun A => { c with attempts := A } := by
  intro s
  change (∃ x s', Store.reconcileAttempt id status now s = .ok (x, s') ∧
      (Core.attemptClosed now id status s.attempts).map _ = _) ∨
    (∃ err, Store.reconcileAttempt id status now s = .error err) ∧
      (Core.attemptClosed now id status s.attempts).map _ = _
  rw [Store.reconcileAttempt, if_neg hs, Core.attemptClosed]
  cases s.attempts.find? id with
  | none => exact .inr ⟨⟨_, rfl⟩, rfl⟩
  | some a =>
    by_cases hopen : a.status = .isOpen
    · refine .inl ⟨(), _, if_pos hopen, ?_⟩
      exact congrArg (Option.map _) (if_pos hopen)
    · by_cases hst : a.status = status
      · refine .inl ⟨(), s, (if_neg hopen).trans (if_pos hst), ?_⟩
        exact congrArg (Option.map _) ((if_neg hopen).trans (if_pos hst))
      · refine .inr ⟨⟨_, (if_neg hopen).trans (if_neg hst)⟩, ?_⟩
        exact congrArg (Option.map _) ((if_neg hopen).trans (if_neg hst))

theorem acts_updateJournalPhase (id : Uuid) (phase : JournalPhase) (now : Int) :
    (StoreOp.updateJournalPhase id phase now).Acts fun c =>
      (Core.journalClosed now id phase c.journal).map fun J => { c with journal := J } := by
  intro s
  change (∃ x s', Store.updateJournalPhase id phase now s = .ok (x, s') ∧
      (Core.journalClosed now id phase s.journal).map _ = _) ∨
    (∃ err, Store.updateJournalPhase id phase now s = .error err) ∧
      (Core.journalClosed now id phase s.journal).map _ = _
  rw [Store.updateJournalPhase, Core.journalClosed]
  cases Store.allowedPrior phase with
  | none => exact .inr ⟨⟨_, rfl⟩, rfl⟩
  | some prior =>
    cases s.journal.find? id with
    | none => exact .inr ⟨⟨_, rfl⟩, rfl⟩
    | some j =>
      by_cases hj : j.phase ∈ prior
      · refine .inl ⟨(), _, if_pos hj, ?_⟩
        exact congrArg (Option.map _) (if_pos hj)
      · refine .inr ⟨⟨_, if_neg hj⟩, ?_⟩
        exact congrArg (Option.map _) (if_neg hj)

end StoreOp

theorem ReclaimObject.writable_generation {o : ReclaimObject} (h : o.writable = true) :
    passes (Store.sqlOptionalU64 "audit generation" (some o.generation)) = true := by
  obtain ⟨_, hgen, -⟩ := Result.bind_ok.mp (ReclaimObject.writable_iff.mp h).2
  exact passes_iff.mpr (Store.sqlU64_iff.mpr (Store.sqlU64_iff.mp hgen))

namespace Coordinator

variable {env : Env} {t : Tid} {op : Op} {w wm w' : Traced} {e : JournalEntry} {now : Int}
  {p : ParsedJournalPayload}

/-! ## a rollback -/

section
variable {prior : ReclaimObject}

theorem restoreObject_ran {r : Res (Option AuditEntry)} (hid : prior.id = e.objectId)
    (hgen : prior.generation = e.generation)
    (h : Ran (sturdy env t op) (restoreObject now e prior).run w r w') :
    (∃ O a, r = .ok a ∧ Core.objectBack e prior w.core.objects = some O ∧
      w'.core = { w.core with objects := O } ∧ ∀ x, a = some x →
        passes (Store.sqlOptionalU64 "audit generation" x.generation) = true) ∨
    (∃ err, r = .error err) ∧ Core.objectBack e prior w.core.objects = none := by
  obtain ⟨w₁, hs₁, h⟩ := sturdy_read (q := .getObject e.objectId) rfl h
  have hc₁ : w₁.core = w.core := congrArg Store.core hs₁
  have haudit (hw : prior.writable = true) :
      passes (Store.sqlOptionalU64 "audit generation" (some e.generation)) = true :=
    hgen ▸ ReclaimObject.writable_generation hw
  cases hf : w.core.objects.find? e.objectId with
  | none =>
    simp only [show w.store.objects.find? e.objectId = none from hf] at h
    simp only [Core.objectBack, hf]
    rcases acts_ran (StoreOp.acts_createObject prior) h with ⟨herr, hnone⟩ | ⟨_, w₂, hsome, hrest⟩
    · rw [hc₁] at hnone
      refine .inr ⟨herr, ?_⟩
      by_cases hw : prior.writable = true
      · rw [if_pos hw] at hnone ⊢
        exact Option.map_eq_none_iff.mp hnone
      · exact if_neg hw
    · rw [hc₁] at hsome
      by_cases hw : prior.writable = true
      · rw [if_pos hw] at hsome
        obtain ⟨O, hO, hw₂⟩ := Option.map_eq_some_iff.mp hsome
        obtain ⟨rfl, rfl⟩ := ran_pure.mp hrest
        refine .inl ⟨O, _, rfl, (if_pos hw).trans hO, hw₂.symm, ?_⟩
        rintro _ ⟨⟩
        exact haudit hw
      · rw [if_neg hw] at hsome
        cases hsome
  | some o =>
    simp only [show w.store.objects.find? e.objectId = some o from hf] at h
    simp only [Core.objectBack, hf]
    by_cases hg : o.generation ≠ e.generation
    · rw [if_pos hg] at h
      cases h
      exact .inr ⟨⟨_, rfl⟩, if_pos hg⟩
    rw [if_neg hg] at h ⊢
    by_cases hst : o.lifecycleState = prior.lifecycleState
    · rw [if_neg (not_not.mpr hst)] at h
      obtain ⟨rfl, rfl⟩ := ran_pure.mp h
      exact .inl ⟨_, _, rfl, if_pos hst, hc₁, fun _ hx => (by cases hx)⟩
    rw [if_pos hst] at h
    rw [if_neg hst]
    have hrow : w₁.core.objects.find? prior.id ≠ none := by
      rw [hc₁, hid, hf]
      exact Option.some_ne_none o
    rcases acts_ran (StoreOp.acts_updateObject prior) h with ⟨herr, hnone⟩ | ⟨_, w₂, hsome, hrest⟩
    · by_cases hw : prior.writable = true
      · rw [if_pos ⟨hw, hrow⟩] at hnone
        cases hnone
      · exact .inr ⟨herr, if_neg hw⟩
    · by_cases hw : prior.writable = true
      · rw [if_pos ⟨hw, hrow⟩, hc₁] at hsome
        obtain ⟨rfl, rfl⟩ := ran_pure.mp hrest
        refine .inl ⟨_, _, rfl, if_pos hw, (Option.some.inj hsome).symm, ?_⟩
        rintro _ ⟨⟩
        exact haudit hw
      · rw [if_neg fun hboth => hw hboth.1] at hsome
        cases hsome

theorem restoreObject_passed (hid : prior.id = e.objectId)
    (h : Passed (sturdy env t op) (restoreObject now e prior).run w wm) :
    wm.core = w.core ∨ ∃ O, Core.objectBack e prior w.core.objects = some O ∧
      wm.core = { w.core with objects := O } := by
  rcases passed_read (q := .getObject e.objectId) rfl h with hs | ⟨w₁, hs₁, h⟩
  · exact .inl (congrArg Store.core hs)
  have hc₁ : w₁.core = w.core := congrArg Store.core hs₁
  cases hf : w.core.objects.find? e.objectId with
  | none =>
    simp only [show w.store.objects.find? e.objectId = none from hf] at h
    simp only [Core.objectBack, hf]
    rcases acts_passed (StoreOp.acts_createObject prior) h with hs | ⟨c, hsome, hrest⟩
    · exact .inl (hs.trans hc₁)
    have hwm : wm.core = c := by
      rcases hrest with hs | ⟨_, w₂, hs, hrest⟩
      · exact hs
      · cases hrest
        exact hs
    rw [hc₁] at hsome
    by_cases hw : prior.writable = true
    · rw [if_pos hw] at hsome
      obtain ⟨O, hO, hc⟩ := Option.map_eq_some_iff.mp hsome
      exact .inr ⟨O, (if_pos hw).trans hO, hwm.trans hc.symm⟩
    · rw [if_neg hw] at hsome
      cases hsome
  | some o =>
    simp only [show w.store.objects.find? e.objectId = some o from hf] at h
    simp only [Core.objectBack, hf]
    by_cases hg : o.generation ≠ e.generation
    · rw [if_pos hg] at h
      cases h
      exact .inl hc₁
    rw [if_neg hg] at h ⊢
    by_cases hst : o.lifecycleState = prior.lifecycleState
    · rw [if_neg (not_not.mpr hst)] at h
      cases h
      exact .inl hc₁
    rw [if_pos hst] at h
    rw [if_neg hst]
    rcases acts_passed (StoreOp.acts_updateObject prior) h with hs | ⟨c, hsome, hrest⟩
    · exact .inl (hs.trans hc₁)
    have hwm : wm.core = c := by
      rcases hrest with hs | ⟨_, w₂, hs, hrest⟩
      · exact hs
      · cases hrest
        exact hs
    by_cases hw : prior.writable = true
    · have hrow : w₁.core.objects.find? prior.id ≠ none := by
        rw [hc₁, hid, hf]
        exact Option.some_ne_none o
      rw [if_pos ⟨hw, hrow⟩, hc₁] at hsome
      exact .inr ⟨_, if_pos hw, hwm.trans (Option.some.inj hsome).symm⟩
    · rw [if_neg fun hboth => hw hboth.1] at hsome
      cases hsome

end

/-! ### the repair -/

/-- the command is a store method that writes the dedup table, or reads -/
def OnDedup (c : Cmd) : Prop := ∃ so : StoreOp, c = .store so ∧ ∀ T ∈ so.writes, T = .dedup

theorem dedup_step {so : StoreOp} {a : so.Out} {s s' : Store}
    (hso : ∀ T ∈ so.writes, T = .dedup) (h : so.run s = .ok (a, s')) : s'.core = s.core := by
  have hsame (T : Data.Part) (hT : T ≠ .dedup) : s.data.Same s'.data T :=
    StoreOp.run_same h fun hm => hT (hso T hm)
  show Core.mk s'.objects s'.replicas s'.lineage s'.attempts s'.reservations s'.archives
      s'.journal =
    Core.mk s.objects s.replicas s.lineage s.attempts s.reservations s.archives s.journal
  rw [show s'.objects = s.objects from hsame .objects nofun,
    show s'.replicas = s.replicas from hsame .replicas nofun,
    show s'.lineage = s.lineage from hsame .lineage nofun,
    show s'.attempts = s.attempts from hsame .attempts nofun,
    show s'.reservations = s.reservations from hsame .reservations nofun,
    show s'.archives = s.archives from hsame .archives nofun,
    show s'.journal = s.journal from hsame .journal nofun]

theorem dedup_passed {α : Type} {x : Prog Cmd Cmd.Reply α} (hx : Only OnDedup x)
    (h : Passed (sturdy env t op) x w wm) : wm.core = w.core := by
  refine hx.passed (K := fun w' => w'.core = w.core) ?_ h rfl
  rintro _ i w₁ r w₂ ⟨so, rfl, hso⟩ he hw
  obtain ⟨i, hi⟩ := sturdy_exec he
  rcases store_step hi with ⟨_, _, hs⟩ | ⟨a, _, hrun⟩
  · exact (congrArg Store.core hs).trans hw
  · exact (dedup_step hso hrun).trans hw

theorem repairDedupCounts_passed
    (h : Passed (sturdy env t op) repairDedupCounts.run w wm) : wm.core = w.core := by
  have hdedup : ∀ T ∈ [Data.Part.dedup], T = .dedup := fun _ => List.mem_singleton.mp
  exact dedup_passed (repairDedupCounts_only ⟨_, rfl, nofun⟩ ⟨_, rfl, nofun⟩ ⟨_, rfl, nofun⟩
    (fun _ _ => ⟨_, rfl, hdedup⟩) (fun _ => ⟨_, rfl, hdedup⟩) fun _ => ⟨_, rfl, hdedup⟩) h

/-- the repair succeeds exactly when the rows can be counted, and changes the dedup table only -/
theorem repairDedupCounts_countable {r : Res (List String)} (hleg : w.store.Legible)
    (h : Ran (sturdy env t op) repairDedupCounts.run w r w') :
    w'.core = w.core ∧
      ((∃ notes, r = .ok notes ∧ Core.countable w.core.objects w.core.replicas = true ∧
        (w.store.Recounted → notes = [] ∧ Rewritten w w' w.store.dedup.find?)) ∨
      (∃ err, r = .error err) ∧ Core.countable w.core.objects w.core.replicas = false) := by
  have hran := h
  have hleg' : w'.store.Legible := legible_passed (repairDedupCounts_mild.mono
    fun c hc => ⟨hc.choose, hc.choose_spec.1⟩) h.passed hleg
  have hcore : w'.core = w.core := repairDedupCounts_passed h.passed
  refine ⟨hcore, ?_⟩
  obtain ⟨w₁, hs₁, h⟩ := sturdy_read (q := .listObjects) rfl h
  obtain ⟨w₂, hs₂, h⟩ := sturdy_read (q := .allReplicas) rfl h
  have hread : liveEntries (w.core.objects.rows.insertionSort (fun a b => a.id.le b.id))
      (Store.sortReplicas w.core.replicas.rows) [] =
      liveEntries (w.store.objects.rows.insertionSort (fun a b => a.id.le b.id))
        (Store.sortReplicas w₁.store.replicas.rows) [] := by
    rw [hs₁]
    rfl
  rw [Core.countable, hread]
  rcases ran_seq.mp h with ⟨err, rfl, hx⟩ | ⟨live, w₃, hx, hrest⟩
  · refine .inr ⟨⟨err, rfl⟩, ?_⟩
    rw [← (ran_settle.mp hx).1]
  obtain ⟨hlive, rfl⟩ := ran_settle.mp hx
  rw [← hlive]
  have hrec : Recount w.store.replicas.rows live := by
    have := liveEntries_recount .nil hlive.symm
    rw [List.nil_append, hs₁] at this
    exact this.perm (List.perm_insertionSort _ _)
  obtain ⟨w₄, hs₄, hrest⟩ := sturdy_read (q := .listDedup) rfl hrest
  have hstore : w₄.store = w.store := hs₄.trans (hs₂.trans hs₁)
  by_cases hall : live.all (fun x => passes (Store.validateDedupEntry x)) = true
  · -- every counted entry can be written: both passes go through
    have hv : ∀ x ∈ live, Store.validateDedupEntry x = .ok () := fun x hx =>
      passes_iff.mp (List.all_eq_true.mp hall x hx)
    have hp : (w₃.store.dedup.rows.insertionSort (fun a b => Store.dedupLe a b)).Perm
        w₄.store.dedup.rows := by
      rw [hs₄]
      exact List.perm_insertionSort _ _
    obtain ⟨⟨hst, hfind⟩, keys, -, hkm, hr⟩ := passes_ran hp hrec.nodup hv hrest
    rw [hstore] at hst hkm hr
    refine .inl ⟨_, hr, hall, fun hexact => ?_⟩
    have hlook := (recounted_iff hrec).mp hexact
    have hnil : keys = [] := by
      rw [List.eq_nil_iff_forall_not_mem]
      exact fun k hk => (hkm k).mp hk (hlook k)
    rw [hnil]
    exact ⟨rfl, hst, fun k => (hfind k).trans (hlook k).symm⟩
  · -- had it succeeded, the rows of the dedup table would be the counted entries
    cases r with
    | error err => exact .inr ⟨⟨err, rfl⟩, eq_false_of_ne_true hall⟩
    | ok notes =>
      have hdone : w'.store.Recounted :=
        ((Party.Triple.recounted (l := false) exclusive_alone).ran trivial
          (ran_of_sturdy hran)).2
      have hrows : Recount w'.store.replicas.rows live := by
        rw [show w'.store.replicas = w.store.replicas from congrArg Core.replicas hcore]
        exact hrec
      refine absurd (List.all_eq_true.mpr fun x hx => passes_iff.mpr ?_) hall
      exact hrows.valid_of_count hleg'.replicas hx (hleg'.dedup x (hrows.mem_iff hdone hx)).1

/-! ### the end of a resolution -/

section
variable {vs : ReservationStatus} {as : AttemptStatus} {ph : JournalPhase} {out : ReconcileOutcome}

/-- the reservations, the attempt and the journal of an entry are closed -/
def closing (now : Int) (e : JournalEntry) (vs : ReservationStatus) (as : AttemptStatus)
    (ph : JournalPhase) (out : ReconcileOutcome) : M ReconcileOutcome := do
  store (.updateReservationForAttempt e.attemptId vs)
  store (.reconcileAttempt e.attemptId as now)
  store (.updateJournalPhase e.attemptId ph now)
  pure out

theorem closing_ran {r : Res ReconcileOutcome} (has : as ≠ .isOpen)
    (h : Ran (sturdy env t op) (closing now e vs as ph out).run w r w') :
    (∃ A J, r = .ok out ∧ Core.attemptClosed now e.attemptId as w.core.attempts = some A ∧
      Core.journalClosed now e.attemptId ph w.core.journal = some J ∧
      w'.core = { w.core with
        attempts := A
        reservations := Core.reservationsClosed e vs w.core.reservations
        journal := J }) ∨
    (∃ err, r = .error err) ∧ (Core.attemptClosed now e.attemptId as w.core.attempts = none ∨
      Core.journalClosed now e.attemptId ph w.core.journal = none) := by
  rcases acts_ran (StoreOp.acts_updateReservationForAttempt e vs) h with
    ⟨-, hno⟩ | ⟨_, w₁, hsome, h⟩
  · cases hno
  have hc₁ := Option.some.inj hsome
  rcases acts_ran (StoreOp.acts_reconcileAttempt has) h with ⟨herr, hnone⟩ | ⟨_, w₂, hsome, h⟩
  · rw [← hc₁] at hnone
    exact .inr ⟨herr, .inl (Option.map_eq_none_iff.mp hnone)⟩
  obtain ⟨A, hA, hc₂⟩ := Option.map_eq_some_iff.mp hsome
  rw [← hc₁] at hA hc₂
  rcases acts_ran (StoreOp.acts_updateJournalPhase e.attemptId ph now) h with
    ⟨herr, hnone⟩ | ⟨_, w₃, hsome, h⟩
  · rw [← hc₂] at hnone
    exact .inr ⟨herr, .inr (Option.map_eq_none_iff.mp hnone)⟩
  obtain ⟨J, hJ, hc₃⟩ := Option.map_eq_some_iff.mp hsome
  rw [← hc₂] at hJ hc₃
  obtain ⟨rfl, rfl⟩ := ran_pure.mp h
  exact .inl ⟨A, J, rfl, hA, hJ, hc₃.symm⟩

theorem closing_passed (has : as ≠ .isOpen)
    (h : Passed (sturdy env t op) (closing now e vs as ph out).run w wm) :
    (∃ V A, (V = w.core.reservations ∨
        V = Core.reservationsClosed e vs w.core.reservations) ∧
      (A = w.core.attempts ∨ Core.attemptClosed now e.attemptId as w.core.attempts = some A) ∧
      wm.core = { w.core with attempts := A, reservations := V }) ∨
    ∃ A J, Core.attemptClosed now e.attemptId as w.core.attempts = some A ∧
      Core.journalClosed now e.attemptId ph w.core.journal = some J ∧
      wm.core = { w.core with
        attempts := A
        reservations := Core.reservationsClosed e vs w.core.reservations
        journal := J } := by
  rcases acts_passed (StoreOp.acts_updateReservationForAttempt e vs) h with
    hs | ⟨c₁, hsome, hs | ⟨_, w₁, hw₁, h⟩⟩
  · exact .inl ⟨_, _, .inl rfl, .inl rfl, hs⟩
  · exact .inl ⟨_, _, .inr rfl, .inl rfl, hs.trans (Option.some.inj hsome).symm⟩
  have hc₁ := hw₁.trans (Option.some.inj hsome).symm
  rcases acts_passed (StoreOp.acts_reconcileAttempt has) h with
    hs | ⟨c₂, hsome, hrest⟩
  · exact .inl ⟨_, _, .inr rfl, .inl rfl, hs.trans hc₁⟩
  obtain ⟨A, hA, hc₂⟩ := Option.map_eq_some_iff.mp hsome
  rw [hc₁] at hA hc₂
  rcases hrest with hs | ⟨_, w₂, hw₂, h⟩
  · exact .inl ⟨_, A, .inr rfl, .inr hA, hs.trans hc₂.symm⟩
  rcases acts_passed (StoreOp.acts_updateJournalPhase e.attemptId ph now) h with
    hs | ⟨c₃, hsome, hrest⟩
  · exact .inl ⟨_, A, .inr rfl, .inr hA, hs.trans (hw₂.trans hc₂.symm)⟩
  obtain ⟨J, hJ, hc₃⟩ := Option.map_eq_some_iff.mp hsome
  rw [hw₂, ← hc₂] at hJ hc₃
  refine .inr ⟨A, J, hA, hJ, ?_⟩
  rcases hrest with hs | ⟨_, w₃, hs, h⟩
  · exact hs.trans hc₃.symm
  · cases h
    exact hs.trans hc₃.symm

end

/-! ### the whole rollback -/

theorem restoreObject_onStore {prior : ReclaimObject} :
    Only OnStore (restoreObject now e prior).run := by
  refine only_bind (only_store ⟨_, rfl⟩) fun found => ?_
  cases found with
  | none => exact only_bind (only_store ⟨_, rfl⟩) fun _ => only_pure
  | some o =>
    have hrest : Only OnStore (if o.lifecycleState ≠ prior.lifecycleState then do
        store (.updateObject prior)
        pure (some (recoveryAudit now "RECOVERY_ROLLBACK" e (some o.lifecycleState)
          (some prior.lifecycleState) (.obj [("phase", .str e.phase.asStr)])))
      else pure none : M (Option AuditEntry)).run :=
      only_ite (only_bind (only_store ⟨_, rfl⟩) fun _ => only_pure) only_pure
    exact only_ite (only_bind only_throw fun _ => hrest) hrest

theorem Mild.onStore {c : Cmd} (h : Mild c) : OnStore c := ⟨h.choose, h.choose_spec.1⟩

theorem closing_onStore {vs : ReservationStatus} {as : AttemptStatus} {ph : JournalPhase}
    {out : ReconcileOutcome} : Only OnStore (closing now e vs as ph out).run :=
  only_bind (only_store ⟨_, rfl⟩) fun _ => only_bind (only_store ⟨_, rfl⟩) fun _ =>
    only_bind (only_store ⟨_, rfl⟩) fun _ => only_pure

theorem rollback_onStore : Only OnStore (rollback now e p).run := by
  refine only_bind restoreObject_onStore fun audit => ?_
  refine only_bind (restoreRollbackMetadata_mild.mono fun _ => Mild.onStore) fun _ => ?_
  refine only_bind (repairDedupCounts_mild.mono fun _ => Mild.onStore) fun _ => ?_
  cases audit with
  | none => exact closing_onStore
  | some a => exact only_bind (only_store ⟨_, rfl⟩) fun _ => closing_onStore

/-- `rollback` computes `Core.rollBack` -/
theorem rollback_ran {r : Res ReconcileOutcome} (hid : Identified e p) (hleg : w.store.Legible)
    (h : Ran (sturdy env t op) (rollback now e p).run w r w') :
    (r = .ok .rolledBack ∧ Core.rollBack e now p w.core = some w'.core) ∨
      (∃ err, r = .error err) ∧ Core.rollBack e now p w.core = none := by
  have hbad {err : ReclaimError} (hr : r = .error err)
      (hno : ∀ c', Core.rollBack e now p w.core ≠ some c') :
      (r = .ok .rolledBack ∧ Core.rollBack e now p w.core = some w'.core) ∨
        (∃ err, r = .error err) ∧ Core.rollBack e now p w.core = none :=
    .inr ⟨⟨err, hr⟩, Option.eq_none_iff_forall_ne_some.mpr hno⟩
  rcases ran_seq.mp h with ⟨err, hr, hx⟩ | ⟨audit, w₁, hx₁, h⟩
  · refine hbad hr fun c' hc' => ?_
    rcases restoreObject_ran hid.prior hid.generation hx with ⟨_, _, hno, -⟩ | ⟨-, hnone⟩
    · cases hno
    · cases hnone.symm.trans (Core.rollBack_some hc').1
  have hleg₁ := legible_passed restoreObject_onStore hx₁.passed hleg
  rcases restoreObject_ran hid.prior hid.generation hx₁ with
    ⟨O, _, ha, hO, hc₁, haudit⟩ | ⟨⟨_, hno⟩, -⟩
  swap
  · cases hno
  cases ha
  rcases ran_seq.mp h with ⟨err, hr, hx⟩ | ⟨_, w₂, hx₂, h⟩
  · refine hbad hr fun c' hc' => ?_
    obtain ⟨-, hR, hA, -⟩ := Core.rollBack_some hc'
    rcases restoreRollbackMetadata_ran hx with ⟨_, _, hno, -⟩ | ⟨-, hnone⟩
    · cases hno
    · rw [hc₁] at hnone
      rcases hnone with hnone | hnone
      · cases hnone.symm.trans hR
      · cases hnone.symm.trans hA
  have hleg₂ := legible_passed (restoreRollbackMetadata_mild.mono fun _ => Mild.onStore)
    hx₂.passed hleg₁
  rcases restoreRollbackMetadata_ran hx₂ with ⟨R, A, -, hR, hA, hc₂⟩ | ⟨⟨_, hno⟩, -⟩
  swap
  · cases hno
  rw [hc₁] at hR hA hc₂
  rcases ran_seq.mp h with ⟨err, hr, hx⟩ | ⟨notes, w₃, hx₃, h⟩
  · refine hbad hr fun c' hc' => ?_
    obtain ⟨hO', hR', -, hcount, -⟩ := Core.rollBack_some hc'
    rcases (repairDedupCounts_countable hleg₂ hx).2 with ⟨_, hno, -⟩ | ⟨-, hno⟩
    · cases hno
    · rw [hc₂] at hno
      rw [← Option.some.inj (hO.symm.trans hO'), ← Option.some.inj (hR.symm.trans hR')] at hcount
      cases hno.symm.trans hcount
  obtain ⟨hc₃, hrep⟩ := repairDedupCounts_countable hleg₂ hx₃
  rw [hc₂] at hc₃ hrep
  have hcount : Core.countable O R = true := by
    rcases hrep with ⟨_, -, hcount, -⟩ | ⟨⟨_, hno⟩, -⟩
    · exact hcount
    · cases hno
  -- the audit row changes none of the tables
  obtain ⟨w₄, hc₄, h⟩ : ∃ w₄, w₄.core = w₃.core ∧ Ran (sturdy env t op)
      (closing now e .released .rolledBack .rolledBack .rolledBack).run w₄ r w' := by
    cases audit with
    | none => exact ⟨w₃, rfl, h⟩
    | some a =>
      rcases acts_ran (StoreOp.acts_appendAudit a) h with ⟨-, hno⟩ | ⟨_, w₄, hsome, h⟩
      · rw [if_pos (haudit a rfl)] at hno
        cases hno
      · rw [if_pos (haudit a rfl)] at hsome
        exact ⟨w₄, (Option.some.inj hsome).symm, h⟩
  rw [hc₃] at hc₄
  rcases closing_ran (by decide) h with ⟨T, J, hr, hT, hJ, hc'⟩ | ⟨⟨err, hr⟩, hnone⟩
  · rw [hc₄] at hT hJ hc'
    exact .inl ⟨hr, by rw [Core.rollBack_eq_some hO hR hA hcount hT hJ, hc']⟩
  · rw [hc₄] at hnone
    refine hbad hr fun c' hc' => ?_
    obtain ⟨-, -, -, -, hT, hJ, -⟩ := Core.rollBack_some hc'
    rcases hnone with hnone | hnone
    · cases hnone.symm.trans hT
    · cases hnone.symm.trans hJ

/-- the tables where a rollback can be stopped -/
theorem rollback_passed {c' : Core} (hid : Identified e p) (hleg : w.store.Legible)
    (hback : Core.rollBack e now p w.core = some c')
    (h : Passed (sturdy env t op) (rollback now e p).run w wm) :
    Core.BackMid p w.core c' wm.core ∨ wm.core = c' := by
  obtain ⟨hO, hR, hA, -, hT, hJ, hV, hL⟩ := Core.rollBack_some hback
  have hstart : Core.BackMid p w.core c' w.core :=
    ⟨.inl rfl, ⟨[], _, rfl, rfl⟩, ⟨[], _, rfl, rfl⟩, .inl rfl, .inl rfl, rfl, rfl⟩
  -- the rows are back, and the entry may be closed in part
  have hend {V : Table Reservation.reservationId} {T : Table Attempt.attemptId}
      (hV' : V = w.core.reservations ∨ V = c'.reservations)
      (hT' : T = w.core.attempts ∨ T = c'.attempts)
      (hs : wm.core = ⟨c'.objects, c'.replicas, w.core.lineage, T, V, c'.archives,
        w.core.journal⟩) : Core.BackMid p w.core c' wm.core := by
    rw [hs]
    exact ⟨.inr rfl, ⟨_, [], (List.append_nil _).symm, hR⟩, ⟨_, [], (List.append_nil _).symm, hA⟩,
      hV', hT', rfl, rfl⟩
  rcases passed_seq h with hx | ⟨audit, w₁, hx₁, h⟩
  · refine .inl ?_
    rcases restoreObject_passed hid.prior hx with hs | ⟨O, hO', hs⟩
    · rw [hs]
      exact hstart
    · rw [hs, Option.some.inj (hO'.symm.trans hO)]
      exact ⟨.inr rfl, ⟨[], _, rfl, rfl⟩, ⟨[], _, rfl, rfl⟩, .inl rfl, .inl rfl, rfl, rfl⟩
  have hleg₁ := legible_passed restoreObject_onStore hx₁.passed hleg
  rcases restoreObject_ran hid.prior hid.generation hx₁ with
    ⟨O, _, ha, hO', hc₁, -⟩ | ⟨⟨_, hno⟩, -⟩
  swap
  · cases hno
  cases ha
  rw [Option.some.inj (hO'.symm.trans hO)] at hc₁
  rcases passed_seq h with hx | ⟨_, w₂, hx₂, h⟩
  · refine .inl ?_
    obtain ⟨xs, ys, xs', ys', R, A, hxs, hxs', hR', hA', hs⟩ := restoreRollbackMetadata_passed hx
    rw [hc₁] at hR' hA' hs
    rw [hs]
    exact ⟨.inr rfl, ⟨xs, ys, hxs, hR'⟩, ⟨xs', ys', hxs', hA'⟩, .inl rfl, .inl rfl, rfl, rfl⟩
  have hleg₂ := legible_passed (restoreRollbackMetadata_mild.mono fun _ => Mild.onStore)
    hx₂.passed hleg₁
  rcases restoreRollbackMetadata_ran hx₂ with ⟨R, A, -, hR', hA', hc₂⟩ | ⟨⟨_, hno⟩, -⟩
  swap
  · cases hno
  rw [hc₁] at hR' hA' hc₂
  rw [Option.some.inj (hR'.symm.trans hR), Option.some.inj (hA'.symm.trans hA)] at hc₂
  rcases passed_seq h with hx | ⟨notes, w₃, hx₃, h⟩
  · exact .inl (hend (.inl rfl) (.inl rfl) ((repairDedupCounts_passed hx).trans hc₂))
  have hc₃ := (repairDedupCounts_countable hleg₂ hx₃).1.trans hc₂
  obtain hs | ⟨w₄, hc₄, h⟩ : wm.core = w₃.core ∨ ∃ w₄, w₄.core = w₃.core ∧ Passed (sturdy env t op)
      (closing now e .released .rolledBack .rolledBack .rolledBack).run w₄ wm := by
    cases audit with
    | none => exact .inr ⟨w₃, rfl, h⟩
    | some a =>
      rcases acts_passed (StoreOp.acts_appendAudit a) h with hs | ⟨c, hsome, hrest⟩
      · exact .inl hs
      · have hc : w₃.core = c := by
          split at hsome
          · exact Option.some.inj hsome
          · cases hsome
        rcases hrest with hs | ⟨_, w₄, hs, h⟩
        · exact .inl (hs.trans hc.symm)
        · exact .inr ⟨w₄, hs.trans hc.symm, h⟩
  · exact .inl (hend (.inl rfl) (.inl rfl) (hs.trans hc₃))
  rw [hc₃] at hc₄
  rcases closing_passed (by decide) h with ⟨V, T, hV', hT', hs⟩ | ⟨T, J, hT', hJ', hs⟩
  · rw [hc₄] at hV' hT' hs
    refine .inl (hend ?_ ?_ hs)
    · exact hV'.imp_right fun hV' => hV'.trans hV.symm
    · exact hT'.imp_right fun hT' => Option.some.inj (hT'.symm.trans hT)
  · rw [hc₄] at hT' hJ' hs
    refine .inr ?_
    rw [hs, Option.some.inj (hT'.symm.trans hT), Option.some.inj (hJ'.symm.trans hJ)]
    show Core.mk c'.objects c'.replicas w.core.lineage c'.attempts _ c'.archives c'.journal = c'
    rw [← hV, ← hL]

end Coordinator

end ReclaimFabric
