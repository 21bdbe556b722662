import ReclaimFabric.Lineage.Load
import ReclaimFabric.Recovery.Again

/-!
# Recovery and corrupt lineage

`reconcile_store` loads the lineage graph after it has reconciled every other table, and then
validates it.  Loading a graph already refuses what validation would report, so a corrupt lineage
table is never reported: the call fails.

* `reconcileTables`      everything before the lineage, `reportLineage` the rest;
* `sturdy`               the steps of a process whose database does not fail;
* `Consistent`           nothing but the lineage can be in the way;
* `Reported`             the report the documentation promises;
* `lineage_reported_iff` the call reports the state of the lineage exactly when there is nothing to
                         report.
-/

set_option linter.unusedSectionVars false

namespace ReclaimFabric

open Prog (Ran Only settle attempt)

namespace Coordinator

/-- the steps of `reconcile_store` before the lineage -/
def reconcileTables (physical : JournalPayload → M Bool) (now : Int) : M RecoveryReport := do
  let entries ← store .listOpenJournal
  let report ← reconcileEntries physical now entries ⟨0, [], [], 0, [], true, []⟩
  let reservations ← store .listOpenReservations
  let abandoned ← expireReservations now reservations 0
  let repairs ← repairDedupCounts
  pure { report with abandonedReservations := abandoned, dedupRepairs := repairs }

/-- its last step: load the graph, and report what validation says -/
def reportLineage (report : RecoveryReport) : M RecoveryReport := do
  let graph ← store .lineageGraph
  match graph.validate with
  | .ok () => pure report
  | .error e => pure { report with
      lineageOk := false, errors := report.errors ++ [s!"lineage validation: {e}"] }

end Coordinator

section
variable {env : Env} {t : Tid} {op : Op} {w w' : Traced} {physical : JournalPayload → M Bool}
  {now : Int} {e : JournalEntry} {p : ParsedJournalPayload}

/-! ## the two parts -/

section
variable {exec : (c : Cmd) → Input → Traced → Option (c.Reply × Traced)} {α β γ : Type}

/-- a run of `x` is one of `y`, and one of `z` after it when `y` returns -/
def Splits (exec : (c : Cmd) → Input → Traced → Option (c.Reply × Traced)) (x : M β) (y : M α)
    (z : α → M β) : Prop :=
  ∀ w r w', Ran exec x.run w r w' →
    (∃ err, r = .error err ∧ Ran exec y.run w (.error err) w') ∨
    ∃ a w₁, Ran exec y.run w (.ok a) w₁ ∧ Ran exec (z a).run w₁ r w'

theorem splits_pure {a : α} {z : α → M β} : Splits exec (z a) (pure a) z :=
  fun w _ _ h => .inr ⟨a, w, ran_pure.mpr ⟨rfl, rfl⟩, h⟩

/-- a first step that both have -/
theorem splits_bind {v : M γ} {x : γ → M β} {y : γ → M α} {z : α → M β}
    (hsplit : ∀ b, Splits exec (x b) (y b) z) : Splits exec (v >>= x) (v >>= y) z := by
  intro w r w' h
  rcases ran_seq.mp h with ⟨err, rfl, hv⟩ | ⟨b, w₁, hv, hx⟩
  · exact .inl ⟨err, rfl, ran_seq.mpr (.inl ⟨err, rfl, hv⟩)⟩
  rcases hsplit b w₁ r w' hx with ⟨err, rfl, hy⟩ | ⟨a, w₂, hy, hz⟩
  · exact .inl ⟨err, rfl, ran_seq.mpr (.inr ⟨b, w₁, hv, hy⟩)⟩
  · exact .inr ⟨a, w₂, ran_seq.mpr (.inr ⟨b, w₁, hv, hy⟩), hz⟩

theorem splits_reconcileStore : Splits exec (Coordinator.reconcileStore physical now)
    (Coordinator.reconcileTables physical now) Coordinator.reportLineage :=
  splits_bind fun _ => splits_bind fun _ => splits_bind fun _ => splits_bind fun _ =>
    splits_bind fun _ => splits_pure (z := Coordinator.reportLineage)

end

/-! ## what the tables before the lineage keep of it -/

/-- the same objects, by id, and the same edges -/
structure SameGraph (w w' : Traced) : Prop where
  ids : w'.store.objects.rows.map ReclaimObject.id = w.store.objects.rows.map ReclaimObject.id
  lineage : w'.store.lineage = w.store.lineage

theorem SameGraph.refl (w : Traced) : SameGraph w w := ⟨rfl, rfl⟩

theorem SameGraph.trans {w₁ : Traced} (h : SameGraph w w₁) (h' : SameGraph w₁ w') :
    SameGraph w w' := ⟨h'.ids.trans h.ids, h'.lineage.trans h.lineage⟩

/-- the method creates no object and no edge -/
def StoreOp.tame : StoreOp → Bool
  | .updateObject _ => true
  | .appendAudit _ => true
  | .updateJournalPhase _ _ _ => true
  | so => so.mild

/-- the command is a tame store method -/
def Tame (c : Cmd) : Prop := ∃ so, c = .store so ∧ so.tame = true

theorem ids_replace (T : Table ReclaimObject.id) (o : ReclaimObject) :
    (T.replace o).rows.map ReclaimObject.id = T.rows.map ReclaimObject.id := by
  show (T.rows.map fun x => if x.id = o.id then o else x).map ReclaimObject.id = _
  rw [List.map_map]
  refine List.map_congr_left fun x _ => ?_
  show (if x.id = o.id then o else x).id = x.id
  by_cases h : x.id = o.id
  · rw [if_pos h, h]
  · rw [if_neg h]

theorem StoreOp.run_tame {so : StoreOp} (hm : so.tame = true) {s s' : Store} {r : so.Out}
    (h : so.run s = .ok (r, s')) :
    s'.objects.rows.map ReclaimObject.id = s.objects.rows.map ReclaimObject.id ∧
      s'.lineage = s.lineage := by
  by_cases hmild : so.mild = true
  · obtain ⟨-, hl, ho⟩ := StoreOp.run_mild hmild h
    exact ⟨by rw [ho], hl⟩
  cases so with
  | updateObject o =>
    obtain ⟨-, -, -, hd⟩ := Store.updateObject_ok h
    refine ⟨?_, congrArg Data.lineage hd⟩
    rw [show s'.objects = s.objects.replace o from congrArg Data.objects hd]
    exact ids_replace s.objects o
  | appendAudit a =>
    have hcalm : (StoreOp.appendAudit a).calm = true := rfl
    have hd : s'.data = s.data := StoreOp.run_calm hcalm h
    exact ⟨by rw [show s'.objects = s.objects from congrArg Data.objects hd],
      congrArg Data.lineage hd⟩
  | updateJournalPhase id phase n =>
    obtain ⟨_, _, T, -, -, -, -, hd⟩ := Store.updateJournalPhase_ok h
    exact ⟨by rw [show s'.objects = s.objects from congrArg Data.objects hd],
      congrArg Data.lineage hd⟩
  | _ => exact absurd hm hmild

theorem tame_store {so : StoreOp} (h : so.tame = true) : Only Tame (Coordinator.store so).run :=
  only_store ⟨so, rfl, h⟩

theorem Mild.tame {c : Cmd} (h : Mild c) : Tame c := by
  obtain ⟨so, rfl, hm⟩ := h
  refine ⟨so, rfl, ?_⟩
  cases so <;> first | exact hm | rfl

/-- a run of tame methods -/
theorem sameGraph_of_tame {α : Type} {x : M α} {r : Res α} (h : Only Tame x.run)
    (hr : Ran (Traced.exec env t op) x.run w r w') : SameGraph w w' := by
  refine h.ran (K := SameGraph w) ?_ hr (.refl w)
  rintro c i w₁ r₁ w₂ ⟨so, rfl, hm⟩ he hw
  rcases store_step he with ⟨_, -, hs⟩ | ⟨_, -, hrun⟩
  · exact hw.trans ⟨by rw [hs], by rw [hs]⟩
  · obtain ⟨hids, hl⟩ := StoreOp.run_tame hm hrun
    exact hw.trans ⟨hids, hl⟩

theorem commitObject_tame {current : ReclaimObject} :
    Only Tame (Coordinator.commitObject now e current).run := by
  refine only_ite ?_ only_pure
  exact only_bind (tame_store rfl) fun _ => tame_store rfl

theorem commitAfterCrash_tame : Only Tame (Coordinator.commitAfterCrash now e p).run := by
  refine only_bind (tame_store rfl) fun found => ?_
  cases found with
  | none => exact only_throw
  | some current =>
    have hrest : Only Tame (do
        let replicas ← Coordinator.store .allReplicas
        Coordinator.commitReplicas e replicas p.replicaDeletions
        let archives ← Coordinator.store .listArchives
        Coordinator.commitArchives e archives p.archiveDeletions
        Coordinator.commitObject now e current
        Coordinator.store (.updateReservationForAttempt e.attemptId .committed)
        Coordinator.store (.reconcileAttempt e.attemptId .committed now)
        Coordinator.store (.updateJournalPhase e.attemptId .committed now)
        pure .committed : M ReconcileOutcome).run := by
      refine only_bind (tame_store rfl) fun _ => ?_
      refine only_bind (commitReplicas_mild.mono fun _ => Mild.tame) fun _ => ?_
      refine only_bind (tame_store rfl) fun _ => ?_
      refine only_bind (commitArchives_mild.mono fun _ => Mild.tame) fun _ => ?_
      refine only_bind commitObject_tame fun _ => only_bind (tame_store rfl) fun _ => ?_
      exact only_bind (tame_store rfl) fun _ => only_bind (tame_store rfl) fun _ => only_pure
    exact only_ite (only_bind only_throw fun _ => hrest) hrest

theorem abandon_tame {v : Reservation} : Only Tame (Coordinator.abandon now v).run := by
  have hrest : Only Tame (do
      Coordinator.store (.updateReservation v.reservationId .expired)
      Coordinator.store (.reconcileAttempt v.attemptId .failed now) : M Unit).run :=
    only_bind (tame_store rfl) fun _ => tame_store rfl
  refine only_bind (tame_store rfl) fun found => ?_
  cases found with
  | none => exact hrest
  | some o =>
    refine only_ite ?_ hrest
    exact only_bind (tame_store rfl) fun _ => only_bind (tame_store rfl) fun _ => hrest

theorem expireReservations_tame {vs : List Reservation} {n : Nat} :
    Only Tame (Coordinator.expireReservations now vs n).run := by
  induction vs generalizing n with
  | nil => exact only_pure
  | cons v vs ih =>
    refine only_ite (only_bind (tame_store rfl) fun j => ?_) ih
    exact only_ite ih (only_bind abandon_tame fun _ => ih)

/-! ## journals -/

/-- an object that exists is not created again -/
theorem restoreObject_sameGraph {prior : ReclaimObject} {r : Res (Option AuditEntry)}
    (hrow : e.objectId ∈ w.store.objects.rows.map ReclaimObject.id)
    (h : Ran (Traced.exec env t op) (Coordinator.restoreObject now e prior).run w r w') :
    SameGraph w w' := by
  rcases ran_seq.mp h with ⟨err, -, h⟩ | ⟨found, w₁, hget, h⟩
  · exact sameGraph_of_tame (tame_store rfl) h
  have hsame := sameGraph_of_tame (tame_store rfl) hget
  refine hsame.trans ?_
  cases found with
  | none =>
    rcases ran_store hget with ⟨_, hno, -⟩ | ⟨a, ha, hrun⟩
    · cases hno
    · cases ha
      have hnone : w.store.objects.find? e.objectId = none :=
        congrArg Prod.fst (Except.ok.inj hrun)
      obtain ⟨o, ho, hid⟩ := List.mem_map.mp hrow
      exact absurd hid (Table.find?_eq_none.mp hnone o ho)
  | some o =>
    refine sameGraph_of_tame ?_ h
    have hrest : Only Tame (if o.lifecycleState ≠ prior.lifecycleState then do
        Coordinator.store (.updateObject prior)
        pure (some (Coordinator.recoveryAudit now "RECOVERY_ROLLBACK" e (some o.lifecycleState)
          (some prior.lifecycleState) (.obj [("phase", .str e.phase.asStr)])))
      else pure none : M (Option AuditEntry)).run :=
      only_ite (only_bind (tame_store rfl) fun _ => only_pure) only_pure
    exact only_ite (only_bind only_throw fun _ => hrest) hrest

theorem rollback_sameGraph {r : Res ReconcileOutcome}
    (hrow : e.objectId ∈ w.store.objects.rows.map ReclaimObject.id)
    (h : Ran (Traced.exec env t op) (Coordinator.rollback now e p).run w r w') :
    SameGraph w w' := by
  rcases ran_seq.mp h with ⟨err, -, h⟩ | ⟨audit, w₁, hobj, h⟩
  · exact restoreObject_sameGraph hrow h
  refine (restoreObject_sameGraph hrow hobj).trans (sameGraph_of_tame ?_ h)
  have hrest : Only Tame (do
      Coordinator.store (.updateReservationForAttempt e.attemptId .released)
      Coordinator.store (.reconcileAttempt e.attemptId .rolledBack now)
      Coordinator.store (.updateJournalPhase e.attemptId .rolledBack now)
      pure .rolledBack : M ReconcileOutcome).run :=
    only_bind (tame_store rfl) fun _ => only_bind (tame_store rfl) fun _ =>
      only_bind (tame_store rfl) fun _ => only_pure
  refine only_bind (restoreRollbackMetadata_mild.mono fun _ => Mild.tame) fun _ => ?_
  refine only_bind (repairDedupCounts_mild.mono fun _ => Mild.tame) fun _ => ?_
  cases audit with
  | none => exact hrest
  | some a => exact only_bind (tame_store rfl) fun _ => hrest

theorem Unchanged.sameGraph (h : Unchanged w w') : SameGraph w w' :=
  ⟨by rw [show w'.store.objects = w.store.objects from congrArg Data.objects h.1],
    congrArg Data.lineage h.1⟩

theorem Resolution.sameGraph {r : Res ReconcileOutcome} (h : Resolution env t op now e w r w')
    (hrow : e.objectId ∈ w.store.objects.rows.map ReclaimObject.id) : SameGraph w w' := by
  cases h with
  | unreadable err _ => exact .refl w
  | closed _ => exact .refl w
  | unresolved err _ _ hsame => exact hsame.sameGraph
  | committed p w₁ _ hsame _ hrun =>
    exact hsame.sameGraph.trans (sameGraph_of_tame commitAfterCrash_tame hrun)
  | rolledBack p w₁ _ hsame _ hrun =>
    refine hsame.sameGraph.trans (rollback_sameGraph ?_ hrun)
    rw [hsame.sameGraph.ids]
    exact hrow

theorem Reconciled.sameGraph {outs : List (JournalEntry × Res ReconcileOutcome)}
    (h : Reconciled env t op now outs w w')
    (hrows : ∀ x ∈ outs, x.1.objectId ∈ w.store.objects.rows.map ReclaimObject.id) :
    SameGraph w w' := by
  induction h with
  | nil w => exact .refl w
  | cons hone _ ih =>
    have hsame := hone.sameGraph (hrows _ List.mem_cons_self)
    refine hsame.trans (ih fun x hx => ?_)
    rw [hsame.ids]
    exact hrows x (List.mem_cons_of_mem _ hx)

/-- the loop over the journals says nothing about the lineage -/
theorem noteOutcomes_lineageOk (outs : List (JournalEntry × Res ReconcileOutcome))
    (report : RecoveryReport) :
    (outs.foldl (fun rep x => Coordinator.noteOutcome rep x.1 x.2) report).lineageOk =
      report.lineageOk := by
  induction outs generalizing report with
  | nil => rfl
  | cons x outs ih =>
    rw [List.foldl_cons, ih]
    unfold Coordinator.noteOutcome
    split <;> rfl

/-- every open journal is about an object that exists -/
def JournalsOwned (s : Store) : Prop :=
  ∀ j ∈ s.journal, j.phase.isOpen = true → j.objectId ∈ s.objects.rows.map ReclaimObject.id

theorem reconcileTables_sameGraph {r : Res RecoveryReport} (howned : JournalsOwned w.store)
    (h : Ran (Traced.exec env t op)
      (Coordinator.reconcileTables Coordinator.physicalState now).run w r w') :
    SameGraph w w' ∧ ∀ rep, r = .ok rep → rep.lineageOk = true := by
  rcases ran_seq.mp h with ⟨err, rfl, herr⟩ | ⟨entries, w₁, hlist, hrest⟩
  · exact ⟨sameGraph_of_tame (tame_store rfl) herr, nofun⟩
  have hsame₁ := sameGraph_of_tame (tame_store rfl) hlist
  have hrows : ∀ e ∈ entries, e.objectId ∈ w₁.store.objects.rows.map ReclaimObject.id := by
    intro e he
    rcases ran_store hlist with ⟨_, hno, -⟩ | ⟨a, ha, hrun⟩
    · cases hno
    · cases ha
      obtain ⟨hmem, hopen⟩ := (Store.listOpenJournal_ok hrun).mp he
      rw [hsame₁.ids]
      exact howned e hmem hopen
  have hentries {x : Res RecoveryReport} {w₂ : Traced} (hx : Ran (Traced.exec env t op)
      (Coordinator.reconcileEntries Coordinator.physicalState now entries
        ⟨0, [], [], 0, [], true, []⟩).run w₁ x w₂) :
      SameGraph w₁ w₂ ∧ ∀ rep, x = .ok rep → rep.lineageOk = true := by
    obtain ⟨outs, hes, hrec, hx⟩ := reconcileEntries_reconciled hx
    refine ⟨hrec.sameGraph fun y hy => ?_, ?_⟩
    · refine hrows y.1 ?_
      rw [← hes]
      exact List.mem_map_of_mem hy
    · rintro rep rfl
      rw [Except.ok.inj hx]
      exact noteOutcomes_lineageOk outs _
  rcases ran_seq.mp hrest with ⟨err, rfl, herr⟩ | ⟨report, w₂, hx, hrest⟩
  · exact ⟨hsame₁.trans (hentries herr).1, nofun⟩
  obtain ⟨hsame₂, hok⟩ := hentries hx
  have htail : Only Tame (do
      let reservations ← Coordinator.store .listOpenReservations
      let abandoned ← Coordinator.expireReservations now reservations 0
      let repairs ← Coordinator.repairDedupCounts
      pure { report with abandonedReservations := abandoned, dedupRepairs := repairs } :
        M RecoveryReport).run :=
    only_bind (tame_store rfl) fun _ => only_bind expireReservations_tame fun _ =>
      only_bind (repairDedupCounts_mild.mono fun _ => Mild.tame) fun _ => only_pure
  refine ⟨(hsame₁.trans hsame₂).trans (sameGraph_of_tame htail hrest), ?_⟩
  rintro rep rfl
  obtain ⟨_, _, -, hrest⟩ := ran_seq_ok hrest
  obtain ⟨_, _, -, hrest⟩ := ran_seq_ok hrest
  obtain ⟨_, _, -, hrest⟩ := ran_seq_ok hrest
  obtain ⟨hrep, -⟩ := ran_pure.mp hrest
  cases hrep
  exact hok report rfl

end

/-! ## a database that does not fail -/

/-- the steps of a process whose database does not fail; the backends may -/
def sturdy (env : Env) (t : Tid) (op : Op) (c : Cmd) (i : Input) (w : Traced) :
    Option (c.Reply × Traced) :=
  match c with
  | .store so => Traced.exec env t op (.store so) { i with fault := none } w
  | c => Traced.exec env t op c i w

section
variable {env : Env} {t : Tid} {op : Op} {w w' : Traced} {now : Int}

theorem sturdy_exec {c : Cmd} {i : Input} {x : c.Reply × Traced}
    (h : sturdy env t op c i w = some x) : ∃ i', Traced.exec env t op c i' w = some x := by
  unfold sturdy at h
  split at h
  · exact ⟨_, h⟩
  · exact ⟨_, h⟩

theorem ran_of_sturdy {α : Type} {p : Prog Cmd Cmd.Reply α} {a : α}
    (h : Ran (sturdy env t op) p w a w') : Ran (Traced.exec env t op) p w a w' := by
  induction h with
  | ret => exact .ret
  | call he _ ih =>
    obtain ⟨i, hi⟩ := sturdy_exec he
    exact .call hi ih

/-- a store method returns what it computes -/
theorem sturdy_store {so : StoreOp} {r : Res so.Out}
    (h : Ran (sturdy env t op) (Coordinator.store so).run w r w') :
    (∃ err, r = .error err ∧ so.run w.store = .error err) ∨
      ∃ a, r = .ok a ∧ so.run w.store = .ok (a, w'.store) := by
  have h : Ran (sturdy env t op) (.call (.store so) fun x => .ret x) w r w' := h
  cases h with
  | call he h =>
    cases h
    obtain ⟨i, hi, he⟩ : ∃ i : Input, i.fault = none ∧
        Traced.exec env t op (.store so) i w = some (r, w') := ⟨_, rfl, he⟩
    obtain ⟨⟨b, y⟩, hy, hw⟩ := Option.map_eq_some_iff.mp he
    cases hw
    simp only [exec, execStore, hi, Option.some.injEq] at hy
    split at hy
    · next err hrun =>
      cases hy
      exact .inl ⟨err, rfl, hrun⟩
    · next a s hrun =>
      cases hy
      exact .inr ⟨a, rfl, hrun⟩

/-! ## the report -/

/-- the lineage rows form a graph without cycles over existing objects -/
abbrev Store.LineageSound (s : Store) : Prop :=
  Lineage.Sound (s.objects.rows.map ReclaimObject.id) s.lineage.rows

/-- the tables other than the lineage are readable and consistent: every open journal is about an
object that exists, and what `reconcile_store` does before it turns to the lineage succeeds -/
structure Consistent (env : Env) (t : Tid) (op : Op) (now : Int) (w : Traced) : Prop where
  owned : JournalsOwned w.store
  readable : ∀ r w', Ran (sturdy env t op)
    (Coordinator.reconcileTables Coordinator.physicalState now).run w r w' →
    ∃ report, r = .ok report

/-- a report that says whether the lineage is sound, with an error when it is not -/
def Reported (w : Traced) (r : Res RecoveryReport) : Prop :=
  ∃ report, r = .ok report ∧ (report.lineageOk = true ↔ w.store.LineageSound) ∧
    (report.lineageOk = false → ∃ err : ReclaimError, s!"lineage validation: {err}" ∈ report.errors)

/-- loading and validating the graph: an error, or a report without one -/
theorem reportLineage_ran {report : RecoveryReport} {r : Res RecoveryReport}
    (h : Ran (sturdy env t op) (Coordinator.reportLineage report).run w r w') :
    (¬w.store.LineageSound ∧ ∃ err, r = .error err) ∨ (w.store.LineageSound ∧ r = .ok report) := by
  rcases Store.lineageGraph_cases w.store with ⟨hbad, err, hload⟩ | ⟨hsound, g, hload, hvalid⟩
  · refine .inl ⟨hbad, ?_⟩
    rcases ran_seq.mp h with ⟨err', rfl, -⟩ | ⟨graph, w₁, hget, -⟩
    · exact ⟨err', rfl⟩
    · rcases sturdy_store hget with ⟨_, hno, -⟩ | ⟨a, -, hrun⟩
      · cases hno
      · cases hload.symm.trans hrun
  · refine .inr ⟨hsound, ?_⟩
    rcases ran_seq.mp h with ⟨err', rfl, herr⟩ | ⟨graph, w₁, hget, hrest⟩
    · rcases sturdy_store herr with ⟨_, -, hrun⟩ | ⟨a, hno, -⟩
      · cases hload.symm.trans hrun
      · cases hno
    · rcases sturdy_store hget with ⟨_, hno, -⟩ | ⟨a, ha, hrun⟩
      · cases hno
      · cases ha
        have hgraph : g = graph := congrArg Prod.fst (Except.ok.inj (hload.symm.trans hrun))
        rw [← hgraph] at hrest
        simp only [hvalid] at hrest
        exact (ran_pure.mp hrest).1

/-- **Recovery reports the state of the lineage exactly when there is nothing wrong with it.**  On a
store whose other tables are in order, a run of `reconcile_store` returns the promised report if and
only if the lineage rows form a graph without cycles over existing objects; else it fails. -/
theorem lineage_reported_iff {r : Res RecoveryReport} (hc : Consistent env t op now w)
    (h : Ran (sturdy env t op)
      (Coordinator.reconcileStore Coordinator.physicalState now).run w r w') :
    Reported w r ↔ w.store.LineageSound := by
  rcases splits_reconcileStore w r w' h with ⟨err, rfl, herr⟩ | ⟨report, w₁, htables, hlineage⟩
  · obtain ⟨_, hno⟩ := hc.readable _ _ herr
    cases hno
  obtain ⟨hsame, hok⟩ := reconcileTables_sameGraph hc.owned (ran_of_sturdy htables)
  have hsound : w₁.store.LineageSound ↔ w.store.LineageSound := by
    rw [Store.LineageSound, hsame.ids, hsame.lineage]
  rcases reportLineage_ran hlineage with ⟨hbad, err, rfl⟩ | ⟨hgood, rfl⟩
  · constructor
    · rintro ⟨_, hno, -⟩
      cases hno
    · exact fun hs => absurd (hsound.mpr hs) hbad
  · have htrue := hok report rfl
    refine ⟨fun _ => hsound.mp hgood, fun hs => ⟨report, rfl, ⟨fun _ => hs, fun _ => htrue⟩, ?_⟩⟩
    intro hfalse
    rw [htrue] at hfalse
    cases hfalse

/-! ## a store with nothing but objects and edges -/

/-- a read that returns `a` and the rest of the program -/
theorem sturdy_read {α : Type} {q : StoreOp} {a : q.Out} {f : q.Out → M α} {r : Res α}
    (hrun : q.run w.store = .ok (a, w.store))
    (h : Ran (sturdy env t op) (Coordinator.store q >>= f).run w r w') :
    ∃ w₁, w₁.store = w.store ∧ Ran (sturdy env t op) (f a).run w₁ r w' := by
  rcases ran_seq.mp h with ⟨err, -, hx⟩ | ⟨b, w₁, hx, hrest⟩
  · rcases sturdy_store hx with ⟨_, -, hno⟩ | ⟨_, hno, -⟩
    · cases hrun.symm.trans hno
    · cases hno
  · rcases sturdy_store hx with ⟨_, hno, -⟩ | ⟨c, hc, hb⟩
    · cases hno
    · obtain ⟨hac, hs⟩ := Prod.mk.inj (Except.ok.inj (hrun.symm.trans hb))
      rw [Except.ok.inj hc, ← hac] at hrest
      exact ⟨w₁, hs.symm, hrest⟩

/-- a store without journals, reservations, replicas and dedup rows is consistent -/
theorem Consistent.of_objects (hj : w.store.journal.rows = [])
    (hv : w.store.reservations.rows = []) (hr : w.store.replicas.rows = [])
    (hd : w.store.dedup.rows = []) : Consistent env t op now w := by
  refine ⟨fun j hm _ => ?_, fun r w' h => ?_⟩
  · rw [← Table.mem_rows, hj] at hm
    exact absurd hm List.not_mem_nil
  have hjournals : StoreOp.run .listOpenJournal w.store = .ok ([], w.store) := by
    show Except.ok (((w.store.journal.rows.filter _).insertionSort _), w.store) = _
    rw [hj]
    rfl
  obtain ⟨w₁, hs₁, h⟩ := sturdy_read hjournals h
  have hreservations : StoreOp.run .listOpenReservations w₁.store = .ok ([], w₁.store) := by
    show Except.ok (((w₁.store.reservations.rows.filter _).insertionSort _), w₁.store) = _
    rw [hs₁, hv]
    rfl
  obtain ⟨w₂, hs₂, h⟩ := sturdy_read hreservations h
  rcases ran_seq.mp h with ⟨err, -, hx⟩ | ⟨abandoned, w₃, hx, hrest⟩
  · cases (ran_pure.mp hx).1
  obtain ⟨-, rfl⟩ := ran_pure.mp hx
  rcases ran_seq.mp hrest with ⟨err, -, hx⟩ | ⟨repairs, w₄, -, hlast⟩
  · have hobjects : StoreOp.run .listObjects w₃.store = .ok (_, w₃.store) := rfl
    obtain ⟨w₄, hs₄, hx⟩ := sturdy_read hobjects hx
    have hreplicas : StoreOp.run .allReplicas w₄.store = .ok ([], w₄.store) := by
      show Except.ok (Store.sortReplicas w₄.store.replicas.rows, w₄.store) = _
      rw [hs₄, hs₂, hs₁, hr]
      rfl
    obtain ⟨w₅, hs₅, hx⟩ := sturdy_read hreplicas hx
    have hdedup : StoreOp.run .listDedup w₅.store = .ok ([], w₅.store) := by
      show Except.ok (w₅.store.dedup.rows.insertionSort _, w₅.store) = _
      rw [hs₅, hs₄, hs₂, hs₁, hd]
      rfl
    obtain ⟨w₆, -, hx⟩ := sturdy_read hdedup hx
    cases (ran_pure.mp hx).1
  · obtain ⟨rfl, -⟩ := ran_pure.mp hlast
    exact ⟨_, rfl⟩

end

namespace Sample

/-- one object, and one lineage row -/
def related (child : Nat) : Traced where
  store := { Store.new with
    objects := ⟨[object 10], by decide⟩
    lineage := ⟨[⟨uuid 10, uuid child, .dependsOn⟩], List.nodup_singleton _⟩ }
  payloads := fun _ _ => none
  blobs := fun _ _ => none
  proc := Proc.start config 1 (uuid 1)
  issued := []
  log := []

theorem related_consistent (child : Nat) : Consistent env 0 .recover 0 (related child) :=
  .of_objects rfl rfl rfl rfl

/-- the loader refuses the row, and with it the recovery -/
theorem dangling_fails :
    ((Coordinator.reconcileStore Coordinator.physicalState 0).run.eval (sturdy env 0 .recover)
      (calm 100) 0 (related 11)).any
      (fun x => match x.1 with
        | .ok _ => false
        | .error _ => true) = true := by
  decide +kernel

end Sample

theorem corrupt_lineage_not_reported : ∃ r w',
    Consistent Sample.env 0 .recover 0 (Sample.related 11) ∧
    Ran (sturdy Sample.env 0 .recover)
      (Coordinator.reconcileStore Coordinator.physicalState 0).run (Sample.related 11) r w' ∧
    ¬Reported (Sample.related 11) r := by
  obtain ⟨⟨r, w'⟩, hev, h⟩ := (Option.any_eq_true _ _).mp Sample.dangling_fails
  refine ⟨r, w', Sample.related_consistent 11, Prog.ran_of_eval hev, ?_⟩
  rintro ⟨report, rfl, -⟩
  cases h

theorem lineage_reported_iff_dangling : ∃ r w', Ran (sturdy Sample.env 0 .recover)
      (Coordinator.reconcileStore Coordinator.physicalState 0).run (Sample.related 11) r w' ∧
    (Reported (Sample.related 11) r ↔ (Sample.related 11).store.LineageSound) := by
  obtain ⟨⟨r, w'⟩, hev, -⟩ := (Option.any_eq_true _ _).mp Sample.dangling_fails
  have hran := Prog.ran_of_eval hev
  exact ⟨r, w', hran, lineage_reported_iff (Sample.related_consistent 11) hran⟩

end ReclaimFabric
