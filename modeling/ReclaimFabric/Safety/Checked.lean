import ReclaimFabric.Safety.Store
import ReclaimFabric.Safety.Indeterminate

/-!
# Objects across a run

* `object_identity`    a registered object keeps its row, and the row what it was registered with;
* `reclaimed_checked`  behind every RECLAIMED row stands a reservation, made when the object passed
                       the checks of a reclaim.
-/

set_option linter.unusedSectionVars false

namespace ReclaimFabric

/-- what stays of a registered object to the last bit: the estimates that are floating-point
numbers go through the JSON text of a plan, and `serde_json` may read them back one unit off -/
def ReclaimObject.identity (o : ReclaimObject) : ReclaimObject :=
  { o.immut with
    reuseProbability := .dec 0 0
    recomputeCost := o.recomputeCost.map fun _ => .dec 0 0
    recomputeLatencySecs := o.recomputeLatencySecs.map fun _ => .dec 0 0
    transferCost := o.transferCost.map fun _ => .dec 0 0
    migrationCost := o.migrationCost.map fun _ => .dec 0 0
    storageCostPerByteSec := .dec 0 0
    memoryCostPerByteSec := .dec 0 0 }

theorem ReclaimObject.identity_immut (o : ReclaimObject) : o.immut.identity = o.identity := rfl

section
variable {env : Env} {mode : Mode} {s s' : Sys} {l : Label} {X : Uuid} {o o' : ReclaimObject}
  {j j' : JournalEntry} {e : Event}

/-! ## the record -/

theorem Sys.advance_log (s : Sys) (t : Tid) (th : Thread) :
    ∃ l, (s.advance t th).shared.log = l ++ s.shared.log := by
  rcases s.advance_shared t th with h | ⟨op, r, h⟩ <;> rw [h]
  · exact ⟨[], rfl⟩
  · exact ⟨[_], rfl⟩

/-- the record only grows -/
theorem Sys.next_log (hn : s.next env l = some s') :
    ∃ l, s'.shared.log = l ++ s.shared.log := by
  cases l with
  | start t op =>
    simp only [Sys.next] at hn
    split at hn
    · cases hn
      exact Sys.advance_log s t _
    · cases hn
  | step t i =>
    simp only [Sys.next] at hn
    split at hn
    · cases hn
    · split at hn
      · cases hn
      · split at hn
        · cases hn
        · next r shared he =>
          cases hn
          obtain ⟨x, -, hshared⟩ := Option.map_eq_some_iff.mp he
          cases hshared
          obtain ⟨l, hl⟩ := Sys.advance_log { s with shared := ⟨x.2, _ :: s.shared.log⟩ } t _
          exact ⟨l ++ [_], hl.trans (List.append_assoc l [_] s.shared.log).symm⟩
  | restart config bootId now => exact ⟨[.restarted], (Sys.restart_eq hn).2.2.2.2⟩

/-! ## identity -/

theorem Reach.next_immut (h : Reach env anyRun s) (hn : s.next env l = some s')
    (ho : rowOf s.shared X = some o) :
    ∃ o', rowOf s'.shared X = some o' ∧ o'.immut = o.immut := by
  have hi := h.free.inv Regime.free_collisionless
  rcases h.free.row Regime.free_collisionless (Regime.free_mode l) hn X with hsame | hnew
  · exact ⟨o, hsame.trans ho, rfl⟩
  · obtain ⟨t, i, th, o', -, -, ho', hj⟩ := hnew
    exact ⟨o', ho', hj.immut hi ho⟩

/-- **A registered object stays registered as what it is.** -/
theorem object_identity (h : Reach env anyRun s) (hl : Later env anyRun s s')
    (ho : rowOf s.shared X = some o) :
    ∃ o', rowOf s'.shared X = some o' ∧ o'.identity = o.identity ∧ o'.validate = .ok () ∧
      (o'.lifecycleState ≠ .created → o'.contentHash.isSome = true) := by
  have hrow : ∃ o', rowOf s'.shared X = some o' ∧ o'.immut = o.immut := by
    induction hl with
    | refl => exact ⟨o, ho, rfl⟩
    | next l hl _ hn ih =>
      obtain ⟨o₁, ho₁, h₁⟩ := ih
      obtain ⟨o₂, ho₂, h₂⟩ := (h.later hl).next_immut hn ho₁
      exact ⟨o₂, ho₂, h₂.trans h₁⟩
  obtain ⟨o', ho', himm⟩ := hrow
  have hok := ((h.later hl).free.inv Regime.free_collisionless).rows X o' ho'
  have hsame : o'.identity = o.identity := by
    rw [← o'.identity_immut, himm, o.identity_immut]
  exact ⟨o', ho', hsame, hok.valid, hok.hashed⟩

/-! ## checks -/

/-- the attempt was reserved when the object was as `prior`, and passed the checks -/
structure Admitted (j : JournalEntry) (o : ReclaimObject) (L : List Event) : Prop where
  reserved : ∃ e ∈ L, ∃ prior, e.Reserves j prior ∧ PriorOk prior j.createdAtMs ∧
    prior.immut = o.immut

theorem JournalEntry.Path.attempt (h : j.Path j') : j'.attemptId = j.attemptId ∧
    j'.objectId = j.objectId ∧ j'.createdAtMs = j.createdAtMs := by
  induction h with
  | refl => exact ⟨rfl, rfl, rfl⟩
  | tail _ hk ih =>
    exact ⟨hk.attemptId.trans ih.1, hk.objectId.trans ih.2.1, hk.createdAtMs.trans ih.2.2⟩

theorem Event.Reserves.later {prior : ReclaimObject} (h : e.Reserves j prior) (hp : j.Path j') :
    e.Reserves j' prior := by
  obtain ⟨hid, hX, hat⟩ := hp.attempt
  obtain ⟨t, req, j₀, r, a, before, he, h₁, h₂, h₃, h₄⟩ := h
  exact ⟨t, req, j₀, r, a, before, he, h₁.trans hid.symm, h₂.trans hX.symm, h₃.trans hat.symm,
    by rw [hX]; exact h₄⟩

theorem Admitted.later {L L' : List Event} (h : Admitted j o L) (hp : j.Path j')
    (hL : ∃ l, L' = l ++ L) (ho : o'.immut = o.immut) : Admitted j' o' L' := by
  obtain ⟨e, he, prior, hres, hok, himm⟩ := h.reserved
  obtain ⟨l, rfl⟩ := hL
  refine ⟨e, List.mem_append_right _ he, prior, hres.later hp, ?_, himm.trans ho.symm⟩
  rw [hp.attempt.2.2]
  exact hok

theorem RowJust.admitted {m : Regime} {b : Bool} {t : Tid} {op : Op} {w : Traced}
    (h : RowJust m t op w X o') (hi : Inv env m b w) (hr : o'.lifecycleState = .reclaimed) :
    (∃ o, rowOf w X = some o ∧ o.lifecycleState = .reclaimed) ∨
      ∃ j ∈ w.store.journal, j.objectId = X ∧ Admitted j o' w.log := by
  have hadm {j : JournalEntry} {o : ReclaimObject} (hj : j ∈ w.store.journal) (hX : j.objectId = X)
      (ho : rowOf w X = some o) (himm : o'.immut = o.immut) : Admitted j o' w.log := by
    obtain ⟨S, plan, hrec⟩ := hi.journal j hj
    obtain ⟨e, he, hres⟩ := hrec.logged
    rw [← hX] at ho
    exact ⟨e, he, S.prior, hres, hrec.prior, (himm.trans (hrec.row_of ho)).symm⟩
  have himm {o : ReclaimObject} (ho : rowOf w X = some o) : o'.immut = o.immut := h.immut hi ho
  cases h with
  | create _ _ hst =>
    rw [hr] at hst
    rcases hst with hst | hst <;> cases hst
  | flags _ ho _ hst => exact .inl ⟨_, ho, hst.symm.trans hr⟩
  | tier _ _ _ _ _ hst _ =>
    rw [hr] at hst
    rcases hst with hst | hst | hst <;> cases hst
  | route _ _ _ _ _ _ _ hnew _ =>
    rcases hnew with rfl | rfl <;> cases hr
  | abort _ _ _ hj _ _ _ hp hnew =>
    subst hnew
    exact absurd hr (hi.records hj hp).prior.notReclaimed
  | commit _ _ ho hj hX _ _ hnew _ _ _ _ => exact .inr ⟨_, hj, hX, hadm hj hX ho (himm ho)⟩
  | rollback _ _ hj _ _ hp hnew _ =>
    subst hnew
    exact absurd hr (hi.records hj hp).prior.notReclaimed
  | recommit _ _ ho hj hX _ _ _ _ _ => exact .inr ⟨_, hj, hX, hadm hj hX ho (himm ho)⟩
  | abandon _ _ _ _ hnew =>
    subst hnew
    cases hr

theorem Reach.admitted (h : Reach env anyRun s) (ho : rowOf s.shared X = some o)
    (hr : o.lifecycleState = .reclaimed) :
    ∃ j ∈ s.shared.store.journal, j.objectId = X ∧ Admitted j o s.shared.log := by
  induction h generalizing o with
  | init => cases ho
  | @next s s' l hreach _ hn ih =>
    have hlog := Sys.next_log hn
    have hfwd := forward_stores (.single (Sys.next_store hn))
    have hi := hreach.free.inv Regime.free_collisionless
    have hold : ∃ j ∈ s.shared.store.journal, j.objectId = X ∧ Admitted j o s.shared.log := by
      rcases hreach.free.row Regime.free_collisionless (Regime.free_mode l) hn X with hsame | hnew
      · exact ih (hsame ▸ ho) hr
      · obtain ⟨t, i, th, o₁, -, -, ho₁, hj⟩ := hnew
        rw [ho] at ho₁
        cases ho₁
        rcases hj.admitted hi hr with ⟨o₀, ho₀, hr₀⟩ | hadm
        · obtain ⟨j, hmem, hX, ha⟩ := ih ho₀ hr₀
          exact ⟨j, hmem, hX, ha.later .refl ⟨[], rfl⟩ (hj.immut hi ho₀)⟩
        · exact hadm
    obtain ⟨j, hj, hX, ha⟩ := hold
    obtain ⟨j', hj', hp⟩ := hfwd.kept j hj
    exact ⟨j', hj', hp.attempt.2.1.trans hX, ha.later hp hlog rfl⟩

/-- **Every reclaimed object passed the checks.** -/
theorem reclaimed_checked (h : Reach env anyRun s) (ho : rowOf s.shared X = some o)
    (hr : o.lifecycleState = .reclaimed) :
    ∃ j ∈ s.shared.store.journal, j.objectId = X ∧ Admitted j o s.shared.log ∧
      o.durabilityClass.minValidCopies = 0 := by
  obtain ⟨j, hj, hX, ha⟩ := h.admitted ho hr
  obtain ⟨-, -, prior, -, hok, himm⟩ := ha.reserved
  have hclass : prior.durabilityClass = o.durabilityClass := by
    have := congrArg ReclaimObject.durabilityClass himm
    exact this
  exact ⟨j, hj, hX, ha, hclass ▸ hok.copies⟩

end

namespace Sample

/-- the row of the object in two states of a reclaim -/
theorem rowCommitted_states : (validatedReclaim.bind fun s => (rowCommitted s).bind fun s' =>
    (rowOf s.shared (uuid 10)).bind fun o => (rowOf s'.shared (uuid 10)).map fun o' =>
      (o.lifecycleState, o'.lifecycleState)) = some (.reclaimPending, .reclaimed) := by
  decide +kernel

end Sample

/-- the object goes from RECLAIM_PENDING to RECLAIMED -/
theorem object_identity_reclaimed : ∃ (s s' : Sys) (o o' : ReclaimObject),
    Reach Sample.env anyRun s ∧ rowOf s.shared (Sample.uuid 10) = some o ∧
    o.lifecycleState = .reclaimPending ∧
    rowOf s'.shared (Sample.uuid 10) = some o' ∧ o'.lifecycleState = .reclaimed ∧
      o'.identity = o.identity := by
  obtain ⟨s, hs, h⟩ := Option.bind_eq_some_iff.mp Sample.rowCommitted_states
  obtain ⟨s', hs', h⟩ := Option.bind_eq_some_iff.mp h
  obtain ⟨o, ho, h⟩ := Option.bind_eq_some_iff.mp h
  obtain ⟨o', ho', h⟩ := Option.map_eq_some_iff.mp h
  obtain ⟨hst, hst'⟩ := Prod.mk.inj h
  have hr := Sample.reached_validatedReclaim s hs
  obtain ⟨o₁, ho₁, himm, -⟩ := object_identity hr (Later.steps? Sample.free_ok .refl hs') ho
  rw [ho'] at ho₁
  cases ho₁
  exact ⟨s, s', o, o', hr, ho, hst, ho', hst', himm⟩

/-- the row that has just been committed -/
theorem reclaimed_checked_committed : ∃ (s : Sys) (o : ReclaimObject) (j : JournalEntry),
    Reach Sample.env anyRun s ∧ rowOf s.shared (Sample.uuid 10) = some o ∧ o.lifecycleState = .reclaimed ∧
      j.objectId = Sample.uuid 10 ∧ Admitted j o s.shared.log := by
  obtain ⟨s, hs, h⟩ := Option.bind_eq_some_iff.mp Sample.rowCommitted_states
  obtain ⟨s', hs', h⟩ := Option.bind_eq_some_iff.mp h
  obtain ⟨o, -, h⟩ := Option.bind_eq_some_iff.mp h
  obtain ⟨o', ho', h⟩ := Option.map_eq_some_iff.mp h
  obtain ⟨-, hst⟩ := Prod.mk.inj h
  have hr : Reach Sample.env anyRun s' := (Sample.reached_validatedReclaim s hs).later
    (Later.steps? Sample.free_ok .refl hs')
  obtain ⟨j, -, hX, ha, -⟩ := reclaimed_checked hr ho' hst
  exact ⟨s', o', j, hr, ho', hst, hX, ha⟩

end ReclaimFabric
