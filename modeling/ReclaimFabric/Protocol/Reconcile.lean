import ReclaimFabric.Protocol.Recover

/-!
# The recovery run

What `reconcile_store` decides for each open journal entry, and the passes after it.

* `physicalState`     the presence queries, answered truthfully where backends are;
* `reconcileEntries`  every entry is resolved or reported;
* `expireReservations`   a reservation whose journal is not open is dropped;
* `safe_recover`      the whole operation keeps the discipline.
-/

set_option linter.unusedSectionVars false

namespace ReclaimFabric

open Party (Triple)

variable {env : Env} {m : Regime} {b : Bool} {t : Tid} {w w' : Traced} {l : Bool}
  {j : JournalEntry} {clean : Bool} {todo : List JournalEntry} {S : Snapshot}
  {plan : Option (List Replica)} {now : Int}

/-! ## presence queries -/

/-- what the answer to a presence query tells about the backends -/
def Witnessed (m : Regime) (t : Tid) : Replica ⊕ ArchiveRecord → Bool → Traced → Prop
  | .inl r, d, w => Recovering t w ∧
      (m.honest = true → d = (w.payloads r.location.backend r.location.key).isSome)
  | .inr a, d, w => Recovering t w ∧ (w.proc.config.archive a.backend).isSome = true ∧
      (m.honest = true → d = (w.blobs a.backend a.key).isSome)

theorem stable_witnessed {x : Replica ⊕ ArchiveRecord} {d : Bool} :
    Stable env m t (Witnessed m t x d) := by
  intro w w' hk h
  cases x with
  | inl r =>
    obtain ⟨hrec, hd⟩ := h
    refine ⟨hk.recovering.mpr hrec, ?_⟩
    rw [(hk.data hrec).2.1]
    exact hd
  | inr a =>
    obtain ⟨hrec, hsome, hd⟩ := h
    refine ⟨hk.recovering.mpr hrec, ?_, ?_⟩
    · rw [hk.config]
      exact hsome
    · rw [(hk.data hrec).2.2]
      exact hd

theorem witnesses : Triple.Answers (party env m b t .recover) (Sweep m b t todo clean)
    (Witnessed m t) where
  firm := fun _ _ => stable_witnessed.firm
  payload := by
    intro r w i d x hw _ ha he
    refine @stable_witnessed env _ _ _ _ w _ (.of_quiet (Party.quiet_after (exec_calm rfl he)))
      ⟨hw.begun.recovering, fun hm => ?_⟩
    exact exec_exists_ok he (ha.answer hm).1
  node := by
    intro r n w i y x hw _ ha he hok
    refine @stable_witnessed env _ _ _ _ w _ (.of_quiet (Party.quiet_after (exec_calm rfl he)))
      ⟨hw.begun.recovering, fun hm => ?_⟩
    exact exec_nodeExists_ok he hok (ha.answer hm).2
  archive := by
    intro a w i d x hw _ hsome ha he
    refine @stable_witnessed env _ _ _ _ w _ (.of_quiet (Party.quiet_after (exec_calm rfl he)))
      ⟨hw.begun.recovering, hsome, fun hm => ?_⟩
    exact exec_archiveExists_ok he (ha.answer hm).1

/-! ## the decision -/

/-- the facts about an open entry that no step of recovery changes before it is reconciled -/
structure Readable (j : JournalEntry) (S : Snapshot) (plan : Option (List Replica)) : Prop where
  isOpen : j.phase.isOpen = true
  payload : j.payload = payloadOf S plan
  valid : S.prior.validate = .ok ()
  started : j.phase.physical = true → plan.isSome = true

theorem Readable.entryPayload (h : Readable j S plan) {p : ParsedJournalPayload}
    (hp : Coordinator.entryPayload j = .ok p) : p = ⟨S.prior, S.dels, plan, S.archs⟩ := by
  have hparse : parseJournalPayload (if j.phase = .reserved ∨ j.phase = .validated then
      j.payload.compatible else j.payload) = .ok ⟨S.prior, S.dels, plan, S.archs⟩ := by
    have hcomp : j.payload.compatible = j.payload := by
      rw [h.payload]
      rfl
    rw [hcomp, ite_self, h.payload]
    exact parseJournalPayload_payloadOf h.valid
  simp only [Coordinator.entryPayload, hparse, bind, Except.bind, pure, Except.pure] at hp
  split at hp
  · cases hp
  · split at hp
    · cases hp
    · split at hp
      · cases hp
      · cases hp
        rfl

/-- the decision for a physical entry -/
theorem reconcilePhysical {planned : List Replica} (h : Readable j S (some planned))
    (hph : j.phase.physical = true) (hnew : ∀ e ∈ todo, e.attemptId ≠ j.attemptId) :
    (party env m b t .recover).Triple false (Sweep m b t (j :: todo) clean)
      (Coordinator.reconcilePhysical Coordinator.physicalState now j
        ⟨S.prior, S.dels, some planned, S.archs⟩)
      (fun r w => r ≠ .failed ∧ Sweep m b t todo clean w) (fun _ => Sweep m b t todo false) := by
  refine Triple.ite (fun hempty => ?_) fun hempty => ?_
  · obtain ⟨hplan, harchs⟩ := hempty
    have hplan : planned = [] := by simpa using hplan
    have harchs : S.archs = [] := harchs
    have heq (w : Traced) : Equipped S j w := by
      intro _
      rw [harchs]
      exact nofun
    refine Triple.ite (fun hdone => ?_) fun hdone => ?_
    · refine Triple.pre (commitAfterCrash hph h.payload hnew) fun w hw => ⟨hw, heq w, ?_⟩
      refine fun _ => ⟨S, planned, h.payload, hph, fun _ _ => hdone, ?_, ?_⟩
      · rw [hplan]
        exact nofun
      · rw [harchs]
        exact nofun
    · refine Triple.pre (rollback h.isOpen h.payload hnew) fun w hw => ⟨hw, heq w, ?_⟩
      refine fun _ _ => ⟨S, planned, h.payload, .inl ⟨hplan, harchs, ?_⟩⟩
      revert hph hdone
      cases j.phase <;> decide
  · have hparse : parseJournalDeletions j.payload = .ok (S.dels, planned, S.archs) := by
      rw [h.payload, parseJournalDeletions, parseJournalPayload_payloadOf h.valid]
      rfl
    refine Triple.bind (Triple.post (Triple.physicalState hparse stable_sweep.firm witnesses)
      (fun _ _ h => h) fun _ _ h => h.weaken) fun x => ?_
    refine Triple.ite (fun hx => ?_) fun hx => ?_
    · -- something planned was found
      refine Triple.pre (rollback h.isOpen h.payload hnew) fun w hw => ⟨hw.1, ?_, ?_⟩
      · exact fun _ a ha => (hw.2.2 a ha).2.1
      · intro hm _
        refine ⟨S, planned, h.payload, .inr ?_⟩
        cases hpl : planned with
        | cons r rs =>
          have hr := (hw.2.1 r (by rw [hpl]; exact List.mem_cons_self)).2 hm
          refine .inl ⟨r, List.mem_cons_self, fun hnone => ?_⟩
          rw [hx, hnone] at hr
          cases hr
        | nil =>
          cases har : S.archs with
          | nil => exact absurd ⟨by rw [hpl], har⟩ hempty
          | cons a as =>
            have ha := (hw.2.2 a (by rw [har]; exact List.mem_cons_self)).2.2 hm
            refine .inr ⟨a, List.mem_cons_self, fun hnone => ?_⟩
            rw [hx, hnone] at ha
            cases ha
    · -- everything planned is gone
      have hx : x = false := by simpa using hx
      refine Triple.pre (commitAfterCrash hph h.payload hnew) fun w hw => ⟨hw.1, ?_, ?_⟩
      · exact fun _ a ha => (hw.2.2 a ha).2.1
      · intro hm
        refine ⟨S, planned, h.payload, hph, ?_, ?_, ?_⟩
        · exact fun hpl har => absurd ⟨by rw [hpl], har⟩ hempty
        · intro r hr
          have := (hw.2.1 r hr).2 hm
          rw [hx] at this
          exact Option.isNone_iff_eq_none.mp (by rw [← Option.not_isSome, ← this]; rfl)
        · intro a ha
          have := (hw.2.2 a ha).2.2 hm
          rw [hx] at this
          exact Option.isNone_iff_eq_none.mp (by rw [← Option.not_isSome, ← this]; rfl)

theorem reconcileEntry (h : Readable j S plan) (hnew : ∀ e ∈ todo, e.attemptId ≠ j.attemptId) :
    (party env m b t .recover).Triple false (Sweep m b t (j :: todo) clean)
      (Coordinator.reconcileEntry Coordinator.physicalState now j)
      (fun r w => r ≠ .failed ∧ Sweep m b t todo clean w) (fun _ => Sweep m b t todo false) := by
  refine Triple.bind (R := fun p w => p = ⟨S.prior, S.dels, plan, S.archs⟩ ∧
    Sweep m b t (j :: todo) clean w) (Triple.settle (fun p hp w hw => ⟨h.entryPayload hp, hw⟩)
      fun _ _ w hw => hw.weaken) fun p => Triple.of_pure fun hp => ?_
  subst hp
  have hback (hph : j.phase.physical = false) : (party env m b t .recover).Triple false
      (Sweep m b t (j :: todo) clean) (Coordinator.rollback now j ⟨S.prior, S.dels, plan, S.archs⟩)
      (fun r w => r ≠ .failed ∧ Sweep m b t todo clean w) (fun _ => Sweep m b t todo false) := by
    refine Triple.pre (rollback h.isOpen h.payload hnew) fun w hw => ⟨hw, ?_, ?_⟩
    · intro hph'
      rw [hph] at hph'
      cases hph'
    · intro _ hph'
      rw [hph] at hph'
      cases hph'
  have hdecide (hph : j.phase.physical = true) : (party env m b t .recover).Triple false
      (Sweep m b t (j :: todo) clean) (Coordinator.reconcilePhysical Coordinator.physicalState now j
        ⟨S.prior, S.dels, plan, S.archs⟩)
      (fun r w => r ≠ .failed ∧ Sweep m b t todo clean w) (fun _ => Sweep m b t todo false) := by
    obtain ⟨planned, rfl⟩ := Option.isSome_iff_exists.mp (h.started hph)
    exact reconcilePhysical h hph hnew
  have hopen := h.isOpen
  cases hph : j.phase with
  | reserved => exact hback (by rw [hph]; rfl)
  | validated => exact hback (by rw [hph]; rfl)
  | physicalStarted => exact hdecide (by rw [hph]; rfl)
  | physicalDone => exact hdecide (by rw [hph]; rfl)
  | committed => rw [hph] at hopen; cases hopen
  | rolledBack => rw [hph] at hopen; cases hopen
  | failed => rw [hph] at hopen; cases hopen

/-- every entry is resolved, or there is an error in the report -/
theorem reconcileEntries {es : List JournalEntry} {report : RecoveryReport}
    (hes : ∀ e ∈ es, ∃ S plan, Readable e S plan) (hnd : (es.map JournalEntry.attemptId).Nodup) :
    (party env m b t .recover).Triple false (Sweep m b t es (decide (report.errors = [])))
      (Coordinator.reconcileEntries Coordinator.physicalState now es report)
      (fun out w => Sweep m b t [] (decide (out.errors = [])) w)
      (fun _ => Begun m b t) := by
  induction es generalizing report with
  | nil => exact Triple.pure fun _ h => h
  | cons e es ih =>
    rw [List.map_cons, List.nodup_cons] at hnd
    obtain ⟨S, plan, hread⟩ := hes e List.mem_cons_self
    have hnew : ∀ x ∈ es, x.attemptId ≠ e.attemptId :=
      fun x hx hid => hnd.1 (hid ▸ List.mem_map_of_mem hx)
    refine Triple.attemptBind (reconcileEntry hread hnew) (fun r => Triple.of_pure fun hr => ?_)
      fun err => ?_
    · have hsame : (Coordinator.noteOutcome report e (.ok r)).errors = report.errors := by
        cases r with
        | committed => rfl
        | rolledBack => rfl
        | failed => exact absurd rfl hr
      rw [← hsame]
      exact ih (fun x hx => hes x (List.mem_cons_of_mem _ hx)) hnd.2
    · have hbad : (Coordinator.noteOutcome report e (.error err)).errors ≠ [] :=
        List.append_ne_nil_of_right_ne_nil _ (List.cons_ne_nil _ _)
      refine Triple.pre (ih (fun x hx => hes x (List.mem_cons_of_mem _ hx)) hnd.2) fun w hw => ?_
      rw [decide_eq_false hbad]
      exact hw

/-! ## stale reservations -/

/-- the attempt of a reservation is not unresolved -/
def Stale (r : Reservation) (w : Traced) : Prop :=
  ∀ x ∈ w.store.journal, x.attemptId = r.attemptId → x.phase.isOpen = false

/-- the reservations `rs` are still to be looked at -/
structure Expiring (m : Regime) (b : Bool) (t : Tid) (clean : Bool) (rs : List Reservation)
    (w : Traced) : Prop where
  sweep : Sweep m b t [] clean w
  listed : ∀ r ∈ rs, r ∈ w.store.reservations ∧ r.status = .isOpen

theorem stable_expiring {rs : List Reservation} :
    Stable env m t (Expiring m b t clean rs) := by
  intro w w' hk h
  refine ⟨stable_sweep w w' hk h.sweep, ?_⟩
  rw [(hk.tables h.sweep.begun.recovering).2.2.2.2.1]
  exact h.listed

theorem stable_staleAnd {r : Reservation} {rs : List Reservation} :
    Stable env m t (fun w => Expiring m b t clean rs w ∧ Stale r w) := by
  intro w w' hk h
  refine ⟨stable_expiring w w' hk h.1, ?_⟩
  rw [Stale, (hk.tables h.1.sweep.begun.recovering).2.2.2.2.2.2]
  exact h.2

/-- a step that leaves the journal alone and unresolved entries parked -/
theorem Sweep.of_parked (h : Sweep m b t [] clean w) (hs : Still w w')
    (hjou : w'.store.journal = w.store.journal)
    (hpark : m.honest = true → ∀ x ∈ w.store.journal, x.phase.isOpen = true → Parked x w →
      Parked x w') : Sweep m b t [] clean w' where
  begun := by
    refine ⟨hs.recovering.mpr h.begun.recovering, fun hb X => ?_⟩
    refine (h.begun.fine hb X).imp hs.authorityLost fun hf => ⟨?_, ?_⟩
    · rw [NoOpen, hjou]
      exact hf.resolved
    · rw [hjou]
      exact fun hm x hx hX hxo => hpark hm x hx hxo (hf.parked hm x hx hX hxo)
  queued := fun _ he => absurd he List.not_mem_nil
  rest := by
    rw [hjou]
    exact h.rest

/-- an object with a stale reservation has no parked reclaim -/
theorem Expiring.not_parked {r : Reservation} {rs : List Reservation}
    (h : Expiring m b t clean (r :: rs) w) (hst : Stale r w) (hi : Inv env m b w)
    {x : JournalEntry} (hx : x ∈ w.store.journal) (hxo : x.phase.isOpen = true)
    (hp : Parked x w) : x.objectId ≠ r.objectId ∧ x.attemptId ≠ r.attemptId := by
  have hne : x.attemptId ≠ r.attemptId := by
    intro hid
    rw [hst x hx hid] at hxo
    cases hxo
  refine ⟨?_, hne⟩
  intro hX
  obtain ⟨r', hr', hid, hX', ho⟩ := hp.reserved
  obtain ⟨hr, hro⟩ := h.listed r List.mem_cons_self
  have : r' = r := hi.single r' hr' r hr ho hro (hX'.trans hX)
  rw [this] at hid
  exact hne hid.symm

section
variable {r : Reservation} {rs : List Reservation}

/-- an abandoned object is marked FAILED -/
theorem markFailed {o : ReclaimObject} (hpend : o.lifecycleState = .reclaimPending) :
    (party env m b t .recover).Triple l
      (fun w => (Expiring m b t clean (r :: rs) w ∧ Stale r w) ∧ rowOf w r.objectId = some o)
      (Coordinator.store (.updateObject { o with lifecycleState := .failed }))
      (fun _ w => Expiring m b t clean (r :: rs) w ∧ Stale r w) (fun _ => Begun m b t) := by
  have hP : Stable env m t (fun w => (Expiring m b t clean (r :: rs) w ∧ Stale r w) ∧
      rowOf w r.objectId = some o) := by
    intro w w' hk h
    refine ⟨stable_staleAnd w w' hk h.1, ?_⟩
    rw [rowOf, (hk.tables h.1.1.sweep.begun.recovering).1]
    exact h.2
  refine Triple.store hP.firm ?_ fun _ _ _ _ _ h => h.1.1.sweep.begun
  intro w u s hw hi _ hrun
  obtain ⟨⟨hexp, hst⟩, hrow⟩ := hw
  obtain ⟨hv, hc, hd, hfind⟩ := StoreOp.writesRow_updateObject _ _ _ _ hrun
  have hid : o.id = r.objectId := Table.key_of_find? hrow
  have hfind : ∀ Y, (w.store.objects.replace { o with lifecycleState := .failed }).find? Y =
      if Y = r.objectId then some { o with lifecycleState := .failed } else rowOf w Y := by
    intro Y
    rw [← hid]
    exact hfind Y
  have hobj : s.objects = w.store.objects.replace { o with lifecycleState := .failed } :=
    congrArg Data.objects hd
  have hjou : s.journal = w.store.journal := congrArg Data.journal hd
  have hres : s.reservations = w.store.reservations := congrArg Data.reservations hd
  have hatt : s.attempts = w.store.attempts := congrArg Data.attempts hd
  constructor
  · refine .row Party.still_store hd hfind hid ⟨hv, hc, ?_⟩
      (.abandon rfl hexp.sweep.begun.recovering hrow hpend rfl)
    exact fun _ => (hi.rows _ o hrow).hashed (by rw [hpend]; decide)
  · refine ⟨⟨hexp.sweep.of_parked Party.still_store hjou ?_, ?_⟩, ?_⟩
    · intro _ x hx hxo hp
      have hne := (hexp.not_parked hst hi hx hxo hp).1
      refine ⟨?_, ?_, ?_⟩
      · show ∃ v ∈ s.reservations, _
        rw [hres]
        exact hp.reserved
      · show ∃ v ∈ s.attempts, _
        rw [hatt]
        exact hp.attempted
      · intro hph
        have := hp.physical hph
        rw [rowOf] at this ⊢
        show (∃ o, s.objects.find? x.objectId = some o ∧ _) ∧ _
        rw [hobj, hfind, if_neg hne]
        exact this
    · show ∀ v ∈ r :: rs, v ∈ s.reservations ∧ _
      rw [hres]
      exact hexp.listed
    · show ∀ x ∈ s.journal, _
      rw [hjou]
      exact hst

/-- the reservation is closed -/
theorem dropReservation (hnd : r.reservationId ∉ rs.map Reservation.reservationId) :
    (party env m b t .recover).Triple l
      (fun w => Expiring m b t clean (r :: rs) w ∧ Stale r w)
      (Coordinator.store (.updateReservation r.reservationId .expired))
      (fun _ w => Expiring m b t clean rs w ∧ Stale r w) (fun _ => Begun m b t) := by
  refine Triple.store stable_staleAnd.firm ?_ fun _ _ _ _ _ h => h.1.sweep.begun
  intro w u s hw hi _ hrun
  obtain ⟨hexp, hst⟩ := hw
  obtain ⟨x, _, _, hd⟩ := Store.updateReservation_ok hrun
  have hjou : s.journal = w.store.journal := congrArg Data.journal hd
  have hres : s.reservations = _ := congrArg Data.reservations hd
  -- other reservations stay
  have hkeep : ∀ v ∈ w.store.reservations, v.reservationId ≠ r.reservationId →
      v ∈ s.reservations := by
    intro v hv hne
    rw [hres, Store.closeReservations, Table.mem_updateWhere]
    refine ⟨v, hv, (if_neg ?_).symm⟩
    rw [Bool.and_eq_true, decide_eq_true_iff, not_and]
    exact fun he => absurd he hne
  constructor
  · exact .reservations Party.still_store hd fun _ _ _ => .inr hexp.sweep.begun.recovering
  · refine ⟨⟨hexp.sweep.of_parked Party.still_store hjou ?_, ?_⟩, ?_⟩
    · intro _ y hy hyo hp
      have hne := (hexp.not_parked hst hi hy hyo hp).2
      refine ⟨?_, ?_, ?_⟩
      · obtain ⟨v, hv, hid, hX, ho⟩ := hp.reserved
        refine ⟨v, hkeep v hv ?_, hid, hX, ho⟩
        intro he
        have : v = r := Table.eq_of_key hv (hexp.listed r List.mem_cons_self).1 he
        rw [this] at hid
        exact hne hid.symm
      · show ∃ v ∈ s.attempts, _
        rw [show s.attempts = w.store.attempts from congrArg Data.attempts hd]
        exact hp.attempted
      · intro hph
        have := hp.physical hph
        rw [rowOf] at this ⊢
        show (∃ o, s.objects.find? y.objectId = some o ∧ _) ∧ _
        rw [show s.objects = w.store.objects from congrArg Data.objects hd]
        exact this
    · intro v hv
      obtain ⟨hmem, ho⟩ := hexp.listed v (List.mem_cons_of_mem _ hv)
      exact ⟨hkeep v hmem fun he => hnd (he ▸ List.mem_map_of_mem hv), ho⟩
    · show ∀ x ∈ s.journal, _
      rw [hjou]
      exact hst

/-- the attempt of the reservation is closed -/
theorem dropAttempt :
    (party env m b t .recover).Triple l (fun w => Expiring m b t clean rs w ∧ Stale r w)
      (Coordinator.store (.reconcileAttempt r.attemptId .failed now))
      (fun _ => Expiring m b t clean rs) (fun _ => Begun m b t) := by
  refine Triple.store stable_staleAnd.firm ?_ fun _ _ _ _ _ h => h.1.sweep.begun
  intro w u s hw hi _ hrun
  obtain ⟨hexp, hst⟩ := hw
  rcases Store.reconcileAttempt_ok hrun with ⟨a, T, hfind, _, hswap, hd⟩ | rfl
  · have hres : s.reservations = w.store.reservations := congrArg Data.reservations hd
    constructor
    · exact .attempt Party.still_store hd hswap (.inr hexp.sweep.begun.recovering)
    · refine ⟨hexp.sweep.of_parked Party.still_store (congrArg Data.journal hd) ?_, ?_⟩
      · intro _ y hy hyo hp
        have hne : y.attemptId ≠ r.attemptId := by
          intro hid
          rw [hst y hy hid] at hyo
          cases hyo
        refine ⟨?_, ?_, ?_⟩
        · show ∃ v ∈ s.reservations, _
          rw [hres]
          exact hp.reserved
        · obtain ⟨v, hv, hid, hX, ho⟩ := hp.attempted
          refine ⟨v, ?_, hid, hX, ho⟩
          show v ∈ s.attempts
          rw [show s.attempts = T from congrArg Data.attempts hd, hswap.2.2.2.2]
          refine .inl ⟨hv, ?_⟩
          rw [hid, show a.attemptId = r.attemptId from Table.key_of_find? hfind]
          exact hne
        · intro hph
          have := hp.physical hph
          rw [rowOf] at this ⊢
          show (∃ o, s.objects.find? y.objectId = some o ∧ _) ∧ _
          rw [show s.objects = w.store.objects from congrArg Data.objects hd]
          exact this
      · show ∀ v ∈ rs, v ∈ s.reservations ∧ _
        rw [hres]
        exact hexp.listed
  · have hq : Quiet w ((party env m b t .recover).after
        (.store (.reconcileAttempt r.attemptId .failed now)) (.ok u) w w.toWorld) :=
      Party.quiet_after (Calm.refl _)
    exact ⟨.quiet hq, @stable_expiring env _ _ _ _ _ w _ (.of_quiet hq) hexp⟩

theorem abandon (hnd : r.reservationId ∉ rs.map Reservation.reservationId) :
    (party env m b t .recover).Triple l
      (fun w => Expiring m b t clean (r :: rs) w ∧ Stale r w) (Coordinator.abandon now r)
      (fun _ => Expiring m b t clean rs) (fun _ => Begun m b t) := by
  have hdrop : (party env m b t .recover).Triple l
      (fun w => Expiring m b t clean (r :: rs) w ∧ Stale r w) (do
        Coordinator.store (.updateReservation r.reservationId .expired)
        Coordinator.store (.reconcileAttempt r.attemptId .failed now))
      (fun _ => Expiring m b t clean rs) (fun _ => Begun m b t) :=
    Triple.bind (dropReservation hnd) fun _ => dropAttempt
  have hrow (o : Option ReclaimObject) : Stable env m t (fun w =>
      (Expiring m b t clean (r :: rs) w ∧ Stale r w) ∧ rowOf w r.objectId = o) := by
    intro w w' hk h
    refine ⟨stable_staleAnd w w' hk h.1, ?_⟩
    rw [rowOf, (hk.tables h.1.1.sweep.begun.recovering).1]
    exact h.2
  refine Triple.bind (R := fun o w => (Expiring m b t clean (r :: rs) w ∧ Stale r w) ∧
    rowOf w r.objectId = o) (Triple.answer stable_staleAnd.firm (fun o => (hrow o).firm) rfl ?_
      fun _ _ h => h.1.sweep.begun) fun o => ?_
  · intro w o s hw _ hrun
    refine ⟨hw, ?_⟩
    cases hrun
    rfl
  cases o with
  | none => exact hdrop.pre fun _ h => h.1
  | some o =>
    refine Triple.ite (fun hpend => ?_) fun _ => hdrop.pre fun _ h => h.1
    refine Triple.bind (markFailed hpend) fun _ => ?_
    exact Triple.bind ((Triple.storeCalm rfl stable_staleAnd.firm).post (fun _ _ h => h)
      fun _ _ h => h.1.sweep.begun) fun _ => hdrop

theorem expireReservations {n : Nat} (hnd : (rs.map Reservation.reservationId).Nodup) :
    (party env m b t .recover).Triple l (Expiring m b t clean rs)
      (Coordinator.expireReservations now rs n) (fun _ => Sweep m b t [] clean)
      (fun _ => Begun m b t) := by
  induction rs generalizing n with
  | nil => exact Triple.pure fun _ h => h.sweep
  | cons r rs ih =>
    rw [List.map_cons, List.nodup_cons] at hnd
    have hskip (w : Traced) (h : Expiring m b t clean (r :: rs) w) : Expiring m b t clean rs w :=
      ⟨h.sweep, fun v hv => h.listed v (List.mem_cons_of_mem _ hv)⟩
    refine Triple.ite (fun _ => ?_) fun _ => Triple.pre (ih hnd.2) hskip
    have hR (j : Option JournalEntry) : Stable env m t (fun w => Expiring m b t clean (r :: rs) w ∧
        (j.any (fun e => e.phase.isOpen) = false → Stale r w)) := by
      intro w w' hk h
      refine ⟨stable_expiring w w' hk h.1, ?_⟩
      rw [Stale, (hk.tables h.1.sweep.begun.recovering).2.2.2.2.2.2]
      exact h.2
    refine Triple.bind (Triple.answer stable_expiring.firm (fun j => (hR j).firm) rfl ?_
      fun _ _ h => h.sweep.begun) fun j => ?_
    · intro w j s hw _ hrun
      refine ⟨hw, ?_⟩
      have hj : j = w.store.journal.find? r.attemptId := by
        cases hrun
        rfl
      intro hclosed x hx hid
      rw [hj, ← hid, Table.find?_of_mem hx] at hclosed
      exact hclosed
    · refine Triple.ite (fun _ => Triple.pre (ih hnd.2) fun w hw => hskip w hw.1) fun hc => ?_
      have hc : j.any (fun e => e.phase.isOpen) = false := by simpa using hc
      refine Triple.bind (Triple.pre (abandon hnd.1) fun w hw => ⟨hw.1, hw.2 hc⟩) fun _ => ?_
      exact ih hnd.2

end

/-! ## the operation -/

/-- with an empty error list nothing is left unresolved -/
theorem Sweep.recovered {report : RecoveryReport}
    (h : Sweep m b t [] clean w) (hclean : report.errors = [] → clean = true) :
    Recovered m b t (.ok report) w := by
  refine ⟨h.begun.recovering, fun hserve X => ?_⟩
  cases b with
  | true => exact h.begun.fine rfl X
  | false =>
    have herr : report.errors = [] := by simpa [Op.opened] using hserve
    have hno : ∀ x ∈ w.store.journal, x.phase.isOpen = true → False :=
      fun x hx hxo => absurd (h.rest (hclean herr) x hx hxo) List.not_mem_nil
    refine .inr ⟨fun _ x hx _ => ?_, fun _ x hx _ hxo => (hno x hx hxo).elim⟩
    by_contra hne
    exact hno x hx (by simpa using hne)

/-- `reconcile_store` -/
theorem reconcileStore :
    (party env m b t .recover).Triple false (Begun m b t)
      (Coordinator.reconcileStore Coordinator.physicalState now)
      (fun report w => Sweep m b t [] (decide (report.errors = [])) w)
      (fun _ => Begun m b t) := by
  -- the open entries, oldest first
  refine Triple.bind (R := fun es w => ((∀ e ∈ es, ∃ S plan, Readable e S plan) ∧
    (es.map JournalEntry.attemptId).Nodup) ∧ Sweep m b t es true w)
    (Triple.answer stable_begun.firm (fun es => Party.Firm.and (.const _) stable_sweep.firm) rfl
      ?_ fun _ _ h => h) fun es => Triple.of_pure fun hes => ?_
  · intro w es s hw hi hrun
    have hmem (e : JournalEntry) : e ∈ es ↔ e ∈ w.store.journal ∧ e.phase.isOpen = true :=
      Store.listOpenJournal_ok hrun
    refine ⟨⟨?_, ?_⟩, hw, fun e he => ((hmem e).mp he).1, fun _ x hx hxo => (hmem x).mpr ⟨hx, hxo⟩⟩
    · intro e he
      obtain ⟨S, plan, hrec⟩ := hi.journal e ((hmem e).mp he).1
      exact ⟨S, plan, ((hmem e).mp he).2, hrec.payload, hrec.prior.row.valid, hrec.started⟩
    · cases hrun
      exact w.store.journal.nodup_query _ _
  refine Triple.bind (Triple.pre (reconcileEntries hes.1 hes.2) fun w hw => hw) fun report => ?_
  -- stale reservations
  have hlisted (rs : List Reservation) : (party env m b t .recover).Firm (fun w =>
      (rs.map Reservation.reservationId).Nodup ∧
        Expiring m b t (decide (report.errors = [])) rs w) :=
    Party.Firm.and (.const _) stable_expiring.firm
  refine Triple.bind (R := fun rs w => (rs.map Reservation.reservationId).Nodup ∧
    Expiring m b t (decide (report.errors = [])) rs w)
    (Triple.answer stable_sweep.firm hlisted rfl ?_ fun _ _ h => h.begun) fun rs =>
      Triple.of_pure fun hnd => ?_
  · intro w rs s hw hi hrun
    refine ⟨?_, hw, fun r hr => (Store.listOpenReservations_ok hrun).mp hr⟩
    cases hrun
    exact w.store.reservations.nodup_query _ _
  refine Triple.bind (expireReservations hnd) fun n => ?_
  refine Triple.bind ((recoveryRepair stable_sweep (fun _ h => h.begun.recovering) ?_).post
    (fun _ _ h => h) fun _ _ h => h.begun) fun repairs => ?_
  · intro w w' T h hs hd
    refine h.of_parked hs (congrArg Data.journal hd) fun _ x _ _ hp => ?_
    exact hp.of_tables (congrArg Data.objects hd) (congrArg Data.reservations hd)
      (congrArg Data.attempts hd) hs.config
  refine Triple.bind ((Triple.storeCalm rfl stable_sweep.firm).post (fun _ _ h => h)
    fun _ _ h => h.begun) fun graph => ?_
  split
  · exact Triple.pure fun _ h => h
  · refine Triple.pure fun w hw => ?_
    exact ⟨hw.begun, hw.queued, fun hc => by simp at hc⟩

theorem safe_recover (hidle : Idle t w) :
    (discipline env m).Safe b t .recover (Op.prog env .recover) w := by
  refine safe_withRecovery rfl ?_ hidle
  refine Triple.lockUnlock stable_begun.firm ?_
  refine Triple.bind (Triple.nowMs stable_begun.firm) fun now => ?_
  refine Triple.bind reconcileStore fun report => ?_
  have hsweep : Stable env m t (Sweep m b t [] (decide (report.errors = []))) := stable_sweep
  refine Triple.bind (R := fun _ => Sweep m b t [] (decide (report.errors = []))) ?_ fun _ =>
    Triple.pure fun w hw => hw.recovered decide_eq_true
  refine Triple.post (Triple.section_ hsweep.firm (fun _ => hsweep.firm) ?_) (fun _ _ h => h)
    fun _ _ h => h.begun
  exact Triple.bind (Triple.nowMs hsweep.firm) fun ts => Triple.storeCalm rfl hsweep.firm

end ReclaimFabric
