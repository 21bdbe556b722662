import ReclaimFabric.Protocol.Attempt

/-!
# Reclaim keeps the discipline

The store calls of a reclaim that holds its object, and the way out before the physical phase.

* `writeRow`            the object row;
* `closeReservation`, `closeAttempt`, `advanceJournal`, `closeJournal`   the rows of the attempt;
* `abortReclaim`        the rollback of a failure before the physical phase.

Every way out leaves the object settled: no journal is left open, or the coordinator is fenced, or
the regime does not ask for it.
-/

set_option linter.unusedSectionVars false

namespace ReclaimFabric

open Party (Triple)

variable {env : Env} {m : Regime} {b : Bool} {t : Tid} {op : Op} {X : Uuid} {k k' : Task}
  {w w' : Traced} {l : Bool} {req : ReclaimRequest}

/-! ## sections and calls that may not fail -/

/-- the regime asks neither for resolved nor for parked attempts -/
def Regime.Free (m : Regime) : Prop := m.wrapped = false ∧ m.honest = false

/-- a store call of reclaim whose transaction goes through: it fails only by a fault -/
theorem sureStore {so : StoreOp} {P : Traced → Prop} {Q : so.Out → Traced → Prop}
    (hP : Stable env m t P)
    (hok : ∀ w r s, P w → Inv env m b w → so.run w.store = .ok (r, s) →
      Guar env m b t (.reclaim req) w
          ((party env m b t (.reclaim req)).after (.store so) (.ok r) w (w.setStore s)) ∧
        Q r ((party env m b t (.reclaim req)).after (.store so) (.ok r) w (w.setStore s)))
    (hsure : ∀ w e, P w → so.run w.store ≠ .error e) :
    (party env m b t (.reclaim req)).Triple l P (Coordinator.store so) Q
      (fun _ w => P w ∧ ((Cmd.store so).bare = true → m.Free)) := by
  refine Triple.store hP.firm (fun w r s hw hi _ hr => hok w r s hw hi hr) ?_
  intro w e hw _ href hP'
  refine ⟨hP', fun hbare => ?_⟩
  have hno : ¬(m.wrapped = true ∨ m.honest = true) := by
    intro hm
    rcases href with ⟨i, ha, hf⟩ | hr
    · have ha : m.Allows env (.reclaim req) (.store so) i w := ha
      have hnone : i.fault = none := by
        rcases hm with hm | hm
        · exact ha.bare hm req rfl hbare
        · exact ha.store hm so rfl
      rw [hnone] at hf
      cases hf
    · exact hsure w e hw hr
  constructor
  · simpa using fun h => hno (.inl h)
  · simpa using fun h => hno (.inr h)

/-- the journal of the attempt is closed -/
structure Resolved (m : Regime) (t : Tid) (X : Uuid) (ks : List (String × ContentHash))
    (w : Traced) : Prop where
  held : Held t X ks w
  noOpen : m.wrapped = true ∨ m.honest = true → NoOpen X w
  acked : m.wrapped = true → Acked X w

namespace Resolved

variable {ks : List (String × ContentHash)}

theorem stable : Stable env m t (Resolved m t X ks) := by
  intro w w' hk h
  refine ⟨stable_held w w' hk h.held, ?_, ?_⟩
  · intro hm j hj hX
    exact h.noOpen hm j ((hk.journal X h.held.mine j hX).mp hj) hX
  · exact fun hm => (h.acked hm).congr (hk.row X h.held.mine) (hk.acknowledged h.held.mine)

theorem bail (h : Resolved m t X ks w) : Bail m t X ks w where
  held := h.held
  settled := by
    refine ⟨.inr ⟨fun hm => h.noOpen (.inl hm), ?_⟩, h.acked, ?_⟩
    · intro hm j hj hX hopen
      rw [h.noOpen (.inr hm) j hj hX] at hopen
      cases hopen
    · intro hm j hj hX hopen
      rw [h.noOpen (.inl hm) j hj hX] at hopen
      cases hopen
  lost := fun hm j hj hX hopen => by
    rw [h.noOpen (.inr hm) j hj hX] at hopen
    cases hopen

end Resolved

namespace Working

theorem bail_free (h : Working env m t X k w) (hm : m.Free) : Bail m t X k.keys w :=
  .of_free h.bond.held hm.1 hm.2

/-- a section of reclaim: a coordinator that has lost its authority may drop the object -/
theorem inSection {α : Type} {body : M α} {Q : α → Traced → Prop}
    (hQ : ∀ a, Stable env m t (Q a))
    (hbody : (party env m b t op).Triple true (Working env m t X k) body Q
      (fun _ => Bail m t X k.keys)) :
    (party env m b t op).Triple false (Working env m t X k) (Coordinator.withInner body) Q
      (fun _ => Bail m t X k.keys) := by
  refine Triple.withInner (R := fun _ => True) firm (.const True) (fun a => (hQ a).firm)
    (fun _ => Bail.firm) (fun _ _ _ _ => trivial) (fun _ w hw hl => bail_lost hw.bond hl) ?_
  exact hbody.pre fun w hw => hw.1

theorem nowMs {α : Type} {f : Int → M α} {Q : α → Traced → Prop}
    {E : ReclaimError → Traced → Prop}
    (hf : ∀ n, (party env m b t op).Triple l (Working env m t X k) (f n) Q E) :
    (party env m b t op).Triple l (Working env m t X k) (Coordinator.nowMs >>= f) Q E :=
  Triple.bind (Triple.nowMs firm) hf

/-! ## the object row -/

/-- the attempt writes the object row -/
theorem writeRow {s : LifecycleState} {a : AuditEntry}
    (hid : a.objectId = some k.snap.prior.id) (hgen : a.generation = some k.snap.prior.generation)
    (hnew : a.newState = some s)
    (hjust : ∀ w, Working env m t X k w → Inv env m b w →
      RowJust m t (.reclaim req) w X { k with state := s }.row) :
    (party env m b t (.reclaim req)).Triple l (Working env m t X k)
      (Coordinator.store (.updateObjectWithAudit { k with state := s }.row a))
      (fun _ w => Working env m t X { k with state := s } w ∧ ∃ before,
        .call t (.reclaim req) (.store (.updateObjectWithAudit { k with state := s }.row a)) (.ok ())
          before ∈ w.log)
      (fun _ w => Working env m t X k w ∧
        ((Cmd.store (.updateObjectWithAudit { k with state := s }.row a)).bare = true →
          m.Free)) := by
  refine sureStore stable ?_ ?_
  · intro w r st hw hi hr
    obtain ⟨_, _, hd, hfind⟩ := StoreOp.writesRow_updateObjectWithAudit _ _ _ _ _ hr
    have hX : { k with state := s }.row.id = X := hw.ok.id
    rw [hX] at hfind
    have hok : Task.Ok X { k with state := s } := { hw.ok with }
    constructor
    · exact .row Party.still_store hd hfind hX hok.rowOk (hjust w hw hi)
    · refine ⟨⟨hok, hw.bond.of_row Party.still_store hd hfind, ?_⟩, w.toWorld, List.mem_cons_self⟩
      exact hw.stock.congr (congrArg Data.replicas hd) (congrArg Data.archives hd) rfl rfl rfl rfl
        rfl rfl
  · intro w e hw
    have hX : { k with state := s }.row.id = X := hw.ok.id
    have hrow : w.store.objects.find? { k with state := s }.row.id = some k.row := by
      rw [hX]
      exact hw.bond.row
    exact Store.updateObjectWithAudit_sure (o := { k with state := s }.row) hw.ok.row.valid
      hw.ok.row.columns hrow hid hgen (.inr hnew) e

/-! ## reservation, attempt and journal -/

theorem closeReservation {status : ReservationStatus} (hr : k.reserved = true) :
    (party env m b t (.reclaim req)).Triple l (Working env m t X k)
      (Coordinator.store (.updateReservation k.reservationId status))
      (fun _ => Working env m t X { k with reserved := false })
      (fun _ w => Working env m t X k w ∧
        ((Cmd.store (.updateReservation k.reservationId status)).bare = true → m.Free)) := by
  refine sureStore stable ?_ ?_
  · intro w r st hw _ hrun
    obtain ⟨x, _, _, hd⟩ := Store.updateReservation_ok hrun
    constructor
    · refine .reservations Party.still_store hd ?_
      intro y hy hwhich
      obtain ⟨x, hx, hid, _, hX, _⟩ := hw.bond.reserved hr
      have hid' : y.reservationId = k.reservationId := by simpa using hwhich
      obtain rfl : y = x := Table.eq_of_key hy hx (hid'.trans hid.symm)
      rw [hX]
      exact .inl hw.bond.own
    · refine ⟨{ hw.ok with }, ?_, ?_⟩
      · exact hw.bond.of_closed (q := k.attempted) Party.still_store (congrArg Data.objects hd)
          (congrArg Data.lineage hd) (congrArg Data.journal hd) (fun h => by cases h)
          (fun h => ⟨h, congrArg Data.attempts hd⟩)
      · exact hw.stock.congr (congrArg Data.replicas hd) (congrArg Data.archives hd) rfl rfl rfl
          rfl rfl rfl
  · intro w e hw
    obtain ⟨x, hx, hid, _, _, ho⟩ := hw.bond.reserved hr
    exact Store.updateReservation_sure hx hid ho e

theorem closeAttempt {status : AttemptStatus} {now : Int} (ha : k.attempted = true) :
    (party env m b t (.reclaim req)).Triple l (Working env m t X k)
      (Coordinator.store (.updateAttempt k.attemptId status now))
      (fun _ => Working env m t X { k with attempted := false })
      (fun _ w => Working env m t X k w ∧
        ((Cmd.store (.updateAttempt k.attemptId status now)).bare = true → m.Free)) := by
  refine sureStore stable ?_ ?_
  · intro w r st hw _ hrun
    obtain ⟨a, T, hfind, _, hswap, hd⟩ := Store.updateAttempt_ok hrun
    constructor
    · refine .attempt Party.still_store hd hswap (.inl ?_)
      obtain ⟨x, hx, hid, hX, _⟩ := hw.bond.attempted ha
      obtain rfl : a = x :=
        Table.eq_of_key (Table.mem_of_find? hfind) hx ((Table.key_of_find? hfind).trans hid.symm)
      rw [hX]
      exact hw.bond.own
    · refine ⟨{ hw.ok with }, ?_, ?_⟩
      · exact hw.bond.of_closed (p := k.reserved) Party.still_store (congrArg Data.objects hd)
          (congrArg Data.lineage hd) (congrArg Data.journal hd)
          (fun h => ⟨h, congrArg Data.reservations hd⟩) (fun h => by cases h)
      · exact hw.stock.congr (congrArg Data.replicas hd) (congrArg Data.archives hd) rfl rfl rfl
          rfl rfl rfl
  · intro w e hw
    obtain ⟨x, hx, hid, _, ho⟩ := hw.bond.attempted ha
    exact Store.updateAttempt_sure hx hid ho e

/-- the journal row moves to the next open phase -/
theorem advanceJournal {ph : JournalPhase} {now : Int} {prior : List JournalPhase}
    (hp : Store.allowedPrior ph = some prior) (hmem : k.phase ∈ prior)
    (hopen : k.phase.isOpen = true) (hopen' : ph.isOpen = true)
    (hphys : ph.physical = k.phase.physical)
    (hjust : ∀ w j, Own t j.objectId w → j.phase = k.phase →
      JournalJust t w j { j with phase := ph, updatedAtMs := now }) :
    (party env m b t (.reclaim req)).Triple l (Working env m t X k)
      (Coordinator.store (.updateJournalPhase k.attemptId ph now))
      (fun _ => Working env m t X { k with phase := ph })
      (fun _ w => Working env m t X k w ∧
        ((Cmd.store (.updateJournalPhase k.attemptId ph now)).bare = true → m.Free)) := by
  refine sureStore stable ?_ ?_
  · intro w r st hw _ hrun
    obtain ⟨prior', j, T, _, hfind, _, hswap, hd⟩ := Store.updateJournalPhase_ok hrun
    obtain ⟨j₀, hj₀, he⟩ := hw.bond.journal
    obtain rfl : j = j₀ := Table.eq_of_key (Table.mem_of_find? hfind) hj₀
      ((Table.key_of_find? hfind).trans he.1.symm)
    have hown : Own t j.objectId w := by
      rw [he.2.1]
      exact hw.bond.own
    constructor
    · exact .journal Party.still_store hd hswap rfl rfl rfl (hjust w j hown he.2.2.1)
    · refine ⟨{ hw.ok with }, ?_, ?_⟩
      · exact hw.bond.of_journal (p := k.plan) Party.still_store hd he hswap
          ⟨he.1, he.2.1, rfl, he.2.2.2⟩ rfl hopen hopen' fun hph => by
            rw [hphys] at hph
            exact hw.bond.equipped hph
      · exact hw.stock.congr (congrArg Data.replicas hd) (congrArg Data.archives hd) rfl rfl rfl
          rfl rfl rfl
  · intro w e hw
    obtain ⟨j, hj, he⟩ := hw.bond.journal
    exact Store.updateJournalPhase_sure hp hj he.1 (by rw [he.2.2.1]; exact hmem) e

/-- the journal row is closed -/
theorem closeJournal {ph : JournalPhase} {now : Int} {prior : List JournalPhase}
    (hp : Store.allowedPrior ph = some prior) (hmem : k.phase ∈ prior)
    (hopen : k.phase.isOpen = true) (hclosed : ph.isOpen = false) :
    (party env m b t (.reclaim req)).Triple l (Working env m t X k)
      (Coordinator.store (.updateJournalPhase k.attemptId ph now))
      (fun _ => Resolved m t X k.keys)
      (fun _ w => Working env m t X k w ∧
        ((Cmd.store (.updateJournalPhase k.attemptId ph now)).bare = true → m.Free)) := by
  refine sureStore stable ?_ ?_
  · intro w r st hw _ hrun
    obtain ⟨prior', j, T, _, hfind, _, hswap, hd⟩ := Store.updateJournalPhase_ok hrun
    obtain ⟨j₀, hj₀, he⟩ := hw.bond.journal
    obtain rfl : j = j₀ := Table.eq_of_key (Table.mem_of_find? hfind) hj₀
      ((Table.key_of_find? hfind).trans he.1.symm)
    have hown : Own t j.objectId w := by
      rw [he.2.1]
      exact hw.bond.own
    have hjo : j.phase.isOpen = true := by rw [he.2.2.1]; exact hopen
    have hstill := Party.still_store (A := party env m b t (.reclaim req))
      (c := .store (.updateJournalPhase k.attemptId ph now)) (r := .ok r) (w := w) (s := st)
    constructor
    · exact .journal hstill hd hswap rfl rfl rfl (.close (.inl hown) hjo hclosed rfl)
    · refine ⟨hstill.held hw.bond.held, ?_, ?_⟩
      · -- the only open row of the object was this one
        intro hm x hx hX
        have hx : x ∈ st.journal := hx
        rw [show st.journal = T from congrArg Data.journal hd] at hx
        rcases (hswap.2.2.2.2 x).mp hx with ⟨hx, hne⟩ | hx
        · by_contra hxo
          have hxo : x.phase.isOpen = true := by simpa using hxo
          exact hne ((hw.bond.alone hm x hx hX hxo).trans he.1.symm)
        · cases hx
          exact hclosed
      · intro hm
        refine (acked hw.bond hm).congr ?_ (hstill.acknowledged X)
        show st.objects.find? X = _
        rw [show st.objects = w.store.objects from congrArg Data.objects hd]
        rfl
  · intro w e hw
    obtain ⟨j, hj, he⟩ := hw.bond.journal
    exact Store.updateJournalPhase_sure hp hj he.1 (by rw [he.2.2.1]; exact hmem) e

/-! ## abort -/

/-- `abort_reclaim`: the rows of the attempt are put back and closed -/
theorem abortReclaim {report : ReclaimReport} {reason : ReclaimError}
    (ha : report.attemptId = k.attemptId) (hr : report.reservationId = k.reservationId)
    (hres : k.reserved = true) (hatt : k.attempted = true) (hopen : k.phase.isOpen = true)
    (hphys : k.phase.physical = false) (hplan : k.plan = none) (hs : k.state ≠ .reclaimed) :
    (party env m b t (.reclaim req)).Triple false (Working env m t X k)
      (Coordinator.abortReclaim report k.snap.prior reason) (fun _ => Bail m t X k.keys)
      (fun _ => Bail m t X k.keys) := by
  have hprior : k.phase ∈ [JournalPhase.reserved, .validated, .physicalStarted, .physicalDone] := by
    cases hp : k.phase <;> simp_all [JournalPhase.isOpen]
  refine nowMs fun now => inSection (fun _ => Bail.stable) ?_
  -- the object row
  refine Triple.bind (Triple.post (writeRow (s := k.snap.prior.lifecycleState) rfl rfl rfl ?_)
    (fun _ _ h => h.1) fun _ _ h => h.1.bail_free (h.2 rfl)) fun _ => ?_
  · intro w hw _
    obtain ⟨j, hj, he⟩ := hw.bond.journal
    refine .abort hw.bond.own hw.bond.row hs hj he.2.1 ?_ ?_ ?_ rfl
    · rw [he.2.2.1]; exact hopen
    · rw [he.2.2.1]; exact hphys
    · rw [he.2.2.2, hplan]
  rw [ha, hr]
  refine Triple.bind (Triple.post (closeReservation
    (k := { k with state := k.snap.prior.lifecycleState }) hres)
    (fun _ _ h => h) fun _ _ h => h.1.bail_free (h.2 rfl)) fun _ => ?_
  refine Triple.bind (Triple.post (closeAttempt
    (k := { k with state := k.snap.prior.lifecycleState, reserved := false }) hatt)
    (fun _ _ h => h) fun _ _ h => h.1.bail_free (h.2 rfl)) fun _ => ?_
  exact Triple.post (closeJournal
    (k := { k with state := k.snap.prior.lifecycleState, reserved := false, attempted := false })
    rfl hprior hopen rfl) (fun _ _ h => h.bail) fun _ _ h => h.1.bail_free (h.2 rfl)

/-- a step whose failure is rolled back -/
theorem orAbort {α : Type} {report : ReclaimReport} {x : M α} {Q : α → Traced → Prop}
    (ha : report.attemptId = k.attemptId) (hr : report.reservationId = k.reservationId)
    (hres : k.reserved = true) (hatt : k.attempted = true) (hopen : k.phase.isOpen = true)
    (hphys : k.phase.physical = false) (hplan : k.plan = none) (hs : k.state ≠ .reclaimed)
    (hx : (party env m b t (.reclaim req)).Triple false (Working env m t X k) x Q
      (fun _ => Working env m t X k)) :
    (party env m b t (.reclaim req)).Triple false (Working env m t X k)
      (Coordinator.orAbort report k.snap.prior x) Q (fun _ => Bail m t X k.keys) := by
  refine Triple.attemptBind hx (fun a => Triple.pure fun _ h => h) fun e => ?_
  exact Triple.bind (abortReclaim ha hr hres hatt hopen hphys hplan hs) fun _ =>
    Triple.throw fun _ h => h

end Working

end ReclaimFabric
