import ReclaimFabric.Protocol.Survey
import ReclaimFabric.Logic.Recovery

/-!
# Recovery keeps the discipline

The walk through `Coordinator::recover`.  Nobody else touches the tables while it runs, so an
assertion about them is stable.

* `Sweep`       the entries that are still to be reconciled, and whether all others are resolved;
* `Mending`     one entry is being reconciled, its reservation and attempt possibly closed already;
* `rollback`, `commitAfterCrash`   the two decisions;
* `expire`      stale reservations;
* `safe_recover`   the whole operation.
-/

set_option linter.unusedSectionVars false

namespace ReclaimFabric

open Party (Triple)

variable {env : Env} {m : Regime} {b : Bool} {t : Tid} {w w' : Traced} {l : Bool}
  {j : JournalEntry} {p q clean : Bool} {todo : List JournalEntry} {S : Snapshot}
  {plan : Option (List Replica)} {now : Int}

/-! ## assertions -/

/-- the entries `todo` are still open; when `clean`, no others are -/
structure Sweep (m : Regime) (b : Bool) (t : Tid) (todo : List JournalEntry) (clean : Bool)
    (w : Traced) : Prop where
  begun : Begun m b t w
  queued : ∀ e ∈ todo, e ∈ w.store.journal
  rest : clean = true → ∀ x ∈ w.store.journal, x.phase.isOpen = true → x ∈ todo

theorem stable_sweep : Stable env m t (Sweep m b t todo clean) := by
  intro w w' hk h
  have hjou := (hk.tables h.begun.recovering).2.2.2.2.2.2
  exact ⟨stable_begun w w' hk h.begun, by rw [hjou]; exact h.queued, by rw [hjou]; exact h.rest⟩

theorem Sweep.weaken (h : Sweep m b t (j :: todo) clean w) : Sweep m b t todo false w :=
  ⟨h.begun, fun e he => h.queued e (List.mem_cons_of_mem _ he), nofun⟩

/-- what is left of a harmless state while entry `j` is reconciled -/
structure Kept (m : Regime) (j : JournalEntry) (p q : Bool) (w : Traced) : Prop where
  wrapped : m.wrapped = false
  others : m.honest = true → ∀ x ∈ w.store.journal, x.phase.isOpen = true →
    x.attemptId ≠ j.attemptId → Parked x w
  physical : m.honest = true → j.phase.physical = false
  reserved : m.honest = true → p = true → ReservationOpen j w
  attempted : m.honest = true → q = true → AttemptOpen j w

/-- entry `j` is being reconciled; `p` and `q`: its reservation and attempt are untouched -/
structure Mending (m : Regime) (b : Bool) (t : Tid) (j : JournalEntry) (p q : Bool)
    (todo : List JournalEntry) (clean : Bool) (w : Traced) : Prop where
  recovering : Recovering t w
  entry : j ∈ w.store.journal
  alone : m.honest = true → ∀ x ∈ w.store.journal, x.phase.isOpen = true →
    x.objectId = j.objectId → x = j
  kept : b = true → Lost w ∨ Kept m j p q w
  queued : ∀ e ∈ todo, e ∈ w.store.journal
  rest : clean = true → ∀ x ∈ w.store.journal, x.phase.isOpen = true → x = j ∨ x ∈ todo

/-- the archive backends of a physical entry are there, which those of a parked one are not -/
def Equipped (S : Snapshot) (j : JournalEntry) (w : Traced) : Prop :=
  j.phase.physical = true → ∀ a ∈ S.archs, (w.proc.config.archive a.backend).isSome = true

namespace Mending

theorem start (h : Sweep m b t (j :: todo) clean w) (hi : Inv env m b w)
    (hopen : j.phase.isOpen = true) (hp : j.payload = payloadOf S plan)
    (heq : Equipped S j w) : Mending m b t j true true todo clean w where
  recovering := h.begun.recovering
  entry := h.queued j List.mem_cons_self
  alone := fun hm x hx hxo hX =>
    (hi.truthful hm).unique j (h.queued j List.mem_cons_self) x hx hopen hxo hX
  kept := fun hb => by
    by_cases hl : Lost w
    · exact .inl hl
    · have hfine : ∀ X, Fine m X w := fun X => (h.begun.fine hb X).resolve_left hl
      have hj := h.queued j List.mem_cons_self
      have hparked (hm : m.honest = true) : Parked j w :=
        (hfine _).parked hm j hj rfl hopen
      refine .inr ⟨?_, ?_, ?_, ?_, ?_⟩
      · by_contra hw
        rw [(hfine j.objectId).resolved (by simpa using hw) j hj rfl] at hopen
        cases hopen
      · exact fun hm x hx hxo _ => (hfine _).parked hm x hx rfl hxo
      · -- a parked physical entry names an archive backend that is not configured
        intro hm
        by_contra hph
        have hph : j.phase.physical = true := by simpa using hph
        obtain ⟨_, S', plan', a, hp', ha, hnone⟩ := (hparked hm).physical hph
        obtain ⟨rfl, _⟩ := payloadOf_inj (hp'.symm.trans hp)
        have hsome := heq hph a ha
        rw [hnone] at hsome
        cases hsome
      · exact fun hm _ => (hparked hm).reserved
      · exact fun hm _ => (hparked hm).attempted
  queued := fun e he => h.queued e (List.mem_cons_of_mem _ he)
  rest := fun hc x hx hxo => List.mem_cons.mp (h.rest hc x hx hxo)

/-- a step that leaves the journal and the rows of other attempts alone -/
theorem of_step {p' q' : Bool} (h : Mending m b t j p q todo clean w) (hrec : Recovering t w')
    (hlost : Lost w → Lost w') (hconf : w'.proc.config = w.proc.config)
    (hjou : w'.store.journal = w.store.journal)
    (hrow : ∀ Y, Y ≠ j.objectId → rowOf w' Y = rowOf w Y)
    (hres : ∀ x : JournalEntry, x.attemptId ≠ j.attemptId → ReservationOpen x w →
      ReservationOpen x w')
    (hatt : ∀ x : JournalEntry, x.attemptId ≠ j.attemptId → AttemptOpen x w → AttemptOpen x w')
    (hp : p' = true → p = true ∧ (ReservationOpen j w → ReservationOpen j w'))
    (hq : q' = true → q = true ∧ (AttemptOpen j w → AttemptOpen j w')) :
    Mending m b t j p' q' todo clean w' where
  recovering := hrec
  entry := by rw [hjou]; exact h.entry
  alone := by rw [hjou]; exact h.alone
  kept := fun hb => (h.kept hb).imp hlost fun hk =>
    { wrapped := hk.wrapped
      others := fun hm x hx hxo hne => by
        rw [hjou] at hx
        have hpk := hk.others hm x hx hxo hne
        refine ⟨hres x hne hpk.reserved, hatt x hne hpk.attempted, ?_⟩
        intro hph
        have hX : x.objectId ≠ j.objectId := fun hX =>
          hne (congrArg JournalEntry.attemptId (h.alone hm x hx hxo hX))
        rw [hrow _ hX, hconf]
        exact hpk.physical hph
      physical := hk.physical
      reserved := fun hm hp' => (hp hp').2 (hk.reserved hm (hp hp').1)
      attempted := fun hm hq' => (hq hq').2 (hk.attempted hm (hq hq').1) }
  queued := by rw [hjou]; exact h.queued
  rest := by rw [hjou]; exact h.rest

theorem of_tables (h : Mending m b t j p q todo clean w) (hrec : Recovering t w')
    (hlost : Lost w → Lost w') (hconf : w'.proc.config = w.proc.config)
    (hjou : w'.store.journal = w.store.journal)
    (hrow : ∀ Y, Y ≠ j.objectId → rowOf w' Y = rowOf w Y)
    (hres : w'.store.reservations = w.store.reservations)
    (hatt : w'.store.attempts = w.store.attempts) : Mending m b t j p q todo clean w' :=
  h.of_step hrec hlost hconf hjou hrow (fun x _ hx => by rw [ReservationOpen, hres]; exact hx)
    (fun x _ hx => by rw [AttemptOpen, hatt]; exact hx)
    (fun hp => ⟨hp, fun hx => by rw [ReservationOpen, hres]; exact hx⟩)
    (fun hq => ⟨hq, fun hx => by rw [AttemptOpen, hatt]; exact hx⟩)

theorem stable : Stable env m t (Mending m b t j p q todo clean) := by
  intro w w' hk h
  obtain ⟨hobj, _, _, hatt, hres, _, hjou⟩ := hk.tables h.recovering
  exact h.of_tables (hk.recovering.mpr h.recovering) hk.lost hk.config hjou
    (fun Y _ => by rw [rowOf, rowOf, hobj]) hres hatt

theorem firm : (party env m b t .recover).Firm (Mending m b t j p q todo clean) := stable.firm

/-- an entry that could not be reconciled is left to the operator -/
theorem fail (h : Mending m b t j p q todo clean w)
    (hopen : (p = true ∧ q = true) ∨ (m.honest = true → b = true → Lost w)) :
    Sweep m b t todo false w where
  begun := by
    refine ⟨h.recovering, fun hb X => ?_⟩
    rcases h.kept hb with hl | hk
    · exact .inl hl
    by_cases hl : Lost w
    · exact .inl hl
    refine .inr ⟨fun hm => ?_, fun hm x hx hX hxo => ?_⟩
    · rw [hk.wrapped] at hm
      cases hm
    · rcases hopen with ⟨rfl, rfl⟩ | hlost
      · by_cases hid : x.attemptId = j.attemptId
        · obtain rfl : x = j := Table.eq_of_key hx h.entry hid
          refine ⟨hk.reserved hm rfl, hk.attempted hm rfl, ?_⟩
          intro hph
          rw [hk.physical hm] at hph
          cases hph
        · exact hk.others hm x hx hxo hid
      · exact absurd (hlost hm hb) hl
  queued := h.queued
  rest := nofun

theorem failed (h : Mending m b t j true true todo clean w) : Sweep m b t todo false w :=
  h.fail (.inl ⟨rfl, rfl⟩)

end Mending

/-! ## dedup repair -/

section
variable {P : Traced → Prop}

/-- a write of one dedup row during recovery -/
theorem recoveryDedup {so : StoreOp} {x : ContentHash} {y : String} (hP : Stable env m t P)
    (hrec : ∀ w, P w → Recovering t w)
    (hded : ∀ w w' T, P w → Still w w' → w'.store.data = { w.store.data with dedup := T } → P w')
    (hrun : ∀ w r s, P w → Inv env m b w → so.run w.store = .ok (r, s) →
      ∃ v, Store.DedupSet w.store s (x, y) v ∧ (m.honest = true → ∀ e, v = some e →
        Named env m.bytes w e.key x)) :
    (party env m b t .recover).Triple l P (Coordinator.store so) (fun _ => P) (fun _ => P) := by
  refine Triple.store hP.firm ?_ (fun _ _ _ _ _ h => h)
  intro w r s hw hi _ hr
  obtain ⟨v, ⟨T, hd, hfind⟩, hname⟩ := hrun w r s hw hi hr
  have hstill : Still w ((party env m b t .recover).after (.store so) (.ok r) w (w.setStore s)) :=
    Party.still_store
  have hmine : Pay t (y, x) w ∨ Recovering t w := .inr (hrec w hw)
  refine ⟨.dedup hstill hd ?_ hmine ?_, hded w _ T hw hstill hd⟩
  · intro k hne
    rw [hfind, if_neg hne]
  · intro hm e he
    rw [hfind, if_pos rfl] at he
    exact hname hm e he

/-- `repair_dedup_counts` writes only dedup rows, with the keys of replica rows -/
theorem recoveryRepair (hP : Stable env m t P) (hrec : ∀ w, P w → Recovering t w)
    (hded : ∀ w w' T, P w → Still w w' → w'.store.data = { w.store.data with dedup := T } → P w') :
    (party env m b t .recover).Triple l P Coordinator.repairDedupCounts (fun _ => P)
      (fun _ => P) := by
  let R : List Replica → Traced → Prop := fun rs w => P w ∧
    (m.honest = true → ∀ r ∈ rs, Named env m.bytes w r.location.key r.contentHash)
  have hR (rs : List Replica) : Stable env m t (R rs) :=
    fun w w' hk h => ⟨hP w w' hk h.1, fun hm r hr => hk.named (h.2 hm r hr)⟩
  have hrecR (rs : List Replica) (w : Traced) (h : R rs w) : Recovering t w := hrec w h.1
  have hdedR (rs : List Replica) (w w' : Traced)
      (T : Table (fun e : DedupEntry => (e.contentHash, e.backend))) (h : R rs w)
      (hs : Still w w') (hd : w'.store.data = { w.store.data with dedup := T }) : R rs w' := by
    refine ⟨hded w w' T h.1 hs hd, fun hm r hr => (h.2 hm r hr).mono fun X o ho => ⟨o, ?_, rfl⟩⟩
    rw [rowOf, show w'.store.objects = w.store.objects from congrArg Data.objects hd]
    exact ho
  have hlive {rs : List Replica} {x : DedupEntry} {w : Traced} (hx : Coordinator.Live rs x)
      (hw : R rs w) (hm : m.honest = true) : Named env m.bytes w x.key x.contentHash := by
    obtain ⟨r, hr, hh, _, hk, _⟩ := hx
    have hn := hw.2 hm r hr
    rw [hh, hk] at hn
    exact hn
  refine Triple.post (Triple.repairDedupCounts (R := R) (E := fun _ => P) hP.firm
    (fun rs => (hR rs).firm) (fun _ _ h => h) (fun _ _ _ h => h.1) ?_ ?_ ?_ ?_)
    (fun _ _ h => h.elim fun _ h => h.1) fun _ _ h => h
  · intro w rs s hw hi hrun
    refine ⟨hw, fun hm r hr => (hi.truthful hm).replicas r ?_⟩
    exact (Store.allReplicas_ok hrun).mp hr
  · intro rs h be
    refine Triple.post (recoveryDedup (x := h) (y := be) (hR rs) (hrecR rs) (hdedR rs) ?_)
      (fun _ _ h => h) fun _ _ h => h.1
    intro w _ s hw _ hr
    exact ⟨none, Store.deleteDedup_ok hr, fun _ _ h => by cases h⟩
  · intro rs x hx
    refine Triple.post (recoveryDedup (x := x.contentHash) (y := x.backend) (hR rs) (hrecR rs)
      (hdedR rs) ?_) (fun _ _ h => h) fun _ _ h => h.1
    intro w _ s hw _ hr
    refine ⟨some x, Store.upsertDedup_ok hr, ?_⟩
    rintro hm _ ⟨⟩
    exact hlive hx hw hm
  · intro rs x hx
    refine Triple.post (recoveryDedup (x := x.contentHash) (y := x.backend) (hR rs) (hrecR rs)
      (hdedR rs) ?_) (fun _ _ h => h) fun _ _ h => h.1
    intro w _ s hw _ hr
    refine ⟨some x, (Store.insertDedup_ok hr).2, ?_⟩
    rintro hm _ ⟨⟩
    exact hlive hx hw hm

end

theorem Still.recovering (h : Still w w') : Recovering t w' ↔ Recovering t w := by
  rw [Recovering, Recovering, h.activeRecovery]

theorem Mending.of_still (h : Mending m b t j p q todo clean w) (hs : Still w w')
    (hjou : w'.store.journal = w.store.journal)
    (hrow : ∀ Y, Y ≠ j.objectId → rowOf w' Y = rowOf w Y)
    (hres : w'.store.reservations = w.store.reservations)
    (hatt : w'.store.attempts = w.store.attempts) : Mending m b t j p q todo clean w' :=
  h.of_tables (hs.recovering.mpr h.recovering) hs.authorityLost hs.config hjou hrow hres hatt

/-! ## rollback -/

/-- where backends answer truthfully the object has not been reclaimed -/
def Unreclaimed (m : Regime) (X : Uuid) (w : Traced) : Prop :=
  m.honest = true → ∀ o, rowOf w X = some o → o.lifecycleState ≠ .reclaimed

/-- entry `j` is being rolled back -/
structure Rolling (m : Regime) (b : Bool) (t : Tid) (j : JournalEntry)
    (todo : List JournalEntry) (clean : Bool) (w : Traced) : Prop where
  mending : Mending m b t j true true todo clean w
  unreclaimed : Unreclaimed m j.objectId w

namespace Rolling

theorem stable : Stable env m t (Rolling m b t j todo clean) := by
  intro w w' hk h
  refine ⟨Mending.stable w w' hk h.mending, ?_⟩
  intro hm o ho
  rw [rowOf, (hk.tables h.mending.recovering).1] at ho
  exact h.unreclaimed hm o ho

theorem firm : (party env m b t .recover).Firm (Rolling m b t j todo clean) := stable.firm

/-- a step that changes neither object rows nor what belongs to attempts -/
theorem of_still (h : Rolling m b t j todo clean w) (hs : Still w w')
    (hobj : w'.store.objects = w.store.objects) (hjou : w'.store.journal = w.store.journal)
    (hres : w'.store.reservations = w.store.reservations)
    (hatt : w'.store.attempts = w.store.attempts) : Rolling m b t j todo clean w' := by
  refine ⟨h.mending.of_still hs hjou (fun Y _ => by rw [rowOf, rowOf, hobj]) hres hatt, ?_⟩
  intro hm o ho
  rw [rowOf, hobj] at ho
  exact h.unreclaimed hm o ho

theorem addReplica {r : Replica} (hopen : j.phase.isOpen = true)
    (hp : j.payload = payloadOf S plan) (hr : r ∈ S.dels) :
    (party env m b t .recover).Triple l (Rolling m b t j todo clean)
      (Coordinator.store (.addReplica r)) (fun _ => Rolling m b t j todo clean)
      (fun _ => Sweep m b t todo false) := by
  refine Triple.store firm ?_ (fun _ _ _ _ _ h => h.mending.failed)
  intro w _ s hw hi _ hrun
  obtain ⟨T, hswap, _, hd⟩ := Store.addReplica_ok hrun
  constructor
  · refine .replica Party.still_store hd hswap (.putBack hw.mending.recovering hw.mending.entry
      hopen hp hr ?_ hw.unreclaimed)
    exact (hi.records hw.mending.entry hp).dels r hr
  · exact hw.of_still Party.still_store (congrArg Data.objects hd) (congrArg Data.journal hd)
      (congrArg Data.reservations hd) (congrArg Data.attempts hd)

theorem insertArchive {a : ArchiveRecord} (hopen : j.phase.isOpen = true)
    (hp : j.payload = payloadOf S plan) (ha : a ∈ S.archs) :
    (party env m b t .recover).Triple l (Rolling m b t j todo clean)
      (Coordinator.store (.insertArchive a)) (fun _ => Rolling m b t j todo clean)
      (fun _ => Sweep m b t todo false) := by
  refine Triple.store firm ?_ (fun _ _ _ _ _ h => h.mending.failed)
  intro w _ s hw hi _ hrun
  obtain ⟨T, hswap, hd⟩ := Store.insertArchive_ok hrun
  constructor
  · refine .archive Party.still_store hd hswap (.putBack hw.mending.recovering hw.mending.entry
      hopen hp ha ?_ hw.unreclaimed)
    exact ((hi.records hw.mending.entry hp).archs a ha).1
  · exact hw.of_still Party.still_store (congrArg Data.objects hd) (congrArg Data.journal hd)
      (congrArg Data.reservations hd) (congrArg Data.attempts hd)

/-- the object row of the snapshot is written back -/
theorem updateObject (hopen : j.phase.isOpen = true) (hp : j.payload = payloadOf S plan) :
    (party env m b t .recover).Triple l (Rolling m b t j todo clean)
      (Coordinator.store (.updateObject S.prior)) (fun _ => Rolling m b t j todo clean)
      (fun _ => Sweep m b t todo false) := by
  refine Triple.store firm ?_ (fun _ _ _ _ _ h => h.mending.failed)
  intro w r s hw hi _ hrun
  obtain ⟨_, _, hd, hfind⟩ := StoreOp.writesRow_updateObject S.prior _ _ _ hrun
  have hrec := hi.records hw.mending.entry hp
  rw [hrec.object] at hfind
  constructor
  · exact .row Party.still_store hd hfind hrec.object hrec.prior.row
      (.rollback rfl hw.mending.recovering hw.mending.entry rfl hopen hp rfl hw.unreclaimed)
  · have hobj : s.objects = w.store.objects.replace S.prior := congrArg Data.objects hd
    refine ⟨hw.mending.of_still Party.still_store (congrArg Data.journal hd) ?_
      (congrArg Data.reservations hd) (congrArg Data.attempts hd), ?_⟩
    · intro Y hY
      show s.objects.find? Y = _
      rw [hobj, hfind, if_neg hY]
      rfl
    · intro _ o ho
      have ho : s.objects.find? j.objectId = some o := ho
      rw [hobj, hfind, if_pos rfl] at ho
      cases ho
      exact hrec.prior.notReclaimed

end Rolling

/-! ## closing an attempt -/

theorem Parked.of_tables {x : JournalEntry} (h : Parked x w)
    (hobj : w'.store.objects = w.store.objects)
    (hres : w'.store.reservations = w.store.reservations)
    (hatt : w'.store.attempts = w.store.attempts) (hconf : w'.proc.config = w.proc.config) :
    Parked x w' where
  reserved := by rw [ReservationOpen, hres]; exact h.reserved
  attempted := by rw [AttemptOpen, hatt]; exact h.attempted
  physical := by rw [rowOf, hobj, hconf]; exact h.physical

namespace Mending

theorem closeReservation {status : ReservationStatus} :
    (party env m b t .recover).Triple l (Mending m b t j true true todo clean)
      (Coordinator.store (.updateReservationForAttempt j.attemptId status))
      (fun _ => Mending m b t j false true todo clean) (fun _ => Sweep m b t todo false) := by
  refine Triple.store firm ?_ (fun _ _ _ _ _ h => h.failed)
  intro w _ s hw _ _ hrun
  have hd := Store.updateReservationForAttempt_ok hrun
  constructor
  · exact .reservations Party.still_store hd fun _ _ _ => .inr hw.recovering
  · refine hw.of_step hw.recovering id rfl (congrArg Data.journal hd) ?_ ?_ ?_ nofun
      (fun h => ⟨h, ?_⟩)
    · intro Y _
      show s.objects.find? Y = _
      rw [show s.objects = w.store.objects from congrArg Data.objects hd]
      rfl
    · rintro x hne ⟨r, hr, hid, hX, ho⟩
      refine ⟨r, ?_, hid, hX, ho⟩
      show r ∈ s.reservations
      rw [show s.reservations = _ from congrArg Data.reservations hd, Store.closeReservations,
        Table.mem_updateWhere]
      refine ⟨r, hr, (if_neg ?_).symm⟩
      rw [Bool.and_eq_true, decide_eq_true_iff, not_and]
      exact fun he => absurd (hid.symm.trans he) hne
    · intro x _ hx
      rw [AttemptOpen]
      show ∃ a ∈ s.attempts, _
      rw [show s.attempts = w.store.attempts from congrArg Data.attempts hd]
      exact hx
    · intro hx
      rw [AttemptOpen]
      show ∃ a ∈ s.attempts, _
      rw [show s.attempts = w.store.attempts from congrArg Data.attempts hd]
      exact hx

/-- a refusal that truthful runs do not see -/
theorem refused {so : StoreOp} {e : ReclaimError}
    (hsure : m.honest = true → b = true → ¬Lost w → so.run w.store ≠ .error e)
    (href : Party.Triple.Refused (party env m b t .recover) so e w) :
    m.honest = true → b = true → Lost w := by
  intro hm hb
  by_contra hl
  rcases href with ⟨i, ha, hf⟩ | hr
  · have ha : m.Allows env .recover (.store so) i w := ha
    rw [ha.store hm so rfl] at hf
    cases hf
  · exact hsure hm hb hl hr

theorem closeAttempt {status : AttemptStatus} (hst : status ≠ .isOpen) :
    (party env m b t .recover).Triple l (Mending m b t j false true todo clean)
      (Coordinator.store (.reconcileAttempt j.attemptId status now))
      (fun _ => Mending m b t j false false todo clean) (fun _ => Sweep m b t todo false) := by
  refine Triple.store firm ?_ ?_
  · intro w r s hw _ _ hrun
    rcases Store.reconcileAttempt_ok hrun with ⟨a, T, hfind, _, hswap, hd⟩ | rfl
    · constructor
      · exact .attempt Party.still_store hd hswap (.inr hw.recovering)
      · refine hw.of_step hw.recovering id rfl (congrArg Data.journal hd) ?_ ?_ ?_ nofun nofun
        · intro Y _
          show s.objects.find? Y = _
          rw [show s.objects = w.store.objects from congrArg Data.objects hd]
          rfl
        · intro x _ hx
          rw [ReservationOpen]
          show ∃ r ∈ s.reservations, _
          rw [show s.reservations = w.store.reservations from congrArg Data.reservations hd]
          exact hx
        · rintro x hne ⟨y, hy, hid, hX, ho⟩
          refine ⟨y, ?_, hid, hX, ho⟩
          show y ∈ s.attempts
          rw [show s.attempts = T from congrArg Data.attempts hd, hswap.2.2.2.2]
          refine .inl ⟨hy, ?_⟩
          rw [hid, show a.attemptId = j.attemptId from Table.key_of_find? hfind]
          exact hne
    · have hq : Quiet w ((party env m b t .recover).after
          (.store (.reconcileAttempt j.attemptId status now)) (.ok r) w w.toWorld) :=
        Party.quiet_after (Calm.refl _)
      refine ⟨.quiet hq, ?_⟩
      have h := @Mending.stable env _ _ _ _ _ _ _ _ w _ (.of_quiet hq) hw
      exact h.of_step h.recovering id rfl rfl (fun _ _ => rfl) (fun _ _ h => h) (fun _ _ h => h)
        nofun nofun
  · intro w e hw _ href h
    have hlost : m.honest = true → b = true → Lost w := refused ?_ href
    · exact h.fail (.inr hlost)
    intro hm hb hl hr
    obtain ⟨a, ha, hid, _, ho⟩ := ((hw.kept hb).resolve_left hl).attempted hm rfl
    have hf : w.store.attempts.find? j.attemptId = some a := by
      rw [← hid]
      exact Table.find?_of_mem ha
    simp only [StoreOp.run, Store.reconcileAttempt, if_neg hst, hf, ho] at hr
    cases hr

theorem closeJournal {ph : JournalPhase} {prior : List JournalPhase}
    (hprior : Store.allowedPrior ph = some prior) (hmem : j.phase ∈ prior)
    (hopen : j.phase.isOpen = true) (hclosed : ph.isOpen = false)
    (hnew : ∀ e ∈ todo, e.attemptId ≠ j.attemptId) :
    (party env m b t .recover).Triple l (Mending m b t j false false todo clean)
      (Coordinator.store (.updateJournalPhase j.attemptId ph now))
      (fun _ => Sweep m b t todo clean) (fun _ => Sweep m b t todo false) := by
  refine Triple.store firm ?_ ?_
  · intro w r s hw _ _ hrun
    obtain ⟨prior', x, T, _, hfind, _, hswap, hd⟩ := Store.updateJournalPhase_ok hrun
    obtain rfl : x = j := Table.eq_of_key (Table.mem_of_find? hfind) hw.entry
      (Table.key_of_find? hfind)
    have hjou : s.journal = T := congrArg Data.journal hd
    have hcases : ∀ y, y ∈ s.journal → y.phase.isOpen = true →
        y ∈ w.store.journal ∧ y.attemptId ≠ x.attemptId := by
      intro y hy hyo
      rw [hjou, hswap.2.2.2.2] at hy
      rcases hy with hy | hy
      · exact hy
      · cases hy
        rw [show ({ x with phase := ph, updatedAtMs := now } : JournalEntry).phase = ph from rfl,
          hclosed] at hyo
        cases hyo
    constructor
    · exact .journal Party.still_store hd hswap rfl rfl rfl
        (.close (.inr hw.recovering) hopen hclosed rfl)
    · refine ⟨⟨hw.recovering, fun hb X => ?_⟩, ?_, ?_⟩
      · rcases hw.kept hb with hl | hk
        · exact .inl hl
        · refine .inr ⟨fun hm => ?_, fun hm y hy hX hyo => ?_⟩
          · rw [hk.wrapped] at hm
            cases hm
          · obtain ⟨hyw, hne⟩ := hcases y hy hyo
            exact (hk.others hm y hyw hyo hne).of_tables (congrArg Data.objects hd)
              (congrArg Data.reservations hd) (congrArg Data.attempts hd) rfl
      · intro e he
        show e ∈ s.journal
        rw [hjou, hswap.2.2.2.2]
        exact .inl ⟨hw.queued e he, hnew e he⟩
      · intro hc y hy hyo
        obtain ⟨hyw, hne⟩ := hcases y hy hyo
        rcases hw.rest hc y hyw hyo with rfl | hmem
        · exact absurd rfl hne
        · exact hmem
  · intro w e hw _ href h
    have hlost : m.honest = true → b = true → Lost w := refused ?_ href
    · exact h.fail (.inr hlost)
    intro _ _ _
    exact Store.updateJournalPhase_sure hprior hw.entry rfl hmem e

end Mending

/-! ## the two decisions -/

/-- entry `j` is next, and recovery decides to roll it back -/
structure Facing (m : Regime) (b : Bool) (t : Tid) (j : JournalEntry) (S : Snapshot)
    (todo : List JournalEntry) (clean : Bool) (w : Traced) : Prop where
  sweep : Sweep m b t (j :: todo) clean w
  equipped : Equipped S j w
  alive : m.honest = true → j.phase.physical = true → Undecided j w

theorem stable_facing : Stable env m t (Facing m b t j S todo clean) := by
  intro w w' hk h
  obtain ⟨_, hpay, hblob⟩ := hk.data h.sweep.begun.recovering
  refine ⟨stable_sweep w w' hk h.sweep, ?_, ?_⟩
  · intro hph
    rw [hk.config]
    exact h.equipped hph
  · intro hm hph
    rw [Undecided, hpay, hblob]
    exact h.alive hm hph

theorem Decided.not_undecided (h : Decided j w) : ¬Undecided j w := by
  rintro ⟨S', plan', hp', hcases⟩
  obtain ⟨S, plan, hp, _, hempty, hpay, hblob⟩ := h
  obtain ⟨rfl, hplan⟩ := payloadOf_inj (hp'.symm.trans hp)
  cases hplan
  rcases hcases with ⟨rfl, harch, hph⟩ | ⟨r, hr, hne⟩ | ⟨a, ha, hne⟩
  · rw [hempty rfl harch] at hph
    cases hph
  · exact hne (hpay r hr)
  · exact hne (hblob a ha)

theorem Facing.rolling (h : Facing m b t j S todo clean w) (hi : Inv env m b w)
    (hopen : j.phase.isOpen = true) (hp : j.payload = payloadOf S plan) :
    Rolling m b t j todo clean w := by
  refine ⟨Mending.start h.sweep hi hopen hp h.equipped, ?_⟩
  intro hm o ho hrec
  have hdec := (hi.truthful hm).decided j (h.sweep.queued j List.mem_cons_self) hopen o ho hrec
  obtain ⟨_, _, _, hph, _⟩ := id hdec
  exact hdec.not_undecided (h.alive hm hph)

theorem restoreObject (hopen : j.phase.isOpen = true) (hp : j.payload = payloadOf S plan) :
    (party env m b t .recover).Triple l (Facing m b t j S todo clean)
      (Coordinator.restoreObject now j S.prior) (fun _ => Rolling m b t j todo clean)
      (fun _ => Sweep m b t todo false) := by
  -- the row is there: rows of journalled objects never disappear
  have hread : (party env m b t .recover).Triple l (Facing m b t j S todo clean)
      (Coordinator.store (.getObject j.objectId))
      (fun r w => r.isSome = true ∧ Rolling m b t j todo clean w)
      (fun _ => Sweep m b t todo false) := by
    refine Triple.answer stable_facing.firm (fun r => Party.Firm.and (.const _) Rolling.firm) rfl
      ?_ (fun _ _ h => h.sweep.weaken)
    intro w r s hw hi hrun
    obtain ⟨o, ho, _⟩ := (hi.records (hw.sweep.queued j List.mem_cons_self) hp).row
    have hr : r = rowOf w j.objectId := by
      cases hrun
      rfl
    refine ⟨?_, hw.rolling hi hopen hp⟩
    rw [hr, ho]
    rfl
  refine Triple.bind hread ?_
  intro r
  refine Triple.of_pure fun hr => ?_
  cases r with
  | none => cases hr
  | some o =>
    refine Triple.refuse (fun _ w hw => hw.mending.failed) fun _ => ?_
    refine Triple.ite (fun _ => ?_) fun _ => Triple.pure fun _ h => h
    exact Triple.bind (Rolling.updateObject hopen hp) fun _ => Triple.pure fun _ h => h

/-- `rollback` of an entry whose object was not reclaimed -/
theorem rollback (hopen : j.phase.isOpen = true) (hp : j.payload = payloadOf S plan)
    (hnew : ∀ e ∈ todo, e.attemptId ≠ j.attemptId) :
    (party env m b t .recover).Triple l (Facing m b t j S todo clean)
      (Coordinator.rollback now j ⟨S.prior, S.dels, plan, S.archs⟩)
      (fun r w => r ≠ .failed ∧ Sweep m b t todo clean w) (fun _ => Sweep m b t todo false) := by
  have hmem : j.phase ∈ [JournalPhase.reserved, .validated, .physicalStarted, .physicalDone] := by
    revert hopen
    cases j.phase <;> decide
  refine Triple.bind (restoreObject hopen hp) fun audit => ?_
  refine Triple.bind (Triple.restoreRollbackMetadata Rolling.firm
    (fun _ _ h => h.mending.failed) (fun r hr => Rolling.addReplica hopen hp hr)
    (fun a ha => Rolling.insertArchive hopen hp ha)) fun _ => ?_
  refine Triple.bind ((recoveryRepair Rolling.stable (fun _ h => h.mending.recovering) ?_).post
    (fun _ _ h => h) (fun _ _ h => h.mending.failed)) fun _ => ?_
  · intro w w' T h hs hd
    exact h.of_still hs (congrArg Data.objects hd) (congrArg Data.journal hd)
      (congrArg Data.reservations hd) (congrArg Data.attempts hd)
  have hclose : (party env m b t .recover).Triple l (Rolling m b t j todo clean) (do
      Coordinator.store (.updateReservationForAttempt j.attemptId .released)
      Coordinator.store (.reconcileAttempt j.attemptId .rolledBack now)
      Coordinator.store (.updateJournalPhase j.attemptId .rolledBack now)
      pure ReconcileOutcome.rolledBack)
      (fun r w => r ≠ .failed ∧ Sweep m b t todo clean w) (fun _ => Sweep m b t todo false) := by
    refine Triple.bind (Triple.pre Mending.closeReservation fun _ h => h.mending) fun _ => ?_
    refine Triple.bind (Mending.closeAttempt nofun) fun _ => ?_
    refine Triple.bind (Mending.closeJournal rfl hmem hopen rfl hnew) fun _ => ?_
    exact Triple.pure fun w hw => ⟨nofun, hw⟩
  cases audit with
  | none => exact hclose
  | some a =>
    exact Triple.bind ((Triple.storeCalm rfl Rolling.firm).post (fun _ _ h => h)
      (fun _ _ h => h.mending.failed)) fun _ => hclose

/-- entry `j` is being committed: `done` and `gone` are the rows dropped so far -/
structure Finishing (m : Regime) (b : Bool) (t : Tid) (j : JournalEntry) (current : ReclaimObject)
    (done : List Replica) (gone : List ArchiveRecord) (todo : List JournalEntry) (clean : Bool)
    (w : Traced) : Prop where
  mending : Mending m b t j true true todo clean w
  decided : m.honest = true → Decided j w
  row : rowOf w j.objectId = some current
  replicas : ∀ r ∈ done, w.store.replicas.find? r.replicaId = none
  archives : ∀ a ∈ gone, w.store.archives.find? a.archiveId = none

namespace Finishing

variable {current : ReclaimObject} {done : List Replica} {gone : List ArchiveRecord}

theorem stable : Stable env m t (Finishing m b t j current done gone todo clean) := by
  intro w w' hk h
  have hrec := h.mending.recovering
  obtain ⟨hobj, hrep, _, _, _, harc, _⟩ := hk.tables hrec
  obtain ⟨_, hpay, hblob⟩ := hk.data hrec
  refine ⟨Mending.stable w w' hk h.mending, ?_, ?_, ?_, ?_⟩
  · intro hm
    rw [Decided, hpay, hblob]
    exact h.decided hm
  · rw [rowOf, hobj]
    exact h.row
  · rw [hrep]
    exact h.replicas
  · rw [harc]
    exact h.archives

theorem firm : (party env m b t .recover).Firm
    (Finishing m b t j current done gone todo clean) := stable.firm

/-- a step that changes neither object rows nor what belongs to attempts -/
theorem of_still {done' : List Replica} {gone' : List ArchiveRecord}
    (h : Finishing m b t j current done gone todo clean w) (hs : Still w w')
    (hobj : w'.store.objects = w.store.objects) (hjou : w'.store.journal = w.store.journal)
    (hres : w'.store.reservations = w.store.reservations)
    (hatt : w'.store.attempts = w.store.attempts)
    (hrep : ∀ r ∈ done', w'.store.replicas.find? r.replicaId = none)
    (harc : ∀ a ∈ gone', w'.store.archives.find? a.archiveId = none) :
    Finishing m b t j current done' gone' todo clean w' := by
  refine ⟨h.mending.of_still hs hjou (fun Y _ => by rw [rowOf, rowOf, hobj]) hres hatt, ?_, ?_,
    hrep, harc⟩
  · intro hm
    rw [Decided, hs.payloads, hs.blobs]
    exact h.decided hm
  · rw [rowOf, hobj]
    exact h.row

theorem deleteReplica {known : List Replica} {r : Replica}
    (hsame : ∀ x ∈ known, ∀ y ∈ known, x.replicaId = y.replicaId → x = y)
    (hph : j.phase.physical = true) (hp : j.payload = payloadOf S plan) (hr : r ∈ S.dels)
    (hmatch : Triple.Matches known r) :
    (party env m b t .recover).Triple l
      (fun w => Finishing m b t j current done gone todo clean w ∧
        ∀ x ∈ w.store.replicas, x ∈ known)
      (Coordinator.store (.deleteReplica r.replicaId))
      (fun _ w => Finishing m b t j current (r :: done) gone todo clean w ∧
        ∀ x ∈ w.store.replicas, x ∈ known)
      (fun _ => Sweep m b t todo false) := by
  have hP : Stable env m t (fun w => Finishing m b t j current done gone todo clean w ∧
      ∀ x ∈ w.store.replicas, x ∈ known) := by
    intro w w' hk h
    refine ⟨stable w w' hk h.1, ?_⟩
    rw [(hk.tables h.1.mending.recovering).2.1]
    exact h.2
  refine Triple.store hP.firm ?_ (fun _ _ _ _ _ h => h.1.mending.failed)
  intro w _ s hw hi _ hrun
  have hd := Store.deleteReplica_ok hrun
  have hrep : s.replicas = w.store.replicas.erase r.replicaId := congrArg Data.replicas hd
  constructor
  · cases hf : w.store.replicas.find? r.replicaId with
    | none =>
      -- the row was dropped before the crash
      rw [Table.erase_of_none hf] at hd
      exact .quiet (Party.quiet_after ⟨hd, rfl, rfl, rfl, rfl, id, id, fun _ => id⟩)
    | some x =>
      have hswap := RowSwap.erase (T := w.store.replicas) (k := r.replicaId)
      rw [hf] at hswap
      refine .replica Party.still_store hd hswap (.recommit hw.1.mending.recovering
        hw.1.mending.entry hph ?_)
      have hx : x ∈ known := hw.2 x (Table.mem_of_find? hf)
      have hid : x.replicaId = r.replicaId := Table.key_of_find? hf
      cases hk : known.find? (fun y => decide (y.replicaId = r.replicaId)) with
      | none =>
        rw [List.find?_eq_none] at hk
        exact absurd (decide_eq_true hid) (by simpa using hk x hx)
      | some y =>
        have hy := List.mem_of_find?_eq_some hk
        have hyid : y.replicaId = r.replicaId := by simpa using List.find?_some hk
        obtain rfl := hsame x hx y hy (hid.trans hyid.symm)
        exact (hmatch x hk).1.trans ((hi.records hw.1.mending.entry hp).dels r hr)
  · refine ⟨hw.1.of_still Party.still_store (congrArg Data.objects hd) (congrArg Data.journal hd)
      (congrArg Data.reservations hd) (congrArg Data.attempts hd) ?_ ?_, ?_⟩
    · intro y hy
      show s.replicas.find? y.replicaId = none
      rw [hrep, Table.find?_erase]
      rcases List.mem_cons.mp hy with rfl | hy
      · rw [if_pos rfl]
      · split
        · rfl
        · exact hw.1.replicas y hy
    · intro a ha
      show s.archives.find? a.archiveId = none
      rw [show s.archives = w.store.archives from congrArg Data.archives hd]
      exact hw.1.archives a ha
    · intro x hx
      have hx : x ∈ s.replicas := hx
      rw [hrep, Table.mem_erase] at hx
      exact hw.2 x hx.1

/-- a reference that may have been released before the crash is released again -/
theorem dedupRelease {known : List Replica} {x : ContentHash} {y : String} :
    (party env m b t .recover).Triple l
      (fun w => Finishing m b t j current done gone todo clean w ∧
        ∀ r ∈ w.store.replicas, r ∈ known)
      (Coordinator.store (.dedupRelease x y))
      (fun _ w => Finishing m b t j current done gone todo clean w ∧
        ∀ r ∈ w.store.replicas, r ∈ known)
      (fun _ w => Finishing m b t j current done gone todo clean w ∧
        ∀ r ∈ w.store.replicas, r ∈ known) := by
  refine recoveryDedup (x := x) (y := y) ?_ (fun _ h => h.1.mending.recovering) ?_ ?_
  · intro w w' hk h
    refine ⟨stable w w' hk h.1, ?_⟩
    rw [(hk.tables h.1.mending.recovering).2.1]
    exact h.2
  · intro w w' T h hs hd
    have hrep : w'.store.replicas = w.store.replicas := congrArg Data.replicas hd
    refine ⟨h.1.of_still hs (congrArg Data.objects hd) (congrArg Data.journal hd)
      (congrArg Data.reservations hd) (congrArg Data.attempts hd) ?_ ?_, ?_⟩
    · rw [hrep]
      exact h.1.replicas
    · rw [show w'.store.archives = w.store.archives from congrArg Data.archives hd]
      exact h.1.archives
    · rw [hrep]
      exact h.2
  · intro w r s _ hi hrun
    obtain ⟨e, hf, _, _, hset⟩ := Store.dedupRelease_ok hrun
    refine ⟨_, hset, ?_⟩
    intro hm e' he'
    have hn := (hi.truthful hm).dedup e (Table.mem_of_find? hf)
    have hkey := Table.key_of_find? hf
    rw [(Prod.mk.inj hkey).1] at hn
    split at he'
    · cases he'
    · cases he'
      exact hn

theorem deleteArchive {known : List ArchiveRecord} {a : ArchiveRecord}
    (hsame : ∀ x ∈ known, ∀ y ∈ known, x.archiveId = y.archiveId → x = y)
    (hph : j.phase.physical = true) (hp : j.payload = payloadOf S plan) (ha : a ∈ S.archs)
    (hmatch : Triple.MatchesArchive known a) :
    (party env m b t .recover).Triple l
      (fun w => Finishing m b t j current done gone todo clean w ∧
        ∀ x ∈ w.store.archives, x ∈ known)
      (Coordinator.store (.deleteArchive a.archiveId))
      (fun _ w => Finishing m b t j current done (a :: gone) todo clean w ∧
        ∀ x ∈ w.store.archives, x ∈ known)
      (fun _ => Sweep m b t todo false) := by
  have hP : Stable env m t (fun w => Finishing m b t j current done gone todo clean w ∧
      ∀ x ∈ w.store.archives, x ∈ known) := by
    intro w w' hk h
    refine ⟨stable w w' hk h.1, ?_⟩
    rw [(hk.tables h.1.mending.recovering).2.2.2.2.2.1]
    exact h.2
  refine Triple.store hP.firm ?_ (fun _ _ _ _ _ h => h.1.mending.failed)
  intro w _ s hw hi _ hrun
  have hd := Store.deleteArchive_ok hrun
  have harc : s.archives = w.store.archives.erase a.archiveId := congrArg Data.archives hd
  constructor
  · cases hf : w.store.archives.find? a.archiveId with
    | none =>
      rw [Table.erase_of_none hf] at hd
      exact .quiet (Party.quiet_after ⟨hd, rfl, rfl, rfl, rfl, id, id, fun _ => id⟩)
    | some x =>
      have hswap := RowSwap.erase (T := w.store.archives) (k := a.archiveId)
      rw [hf] at hswap
      refine .archive Party.still_store hd hswap (.recommit hw.1.mending.recovering
        hw.1.mending.entry hph ?_)
      have hx : x ∈ known := hw.2 x (Table.mem_of_find? hf)
      have hid : x.archiveId = a.archiveId := Table.key_of_find? hf
      cases hk : known.find? (fun y => decide (y.archiveId = a.archiveId)) with
      | none =>
        rw [List.find?_eq_none] at hk
        exact absurd (decide_eq_true hid) (by simpa using hk x hx)
      | some y =>
        have hy := List.mem_of_find?_eq_some hk
        have hyid : y.archiveId = a.archiveId := by simpa using List.find?_some hk
        obtain rfl := hsame x hx y hy (hid.trans hyid.symm)
        exact (hmatch x hk).1.trans ((hi.records hw.1.mending.entry hp).archs a ha).1
  · refine ⟨hw.1.of_still Party.still_store (congrArg Data.objects hd) (congrArg Data.journal hd)
      (congrArg Data.reservations hd) (congrArg Data.attempts hd) ?_ ?_, ?_⟩
    · intro r hr
      show s.replicas.find? r.replicaId = none
      rw [show s.replicas = w.store.replicas from congrArg Data.replicas hd]
      exact hw.1.replicas r hr
    · intro y hy
      show s.archives.find? y.archiveId = none
      rw [harc, Table.find?_erase]
      rcases List.mem_cons.mp hy with rfl | hy
      · rw [if_pos rfl]
      · split
        · rfl
        · exact hw.1.archives y hy
    · intro x hx
      have hx : x ∈ s.archives := hx
      rw [harc, Table.mem_erase] at hx
      exact hw.2 x hx.1

/-- once all journalled rows are dropped the object owns none -/
theorem owns_nothing (h : Finishing m b t j current done gone todo clean w) (hi : Inv env m b w)
    (hm : m.honest = true) (hph : j.phase.physical = true) (hp : j.payload = payloadOf S plan)
    (hdone : ∀ r ∈ S.dels, r ∈ done) (hgone : ∀ a ∈ S.archs, a ∈ gone) :
    (∀ r ∈ w.store.replicas, r.objectId ≠ j.objectId) ∧
      ∀ a ∈ w.store.archives, a.objectId ≠ j.objectId := by
  obtain ⟨hrep, harc⟩ := (hi.truthful hm).covered j h.mending.entry hph S plan hp
  constructor
  · intro r hr hX
    obtain ⟨d, hd, hdesc⟩ := hrep r hr hX
    have hid : d.replicaId = r.replicaId := by
      show d.desc.replicaId = r.desc.replicaId
      rw [hdesc]
    have hnone := h.replicas d (hdone d hd)
    rw [hid, Table.find?_of_mem hr] at hnone
    cases hnone
  · intro a ha hX
    have hnone := h.archives a (hgone a (harc a ha hX))
    rw [Table.find?_of_mem ha] at hnone
    cases hnone

/-- the object row is written as RECLAIMED -/
theorem writeReclaimed {o : ReclaimObject} (himm : o.immut = current.immut)
    (hflags : o.flags = current.flags) (hstate : o.lifecycleState = .reclaimed)
    (hph : j.phase.physical = true) (hp : j.payload = payloadOf S plan)
    (hdone : ∀ r ∈ S.dels, r ∈ done) (hgone : ∀ a ∈ S.archs, a ∈ gone) :
    (party env m b t .recover).Triple l (Finishing m b t j current done gone todo clean)
      (Coordinator.store (.updateObject o)) (fun _ => Mending m b t j true true todo clean)
      (fun _ => Sweep m b t todo false) := by
  refine Triple.store firm ?_ (fun _ _ _ _ _ h => h.mending.failed)
  intro w r s hw hi _ hrun
  obtain ⟨hv, hc, hd, hfind⟩ := StoreOp.writesRow_updateObject o _ _ _ hrun
  have hrec := hi.records hw.mending.entry hp
  obtain ⟨o₀, ho, himm₀⟩ := hrec.row
  rw [hw.row] at ho
  cases ho
  have hcur : current.id = j.objectId := Table.key_of_find? hw.row
  have hid : o.id = j.objectId := by
    rw [← hcur]
    show o.immut.id = current.immut.id
    rw [himm]
  rw [hid] at hfind
  constructor
  · refine .row Party.still_store hd hfind hid ⟨hv, hc, ?_⟩ (.recommit rfl
      hw.mending.recovering hw.row hw.mending.entry rfl hph himm hflags hstate ?_)
    · intro _
      rw [immut_contentHash (himm.trans himm₀)]
      exact hrec.prior.hashed
    · exact fun hm => ⟨hw.decided hm, hw.owns_nothing hi hm hph hp hdone hgone⟩
  · have hobj : s.objects = _ := congrArg Data.objects hd
    refine hw.mending.of_still Party.still_store (congrArg Data.journal hd) ?_
      (congrArg Data.reservations hd) (congrArg Data.attempts hd)
    intro Y hY
    show s.objects.find? Y = _
    rw [hobj]
    exact (hfind Y).trans (if_neg hY)

theorem commitObject (hph : j.phase.physical = true) (hp : j.payload = payloadOf S plan)
    (hdone : ∀ r ∈ S.dels, r ∈ done) (hgone : ∀ a ∈ S.archs, a ∈ gone) :
    (party env m b t .recover).Triple l (Finishing m b t j current done gone todo clean)
      (Coordinator.commitObject now j current) (fun _ => Mending m b t j true true todo clean)
      (fun _ => Sweep m b t todo false) := by
  refine Triple.ite (fun _ => ?_) fun _ => Triple.pure fun _ h => h.mending
  refine Triple.bind (writeReclaimed rfl rfl rfl hph hp hdone hgone) fun _ => ?_
  exact (Triple.storeCalm rfl Mending.firm).post (fun _ _ h => h) (fun _ _ h => h.failed)

end Finishing

/-- entry `j` is next, and recovery decides to commit it -/
structure Condemned (m : Regime) (b : Bool) (t : Tid) (j : JournalEntry) (S : Snapshot)
    (todo : List JournalEntry) (clean : Bool) (w : Traced) : Prop where
  sweep : Sweep m b t (j :: todo) clean w
  equipped : Equipped S j w
  decided : m.honest = true → Decided j w

theorem stable_condemned : Stable env m t (Condemned m b t j S todo clean) := by
  intro w w' hk h
  obtain ⟨_, hpay, hblob⟩ := hk.data h.sweep.begun.recovering
  refine ⟨stable_sweep w w' hk h.sweep, ?_, ?_⟩
  · intro hph
    rw [hk.config]
    exact h.equipped hph
  · intro hm
    rw [Decided, hpay, hblob]
    exact h.decided hm

/-- the metadata release of `commit_after_crash` and the rest -/
theorem releaseRows {α : Type} {current : ReclaimObject} {rest : M α} {Q : α → Traced → Prop}
    (hph : j.phase.physical = true) (hp : j.payload = payloadOf S plan)
    (hrest : (party env m b t .recover).Triple l
      (Finishing m b t j current S.dels.reverse S.archs.reverse todo clean) rest Q
      (fun _ => Sweep m b t todo false)) :
    (party env m b t .recover).Triple l (Finishing m b t j current [] [] todo clean) (do
      let replicas ← Coordinator.store .allReplicas
      Coordinator.commitReplicas j replicas S.dels
      let archives ← Coordinator.store .listArchives
      Coordinator.commitArchives j archives S.archs
      rest) Q (fun _ => Sweep m b t todo false) := by
  have hfirm {done : List Replica} {gone : List ArchiveRecord} (known : List Replica) :
      Stable env m t (fun w => Finishing m b t j current done gone todo clean w ∧
        ∀ x ∈ w.store.replicas, x ∈ known) := by
    intro w w' hk h
    refine ⟨Finishing.stable w w' hk h.1, ?_⟩
    rw [(hk.tables h.1.mending.recovering).2.1]
    exact h.2
  have hfirmA {done : List Replica} {gone : List ArchiveRecord} (known : List ArchiveRecord) :
      Stable env m t (fun w => Finishing m b t j current done gone todo clean w ∧
        ∀ x ∈ w.store.archives, x ∈ known) := by
    intro w w' hk h
    refine ⟨Finishing.stable w w' hk h.1, ?_⟩
    rw [(hk.tables h.1.mending.recovering).2.2.2.2.2.1]
    exact h.2
  refine Triple.bind (R := fun known w =>
    (∀ x ∈ known, ∀ y ∈ known, x.replicaId = y.replicaId → x = y) ∧
      Finishing m b t j current [] [] todo clean w ∧ ∀ x ∈ w.store.replicas, x ∈ known)
    (Triple.answer Finishing.firm (fun known => Party.Firm.and (.const _) (hfirm known).firm) rfl
      ?_ fun _ _ h => h.mending.failed) fun known => Triple.of_pure fun hsame => ?_
  · intro w known s hw _ hrun
    have hmem (x : Replica) : x ∈ known ↔ x ∈ w.store.replicas := Store.allReplicas_ok hrun
    refine ⟨?_, hw, fun x hx => (hmem x).mpr hx⟩
    intro x hx y hy hid
    exact Table.eq_of_key ((hmem x).mp hx) ((hmem y).mp hy) hid
  refine Triple.bind (Triple.commitReplicas (P := fun done w =>
    Finishing m b t j current done [] todo clean w ∧ ∀ x ∈ w.store.replicas, x ∈ known)
    (fun _ _ _ h => h.1.mending.failed)
    (fun _ r hr hmatch => Finishing.deleteReplica hsame hph hp hr hmatch)
    (fun _ r _ => Finishing.dedupRelease)) fun _ => ?_
  rw [List.append_nil]
  refine Triple.bind (R := fun known w =>
    (∀ x ∈ known, ∀ y ∈ known, x.archiveId = y.archiveId → x = y) ∧
      Finishing m b t j current S.dels.reverse [] todo clean w ∧
        ∀ x ∈ w.store.archives, x ∈ known)
    (Triple.answer (hfirm known).firm
      (fun known => Party.Firm.and (.const _) (hfirmA known).firm) rfl ?_
      fun _ _ h => h.1.mending.failed) fun knownA => Triple.of_pure fun hsameA => ?_
  · intro w knownA s hw _ hrun
    have hmem (x : ArchiveRecord) : x ∈ knownA ↔ x ∈ w.store.archives := Store.listArchives_ok hrun
    refine ⟨?_, hw.1, fun x hx => (hmem x).mpr hx⟩
    intro x hx y hy hid
    exact Table.eq_of_key ((hmem x).mp hx) ((hmem y).mp hy) hid
  refine Triple.bind (Triple.commitArchives (P := fun gone w =>
    Finishing m b t j current S.dels.reverse gone todo clean w ∧
      ∀ x ∈ w.store.archives, x ∈ knownA) (fun _ _ _ h => h.1.mending.failed)
    (fun _ a ha hmatch => Finishing.deleteArchive hsameA hph hp ha hmatch)) fun _ => ?_
  rw [List.append_nil]
  exact hrest.pre fun _ h => h.1

/-- `commit_after_crash` of an entry whose payloads are gone -/
theorem commitAfterCrash (hph : j.phase.physical = true) (hp : j.payload = payloadOf S plan)
    (hnew : ∀ e ∈ todo, e.attemptId ≠ j.attemptId) :
    (party env m b t .recover).Triple l (Condemned m b t j S todo clean)
      (Coordinator.commitAfterCrash now j ⟨S.prior, S.dels, plan, S.archs⟩)
      (fun r w => r ≠ .failed ∧ Sweep m b t todo clean w) (fun _ => Sweep m b t todo false) := by
  have hopen : j.phase.isOpen = true := by
    revert hph
    cases j.phase <;> decide
  have hmem : j.phase ∈ [JournalPhase.physicalStarted, .physicalDone] := by
    revert hph
    cases j.phase <;> decide
  refine Triple.bind (R := fun r w => (∀ current, r = some current →
    Finishing m b t j current [] [] todo clean w) ∧ Sweep m b t todo false w)
    (Triple.answer stable_condemned.firm (fun r => Party.Firm.and (Party.Firm.forall fun current =>
      Party.Firm.imp_const fun _ => Finishing.firm) stable_sweep.firm) rfl ?_
      fun _ _ h => h.sweep.weaken) fun r => ?_
  · intro w r s hw hi hrun
    have hr : r = rowOf w j.objectId := by
      cases hrun
      rfl
    refine ⟨?_, hw.sweep.weaken⟩
    intro current hcur
    have hrow : rowOf w j.objectId = some current := hr.symm.trans hcur
    exact ⟨Mending.start hw.sweep hi hopen hp hw.equipped, hw.decided, hrow, nofun, nofun⟩
  cases r with
  | none => exact Triple.throw fun _ h => h.2
  | some current =>
    refine Triple.refuse (fun _ _ h => h.2) fun _ => ?_
    refine Triple.pre (releaseRows hph hp ?_) fun w hw => hw.1 current rfl
    refine Triple.bind (Finishing.commitObject hph hp
      (fun r hr => List.mem_reverse.mpr hr) (fun a ha => List.mem_reverse.mpr ha)) fun _ => ?_
    refine Triple.bind Mending.closeReservation fun _ => ?_
    refine Triple.bind (Mending.closeAttempt nofun) fun _ => ?_
    refine Triple.bind (Mending.closeJournal rfl hmem hopen rfl hnew) fun _ => ?_
    exact Triple.pure fun w hw => ⟨nofun, hw⟩

end ReclaimFabric
