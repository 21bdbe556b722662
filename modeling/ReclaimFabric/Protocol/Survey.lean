import ReclaimFabric.Protocol.Reserve

/-!
# The checks before a reservation

What `Coordinator::reclaim` has established when it makes its reservation.

* `Surveyed`          the object row passed the refusals and no attempt on it is unresolved;
* `Counted`, `Filed`  the replica and archive rows as they were listed;
* `survivability`     deleting all of them is admitted only where no copy has to remain;
* `reserve`           the reservation, the attempt and the journal row in one transaction.
-/

set_option linter.unusedSectionVars false

namespace ReclaimFabric

open Party (Triple)

variable {env : Env} {m : Regime} {b : Bool} {t : Tid} {op : Op} {X : Uuid}
  {w w' : Traced} {l : Bool} {req : ReclaimRequest} {o : ReclaimObject} {now : Int}
  {rs : List Replica} {as : List ArchiveRecord}

/-! ## assertions -/

/-- the object could be dropped, its row is known, and no attempt on it is unresolved -/
structure Surveyed (m : Regime) (t : Tid) (X : Uuid) (o : ReclaimObject) (w : Traced) : Prop where
  found : Found m t X o w
  alone : m.honest = true → NoOpen X w
  vacant : ∀ r ∈ w.store.reservations, r.objectId = X → r.status ≠ .isOpen

theorem stable_surveyed : Stable env m t (Surveyed m t X o) := by
  intro w w' hk h
  refine ⟨stable_found w w' hk h.found, ?_, ?_⟩
  · intro hm j hj hX
    exact h.alone hm j ((hk.journal X h.found.ready.held.mine j hX).mp hj) hX
  · intro r hr hX
    exact h.vacant r ((hk.reservations X h.found.ready.held.mine r hX).mp hr) hX

/-- the replica rows of the object are those listed; a row can only become invalid -/
structure Counted (env : Env) (m : Regime) (X : Uuid) (rs : List Replica) (w : Traced) :
    Prop where
  rows : ∀ r ∈ w.store.replicas, r.objectId = X →
    ∃ d ∈ rs, d.desc = r.desc ∧ (r.valid = true → d.valid = true)
  present : ∀ d ∈ rs, Present d w
  owned : ∀ d ∈ rs, d.objectId = X
  nodup : (rs.map Replica.replicaId).Nodup
  names : m.honest = true → ∀ d ∈ rs, Named env m.bytes w d.location.key d.contentHash

/-- the archive rows of the object are those listed -/
structure Filed (X : Uuid) (as : List ArchiveRecord) (w : Traced) : Prop where
  rows : ∀ a, a ∈ as ↔ a ∈ w.store.archives ∧ a.objectId = X
  keys : ∀ a ∈ as, ArchiveKeyOf X a.key
  nodup : (as.map ArchiveRecord.archiveId).Nodup

theorem Counted.keep (h : Counted env m X rs w) (hk : Keep env m t w w') (hX : Own t X w) :
    Counted env m X rs w' where
  rows := fun r hr hrX => by
    obtain ⟨r₀, hr₀, hd, hv⟩ := (hk.replicas X hX).back r hr hrX
    obtain ⟨d, hdm, he, hv'⟩ := h.rows r₀ hr₀ ((Replica.object_of_desc hd).trans hrX)
    exact ⟨d, hdm, he.trans hd, fun hval => hv' (hv hval)⟩
  present := fun d hd => by
    obtain ⟨r, hr, he⟩ := h.present d hd
    obtain ⟨r', hr', he'⟩ := (hk.replicas X hX).forth r hr
      ((Replica.object_of_desc he).trans (h.owned d hd))
    exact ⟨r', hr', he'.trans he⟩
  owned := h.owned
  nodup := h.nodup
  names := fun hm d hd => hk.named (h.names hm d hd)

theorem Filed.keep (h : Filed X as w) (hk : Keep env m t w w') (hX : Own t X w) :
    Filed X as w' where
  rows := fun a => by
    rw [h.rows a]
    constructor
    · exact fun ha => ⟨(hk.archives X hX a ha.2).mpr ha.1, ha.2⟩
    · exact fun ha => ⟨(hk.archives X hX a ha.2).mp ha.1, ha.2⟩
  keys := h.keys
  nodup := h.nodup

theorem stable_counted : Stable env m t (fun w => Surveyed m t X o w ∧ Counted env m X rs w) :=
  fun w w' hk h => ⟨stable_surveyed w w' hk h.1, h.2.keep hk h.1.found.ready.held.mine⟩

/-- everything the reservation records -/
def Listed (env : Env) (m : Regime) (t : Tid) (X : Uuid) (o : ReclaimObject) (rs : List Replica)
    (as : List ArchiveRecord) (w : Traced) : Prop :=
  (Surveyed m t X o w ∧ Counted env m X rs w) ∧ Filed X as w

theorem stable_listed : Stable env m t (Listed env m t X o rs as) :=
  fun w w' hk h => ⟨stable_counted w w' hk h.1, h.2.keep hk h.1.1.found.ready.held.mine⟩

/-! ## the refusals -/

theorem reclaimChecks_ok (h : Coordinator.reclaimChecks o = .ok ()) :
    o.pinned = false ∧ o.isProtected = false ∧ o.lifecycleState ≠ .reclaimed ∧
      o.lifecycleState ≠ .failed := by
  simp only [Coordinator.reclaimChecks] at h
  split at h
  · cases h
  next hp =>
  split at h
  · cases h
  next hq =>
  split at h
  · cases h
  next hr =>
  split at h
  · cases h
  next hf => exact ⟨by simpa using hp, by simpa using hq, hr, hf⟩

theorem checkDeadline_ok (h : Coordinator.checkDeadline o now = .ok ()) :
    ∀ d, o.minRetentionDeadlineMs = some d → d ≤ now := by
  intro d hd
  simp only [Coordinator.checkDeadline, hd] at h
  split at h
  · cases h
  · omega

/-- without an open reservation no attempt is parked -/
theorem Found.noOpen (h : Found m t X o w)
    (hno : ∀ r ∈ w.store.reservations, r.objectId = X → r.status ≠ .isOpen)
    (hm : m.honest = true) : NoOpen X w := by
  intro j hj hX
  by_contra hopen
  obtain ⟨r, hr, _, hrX, hst⟩ :=
    (h.fine.parked hm j hj hX (by simpa using hopen)).reserved
  exact hno r hr (hrX.trans hX) hst

theorem noReservation :
    (party env m b t op).Triple false (Found m t X o) (Coordinator.inner (.hasOpenReservationFor X))
      (fun b w => (b = true → Ready m t X w) ∧ (b = false → Surveyed m t X o w))
      (fun _ => Ready m t X) := by
  have hstable (x : Bool) : Stable env m t (fun w => (x = true → Ready m t X w) ∧
      (x = false → Surveyed m t X o w)) :=
    Stable.and (Stable.imp fun _ => stable_ready) (Stable.imp fun _ => stable_surveyed)
  refine Triple.post (Triple.innerAnswer (R := fun _ => True) stable_found.firm (.const True)
    (fun x => (hstable x).firm) rfl (fun _ _ _ _ => trivial) ?_) (fun _ _ h => h)
    fun _ _ h => h.ready
  intro w x s hw _ _ hrun
  refine ⟨fun _ => hw.ready, fun hx => ?_⟩
  have hno : ∀ r ∈ w.store.reservations, r.objectId = X → r.status ≠ .isOpen := by
    have hrun : w.store.hasOpenReservationFor X = .ok (x, s) := hrun
    cases hrun
    intro r hr hX hst
    have hany := List.any_eq_false.mp hx r hr
    simp [hX, hst] at hany
  exact ⟨hw, hw.noOpen hno, hno⟩

/-! ## the rows that would go -/

theorem listReplicas :
    (party env m b t op).Triple false (Surveyed m t X o) (Coordinator.inner (.replicasFor X))
      (fun rs w => Surveyed m t X o w ∧ Counted env m X rs w) (fun _ => Ready m t X) := by
  refine Triple.post (Triple.innerAnswer (R := fun _ => True) stable_surveyed.firm (.const True)
    (fun x => stable_counted.firm) rfl (fun _ _ _ _ => trivial) ?_) (fun _ _ h => h)
    fun _ _ h => h.found.ready
  intro w rs s hw _ hi hrun
  have hmem := fun r => Store.replicasFor_ok (r := r) hrun
  refine ⟨hw, ?_, ?_, ?_, ?_, ?_⟩
  · exact fun r hr hX => ⟨r, (hmem r).mpr ⟨hr, hX⟩, rfl, id⟩
  · exact fun d hd => ⟨d, ((hmem d).mp hd).1, rfl⟩
  · exact fun d hd => ((hmem d).mp hd).2
  · have hrun : w.store.replicasFor X = .ok (rs, s) := hrun
    cases hrun
    refine ((List.perm_insertionSort _ _).map _).nodup_iff.mpr ?_
    exact w.store.replicas.nodup.sublist (List.filter_sublist.map _)
  · exact fun hm d hd => (hi.truthful hm).replicas d ((hmem d).mp hd).1

theorem Filed.of_read {s : Store} (hi : Inv env m b w)
    (hrun : w.store.archivesFor X = .ok (as, s)) : Filed X as w := by
  have hmem := fun a => Store.archivesFor_ok (a := a) hrun
  refine ⟨hmem, ?_, ?_⟩
  · intro a ha
    obtain ⟨har, haX⟩ := (hmem a).mp ha
    rw [← haX]
    exact hi.archives a har
  · cases hrun
    refine ((List.perm_insertionSort _ _).map _).nodup_iff.mpr ?_
    exact w.store.archives.nodup.sublist (List.filter_sublist.map _)

theorem listArchives :
    (party env m b t op).Triple false (fun w => Surveyed m t X o w ∧ Counted env m X rs w)
      (Coordinator.inner (.archivesFor X)) (fun as => Listed env m t X o rs as)
      (fun _ => Ready m t X) := by
  refine Triple.post (Triple.innerAnswer (R := fun _ => True) stable_counted.firm (.const True)
    (fun x => stable_listed.firm) rfl (fun _ _ _ _ => trivial) ?_) (fun _ _ h => h)
    fun _ _ h => h.1.found.ready
  intro w as s hw _ hi hrun
  exact ⟨hw, .of_read hi hrun⟩

/-! ## survivability -/

/-- the valid rows of the object are among the valid ones that were listed -/
theorem Counted.validCount_le (h : Counted env m X rs w) :
    w.store.replicas.countWhere (fun r => decide (r.objectId = X) && r.valid) ≤
      (rs.filter Replica.valid).length := by
  have hnodup : ((w.store.replicas.rows.filter
      (fun r => decide (r.objectId = X) && r.valid)).map Replica.replicaId).Nodup :=
    w.store.replicas.nodup.sublist (List.filter_sublist.map _)
  have hsub : (w.store.replicas.rows.filter
      (fun r => decide (r.objectId = X) && r.valid)).map Replica.replicaId ⊆
      (rs.filter Replica.valid).map Replica.replicaId := by
    intro id hid
    obtain ⟨r, hr, rfl⟩ := List.mem_map.mp hid
    rw [List.mem_filter, Bool.and_eq_true, decide_eq_true_iff] at hr
    obtain ⟨d, hd, he, hv⟩ := h.rows r hr.1 hr.2.1
    exact List.mem_map.mpr ⟨d, List.mem_filter.mpr ⟨hd, hv hr.2.2⟩, Replica.id_of_desc he⟩
  have hlen := (List.subperm_of_subset hnodup hsub).length_le
  rw [List.length_map, List.length_map, ← List.countP_eq_length_filter] at hlen
  exact hlen

theorem Filed.length_eq {as' : List ArchiveRecord} (h : Filed X as w) (h' : Filed X as' w) :
    as'.length = as.length := by
  have hperm : as'.Perm as := by
    rw [List.perm_ext_iff_of_nodup (List.Nodup.of_map _ h'.nodup) (List.Nodup.of_map _ h.nodup)]
    intro a
    rw [h.rows, h'.rows]
  exact hperm.length_eq

/-- a reclaim deletes every copy, so no copy may have to remain -/
theorem survivability (hid : o.id = X) :
    (party env m b t op).Triple false (Listed env m t X o rs as)
      (Coordinator.checkSurvivability o rs as.length)
      (fun _ w => o.durabilityClass.minValidCopies = 0 ∧ Listed env m t X o rs as w)
      (fun _ => Ready m t X) := by
  have hready (w : Traced) (h : Listed env m t X o rs as w) : Ready m t X w := h.1.1.found.ready
  refine Triple.bind (R := fun n w => n ≤ (rs.filter Replica.valid).length + as.length ∧
    Listed env m t X o rs as w) ?_ fun n => Triple.of_pure fun hn => ?_
  · rw [Coordinator.validCopyCount, hid]
    refine Triple.bind (R := fun n w => n ≤ (rs.filter Replica.valid).length ∧
      Listed env m t X o rs as w) ?_ fun n => Triple.of_pure fun hn => ?_
    · refine Triple.post (Triple.innerAnswer (R := fun _ => True) stable_listed.firm (.const True)
        (fun _ => (Stable.and (Stable.const _) stable_listed).firm) rfl (fun _ _ _ _ => trivial) ?_)
        (fun _ _ h => h) fun _ => hready
      intro w n s hw _ _ hrun
      have hrun : w.store.validReplicaCount X = .ok (n, s) := hrun
      cases hrun
      exact ⟨hw.1.2.validCount_le, hw⟩
    · refine Triple.bind (R := fun as' w => as'.length = as.length ∧ Listed env m t X o rs as w)
        ?_ fun as' => Triple.of_pure fun hlen => Triple.pure fun w hw => ⟨by omega, hw⟩
      refine Triple.post (Triple.innerAnswer (R := fun _ => True) stable_listed.firm (.const True)
        (fun _ => (Stable.and (Stable.const _) stable_listed).firm) rfl (fun _ _ _ _ => trivial) ?_)
        (fun _ _ h => h) fun _ => hready
      intro w as' s hw _ hi hrun
      exact ⟨hw.2.length_eq (Filed.of_read hi hrun), hw⟩
  · refine Triple.ite (fun _ => Triple.throw hready) fun hmin => Triple.pure fun w hw => ⟨?_, hw⟩
    omega

/-! ## the reservation -/

theorem not_legal_created : ¬Legal .created .reclaimPending := by
  rintro ⟨r, hr⟩
  cases hr

theorem PriorOk.hashed (h : PriorOk o now) : o.contentHash.isSome = true := by
  refine h.row.hashed ?_
  intro hc
  have hr := (preflight_ok h.route).2 (by rw [hc]; rfl)
  rw [hc] at hr
  exact not_legal_created hr

/-- an object that passes the preflight has a recipe, unless it is archived -/
theorem PriorOk.recipe (h : PriorOk o now)
    (hdoomed : Doomed o.lifecycleState → o.Recipe)
    (harchived : o.lifecycleState = .archived → o.Recipe) : o.Recipe := by
  by_cases hl : Coordinator.LiveTier o.lifecycleState = true
  · have hroute := h.route
    simp only [Coordinator.preflight, hl, if_true] at hroute
    split at hroute
    · cases hroute
    next hrec =>
    rw [Bool.and_eq_true, not_and_or] at hrec
    rcases hrec with hrec | hrec
    · exact .inr (by simpa [ReclaimObject.reconstructible, Option.isSome_iff_ne_none] using hrec)
    · exact .inl (by simpa using hrec)
  · have hr := (preflight_ok h.route).2 (by simpa using hl)
    cases hs : o.lifecycleState with
    | created => rw [hs] at hr; exact absurd hr not_legal_created
    | hot => rw [hs] at hl; exact absurd rfl hl
    | warm => rw [hs] at hl; exact absurd rfl hl
    | cold => rw [hs] at hl; exact absurd rfl hl
    | compressed => rw [hs] at hl; exact absurd rfl hl
    | deduped => exact hdoomed (.inl hs)
    | archived => exact harchived hs
    | recomputable => exact hdoomed (.inr (.inl hs))
    | reclaimPending => exact hdoomed (.inr (.inr (.inl hs)))
    | reclaimed => exact absurd hs h.notReclaimed
    | failed => exact absurd hs h.notFailed

/-- the three rows of the reservation -/
def journalRow (report : ReclaimReport) (o : ReclaimObject) (S : Snapshot) (now : Int) :
    JournalEntry :=
  ⟨report.attemptId, o.id, o.generation, .reserved, now, now, payloadOf S none⟩

def reservationRow (report : ReclaimReport) (o : ReclaimObject) (now ttl : Int) : Reservation :=
  ⟨report.reservationId, report.attemptId, o.id, o.generation, "coordinator", now, now + ttl,
    .isOpen⟩

def attemptRow (report : ReclaimReport) (o : ReclaimObject) (now : Int) : Attempt :=
  ⟨report.attemptId, o.id, o.generation, "coordinator", now, now, .isOpen⟩

variable {report : ReclaimReport} {ttl : Int}

/-- what justifies the reservation -/
theorem Listed.reserveJust (h : Listed env m t X o rs as w) (hi : Inv env m b w) (hid : o.id = X)
    (hprior : PriorOk o now)
    (hallow : m.recipe = true → o.lifecycleState = .archived → o.Recipe) :
    ReserveJust env m t (.reclaim req) w (journalRow report o ⟨o, rs, as⟩ now)
      (reservationRow report o now ttl) (attemptRow report o now) ⟨o, rs, as⟩ where
  reclaim := ⟨req, rfl⟩
  own := by
    show Own t o.id w
    rw [hid]
    exact h.1.1.found.ready.held.mine
  row := by
    show rowOf w o.id = some o
    rw [hid]
    exact h.1.1.found.row
  payload := rfl
  phase := rfl
  generation := rfl
  prior := hprior
  recipe := fun hm =>
    hprior.recipe (fun hd => hi.recipe hm X o h.1.1.found.row hd) (hallow hm)
  reservation := ⟨rfl, rfl, rfl, rfl⟩
  attempt := ⟨rfl, rfl, rfl⟩
  dels := fun d hd => ⟨(h.1.2.owned d hd).trans hid.symm, fun hm => h.1.2.names hm d hd⟩
  archs := fun a ha => by
    refine ⟨((h.2.rows a).mp ha).2.trans hid.symm, ?_⟩
    show ArchiveKeyOf o.id a.key
    rw [hid]
    exact h.2.keys a ha
  acked := fun hm => by
    show acknowledged o.id w.log = _
    rw [hid]
    exact h.1.1.found.ready.settled.acked hm o h.1.1.found.row
  alone := fun hm => by
    show NoOpen o.id w
    rw [hid]
    exact h.1.1.alone hm
  vacant := fun x hx hX => h.1.1.vacant x hx (Eq.trans hX hid)
  covers := fun r hr hX => by
    obtain ⟨d, hd, he, -⟩ := h.1.2.rows r hr (Eq.trans hX hid)
    exact ⟨d, hd, he⟩
  listed := h.1.2.present
  filed := fun x hx => ((h.2.rows x).mp hx).1
  delsNodup := h.1.2.nodup
  archsNodup := h.2.nodup

/-- no attempt is unresolved when the regime cares -/
theorem Surveyed.noOpen (h : Surveyed m t X o w) (hm : m.wrapped = true ∨ m.honest = true) :
    NoOpen X w := hm.elim h.found.fine.resolved h.alone

/-- the reservation is made: the attempt begins -/
theorem Listed.working (h : Listed env m t X o rs as w) (hid : o.id = X) (hprior : PriorOk o now)
    {J : Table JournalEntry.attemptId} {V : Table Reservation.reservationId}
    {A : Table Attempt.attemptId} (hs : Still w w')
    (hd : w'.store.data = { w.store.data with journal := J, reservations := V, attempts := A })
    (hJ : RowSwap w.store.journal J report.attemptId none
      (some (journalRow report o ⟨o, rs, as⟩ now)))
    (hV : RowSwap w.store.reservations V report.reservationId none
      (some (reservationRow report o now ttl)))
    (hA : RowSwap w.store.attempts A report.attemptId none (some (attemptRow report o now)))
    (hlog : w'.log = .call t (.reclaim req) (.store (.createReclaimReservation
      (journalRow report o ⟨o, rs, as⟩ now) (reservationRow report o now ttl)
      (attemptRow report o now))) (.ok ()) w.toWorld :: w.log) :
    Working env m t X (.fresh report.attemptId report.reservationId ⟨o, rs, as⟩) w' := by
  have hjou : w'.store.journal = J := congrArg Data.journal hd
  have hrow : ∀ Y, rowOf w' Y = rowOf w Y := fun Y => by
    rw [rowOf, rowOf, show w'.store.objects = w.store.objects from congrArg Data.objects hd]
  have hrep : w'.store.replicas = w.store.replicas := congrArg Data.replicas hd
  have harc : w'.store.archives = w.store.archives := congrArg Data.archives hd
  have hopen (hm : m.wrapped = true ∨ m.honest = true) (j : JournalEntry)
      (hj : j ∈ w'.store.journal) (hX : j.objectId = X) (ho : j.phase.isOpen = true) :
      j = journalRow report o ⟨o, rs, as⟩ now := by
    rw [hjou, hJ.2.2.2.2] at hj
    rcases hj with ⟨hj, _⟩ | hj
    · rw [h.1.1.noOpen hm j hj hX] at ho
      cases ho
    · exact (Option.some.inj hj).symm
  have hack (hm : m.wrapped = true) : acknowledged X w'.log = some o.flags :=
    (hs.acknowledged X).trans (h.1.1.found.ready.settled.acked hm o h.1.1.found.row)
  have huntouched (hm : m.wrapped = true) :
      Untouched (journalRow report o ⟨o, rs, as⟩ now) w' := by
    intro S plan hp
    have hp : payloadOf ⟨o, rs, as⟩ none = payloadOf S plan := hp
    obtain ⟨rfl, _⟩ := payloadOf_inj hp
    refine ⟨?_, [], _, w.log, hlog, ?_, fun e he => absurd he List.not_mem_nil⟩
    · show acknowledged o.id w'.log = _
      rw [hid]
      exact hack hm
    · refine ⟨t, req, _, _, _, _, rfl, rfl, rfl, rfl, ?_⟩
      show rowOf w o.id = some o
      rw [hid]
      exact h.1.1.found.row
  refine ⟨?_, ?_, ?_⟩
  · exact
      { id := hid
        row := hprior.row
        hashed := hprior.hashed
        dels := h.1.2.owned
        nodup := h.1.2.nodup
        archNodup := h.2.nodup
        archKeys := fun a ha => ⟨((h.2.rows a).mp ha).2, h.2.keys a ha⟩
        reps := fun _ hr => hr
        archs := fun _ ha => ha
        gone := fun _ h => absurd h List.not_mem_nil
        blobs := fun _ h => absurd h List.not_mem_nil }
  · exact
      { held := hs.held h.1.1.found.ready.held
        row := (hrow X).trans h.1.1.found.row
        journal := by
          refine ⟨journalRow report o ⟨o, rs, as⟩ now, ?_, rfl, hid, rfl, rfl⟩
          rw [hjou, hJ.2.2.2.2]
          exact .inr rfl
        alone := fun hm j hj hX ho => by
          rw [hopen hm j hj hX ho]
          rfl
        reserved := fun _ => by
          refine ⟨reservationRow report o now ttl, ?_, rfl, rfl, hid, rfl⟩
          rw [show w'.store.reservations = V from congrArg Data.reservations hd, hV.2.2.2.2]
          exact .inr rfl
        attempted := fun _ => by
          refine ⟨attemptRow report o now, ?_, rfl, hid, rfl⟩
          rw [show w'.store.attempts = A from congrArg Data.attempts hd, hA.2.2.2.2]
          exact .inr rfl
        acked := hack
        untouched := fun hm j hj hX ho => by
          rw [hopen (.inl hm) j hj hX ho]
          exact huntouched hm
        names := fun hm d hdel => (h.1.2.names hm d hdel).mono fun Y x hx =>
          ⟨x, (hrow Y).trans hx, rfl⟩
        safe := fun h => by cases h
        equipped := fun h => by cases h }
  · exact
      { reps := fun r hr hX => by
          rw [hrep] at hr
          obtain ⟨d, hdm, he, _⟩ := h.1.2.rows r hr hX
          exact ⟨d, hdm, he⟩
        archs := fun a ha hX => by
          rw [harc] at ha
          exact (h.2.rows a).mpr ⟨ha, hX⟩
        present := fun d hdm => by
          rw [Present, hrep]
          exact h.1.2.present d hdm
        archived := fun a ha => by
          rw [harc]
          exact ((h.2.rows a).mp ha).1
        gone := fun _ _ h => absurd h List.not_mem_nil
        blobs := fun _ _ h => absurd h List.not_mem_nil }

theorem reserve (hid : o.id = X) (hprior : PriorOk o now) :
    (party env m b t (.reclaim req)).Triple false (Listed env m t X o rs as)
      (Coordinator.reserve report o (payloadOf ⟨o, rs, as⟩ none) now)
      (fun _ => Working env m t X (.fresh report.attemptId report.reservationId ⟨o, rs, as⟩))
      (fun _ => Ready m t X) := by
  have hready (w : Traced) (h : Listed env m t X o rs as w) : Ready m t X w := h.1.1.found.ready
  refine Triple.bind (R := fun _ => Listed env m t X o rs as) ?_ fun ttl => ?_
  · refine Triple.post (Triple.section_ stable_listed.firm (fun _ => stable_listed.firm) ?_)
      (fun _ _ h => h) fun _ => hready
    exact Triple.bind (Triple.config stable_listed.firm) fun _ => Triple.pure fun _ h => h.1
  refine Triple.refuse (fun _ => hready) fun _ => ?_
  refine Triple.post (Triple.section_ stable_listed.firm (fun _ => Working.firm) ?_)
    (fun _ _ h => h) fun _ => hready
  refine Triple.store stable_listed.firm ?_ (fun _ _ _ _ _ h => h)
  intro w r s hw hi hallow hrun
  obtain ⟨i, ha⟩ := hallow
  have ha : m.Allows env (.reclaim req) _ i w := ha
  have hrun : w.store.createReclaimReservation (journalRow report o ⟨o, rs, as⟩ now)
      (reservationRow report o now ttl) (attemptRow report o now) = .ok (r, s) := hrun
  obtain ⟨J, V, A, hJ, hV, hA, hd⟩ := Store.createReclaimReservation_ok hrun
  have hrow : rowOf w o.id = some o := by
    rw [hid]
    exact hw.1.1.found.row
  constructor
  · exact .reserve Party.still_store hd hJ hV hA rfl
      (hw.reserveJust hi hid hprior fun hm hs => ha.recipe hm _ _ _ rfl o hrow hs)
  · exact hw.working hid hprior Party.still_store hd hJ hV hA rfl

/-! ## the operation -/

/-- nothing was changed, and the decision is reported -/
theorem Surveyed.leaving {r : ReclaimReport} (h : Surveyed m t X o w) :
    Leaving m t (.reclaim req) X (.ok r) w where
  held := h.found.ready.held
  fine := .inr h.found.fine
  acked := fun hm x hx => h.found.ready.settled.acked hm x hx
  untouched := fun hm j hj hX hopen => by
    rw [h.found.fine.resolved hm j hj hX] at hopen
    cases hopen

theorem Resolved.leaving {r : ReclaimReport} (h : Resolved m t X [] w) :
    Leaving m t (.reclaim req) X (.ok r) w where
  held := h.held
  fine := h.bail.settled.fine
  acked := fun hm x hx => h.acked hm x hx
  untouched := fun hm j hj hX hopen => by
    rw [h.noOpen (.inl hm) j hj hX] at hopen
    cases hopen

theorem safe_reclaim (hidle : Idle t w) :
    (discipline env m).Safe true t (.reclaim req) (Op.prog env (.reclaim req)) w := by
  refine safe_withObject (X := req.objectId) rfl rfl (fun _ => rfl) ?_ hidle
  have hfound (o : ReclaimObject) (w : Traced) (h : Found m t req.objectId o w) :
      Ready m t req.objectId w := h.ready
  have hready (o : ReclaimObject) (w : Traced) (h : Surveyed m t req.objectId o w) :
      Ready m t req.objectId w := h.found.ready
  refine Triple.bind (Triple.nowMs stable_ready.firm) fun now => ?_
  refine Triple.bind requireObject fun o => Triple.of_pure fun ⟨hid, hrow⟩ => ?_
  -- the refusals that read the row
  refine Triple.bind (R := fun _ w => Coordinator.reclaimChecks o = .ok () ∧
    Found m t req.objectId o w)
    (Triple.settle (fun _ hok w hw => ⟨hok, hw⟩) fun _ _ => hfound o) fun _ =>
    Triple.of_pure fun hchecks => ?_
  obtain ⟨hpin, hprot, hnr, hnf⟩ := reclaimChecks_ok hchecks
  rw [hid]
  refine Triple.bind noReservation fun busy => ?_
  refine Triple.refuse (fun hb w hw => hw.1 hb) fun hb => ?_
  refine Triple.pre ?_ fun w hw => hw.2 (by simpa using hb)
  refine Triple.bind (R := fun _ w => Coordinator.checkDeadline o now = .ok () ∧
    Surveyed m t req.objectId o w)
    (Triple.settle (fun _ hok w hw => ⟨hok, hw⟩) fun _ _ => hready o) fun _ =>
    Triple.of_pure fun hdeadline => ?_
  refine Triple.bind (Triple.post (planCalm stable_surveyed.firm) (fun _ _ h => h)
    fun _ => hready o) fun decision => ?_
  refine Triple.bind (Triple.ask rfl stable_surveyed.firm) fun attemptId => ?_
  refine Triple.bind (Triple.ask rfl stable_surveyed.firm) fun reservationId => ?_
  refine Triple.ite (fun _ => Triple.pure fun _ h => h.leaving) fun _ => ?_
  -- the rows that would go
  refine Triple.bind listReplicas fun rs => ?_
  refine Triple.bind listArchives fun as => ?_
  refine Triple.bind (survivability hid) fun _ => Triple.of_pure fun hcopies => ?_
  refine Triple.bind (R := fun _ w => Coordinator.preflight o = .ok () ∧
    Listed env m t req.objectId o rs as w)
    (Triple.settle (fun _ hok w hw => ⟨hok, hw⟩) fun _ _ w hw => hw.1.1.found.ready) fun _ =>
    Triple.of_pure fun hroute => ?_
  have hprior : PriorOk o now :=
    ⟨hrow, hpin, hprot, hnr, hnf, checkDeadline_ok hdeadline, hcopies, hroute⟩
  refine Triple.bind (reserve hid hprior) fun _ => ?_
  exact Triple.post (reclaimReserved (S := ⟨o, rs, as⟩) rfl hid hroute)
    (fun _ _ h => h.leaving) fun _ _ h => h.ready

end ReclaimFabric
