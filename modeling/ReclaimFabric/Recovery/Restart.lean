import ReclaimFabric.Recovery.Resume
import ReclaimFabric.Safety.Replay

/-!
# Recovery can be killed and run again

The expiry of reservations and the whole of `reconcile_store` against the functions on the tables,
and from that what is left when recovery is killed any number of times and run again.

* `reconcileStore_ran`, `reconcileStore_passed`   the whole run, and where it can be stopped;
* `Interrupted`        what a number of killed recoveries have left;
* `recovery_restarts`  the run after them;
* `recovery_idempotent`   a run after a run, and a run after one that was killed.
-/

set_option linter.unusedSectionVars false

namespace ReclaimFabric

open Prog (Ran Passed Only settle attempt)

/-! ## reservations on the tables -/

theorem Store.reservationLe_iff {a b : Reservation} : Store.reservationLe a b = true ↔
    a.createdAtMs < b.createdAtMs ∨
      a.createdAtMs = b.createdAtMs ∧ a.reservationId.bits ≤ b.reservationId.bits :=
  Uuid.timed_le Reservation.createdAtMs Reservation.reservationId

/-- closing opens nothing -/
theorem Store.mem_close_open {which : Reservation → Bool} {status : ReservationStatus}
    {V : Table Reservation.reservationId} {r : Reservation} (hs : status ≠ .isOpen) :
    (r ∈ Store.closeReservations which status V ∧ decide (r.status = .isOpen) = true) ↔
      (r ∈ V ∧ decide (r.status = .isOpen) = true) ∧ which r = false := by
  rw [Store.closeReservations, Table.mem_updateWhere, decide_eq_true_eq]
  constructor
  · rintro ⟨⟨x, hx, rfl⟩, hopen⟩
    by_cases hw : (which x && decide (x.status = .isOpen)) = true
    · rw [if_pos hw] at hopen
      exact absurd hopen hs
    · rw [if_neg hw] at hopen ⊢
      refine ⟨⟨hx, hopen⟩, ?_⟩
      rw [decide_eq_true hopen, Bool.and_true] at hw
      exact eq_false_of_ne_true hw
  · rintro ⟨⟨hr, hopen⟩, hw⟩
    refine ⟨⟨r, hr, ?_⟩, hopen⟩
    rw [hw, Bool.false_and, if_neg Bool.false_ne_true]

namespace Core

variable {physical : JournalPayload → Res Bool} {now : Int} {e : JournalEntry} {v : Reservation}
  {es : List JournalEntry} {vs skipped : List Reservation} {c c₁ c' cm : Core}

theorem reconcile_reservations (h : reconcile e now physical c = some c') :
    ∃ status, status ≠ .isOpen ∧ c'.reservations = reservationsClosed e status c.reservations := by
  unfold reconcile at h
  split at h
  · cases h
  · split at h
    · obtain ⟨-, -, -, -, -, -, hV, -⟩ := rollBack_some h
      exact ⟨_, by decide, hV⟩
    · obtain ⟨-, -, -, -, -, hV, -⟩ := commit_some h
      exact ⟨_, by decide, hV⟩
    · cases h

/-- the journal opens no reservation -/
theorem reconcileAll_reservations (h : reconcileAll physical now es c = some c')
    (hv : v ∈ c'.openReservations) : v ∈ c.openReservations := by
  induction es generalizing c with
  | nil =>
    cases h
    exact hv
  | cons e es ih =>
    obtain ⟨c₁, hc₁, hrest⟩ := Option.bind_eq_some_iff.mp h
    have hv₁ := ih hrest
    obtain ⟨status, hs, hV⟩ := reconcile_reservations hc₁
    rw [openReservations, Table.mem_query, hV, reservationsClosed, Store.mem_close_open hs] at hv₁
    exact Table.mem_query.mpr hv₁.1

/-- no entry is open when all are resolved -/
theorem reconcileAll_open (hopen : c.openJournal = es)
    (h : reconcileAll physical now es c = some c') : c'.openJournal = [] := by
  induction es generalizing c with
  | nil =>
    cases h
    exact hopen
  | cons e es ih =>
    obtain ⟨c₁, hc₁, hrest⟩ := Option.bind_eq_some_iff.mp h
    exact ih (openJournal_tail hopen hc₁) hrest

/-- the object of an abandoned reservation -/
def objectFailed (v : Reservation) (O : Table ReclaimObject.id) : Option (Table ReclaimObject.id) :=
  match O.find? v.objectId with
  | some o =>
    if o.lifecycleState = .reclaimPending then
      if ({ o with lifecycleState := .failed } : ReclaimObject).writable then
        some (O.replace { o with lifecycleState := .failed })
      else none
    else some O
  | none => some O

/-- the tables after a reservation has been abandoned -/
def abandoned (v : Reservation) (O : Table ReclaimObject.id) (A : Table Attempt.attemptId)
    (c : Core) : Core :=
  { c with
    objects := O
    attempts := A
    reservations := Store.closeReservations (fun x => decide (x.reservationId = v.reservationId))
      .expired c.reservations }

theorem abandon_iff : abandon now v c = some c' ↔ ∃ O A, objectFailed v c.objects = some O ∧
    (c.reservations.find? v.reservationId).any (fun x => decide (x.status = .isOpen)) = true ∧
    attemptClosed now v.attemptId .failed c.attempts = some A ∧ c' = abandoned v O A c := by
  have heq : abandon now v c = (objectFailed v c.objects).bind fun O =>
      if (c.reservations.find? v.reservationId).any (fun x => decide (x.status = .isOpen)) = true
        then (attemptClosed now v.attemptId .failed c.attempts).bind fun A =>
          some (abandoned v O A c)
        else none := by
    unfold abandon objectFailed
    cases c.objects.find? v.objectId with
    | none => rfl
    | some o =>
      by_cases hpending : o.lifecycleState = .reclaimPending
      · by_cases hw : ({ o with lifecycleState := .failed } : ReclaimObject).writable = true
        · simp only [if_pos hpending, if_pos hw]
          rfl
        · simp only [if_pos hpending, if_neg hw]
          rfl
      · simp only [if_neg hpending]
        rfl
  rw [heq]
  constructor
  · intro h
    obtain ⟨O, hO, h⟩ := Option.bind_eq_some_iff.mp h
    split at h
    · next hany =>
      obtain ⟨A, hA, h⟩ := Option.bind_eq_some_iff.mp h
      exact ⟨O, A, hO, hany, hA, (Option.some.inj h).symm⟩
    · cases h
  · rintro ⟨O, A, hO, hany, hA, rfl⟩
    rw [hO, Option.bind_some, if_pos hany, hA, Option.bind_some]

theorem objectFailed_again {O O' : Table ReclaimObject.id} (h : objectFailed v O = some O') :
    objectFailed v O' = some O' := by
  unfold objectFailed at h
  split at h
  · next o ho =>
    split at h
    · next hpending =>
      split at h
      · cases h
        have hid : o.id = v.objectId := Table.key_of_find? ho
        have hfind : (O.replace { o with lifecycleState := .failed }).find? v.objectId =
            some { o with lifecycleState := .failed } := by
          rw [Table.find?_replace, if_pos hid, ho, Option.map_some]
        simp only [objectFailed, hfind]
        exact if_neg (by decide)
      · cases h
    · next hne =>
      cases h
      simp only [objectFailed, ho]
      exact if_neg hne
  · next hnone =>
    cases h
    simp only [objectFailed, hnone]

/-- an attempt that is to fail, and has not been closed yet -/
theorem attempts_behind {id : Uuid} {A A' : Table Attempt.attemptId}
    (h : attemptClosed now id .failed A = some A') :
    ∀ k, Option.Rel Attempt.Behind (A'.find? k) (A.find? k) := by
  obtain ⟨a, time, ha, hst, hfind⟩ := attemptClosed_some h
  intro k
  rw [hfind]
  split
  · next hk =>
    rw [hk, ha]
    refine .some ⟨a.status, a.updatedAtMs, rfl, ?_⟩
    rcases hst with hst | hst
    · exact .inr ⟨hst, rfl⟩
    · exact .inl hst
  · cases A.find? k with
    | none => exact .none
    | some b => exact .some ⟨b.status, b.updatedAtMs, rfl, .inl rfl⟩

theorem abandon_alike (now' : Int) (hc : abandon now v c = some c') (h : Alike c cm) :
    ∃ cm', abandon now' v cm = some cm' ∧ Alike c' cm' := by
  obtain ⟨O, A, hO, hany, hA, rfl⟩ := abandon_iff.mp hc
  obtain ⟨Am, hAm, hAlike⟩ := attemptClosed_alike now' hA h.attempts
  refine ⟨abandoned v O Am cm, abandon_iff.mpr ⟨O, Am, h.objects ▸ hO, h.reservations ▸ hany, hAm,
    rfl⟩, ?_⟩
  exact ⟨rfl, h.replicas, h.lineage, (by simp only [abandoned, h.reservations]), h.archives,
    hAlike, h.journal⟩

/-- at another time at which the same reservations are due -/
theorem expire_alike (now' : Int) (hdue : ∀ v ∈ vs, v.expiresAtMs ≤ now ↔ v.expiresAtMs ≤ now')
    (hc : expire now vs c = some c') (h : Alike c cm) :
    ∃ cm', expire now' vs cm = some cm' ∧ Alike c' cm' := by
  induction vs generalizing c cm with
  | nil =>
    cases hc
    exact ⟨cm, rfl, h⟩
  | cons v vs ih =>
    have hdue' : ∀ x ∈ vs, x.expiresAtMs ≤ now ↔ x.expiresAtMs ≤ now' := fun x hx =>
      hdue x (List.mem_cons_of_mem _ hx)
    have hv := hdue v List.mem_cons_self
    rw [expire] at hc ⊢
    by_cases hnow : v.expiresAtMs ≤ now
    · rw [if_pos hnow] at hc
      rw [if_pos (hv.mp hnow)]
      obtain ⟨c₁, hc₁, hc⟩ := Option.bind_eq_some_iff.mp hc
      obtain ⟨cm₁, hcm₁, h₁⟩ := abandon_alike now' hc₁ h
      obtain ⟨cm', hcm', h'⟩ := ih hdue' hc h₁
      exact ⟨cm', Option.bind_eq_some_iff.mpr ⟨cm₁, hcm₁, hcm'⟩, h'⟩
    · rw [if_neg hnow] at hc
      rw [if_neg (mt hv.mpr hnow)]
      exact ih hdue' hc h

theorem expire_skip (hs : ∀ v ∈ skipped, ¬v.expiresAtMs ≤ now) :
    expire now (skipped ++ vs) c = expire now vs c := by
  induction skipped with
  | nil => rfl
  | cons v skipped ih =>
    rw [List.cons_append, expire, if_neg (hs v List.mem_cons_self)]
    exact ih fun x hx => hs x (List.mem_cons_of_mem _ hx)

theorem openJournal_abandoned {O : Table ReclaimObject.id} {A : Table Attempt.attemptId} :
    (abandoned v O A c).openJournal = c.openJournal := rfl

/-- an abandoned reservation is no longer open, the others are -/
theorem openReservations_abandoned {O : Table ReclaimObject.id} {A : Table Attempt.attemptId}
    (hopen : c.openReservations = skipped ++ v :: vs) :
    (abandoned v O A c).openReservations = skipped ++ vs := by
  obtain ⟨htotal, htrans, hanti⟩ := Uuid.timed_order @Store.reservationLe_iff
  refine Table.query_drop htotal htrans hanti hopen fun r => ?_
  rw [abandoned, Store.mem_close_open (by decide), decide_eq_false_iff_not]

/-- what is still open when the pass is over is not due -/
theorem expire_open (hopen : c.openReservations = skipped ++ vs)
    (hs : ∀ v ∈ skipped, ¬v.expiresAtMs ≤ now) (h : expire now vs c = some c') :
    c'.openJournal = c.openJournal ∧ ∀ v ∈ c'.openReservations, ¬v.expiresAtMs ≤ now := by
  induction vs generalizing c skipped with
  | nil =>
    cases h
    rw [hopen, List.append_nil]
    exact ⟨rfl, hs⟩
  | cons v vs ih =>
    rw [expire] at h
    split at h
    · obtain ⟨c₁, hc₁, h⟩ := Option.bind_eq_some_iff.mp h
      obtain ⟨O, A, -, -, -, rfl⟩ := abandon_iff.mp hc₁
      have hrest := ih (openReservations_abandoned hopen) hs h
      rw [openJournal_abandoned] at hrest
      exact hrest
    · next hnow =>
      have hopen' : c.openReservations = (skipped ++ [v]) ++ vs := by
        rw [hopen, List.append_assoc, List.singleton_append]
      refine ih hopen' ?_ h
      intro x hx
      rcases List.mem_append.mp hx with hx | hx
      · exact hs x hx
      · rw [List.mem_singleton.mp hx]
        exact hnow

/-! ## the whole run on the tables -/

theorem recover_iff : recover physical now c = some c' ↔ ∃ c₁,
    reconcileAll physical now c.openJournal c = some c₁ ∧
      expire now c₁.openReservations c₁ = some c' ∧
      (countable c'.objects c'.replicas && c'.acyclic) = true := by
  have heq : recover physical now c = (reconcileAll physical now c.openJournal c).bind fun c₁ =>
      (expire now c₁.openReservations c₁).bind fun c₂ =>
        if (countable c₂.objects c₂.replicas && c₂.acyclic) = true then some c₂ else none := rfl
  rw [heq]
  constructor
  · intro h
    obtain ⟨c₁, hc₁, h⟩ := Option.bind_eq_some_iff.mp h
    obtain ⟨c₂, hc₂, h⟩ := Option.bind_eq_some_iff.mp h
    split at h
    · next hok =>
      cases h
      exact ⟨c₁, hc₁, hc₂, hok⟩
    · cases h
  · rintro ⟨c₁, hc₁, hc₂, hok⟩
    rw [hc₁, Option.bind_some, hc₂, Option.bind_some, if_pos hok]

theorem acyclic_alike (h : Alike c cm) : cm.acyclic = c.acyclic := by
  simp only [acyclic, h.objects, h.lineage]

/-- at another time at which the same reservations are due, recovery leads to the same tables -/
theorem recover_alike (now' : Int)
    (hdue : ∀ v ∈ c.openReservations, v.expiresAtMs ≤ now ↔ v.expiresAtMs ≤ now')
    (hc : recover physical now c = some c') (h : Alike c cm) :
    ∃ cm', recover physical now' cm = some cm' ∧ Alike c' cm' := by
  obtain ⟨c₁, hc₁, hc₂, hok⟩ := recover_iff.mp hc
  obtain ⟨cm₁, hcm₁, h₁⟩ := reconcileAll_alike now' hc₁ h
  have hopen : cm₁.openReservations = c₁.openReservations := by
    rw [openReservations, h₁.reservations]
    rfl
  obtain ⟨cm', hcm', h'⟩ := expire_alike now'
    (fun v hv => hdue v (reconcileAll_reservations hc₁ hv)) hc₂ h₁
  refine ⟨cm', recover_iff.mpr ⟨cm₁, ?_, ?_, ?_⟩, h'⟩
  · rw [openJournal_alike h]
    exact hcm₁
  · rw [hopen]
    exact hcm'
  · rw [h'.objects, h'.replicas, acyclic_alike h']
    exact hok

theorem expire_none (hs : ∀ v ∈ vs, ¬v.expiresAtMs ≤ now) : expire now vs c = some c := by
  have hskip := @expire_skip now [] vs c hs
  rw [List.append_nil] at hskip
  exact hskip

/-- tables that recovery has led to are left as they are, whatever the physical answers -/
theorem recover_done {physical' : JournalPayload → Res Bool} {now' : Int}
    (h : recover physical now c = some c')
    (hdue : ∀ v ∈ c'.openReservations, ¬v.expiresAtMs ≤ now') :
    recover physical' now' c' = some c' := by
  obtain ⟨c₁, hc₁, hc₂, hok⟩ := recover_iff.mp h
  have hJ := (expire_open (List.nil_append _).symm nofun hc₂).1.trans (reconcileAll_open rfl hc₁)
  refine recover_iff.mpr ⟨c', ?_, expire_none hdue, hok⟩
  rw [hJ]
  rfl

end Core

namespace Coordinator

variable {env : Env} {t : Tid} {op : Op} {w wm w' : Traced} {now : Int} {v : Reservation}
  {vs skipped : List Reservation} {n : Nat}

/-! ## an abandoned reservation -/

/-- the second half of `abandon` -/
def closeAbandoned (now : Int) (v : Reservation) : M Unit := do
  store (.updateReservation v.reservationId .expired)
  store (.reconcileAttempt v.attemptId .failed now)

theorem closeAbandoned_ran {r : Res Unit}
    (h : Ran (sturdy env t op) (closeAbandoned now v).run w r w') :
    (∃ A, r = .ok () ∧
      (w.core.reservations.find? v.reservationId).any
        (fun x => decide (x.status = .isOpen)) = true ∧
      Core.attemptClosed now v.attemptId .failed w.core.attempts = some A ∧
      w'.core = Core.abandoned v w.core.objects A w.core) ∨
    (∃ err, r = .error err) ∧
      ((w.core.reservations.find? v.reservationId).any
          (fun x => decide (x.status = .isOpen)) = false ∨
        Core.attemptClosed now v.attemptId .failed w.core.attempts = none) := by
  rcases acts_ran (StoreOp.acts_updateReservation v.reservationId .expired) h with
    ⟨herr, hnone⟩ | ⟨_, w₁, hsome, h⟩
  · split at hnone
    · cases hnone
    · next hany => exact .inr ⟨herr, .inl (eq_false_of_ne_true hany)⟩
  split at hsome
  swap
  · cases hsome
  next hany =>
  have hc₁ := Option.some.inj hsome
  rcases acts_last (StoreOp.acts_reconcileAttempt (by decide)) h with
    ⟨herr, hnone⟩ | ⟨_, hr, hsome⟩
  · rw [← hc₁] at hnone
    exact .inr ⟨herr, .inr (Option.map_eq_none_iff.mp hnone)⟩
  · obtain ⟨A, hA, hc'⟩ := Option.map_eq_some_iff.mp hsome
    rw [← hc₁] at hA hc'
    exact .inl ⟨A, hr, hany, hA, hc'.symm⟩

theorem closeAbandoned_passed
    (h : Passed (sturdy env t op) (closeAbandoned now v).run w wm) :
    wm.core = w.core ∨ wm.core = Core.abandoned v w.core.objects w.core.attempts w.core ∨
      ∃ A, Core.attemptClosed now v.attemptId .failed w.core.attempts = some A ∧
        wm.core = Core.abandoned v w.core.objects A w.core := by
  rcases acts_passed (StoreOp.acts_updateReservation v.reservationId .expired) h with
    hs | ⟨c, hsome, hrest⟩
  · exact .inl hs
  split at hsome
  swap
  · cases hsome
  have hc := Option.some.inj hsome
  rcases hrest with hs | ⟨_, w₁, hs, h⟩
  · exact .inr (.inl (hs.trans hc.symm))
  have hc₁ := hs.trans hc.symm
  rcases acts_stop (StoreOp.acts_reconcileAttempt (by decide)) h with hs | hsome
  · exact .inr (.inl (hs.trans hc₁))
  · obtain ⟨A, hA, hc'⟩ := Option.map_eq_some_iff.mp hsome
    rw [hc₁] at hA hc'
    exact .inr (.inr ⟨A, hA, hc'.symm⟩)

/-- the object is dealt with first -/
theorem abandon_object {r : Res Unit} (h : Ran (sturdy env t op) (abandon now v).run w r w') :
    (∃ O w₁, Core.objectFailed v w.core.objects = some O ∧
      w₁.core = { w.core with objects := O } ∧
      Ran (sturdy env t op) (closeAbandoned now v).run w₁ r w') ∨
    (∃ err, r = .error err) ∧ Core.objectFailed v w.core.objects = none := by
  obtain ⟨w₁, hs₁, h⟩ := sturdy_read (q := .getObject v.objectId) rfl h
  have hc₁ : w₁.core = w.core := congrArg Store.core hs₁
  cases hrow : w.core.objects.find? v.objectId with
  | none =>
    simp only [show w.store.objects.find? v.objectId = none from hrow] at h
    simp only [Core.objectFailed, hrow]
    exact .inl ⟨_, w₁, rfl, hc₁, h⟩
  | some o =>
    simp only [show w.store.objects.find? v.objectId = some o from hrow] at h
    simp only [Core.objectFailed, hrow]
    by_cases hpending : o.lifecycleState = .reclaimPending
    · rw [if_pos hpending] at h ⊢
      have hfind : w₁.core.objects.find? o.id ≠ none := by
        rw [hc₁, show o.id = v.objectId from Table.key_of_find? hrow, hrow]
        exact Option.some_ne_none o
      by_cases hw : ({ o with lifecycleState := .failed } : ReclaimObject).writable = true
      · rw [if_pos hw]
        rcases acts_ran (StoreOp.acts_updateObject { o with lifecycleState := .failed }) h with
          ⟨-, hnone⟩ | ⟨_, w₂, hsome, h⟩
        · cases hnone.symm.trans (if_pos ⟨hw, hfind⟩)
        have hc₂ := Option.some.inj ((if_pos ⟨hw, hfind⟩).symm.trans hsome)
        have hfits := @ReclaimObject.writable_generation { o with lifecycleState := .failed } hw
        rcases acts_ran (StoreOp.acts_appendAudit _) h with ⟨-, hnone⟩ | ⟨_, w₃, hsome, h⟩
        · cases hnone.symm.trans (if_pos hfits)
        · have hc₃ := Option.some.inj ((if_pos hfits).symm.trans hsome)
          refine .inl ⟨_, w₃, rfl, ?_, h⟩
          rw [← hc₃, ← hc₂, hc₁]
      · rw [if_neg hw]
        rcases acts_ran (StoreOp.acts_updateObject { o with lifecycleState := .failed }) h with
          ⟨herr, -⟩ | ⟨_, w₂, hsome, -⟩
        · exact .inr ⟨herr, rfl⟩
        · cases hsome.symm.trans (if_neg fun hboth => hw hboth.1)
    · rw [if_neg hpending] at h ⊢
      exact .inl ⟨_, w₁, rfl, hc₁, h⟩

theorem abandon_object_passed {O : Table ReclaimObject.id}
    (hO : Core.objectFailed v w.core.objects = some O)
    (h : Passed (sturdy env t op) (abandon now v).run w wm) :
    wm.core = w.core ∨ wm.core = { w.core with objects := O } ∨
      ∃ w₁, w₁.core = { w.core with objects := O } ∧
        Passed (sturdy env t op) (closeAbandoned now v).run w₁ wm := by
  rcases passed_read (q := .getObject v.objectId) rfl h with hs | ⟨w₁, hs₁, h⟩
  · exact .inl (congrArg Store.core hs)
  have hc₁ : w₁.core = w.core := congrArg Store.core hs₁
  cases hrow : w.core.objects.find? v.objectId with
  | none =>
    simp only [show w.store.objects.find? v.objectId = none from hrow] at h
    simp only [Core.objectFailed, hrow] at hO
    cases hO
    exact .inr (.inr ⟨w₁, hc₁, h⟩)
  | some o =>
    simp only [show w.store.objects.find? v.objectId = some o from hrow] at h
    simp only [Core.objectFailed, hrow] at hO
    by_cases hpending : o.lifecycleState = .reclaimPending
    · rw [if_pos hpending] at h hO
      split at hO
      swap
      · cases hO
      cases hO
      rcases acts_passed (StoreOp.acts_updateObject { o with lifecycleState := .failed }) h with
        hs | ⟨c, hsome, hrest⟩
      · exact .inl (hs.trans hc₁)
      have hc : c = { w.core with
          objects := w.core.objects.replace { o with lifecycleState := .failed } } := by
        split at hsome
        · rw [← Option.some.inj hsome, hc₁]
        · cases hsome
      rcases hrest with hs | ⟨_, w₂, hs, h⟩
      · exact .inr (.inl (hs.trans hc))
      rcases acts_passed (StoreOp.acts_appendAudit _) h with hs' | ⟨c₃, hsome', hrest⟩
      · exact .inr (.inl (hs'.trans (hs.trans hc)))
      have hc₃ : c₃ = w₂.core := by
        split at hsome'
        · exact (Option.some.inj hsome').symm
        · cases hsome'
      rcases hrest with hs' | ⟨_, w₃, hs', h⟩
      · exact .inr (.inl (hs'.trans (hc₃.trans (hs.trans hc))))
      · exact .inr (.inr ⟨w₃, hs'.trans (hc₃.trans (hs.trans hc)), h⟩)
    · rw [if_neg hpending] at h hO
      cases hO
      exact .inr (.inr ⟨w₁, hc₁, h⟩)

/-- `abandon` computes `Core.abandon` -/
theorem abandon_ran {r : Res Unit} (h : Ran (sturdy env t op) (abandon now v).run w r w') :
    (r = .ok () ∧ Core.abandon now v w.core = some w'.core) ∨
      (∃ err, r = .error err) ∧ Core.abandon now v w.core = none := by
  have hbad (hr : ∃ err, r = .error err) (hno : ∀ c', Core.abandon now v w.core ≠ some c') :
      (r = .ok () ∧ Core.abandon now v w.core = some w'.core) ∨
        (∃ err, r = .error err) ∧ Core.abandon now v w.core = none :=
    .inr ⟨hr, Option.eq_none_iff_forall_ne_some.mpr hno⟩
  rcases abandon_object h with ⟨O, w₁, hO, hc₁, h⟩ | ⟨herr, hnone⟩
  swap
  · refine hbad herr fun c' hc' => ?_
    obtain ⟨O, _, hO, -⟩ := Core.abandon_iff.mp hc'
    cases hnone.symm.trans hO
  rcases closeAbandoned_ran h with ⟨A, hr, hany, hA, hc'⟩ | ⟨herr, hnone⟩
  · rw [hc₁] at hany hA hc'
    exact .inl ⟨hr, Core.abandon_iff.mpr ⟨O, A, hO, hany, hA, hc'⟩⟩
  · rw [hc₁] at hnone
    refine hbad herr fun c' hc' => ?_
    obtain ⟨_, A, -, hany, hA, -⟩ := Core.abandon_iff.mp hc'
    rcases hnone with hnone | hnone
    · cases hnone.symm.trans hany
    · cases hnone.symm.trans hA

/-- where the abandoning of a reservation is stopped, it can be begun again, or the reservation is
closed and at most its attempt is still open -/
theorem abandon_passed {c' : Core} (hdone : Core.abandon now v w.core = some c')
    (h : Passed (sturdy env t op) (abandon now v).run w wm) :
    (wm.core.openReservations = w.core.openReservations ∧ wm.core.openJournal = w.core.openJournal ∧
        Core.abandon now v wm.core = some c') ∨
      ∃ O A, wm.core = Core.abandoned v O A w.core ∧ c'.Alike wm.core := by
  obtain ⟨O, A, hO, hany, hA, rfl⟩ := Core.abandon_iff.mp hdone
  have hobject (hs : wm.core = { w.core with objects := O }) :
      wm.core.openReservations = w.core.openReservations ∧
        wm.core.openJournal = w.core.openJournal ∧
        Core.abandon now v wm.core = some (Core.abandoned v O A w.core) := by
    rw [hs]
    refine ⟨rfl, rfl, Core.abandon_iff.mpr ⟨O, A, Core.objectFailed_again hO, hany, hA, rfl⟩⟩
  rcases abandon_object_passed hO h with hs | hs | ⟨w₁, hc₁, h⟩
  · rw [hs]
    exact .inl ⟨rfl, rfl, hdone⟩
  · exact .inl (hobject hs)
  rcases closeAbandoned_passed h with hs | hs | ⟨A', hA', hs⟩
  · exact .inl (hobject (hs.trans hc₁))
  · rw [hc₁] at hs
    refine .inr ⟨O, w.core.attempts, hs, ?_⟩
    rw [hs]
    exact ⟨rfl, rfl, rfl, rfl, rfl, Core.attempts_behind hA, .refl⟩
  · rw [hc₁] at hs hA'
    rw [Option.some.inj (hA'.symm.trans hA)] at hs
    refine .inr ⟨O, A, hs, ?_⟩
    rw [hs]
    exact .refl

/-! ## the expiry of reservations -/

theorem no_open_journal {id : Uuid} (hJ : w.core.openJournal = []) :
    (w.store.journal.find? id).any (fun e => e.phase.isOpen) = false := by
  cases hj : w.store.journal.find? id with
  | none => rfl
  | some j =>
    refine eq_false_of_ne_true fun hopen => ?_
    have hmem : j ∈ w.core.openJournal := Table.mem_query.mpr ⟨Table.mem_of_find? hj, hopen⟩
    rw [hJ] at hmem
    cases hmem

/-- with no open journal the pass computes `Core.expire` -/
theorem expireReservations_ran {r : Res Nat} (hJ : w.core.openJournal = [])
    (h : Ran (sturdy env t op) (expireReservations now vs n).run w r w') :
    (∃ n', r = .ok n' ∧ Core.expire now vs w.core = some w'.core) ∨
      (∃ err, r = .error err) ∧ Core.expire now vs w.core = none := by
  induction vs generalizing w n with
  | nil =>
    obtain ⟨rfl, rfl⟩ := ran_pure.mp h
    exact .inl ⟨n, rfl, rfl⟩
  | cons v vs ih =>
    rw [expireReservations] at h
    rw [Core.expire]
    by_cases hdue : v.expiresAtMs ≤ now
    · rw [if_pos hdue] at h ⊢
      obtain ⟨w₁, hs₁, h⟩ := sturdy_read (q := .getJournal v.attemptId) rfl h
      have hc₁ : w₁.core = w.core := congrArg Store.core hs₁
      rw [no_open_journal hJ, if_neg Bool.false_ne_true] at h
      rcases ran_seq.mp h with ⟨err, hr, hx⟩ | ⟨_, w₂, hx, h⟩
      · rcases abandon_ran hx with ⟨hno, -⟩ | ⟨-, hnone⟩
        · cases hno
        · rw [hc₁] at hnone
          exact .inr ⟨⟨err, hr⟩, by rw [hnone, Option.bind_none]⟩
      · rcases abandon_ran hx with ⟨-, hsome⟩ | ⟨⟨_, hno⟩, -⟩
        swap
        · cases hno
        rw [hc₁] at hsome
        rw [hsome, Option.bind_some]
        refine ih ?_ h
        obtain ⟨O, A, -, -, -, hc₂⟩ := Core.abandon_iff.mp hsome
        rw [hc₂, Core.openJournal_abandoned]
        exact hJ
    · rw [if_neg hdue] at h ⊢
      exact ih hJ h

/-- where the pass is stopped, the reservations still open lead to the same tables -/
theorem expireReservations_passed {c' : Core} (hJ : w.core.openJournal = [])
    (hopen : w.core.openReservations = skipped ++ vs) (hs : ∀ v ∈ skipped, ¬v.expiresAtMs ≤ now)
    (hdone : Core.expire now vs w.core = some c')
    (h : Passed (sturdy env t op) (expireReservations now vs n).run w wm) :
    wm.core.openJournal = [] ∧
      ∃ cm', Core.expire now wm.core.openReservations wm.core = some cm' ∧ c'.Alike cm' := by
  induction vs generalizing w n skipped with
  | nil =>
    cases h
    refine ⟨hJ, c', ?_, .refl⟩
    rw [hopen, Core.expire_skip hs]
    exact hdone
  | cons v vs ih =>
    have hstart (hsame : wm.core = w.core) : wm.core.openJournal = [] ∧
        ∃ cm', Core.expire now wm.core.openReservations wm.core = some cm' ∧ c'.Alike cm' := by
      rw [hsame]
      refine ⟨hJ, c', ?_, .refl⟩
      rw [hopen, Core.expire_skip hs]
      exact hdone
    rw [expireReservations] at h
    by_cases hdue : v.expiresAtMs ≤ now
    · rw [if_pos hdue] at h
      rcases passed_read (q := .getJournal v.attemptId) rfl h with hsame | ⟨w₁, hs₁, h⟩
      · exact hstart (congrArg Store.core hsame)
      have hc₁ : w₁.core = w.core := congrArg Store.core hs₁
      rw [no_open_journal hJ, if_neg Bool.false_ne_true] at h
      have hdone' := hdone
      rw [Core.expire, if_pos hdue] at hdone'
      obtain ⟨c₁, hc, hrest⟩ := Option.bind_eq_some_iff.mp hdone'
      rcases passed_seq h with hx | ⟨_, w₂, hx, h⟩
      · rw [← hc₁] at hc
        rcases abandon_passed hc hx with ⟨hV, hJ', hs'⟩ | ⟨O, A, hs', halike⟩
        · rw [hc₁] at hV hJ'
          refine ⟨hJ'.trans hJ, c', ?_, .refl⟩
          rw [hV, hopen, Core.expire_skip hs, Core.expire, if_pos hdue, hs', Option.bind_some]
          exact hrest
        · rw [hc₁] at hs'
          have hV : wm.core.openReservations = skipped ++ vs := by
            rw [hs']
            exact Core.openReservations_abandoned hopen
          refine ⟨?_, ?_⟩
          · rw [hs', Core.openJournal_abandoned]
            exact hJ
          · rw [hV, Core.expire_skip hs]
            exact Core.expire_alike now (fun _ _ => Iff.rfl) hrest halike
      · rcases abandon_ran hx with ⟨-, hsome⟩ | ⟨⟨_, hno⟩, -⟩
        swap
        · cases hno
        rw [hc₁] at hsome
        have hc₂ : w₂.core = c₁ := Option.some.inj (hsome.symm.trans hc)
        obtain ⟨O, A, -, -, -, heq⟩ := Core.abandon_iff.mp hc
        refine ih ?_ ?_ hs ?_ h
        · rw [hc₂, heq, Core.openJournal_abandoned]
          exact hJ
        · rw [hc₂, heq]
          exact Core.openReservations_abandoned hopen
        · rw [hc₂]
          exact hrest
    · rw [if_neg hdue] at h
      have hdone' := hdone
      rw [Core.expire, if_neg hdue] at hdone'
      have hopen' : w.core.openReservations = (skipped ++ [v]) ++ vs := by
        rw [hopen, List.append_assoc, List.singleton_append]
      refine ih hJ hopen' ?_ hdone' h
      intro x hx
      rcases List.mem_append.mp hx with hx | hx
      · exact hs x hx
      · rw [List.mem_singleton.mp hx]
        exact hdue

/-! ## the whole run -/

section
variable {physical : JournalPayload → Res Bool} {report : RecoveryReport}

/-- `reconcile_store` after the journal -/
def afterJournal (now : Int) (report : RecoveryReport) : M RecoveryReport := do
  let reservations ← store .listOpenReservations
  let abandoned ← expireReservations now reservations 0
  let repairs ← repairDedupCounts
  reportLineage { report with abandonedReservations := abandoned, dedupRepairs := repairs }

theorem reconcileStore_eq (physical : JournalPayload → M Bool) (now : Int) :
    reconcileStore physical now = (do
      let entries ← store .listOpenJournal
      let report ← reconcileEntries physical now entries ⟨0, [], [], 0, [], true, []⟩
      afterJournal now report) := rfl

theorem expireReservations_onStore : Only OnStore (expireReservations now vs n).run :=
  expireReservations_tame.mono fun _ h => ⟨h.choose, h.choose_spec.1⟩

theorem reconcileEntries_onStore {es : List JournalEntry} :
    Only OnStore (reconcileEntries (fun q => settle (physical q)) now es report).run := by
  induction es generalizing report with
  | nil => exact only_pure
  | cons e es ih => exact only_bind (only_attempt reconcileEntry_onStore) fun _ => ih

theorem reportLineage_only {S : Cmd → Prop} (h : S (.store .lineageGraph)) :
    Only S (reportLineage report).run := by
  refine only_bind (only_store h) fun graph => ?_
  cases graph.validate with
  | ok u => exact only_pure
  | error err => exact only_pure

theorem reconcileStore_onStore :
    Only OnStore (reconcileStore (fun q => settle (physical q)) now).run := by
  rw [reconcileStore_eq]
  refine only_bind (only_store ⟨_, rfl⟩) fun _ => only_bind reconcileEntries_onStore fun _ => ?_
  refine only_bind (only_store ⟨_, rfl⟩) fun _ => only_bind expireReservations_onStore fun _ => ?_
  exact only_bind (repairDedupCounts_mild.mono fun _ => Mild.onStore) fun _ =>
    reportLineage_only ⟨_, rfl⟩

/-- the lineage is read, and an error is reported when it has a cycle -/
theorem reportLineage_acyclic {r : Res RecoveryReport}
    (h : Ran (sturdy env t op) (reportLineage report).run w r w') :
    w'.core = w.core ∧ ((r = .ok report ∧ w.core.acyclic = true) ∨
      (∀ report', r = .ok report' → report'.errors ≠ []) ∧ w.core.acyclic = false) := by
  refine ⟨dedup_passed (reportLineage_only ⟨_, rfl, nofun⟩) h.passed, ?_⟩
  have hrun : StoreOp.lineageGraph.run w.store = (Store.addEdges w.core.lineage.rows
      (w.core.objects.rows.foldl (fun g o => g.addObject o.id) LineageGraph.default)).map
        fun g => (g, w.store) := rfl
  rw [Core.acyclic]
  cases hg : Store.addEdges w.core.lineage.rows
      (w.core.objects.rows.foldl (fun g o => g.addObject o.id) LineageGraph.default) with
  | error err =>
    rw [hg] at hrun
    rcases sturdy_seq h with ⟨_, -, rfl⟩ | ⟨_, _, hno, -⟩
    · exact .inr ⟨fun _ hr => (by cases hr), rfl⟩
    · cases hrun.symm.trans hno
  | ok g =>
    rw [hg] at hrun
    obtain ⟨w₁, -, h⟩ := sturdy_read hrun h
    cases hv : g.validate with
    | ok u =>
      simp only [hv] at h
      obtain ⟨rfl, -⟩ := ran_pure.mp h
      exact .inl ⟨rfl, passes_iff.mpr hv⟩
    | error err =>
      simp only [hv] at h
      obtain ⟨rfl, -⟩ := ran_pure.mp h
      refine .inr ⟨?_, ?_⟩
      · rintro _ ⟨⟩
        simp
      · simp [passes, hv]

/-- an error of the journal stays in the report -/
theorem afterJournal_errors {r : Res RecoveryReport} (herr : report.errors ≠ [])
    (h : Ran (sturdy env t op) (afterJournal now report).run w r w') :
    ∀ report', r = .ok report' → report'.errors ≠ [] := by
  rintro report' rfl
  obtain ⟨_, _, -, h⟩ := ran_seq_ok h
  obtain ⟨_, _, -, h⟩ := ran_seq_ok h
  obtain ⟨_, w₁, -, h⟩ := ran_seq_ok h
  rcases (reportLineage_acyclic h).2 with ⟨hr, -⟩ | ⟨hne, -⟩
  · cases hr
    exact herr
  · exact hne _ rfl

/-- with no open journal it computes `Core.expire`, and succeeds when that leaves order -/
theorem afterJournal_ran {r : Res RecoveryReport} (hleg : w.store.Legible)
    (hJ : w.core.openJournal = [])
    (h : Ran (sturdy env t op) (afterJournal now report).run w r w') :
    (∃ report', r = .ok report' ∧ report'.errors = report.errors ∧
      Core.expire now w.core.openReservations w.core = some w'.core ∧
      (Core.countable w'.core.objects w'.core.replicas && w'.core.acyclic) = true) ∨
    (∀ report', r = .ok report' → report'.errors ≠ []) ∧
      ∀ c', Core.expire now w.core.openReservations w.core = some c' →
        (Core.countable c'.objects c'.replicas && c'.acyclic) = false := by
  have hfails {err : ReclaimError} (hr : r = .error err) :
      ∀ report', r = .ok report' → report'.errors ≠ [] := by
    rintro report' rfl
    cases hr
  obtain ⟨w₁, hs₁, h⟩ := sturdy_read (q := .listOpenReservations) rfl h
  have hc₁ : w₁.core = w.core := congrArg Store.core hs₁
  have hleg₁ : w₁.store.Legible := hs₁ ▸ hleg
  have hJ₁ : w₁.core.openJournal = [] := hc₁ ▸ hJ
  have h : Ran (sturdy env t op) (expireReservations now w.core.openReservations 0 >>= fun k => do
      let repairs ← repairDedupCounts
      reportLineage { report with abandonedReservations := k, dedupRepairs := repairs }).run
        w₁ r w' := h
  rcases ran_seq.mp h with ⟨err, hr, hx⟩ | ⟨k, w₂, hx, h⟩
  · refine .inr ⟨hfails hr, fun c' hc' => ?_⟩
    rcases expireReservations_ran hJ₁ hx with ⟨_, hno, -⟩ | ⟨-, hnone⟩
    · cases hno
    · rw [hc₁] at hnone
      cases hnone.symm.trans hc'
  have hleg₂ := legible_passed expireReservations_onStore hx.passed hleg₁
  rcases expireReservations_ran hJ₁ hx with ⟨_, -, hexpire⟩ | ⟨⟨_, hno⟩, -⟩
  swap
  · cases hno
  rw [hc₁] at hexpire
  rcases ran_seq.mp h with ⟨err, hr, hx⟩ | ⟨notes, w₃, hx, h⟩
  · refine .inr ⟨hfails hr, fun c' hc' => ?_⟩
    rw [← Option.some.inj (hexpire.symm.trans hc')]
    rcases (repairDedupCounts_countable hleg₂ hx).2 with ⟨_, hno, -⟩ | ⟨-, hcount⟩
    · cases hno
    · rw [hcount, Bool.false_and]
  obtain ⟨hc₃, ⟨_, -, hcount, -⟩ | ⟨⟨_, hno⟩, -⟩⟩ := repairDedupCounts_countable hleg₂ hx
  swap
  · cases hno
  obtain ⟨hc', hlineage⟩ := reportLineage_acyclic h
  rw [hc₃] at hc' hlineage
  rcases hlineage with ⟨hr, hacyclic⟩ | ⟨hr, hcyclic⟩
  · refine .inl ⟨_, hr, rfl, ?_, ?_⟩
    · rw [hc']
      exact hexpire
    · rw [hc', hcount, hacyclic, Bool.and_self]
  · refine .inr ⟨hr, fun c' hc' => ?_⟩
    rw [← Option.some.inj (hexpire.symm.trans hc'), hcyclic, Bool.and_false]

/-- where it is stopped, the reservations still open lead to the same tables -/
theorem afterJournal_passed {c' : Core} (hJ : w.core.openJournal = [])
    (hexpire : Core.expire now w.core.openReservations w.core = some c')
    (h : Passed (sturdy env t op) (afterJournal now report).run w wm) :
    wm.core.openJournal = [] ∧
      ∃ cm', Core.expire now wm.core.openReservations wm.core = some cm' ∧ c'.Alike cm' := by
  rcases passed_read (q := .listOpenReservations) rfl h with hs | ⟨w₁, hs₁, h⟩
  · rw [show wm.core = w.core from congrArg Store.core hs]
    exact ⟨hJ, c', hexpire, .refl⟩
  have hc₁ : w₁.core = w.core := congrArg Store.core hs₁
  have h : Passed (sturdy env t op)
      (expireReservations now w.core.openReservations 0 >>= fun k => do
        let repairs ← repairDedupCounts
        reportLineage { report with abandonedReservations := k, dedupRepairs := repairs }).run
          w₁ wm := h
  rw [← hc₁] at hJ
  rcases passed_seq h with hx | ⟨k, w₂, hx, h⟩
  · have hopen : w₁.core.openReservations = [] ++ w.core.openReservations := by
      rw [hc₁]
      rfl
    refine expireReservations_passed hJ hopen nofun ?_ hx
    rw [hc₁]
    exact hexpire
  have hc₂ : w₂.core = c' := by
    rcases expireReservations_ran hJ hx with ⟨_, -, hsome⟩ | ⟨⟨_, hno⟩, -⟩
    · rw [hc₁] at hsome
      exact Option.some.inj (hsome.symm.trans hexpire)
    · cases hno
  -- the repair and the lineage change none of these tables
  have hsame : wm.core = c' := by
    rcases passed_seq h with hx | ⟨notes, w₃, hx, h⟩
    · exact (repairDedupCounts_passed hx).trans hc₂
    · rw [dedup_passed (reportLineage_only ⟨_, rfl, nofun⟩) h, repairDedupCounts_passed hx.passed]
      exact hc₂
  obtain ⟨hJ', hdue⟩ := Core.expire_open (List.nil_append _).symm nofun hexpire
  rw [hsame]
  exact ⟨hJ'.trans (hc₁ ▸ hJ), c', Core.expire_none hdue, .refl⟩

/-- `reconcile_store` computes `Core.recover`: it reports no error exactly when that is defined -/
theorem reconcileStore_ran {r : Res RecoveryReport} (hleg : w.store.Legible)
    (h : Ran (sturdy env t op)
      (reconcileStore (fun q => settle (physical q)) now).run w r w') :
    (∃ report, r = .ok report ∧ report.errors = [] ∧
      Core.recover physical now w.core = some w'.core) ∨
    (∀ report, r = .ok report → report.errors ≠ []) ∧
      Core.recover physical now w.core = none := by
  rw [reconcileStore_eq] at h
  obtain ⟨w₁, hs₁, h⟩ := sturdy_read (q := .listOpenJournal) rfl h
  have hc₁ : w₁.core = w.core := congrArg Store.core hs₁
  have hleg₁ : w₁.store.Legible := hs₁ ▸ hleg
  have h : Ran (sturdy env t op) (reconcileEntries (fun q => settle (physical q)) now
      w.core.openJournal ⟨0, [], [], 0, [], true, []⟩ >>= afterJournal now).run w₁ r w' := h
  rcases ran_seq.mp h with ⟨err, -, hx⟩ | ⟨report, w₂, hx, h⟩
  · obtain ⟨_, hno, -⟩ := reconcileEntries_ran hleg₁ hx
    cases hno
  have hleg₂ := legible_passed reconcileEntries_onStore hx.passed hleg₁
  obtain ⟨_, hr, hlist⟩ := reconcileEntries_ran hleg₁ hx
  cases hr
  rw [hc₁] at hlist
  rcases hlist with ⟨hclean, hall⟩ | ⟨hlt, hnone⟩
  · rcases afterJournal_ran hleg₂ (Core.reconcileAll_open rfl hall) h with
      ⟨report', hr, herrors, hexpire, hok⟩ | ⟨hr, hbad⟩
    · exact .inl ⟨report', hr, herrors.trans hclean,
        Core.recover_iff.mpr ⟨_, hall, hexpire, hok⟩⟩
    · refine .inr ⟨hr, Option.eq_none_iff_forall_ne_some.mpr fun c' hc' => ?_⟩
      obtain ⟨c₁, hc₁, hc₂, hok⟩ := Core.recover_iff.mp hc'
      rw [← Option.some.inj (hall.symm.trans hc₁)] at hc₂
      cases (hbad c' hc₂).symm.trans hok
  · refine .inr ⟨afterJournal_errors (List.ne_nil_of_length_pos hlt) h,
      Option.eq_none_iff_forall_ne_some.mpr fun c' hc' => ?_⟩
    obtain ⟨c₁, hc₁, -⟩ := Core.recover_iff.mp hc'
    cases hnone.symm.trans hc₁

/-- where recovery is stopped, what is left leads to the same tables -/
theorem reconcileStore_passed {c' : Core} (hleg : w.store.Legible)
    (hdone : Core.recover physical now w.core = some c')
    (h : Passed (sturdy env t op) (reconcileStore (fun q => settle (physical q)) now).run w wm) :
    ∃ cm', Core.recover physical now wm.core = some cm' ∧ c'.Alike cm' := by
  obtain ⟨c₁, hall, hexpire, hok⟩ := Core.recover_iff.mp hdone
  rw [reconcileStore_eq] at h
  rcases passed_read (q := .listOpenJournal) rfl h with hs | ⟨w₁, hs₁, h⟩
  · rw [show wm.core = w.core from congrArg Store.core hs]
    exact ⟨c', hdone, .refl⟩
  have hc₁ : w₁.core = w.core := congrArg Store.core hs₁
  have hleg₁ : w₁.store.Legible := hs₁ ▸ hleg
  have hall₁ : Core.reconcileAll physical now w.core.openJournal w₁.core = some c₁ := by
    rw [hc₁]
    exact hall
  have h : Passed (sturdy env t op) (reconcileEntries (fun q => settle (physical q)) now
      w.core.openJournal ⟨0, [], [], 0, [], true, []⟩ >>= afterJournal now).run w₁ wm := h
  rcases passed_seq h with hx | ⟨report, w₂, hx, h⟩
  · have hleft := reconcileEntries_passed hleg₁ (by rw [hc₁]) hall₁ hx
    exact ⟨c', Core.recover_iff.mpr ⟨c₁, hleft, hexpire, hok⟩, .refl⟩
  have hc₂ : w₂.core = c₁ := by
    obtain ⟨_, -, ⟨-, hsome⟩ | ⟨-, hnone⟩⟩ := reconcileEntries_ran hleg₁ hx
    · exact Option.some.inj (hsome.symm.trans hall₁)
    · cases hnone.symm.trans hall₁
  rw [← hc₂] at hexpire
  have hJ : w₂.core.openJournal = [] := hc₂ ▸ Core.reconcileAll_open rfl hall
  -- the journal is done: what counts is the rest of the reservations
  obtain ⟨hJm, cm', hcm', halike⟩ := afterJournal_passed hJ hexpire h
  refine ⟨cm', Core.recover_iff.mpr ⟨wm.core, ?_, hcm', ?_⟩, halike⟩
  · rw [hJm]
    rfl
  · rw [halike.objects, halike.replicas, Core.acyclic_alike halike]
    exact hok

/-! ## a run with nothing to do -/

theorem expireReservations_none {r : Res Nat} (hs : ∀ v ∈ vs, ¬v.expiresAtMs ≤ now)
    (h : Ran (sturdy env t op) (expireReservations now vs n).run w r w') : r = .ok n ∧ w' = w := by
  induction vs with
  | nil => exact ran_pure.mp h
  | cons v vs ih =>
    rw [expireReservations, if_neg (hs v List.mem_cons_self)] at h
    exact ih (fun x hx => hs x (List.mem_cons_of_mem _ hx)) h

theorem reportLineage_store (h : Passed (sturdy env t op) (reportLineage report).run w wm) :
    wm.store = w.store := by
  rcases passed_store h with hs | ⟨g, w₁, hrun, hrest⟩
  · exact hs
  have hs₁ : w₁.store = w.store := by
    have hrun : (Store.addEdges w.core.lineage.rows
        (w.core.objects.rows.foldl (fun g o => g.addObject o.id) LineageGraph.default)).map
          (fun g => (g, w.store)) = .ok (g, w₁.store) := hrun
    generalize Store.addEdges w.core.lineage.rows _ = x at hrun
    cases x with
    | error err => cases hrun
    | ok g' => exact (Prod.mk.inj (Except.ok.inj hrun)).2.symm
  rcases hrest with hs | hrest
  · exact hs.trans hs₁
  · cases hv : g.validate with
    | ok u =>
      simp only [hv] at hrest
      cases hrest
      exact hs₁
    | error err =>
      simp only [hv] at hrest
      cases hrest
      exact hs₁

/-- tables that recovery has led to: it reports nothing, and changes no row -/
theorem reconcileStore_idle {c : Core} {r : Res RecoveryReport} (hleg : w.store.Legible)
    (hdone : Core.recover physical now c = some w.core) (hrec : w.store.Recounted)
    {physical' : JournalPayload → Res Bool}
    (h : Ran (sturdy env t op)
      (reconcileStore (fun q => settle (physical' q)) now).run w r w') :
    r = .ok ⟨0, [], [], 0, [], true, []⟩ ∧ Rewritten w w' w.store.dedup.find? := by
  obtain ⟨c₁, hall, hexpire, hok⟩ := Core.recover_iff.mp hdone
  obtain ⟨hcount, hacyclic⟩ := Bool.and_eq_true_iff.mp hok
  obtain ⟨hJ, hdue⟩ := Core.expire_open (List.nil_append _).symm nofun hexpire
  have hJ := hJ.trans (Core.reconcileAll_open rfl hall)
  rw [reconcileStore_eq] at h
  obtain ⟨w₁, hs₁, h⟩ := sturdy_read (q := .listOpenJournal) rfl h
  have h : Ran (sturdy env t op) (reconcileEntries (fun q => settle (physical' q)) now
      w.core.openJournal ⟨0, [], [], 0, [], true, []⟩ >>= afterJournal now).run w₁ r w' := h
  rw [hJ] at h
  obtain ⟨w₂, hs₂, h⟩ := sturdy_read (q := .listOpenReservations) rfl h
  have h : Ran (sturdy env t op) (expireReservations now w₁.core.openReservations 0 >>= fun k => do
      let repairs ← repairDedupCounts
      reportLineage ⟨0, [], [], k, repairs, true, []⟩).run w₂ r w' := h
  have hs : w₂.store = w.store := hs₂.trans hs₁
  rw [show w₁.core = w.core from congrArg Store.core hs₁] at h
  rcases ran_seq.mp h with ⟨_, -, hx⟩ | ⟨k, w₃, hx, h⟩
  · cases (expireReservations_none hdue hx).1
  obtain ⟨hk, rfl⟩ := expireReservations_none hdue hx
  cases hk
  have hc : w₃.core = w.core := congrArg Store.core hs
  rw [← hs] at hleg hrec
  rw [← hc] at hcount hacyclic
  rcases ran_seq.mp h with ⟨_, -, hx⟩ | ⟨notes, w₄, hx, h⟩
  · rcases (repairDedupCounts_countable hleg hx).2 with ⟨_, hno, -⟩ | ⟨-, hno⟩
    · cases hno
    · cases hno.symm.trans hcount
  obtain ⟨hc₄, ⟨_, hnotes, -, hexact⟩ | ⟨⟨_, hno⟩, -⟩⟩ := repairDedupCounts_countable hleg hx
  swap
  · cases hno
  obtain ⟨hnil, hrows⟩ := hexact hrec
  cases hnotes
  have hs' := reportLineage_store h.passed
  rcases (reportLineage_acyclic h).2 with ⟨hr, -⟩ | ⟨-, hno⟩
  swap
  · rw [hc₄] at hno
    cases hno.symm.trans hacyclic
  refine ⟨by rw [hr, hnil], ?_⟩
  rw [Rewritten, hs', ← hs]
  exact hrows

end

end Coordinator

/-! ## interrupted runs -/

theorem legible_stores {x y : Store} (h : Relation.ReflTransGen StoreStep x y)
    (hx : x.Legible) : y.Legible := by
  induction h with
  | refl => exact hx
  | tail _ hs ih =>
    cases hs with
    | method hrun => exact StoreOp.run_legible ih hrun
    | claim hd _ =>
      refine ⟨?_, ?_⟩
      · rw [show Store.replicas _ = Store.replicas _ from congrArg Data.replicas hd]
        exact ih.replicas
      · rw [show Store.dedup _ = Store.dedup _ from congrArg Data.dedup hd]
        exact ih.dedup

theorem Reach.legible {env : Env} {mode : Mode} {s : Sys} (h : Reach env mode s) :
    s.shared.store.Legible :=
  legible_stores h.from_init.stores ⟨fun _ he => absurd he (Table.not_mem_empty _),
    fun _ he => absurd he (Table.not_mem_empty _)⟩

/-- recovery runs alone, on a database that does not fail, and with fixed physical answers -/
abbrev RecoveryRan (env : Env) (t : Tid) (op : Op) (physical : JournalPayload → Res Bool)
    (now : Int) (w : Traced) (r : Res RecoveryReport) (w' : Traced) : Prop :=
  Ran (sturdy env t op) (Coordinator.reconcileStore (fun q => settle (physical q)) now).run w r w'

/-- it has reported no error -/
def ErrorFree (r : Res RecoveryReport) : Prop := ∃ report, r = .ok report ∧ report.errors = []

/-- no reservation that is open runs out between the two times -/
def Core.SameDue (c : Core) (now now' : Int) : Prop :=
  ∀ v ∈ c.openReservations, v.expiresAtMs ≤ now ↔ v.expiresAtMs ≤ now'

/-- recoveries of the database of `w` have been killed, the last one with the clock at `n`, and have
left that of `b`; from one to the next no reservation has run out that was still open -/
inductive Interrupted (env : Env) (physical : JournalPayload → Res Bool) (now : Int) (w : Traced) :
    Int → Traced → Prop where
  | start : Interrupted env physical now w now w
  | again {n n' : Int} {a m b : Traced} {t : Tid} {op : Op} :
      Interrupted env physical now w n a → a.core.SameDue n n' →
      Passed (sturdy env t op)
        (Coordinator.reconcileStore (fun q => settle (physical q)) n').run a m →
      b.store = m.store → Interrupted env physical now w n' b

section
variable {env : Env} {mode : Mode} {s : Sys} {physical : JournalPayload → Res Bool} {now n : Int}
  {w b : Traced} {c' : Core}

/-- what is left leads to the same tables -/
theorem Interrupted.recovers (hleg : w.store.Legible)
    (hdone : Core.recover physical now w.core = some c') (h : Interrupted env physical now w n b) :
    b.store.Legible ∧ ∃ cm', Core.recover physical n b.core = some cm' ∧ c'.Alike cm' := by
  induction h with
  | start => exact ⟨hleg, c', hdone, .refl⟩
  | again _ hdue hm hb ih =>
    obtain ⟨hleg', cm', hcm', halike⟩ := ih
    obtain ⟨c₁, hc₁, h₁⟩ := Core.recover_alike _ hdue hcm' .refl
    obtain ⟨c₂, hc₂, h₂⟩ := Coordinator.reconcileStore_passed hleg' hc₁ hm
    refine ⟨?_, c₂, ?_, (halike.trans h₁).trans h₂⟩
    · rw [hb]
      exact legible_passed Coordinator.reconcileStore_onStore hm hleg'
    · rw [Traced.core, hb]
      exact hc₂

/-- **Recovery can be killed and run again.**  On the database that any run of the system has left,
recovery by itself returns, and reports no error exactly when `Core.recover` is defined; then it
leaves the tables that this computes.  Killed between any two of its transactions, any number of
times, and run again while no further reservation has run out, it comes to the same tables, up to
the times of updates and to attempts of expired reservations that stay open; the dedup table is the
count of the replicas.  Whoever runs it once more, with whatever physical answers, finds nothing to
do. -/
theorem recovery_restarts (hs : Reach env mode s) (physical : JournalPayload → Res Bool) (now : Int)
    (hw : w.store = s.shared.store) :
    (∀ t op, (∃ r w', RecoveryRan env t op physical now w r w') ∧
      ∀ r w', RecoveryRan env t op physical now w r w' →
        (ErrorFree r ∧ Core.recover physical now w.core = some w'.core) ∨
        (¬ErrorFree r ∧ Core.recover physical now w.core = none)) ∧
    ∀ c', Core.recover physical now w.core = some c' → ∀ n b, Interrupted env physical now w n b →
      ∀ n', b.core.SameDue n n' → ∀ t op,
      (∃ r w', RecoveryRan env t op physical n' b r w') ∧
      ∀ r w', RecoveryRan env t op physical n' b r w' →
        ErrorFree r ∧ c'.Alike w'.core ∧ w'.store.Recounted ∧
        ∀ (physical' : JournalPayload → Res Bool) (n'' : Int),
          (∀ v ∈ w'.core.openReservations, ¬v.expiresAtMs ≤ n'') → ∀ t op r' w'',
          RecoveryRan env t op physical' n'' w' r' w'' → ErrorFree r' ∧ w''.core = w'.core := by
  have hleg : w.store.Legible := hw ▸ hs.legible
  refine ⟨fun t op => ⟨?_, fun r w' h => ?_⟩, ?_⟩
  · exact sturdy_runs Coordinator.reconcileStore_onStore w
  · rcases Coordinator.reconcileStore_ran hleg h with ⟨report, hr, hclean, hsome⟩ | ⟨hne, hnone⟩
    · exact .inl ⟨⟨report, hr, hclean⟩, hsome⟩
    · refine .inr ⟨?_, hnone⟩
      rintro ⟨report, hr, hclean⟩
      exact hne report hr hclean
  intro c' hdone n b hb n' hdue t op
  obtain ⟨hlegb, cm, hcm, halike⟩ := hb.recovers hleg hdone
  obtain ⟨c₁, hc₁, h₁⟩ := Core.recover_alike n' hdue hcm .refl
  refine ⟨sturdy_runs Coordinator.reconcileStore_onStore b, fun r w' h => ?_⟩
  rcases Coordinator.reconcileStore_ran hlegb h with ⟨report, rfl, hclean, hw'⟩ | ⟨-, hnone⟩
  swap
  · cases hnone.symm.trans hc₁
  have hleg' := legible_passed Coordinator.reconcileStore_onStore h.passed hlegb
  refine ⟨⟨report, rfl, hclean⟩, ?_, ?_, ?_⟩
  · rw [Option.some.inj (hw'.symm.trans hc₁)]
    exact halike.trans h₁
  · exact (reconcileStore_recounted (l := false) _).ran trivial (ran_of_sturdy h)
  · intro physical' n'' hleft t op r' w'' h'
    have hagain := @Core.recover_done physical n' b.core w'.core physical' n'' hw' hleft
    rcases Coordinator.reconcileStore_ran hleg' h' with ⟨report', hr', hclean', hsame⟩ | ⟨-, hnone⟩
    · exact ⟨⟨report', hr', hclean'⟩, Option.some.inj (hsame.symm.trans hagain)⟩
    · cases hnone.symm.trans hagain

theorem recounted_unique {x y : Store} (hx : x.Recounted) (hy : y.Recounted)
    (h : y.replicas = x.replicas) (k : ContentHash × String) :
    y.dedup.find? k = x.dedup.find? k := by
  have hxy : Recount y.replicas.rows x.dedup.rows := by
    rw [h]
    exact hx
  rw [(recounted_iff hxy).mp hy k, (recounted_iff hx).mp hx k]

/-- **Recovery is idempotent and restartable.**  When it has reported no error, a second run at the
same time, whatever the physical answers, reports nothing and changes no row.  And if it is killed
between any two of its transactions and run again at the same time with the same answers, it reports
no error, and the objects, replicas, archives, references and reservations and the phases of the
journal are those the uninterrupted run has left.  The database is one whose rows can be read: where
one cannot, recovery returns the error of the query. -/
theorem recovery_idempotent (env : Env) (t : Tid) (op : Op) (physical : JournalPayload → Res Bool)
    (now : Int) (w w' : Traced) (report : RecoveryReport) (hleg : w.store.Legible)
    (h : RecoveryRan env t op physical now w (.ok report) w') (hclean : report.errors = []) :
    (∀ (physical' : JournalPayload → Res Bool) t op,
      (∃ r w'', RecoveryRan env t op physical' now w' r w'') ∧
      ∀ r w'', RecoveryRan env t op physical' now w' r w'' →
        r = .ok ⟨0, [], [], 0, [], true, []⟩ ∧ Rewritten w' w'' w'.store.dedup.find?) ∧
    ∀ t op m b, Passed (sturdy env t op)
        (Coordinator.reconcileStore (fun q => settle (physical q)) now).run w m →
      b.store = m.store → ∀ t op,
      (∃ r w'', RecoveryRan env t op physical now b r w'') ∧
      ∀ r w'', RecoveryRan env t op physical now b r w'' → ErrorFree r ∧
        w''.store.objects = w'.store.objects ∧ w''.store.replicas = w'.store.replicas ∧
        w''.store.archives = w'.store.archives ∧
        (∀ k, w''.store.dedup.find? k = w'.store.dedup.find? k) ∧
        w''.store.reservations = w'.store.reservations ∧
        ∀ id, (w''.store.journal.find? id).map JournalEntry.phase =
          (w'.store.journal.find? id).map JournalEntry.phase := by
  have hdone : Core.recover physical now w.core = some w'.core := by
    rcases Coordinator.reconcileStore_ran hleg h with ⟨_, -, -, hsome⟩ | ⟨hne, -⟩
    · exact hsome
    · exact absurd hclean (hne report rfl)
  have hrec : w'.store.Recounted :=
    (reconcileStore_recounted (l := false) _).ran trivial (ran_of_sturdy h)
  refine ⟨fun physical' t op => ⟨?_, fun r w'' h' => ?_⟩, fun t' op' m b hm hb t op => ⟨?_, ?_⟩⟩
  · exact sturdy_runs Coordinator.reconcileStore_onStore w'
  · exact Coordinator.reconcileStore_idle
      (legible_passed Coordinator.reconcileStore_onStore h.passed hleg) hdone hrec h'
  · exact sturdy_runs Coordinator.reconcileStore_onStore b
  intro r w'' h'
  have hlegb : b.store.Legible := by
    rw [hb]
    exact legible_passed Coordinator.reconcileStore_onStore hm hleg
  obtain ⟨c, hc, halike⟩ := Coordinator.reconcileStore_passed hleg hdone hm
  rcases Coordinator.reconcileStore_ran hlegb h' with ⟨report', rfl, hclean', hw''⟩ | ⟨-, hnone⟩
  swap
  · rw [Traced.core, hb] at hnone
    cases hnone.symm.trans hc
  rw [Traced.core, hb] at hw''
  rw [Option.some.inj (hc.symm.trans hw'')] at halike
  have hrec' : w''.store.Recounted :=
    (reconcileStore_recounted (l := false) _).ran trivial (ran_of_sturdy h')
  refine ⟨⟨report', rfl, hclean'⟩, halike.objects, halike.replicas, halike.archives,
    recounted_unique hrec hrec' halike.replicas, halike.reservations, fun id => ?_⟩
  have hphase := congrArg (Option.map JournalEntry.phase)
    (halike.journal.find? JournalEntry.untimed_attemptId id)
  rw [Option.map_map, Option.map_map] at hphase
  have hsame : JournalEntry.phase ∘ JournalEntry.untimed = JournalEntry.phase :=
    funext JournalEntry.untimed_phase
  rw [hsame] at hphase
  exact hphase.symm

end

namespace Sample

/-- recovery after the reclaim of `validatedReclaim`, killed when the object is back in its row -/
def rollbackCut (s : Sys) : Traced :=
  (Coordinator.reconcileStore (fun _ => settle (.ok true)) 0).run.cut (sturdy env 1 .recover)
    (fun _ => {}) 3 s.shared

def rowStates (w : Traced) : List LifecycleState :=
  w.store.objects.rows.map ReclaimObject.lifecycleState

theorem rollbackCut_eq : (validatedReclaim.map fun s =>
    ((Core.recover (fun _ => .ok true) 0 s.shared.core).any fun c =>
        decide (c.openReservations = []),
      (rollbackCut s).core.openReservations.all fun v =>
        decide (v.expiresAtMs ≤ 0 ↔ v.expiresAtMs ≤ 5),
      rowStates s.shared, rowStates (rollbackCut s))) =
    some (true, true, [.reclaimPending], [.hot]) := by
  decide +kernel

end Sample

/-- killed after the first row it has written -/
theorem recovery_restarts_cut : ∃ s b c' r w' r' w'', Reach Sample.env anyRun s ∧
    Core.recover (fun _ => .ok true) 0 s.shared.core = some c' ∧
    Interrupted Sample.env (fun _ => .ok true) 0 s.shared 0 b ∧
    Sample.rowStates s.shared = [.reclaimPending] ∧ Sample.rowStates b = [.hot] ∧
    RecoveryRan Sample.env 1 .recover (fun _ => .ok true) 5 b r w' ∧ c'.Alike w'.core ∧
    RecoveryRan Sample.env 1 .recover (fun _ => .ok false) 5 w' r' w'' ∧
    w''.core = w'.core := by
  obtain ⟨s, hs, h⟩ := Option.map_eq_some_iff.mp Sample.rollbackCut_eq
  obtain ⟨hany, h⟩ := Prod.mk.inj h
  obtain ⟨hdue, h⟩ := Prod.mk.inj h
  obtain ⟨hbefore, hafter⟩ := Prod.mk.inj h
  obtain ⟨c', hc', hopen⟩ := (Option.any_eq_true _ _).mp hany
  have hreach := Sample.reached_validatedReclaim s hs
  have hcut : Interrupted Sample.env (fun _ => .ok true) 0 s.shared 0 (Sample.rollbackCut s) :=
    .again .start (fun _ _ => Iff.rfl) (Prog.passed_cut _ _ _ _ _) rfl
  have hall := (recovery_restarts hreach (fun _ => .ok true) 0 rfl).2 c' hc' 0 _ hcut 5
    (fun v hv => of_decide_eq_true (List.all_eq_true.mp hdue v hv)) 1 .recover
  obtain ⟨⟨r, w', hran⟩, hrest⟩ := hall
  obtain ⟨-, halike, -, hdone⟩ := hrest r w' hran
  obtain ⟨r', w'', hran'⟩ := @sturdy_runs Sample.env 1 .recover _ _
    (@Coordinator.reconcileStore_onStore 5 (fun _ => .ok false)) w'
  have hnone : w'.core.openReservations = [] := by
    rw [Core.openReservations, halike.reservations]
    exact of_decide_eq_true hopen
  refine ⟨s, _, c', r, w', r', w'', hreach, hc', hcut, hbefore, hafter, hran, halike, hran', ?_⟩
  exact (hdone (fun _ => .ok false) 5 (by rw [hnone]; exact nofun) 1 .recover r' w'' hran').2

/-- the same run, against one that is not killed -/
theorem recovery_idempotent_cut : ∃ s w' report b r w'' r' w₃, Reach Sample.env anyRun s ∧
    RecoveryRan Sample.env 1 .recover (fun _ => .ok true) 0 s.shared (.ok report) w' ∧
    Sample.rowStates s.shared = [.reclaimPending] ∧ Sample.rowStates b = [.hot] ∧
    RecoveryRan Sample.env 1 .recover (fun _ => .ok true) 0 b r w'' ∧
    w''.store.objects = w'.store.objects ∧ w''.store.replicas = w'.store.replicas ∧
    RecoveryRan Sample.env 1 .recover (fun _ => .ok false) 0 w' r' w₃ ∧
    r' = .ok ⟨0, [], [], 0, [], true, []⟩ := by
  obtain ⟨s, hs, h⟩ := Option.map_eq_some_iff.mp Sample.rollbackCut_eq
  obtain ⟨hany, h⟩ := Prod.mk.inj h
  obtain ⟨-, h⟩ := Prod.mk.inj h
  obtain ⟨hbefore, hafter⟩ := Prod.mk.inj h
  obtain ⟨c', hc', -⟩ := (Option.any_eq_true _ _).mp hany
  have hreach := Sample.reached_validatedReclaim s hs
  obtain ⟨r, w', hran⟩ := @sturdy_runs Sample.env 1 .recover _ _
    (@Coordinator.reconcileStore_onStore 0 (fun _ => .ok true)) s.shared
  rcases Coordinator.reconcileStore_ran hreach.legible hran with
    ⟨report, rfl, hclean, -⟩ | ⟨-, hnone⟩
  swap
  · cases hnone.symm.trans hc'
  obtain ⟨hidle, hrestart⟩ := recovery_idempotent Sample.env 1 .recover (fun _ => .ok true) 0
    s.shared w' report hreach.legible hran hclean
  obtain ⟨⟨r', w₃, hran'⟩, hsame⟩ := hidle (fun _ => .ok false) 1 .recover
  obtain ⟨⟨r, w'', hran''⟩, hend⟩ := hrestart 1 .recover (Sample.rollbackCut s)
    (Sample.rollbackCut s) (Prog.passed_cut _ _ _ _ _) rfl 1 .recover
  obtain ⟨-, hobjects, hreplicas, -⟩ := hend r w'' hran''
  exact ⟨s, w', report, _, r, w'', r', w₃, hreach, hran, hbefore, hafter, hran'', hobjects,
    hreplicas, hran', (hsame r' w₃ hran').1⟩

end ReclaimFabric
