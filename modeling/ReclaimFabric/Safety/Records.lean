import ReclaimFabric.Safety.Replay

/-!
# The records of a reclaim

`create_reclaim_reservation` writes an attempt, a reservation and a journal row in one transaction;
nothing deletes them, and they are closed one by one.

* `identity`        the attempt, object and generation of a record;
* `Tied`            the three tables speak of the same reclaims, one record each;
* `Attempt.Kept`, `Reservation.Kept`   what may become of a record;
* `records_tied`    the tables over the runs.
-/

namespace ReclaimFabric

def JournalEntry.identity (j : JournalEntry) : Uuid × Uuid × Nat :=
  (j.attemptId, j.objectId, j.generation)

def Attempt.identity (a : Attempt) : Uuid × Uuid × Nat := (a.attemptId, a.objectId, a.generation)

def Reservation.identity (r : Reservation) : Uuid × Uuid × Nat :=
  (r.attemptId, r.objectId, r.generation)

/-- a closed attempt stays as it is, an open one changes its status and the time of the change -/
structure Attempt.Kept (a a' : Attempt) : Prop where
  fields : a' = { a with status := a'.status, updatedAtMs := a'.updatedAtMs }
  closed : a.status ≠ .isOpen → a' = a

structure Reservation.Kept (r r' : Reservation) : Prop where
  fields : r' = { r with status := r'.status }
  closed : r.status ≠ .isOpen → r' = r

/-- every reclaim has one row in each of the three tables -/
structure Tied (x : Store) : Prop where
  attempts : ∀ i, (∃ a ∈ x.attempts, a.identity = i) ↔ ∃ j ∈ x.journal, j.identity = i
  reservations : ∀ i, (∃ r ∈ x.reservations, r.identity = i) ↔ ∃ j ∈ x.journal, j.identity = i
  single : ∀ r ∈ x.reservations, ∀ r' ∈ x.reservations, r.attemptId = r'.attemptId → r = r'

section
variable {a a' a'' : Attempt} {r r' r'' : Reservation}

theorem Attempt.Kept.refl (a : Attempt) : a.Kept a := ⟨rfl, fun _ => rfl⟩

theorem Attempt.Kept.trans (h : a.Kept a') (h' : a'.Kept a'') : a.Kept a'' where
  fields := by
    rw [h'.fields, h.fields]
  closed := fun hc => by
    obtain rfl := h.closed hc
    exact h'.closed hc

theorem Attempt.Kept.identity (h : a.Kept a') : a'.identity = a.identity := by
  rw [h.fields]
  rfl

theorem Reservation.Kept.refl (r : Reservation) : r.Kept r := ⟨rfl, fun _ => rfl⟩

theorem Reservation.Kept.trans (h : r.Kept r') (h' : r'.Kept r'') : r.Kept r'' where
  fields := by
    rw [h'.fields, h.fields]
  closed := fun hc => by
    obtain rfl := h.closed hc
    exact h'.closed hc

theorem Reservation.Kept.identity (h : r.Kept r') : r'.identity = r.identity := by
  rw [h.fields]
  rfl

end

/-! ## identities of the rows of a table -/

section
variable {κ ρ ι : Type} {key : ρ → κ} {T T' : Table key} {k : κ} {r r' : ρ} {f : ρ → ι} {i : ι}

theorem RowSwap.has_swap (h : RowSwap T T' k (some r) (some r')) (hf : f r' = f r) :
    (∃ x ∈ T', f x = i) ↔ ∃ x ∈ T, f x = i := by
  constructor
  · rintro ⟨x, hx, rfl⟩
    rcases (h.2.2.2.2 x).mp hx with ⟨hx, -⟩ | hnew
    · exact ⟨x, hx, rfl⟩
    · cases hnew
      exact ⟨r, h.1 r rfl, hf.symm⟩
  · rintro ⟨x, hx, rfl⟩
    by_cases hk : key x = k
    · cases h.2.1 x hx hk
      exact ⟨r', (h.2.2.2.2 r').mpr (.inr rfl), hf⟩
    · exact ⟨x, (h.2.2.2.2 x).mpr (.inl ⟨hx, hk⟩), rfl⟩

theorem RowSwap.mem_insert (h : RowSwap T T' k none (some r)) (x : ρ) :
    x ∈ T' ↔ x ∈ T ∨ x = r := by
  rw [h.2.2.2.2 x]
  constructor
  · rintro (⟨hx, -⟩ | hnew)
    · exact .inl hx
    · cases hnew
      exact .inr rfl
  · rintro (hx | rfl)
    · exact .inl ⟨hx, fun hk => by cases h.2.1 x hx hk⟩
    · exact .inr rfl

theorem RowSwap.has_insert (h : RowSwap T T' k none (some r)) :
    (∃ x ∈ T', f x = i) ↔ (∃ x ∈ T, f x = i) ∨ f r = i := by
  simp only [h.mem_insert]
  constructor
  · rintro ⟨x, hx | rfl, hi⟩
    · exact .inl ⟨x, hx, hi⟩
    · exact .inr hi
  · rintro (⟨x, hx, hi⟩ | hi)
    · exact ⟨x, .inl hx, hi⟩
    · exact ⟨r, .inr rfl, hi⟩

end

section
variable {x y : Store} {which : Reservation → Bool} {status : ReservationStatus}

theorem Store.mem_closeReservations {T : Table Reservation.reservationId} {r : Reservation} :
    r ∈ Store.closeReservations which status T ↔
      ∃ r₀ ∈ T, r = if which r₀ && decide (r₀.status = .isOpen) then { r₀ with status := status }
        else r₀ := Table.mem_updateWhere

/-- the row after `closeReservations` -/
theorem Reservation.kept_close (which : Reservation → Bool) (status : ReservationStatus)
    (r : Reservation) :
    r.Kept (if which r && decide (r.status = .isOpen) then { r with status := status } else r) := by
  split
  · next h =>
    rw [Bool.and_eq_true, decide_eq_true_eq] at h
    exact ⟨rfl, fun hc => absurd h.2 hc⟩
  · exact .refl r

theorem onward_close {T : Table Reservation.reservationId} :
    Onward Reservation.Kept (fun r => r.status = .isOpen) T
      (Store.closeReservations which status T) := by
  constructor
  · intro r hr
    exact ⟨_, Store.mem_closeReservations.mpr ⟨r, hr, rfl⟩, Reservation.kept_close _ _ r⟩
  · intro r hr
    obtain ⟨r₀, hr₀, rfl⟩ := Store.mem_closeReservations.mp hr
    exact .inl ⟨r₀, hr₀, Reservation.kept_close _ _ r₀⟩

/-! ## what a store method does to them -/

theorem Tied.of_eq (h : Tied x) (hd : y.data.records = x.data.records) : Tied y := by
  have hj : y.journal = x.journal := congrArg Prod.fst hd
  have hr : y.reservations = x.reservations := congrArg (fun p => p.2.1) hd
  have ha : y.attempts = x.attempts := congrArg (fun p => p.2.2) hd
  constructor
  · rw [hj, ha]
    exact h.attempts
  · rw [hj, hr]
    exact h.reservations
  · rw [hr]
    exact h.single

theorem Tied.of_attempts {a a' : Attempt} {T : Table Attempt.attemptId} {k : Uuid} (h : Tied x)
    (hs : RowSwap x.attempts T k (some a) (some a')) (hi : a'.identity = a.identity)
    (hd : y.data = { x.data with attempts := T }) : Tied y := by
  have hj : y.journal = x.journal := congrArg Data.journal hd
  have hr : y.reservations = x.reservations := congrArg Data.reservations hd
  have ha : y.attempts = T := congrArg Data.attempts hd
  constructor
  · intro i
    rw [hj, ha, hs.has_swap hi]
    exact h.attempts i
  · rw [hj, hr]
    exact h.reservations
  · rw [hr]
    exact h.single

theorem Tied.of_journal {j j' : JournalEntry} {T : Table JournalEntry.attemptId} {k : Uuid}
    (h : Tied x) (hs : RowSwap x.journal T k (some j) (some j')) (hi : j'.identity = j.identity)
    (hd : y.data = { x.data with journal := T }) : Tied y := by
  have hj : y.journal = T := congrArg Data.journal hd
  have hr : y.reservations = x.reservations := congrArg Data.reservations hd
  have ha : y.attempts = x.attempts := congrArg Data.attempts hd
  constructor
  · intro i
    rw [hj, ha, hs.has_swap hi]
    exact h.attempts i
  · intro i
    rw [hj, hr, hs.has_swap hi]
    exact h.reservations i
  · rw [hr]
    exact h.single

theorem Tied.of_close (h : Tied x)
    (hd : y.data = { x.data with
      reservations := Store.closeReservations which status x.reservations }) : Tied y := by
  have hj : y.journal = x.journal := congrArg Data.journal hd
  have hr : y.reservations = Store.closeReservations which status x.reservations :=
    congrArg Data.reservations hd
  have ha : y.attempts = x.attempts := congrArg Data.attempts hd
  constructor
  · rw [hj, ha]
    exact h.attempts
  · intro i
    rw [hj, hr, ← h.reservations i]
    constructor
    · rintro ⟨r, hr, rfl⟩
      obtain ⟨r₀, hr₀, rfl⟩ := Store.mem_closeReservations.mp hr
      exact ⟨r₀, hr₀, (Reservation.kept_close _ _ r₀).identity.symm⟩
    · rintro ⟨r, hr, rfl⟩
      exact ⟨_, Store.mem_closeReservations.mpr ⟨r, hr, rfl⟩, (Reservation.kept_close _ _ r).identity⟩
  · intro r hmem r' hmem' hid
    rw [hr] at hmem hmem'
    obtain ⟨r₀, hr₀, rfl⟩ := Store.mem_closeReservations.mp hmem
    obtain ⟨r₀', hr₀', rfl⟩ := Store.mem_closeReservations.mp hmem'
    have h₀ := congrArg Prod.fst (Reservation.kept_close which status r₀).identity
    have h₀' := congrArg Prod.fst (Reservation.kept_close which status r₀').identity
    rw [h.single r₀ hr₀ r₀' hr₀' (h₀.symm.trans (hid.trans h₀'))]

/-- the checks that precede the three inserts -/
theorem Store.createReclaimReservation_checked {j : JournalEntry} {r : Reservation} {a : Attempt}
    {u : Unit} (h : createReclaimReservation j r a x = .ok (u, y)) :
    r.status = .isOpen ∧ a.status = .isOpen ∧ r.identity = j.identity ∧
      a.identity = j.identity := by
  simp only [createReclaimReservation, bind, Except.bind] at h
  split at h
  · cases h
  · next hopen =>
    split at h
    · cases h
    · next hsame =>
      simp only [not_or, not_not] at hopen hsame
      obtain ⟨ha, hr, hoa, hor, hga, hgr⟩ := hsame
      refine ⟨hopen.2.1, hopen.2.2, ?_, ?_⟩
      · rw [Reservation.identity, JournalEntry.identity, hr, hor, hgr]
      · rw [Attempt.identity, JournalEntry.identity, ha, hoa, hga]

theorem Tied.of_create {j : JournalEntry} {r : Reservation} {a : Attempt} {u : Unit} (h : Tied x)
    (hrun : Store.createReclaimReservation j r a x = .ok (u, y)) : Tied y := by
  obtain ⟨-, -, hri, hai⟩ := Store.createReclaimReservation_checked hrun
  obtain ⟨J, V, A, hJ, hV, hA, hd⟩ := Store.createReclaimReservation_ok hrun
  have hj : y.journal = J := congrArg Data.journal hd
  have hr : y.reservations = V := congrArg Data.reservations hd
  have ha : y.attempts = A := congrArg Data.attempts hd
  -- the attempt is new, and so no reservation is of it
  have hnew : ∀ v ∈ x.reservations, v.attemptId ≠ r.attemptId := by
    intro v hv he
    obtain ⟨j₀, hj₀, hi₀⟩ := (h.reservations v.identity).mp ⟨v, hv, rfl⟩
    have hid : j₀.attemptId = j.attemptId :=
      (congrArg Prod.fst hi₀).trans (he.trans (congrArg Prod.fst hri))
    cases hJ.2.1 j₀ hj₀ hid
  constructor
  · intro i
    rw [hj, ha, hJ.has_insert, hA.has_insert, h.attempts i, hai]
  · intro i
    rw [hj, hr, hJ.has_insert, hV.has_insert, h.reservations i, hri]
  · intro v hv v' hv' hid
    rw [hr, hV.mem_insert] at hv hv'
    rcases hv with hv | rfl
    · rcases hv' with hv' | rfl
      · exact h.single v hv v' hv' hid
      · exact absurd hid (hnew v hv)
    · rcases hv' with hv' | rfl
      · exact absurd hid.symm (hnew v' hv')
      · rfl

/-- **One call of a store method keeps the three tables in step.** -/
theorem Tied.run {so : StoreOp} {u : so.Out} (h : Tied x) (hrun : so.run x = .ok (u, y)) :
    Tied y := by
  by_cases hc : so.records = false
  · exact h.of_eq (StoreOp.run_unrecorded hc hrun)
  cases so with
  | updateAttempt id status now =>
    obtain ⟨a, T, -, -, hswap, hd⟩ := Store.updateAttempt_ok hrun
    exact h.of_attempts hswap rfl hd
  | reconcileAttempt id status now =>
    rcases Store.reconcileAttempt_ok hrun with ⟨a, T, -, -, hswap, hd⟩ | rfl
    · exact h.of_attempts hswap rfl hd
    · exact h
  | updateReservation id status =>
    obtain ⟨-, -, -, hd⟩ := Store.updateReservation_ok hrun
    exact h.of_close hd
  | updateReservationForAttempt id status =>
    exact h.of_close (Store.updateReservationForAttempt_ok hrun)
  | createReclaimReservation j r a => exact h.of_create hrun
  | updateJournalPhase id phase now =>
    obtain ⟨prior, j, T, -, -, -, hswap, hd⟩ := Store.updateJournalPhase_ok hrun
    exact h.of_journal hswap rfl hd
  | startJournalPhysical id payload now =>
    obtain ⟨j, T, -, -, hswap, hd⟩ := Store.startJournalPhysical_ok hrun
    exact h.of_journal hswap rfl hd
  | _ => exact absurd rfl hc

/-! ## along a run -/

/-- attempts and reservations before and after -/
structure Closing (x y : Store) : Prop where
  attempts : Onward Attempt.Kept (fun a => a.status = .isOpen) x.attempts y.attempts
  reservations : Onward Reservation.Kept (fun r => r.status = .isOpen) x.reservations
    y.reservations

theorem Closing.of_eq (hd : y.data.records = x.data.records) : Closing x y := by
  have hr : y.reservations = x.reservations := congrArg (fun p => p.2.1) hd
  have ha : y.attempts = x.attempts := congrArg (fun p => p.2.2) hd
  constructor
  · rw [ha]
    exact .refl .refl
  · rw [hr]
    exact .refl .refl

theorem Closing.trans {z : Store} (h : Closing x y) (h' : Closing y z) : Closing x z :=
  ⟨h.attempts.trans .trans h'.attempts, h.reservations.trans .trans h'.reservations⟩

theorem Closing.of_attempt {a : Attempt} {T : Table Attempt.attemptId} {status : AttemptStatus}
    {now : Int} (ho : a.status = .isOpen)
    (hs : RowSwap x.attempts T a.attemptId (some a)
      (some { a with status := status, updatedAtMs := now }))
    (hd : y.data = { x.data with attempts := T }) : Closing x y := by
  have hr : y.reservations = x.reservations := congrArg Data.reservations hd
  have ha : y.attempts = T := congrArg Data.attempts hd
  constructor
  · rw [ha]
    exact .swap hs .refl ⟨rfl, fun hc => absurd ho hc⟩
  · rw [hr]
    exact .refl .refl

theorem Closing.of_close (hd : y.data = { x.data with
    reservations := Store.closeReservations which status x.reservations }) : Closing x y := by
  have hr : y.reservations = Store.closeReservations which status x.reservations :=
    congrArg Data.reservations hd
  have ha : y.attempts = x.attempts := congrArg Data.attempts hd
  constructor
  · rw [ha]
    exact .refl .refl
  · rw [hr]
    exact onward_close

theorem Closing.of_journal {T : Table JournalEntry.attemptId}
    (hd : y.data = { x.data with journal := T }) : Closing x y := by
  have hr : y.reservations = x.reservations := congrArg Data.reservations hd
  have ha : y.attempts = x.attempts := congrArg Data.attempts hd
  constructor
  · rw [ha]
    exact .refl .refl
  · rw [hr]
    exact .refl .refl

theorem StoreOp.run_closing {so : StoreOp} {u : so.Out} (hrun : so.run x = .ok (u, y)) :
    Closing x y := by
  by_cases hc : so.records = false
  · exact .of_eq (StoreOp.run_unrecorded hc hrun)
  cases so with
  | updateAttempt id status now =>
    obtain ⟨a, T, -, ho, hswap, hd⟩ := Store.updateAttempt_ok hrun
    exact .of_attempt ho hswap hd
  | reconcileAttempt id status now =>
    rcases Store.reconcileAttempt_ok hrun with ⟨a, T, -, ho, hswap, hd⟩ | rfl
    · exact .of_attempt ho hswap hd
    · exact .of_eq rfl
  | updateReservation id status =>
    obtain ⟨-, -, -, hd⟩ := Store.updateReservation_ok hrun
    exact .of_close hd
  | updateReservationForAttempt id status =>
    exact .of_close (Store.updateReservationForAttempt_ok hrun)
  | createReclaimReservation j r a =>
    obtain ⟨hro, hao, -, -⟩ := Store.createReclaimReservation_checked hrun
    obtain ⟨J, V, A, -, hV, hA, hd⟩ := Store.createReclaimReservation_ok hrun
    have hr : y.reservations = V := congrArg Data.reservations hd
    have ha : y.attempts = A := congrArg Data.attempts hd
    constructor
    · rw [ha]
      exact .insert hA .refl hao
    · rw [hr]
      exact .insert hV .refl hro
  | updateJournalPhase id phase now =>
    obtain ⟨_, _, _, -, -, -, -, hd⟩ := Store.updateJournalPhase_ok hrun
    exact .of_journal hd
  | startJournalPhysical id payload now =>
    obtain ⟨_, _, -, -, -, hd⟩ := Store.startJournalPhysical_ok hrun
    exact .of_journal hd
  | _ => exact absurd rfl hc

theorem closing_stores (h : Relation.ReflTransGen StoreStep x y) : Closing x y := by
  induction h with
  | refl => exact .of_eq rfl
  | tail _ hs ih =>
    refine ih.trans ?_
    cases hs with
    | method hrun => exact StoreOp.run_closing hrun
    | claim hd _ => exact .of_eq (congrArg Data.records hd)

theorem tied_stores (h : Relation.ReflTransGen StoreStep x y) (ht : Tied x) : Tied y := by
  induction h with
  | refl => exact ht
  | tail _ hs ih =>
    cases hs with
    | method hrun => exact ih.run hrun
    | claim hd _ => exact ih.of_eq (congrArg Data.records hd)

theorem Tied.new : Tied .new := by
  constructor
  · intro i
    constructor
    · rintro ⟨a, ha, -⟩
      exact absurd ha (Table.not_mem_empty a)
    · rintro ⟨j, hj, -⟩
      exact absurd hj (Table.not_mem_empty j)
  · intro i
    constructor
    · rintro ⟨r, hr, -⟩
      exact absurd hr (Table.not_mem_empty r)
    · rintro ⟨j, hj, -⟩
      exact absurd hj (Table.not_mem_empty j)
  · intro r hr
    exact absurd hr (Table.not_mem_empty r)

end

section
variable {env : Env} {mode : Mode} {s : Sys}

/-- **The records of the reclaims.**  In every run each reclaim has one attempt, one reservation
and one journal row, of the same object and generation; an object has at most one open reservation;
attempts and reservations start open, are never deleted, and stay as they are once closed. -/
theorem records_tied (h : Reach env mode s) :
    Tied s.shared.store ∧
      (∀ r ∈ s.shared.store.reservations, ∀ r' ∈ s.shared.store.reservations,
        r.status = .isOpen → r'.status = .isOpen → r.objectId = r'.objectId → r = r') ∧
      ∀ s', Later env mode s s' → Closing s.shared.store s'.shared.store := by
  have hany : Reach env anyRun s := Reach.mono (fun _ _ _ => trivial) h
  exact ⟨tied_stores h.from_init.stores .new, (hany.free.inv Regime.free_collisionless).single,
    fun s' hl => closing_stores hl.stores⟩

end

/-- the attempt and the reservation of a reclaim under way -/
theorem records_tied_validated : ∃ s j, Reach Sample.env anyRun s ∧
    j ∈ s.shared.store.journal ∧ (∃ a ∈ s.shared.store.attempts, a.identity = j.identity) ∧
    ∃ r ∈ s.shared.store.reservations, r.identity = j.identity := by
  obtain ⟨s, hs, h⟩ := Option.bind_eq_some_iff.mp Sample.validatedReclaim_eq
  obtain ⟨s', -, hph⟩ := Option.map_eq_some_iff.mp h
  have hj : JournalPhase.validated ∈ Sample.rowPhases s :=
    (Prod.mk.inj hph).1 ▸ List.mem_singleton.mpr rfl
  obtain ⟨j, hj, -⟩ := List.mem_map.mp hj
  have hreach := Sample.reached_validatedReclaim s hs
  obtain ⟨htied, -, -⟩ := records_tied hreach
  exact ⟨s, j, hreach, hj, (htied.attempts _).mpr ⟨j, hj, rfl⟩,
    (htied.reservations _).mpr ⟨j, hj, rfl⟩⟩

end ReclaimFabric
