import ReclaimFabric.Logic.Triple

/-!
# What a store call that succeeded has done

One inversion lemma for each method that writes.  They say which table has changed and how;
everything else of `Store.data` is as it was.
-/

namespace ReclaimFabric

/-- one row of a table is inserted, replaced or removed -/
def RowSwap {κ ρ : Type} {key : ρ → κ} (T T' : Table key) (k : κ) (old new : Option ρ) : Prop :=
  (∀ r, old = some r → r ∈ T) ∧ (∀ r ∈ T, key r = k → old = some r) ∧
    (∀ r, old = some r → key r = k) ∧ (∀ r, new = some r → key r = k) ∧
    ∀ r, r ∈ T' ↔ (r ∈ T ∧ key r ≠ k) ∨ new = some r

namespace RowSwap

variable {κ ρ : Type} {key : ρ → κ} [DecidableEq κ] {T T' : Table key} {r : ρ}

theorem insert (h : T.insert? r = some T') : RowSwap T T' (key r) none (some r) := by
  refine ⟨by simp, ?_, by simp, by rintro x ⟨⟩; rfl, ?_⟩
  · intro x hx hk
    exact absurd hk (Table.find?_eq_none.mp (Table.insert?_eq_some h).1 x hx)
  · intro x
    rw [Table.mem_insert? h]
    constructor
    · rintro (hx | rfl)
      · exact .inl ⟨hx, Table.find?_eq_none.mp (Table.insert?_eq_some h).1 x hx⟩
      · exact .inr rfl
    · rintro (⟨hx, _⟩ | hx)
      · exact .inl hx
      · cases hx
        exact .inr rfl

theorem replace {old : ρ} (h : T.find? (key r) = some old) :
    RowSwap T (T.replace r) (key r) (some old) (some r) := by
  have hold := Table.mem_of_find? h
  have hkey := Table.key_of_find? h
  refine ⟨by rintro x ⟨⟩; exact hold, ?_, by rintro x ⟨⟩; exact hkey, by rintro x ⟨⟩; rfl, ?_⟩
  · intro x hx hk
    rw [Table.eq_of_key hx hold (hk.trans hkey.symm)]
  · intro x
    rw [Table.mem_replace]
    constructor
    · rintro (⟨hx, hk⟩ | ⟨rfl, _⟩)
      · exact .inl ⟨hx, hk⟩
      · exact .inr rfl
    · rintro (hx | hx)
      · exact .inl hx
      · cases hx
        exact .inr ⟨rfl, old, hold, hkey⟩

theorem erase {k : κ} : RowSwap T (T.erase k) k (T.find? k) none := by
  refine ⟨fun x hx => Table.mem_of_find? hx, ?_, fun x hx => Table.key_of_find? hx, by simp, ?_⟩
  · rintro x hx rfl
    exact Table.find?_of_mem hx
  · intro x
    rw [Table.mem_erase]
    simp

end RowSwap

/-- the key of the dedup row of a replica -/
def Replica.ref (r : Replica) : ContentHash × String := (r.contentHash, r.location.backend)

namespace Store

variable {s s' : Store}

/-! ## objects -/

theorem updateObjectRow_ok {o : ReclaimObject} (h : updateObjectRow o s = .ok s') :
    checkObjectRow o = .ok () ∧ (∃ old, s.objects.find? o.id = some old) ∧
      s'.data = { s.data with objects := s.objects.replace o } := by
  simp only [updateObjectRow] at h
  cases hc : checkObjectRow o with
  | error e => rw [hc] at h; cases h
  | ok u =>
    rw [hc] at h
    cases hf : s.objects.find? o.id with
    | none => rw [hf] at h; cases h
    | some old =>
      rw [hf] at h
      cases h
      exact ⟨rfl, ⟨old, rfl⟩, rfl⟩

theorem insertObjectRow_ok {o : ReclaimObject} (h : insertObjectRow o s = .ok s') :
    checkObjectRow o = .ok () ∧ ∃ T, s.objects.insert? o = some T ∧
      s'.data = { s.data with objects := T } := by
  simp only [insertObjectRow] at h
  cases hc : checkObjectRow o with
  | error e => rw [hc] at h; cases h
  | ok u =>
    rw [hc] at h
    cases hf : s.objects.insert? o with
    | none => rw [hf] at h; cases h
    | some T =>
      rw [hf] at h
      cases h
      exact ⟨rfl, T, rfl, rfl⟩

theorem insertAuditRow_ok {a : AuditEntry} (h : insertAuditRow a s = .ok s') :
    s'.data = s.data := by
  simp only [insertAuditRow] at h
  cases hc : sqlOptionalU64 "audit generation" a.generation with
  | error e => rw [hc] at h; cases h
  | ok u => rw [hc] at h; cases h; rfl

theorem insertAuditRows_ok {as : List AuditEntry} (h : insertAuditRows as s = .ok s') :
    s'.data = s.data := by
  induction as generalizing s with
  | nil => cases h; rfl
  | cons a as ih =>
    simp only [insertAuditRows] at h
    cases hc : insertAuditRow a s with
    | error e => rw [hc] at h; cases h
    | ok s₁ =>
      rw [hc] at h
      exact (ih h).trans (insertAuditRow_ok hc)

theorem updateObject_ok {o : ReclaimObject} {r : Unit} (h : updateObject o s = .ok (r, s')) :
    o.validate = .ok () ∧ checkObjectRow o = .ok () ∧ (∃ old, s.objects.find? o.id = some old) ∧
      s'.data = { s.data with objects := s.objects.replace o } := by
  simp only [updateObject] at h
  cases hv : o.validate with
  | error e => rw [hv] at h; cases h
  | ok u =>
    rw [hv] at h
    cases hu : updateObjectRow o s with
    | error e => rw [hu] at h; cases h
    | ok s₁ =>
      rw [hu] at h
      cases h
      exact ⟨rfl, updateObjectRow_ok hu⟩

theorem updateObjectWithAudit_ok {o : ReclaimObject} {a : AuditEntry} {r : Unit}
    (h : updateObjectWithAudit o a s = .ok (r, s')) :
    o.validate = .ok () ∧ checkObjectRow o = .ok () ∧ (∃ old, s.objects.find? o.id = some old) ∧
      s'.data = { s.data with objects := s.objects.replace o } := by
  simp only [updateObjectWithAudit] at h
  cases hv : o.validate with
  | error e => rw [hv] at h; cases h
  | ok u =>
    rw [hv] at h
    cases ha : validateObjectAudit o a with
    | error e => rw [ha] at h; cases h
    | ok u =>
      rw [ha] at h
      cases hu : updateObjectRow o s with
      | error e => rw [hu] at h; cases h
      | ok s₁ =>
        rw [hu] at h
        cases hi : insertAuditRow a s₁ with
        | error e => simp only [bind, Except.bind, hi] at h; cases h
        | ok s₂ =>
          simp only [bind, Except.bind, hi] at h
          cases h
          obtain ⟨hc, ho, hd⟩ := updateObjectRow_ok hu
          exact ⟨rfl, hc, ho, (insertAuditRow_ok hi).trans hd⟩

theorem createObject_ok {o : ReclaimObject} {r : Unit} (h : createObject o s = .ok (r, s')) :
    o.validate = .ok () ∧ checkObjectRow o = .ok () ∧ ∃ T, s.objects.insert? o = some T ∧
      s'.data = { s.data with objects := T } := by
  simp only [createObject] at h
  cases hv : o.validate with
  | error e => rw [hv] at h; cases h
  | ok u =>
    rw [hv] at h
    cases hu : insertObjectRow o s with
    | error e => rw [hu] at h; cases h
    | ok s₁ =>
      rw [hu] at h
      cases h
      exact ⟨rfl, insertObjectRow_ok hu⟩

theorem createObjectWithAudits_ok {o : ReclaimObject} {as : List AuditEntry} {r : Unit}
    (h : createObjectWithAudits o as s = .ok (r, s')) :
    o.validate = .ok () ∧ checkObjectRow o = .ok () ∧ ∃ T, s.objects.insert? o = some T ∧
      s'.data = { s.data with objects := T } := by
  simp only [createObjectWithAudits, bind, Except.bind] at h
  cases hv : o.validate with
  | error e => rw [hv] at h; cases h
  | ok u =>
    rw [hv] at h
    simp only at h
    split at h
    · cases h
    · split at h
      · cases h
      · cases hu : insertObjectRow o s with
        | error e => rw [hu] at h; cases h
        | ok s₁ =>
          rw [hu] at h
          cases hi : insertAuditRows as s₁ with
          | error e => simp only [hi] at h; cases h
          | ok s₂ =>
            simp only [hi] at h
            cases h
            obtain ⟨hc, T, hT, hd⟩ := insertObjectRow_ok hu
            exact ⟨rfl, hc, T, hT, (insertAuditRows_ok hi).trans hd⟩

/-! ## replicas -/

theorem addReplica_ok {x : Replica} {r : Unit} (h : addReplica x s = .ok (r, s')) :
    ∃ T, RowSwap s.replicas T x.replicaId none (some x) ∧ s.replicas.insert? x = some T ∧
      s'.data = { s.data with replicas := T } := by
  simp only [addReplica, bind, Except.bind] at h
  split at h
  · cases h
  · cases hi : s.replicas.insert? x with
    | none => rw [hi] at h; cases h
    | some T =>
      rw [hi] at h
      cases h
      exact ⟨T, .insert hi, rfl, rfl⟩

theorem ne_empty_of_blank {t : String} (h : blank t = false) : t ≠ "" := by
  rintro rfl
  cases h

/-- a stored replica row says where the payload is -/
theorem addReplica_located {x : Replica} {r : Unit} (h : addReplica x s = .ok (r, s')) :
    x.location.backend ≠ "" ∧ x.location.key ≠ "" := by
  simp only [addReplica, validateReplicaDescriptor, bind, Except.bind] at h
  by_cases hb : (blank x.location.backend || blank x.location.key) = true
  · rw [if_pos hb] at h
    cases h
  · rw [Bool.not_eq_true, Bool.or_eq_false_iff] at hb
    exact ⟨ne_empty_of_blank hb.1, ne_empty_of_blank hb.2⟩

theorem updateReplica_ok {x : Replica} {r : Unit} (h : updateReplica x s = .ok (r, s')) :
    ∃ old T, s.replicas.find? x.replicaId = some old ∧
      RowSwap s.replicas T x.replicaId (some old) (some { x with objectId := old.objectId }) ∧
      T = s.replicas.replace { x with objectId := old.objectId } ∧
      s'.data = { s.data with replicas := T } := by
  simp only [updateReplica, bind, Except.bind] at h
  split at h
  · cases h
  · split at h
    · cases h
    · cases hf : s.replicas.find? x.replicaId with
      | none => rw [hf] at h; cases h
      | some old =>
        rw [hf] at h
        cases h
        exact ⟨old, _, rfl, .replace (r := { x with objectId := old.objectId }) hf, rfl, rfl⟩

theorem deleteReplica_ok {id : Uuid} {r : Unit} (h : deleteReplica id s = .ok (r, s')) :
    s'.data = { s.data with replicas := s.replicas.erase id } := by
  cases h
  rfl

/-! ## lineage -/

theorem addLineageEdge_ok {p c : Uuid} {k : EdgeKind} {r : Unit}
    (h : addLineageEdge p c k s = .ok (r, s')) :
    ∃ T, s'.data = { s.data with lineage := T } ∧
      ∀ e, e ∈ T ↔ e ∈ s.lineage ∨ e = ⟨p, c, k⟩ := by
  simp only [addLineageEdge] at h
  cases hi : s.lineage.insert? ⟨p, c, k⟩ with
  | none =>
    rw [hi] at h
    cases h
    refine ⟨s.lineage, rfl, ?_⟩
    intro e
    refine ⟨.inl, ?_⟩
    rintro (he | rfl)
    · exact he
    · obtain ⟨x, hx⟩ := Option.ne_none_iff_exists'.mp (Table.insert?_eq_none hi)
      have hk : x = ⟨p, c, k⟩ := Table.key_of_find? hx
      exact hk ▸ Table.mem_of_find? hx
  | some T =>
    rw [hi] at h
    cases h
    exact ⟨T, rfl, fun e => Table.mem_insert? hi⟩

theorem removeLineageEdge_ok {p c : Uuid} {k : EdgeKind} {r : Unit}
    (h : removeLineageEdge p c k s = .ok (r, s')) :
    s'.data = { s.data with lineage := s.lineage.erase ⟨p, c, k⟩ } := by
  cases h
  rfl

/-! ## dedup -/

/-- the dedup row of one key has been set -/
def DedupSet (s s' : Store) (k : ContentHash × String) (v : Option DedupEntry) : Prop :=
  ∃ T, s'.data = { s.data with dedup := T } ∧
    ∀ k', T.find? k' = if k' = k then v else s.dedup.find? k'

theorem dedupSet_replace {e : DedupEntry} {k : ContentHash × String}
    (hk : (e.contentHash, e.backend) = k) (h : s.dedup.find? k ≠ none) :
    DedupSet s { s with dedup := s.dedup.replace e } k (some e) := by
  refine ⟨_, rfl, ?_⟩
  intro k'
  rw [Table.find?_replace]
  subst hk
  by_cases hk : k' = (e.contentHash, e.backend)
  · subst hk
    obtain ⟨x, hx⟩ := Option.ne_none_iff_exists'.mp h
    rw [if_pos rfl, if_pos rfl, hx]
    rfl
  · rw [if_neg hk, if_neg (Ne.symm hk)]

theorem dedupSet_erase {k : ContentHash × String} :
    DedupSet s { s with dedup := s.dedup.erase k } k none := by
  refine ⟨_, rfl, ?_⟩
  intro k'
  rw [Table.find?_erase]
  by_cases hk : k' = k
  · rw [if_pos hk, if_pos hk.symm]
  · rw [if_neg hk, if_neg (Ne.symm hk)]

theorem dedupSet_insert {e : DedupEntry} {T : Table (fun e : DedupEntry => (e.contentHash, e.backend))}
    (h : s.dedup.insert? e = some T) :
    DedupSet s { s with dedup := T } (e.contentHash, e.backend) (some e) := by
  refine ⟨T, rfl, ?_⟩
  intro k'
  rw [Table.find?_insert? h]
  by_cases hk : k' = (e.contentHash, e.backend)
  · rw [if_pos hk, if_pos hk.symm]
  · rw [if_neg hk, if_neg (Ne.symm hk)]

theorem insertDedup_ok {e : DedupEntry} {r : Unit} (h : insertDedup e s = .ok (r, s')) :
    s.dedup.find? (e.contentHash, e.backend) = none ∧
      DedupSet s s' (e.contentHash, e.backend) (some e) := by
  simp only [insertDedup, bind, Except.bind] at h
  split at h
  · cases h
  · cases hi : s.dedup.insert? e with
    | none => rw [hi] at h; cases h
    | some T =>
      rw [hi] at h
      cases h
      exact ⟨(Table.insert?_eq_some hi).1, dedupSet_insert hi⟩

theorem upsertDedup_ok {e : DedupEntry} {r : Unit} (h : upsertDedup e s = .ok (r, s')) :
    DedupSet s s' (e.contentHash, e.backend) (some e) := by
  simp only [upsertDedup, bind, Except.bind] at h
  split at h
  · cases h
  · cases hi : s.dedup.insert? e with
    | none =>
      rw [hi] at h
      cases h
      exact dedupSet_replace rfl (Table.insert?_eq_none hi)
    | some T =>
      rw [hi] at h
      cases h
      exact dedupSet_insert hi

theorem dedupAcquire_ok {x : ContentHash} {b : String} {r : Unit}
    (h : dedupAcquire x b s = .ok (r, s')) :
    ∃ e, s.dedup.find? (x, b) = some e ∧ 1 ≤ e.refCount ∧
      DedupSet s s' (x, b) (some { e with refCount := e.refCount + 1 }) := by
  simp only [dedupAcquire] at h
  cases hf : s.dedup.find? (x, b) with
  | none => rw [hf] at h; cases h
  | some e =>
    rw [hf] at h
    simp only at h
    split at h
    · next hc =>
      cases h
      have hk := Table.key_of_find? hf
      exact ⟨e, rfl, hc.1, dedupSet_replace hk (by rw [hf]; simp)⟩
    · cases h

theorem dedupRelease_ok {x : ContentHash} {b : String} {last : Bool}
    (h : dedupRelease x b s = .ok (last, s')) :
    ∃ e, s.dedup.find? (x, b) = some e ∧ 1 ≤ e.refCount ∧ last = decide (e.refCount = 1) ∧
      DedupSet s s' (x, b)
        (if e.refCount = 1 then none else some { e with refCount := e.refCount - 1 }) := by
  simp only [dedupRelease] at h
  cases hf : s.dedup.find? (x, b) with
  | none => rw [hf] at h; cases h
  | some e =>
    rw [hf] at h
    simp only at h
    split at h
    · cases h
    · next hz =>
      split at h
      · next h1 =>
        cases h
        refine ⟨e, rfl, by omega, by rw [decide_eq_true h1], ?_⟩
        rw [if_pos h1]
        exact dedupSet_erase
      · next h1 =>
        cases h
        refine ⟨e, rfl, by omega, by rw [decide_eq_false h1], ?_⟩
        have hk := Table.key_of_find? hf
        rw [if_neg h1]
        exact dedupSet_replace hk (by rw [hf]; simp)

theorem deleteDedup_ok {x : ContentHash} {b : String} {r : Unit}
    (h : deleteDedup x b s = .ok (r, s')) : DedupSet s s' (x, b) none := by
  cases h
  exact dedupSet_erase

/-! ## attempts, reservations, journal -/

theorem closeAttempt_swap {id : Uuid} {status : AttemptStatus} {now : Int} {a : Attempt}
    (h : s.attempts.find? id = some a) (ho : a.status = .isOpen) :
    RowSwap s.attempts (closeAttempt id status now s.attempts) a.attemptId (some a)
      (some { a with status := status, updatedAtMs := now }) := by
  have hm := Table.mem_of_find? h
  have hid : a.attemptId = id := Table.key_of_find? h
  refine ⟨by rintro x ⟨⟩; exact hm, ?_, by rintro x ⟨⟩; rfl, by rintro x ⟨⟩; rfl, ?_⟩
  · intro x hx hk
    rw [Table.eq_of_key hx hm hk]
  · intro x
    rw [closeAttempt, Table.mem_updateWhere]
    constructor
    · rintro ⟨y, hy, rfl⟩
      by_cases hk : y.attemptId = a.attemptId
      · have := Table.eq_of_key hy hm hk
        subst this
        rw [if_pos (by rw [hid, ho]; simp)]
        exact .inr rfl
      · have hne : ¬(decide (y.attemptId = id) && decide (y.status = .isOpen)) = true := by
          rw [← hid]
          simp [hk]
        rw [if_neg hne]
        exact .inl ⟨hy, hk⟩
    · rintro (⟨hx, hk⟩ | hx)
      · refine ⟨x, hx, ?_⟩
        rw [if_neg]
        rw [← hid]
        simp [hk]
      · cases hx
        refine ⟨a, hm, ?_⟩
        rw [if_pos]
        rw [hid, ho]
        simp

theorem updateAttempt_ok {id : Uuid} {status : AttemptStatus} {now : Int} {r : Unit}
    (h : updateAttempt id status now s = .ok (r, s')) :
    ∃ a T, s.attempts.find? id = some a ∧ a.status = .isOpen ∧
      RowSwap s.attempts T a.attemptId (some a)
        (some { a with status := status, updatedAtMs := now }) ∧
      s'.data = { s.data with attempts := T } := by
  simp only [updateAttempt] at h
  cases hf : s.attempts.find? id with
  | none => rw [hf] at h; cases h
  | some a =>
    rw [hf] at h
    simp only at h
    split at h
    · next ho =>
      cases h
      exact ⟨a, _, rfl, ho, closeAttempt_swap hf ho, rfl⟩
    · cases h

theorem reconcileAttempt_ok {id : Uuid} {status : AttemptStatus} {now : Int} {r : Unit}
    (h : reconcileAttempt id status now s = .ok (r, s')) :
    (∃ a T, s.attempts.find? id = some a ∧ a.status = .isOpen ∧
      RowSwap s.attempts T a.attemptId (some a)
        (some { a with status := status, updatedAtMs := now }) ∧
      s'.data = { s.data with attempts := T }) ∨
    s' = s := by
  simp only [reconcileAttempt] at h
  split at h
  · cases h
  · cases hf : s.attempts.find? id with
    | none => rw [hf] at h; cases h
    | some a =>
      rw [hf] at h
      simp only at h
      split at h
      · next ho =>
        cases h
        exact .inl ⟨a, _, rfl, ho, closeAttempt_swap hf ho, rfl⟩
      · split at h
        · cases h
          exact .inr rfl
        · cases h

theorem updateReservation_ok {id : Uuid} {status : ReservationStatus} {r : Unit}
    (h : updateReservation id status s = .ok (r, s')) :
    ∃ x, s.reservations.find? id = some x ∧ x.status = .isOpen ∧ s'.data = { s.data with
      reservations := closeReservations (fun x => decide (x.reservationId = id)) status
        s.reservations } := by
  simp only [updateReservation] at h
  cases hf : s.reservations.find? id with
  | none => rw [hf] at h; cases h
  | some x =>
    rw [hf] at h
    simp only at h
    split at h
    · next ho =>
      cases h
      exact ⟨x, rfl, ho, rfl⟩
    · cases h

theorem updateReservationForAttempt_ok {id : Uuid} {status : ReservationStatus} {r : Unit}
    (h : updateReservationForAttempt id status s = .ok (r, s')) :
    s'.data = { s.data with
      reservations := closeReservations (fun x => decide (x.attemptId = id)) status
        s.reservations } := by
  cases h
  rfl

theorem createReclaimReservation_ok {j : JournalEntry} {v : Reservation} {a : Attempt} {r : Unit}
    (h : createReclaimReservation j v a s = .ok (r, s')) :
    ∃ J V A, RowSwap s.journal J j.attemptId none (some j) ∧
      RowSwap s.reservations V v.reservationId none (some v) ∧
      RowSwap s.attempts A a.attemptId none (some a) ∧
      s'.data = { s.data with journal := J, reservations := V, attempts := A } := by
  simp only [createReclaimReservation, bind, Except.bind] at h
  split at h
  · cases h
  · split at h
    · cases h
    · split at h
      · cases h
      · cases hA : s.attempts.insert? a with
        | none => rw [hA] at h; cases h
        | some A =>
          rw [hA] at h
          simp only at h
          cases hV : s.reservations.insert? v with
          | none => rw [hV] at h; cases h
          | some V =>
            rw [hV] at h
            simp only at h
            cases hJ : s.journal.insert? j with
            | none => rw [hJ] at h; cases h
            | some J =>
              rw [hJ] at h
              cases h
              exact ⟨J, V, A, .insert hJ, .insert hV, .insert hA, rfl⟩

theorem updateJournalPhase_ok {id : Uuid} {phase : JournalPhase} {now : Int} {r : Unit}
    (h : updateJournalPhase id phase now s = .ok (r, s')) :
    ∃ prior j T, allowedPrior phase = some prior ∧ s.journal.find? id = some j ∧
      j.phase ∈ prior ∧
      RowSwap s.journal T j.attemptId (some j) (some { j with phase := phase, updatedAtMs := now }) ∧
      s'.data = { s.data with journal := T } := by
  simp only [updateJournalPhase] at h
  cases hp : allowedPrior phase with
  | none => rw [hp] at h; cases h
  | some prior =>
    rw [hp] at h
    simp only at h
    cases hf : s.journal.find? id with
    | none => rw [hf] at h; cases h
    | some j =>
      rw [hf] at h
      simp only at h
      split at h
      · next hm =>
        cases h
        refine ⟨prior, j, _, rfl, rfl, hm,
          .replace (r := { j with phase := phase, updatedAtMs := now }) ?_, rfl⟩
        show s.journal.find? j.attemptId = _
        rw [show j.attemptId = id from Table.key_of_find? hf]
        exact hf
      · cases h

theorem startJournalPhysical_ok {id : Uuid} {payload : JournalPayload} {now : Int} {r : Unit}
    (h : startJournalPhysical id payload now s = .ok (r, s')) :
    ∃ j T, s.journal.find? id = some j ∧ j.phase = .validated ∧
      RowSwap s.journal T j.attemptId (some j)
        (some { j with payload := payload, phase := .physicalStarted, updatedAtMs := now }) ∧
      s'.data = { s.data with journal := T } := by
  simp only [startJournalPhysical] at h
  split at h
  · cases h
  · cases hf : s.journal.find? id with
    | none => rw [hf] at h; cases h
    | some j =>
      rw [hf] at h
      simp only at h
      split at h
      · next hm =>
        cases h
        refine ⟨j, _, rfl, hm, .replace (r :=
          { j with payload := payload, phase := .physicalStarted, updatedAtMs := now }) ?_, rfl⟩
        show s.journal.find? j.attemptId = _
        rw [show j.attemptId = id from Table.key_of_find? hf]
        exact hf
      · cases h

/-! ## archives -/

theorem insertArchive_ok {a : ArchiveRecord} {r : Unit} (h : insertArchive a s = .ok (r, s')) :
    ∃ T, RowSwap s.archives T a.archiveId none (some a) ∧
      s'.data = { s.data with archives := T } := by
  simp only [insertArchive, bind, Except.bind] at h
  split at h
  · cases h
  · split at h
    · cases h
    · cases hi : s.archives.insert? a with
      | none => rw [hi] at h; cases h
      | some T =>
        rw [hi] at h
        cases h
        exact ⟨T, .insert hi, rfl⟩

theorem deleteArchive_ok {id : String} {r : Unit} (h : deleteArchive id s = .ok (r, s')) :
    s'.data = { s.data with archives := s.archives.erase id } := by
  cases h
  rfl

/-! ## calls that succeed -/

theorem checkObjectRow_generation {o : ReclaimObject} (h : checkObjectRow o = .ok ()) :
    sqlU64 "audit generation" o.generation = .ok () := by
  simp only [checkObjectRow, bind, Except.bind] at h
  split at h
  · cases h
  · next hg =>
    simp only [sqlU64] at hg ⊢
    split at hg
    · next hle => rw [if_pos hle]
    · cases hg

theorem updateObjectWithAudit_sure {o old : ReclaimObject} {a : AuditEntry}
    (hv : o.validate = .ok ()) (hc : checkObjectRow o = .ok ())
    (hrow : s.objects.find? o.id = some old) (hid : a.objectId = some o.id)
    (hgen : a.generation = some o.generation)
    (hnew : a.newState = none ∨ a.newState = some o.lifecycleState) (e : ReclaimError) :
    updateObjectWithAudit o a s ≠ .error e := by
  have ha : validateObjectAudit o a = .ok () := by
    simp only [validateObjectAudit, hid, hgen]
    rcases hnew with hn | hn
    · simp [hn, pure, Except.pure]
    · simp [hn, pure, Except.pure]
  have hu : updateObjectRow o s = .ok { s with objects := s.objects.replace o } := by
    simp only [updateObjectRow, hc, hrow]
    rfl
  intro he
  simp only [updateObjectWithAudit, hv, ha, hu, insertAuditRow, hgen, sqlOptionalU64,
    checkObjectRow_generation hc] at he
  cases he

theorem updateReservation_sure {id : Uuid} {status : ReservationStatus} {x : Reservation}
    (hx : x ∈ s.reservations) (hid : x.reservationId = id) (ho : x.status = .isOpen)
    (e : ReclaimError) : updateReservation id status s ≠ .error e := by
  have hf : s.reservations.find? id = some x := by
    rw [← hid]
    exact Table.find?_of_mem hx
  simp only [updateReservation, hf, ho]
  exact fun he => by cases he

theorem updateAttempt_sure {id : Uuid} {status : AttemptStatus} {now : Int} {x : Attempt}
    (hx : x ∈ s.attempts) (hid : x.attemptId = id) (ho : x.status = .isOpen)
    (e : ReclaimError) : updateAttempt id status now s ≠ .error e := by
  have hf : s.attempts.find? id = some x := by
    rw [← hid]
    exact Table.find?_of_mem hx
  simp only [updateAttempt, hf, ho]
  exact fun he => by cases he

theorem updateJournalPhase_sure {id : Uuid} {phase : JournalPhase} {now : Int}
    {prior : List JournalPhase} {j : JournalEntry} (hp : allowedPrior phase = some prior)
    (hj : j ∈ s.journal) (hid : j.attemptId = id) (ho : j.phase ∈ prior) (e : ReclaimError) :
    updateJournalPhase id phase now s ≠ .error e := by
  have hf : s.journal.find? id = some j := by
    rw [← hid]
    exact Table.find?_of_mem hj
  simp only [updateJournalPhase, hp, hf, ho]
  exact fun he => by cases he

/-! ## answers -/

theorem requireObject_ok {id : Uuid} {o : ReclaimObject} (h : requireObject id s = .ok (o, s')) :
    s.objects.find? id = some o := by
  simp only [requireObject] at h
  cases hf : s.objects.find? id with
  | none => rw [hf] at h; cases h
  | some x => rw [hf] at h; cases h; rfl

theorem replicasFor_ok {id : Uuid} {out : List Replica} (h : replicasFor id s = .ok (out, s'))
    {r : Replica} : r ∈ out ↔ r ∈ s.replicas ∧ r.objectId = id := by
  cases h
  rw [sortReplicas, List.mem_insertionSort, List.mem_filter, decide_eq_true_iff]
  exact Iff.rfl

theorem allReplicas_ok {out : List Replica} (h : allReplicas s = .ok (out, s')) {r : Replica} :
    r ∈ out ↔ r ∈ s.replicas := by
  cases h
  rw [sortReplicas, List.mem_insertionSort]
  exact Iff.rfl

theorem archivesFor_ok {id : Uuid} {out : List ArchiveRecord}
    (h : archivesFor id s = .ok (out, s')) {a : ArchiveRecord} :
    a ∈ out ↔ a ∈ s.archives ∧ a.objectId = id := by
  cases h
  rw [sortArchives, List.mem_insertionSort, List.mem_filter, decide_eq_true_iff]
  exact Iff.rfl

theorem listArchives_ok {out : List ArchiveRecord} (h : listArchives s = .ok (out, s'))
    {a : ArchiveRecord} : a ∈ out ↔ a ∈ s.archives := by
  cases h
  rw [sortArchives, List.mem_insertionSort]
  exact Iff.rfl

theorem listObjects_ok {out : List ReclaimObject} (h : listObjects s = .ok (out, s'))
    {o : ReclaimObject} : o ∈ out ↔ o ∈ s.objects := by
  cases h
  rw [List.mem_insertionSort]
  exact Iff.rfl

theorem listOpenJournal_ok {out : List JournalEntry} (h : listOpenJournal s = .ok (out, s'))
    {j : JournalEntry} : j ∈ out ↔ j ∈ s.journal ∧ j.phase.isOpen = true := by
  cases h
  rw [List.mem_insertionSort, List.mem_filter]
  exact Iff.rfl

theorem listOpenReservations_ok {out : List Reservation}
    (h : listOpenReservations s = .ok (out, s')) {x : Reservation} :
    x ∈ out ↔ x ∈ s.reservations ∧ x.status = .isOpen := by
  cases h
  rw [List.mem_insertionSort, List.mem_filter, decide_eq_true_iff]
  exact Iff.rfl

end Store

/-! ## writing an object row -/

/-- the method writes the row `o` over the one that is there -/
def StoreOp.WritesRow (so : StoreOp) (o : ReclaimObject) : Prop :=
  ∀ s r s', so.run s = .ok (r, s') → o.validate = .ok () ∧ Store.checkObjectRow o = .ok () ∧
    s'.data = { s.data with objects := s.objects.replace o } ∧
    ∀ Y, (s.objects.replace o).find? Y = if Y = o.id then some o else s.objects.find? Y

theorem find?_replace_row {s : Store} {o old : ReclaimObject}
    (hold : s.objects.find? o.id = some old) (Y : Uuid) :
    (s.objects.replace o).find? Y = if Y = o.id then some o else s.objects.find? Y := by
  rw [Table.find?_replace]
  by_cases hY : Y = o.id
  · rw [if_pos hY.symm, if_pos hY, hY, hold]
    rfl
  · rw [if_neg (Ne.symm hY), if_neg hY]

theorem StoreOp.writesRow_updateObject (o : ReclaimObject) :
    StoreOp.WritesRow (.updateObject o) o := by
  intro s r s' h
  obtain ⟨hv, hc, ⟨old, hold⟩, hd⟩ := Store.updateObject_ok h
  exact ⟨hv, hc, hd, find?_replace_row hold⟩

theorem StoreOp.writesRow_updateObjectWithAudit (o : ReclaimObject) (a : AuditEntry) :
    StoreOp.WritesRow (.updateObjectWithAudit o a) o := by
  intro s r s' h
  obtain ⟨hv, hc, ⟨old, hold⟩, hd⟩ := Store.updateObjectWithAudit_ok h
  exact ⟨hv, hc, hd, find?_replace_row hold⟩

end ReclaimFabric
