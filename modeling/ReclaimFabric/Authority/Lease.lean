import ReclaimFabric.Model.Store

/-!
# The coordinator row as a lease

One row of the store says which process is the coordinator.  Any number of processes call
`claim_coordinator`, `coordinator_heartbeat` and `release_coordinator` on it, in any order and
with any clock.

* `AuthorityCall`   one call and what it answers (`AuthorityCall.step`);
* `Holder`          who made the last successful claim, read off the answers (`lastClaim`);
* `Lease`           what the row is meant to be: the last claim, the latest time it was confirmed
                    and whether it has been released (`leaseOf`), again read off the answers.

The row encodes a released lease as `last_seen_ms = 0`.  It implements `Lease` in the runs whose
calls are `Orderly`: the time 0 is not used to claim or to confirm, and a released lease is not
confirmed again.
-/

namespace ReclaimFabric

/-! ## calls -/

/-- a call on the coordinator row, by any process -/
inductive AuthorityCall where
  | claim (processId : String) (bootId : Uuid) (now staleMs : Int)
  | heartbeat (processId : String) (bootId : Uuid) (epoch : Nat) (now : Int)
  | release (processId : String) (bootId : Uuid) (epoch : Nat)

/-- a boot of a process with its fencing epoch -/
structure Holder where
  processId : String
  bootId : Uuid
  epoch : Nat
deriving DecidableEq

def CoordinatorState.holder (c : CoordinatorState) : Holder := ⟨c.processId, c.bootId, c.epoch⟩

namespace AuthorityCall

/-- the method; a claim answers its epoch -/
def run : AuthorityCall → Store → Res (Option Nat × Store)
  | .claim p b now stale, s => (s.claimCoordinator p b now stale).map fun x => (some x.1, x.2)
  | .heartbeat p b e now, s => (s.coordinatorHeartbeat p b e now).map fun x => (none, x.2)
  | .release p b e, s => (s.releaseCoordinator p b e).map fun x => (none, x.2)

/-- the answer and the store afterwards; a refused call is rolled back -/
def step (c : AuthorityCall) (s : Store) : Res (Option Nat) × Store :=
  match c.run s with
  | .ok (r, s') => (.ok r, s')
  | .error e => (.error e, s)

/-- whose authority a heartbeat or a release uses -/
def user : AuthorityCall → Option Holder
  | .claim _ _ _ _ => none
  | .heartbeat p b e _ => some ⟨p, b, e⟩
  | .release p b e => some ⟨p, b, e⟩

end AuthorityCall

/-- a call with its answer -/
abbrev Answered := AuthorityCall × Res (Option Nat)

/-- the answers to a sequence of calls -/
def answers : List AuthorityCall → Store → List Answered
  | [], _ => []
  | c :: cs, s => (c, (c.step s).1) :: answers cs (c.step s).2

/-- the store after a sequence of calls -/
def afterCalls : List AuthorityCall → Store → Store
  | [], s => s
  | c :: cs, s => afterCalls cs (c.step s).2

/-- the epoch of a successful claim -/
def Answered.epoch : Answered → Option Nat
  | (_, .ok (some e)) => some e
  | _ => none

/-! ## what one call does -/

theorem claim_ok {p : String} {b : Uuid} {now stale : Int} {s s' : Store} {e : Nat}
    (h : s.claimCoordinator p b now stale = .ok (e, s')) :
    s'.coordinator = some ⟨e, p, b, now⟩ ∧ 0 < stale ∧ e ≤ i64Max ∧
      ((s.coordinator = none ∧ e = 1) ∨ ∃ c, s.coordinator = some c ∧ e = c.epoch + 1 ∧
        (c.lastSeenMs = 0 ∨ Store.saturatingSub now c.lastSeenMs > stale)) := by
  simp only [Store.claimCoordinator] at h
  split at h
  · cases h
  split at h
  · cases h
  next hneg =>
  have hpos : 0 < stale := by omega
  cases hc : s.coordinator with
  | none =>
    rw [hc] at h
    cases h
    exact ⟨rfl, hpos, by decide, .inl ⟨rfl, rfl⟩⟩
  | some c =>
    rw [hc] at h
    simp only at h
    split at h
    · next hstale =>
      split at h
      · next hmax =>
        cases h
        exact ⟨rfl, hpos, hmax, .inr ⟨c, rfl, rfl, hstale⟩⟩
      · cases h
    · cases h

/-- a claim is granted on a row that is stale or released, while there are epochs left -/
theorem claim_granted {p : String} {b : Uuid} {now stale : Int} {s : Store} {c : CoordinatorState}
    (hp : p ≠ "") (hs : 0 < stale) (hc : s.coordinator = some c) (hz : c.lastSeenMs = 0)
    (he : c.epoch + 1 ≤ i64Max) :
    ∃ s', s.claimCoordinator p b now stale = .ok (c.epoch + 1, s') := by
  simp only [Store.claimCoordinator]
  rw [if_neg hp, if_neg (by omega), hc]
  simp only
  rw [if_pos (.inl hz), if_pos he]
  exact ⟨_, rfl⟩

theorem holdsAuthority_iff {p : String} {b : Uuid} {e : Nat} {s : Store} :
    s.holdsAuthority p b e = true ↔ ∃ c, s.coordinator = some c ∧ c.holder = ⟨p, b, e⟩ := by
  cases hc : s.coordinator with
  | none => simp [Store.holdsAuthority, hc]
  | some c => simp [Store.holdsAuthority, hc, CoordinatorState.holder, and_assoc]

theorem heartbeat_ok {p : String} {b : Uuid} {e : Nat} {now : Int} {s s' : Store} {u : Unit}
    (h : s.coordinatorHeartbeat p b e now = .ok (u, s')) :
    ∃ c, s.coordinator = some c ∧ c.holder = ⟨p, b, e⟩ ∧
      s'.coordinator = some { c with lastSeenMs := max c.lastSeenMs now } := by
  simp only [Store.coordinatorHeartbeat, bind, Except.bind] at h
  split at h
  · cases h
  split at h
  · next hh =>
    cases h
    obtain ⟨c, hc, hh⟩ := holdsAuthority_iff.mp hh
    exact ⟨c, hc, hh, by rw [hc]; rfl⟩
  · cases h

theorem release_ok {p : String} {b : Uuid} {e : Nat} {s s' : Store} {u : Unit}
    (h : s.releaseCoordinator p b e = .ok (u, s')) :
    ∃ c, s.coordinator = some c ∧ c.holder = ⟨p, b, e⟩ ∧
      s'.coordinator = some { c with lastSeenMs := 0 } := by
  simp only [Store.releaseCoordinator, bind, Except.bind] at h
  split at h
  · cases h
  split at h
  · next hh =>
    cases h
    obtain ⟨c, hc, hh⟩ := holdsAuthority_iff.mp hh
    exact ⟨c, hc, hh, by rw [hc]; rfl⟩
  · cases h

/-- what a call can do to the row -/
inductive RowStep (row : Option CoordinatorState) :
    AuthorityCall → Res (Option Nat) → Option CoordinatorState → Prop where
  | refused (c : AuthorityCall) (e : ReclaimError) : RowStep row c (.error e) row
  | claimed {p : String} {b : Uuid} {now stale : Int} {e : Nat} : 0 < stale → e ≤ i64Max →
      ((row = none ∧ e = 1) ∨ ∃ c, row = some c ∧ e = c.epoch + 1 ∧
        (c.lastSeenMs = 0 ∨ Store.saturatingSub now c.lastSeenMs > stale)) →
      RowStep row (.claim p b now stale) (.ok (some e)) (some ⟨e, p, b, now⟩)
  | confirmed {p : String} {b : Uuid} {e : Nat} {now : Int} {c : CoordinatorState} :
      row = some c → c.holder = ⟨p, b, e⟩ → RowStep row (.heartbeat p b e now) (.ok none)
        (some { c with lastSeenMs := max c.lastSeenMs now })
  | released {p : String} {b : Uuid} {e : Nat} {c : CoordinatorState} :
      row = some c → c.holder = ⟨p, b, e⟩ → RowStep row (.release p b e) (.ok none)
        (some { c with lastSeenMs := 0 })

theorem AuthorityCall.rowStep (c : AuthorityCall) (s : Store) :
    RowStep s.coordinator c (c.step s).1 (c.step s).2.coordinator := by
  unfold AuthorityCall.step
  cases hr : c.run s with
  | error e => exact .refused c e
  | ok x =>
    cases c with
    | claim p b now stale =>
      simp only [run] at hr
      cases hc : s.claimCoordinator p b now stale with
      | error e => rw [hc] at hr; cases hr
      | ok y =>
        rw [hc] at hr
        cases hr
        obtain ⟨hrow, hpos, hmax, hold⟩ := @claim_ok _ _ _ _ _ y.2 y.1 hc
        show RowStep _ _ _ y.2.coordinator
        rw [hrow]
        exact .claimed hpos hmax hold
    | heartbeat p b e now =>
      simp only [run] at hr
      cases hc : s.coordinatorHeartbeat p b e now with
      | error e => rw [hc] at hr; cases hr
      | ok y =>
        rw [hc] at hr
        cases hr
        obtain ⟨c, hrow, hh, hnew⟩ := @heartbeat_ok _ _ _ _ _ y.2 y.1 hc
        show RowStep _ _ _ y.2.coordinator
        rw [hnew]
        exact .confirmed hrow hh
    | release p b e =>
      simp only [run] at hr
      cases hc : s.releaseCoordinator p b e with
      | error e => rw [hc] at hr; cases hr
      | ok y =>
        rw [hc] at hr
        cases hr
        obtain ⟨c, hrow, hh, hnew⟩ := @release_ok _ _ _ _ y.2 y.1 hc
        show RowStep _ _ _ y.2.coordinator
        rw [hnew]
        exact .released hrow hh

/-! ## exclusive authority -/

/-- the holder after one more answer -/
def Holder.next (h : Option Holder) : Answered → Option Holder
  | (.claim p b _ _, .ok (some e)) => some ⟨p, b, e⟩
  | _ => h

/-- who made the last successful claim -/
def lastClaim (l : List Answered) : Option Holder := l.foldl Holder.next none

theorem RowStep.holder {row row' : Option CoordinatorState} {c : AuthorityCall}
    {r : Res (Option Nat)} (h : RowStep row c r row') :
    row'.map CoordinatorState.holder = Holder.next (row.map CoordinatorState.holder) (c, r) := by
  cases h with
  | refused c e => cases c <;> rfl
  | claimed _ _ _ => rfl
  | confirmed hrow _ => rw [hrow]; rfl
  | released hrow _ => rw [hrow]; rfl

theorem holder_afterCalls (cs : List AuthorityCall) (s : Store) :
    (afterCalls cs s).coordinator.map CoordinatorState.holder =
      (answers cs s).foldl Holder.next (s.coordinator.map CoordinatorState.holder) := by
  induction cs generalizing s with
  | nil => rfl
  | cons c cs ih =>
    rw [afterCalls, ih, answers, List.foldl_cons, (c.rowStep s).holder]

theorem lastClaim_answers (cs : List AuthorityCall) :
    lastClaim (answers cs Store.new) =
      (afterCalls cs Store.new).coordinator.map CoordinatorState.holder :=
  (holder_afterCalls cs Store.new).symm

/-- the epoch of the row, 0 when there is none -/
def Store.epochOf (s : Store) : Nat := (s.coordinator.map CoordinatorState.epoch).getD 0

/-- a claim raises the epoch to the one it answers, and no other call changes it -/
theorem AuthorityCall.epoch_step (c : AuthorityCall) (s : Store) :
    (∀ e, Answered.epoch (c, (c.step s).1) = some e →
      s.epochOf < e ∧ e ≤ i64Max ∧ (c.step s).2.epochOf = e) ∧
    (Answered.epoch (c, (c.step s).1) = none → (c.step s).2.epochOf = s.epochOf) := by
  have h := c.rowStep s
  unfold Store.epochOf
  generalize (c.step s).1 = r at h ⊢
  generalize (c.step s).2.coordinator = row' at h ⊢
  cases h with
  | refused c e => exact ⟨fun _ h => (by cases h), fun _ => rfl⟩
  | @claimed p b now stale e _ hmax hold =>
    refine ⟨fun e' he => ?_, fun h => (by cases h)⟩
    cases he
    refine ⟨?_, hmax, rfl⟩
    rcases hold with ⟨hrow, rfl⟩ | ⟨c, hrow, rfl, _⟩
    · rw [hrow]
      exact Nat.zero_lt_one
    · rw [hrow]
      exact Nat.lt_succ_self _
  | confirmed hrow _ => exact ⟨fun _ h => (by cases h), fun _ => by rw [hrow]; rfl⟩
  | released hrow _ => exact ⟨fun _ h => (by cases h), fun _ => by rw [hrow]; rfl⟩

/-- the epochs of a sequence of calls are above the one it starts with, and increase -/
theorem epochs_increase (cs : List AuthorityCall) (s : Store) :
    (∀ e ∈ (answers cs s).filterMap Answered.epoch, s.epochOf < e ∧ e ≤ i64Max) ∧
      ((answers cs s).filterMap Answered.epoch).Pairwise (· < ·) := by
  induction cs generalizing s with
  | nil => exact ⟨by simp [answers], by simp [answers]⟩
  | cons c cs ih =>
    obtain ⟨hbound, hpair⟩ := ih (c.step s).2
    obtain ⟨hclaim, hother⟩ := c.epoch_step s
    rw [answers, List.filterMap_cons]
    cases he : Answered.epoch (c, (c.step s).1) with
    | none =>
      rw [hother he] at hbound
      exact ⟨hbound, hpair⟩
    | some e =>
      obtain ⟨hlt, hmax, hnew⟩ := hclaim e he
      rw [hnew] at hbound
      refine ⟨?_, List.pairwise_cons.mpr ⟨fun e' he' => (hbound e' he').1, hpair⟩⟩
      intro e' he'
      rcases List.mem_cons.mp he' with rfl | he'
      · exact ⟨hlt, hmax⟩
      · exact ⟨hlt.trans (hbound e' he').1, (hbound e' he').2⟩

theorem RowStep.user {row row' : Option CoordinatorState} {c : AuthorityCall}
    {r : Option Nat} (h : RowStep row c (.ok r) row') {u : Holder} (hu : c.user = some u) :
    row.map CoordinatorState.holder = some u := by
  cases h with
  | claimed _ _ _ => cases hu
  | confirmed hrow hh =>
    cases hu
    rw [hrow]
    exact congrArg some hh
  | released hrow hh =>
    cases hu
    rw [hrow]
    exact congrArg some hh

/-- the last epoch is never passed -/
theorem AuthorityCall.claim_exhausted {p : String} {b : Uuid} {now stale : Int} {s : Store}
    {c : CoordinatorState} (hc : s.coordinator = some c) (he : c.epoch = i64Max) :
    ∃ e, ((AuthorityCall.claim p b now stale).step s).1 = .error e := by
  have hb := ((AuthorityCall.claim p b now stale).epoch_step s).1
  have h := (AuthorityCall.claim p b now stale).rowStep s
  cases hr : ((AuthorityCall.claim p b now stale).step s).1 with
  | error e => exact ⟨e, rfl⟩
  | ok r =>
    rw [hr] at h hb
    generalize ((AuthorityCall.claim p b now stale).step s).2.coordinator = row at h
    cases h with
    | @claimed _ _ _ _ e _ _ _ =>
      obtain ⟨hlt, _, _⟩ := hb e rfl
      have hs : s.epochOf = i64Max := by
        rw [Store.epochOf, hc]
        exact he
      omega

/-- **authority is exclusive**: epochs increase, only the last claimant confirms or releases, and a
refused call changes nothing -/
theorem coordinator_authority_exclusive (calls : List AuthorityCall) :
    ((answers calls Store.new).filterMap Answered.epoch).Pairwise (· < ·) ∧
    ∀ earlier c later, calls = earlier ++ c :: later →
      (∀ r u, (c.step (afterCalls earlier Store.new)).1 = .ok r → c.user = some u →
        lastClaim (answers earlier Store.new) = some u) ∧
      (∀ e, (c.step (afterCalls earlier Store.new)).1 = .error e →
        (c.step (afterCalls earlier Store.new)).2 = afterCalls earlier Store.new) ∧
      (∀ e, Answered.epoch (c, (c.step (afterCalls earlier Store.new)).1) = some e → e ≤ i64Max) ∧
      (∀ p b now stale u, c = .claim p b now stale →
        lastClaim (answers earlier Store.new) = some u → u.epoch = i64Max →
        ∃ e, (c.step (afterCalls earlier Store.new)).1 = .error e) := by
  refine ⟨(epochs_increase calls Store.new).2, ?_⟩
  intro earlier c later _
  refine ⟨?_, ?_, ?_, ?_⟩
  · intro r u hr hu
    have h := c.rowStep (afterCalls earlier Store.new)
    rw [hr] at h
    rw [lastClaim_answers]
    exact h.user hu
  · intro e he
    unfold AuthorityCall.step at he ⊢
    cases hr : c.run (afterCalls earlier Store.new) with
    | error e' => rfl
    | ok x => rw [hr] at he; cases he
  · intro e he
    exact ((c.epoch_step _).1 e he).2.1
  · rintro p b now stale u rfl hu hmax
    rw [lastClaim_answers] at hu
    cases hc : (afterCalls earlier Store.new).coordinator with
    | none => rw [hc] at hu; cases hu
    | some row =>
      rw [hc] at hu
      cases hu
      exact AuthorityCall.claim_exhausted hc hmax

/-! ## the lease -/

/-- the last claim, the latest time it was made or confirmed, and whether it was released -/
structure Lease where
  holder : Holder
  last : Int
  released : Bool

/-- the lease after one more answer -/
def Lease.next (l : Option Lease) : Answered → Option Lease
  | (.claim p b now _, .ok (some e)) => some ⟨⟨p, b, e⟩, now, false⟩
  | (.heartbeat _ _ _ now, .ok _) => l.map fun l => { l with last := max l.last now }
  | (.release _ _ _, .ok _) => l.map fun l => { l with released := true }
  | _ => l

def leaseOf (l : List Answered) : Option Lease := l.foldl Lease.next none

/-- what a lease promises about one call: it is not displaced while it lasts, and once released it
is given to the next claimant -/
def Lease.Honoured (l : Lease) (c : AuthorityCall) (r : Res (Option Nat)) : Prop :=
  ∀ p b now stale, c = .claim p b now stale →
    (∀ e, r = .ok (some e) → l.released = false → now - l.last > stale) ∧
    (l.released = true → p ≠ "" → 0 < stale → l.holder.epoch < i64Max → ∃ e, r = .ok (some e))

/-- every call of the sequence honours the lease it meets -/
def LeaseHonoured (calls : List AuthorityCall) : Prop :=
  ∀ earlier c later, calls = earlier ++ c :: later →
    ∀ l, leaseOf (answers earlier Store.new) = some l →
      l.Honoured c (c.step (afterCalls earlier Store.new)).1

/-- a claim is not made at the time 0; the last time of a lease is not brought to 0; a released
lease is confirmed at no time after 0 -/
def Orderly (l : Option Lease) : AuthorityCall → Prop
  | .claim _ _ now _ => now ≠ 0
  | .heartbeat p b e now => ∀ x, l = some x → x.holder = ⟨p, b, e⟩ →
      if x.released then now ≤ 0 else max x.last now ≠ 0
  | .release _ _ _ => True

/-- the row is the lease, with 0 for a released one -/
def Encodes (row : Option CoordinatorState) (l : Option Lease) : Prop :=
  match row, l with
  | none, none => True
  | some c, some x => c.holder = x.holder ∧
      if x.released then c.lastSeenMs = 0 else c.lastSeenMs = x.last ∧ x.last ≠ 0
  | _, _ => False

theorem Encodes.some_left {c : CoordinatorState} {l : Option Lease} (h : Encodes (some c) l) :
    ∃ x, l = some x ∧ c.holder = x.holder ∧
      if x.released then c.lastSeenMs = 0 else c.lastSeenMs = x.last ∧ x.last ≠ 0 := by
  cases l with
  | none => exact h.elim
  | some x => exact ⟨x, rfl, h⟩

theorem RowStep.encodes {row row' : Option CoordinatorState} {c : AuthorityCall}
    {r : Res (Option Nat)} {l : Option Lease} (h : RowStep row c r row') (he : Encodes row l)
    (ho : Orderly l c) : Encodes row' (Lease.next l (c, r)) := by
  cases h with
  | refused c e => cases c <;> exact he
  | claimed _ _ _ => exact ⟨rfl, rfl, ho⟩
  | @confirmed p b e now c hrow hh =>
    subst hrow
    obtain ⟨x, rfl, hx, hlast⟩ := he.some_left
    have ho := ho x rfl (hx.symm.trans hh)
    refine ⟨hx, ?_⟩
    cases hrel : x.released with
    | true =>
      rw [hrel] at hlast ho
      have hlast : c.lastSeenMs = 0 := hlast
      have ho : now ≤ 0 := ho
      show max c.lastSeenMs now = 0
      omega
    | false =>
      rw [hrel] at hlast ho
      obtain ⟨hlast, _⟩ := hlast
      have ho : max x.last now ≠ 0 := ho
      show max c.lastSeenMs now = max x.last now ∧ max x.last now ≠ 0
      exact ⟨by rw [hlast], ho⟩
  | @released p b e c hrow hh =>
    subst hrow
    obtain ⟨x, rfl, hx, _⟩ := he.some_left
    exact ⟨hx, rfl⟩

theorem saturatingSub_gt {a b c : Int} (hc : 0 < c) (h : Store.saturatingSub a b > c) :
    a - b > c := by
  unfold Store.saturatingSub at h
  omega

/-- on a row that encodes the lease a call does what the lease promises -/
theorem RowStep.honoured {s : Store} {c : AuthorityCall} {l : Lease}
    (he : Encodes s.coordinator (some l)) : l.Honoured c (c.step s).1 := by
  cases hrow : s.coordinator with
  | none =>
    rw [hrow] at he
    exact he.elim
  | some row =>
    rw [hrow] at he
    obtain ⟨hh, hlast⟩ : row.holder = l.holder ∧ _ := he
    rintro p b now stale rfl
    constructor
    · intro e hr hrel
      have h := (AuthorityCall.claim p b now stale).rowStep s
      rw [hr, hrow] at h
      rw [hrel] at hlast
      obtain ⟨hlast, hne⟩ : row.lastSeenMs = l.last ∧ l.last ≠ 0 := hlast
      generalize ((AuthorityCall.claim p b now stale).step s).2.coordinator = row' at h
      cases h with
      | claimed hstale _ hold =>
        rcases hold with ⟨hnone, _⟩ | ⟨c, hc, _, hz | hgt⟩
        · cases hnone
        · cases hc
          exact absurd (hlast.symm.trans hz) hne
        · cases hc
          rw [hlast] at hgt
          exact saturatingSub_gt hstale hgt
    · intro hrel hp hs hmax
      rw [hrel] at hlast
      have hepoch : row.epoch = l.holder.epoch := congrArg Holder.epoch hh
      obtain ⟨s', hs'⟩ := @claim_granted p b now stale s row hp hs hrow hlast (by omega)
      have hrun : (AuthorityCall.claim p b now stale).run s = .ok (some (row.epoch + 1), s') := by
        show (s.claimCoordinator p b now stale).map _ = _
        rw [hs']
        rfl
      refine ⟨row.epoch + 1, ?_⟩
      unfold AuthorityCall.step
      rw [hrun]

/-- calls that are orderly where they are made -/
def OrderlyFrom (l : Option Lease) (s : Store) : List AuthorityCall → Prop
  | [] => True
  | c :: cs => Orderly l c ∧ OrderlyFrom (Lease.next l (c, (c.step s).1)) (c.step s).2 cs

/-- orderly calls on a fresh store -/
def OrderlyRun (calls : List AuthorityCall) : Prop := OrderlyFrom none Store.new calls

theorem OrderlyFrom.left {cs ds : List AuthorityCall} {l : Option Lease} {s : Store}
    (h : OrderlyFrom l s (cs ++ ds)) : OrderlyFrom l s cs := by
  induction cs generalizing l s with
  | nil => trivial
  | cons c cs ih => exact ⟨h.1, ih h.2⟩

/-- the row follows the lease along orderly calls -/
theorem encodes_afterCalls (cs : List AuthorityCall) (s : Store) (l : Option Lease)
    (he : Encodes s.coordinator l) (ho : OrderlyFrom l s cs) :
    Encodes (afterCalls cs s).coordinator ((answers cs s).foldl Lease.next l) := by
  induction cs generalizing s l with
  | nil => exact he
  | cons c cs ih => exact ih (c.step s).2 _ ((c.rowStep s).encodes he ho.1) ho.2

/-- **the row implements the lease** along orderly calls -/
theorem coordinator_row_lease (calls : List AuthorityCall) (h : OrderlyRun calls) :
    LeaseHonoured calls := by
  rintro earlier c later rfl l hl
  have he := encodes_afterCalls earlier Store.new none trivial h.left
  have hl' : (answers earlier Store.new).foldl Lease.next none = some l := hl
  rw [hl'] at he
  exact RowStep.honoured he

/-- a process claims, confirms and releases, and another one takes over -/
def handover : List AuthorityCall :=
  [.claim "a" .nil 1000 10000, .heartbeat "a" .nil 1 2000, .release "a" .nil 1,
    .claim "b" .nil 2001 10000]

theorem coordinator_row_lease_handover : OrderlyRun handover ∧ LeaseHonoured handover := by
  have h : OrderlyRun handover := by
    refine ⟨(by decide : (1000 : Int) ≠ 0), ?_, trivial, (by decide : (2001 : Int) ≠ 0), trivial⟩
    rintro x ⟨⟩ _
    decide
  exact ⟨h, coordinator_row_lease handover h⟩

/-- the old holder confirms once more after its release -/
def confirmReleased : List AuthorityCall :=
  [.claim "a" .nil 1000 10000, .release "a" .nil 1, .heartbeat "a" .nil 1 2000,
    .claim "b" .nil 2500 10000]

/-- a claim made at the time 0 -/
def claimAtZero : List AuthorityCall :=
  [.claim "a" .nil 0 10000, .claim "b" .nil 1 10000]

/-- a released lease that is confirmed once more is not given to the next claimant, and a claim at
the time 0 is displaced at once -/
theorem coordinator_row_not_lease :
    ¬LeaseHonoured confirmReleased ∧ ¬LeaseHonoured claimAtZero := by
  constructor
  · intro h
    obtain ⟨e, he⟩ := (h [.claim "a" .nil 1000 10000, .release "a" .nil 1,
      .heartbeat "a" .nil 1 2000] (.claim "b" .nil 2500 10000) [] rfl _ rfl "b" .nil 2500 10000
      rfl).2 rfl (by decide) (by decide) (by decide)
    cases he
  · intro h
    have hgt := (h [.claim "a" .nil 0 10000] (.claim "b" .nil 1 10000) [] rfl _ rfl "b" .nil 1
      10000 rfl).1 2 rfl rfl
    revert hgt
    decide

end ReclaimFabric
