import ReclaimFabric.Safety.Audit
import ReclaimFabric.Logic.Writes

/-!
# The store across a run

Whatever the threads, the faults and the restarts of a run, its store goes from one state to the
next by a method that succeeds or by a claim.  What every method keeps to holds along the runs.

* `StoreStep`         the store before and after a label;
* `Later.stores`      the store of a later state;
* `run_unjournaled`   the methods that leave the journal alone;
* `JournalEntry.Path` how a journal row changes, whatever the calls are;
* `journal_forward`   the journal along a run.
-/

set_option linter.unusedSectionVars false

namespace ReclaimFabric

section
variable {env : Env} {mode : Mode} {s s' : Sys} {l : Label} {x y : Store} {j j' : JournalEntry}

namespace Store

/-- a journal starts RESERVED -/
theorem createReclaimReservation_reserved {r : Reservation} {a : Attempt} {u : Unit}
    (h : createReclaimReservation j r a x = .ok (u, y)) : j.phase = .reserved := by
  simp only [createReclaimReservation, bind, Except.bind] at h
  split at h
  · cases h
  · next hph =>
    simp only [not_or, not_not] at hph
    exact hph.1

theorem startJournalPhysical_planned {id : Uuid} {payload : JournalPayload} {now : Int} {u : Unit}
    (h : startJournalPhysical id payload now x = .ok (u, y)) : hasPhysicalPlan payload = true := by
  simp only [startJournalPhysical] at h
  split at h
  · cases h
  · next hp => simpa using hp

end Store

/-! ## labels -/

/-- a method that succeeds, or a claim of the store by a new process -/
inductive StoreStep (x y : Store) : Prop where
  | method {so : StoreOp} {a : so.Out} : so.run x = .ok (a, y) → StoreStep x y
  | claim : y.data = x.data → y.audit = x.audit → StoreStep x y

theorem Sys.next_store (hn : s.next env l = some s') :
    StoreStep s.shared.store s'.shared.store := by
  cases l with
  | start t op =>
    cases Sys.went hn with
    | started hw =>
      refine .claim ?_ ?_
      · rw [hw]
      · rw [hw]
  | step t i =>
    cases Sys.went hn with
    | @stepped _ _ _ c _ _ _ _ he =>
      by_cases hc : ∃ so, c = .store so
      · obtain ⟨so, rfl⟩ := hc
        rcases (exec_store he).2 with ⟨_, _, hs⟩ | ⟨a, _, hrun⟩
        · exact .claim (congrArg Store.data hs) (congrArg Store.audit hs)
        · exact .method hrun
      · have hs := exec_unstored (fun so hso => hc ⟨so, hso⟩) he
        exact .claim (congrArg Store.data hs) (congrArg Store.audit hs)
  | restart config bootId now => exact .claim (Sys.restart_eq hn).1 (restart_untold hn).2

/-- the store of a later state -/
theorem Later.stores (h : Later env mode s s') :
    Relation.ReflTransGen StoreStep s.shared.store s'.shared.store := by
  induction h with
  | refl => exact .refl
  | next _ _ _ hn ih => exact ih.tail (Sys.next_store hn)

/-! ## the journal -/

/-- the methods that write journal rows -/
def StoreOp.journals : StoreOp → Bool
  | .createReclaimReservation _ _ _ => true
  | .updateJournalPhase _ _ _ => true
  | .startJournalPhysical _ _ _ => true
  | _ => false

/-- the tables of the reclaims -/
def Data.records (d : Data) : Table JournalEntry.attemptId × Table Reservation.reservationId ×
    Table Attempt.attemptId := (d.journal, d.reservations, d.attempts)

def StoreOp.records : StoreOp → Bool
  | .updateAttempt _ _ _ => true
  | .reconcileAttempt _ _ _ => true
  | .updateReservation _ _ => true
  | .updateReservationForAttempt _ _ => true
  | so => so.journals

theorem StoreOp.run_unrecorded {so : StoreOp} {a : so.Out} (hc : so.records = false)
    (h : so.run x = .ok (a, y)) : y.data.records = x.data.records := by
  have hno : Data.Part.journal ∉ so.writes ∧ Data.Part.reservations ∉ so.writes ∧
      Data.Part.attempts ∉ so.writes := by
    revert hc
    cases so <;> simp [StoreOp.records, StoreOp.journals, StoreOp.writes]
  obtain ⟨hj, hv, ha⟩ := hno
  exact Prod.ext (StoreOp.run_same h hj) (Prod.ext (StoreOp.run_same h hv) (StoreOp.run_same h ha))

theorem StoreOp.run_unjournaled {so : StoreOp} {a : so.Out} (hc : so.journals = false)
    (h : so.run x = .ok (a, y)) : y.journal = x.journal := by
  have hno : Data.Part.journal ∉ so.writes := by
    revert hc
    cases so <;> simp [StoreOp.journals, StoreOp.writes]
  exact StoreOp.run_same h hno

/-- the phases that may follow a phase -/
inductive JournalPhase.Moves : JournalPhase → JournalPhase → Prop where
  | validate : Moves .reserved .validated
  | start : Moves .validated .physicalStarted
  | done : Moves .physicalStarted .physicalDone
  | commit : Moves .physicalDone .committed
  | commitUndone : Moves .physicalStarted .committed
  | rollBack {p : JournalPhase} : p.isOpen = true → Moves p .rolledBack
  | fail {p : JournalPhase} : p.isOpen = true → Moves p .failed

theorem JournalPhase.Moves.isOpen {p q : JournalPhase} (h : p.Moves q) : p.isOpen = true := by
  cases h with
  | rollBack hp => exact hp
  | fail hp => exact hp
  | _ => rfl

theorem JournalPhase.Moves.ne_reserved {p q : JournalPhase} (h : p.Moves q) : q ≠ .reserved := by
  rintro rfl
  cases h

theorem JournalPhase.Moves.validated {p q : JournalPhase} (h : p.Moves q)
    (hq : q = .validated) : p = .reserved := by
  subst hq
  cases h
  rfl

theorem JournalPhase.Moves.physicalStarted {p q : JournalPhase} (h : p.Moves q)
    (hq : q = .physicalStarted) : p = .validated := by
  subst hq
  cases h
  rfl

theorem JournalPhase.moves_of_allowed {p q : JournalPhase} {prior : List JournalPhase}
    (h : Store.allowedPrior q = some prior) (hp : p ∈ prior) : p.Moves q := by
  cases q with
  | reserved => cases h
  | physicalStarted => cases h
  | validated =>
    cases h
    rw [List.mem_singleton.mp hp]
    exact .validate
  | physicalDone =>
    cases h
    rw [List.mem_singleton.mp hp]
    exact .done
  | committed =>
    cases h
    simp only [List.mem_cons, List.not_mem_nil, or_false] at hp
    rcases hp with rfl | rfl
    · exact .commitUndone
    · exact .commit
  | rolledBack =>
    cases h
    simp only [List.mem_cons, List.not_mem_nil, or_false] at hp
    rcases hp with rfl | rfl | rfl | rfl <;> exact .rollBack rfl
  | failed =>
    cases h
    simp only [List.mem_cons, List.not_mem_nil, or_false] at hp
    rcases hp with rfl | rfl | rfl | rfl <;> exact .fail rfl

/-- the row moves on by one phase; its payload changes only when the plan becomes durable -/
structure JournalEntry.Advance (j j' : JournalEntry) : Prop where
  phase : j.phase.Moves j'.phase
  attemptId : j'.attemptId = j.attemptId
  objectId : j'.objectId = j.objectId
  generation : j'.generation = j.generation
  createdAtMs : j'.createdAtMs = j.createdAtMs
  payload : j'.payload = j.payload ∨
    j'.phase = .physicalStarted ∧ Store.hasPhysicalPlan j'.payload = true

/-- how a row changes along a run -/
abbrev JournalEntry.Path : JournalEntry → JournalEntry → Prop :=
  Relation.ReflTransGen JournalEntry.Advance

/-- a closed row stays as it is -/
theorem JournalEntry.Path.closed (h : j.Path j') (hc : j.phase.isOpen = false) : j' = j := by
  rcases Relation.ReflTransGen.cases_head h with rfl | ⟨k, hk, -⟩
  · rfl
  · rw [hk.phase.isOpen] at hc
    cases hc

/-- once the plan is durable the payload stays -/
theorem JournalEntry.Path.payload_eq (h : j.Path j')
    (hs : j.phase ≠ .reserved ∧ j.phase ≠ .validated) : j'.payload = j.payload := by
  have hall : j'.payload = j.payload ∧ j'.phase ≠ .reserved ∧ j'.phase ≠ .validated := by
    induction h with
    | refl => exact ⟨rfl, hs⟩
    | @tail k j' _ hk ih =>
      obtain ⟨hp, hr, hv⟩ := ih
      rcases hk.payload with hp' | ⟨hst, -⟩
      · exact ⟨hp'.trans hp, hk.phase.ne_reserved, fun h => hr (hk.phase.validated h)⟩
      · exact absurd (hk.phase.physicalStarted hst) hv
  exact hall.1

/-! ## rows that are kept -/

/-- what becomes of the rows there are, and where those there are come from -/
structure Onward {κ ρ : Type} {key : ρ → κ} (Kept : ρ → ρ → Prop) (Fresh : ρ → Prop)
    (T T' : Table key) : Prop where
  kept : ∀ r ∈ T, ∃ r' ∈ T', Kept r r'
  origin : ∀ r' ∈ T', (∃ r ∈ T, Kept r r') ∨ ∃ r, Fresh r ∧ Kept r r'

namespace Onward

variable {κ ρ : Type} {key : ρ → κ} {Kept : ρ → ρ → Prop} {Fresh : ρ → Prop}
  {T T' T'' : Table key} {k : κ} {r r' : ρ}

theorem refl (hk : ∀ r, Kept r r) : Onward Kept Fresh T T :=
  ⟨fun r hr => ⟨r, hr, hk r⟩, fun r hr => .inl ⟨r, hr, hk r⟩⟩

theorem trans (hk : ∀ {r r' r''}, Kept r r' → Kept r' r'' → Kept r r'')
    (h : Onward Kept Fresh T T') (h' : Onward Kept Fresh T' T'') : Onward Kept Fresh T T'' where
  kept := fun r hr => by
    obtain ⟨r₁, hr₁, hp⟩ := h.kept r hr
    obtain ⟨r₂, hr₂, hp'⟩ := h'.kept r₁ hr₁
    exact ⟨r₂, hr₂, hk hp hp'⟩
  origin := fun r₂ hr₂ => by
    rcases h'.origin r₂ hr₂ with ⟨r₁, hr₁, hp⟩ | hnew
    · rcases h.origin r₁ hr₁ with ⟨r, hr, hp'⟩ | ⟨r, hr, hp'⟩
      · exact .inl ⟨r, hr, hk hp' hp⟩
      · exact .inr ⟨r, hr, hk hp' hp⟩
    · exact .inr hnew

theorem swap (h : RowSwap T T' k (some r) (some r')) (hk : ∀ r, Kept r r) (hr : Kept r r') :
    Onward Kept Fresh T T' := by
  have hold := h.2.2.1 r rfl
  constructor
  · intro x hx
    by_cases hid : key x = k
    · cases h.2.1 x hx hid
      exact ⟨r', (h.2.2.2.2 r').mpr (.inr rfl), hr⟩
    · exact ⟨x, (h.2.2.2.2 x).mpr (.inl ⟨hx, hid⟩), hk x⟩
  · intro x hx
    rcases (h.2.2.2.2 x).mp hx with ⟨hx, -⟩ | hnew
    · exact .inl ⟨x, hx, hk x⟩
    · cases hnew
      exact .inl ⟨r, h.1 r rfl, hr⟩

theorem insert (h : RowSwap T T' k none (some r)) (hk : ∀ r, Kept r r) (hr : Fresh r) :
    Onward Kept Fresh T T' := by
  constructor
  · intro x hx
    refine ⟨x, (h.2.2.2.2 x).mpr (.inl ⟨hx, fun hid => ?_⟩), hk x⟩
    cases h.2.1 x hx hid
  · intro x hx
    rcases (h.2.2.2.2 x).mp hx with ⟨hx, -⟩ | hnew
    · exact .inl ⟨x, hx, hk x⟩
    · cases hnew
      exact .inr ⟨r, hr, hk r⟩

end Onward

/-! ## the journal -/

/-- the journal before and after -/
abbrev Forward (x y : Store) : Prop :=
  Onward JournalEntry.Path (fun j => j.phase = .reserved) x.journal y.journal

theorem Forward.of_eq (h : y.journal = x.journal) : Forward x y := by
  unfold Forward
  rw [h]
  exact .refl fun _ => .refl

/-- **One call of a store method, whatever its arguments.** -/
theorem StoreOp.run_forward {so : StoreOp} {a : so.Out} (h : so.run x = .ok (a, y)) :
    Forward x y := by
  by_cases hc : so.journals = false
  · exact .of_eq (StoreOp.run_unjournaled hc h)
  cases so with
  | createReclaimReservation j r a =>
    obtain ⟨J, V, A, hJ, -, -, hd⟩ := Store.createReclaimReservation_ok h
    have hy : y.journal = J := congrArg Data.journal hd
    rw [← hy] at hJ
    exact .insert hJ (fun _ => .refl) (Store.createReclaimReservation_reserved h)
  | updateJournalPhase id phase now =>
    obtain ⟨prior, j, T, hprior, -, hmem, hswap, hd⟩ := Store.updateJournalPhase_ok h
    have hy : y.journal = T := congrArg Data.journal hd
    rw [← hy] at hswap
    exact .swap hswap (fun _ => .refl) (.single
      ⟨JournalPhase.moves_of_allowed hprior hmem, rfl, rfl, rfl, rfl, .inl rfl⟩)
  | startJournalPhysical id payload now =>
    have hplan := Store.startJournalPhysical_planned h
    obtain ⟨j, T, -, hph, hswap, hd⟩ := Store.startJournalPhysical_ok h
    have hy : y.journal = T := congrArg Data.journal hd
    rw [← hy] at hswap
    exact .swap hswap (fun _ => .refl) (.single
      ⟨by rw [hph]; exact .start, rfl, rfl, rfl, rfl, .inr ⟨rfl, hplan⟩⟩)
  | _ => exact absurd rfl hc

theorem forward_stores (h : Relation.ReflTransGen StoreStep x y) : Forward x y := by
  induction h with
  | refl => exact .of_eq rfl
  | tail _ hs ih =>
    refine ih.trans .trans ?_
    cases hs with
    | method hrun => exact StoreOp.run_forward hrun
    | claim hd _ => exact Forward.of_eq (congrArg Data.journal hd)

/-- **The journal along a run.**  No row goes away; a row moves on phase by phase, a closed one not
at all; a plan that is durable is not replaced; new rows start RESERVED. -/
theorem journal_forward (h : Later env mode s s') :
    (∀ j ∈ s.shared.store.journal, ∃ j' ∈ s'.shared.store.journal, j.Path j' ∧
      (j.phase.isOpen = false → j' = j) ∧
      (j.phase ≠ .reserved ∧ j.phase ≠ .validated → j'.payload = j.payload)) ∧
    ∀ j' ∈ s'.shared.store.journal, (∃ j ∈ s.shared.store.journal, j.Path j') ∨
      ∃ j : JournalEntry, j.phase = .reserved ∧ j.Path j' := by
  have hf := forward_stores h.stores
  refine ⟨fun j hj => ?_, hf.origin⟩
  obtain ⟨j', hj', hp⟩ := hf.kept j hj
  exact ⟨j', hj', hp, hp.closed, hp.payload_eq⟩

/-! ## a reclaim under way -/

theorem Later.steps? {ok : Sys → Label → Bool} (hok : ∀ s l, ok s l = true → mode s l) {t : Tid}
    {f : Nat → Input} {n k : Nat} {s₀ : Sys} (h : Later env mode s₀ s)
    (hs : s.steps? env ok t f n k = some s') : Later env mode s₀ s' := by
  induction n generalizing k s with
  | zero =>
    cases hs
    exact h
  | succ n ih =>
    obtain ⟨s₁, hn, hs⟩ := Option.bind_eq_some_iff.mp hs
    unfold Sys.label? at hn
    split at hn
    · next hl => exact ih (h.next _ (hok s _ hl) hn) hs
    · cases hn

end

namespace Sample

/-- the reservation of the reclaim is validated -/
def validatedReclaim : Option Sys :=
  during free 1 (after free (opened free) (register (object 10) "a") 200) (reclaim 10) (calm 400)
    150

/-- its plan has become durable -/
def planDurable (s : Sys) : Option Sys := s.steps? env free 1 (calm 400) 50 150

/-- the row of the object is RECLAIMED -/
def rowCommitted (s : Sys) : Option Sys := s.steps? env free 1 (calm 400) 96 150

def rowPhases (s : Sys) : List JournalPhase := s.shared.store.journal.rows.map JournalEntry.phase

theorem validatedReclaim_eq :
    (validatedReclaim.bind fun s => (planDurable s).map fun s' => (rowPhases s, rowPhases s')) =
      some ([.validated], [.physicalStarted]) := by decide +kernel

theorem reached_validatedReclaim : Reached anyRun validatedReclaim :=
  ((reached_opened free_ok trivial).after free_ok).during free_ok

end Sample

/-- the row at VALIDATED is found again with its plan -/
theorem journal_forward_planned : ∃ s s', Later Sample.env anyRun s s' ∧
    ∃ j ∈ s.shared.store.journal, j.phase = .validated ∧ ∃ j' ∈ s'.shared.store.journal,
      j.Path j' ∧ j'.phase = .physicalStarted := by
  obtain ⟨s, -, h⟩ := Option.bind_eq_some_iff.mp Sample.validatedReclaim_eq
  obtain ⟨s', hs', hph⟩ := Option.map_eq_some_iff.mp h
  obtain ⟨hold, hnew⟩ := Prod.mk.inj hph
  have hlater : Later Sample.env anyRun s s' := Later.steps? Sample.free_ok .refl hs'
  have hj : JournalPhase.validated ∈ Sample.rowPhases s := hold ▸ List.mem_singleton.mpr rfl
  obtain ⟨j, hj, hph⟩ := List.mem_map.mp hj
  obtain ⟨j', hj', hpath, -⟩ := (journal_forward hlater).1 j hj
  refine ⟨s, s', hlater, j, hj, hph, j', hj', hpath, ?_⟩
  have hmem : j'.phase ∈ Sample.rowPhases s' := List.mem_map_of_mem hj'
  rw [hnew] at hmem
  exact List.mem_singleton.mp hmem

end ReclaimFabric
