import ReclaimFabric.Logic.Recovery
import ReclaimFabric.Protocol.Script

/-!
# Physical truth

What `recover` does with an open journal entry, decided by the phase and by the answers of the
backends.  Recovery runs alone here, on any store, with any failure of any call.

* `Observed`         a presence query for a planned item was answered;
* `MayCommit`, `MayRollBack`   what a decision has to be based on;
* `Resolution`         the outcomes of the reconciliation of one entry;
* `Reconciled`, `Expired`      the two passes over the entries and the reservations;
* `Tallied`           what the report says of the entries;
* `recover_passes`     the whole run.
-/

set_option linter.unusedSectionVars false

namespace ReclaimFabric

open Prog (Ran)

/-- a thread that runs alone: nobody else moves, and every input may occur -/
def Party.alone (env : Env) (t : Tid) (op : Op) : Party env where
  tid := t
  op := op
  allow := fun _ _ _ => True
  inv := fun _ => True
  rely := fun w w' => w' = w
  guar := fun _ _ => True
  total := false
  quiet := fun _ => trivial
  lost := by
    rintro w _ rfl h
    exact h
  config := by
    rintro w _ rfl
    rfl
  mutex := nofun
  fresh := nofun
  order := nofun

namespace Party

variable {env : Env} {t : Tid} {op : Op} {P : Traced → Prop}

/-- alone, an assertion has to survive only the quiet steps -/
theorem alone_firm (h : ∀ w w', Quiet w w' → P w → P w') : (alone env t op).Firm P where
  rely := by
    rintro w _ rfl _ hw
    exact hw
  quiet := h

/-- what a triple promises holds at the end of every run -/
theorem Triple.ran {α : Type} {l : Bool} {x : M α} {Q : α → Traced → Prop}
    {E : ReclaimError → Traced → Prop} {w w' : Traced} {r : Res α}
    (h : (alone env t op).Triple l P x Q E) (hw : P w)
    (hr : Ran (Traced.exec env t op) x.run w r w') : outcome Q E r w' := by
  have hwp := h w hw nofun
  have := wp_ran (A := (alone env t op).agent) (fun _ => rfl) (fun _ => trivial)
    (fun _ _ _ => trivial) hwp hr
  cases r with
  | ok a => exact this.1
  | error e => exact this.1

end Party

section
variable {env : Env} {t : Tid} {op : Op} {w w₁ w' : Traced} {now : Int} {e : JournalEntry}

/-! ## what was observed -/

/-- the event is the answer `d` to the presence query for a planned item -/
def Event.Found : Event → Replica ⊕ ArchiveRecord → Bool → Prop
  | .call _ _ (.exists_ b k) r _, .inl x, d =>
      r = .ok d ∧ b = x.location.backend ∧ k = x.location.key
  | .call _ _ (.node _ b k .exists_) r _, .inl x, d =>
      (∃ y : NodeReply, r = .ok y ∧ y.ok = true ∧ y.existed = d) ∧ b = x.location.backend ∧
        k = x.location.key
  | .call _ _ (.archiveExists b k) r _, .inr a, d => r = .ok d ∧ b = a.backend ∧ k = a.key
  | _, _, _ => False

/-- between `w` and `w'` the presence of the item was answered with `d` -/
def Observed (w : Traced) (x : Replica ⊕ ArchiveRecord) (d : Bool) (w' : Traced) : Prop :=
  ∃ l, w'.log = l ++ w.log ∧ ∃ ev ∈ l, ev.Found x d

/-- the tables are as they were, the record has grown -/
def Unchanged (w w' : Traced) : Prop :=
  w'.store.data = w.store.data ∧ ∃ l, w'.log = l ++ w.log

theorem Unchanged.refl (w : Traced) : Unchanged w w := ⟨rfl, [], rfl⟩

theorem Unchanged.quiet (h : Unchanged w w₁) (hq : Quiet w₁ w') : Unchanged w w' := by
  obtain ⟨l', _, hl'⟩ := hq.log
  exact ⟨hq.data.trans h.1, grown_trans h.2 ⟨l', hl'⟩⟩

theorem Observed.quiet {x : Replica ⊕ ArchiveRecord} {d : Bool} (h : Observed w x d w₁)
    (hq : Quiet w₁ w') : Observed w x d w' := by
  obtain ⟨l, hl, ev, hev, hf⟩ := h
  obtain ⟨l', _, hl'⟩ := hq.log
  refine ⟨l' ++ l, ?_, ev, List.mem_append_right _ hev, hf⟩
  rw [hl', hl, List.append_assoc]

theorem firm_unchanged : (Party.alone env t op).Firm (Unchanged w) :=
  Party.alone_firm fun _ _ hq h => h.quiet hq

theorem Observed.last {x : Replica ⊕ ArchiveRecord} {d : Bool} {c : Cmd} {r : c.Reply}
    {y : World} (h : Unchanged w w₁) (hf : (Event.call t op c r w₁.toWorld).Found x d) :
    Observed w x d ((Party.alone env t op).after c r w₁ y) := by
  obtain ⟨l, hl⟩ := h.2
  refine ⟨.call t op c r w₁.toWorld :: l, ?_, _, List.mem_cons_self, hf⟩
  show Event.call t op c r w₁.toWorld :: w₁.log = _
  rw [hl]
  rfl

theorem observedAnswers : Party.Triple.Answers (Party.alone env t op) (Unchanged w) (Observed w) where
  firm := fun _ _ => Party.alone_firm fun _ _ hq h => h.quiet hq
  payload := fun _ _ _ _ _ hw _ _ _ => .last hw ⟨rfl, rfl, rfl⟩
  node := fun _ _ _ _ y _ hw _ _ _ hok => .last hw ⟨⟨y, rfl, hok, rfl⟩, rfl, rfl⟩
  archive := fun _ _ _ _ _ hw _ _ _ _ => .last hw ⟨rfl, rfl, rfl⟩

/-! ## the decision for one entry -/

section
variable {p : ParsedJournalPayload} {r : Res ReconcileOutcome}

/-- the presence queries were made, and every planned payload and every archive blob was answered
with `d` -/
structure AllObserved (env : Env) (t : Tid) (op : Op) (e : JournalEntry)
    (p : ParsedJournalPayload) (d : Bool) (w w' : Traced) : Prop where
  physical : e.phase = .physicalStarted ∨ e.phase = .physicalDone
  planned : ∃ plan, p.physicalReplicaDeletions = some plan ∧
    ¬(plan = [] ∧ p.archiveDeletions = []) ∧ ∀ x ∈ plan, Observed w (.inl x) d w'
  archives : ∀ a ∈ p.archiveDeletions, Observed w (.inr a) d w'
  asked : Ran (Traced.exec env t op) (Coordinator.physicalState e.payload).run w (.ok d) w'

/-- what a commit of an entry has to be based on -/
def MayCommit (env : Env) (t : Tid) (op : Op) (e : JournalEntry) (p : ParsedJournalPayload)
    (w w' : Traced) : Prop :=
  (p.physicalReplicaDeletions = some [] ∧ p.archiveDeletions = [] ∧ e.phase = .physicalDone) ∨
    AllObserved env t op e p false w w'

/-- what a rollback of an entry has to be based on -/
def MayRollBack (env : Env) (t : Tid) (op : Op) (e : JournalEntry) (p : ParsedJournalPayload)
    (w w' : Traced) : Prop :=
  e.phase = .reserved ∨ e.phase = .validated ∨
    (p.physicalReplicaDeletions = some [] ∧ p.archiveDeletions = [] ∧
      e.phase = .physicalStarted) ∨
    AllObserved env t op e p true w w'

/-- what the reconciliation of one entry can come to -/
inductive Resolution (env : Env) (t : Tid) (op : Op) (now : Int) (e : JournalEntry) (w : Traced) :
    Res ReconcileOutcome → Traced → Prop where
  | unreadable (err : ReclaimError) : Coordinator.entryPayload e = .error err →
      Resolution env t op now e w (.error err) w
  | closed : e.phase.isOpen = false → Resolution env t op now e w (.ok .failed) w
  -- a query failed or the planned items disagree
  | unresolved (err : ReclaimError) (w' : Traced) :
      Ran (Traced.exec env t op) (Coordinator.physicalState e.payload).run w (.error err) w' →
      Unchanged w w' → Resolution env t op now e w (.error err) w'
  | committed (p : ParsedJournalPayload) (w₁ : Traced) {r : Res ReconcileOutcome} {w' : Traced} :
      Coordinator.entryPayload e = .ok p → Unchanged w w₁ → MayCommit env t op e p w w₁ →
      Ran (Traced.exec env t op) (Coordinator.commitAfterCrash now e p).run w₁ r w' →
      Resolution env t op now e w r w'
  | rolledBack (p : ParsedJournalPayload) (w₁ : Traced) {r : Res ReconcileOutcome} {w' : Traced} :
      Coordinator.entryPayload e = .ok p → Unchanged w w₁ → MayRollBack env t op e p w w₁ →
      Ran (Traced.exec env t op) (Coordinator.rollback now e p).run w₁ r w' →
      Resolution env t op now e w r w'

/-- the payload of a physical entry has a plan, and the presence queries are made for it -/
theorem entryPayload_physical (h : Coordinator.entryPayload e = .ok p)
    (hph : e.phase = .physicalStarted ∨ e.phase = .physicalDone) :
    ∃ plan, p.physicalReplicaDeletions = some plan ∧
      parseJournalDeletions e.payload = .ok (p.replicaDeletions, plan, p.archiveDeletions) := by
  have hpre : ¬(e.phase = .reserved ∨ e.phase = .validated) := by
    rcases hph with h | h <;> rw [h] <;> decide
  simp only [Coordinator.entryPayload, if_neg hpre, bind, Except.bind, pure, Except.pure] at h
  cases hparse : parseJournalPayload e.payload with
  | error err =>
    rw [hparse] at h
    cases h
  | ok parsed =>
    rw [hparse] at h
    simp only at h
    split at h
    · cases h
    · rw [if_neg (fun hc => hpre hc.1)] at h
      split at h
      · cases h
      · next hplan =>
        cases h
        cases hp : p.physicalReplicaDeletions with
        | none => exact absurd ⟨hph, by rw [hp]; rfl⟩ hplan
        | some plan =>
          refine ⟨plan, rfl, ?_⟩
          rw [parseJournalDeletions, hparse]
          simp only [bind, Except.bind, pure, Except.pure, hp]

theorem reconcilePhysical_decides (hp : Coordinator.entryPayload e = .ok p)
    (hph : e.phase = .physicalStarted ∨ e.phase = .physicalDone)
    (h : Ran (Traced.exec env t op)
      (Coordinator.reconcilePhysical Coordinator.physicalState now e p).run w r w') :
    Resolution env t op now e w r w' := by
  obtain ⟨plan, hplan, hparse⟩ := entryPayload_physical hp hph
  unfold Coordinator.reconcilePhysical at h
  split at h
  · next hempty =>
    split at h
    · next hdone =>
      exact .committed p w hp (.refl w) (.inl ⟨hempty.1, hempty.2, hdone⟩) h
    · next hdone =>
      have hstart := hph.resolve_right hdone
      exact .rolledBack p w hp (.refl w) (.inr (.inr (.inl ⟨hempty.1, hempty.2, hstart⟩))) h
  · next hempty =>
    have hne : ¬(plan = [] ∧ p.archiveDeletions = []) := by
      rintro ⟨rfl, h⟩
      exact hempty ⟨hplan, h⟩
    have hphys := Party.Triple.physicalState (A := Party.alone env t op) hparse firm_unchanged
      (observedAnswers (w := w))
    rcases ran_seq.mp h with ⟨err, rfl, herr⟩ | ⟨found, w₁, h₁, hrest⟩
    · exact .unresolved err w' herr (hphys.ran (.refl w) herr)
    · obtain ⟨hsame, hrep, harc⟩ := hphys.ran (.refl w) h₁
      have hall : AllObserved env t op e p found w w₁ := ⟨hph, ⟨plan, hplan, hne, hrep⟩, harc, h₁⟩
      cases found with
      | true => exact .rolledBack p w₁ hp hsame (.inr (.inr (.inr hall))) hrest
      | false => exact .committed p w₁ hp hsame (.inr hall) hrest

/-- the reconciliation of one entry follows the phase and the answers of the backends -/
theorem reconcileEntry_decides
    (h : Ran (Traced.exec env t op)
      (Coordinator.reconcileEntry Coordinator.physicalState now e).run w r w') :
    Resolution env t op now e w r w' := by
  unfold Coordinator.reconcileEntry at h
  rcases ran_seq.mp h with ⟨err, rfl, herr⟩ | ⟨p, w₁, h₁, hrest⟩
  · obtain ⟨hp, rfl⟩ := ran_settle.mp herr
    exact .unreadable err hp.symm
  · obtain ⟨hp, rfl⟩ := ran_settle.mp h₁
    cases hph : e.phase with
    | reserved =>
      rw [hph] at hrest
      exact .rolledBack p w₁ hp.symm (.refl _) (.inl hph) hrest
    | validated =>
      rw [hph] at hrest
      exact .rolledBack p w₁ hp.symm (.refl _) (.inr (.inl hph)) hrest
    | physicalStarted =>
      rw [hph] at hrest
      exact reconcilePhysical_decides hp.symm (.inl hph) hrest
    | physicalDone =>
      rw [hph] at hrest
      exact reconcilePhysical_decides hp.symm (.inr hph) hrest
    | committed =>
      rw [hph] at hrest
      obtain ⟨rfl, rfl⟩ := ran_pure.mp hrest
      exact .closed (by rw [hph]; rfl)
    | rolledBack =>
      rw [hph] at hrest
      obtain ⟨rfl, rfl⟩ := ran_pure.mp hrest
      exact .closed (by rw [hph]; rfl)
    | failed =>
      rw [hph] at hrest
      obtain ⟨rfl, rfl⟩ := ran_pure.mp hrest
      exact .closed (by rw [hph]; rfl)

end

/-! ## the passes of a run -/

/-- the entries were reconciled one after the other -/
inductive Reconciled (env : Env) (t : Tid) (op : Op) (now : Int) :
    List (JournalEntry × Res ReconcileOutcome) → Traced → Traced → Prop where
  | nil (w : Traced) : Reconciled env t op now [] w w
  | cons {e : JournalEntry} {r : Res ReconcileOutcome} {w₁ : Traced}
      {outs : List (JournalEntry × Res ReconcileOutcome)} {w w' : Traced} :
      Resolution env t op now e w r w₁ → Reconciled env t op now outs w₁ w' →
      Reconciled env t op now ((e, r) :: outs) w w'

theorem reconcileEntries_reconciled {es : List JournalEntry} {report : RecoveryReport}
    {r : Res RecoveryReport}
    (h : Ran (Traced.exec env t op)
      (Coordinator.reconcileEntries Coordinator.physicalState now es report).run w r w') :
    ∃ outs, outs.map Prod.fst = es ∧ Reconciled env t op now outs w w' ∧
      r = .ok (outs.foldl (fun rep x => Coordinator.noteOutcome rep x.1 x.2) report) := by
  induction es generalizing report w with
  | nil =>
    obtain ⟨rfl, rfl⟩ := ran_pure.mp h
    exact ⟨[], rfl, .nil _, rfl⟩
  | cons e es ih =>
    rcases ran_seq.mp h with ⟨err, _, hx⟩ | ⟨o, w₁, h₁, hrest⟩
    · obtain ⟨_, hno, _⟩ := ran_attempt.mp hx
      cases hno
    · obtain ⟨_, ho, h₁⟩ := ran_attempt.mp h₁
      cases ho
      obtain ⟨outs, hes, hrec, hr⟩ := ih hrest
      refine ⟨(e, o) :: outs, ?_, .cons (reconcileEntry_decides h₁) hrec, hr⟩
      rw [List.map_cons, hes]

/-- what a report says of the entries that were reconciled -/
structure Tallied (outs : List (JournalEntry × Res ReconcileOutcome)) (report : RecoveryReport) :
    Prop where
  committed : ∀ a, a ∈ report.committed ↔ ∃ e, (e, .ok .committed) ∈ outs ∧ e.attemptId = a
  rolledBack : ∀ a, a ∈ report.rolledBack ↔ ∃ e, (e, .ok .rolledBack) ∈ outs ∧ e.attemptId = a
  errors : ∀ e err, (e, .error err) ∈ outs → s!"attempt {e.attemptId}: {err}" ∈ report.errors

/-- with one more outcome -/
theorem Tallied.snoc {outs : List (JournalEntry × Res ReconcileOutcome)} {report : RecoveryReport}
    (h : Tallied outs report) (e : JournalEntry) (r : Res ReconcileOutcome) :
    Tallied (outs ++ [(e, r)]) (Coordinator.noteOutcome report e r) := by
  obtain ⟨hc, hb, he⟩ := h
  constructor
  · intro a
    unfold Coordinator.noteOutcome
    cases r with
    | error err => simp [hc]
    | ok o => cases o <;> simp [hc, or_and_right, exists_or, eq_comm]
  · intro a
    unfold Coordinator.noteOutcome
    cases r with
    | error err => simp [hb]
    | ok o => cases o <;> simp [hb, or_and_right, exists_or, eq_comm]
  · intro x err hx
    have hx : (x, .error err) ∈ outs ∨ (x, .error err) = (e, r) := by simpa using hx
    unfold Coordinator.noteOutcome
    rcases hx with hx | hx
    · have hold := he x err hx
      cases r with
      | error err' => exact List.mem_append_left _ hold
      | ok o =>
        cases o with
        | committed => exact hold
        | rolledBack => exact hold
        | failed => exact List.mem_append_left _ hold
    · cases hx
      exact List.mem_append_right _ (List.mem_singleton.mpr rfl)

theorem Tallied.fold {seen outs : List (JournalEntry × Res ReconcileOutcome)}
    {report : RecoveryReport} (h : Tallied seen report) : Tallied (seen ++ outs)
      (outs.foldl (fun rep x => Coordinator.noteOutcome rep x.1 x.2) report) := by
  induction outs generalizing seen report with
  | nil =>
    rw [List.append_nil]
    exact h
  | cons x outs ih =>
    have hrest := ih (h.snoc x.1 x.2)
    rw [List.append_assoc, List.singleton_append] at hrest
    exact hrest

theorem tallied_nil (n k : Nat) (repairs : List String) (ok : Bool) :
    Tallied [] ⟨n, [], [], k, repairs, ok, []⟩ where
  committed := fun a => by simp
  rolledBack := fun a => by simp
  errors := fun _ _ h => absurd h List.not_mem_nil

/-! ## the whole run -/

theorem Unchanged.trans (h : Unchanged w w₁) (h' : Unchanged w₁ w') : Unchanged w w' :=
  ⟨h'.1.trans h.1, grown_trans h.2 h'.2⟩

/-- the mutex, the clock and the recovery guard do not touch the tables -/
theorem unchanged_ask {c : Cmd} {r : Res c.Reply}
    (hc : c = .lock ∨ c = .unlock ∨ c = .now ∨ c = .removeActiveRecovery)
    (h : Ran (Traced.exec env t op) (Coordinator.ask c).run w r w') :
    (∃ a, r = .ok a) ∧ Unchanged w w' := by
  have h : Ran (Traced.exec env t op) (.call c fun x => .ret (.ok x)) w r w' := h
  cases h with
  | @call _ _ i a _ _ w₁ _ he h =>
    cases h
    refine ⟨⟨a, rfl⟩, ?_⟩
    obtain ⟨⟨b, y⟩, hy, hw⟩ := Option.map_eq_some_iff.mp he
    cases hw
    refine ⟨?_, [.call t op c b w.toWorld], rfl⟩
    show y.store.data = _
    rcases hc with rfl | rfl | rfl | rfl
    · simp only [exec] at hy
      split at hy
      · cases hy
        rfl
      · cases hy
    · cases hy
      rfl
    · cases hy
      rfl
    · simp only [exec] at hy
      split at hy
      · cases hy
        rfl
      · cases hy

/-- a store method that only answers -/
theorem unchanged_read {so : StoreOp} (hc : so.calm = true) {r : Res so.Out}
    (h : Ran (Traced.exec env t op) (Coordinator.store so).run w r w') :
    Unchanged w w' ∧ ∀ a, r = .ok a → ∃ s, so.run w.store = .ok (a, s) := by
  have h : Ran (Traced.exec env t op) (.call (.store so) fun x => .ret x) w r w' := h
  cases h with
  | @call _ _ i a _ _ w₁ _ he h =>
    cases h
    obtain ⟨⟨b, y⟩, hy, hw⟩ := Option.map_eq_some_iff.mp he
    cases hw
    refine ⟨⟨(exec_calm (c := .store so) hc hy).data, [.call t op (.store so) b w.toWorld], rfl⟩,
      ?_⟩
    rintro a rfl
    simp only [exec, Option.some.injEq] at hy
    unfold execStore at hy
    split at hy
    · cases hy
    · split at hy
      · cases hy
      · next a' s hrun =>
        cases hy
        exact ⟨s, hrun⟩

/-- the expiry pass over reservations, and those it abandons: only such whose journal is not open -/
inductive Expired (env : Env) (t : Tid) (op : Op) (now : Int) :
    List Reservation → List Reservation → Traced → Traced → Prop where
  -- the end of the pass, or a call that failed
  | stop {vs : List Reservation} {w w' : Traced} : Unchanged w w' → Expired env t op now vs [] w w'
  | kept {v : Reservation} {vs gone : List Reservation} {w w₁ w' : Traced} : Unchanged w w₁ →
      Expired env t op now vs gone w₁ w' → Expired env t op now (v :: vs) gone w w'
  | abandoned {v : Reservation} {vs gone : List Reservation} {w w₁ w₂ w' : Traced} {r : Res Unit} :
      (∀ j, w.store.journal.find? v.attemptId = some j → j.phase.isOpen = false) →
      Unchanged w w₁ → Ran (Traced.exec env t op) (Coordinator.abandon now v).run w₁ r w₂ →
      Expired env t op now vs gone w₂ w' → Expired env t op now (v :: vs) (v :: gone) w w'

theorem expireReservations_expired {vs : List Reservation} {n : Nat} {r : Res Nat}
    (h : Ran (Traced.exec env t op) (Coordinator.expireReservations now vs n).run w r w') :
    ∃ gone, Expired env t op now vs gone w w' := by
  induction vs generalizing n w with
  | nil =>
    obtain ⟨_, rfl⟩ := ran_pure.mp h
    exact ⟨[], .stop (.refl _)⟩
  | cons v vs ih =>
    unfold Coordinator.expireReservations at h
    split at h
    · rcases ran_seq.mp h with ⟨err, rfl, herr⟩ | ⟨o, w₁, h₁, hrest⟩
      · exact ⟨[], .stop (unchanged_read rfl herr).1⟩
      obtain ⟨hsame, hrun⟩ := unchanged_read rfl h₁
      obtain ⟨s, hrun⟩ := hrun o rfl
      cases hrun
      split at hrest
      · obtain ⟨gone, hexp⟩ := ih hrest
        exact ⟨gone, .kept hsame hexp⟩
      · next hclosed =>
        have hno : ∀ j, w.store.journal.find? v.attemptId = some j → j.phase.isOpen = false := by
          intro j hj
          rw [hj, Option.any_some] at hclosed
          simpa using hclosed
        rcases ran_seq.mp hrest with ⟨err, rfl, herr⟩ | ⟨_, w₂, h₂, hrest⟩
        · exact ⟨[v], .abandoned hno hsame herr (.stop (.refl _))⟩
        · obtain ⟨gone, hexp⟩ := ih hrest
          exact ⟨v :: gone, .abandoned hno hsame h₂ hexp⟩
    · obtain ⟨gone, hexp⟩ := ih h
      exact ⟨gone, .kept (.refl w) hexp⟩

/-- every table but the dedup table is as it was -/
def SameRows (w w' : Traced) : Prop :=
  { w'.store.data with dedup := w.store.data.dedup } = w.store.data

theorem SameRows.of_data {w₁ : Traced} (h : SameRows w w₁)
    (hd : w'.store.data = w₁.store.data) : SameRows w w' := by
  unfold SameRows
  rw [hd]
  exact h

theorem Unchanged.sameRows (h : Unchanged w w') : SameRows w w' := by
  unfold SameRows
  rw [h.1]

theorem firm_sameRows : (Party.alone env t op).Firm (SameRows w) :=
  Party.alone_firm fun _ _ hq h => h.of_data hq.data

/-- a change of the dedup table -/
theorem sameRows_dedup {so : StoreOp} {l : Bool}
    (hso : ∀ s r s', so.run s = .ok (r, s') → ∃ T, s'.data = { s.data with dedup := T }) :
    (Party.alone env t op).Triple l (SameRows w) (Coordinator.store so) (fun _ => SameRows w)
      (fun _ => SameRows w) := by
  refine Party.Triple.store firm_sameRows ?_ fun _ _ _ _ _ h => h
  intro w₁ r s hw _ _ hrun
  refine ⟨trivial, ?_⟩
  obtain ⟨T, hT⟩ := hso _ _ _ hrun
  unfold SameRows at hw ⊢
  rw [← hw]
  show { s.data with dedup := w.store.data.dedup } = _
  rw [hT]

theorem repairDedupCounts_sameRows :
    (Party.alone env t op).Triple false (SameRows w) Coordinator.repairDedupCounts
      (fun _ => SameRows w) (fun _ => SameRows w) := by
  refine (Party.Triple.repairDedupCounts (R := fun _ => SameRows w) firm_sameRows
    (fun _ => firm_sameRows) (fun _ _ h => h) (fun _ _ _ h => h) (fun _ _ _ h _ _ => h) ?_ ?_
    ?_).post (fun _ _ h => h.elim fun _ h => h) (fun _ _ h => h)
  · intro _ _ _
    refine sameRows_dedup fun s r s' hrun => ?_
    obtain ⟨T, hT, _⟩ := Store.deleteDedup_ok hrun
    exact ⟨T, hT⟩
  · intro _ _ _
    refine sameRows_dedup fun s r s' hrun => ?_
    obtain ⟨T, hT, _⟩ := Store.upsertDedup_ok hrun
    exact ⟨T, hT⟩
  · intro _ _ _
    refine sameRows_dedup fun s r s' hrun => ?_
    obtain ⟨_, T, hT, _⟩ := Store.insertDedup_ok hrun
    exact ⟨T, hT⟩

/-! ## the whole run -/

/-- what a run of recovery does: the open entries in turn, then the reservations; nothing else
touches a table but the dedup table -/
structure Passes (env : Env) (t : Tid) (op : Op) (w : Traced) (r : Res RecoveryReport)
    (w' : Traced) : Prop where
  passes : ∃ now entries s outs vs gone w₁ w₂ w₃ w₄, w.store.listOpenJournal = .ok (entries, s) ∧
    Unchanged w w₁ ∧ outs.map Prod.fst = entries ∧ Reconciled env t op now outs w₁ w₂ ∧
    Unchanged w₂ w₃ ∧ (∀ v ∈ vs, v ∈ w₃.store.reservations) ∧
    Expired env t op now vs gone w₃ w₄ ∧ SameRows w₄ w' ∧
    ∀ report, r = .ok report → Tallied outs report

theorem reconcileStore_passes {r : Res RecoveryReport}
    (h : Ran (Traced.exec env t op)
      (Coordinator.reconcileStore Coordinator.physicalState now).run w r w') :
    (∃ err, r = .error err ∧ Unchanged w w') ∨ Passes env t op w r w' := by
  unfold Coordinator.reconcileStore at h
  rcases ran_seq.mp h with ⟨err, rfl, herr⟩ | ⟨entries, w₁, h₁, hrest⟩
  · exact .inl ⟨err, rfl, (unchanged_read rfl herr).1⟩
  obtain ⟨hsame, hrun⟩ := unchanged_read rfl h₁
  obtain ⟨s, hrun⟩ := hrun entries rfl
  rcases ran_seq.mp hrest with ⟨err, rfl, herr⟩ | ⟨rep, w₂, h₂, hrest⟩
  · obtain ⟨outs, _, _, hno⟩ := reconcileEntries_reconciled herr
    cases hno
  obtain ⟨outs, hes, hrec, hrep⟩ := reconcileEntries_reconciled h₂
  -- what is left once the entries are reconciled
  suffices hpass : ∃ vs gone w₃ w₄, Unchanged w₂ w₃ ∧ (∀ v ∈ vs, v ∈ w₃.store.reservations) ∧
      Expired env t op now vs gone w₃ w₄ ∧ SameRows w₄ w' ∧ ∀ report, r = .ok report → report.committed = rep.committed ∧
        report.rolledBack = rep.rolledBack ∧ ∀ m ∈ rep.errors, m ∈ report.errors by
    obtain ⟨vs, gone, w₃, w₄, hread, hvs, hexp, hrows, hkept⟩ := hpass
    refine .inr ⟨now, entries, s, outs, vs, gone, w₁, w₂, w₃, w₄, hrun, hsame, hes, hrec, hread,
      hvs, hexp, hrows, ?_⟩
    intro report hr
    cases hrep
    obtain ⟨hc, hb, herrs⟩ := hkept report hr
    have hrepd : Tallied outs _ := (tallied_nil 0 0 [] true).fold
    exact ⟨hc ▸ hrepd.committed, hb ▸ hrepd.rolledBack,
      fun e err hmem => herrs _ (hrepd.errors e err hmem)⟩
  have hend := (Unchanged.refl w').sameRows
  rcases ran_seq.mp hrest with ⟨_, rfl, herr⟩ | ⟨vs, w₃, h₃, hrest⟩
  · exact ⟨[], [], w', w', (unchanged_read rfl herr).1, fun _ h => absurd h List.not_mem_nil,
      .stop (.refl _), hend, nofun⟩
  obtain ⟨hread, hlist⟩ := unchanged_read rfl h₃
  obtain ⟨s', hlist⟩ := hlist vs rfl
  have hvs : ∀ v ∈ vs, v ∈ w₃.store.reservations := by
    intro v hv
    have hres : w₃.store.reservations = w₂.store.reservations :=
      congrArg Data.reservations hread.1
    exact hres ▸ ((Store.listOpenReservations_ok hlist).mp hv).1
  rcases ran_seq.mp hrest with ⟨_, rfl, herr⟩ | ⟨n, w₄, h₄, hrest⟩
  · obtain ⟨gone, hexp⟩ := expireReservations_expired herr
    exact ⟨vs, gone, w₃, w', hread, hvs, hexp, hend, nofun⟩
  obtain ⟨gone, hexp⟩ := expireReservations_expired h₄
  refine ⟨vs, gone, w₃, w₄, hread, hvs, hexp, ?_⟩
  have hstart := (Unchanged.refl w₄).sameRows
  rcases ran_seq.mp hrest with ⟨_, rfl, herr⟩ | ⟨repairs, w₅, h₅, hrest⟩
  · exact ⟨repairDedupCounts_sameRows.ran hstart herr, nofun⟩
  have hrepair := repairDedupCounts_sameRows.ran hstart h₅
  rcases ran_seq.mp hrest with ⟨_, rfl, herr⟩ | ⟨graph, w₆, h₆, hrest⟩
  · exact ⟨hrepair.of_data (unchanged_read rfl herr).1.1, nofun⟩
  have hgraph := hrepair.of_data (unchanged_read rfl h₆).1.1
  split at hrest
  · obtain ⟨rfl, rfl⟩ := ran_pure.mp hrest
    refine ⟨hgraph, fun report hr => ?_⟩
    cases hr
    exact ⟨rfl, rfl, fun _ h => h⟩
  · obtain ⟨rfl, rfl⟩ := ran_pure.mp hrest
    refine ⟨hgraph, fun report hr => ?_⟩
    cases hr
    exact ⟨rfl, rfl, fun _ h => List.mem_append_left _ h⟩

/-- steps before and after the passes that leave the tables alone -/
theorem Passes.extend {w₁ w₂ : Traced} {r₁ r : Res RecoveryReport} (h : Passes env t op w₁ r₁ w₂)
    (hpre : Unchanged w w₁) (hpost : Unchanged w₂ w') (hr : ∀ rep, r = .ok rep → r₁ = .ok rep) :
    Passes env t op w r w' := by
  obtain ⟨now, entries, s, outs, vs, gone, a, b, c, d, hlist, hsame, hes, hrec, hread, hvs, hexp,
    hrows, hrep⟩ := h.passes
  have hlist' : w.store.listOpenJournal = .ok (entries, w.store) := by
    have hj : w₁.store.journal = w.store.journal := congrArg Data.journal hpre.1
    rw [Store.listOpenJournal] at hlist ⊢
    rw [← hj]
    cases hlist
    rfl
  exact ⟨now, entries, w.store, outs, vs, gone, a, b, c, d, hlist', hpre.trans hsame, hes, hrec,
    hread, hvs, hexp, hrows.of_data hpost.1, fun rep h => hrep rep (hr rep h)⟩

/-- the audit row of a run leaves the tables alone -/
theorem appendAudit_unchanged {f : Int → AuditEntry} {r : Res Unit}
    (h : Ran (Traced.exec env t op) (Coordinator.withInner do
      let ts ← Coordinator.nowMs
      Coordinator.store (.appendAudit (f ts))).run w r w') : Unchanged w w' := by
  have htriple : (Party.alone env t op).Triple false (Unchanged w) (Coordinator.withInner do
      let ts ← Coordinator.nowMs
      Coordinator.store (.appendAudit (f ts))) (fun _ => Unchanged w) (fun _ => Unchanged w) := by
    refine Party.Triple.section_ firm_unchanged (fun _ => firm_unchanged) ?_
    refine Party.Triple.bind (Party.Triple.nowMs firm_unchanged) fun _ => ?_
    exact Party.Triple.storeCalm rfl firm_unchanged
  have := htriple.ran (.refl w) h
  cases r with
  | ok a => exact this
  | error e => exact this

theorem beginRecovery_unchanged {r : Res Unit}
    (h : Ran (Traced.exec env t op) Coordinator.beginRecovery.run w r w') : Unchanged w w' := by
  have htriple : (Party.alone env t op).Triple false (Unchanged w) Coordinator.beginRecovery
      (fun _ => Unchanged w) (fun _ => Unchanged w) := by
    refine Party.Triple.beginRecovery firm_unchanged firm_unchanged ?_
    intro w₁ hw _ _ _ _
    obtain ⟨hd, l, hl⟩ := hw
    refine ⟨trivial, hd, .call t op .insertActiveRecovery (.ok ()) w₁.toWorld :: l, ?_⟩
    show Event.call t op .insertActiveRecovery (.ok ()) w₁.toWorld :: w₁.log = _
    rw [hl]
    rfl
  have := htriple.ran (.refl w) h
  cases r with
  | ok a => exact this
  | error e => exact this

/-- a run that gets as far as the entries makes the passes -/
theorem recover_passes {r : Res RecoveryReport}
    (h : Ran (Traced.exec env t op) Coordinator.recover.run w r w') :
    (∃ err, r = .error err ∧ Unchanged w w') ∨ Passes env t op w r w' := by
  unfold Coordinator.recover Coordinator.withRecovery at h
  rcases ran_seq.mp h with ⟨err, rfl, herr⟩ | ⟨_, w₁, h₁, hrest⟩
  · exact .inl ⟨err, rfl, beginRecovery_unchanged herr⟩
  have hbegin := beginRecovery_unchanged h₁
  rcases ran_seq.mp hrest with ⟨_, _, hx⟩ | ⟨o, w₂, h₂, hrest⟩
  · obtain ⟨_, hno, _⟩ := ran_attempt.mp hx
    cases hno
  obtain ⟨_, ho, hbody⟩ := ran_attempt.mp h₂
  cases ho
  rcases ran_seq.mp hrest with ⟨_, _, hx⟩ | ⟨_, w₃, h₃, hrest⟩
  · obtain ⟨⟨_, hno⟩, _⟩ := unchanged_ask (.inr (.inr (.inr rfl))) hx
    cases hno
  have hdrop := (unchanged_ask (.inr (.inr (.inr rfl))) h₃).2
  obtain ⟨rfl, rfl⟩ := ran_settle.mp hrest
  -- the body between the two moves of the guard
  rcases ran_seq.mp hbody with ⟨_, _, hx⟩ | ⟨_, w₄, h₄, hbody⟩
  · obtain ⟨⟨_, hno⟩, _⟩ := unchanged_ask (.inl rfl) hx
    cases hno
  rcases ran_seq.mp hbody with ⟨_, _, hx⟩ | ⟨_, w₅, h₅, hbody⟩
  · obtain ⟨⟨_, hno⟩, _⟩ := unchanged_ask (.inr (.inl rfl)) hx
    cases hno
  rcases ran_seq.mp hbody with ⟨_, _, hx⟩ | ⟨now, w₆, h₆, hbody⟩
  · obtain ⟨⟨_, hno⟩, _⟩ := unchanged_ask (.inr (.inr (.inl rfl))) hx
    cases hno
  have hpre : Unchanged w w₆ := ((hbegin.trans (unchanged_ask (.inl rfl) h₄).2).trans
    (unchanged_ask (.inr (.inl rfl)) h₅).2).trans (unchanged_ask (.inr (.inr (.inl rfl))) h₆).2
  rcases ran_seq.mp hbody with ⟨err, rfl, herr⟩ | ⟨rep, w₇, h₇, hbody⟩
  · rcases reconcileStore_passes herr with ⟨err', hr, hsame⟩ | hpass
    · exact .inl ⟨err', hr, (hpre.trans hsame).trans hdrop⟩
    · exact .inr (hpass.extend hpre hdrop nofun)
  have hpass := (reconcileStore_passes h₇).resolve_left nofun
  rcases ran_seq.mp hbody with ⟨err, rfl, herr⟩ | ⟨_, w₈, h₈, hbody⟩
  · exact .inr (hpass.extend hpre ((appendAudit_unchanged herr).trans hdrop) nofun)
  · obtain ⟨rfl, rfl⟩ := ran_pure.mp hbody
    exact .inr (hpass.extend hpre ((appendAudit_unchanged h₈).trans hdrop) fun _ h => h)

end

end ReclaimFabric
