import ReclaimFabric.Recovery.Resume

/-!
# What becomes of an open entry

The outcome of a run of recovery for a journal entry that it found open, told by what is left: the
phase of the entry, the row of its object, the report, and the reservations that are abandoned.

* `Spoken`         the answers to the presence queries of a part of a run;
* `Unanimous`      everything planned was asked for, and every answer was the same;
* `Closes`         a part that ends with the closing of the entry, or leaves the journal alone;
* `Followed`       what became of one entry;
* `recover_follows_truth`   what became of every one.
-/

set_option linter.unusedSectionVars false

namespace ReclaimFabric

open Prog (Ran Only settle attempt)

/-! ## presence queries -/

/-- the command asks whether bytes are there -/
def Cmd.asks : Cmd → Bool
  | .exists_ _ _ => true
  | .node _ _ _ .exists_ => true
  | .archiveExists _ _ => true
  | _ => false

def Event.asks : Event → Bool
  | .call _ _ c _ _ => c.asks
  | _ => false

/-- the event is a presence query that was answered with `d` -/
def Event.Says : Event → Bool → Prop
  | .call _ _ (.exists_ _ _) r _, d => r = .ok d
  | .call _ _ (.node _ _ _ .exists_) r _, d => ∃ y : NodeReply, r = .ok y ∧ y.ok = true ∧ y.existed = d
  | .call _ _ (.archiveExists _ _) r _, d => r = .ok d
  | _, _ => False

/-- the command is no presence query -/
def Mute (c : Cmd) : Prop := c.asks = false

theorem mute_sectional {c : Cmd} (h : c.sectional = true) : Mute c := by
  cases c with
  | _ => first | rfl | cases h

theorem OnStore.mute {c : Cmd} (h : OnStore c) : Mute c := by
  obtain ⟨so, rfl⟩ := h
  rfl

section
variable {env : Env} {t : Tid} {op : Op} {w w₁ w' : Traced} {φ ψ : Bool → Prop}

/-- between `w` and `w'` every presence query was answered, with a `d` that satisfies `φ` -/
def Spoken (φ : Bool → Prop) (w w' : Traced) : Prop :=
  ∃ l, w'.log = l ++ w.log ∧ ∀ ev ∈ l, ev.asks = true → ∃ d, φ d ∧ ev.Says d

theorem Spoken.refl (w : Traced) : Spoken φ w w :=
  ⟨[], rfl, fun _ h => absurd h List.not_mem_nil⟩

theorem Spoken.trans (h : Spoken φ w w₁) (h' : Spoken φ w₁ w') : Spoken φ w w' := by
  obtain ⟨l, hl, hs⟩ := h
  obtain ⟨l', hl', hs'⟩ := h'
  refine ⟨l' ++ l, by rw [hl', hl, List.append_assoc], ?_⟩
  intro ev hev
  rcases List.mem_append.mp hev with hev | hev
  · exact hs' ev hev
  · exact hs ev hev

theorem Spoken.mono (h : Spoken φ w w') (hφ : ∀ d, φ d → ψ d) : Spoken ψ w w' := by
  obtain ⟨l, hl, hs⟩ := h
  refine ⟨l, hl, fun ev hev ha => ?_⟩
  obtain ⟨d, hd, hsay⟩ := hs ev hev ha
  exact ⟨d, hφ d hd, hsay⟩

/-- one command, which is no query or was answered -/
theorem spoken_step {c : Cmd} {i : Input} {r : c.Reply}
    (he : Traced.exec env t op c i w = some (r, w'))
    (h : c.asks = true → ∃ d, φ d ∧ (Event.call t op c r w.toWorld).Says d) : Spoken φ w w' := by
  obtain ⟨⟨b, y⟩, hy, hw⟩ := Option.map_eq_some_iff.mp he
  cases hw
  refine ⟨[.call t op c b w.toWorld], rfl, fun ev hev ha => ?_⟩
  rw [List.mem_singleton.mp hev] at ha ⊢
  exact h ha

theorem spoken_mute {α : Type} {x : M α} {r : Res α} (hx : Only Mute x.run)
    (h : Ran (Traced.exec env t op) x.run w r w') : Spoken φ w w' := by
  refine hx.ran (K := Spoken φ w) ?_ h (.refl w)
  intro c i w₁ r w₂ hc he hw
  exact hw.trans (spoken_step he fun ha => absurd (ha.symm.trans hc) (by decide))

theorem mute_config : Only Mute Coordinator.config.run :=
  .call rfl fun _ => .ret _

theorem mute_nodeForBackend (b : String) : Only Mute (Coordinator.nodeForBackend b).run :=
  only_section (fun _ => mute_sectional) (only_bind mute_config fun _ => only_settle)

theorem mute_lookupBackend (b : String) : Only Mute (Coordinator.lookupBackend b).run :=
  only_section (fun _ => mute_sectional) (only_bind mute_config fun _ => only_settle)

theorem mute_lookupArchive {b : String} {e : ReclaimError} :
    Only Mute (Coordinator.lookupArchive b e).run := by
  refine only_bind (.call rfl fun _ => .ret _) fun _ => only_bind mute_config fun c => ?_
  refine only_bind (.call rfl fun _ => .ret _) fun _ => ?_
  cases c.archive b with
  | none => exact only_throw
  | some a => exact only_pure

/-- a query that succeeds was answered with its result -/
theorem payloadExists_spoken {b k : String} {d : Bool}
    (h : Ran (Traced.exec env t op) (Coordinator.payloadExists b k).run w (.ok d) w') :
    Spoken (· = d) w w' := by
  obtain ⟨owner, w₁, h₁, h⟩ := ran_seq_ok h
  refine (spoken_mute (mute_nodeForBackend b) h₁).trans ?_
  cases owner with
  | none =>
    obtain ⟨_, w₂, h₂, h⟩ := ran_seq_ok h
    refine (spoken_mute (mute_lookupBackend b) h₂).trans ?_
    obtain ⟨_, a, he, rfl⟩ := ran_call (c := .exists_ b k) (k := fun r => r) h
    exact spoken_step he fun _ => ⟨d, rfl, rfl⟩
  | some n =>
    obtain ⟨reply, w₂, h₂, h⟩ := ran_seq_ok h
    obtain ⟨_, w₃, h₃, h₂⟩ := ran_seq_ok h₂
    refine (spoken_mute ?_ h₃).trans ?_
    · exact only_section (fun _ => mute_sectional)
        (only_bind mute_config fun _ => only_ite only_pure only_throw)
    obtain ⟨_, a, he, ha⟩ := ran_call (c := .node n b k .exists_) (k := fun r => r) h₂
    cases ha
    -- the reply was ok, or the function would have failed
    have hok : reply.ok = true ∧ reply.existed = d ∧ w' = w₂ := by
      split at h
      · obtain ⟨_, _, hx, -⟩ := ran_seq_ok h
        cases hx
      · next hok =>
        obtain ⟨hd, hw⟩ := ran_pure.mp h
        exact ⟨by simpa using hok, (Except.ok.inj hd).symm, hw⟩
    obtain ⟨hok, hd, rfl⟩ := hok
    exact spoken_step he fun _ => ⟨d, rfl, reply, rfl, hok, hd⟩

theorem archiveExists_spoken {b k : String} {d : Bool}
    (h : Ran (Traced.exec env t op) (Coordinator.archiveExists b k).run w (.ok d) w') :
    Spoken (· = d) w w' := by
  obtain ⟨_, a, he, rfl⟩ := ran_call (c := .archiveExists b k) (k := fun r => r) h
  exact spoken_step he fun _ => ⟨d, rfl, rfl⟩

/-- the answers seen so far -/
def Heard (seen : Bool × Bool) (d : Bool) : Prop := (if d then seen.1 else seen.2) = true

theorem noteExists_heard {seen out : Bool × Bool} {d : Bool}
    (h : Coordinator.noteExists seen d = .ok out) :
    Heard out d ∧ (∀ x, Heard seen x → Heard out x) ∧ (out.1 && out.2) = false := by
  obtain ⟨a, b⟩ := seen
  revert h
  cases d <;> cases a <;> cases b <;> simp [Coordinator.noteExists, Heard] <;> rintro rfl <;> simp

theorem payloadStates_spoken {rs : List Replica} {seen out : Bool × Bool}
    (hone : (seen.1 && seen.2) = false)
    (h : Ran (Traced.exec env t op) (Coordinator.payloadStates rs seen).run w (.ok out) w') :
    Spoken (Heard out) w w' ∧ (∀ x, Heard seen x → Heard out x) ∧ (out.1 && out.2) = false := by
  induction rs generalizing seen w with
  | nil =>
    obtain ⟨hout, rfl⟩ := ran_pure.mp h
    cases hout
    exact ⟨.refl _, fun _ hx => hx, hone⟩
  | cons r rs ih =>
    rw [Coordinator.payloadStates] at h
    obtain ⟨d, w₁, h₁, hnext⟩ := ran_seq_ok h
    obtain ⟨mid, w₂, h₂, hlast⟩ := ran_seq_ok hnext
    obtain ⟨hnote, rfl⟩ := ran_settle.mp h₂
    obtain ⟨hd, hmid, hone'⟩ := noteExists_heard hnote.symm
    obtain ⟨hrest, hout, hone''⟩ := ih hone' hlast
    refine ⟨((payloadExists_spoken h₁).mono ?_).trans hrest, fun x hx => hout x (hmid x hx), hone''⟩
    intro x hx
    rw [hx]
    exact hout d hd

theorem archiveStates_spoken {as : List ArchiveRecord} {seen out : Bool × Bool}
    (hone : (seen.1 && seen.2) = false)
    (h : Ran (Traced.exec env t op) (Coordinator.archiveStates as seen).run w (.ok out) w') :
    Spoken (Heard out) w w' ∧ (∀ x, Heard seen x → Heard out x) ∧ (out.1 && out.2) = false := by
  induction as generalizing seen w with
  | nil =>
    obtain ⟨hout, rfl⟩ := ran_pure.mp h
    cases hout
    exact ⟨.refl _, fun _ hx => hx, hone⟩
  | cons a as ih =>
    rw [Coordinator.archiveStates] at h
    obtain ⟨found, w₀, h₀, h⟩ := ran_seq_ok h
    obtain ⟨d, w₁, h₁, hnext⟩ := ran_seq_ok h
    obtain ⟨mid, w₂, h₂, hlast⟩ := ran_seq_ok hnext
    obtain ⟨hnote, rfl⟩ := ran_settle.mp h₂
    obtain ⟨hd, hmid, hone'⟩ := noteExists_heard hnote.symm
    obtain ⟨hrest, hout, hone''⟩ := ih hone' hlast
    refine ⟨(spoken_mute mute_lookupArchive h₀).trans
      (((archiveExists_spoken h₁).mono ?_).trans hrest), fun x hx => hout x (hmid x hx), hone''⟩
    intro x hx
    rw [hx]
    exact hout d hd

/-- the answer of `physical_state` is that of every query it makes -/
theorem physicalState_spoken {payload : JournalPayload} {d : Bool}
    (h : Ran (Traced.exec env t op) (Coordinator.physicalState payload).run w (.ok d) w') :
    Spoken (· = d) w w' := by
  obtain ⟨⟨dels, plan, archs⟩, w₁, h₁, hask⟩ := ran_seq_ok h
  obtain ⟨-, rfl⟩ := ran_settle.mp h₁
  simp only at hask
  split at hask
  · obtain ⟨-, rfl⟩ := ran_pure.mp hask
    exact .refl _
  · obtain ⟨mid, w₂, h₂, hnext⟩ := ran_seq_ok hask
    obtain ⟨out, w₃, h₃, hlast⟩ := ran_seq_ok hnext
    obtain ⟨hd, rfl⟩ := ran_pure.mp hlast
    cases hd
    obtain ⟨hplan, -, hmid⟩ := payloadStates_spoken (by rfl) h₂
    obtain ⟨harch, hout, hone⟩ := archiveStates_spoken hmid h₃
    refine ((hplan.mono hout).trans harch).mono fun x hx => ?_
    -- only one of the two answers was heard
    obtain ⟨a, b⟩ := out
    revert hx hone
    cases x <;> cases a <;> cases b <;> simp [Heard]

end

/-! ## what is planned, and the answers about it -/

/-- the payloads and blobs that the reclaim set out to delete -/
def ParsedJournalPayload.planned (p : ParsedJournalPayload) : List (Replica ⊕ ArchiveRecord) :=
  (p.physicalReplicaDeletions.getD []).map .inl ++ p.archiveDeletions.map .inr

/-- everything planned was asked for, and every presence query that was made was answered, with `d` -/
structure Unanimous (p : ParsedJournalPayload) (d : Bool) (w w' : Traced) : Prop where
  planned : ∀ x ∈ p.planned, Observed w x d w'
  answers : Spoken (· = d) w w'

/-- of two planned items one was found and one was not -/
def Divided (p : ParsedJournalPayload) (w w' : Traced) : Prop :=
  ∃ x ∈ p.planned, ∃ y ∈ p.planned, Observed w x true w' ∧ Observed w y false w'

/-- a presence query was not answered -/
def QueryFailed (w w' : Traced) : Prop :=
  ∃ l, w'.log = l ++ w.log ∧ ∃ ev ∈ l, ev.asks = true ∧ ∀ d, ¬ev.Says d

/-- the phases after the physical plan was written -/
def JournalEntry.Physical (e : JournalEntry) : Prop :=
  e.phase = .physicalStarted ∨ e.phase = .physicalDone

/-- what a commit has to be based on: nothing was planned and the release loop was completed, or
everything planned was found absent -/
def CommitGrounds (e : JournalEntry) (p : ParsedJournalPayload) (w w' : Traced) : Prop :=
  (p.planned = [] ∧ e.phase = .physicalDone) ∨
    (e.Physical ∧ p.planned ≠ [] ∧ Unanimous p false w w')

/-- what the rollback of a physical entry has to be based on: nothing was planned and the release
loop was not completed, or everything planned was found present -/
def RollbackGrounds (e : JournalEntry) (p : ParsedJournalPayload) (w w' : Traced) : Prop :=
  (p.planned = [] ∧ e.phase = .physicalStarted) ∨
    (e.Physical ∧ p.planned ≠ [] ∧ Unanimous p true w w')

section
variable {env : Env} {t : Tid} {op : Op} {w w₁ w' : Traced} {e : JournalEntry} {now : Int}
  {p : ParsedJournalPayload} {d : Bool}

theorem planned_eq_nil : p.planned = [] ↔
    p.physicalReplicaDeletions.getD [] = [] ∧ p.archiveDeletions = [] := by
  rw [ParsedJournalPayload.planned, List.append_eq_nil_iff, List.map_eq_nil_iff,
    List.map_eq_nil_iff]

theorem Event.Found.says {ev : Event} {x : Replica ⊕ ArchiveRecord} (h : ev.Found x d) :
    ev.asks = true ∧ ev.Says d := by
  unfold Event.Found at h
  split at h
  · exact ⟨rfl, h.1⟩
  · exact ⟨rfl, h.1⟩
  · exact ⟨rfl, h.1⟩
  · exact absurd h id

theorem Event.Says.unique {ev : Event} {d' : Bool} (h : ev.Says d) (h' : ev.Says d') : d = d' := by
  unfold Event.Says at h h'
  split at h
  · exact Except.ok.inj (h.symm.trans h')
  · obtain ⟨y, hy, -, rfl⟩ := h
    obtain ⟨y', hy', -, rfl⟩ := h'
    rw [Except.ok.inj (hy.symm.trans hy')]
  · exact Except.ok.inj (h.symm.trans h')
  · exact absurd h id

theorem Unanimous.observed {x : Replica ⊕ ArchiveRecord} {d' : Bool} (h : Unanimous p d w w')
    (hx : Observed w x d' w') : d' = d := by
  obtain ⟨l, hl, ev, hev, hf⟩ := hx
  obtain ⟨l', hl', hall⟩ := h.answers
  obtain ⟨hask, hsay⟩ := hf.says
  obtain ⟨_, rfl, hsay'⟩ := hall ev (List.append_cancel_right (hl.symm.trans hl') ▸ hev) hask
  exact hsay.unique hsay'

/-- when items disagree or a query fails, no answer is common to all -/
theorem not_unanimous (h : Divided p w w' ∨ QueryFailed w w') : ∀ d, ¬Unanimous p d w w' := by
  intro d hall
  rcases h with ⟨x, -, y, -, hx, hy⟩ | ⟨l, hl, ev, hev, hask, hno⟩
  · have : true = false := (hall.observed hx).trans (hall.observed hy).symm
    cases this
  · obtain ⟨l', hl', hsay⟩ := hall.answers
    obtain ⟨d', -, hd⟩ := hsay ev (List.append_cancel_right (hl.symm.trans hl') ▸ hev) hask
    exact hno d' hd

theorem Spoken.observed {x : Replica ⊕ ArchiveRecord} {φ : Bool → Prop} (h : Observed w x d w₁)
    (hs : Spoken φ w₁ w') : Observed w x d w' := by
  obtain ⟨l, hl, ev, hev, hf⟩ := h
  obtain ⟨l', hl', -⟩ := hs
  exact ⟨l' ++ l, by rw [hl', hl, List.append_assoc], ev, List.mem_append_right _ hev, hf⟩

/-- the queries, and then a part that makes none -/
theorem AllObserved.unanimous (h : AllObserved env t op e p d w w₁)
    (hs : ∀ φ : Bool → Prop, Spoken φ w₁ w') : p.planned ≠ [] ∧ Unanimous p d w w' := by
  obtain ⟨plan, hplan, hne, hrep⟩ := h.planned
  have hgetD : p.physicalReplicaDeletions.getD [] = plan := by rw [hplan, Option.getD_some]
  refine ⟨fun hnil => hne ?_, ?_, (physicalState_spoken h.asked).trans (hs _)⟩
  · obtain ⟨hp, ha⟩ := planned_eq_nil.mp hnil
    exact ⟨hgetD.symm.trans hp, ha⟩
  intro x hx
  rw [ParsedJournalPayload.planned, hgetD] at hx
  rcases List.mem_append.mp hx with hx | hx
  · obtain ⟨r, hr, rfl⟩ := List.mem_map.mp hx
    exact (hs fun _ => True).observed (hrep r hr)
  · obtain ⟨a, ha, rfl⟩ := List.mem_map.mp hx
    exact (hs fun _ => True).observed (h.archives a ha)

theorem MayCommit.grounds (h : MayCommit env t op e p w w₁)
    (hs : ∀ φ : Bool → Prop, Spoken φ w₁ w') : CommitGrounds e p w w' := by
  rcases h with ⟨hplan, harch, hph⟩ | hall
  · exact .inl ⟨planned_eq_nil.mpr ⟨by rw [hplan, Option.getD_some], harch⟩, hph⟩
  · exact .inr ⟨hall.physical, hall.unanimous hs⟩

theorem MayRollBack.grounds (h : MayRollBack env t op e p w w₁)
    (hs : ∀ φ : Bool → Prop, Spoken φ w₁ w') :
    (e.phase = .reserved ∨ e.phase = .validated) ∨ RollbackGrounds e p w w' := by
  rcases h with hph | hph | ⟨hplan, harch, hph⟩ | hall
  · exact .inl (.inl hph)
  · exact .inl (.inr hph)
  · exact .inr (.inl ⟨planned_eq_nil.mpr ⟨by rw [hplan, Option.getD_some], harch⟩, hph⟩)
  · exact .inr (.inr ⟨hall.physical, hall.unanimous hs⟩)

end

/-! ## the tables a part leaves alone -/

/-- the command is a store method that does not write the table -/
def Off (T : Data.Part) (c : Cmd) : Prop := ∃ so, c = .store so ∧ T ∉ so.writes

theorem off_store {T : Data.Part} {so : StoreOp} (h : T ∉ so.writes) :
    Only (Off T) (Coordinator.store so).run := only_store ⟨so, rfl, h⟩

theorem Mild.off {T : Data.Part} (hT : T = .journal ∨ T = .objects) {c : Cmd} (h : Mild c) :
    Off T c := by
  obtain ⟨so, rfl, hm⟩ := h
  refine ⟨so, rfl, ?_⟩
  rcases hT with rfl | rfl <;> cases so <;> first | (cases hm; done) | simp [StoreOp.writes]

section
variable {env : Env} {t : Tid} {op : Op} {w w' : Traced} {T : Data.Part}

theorem same_trans {d d₁ d' : Data} (h : d.Same d₁ T) (h' : d₁.Same d' T) : d.Same d' T := by
  cases T <;> exact h'.trans h

theorem off_step {c : Cmd} (hc : Off T c) {i : Input} {r : c.Reply}
    (h : Traced.exec env t op c i w = some (r, w')) : w.store.data.Same w'.store.data T := by
  obtain ⟨so, rfl, hT⟩ := hc
  rcases store_step h with ⟨_, _, hs⟩ | ⟨_, _, hrun⟩
  · rw [hs]
    exact .refl _ T
  · exact StoreOp.run_same hrun hT

theorem same_of_off {α : Type} {x : M α} {r : Res α} (hx : Only (Off T) x.run)
    (h : Ran (Traced.exec env t op) x.run w r w') : w.store.data.Same w'.store.data T := by
  refine hx.ran (K := fun w' => w.store.data.Same w'.store.data T) ?_ h (.refl _ T)
  intro c i w₁ r w₂ hc he hw
  exact same_trans hw (off_step hc he)

end

section
variable {e : JournalEntry} {now : Int} {p : ParsedJournalPayload} {T : Data.Part}

theorem restoreObject_off {prior : ReclaimObject} :
    Only (Off .journal) (Coordinator.restoreObject now e prior).run := by
  refine only_bind (off_store (by simp [StoreOp.writes])) fun found => ?_
  cases found with
  | none => exact only_bind (off_store (by simp [StoreOp.writes])) fun _ => only_pure
  | some o =>
    have hrest : Only (Off .journal) (if o.lifecycleState ≠ prior.lifecycleState then do
        Coordinator.store (.updateObject prior)
        pure (some (Coordinator.recoveryAudit now "RECOVERY_ROLLBACK" e (some o.lifecycleState)
          (some prior.lifecycleState) (.obj [("phase", .str e.phase.asStr)])))
      else pure none : M (Option AuditEntry)).run :=
      only_ite (only_bind (off_store (by simp [StoreOp.writes])) fun _ => only_pure) only_pure
    exact only_ite (only_bind only_throw fun _ => hrest) hrest

theorem commitObject_off {current : ReclaimObject} :
    Only (Off .journal) (Coordinator.commitObject now e current).run := by
  refine only_ite ?_ only_pure
  exact only_bind (off_store (by simp [StoreOp.writes])) fun _ => off_store (by simp [StoreOp.writes])

theorem abandon_off {v : Reservation} : Only (Off .journal) (Coordinator.abandon now v).run := by
  have hrest : Only (Off .journal) (do
      Coordinator.store (.updateReservation v.reservationId .expired)
      Coordinator.store (.reconcileAttempt v.attemptId .failed now) : M Unit).run :=
    only_bind (off_store (by simp [StoreOp.writes])) fun _ => off_store (by simp [StoreOp.writes])
  refine only_bind (off_store (by simp [StoreOp.writes])) fun found => ?_
  cases found with
  | none => exact hrest
  | some o =>
    refine only_ite ?_ hrest
    exact only_bind (off_store (by simp [StoreOp.writes])) fun _ => only_bind (off_store (by simp [StoreOp.writes])) fun _ => hrest

theorem closing_off {vs : ReservationStatus} {as : AttemptStatus} {ph : JournalPhase}
    {out : ReconcileOutcome} : Only (Off .objects) (Coordinator.closing now e vs as ph out).run :=
  only_bind (off_store (by simp [StoreOp.writes])) fun _ => only_bind (off_store (by simp [StoreOp.writes])) fun _ =>
    only_bind (off_store (by simp [StoreOp.writes])) fun _ => only_pure

end

/-! ## the journal -/

/-- the row of the entry is in phase `ph` -/
def Stands (e : JournalEntry) (ph : JournalPhase) (w : Traced) : Prop :=
  ∃ x ∈ w.store.journal, x.attemptId = e.attemptId ∧ x.phase = ph

/-- the entry is put into phase `ph`, and no other changes -/
structure Stamped (e : JournalEntry) (ph : JournalPhase) (w w' : Traced) : Prop where
  others : ∀ x : JournalEntry, x.attemptId ≠ e.attemptId →
    (x ∈ w'.store.journal ↔ x ∈ w.store.journal)
  stands : Stands e ph w'

/-- the part ends with `out` and the entry in phase `ph`, or fails and leaves the journal alone -/
def Closes (env : Env) (t : Tid) (op : Op) (e : JournalEntry) (ph : JournalPhase)
    (out : ReconcileOutcome) (x : M ReconcileOutcome) : Prop :=
  ∀ w r w', Ran (Traced.exec env t op) x.run w r w' → (r = .ok out ∧ Stamped e ph w w') ∨
    (∃ err, r = .error err) ∧ w'.store.journal = w.store.journal

section
variable {env : Env} {t : Tid} {op : Op} {w w₁ w' : Traced} {e : JournalEntry} {now : Int}
  {p : ParsedJournalPayload} {ph : JournalPhase} {out : ReconcileOutcome}

theorem closes_throw {err : ReclaimError} : Closes env t op e ph out (throw err) := by
  intro w r w' h
  cases h
  exact .inr ⟨⟨err, rfl⟩, rfl⟩

theorem closes_ite {c : Prop} [Decidable c] {x y : M ReconcileOutcome}
    (hx : Closes env t op e ph out x) (hy : Closes env t op e ph out y) :
    Closes env t op e ph out (if c then x else y) := by
  split
  · exact hx
  · exact hy

theorem closes_seq {α : Type} {x : M α} {f : α → M ReconcileOutcome}
    (hx : Only (Off .journal) x.run) (hf : ∀ a, Closes env t op e ph out (f a)) :
    Closes env t op e ph out (x >>= f) := by
  intro w r w' h
  rcases ran_seq.mp h with ⟨err, rfl, hstop⟩ | ⟨a, w₁, h₁, hrest⟩
  · exact .inr ⟨⟨err, rfl⟩, same_of_off hx hstop⟩
  have hsame : w₁.store.journal = w.store.journal := same_of_off hx h₁
  rcases hf a w₁ r w' hrest with ⟨hr, hothers, hstands⟩ | ⟨herr, hj⟩
  · exact .inl ⟨hr, fun x hne => by rw [hothers x hne, hsame], hstands⟩
  · exact .inr ⟨herr, hj.trans hsame⟩

theorem closes_last : Closes env t op e ph out (do
    Coordinator.store (.updateJournalPhase e.attemptId ph now)
    pure out) := by
  intro w r w' h
  rcases ran_seq.mp h with ⟨err, rfl, hstop⟩ | ⟨_, w₁, h₁, hrest⟩
  · rcases ran_store hstop with ⟨_, _, hs⟩ | ⟨_, hno, _⟩
    · exact .inr ⟨⟨err, rfl⟩, by rw [hs]⟩
    · cases hno
  obtain ⟨rfl, hend⟩ := ran_pure.mp hrest
  rcases ran_store h₁ with ⟨_, hno, _⟩ | ⟨_, _, hrun⟩
  · cases hno
  obtain ⟨_, j, J, -, hj, -, ⟨-, -, -, -, hmem⟩, hd⟩ := Store.updateJournalPhase_ok hrun
  have hJ : w'.store.journal = J := by
    rw [hend]
    exact congrArg Data.journal hd
  have hid : j.attemptId = e.attemptId := Table.key_of_find? hj
  refine .inl ⟨rfl, fun x hne => ?_, { j with phase := ph, updatedAtMs := now }, ?_, hid, rfl⟩
  · rw [hJ, hmem, hid]
    refine ⟨?_, fun hx => .inl ⟨hx, hne⟩⟩
    rintro (⟨hx, -⟩ | hx)
    · exact hx
    · cases hx
      exact absurd rfl hne
  · rw [hJ]
    exact (hmem _).mpr (.inr rfl)

theorem closes_closing {vs : ReservationStatus} {as : AttemptStatus} :
    Closes env t op e ph out (Coordinator.closing now e vs as ph out) :=
  closes_seq (off_store (by simp [StoreOp.writes])) fun _ => closes_seq (off_store (by simp [StoreOp.writes])) fun _ => closes_last

theorem rollback_closes :
    Closes env t op e .rolledBack .rolledBack (Coordinator.rollback now e p) := by
  have hmild {c : Cmd} : Mild c → Off .journal c := Mild.off (.inl rfl)
  refine closes_seq restoreObject_off fun audit => ?_
  refine closes_seq (restoreRollbackMetadata_mild.mono fun _ => hmild) fun _ => ?_
  refine closes_seq (repairDedupCounts_mild.mono fun _ => hmild) fun _ => ?_
  cases audit with
  | none => exact closes_closing
  | some a => exact closes_seq (off_store (by simp [StoreOp.writes])) fun _ => closes_closing

theorem commitAfterCrash_closes :
    Closes env t op e .committed .committed (Coordinator.commitAfterCrash now e p) := by
  have hmild {c : Cmd} : Mild c → Off .journal c := Mild.off (.inl rfl)
  refine closes_seq (off_store (by simp [StoreOp.writes])) fun found => ?_
  cases found with
  | none => exact closes_throw
  | some current =>
    have hrest : Closes env t op e .committed .committed (do
        let replicas ← Coordinator.store .allReplicas
        Coordinator.commitReplicas e replicas p.replicaDeletions
        let archives ← Coordinator.store .listArchives
        Coordinator.commitArchives e archives p.archiveDeletions
        Coordinator.commitObject now e current
        Coordinator.closing now e .committed .committed .committed .committed) := by
      refine closes_seq (off_store (by simp [StoreOp.writes])) fun _ => ?_
      refine closes_seq (commitReplicas_mild.mono fun _ => hmild) fun _ => ?_
      refine closes_seq (off_store (by simp [StoreOp.writes])) fun _ => ?_
      refine closes_seq (commitArchives_mild.mono fun _ => hmild) fun _ => ?_
      exact closes_seq commitObject_off fun _ => closes_closing
    exact closes_ite (closes_seq only_throw fun _ => hrest) hrest

end

/-! ## the object rows -/

/-- the command writes no object row but those allowed -/
def Puts (φ : ReclaimObject → Prop) (c : Cmd) : Prop :=
  Off .objects c ∨ ∃ o, φ o ∧ (c = .store (.updateObject o) ∨ c = .store (.createObject o))

/-- the row of the object is in state `x` -/
def RowIs (id : Uuid) (x : LifecycleState) (w : Traced) : Prop :=
  ∃ o ∈ w.store.objects, o.id = id ∧ o.lifecycleState = x

section
variable {env : Env} {t : Tid} {op : Op} {w w₁ w' : Traced} {e : JournalEntry} {now : Int}
  {p : ParsedJournalPayload} {φ : ReclaimObject → Prop}

theorem puts_update {o : ReclaimObject} (h : φ o) :
    Only (Puts φ) (Coordinator.store (.updateObject o)).run :=
  only_store (.inr ⟨o, h, .inl rfl⟩)

theorem puts_create {o : ReclaimObject} (h : φ o) :
    Only (Puts φ) (Coordinator.store (.createObject o)).run :=
  only_store (.inr ⟨o, h, .inr rfl⟩)

theorem puts_off {so : StoreOp} (h : Data.Part.objects ∉ so.writes) :
    Only (Puts φ) (Coordinator.store so).run := (off_store h).mono fun _ => .inl

theorem puts_mild {α : Type} {x : M α} (h : Only Mild x.run) : Only (Puts φ) x.run :=
  h.mono fun _ hm => .inl (hm.off (.inr rfl))

theorem puts_step {c : Cmd} (hc : Puts φ c) {i : Input} {r : c.Reply}
    (h : Traced.exec env t op c i w = some (r, w')) {x : ReclaimObject}
    (hx : x ∈ w'.store.objects) : x ∈ w.store.objects ∨ φ x := by
  rcases hc with hoff | ⟨o, ho, rfl | rfl⟩
  · have hsame : w'.store.objects = w.store.objects := off_step hoff h
    exact .inl (hsame ▸ hx)
  · rcases store_step h with ⟨_, _, hs⟩ | ⟨_, _, hrun⟩
    · exact .inl (hs ▸ hx)
    obtain ⟨-, -, -, hd⟩ := Store.updateObject_ok hrun
    have hT : w'.store.objects = w.store.objects.replace o := congrArg Data.objects hd
    rw [hT, Table.mem_replace] at hx
    rcases hx with ⟨hx, -⟩ | ⟨rfl, -⟩
    · exact .inl hx
    · exact .inr ho
  · rcases store_step h with ⟨_, _, hs⟩ | ⟨_, _, hrun⟩
    · exact .inl (hs ▸ hx)
    obtain ⟨-, -, T, hT, hd⟩ := Store.createObject_ok hrun
    have hobj : w'.store.objects = T := congrArg Data.objects hd
    rw [hobj] at hx
    rcases (Table.mem_insert? hT).mp hx with hx | rfl
    · exact .inl hx
    · exact .inr ho

/-- an object row after the part was there before, or is one of those allowed -/
theorem puts_ran {α : Type} {x : M α} {r : Res α} (hx : Only (Puts φ) x.run)
    (h : Ran (Traced.exec env t op) x.run w r w') {o : ReclaimObject}
    (ho : o ∈ w'.store.objects) : o ∈ w.store.objects ∨ φ o := by
  refine hx.ran (K := fun w' => ∀ o ∈ w'.store.objects, o ∈ w.store.objects ∨ φ o) ?_ h
    (fun _ h => .inl h) o ho
  intro c i w₁ r w₂ hc he hw x hx
  rcases puts_step hc he hx with hx | hx
  · exact hw x hx
  · exact .inr hx

theorem restoreObject_puts {prior : ReclaimObject} :
    Only (Puts (· = prior)) (Coordinator.restoreObject now e prior).run := by
  refine only_bind (puts_off (by simp [StoreOp.writes])) fun found => ?_
  cases found with
  | none => exact only_bind (puts_create rfl) fun _ => only_pure
  | some o =>
    have hrest : Only (Puts (· = prior)) (if o.lifecycleState ≠ prior.lifecycleState then do
        Coordinator.store (.updateObject prior)
        pure (some (Coordinator.recoveryAudit now "RECOVERY_ROLLBACK" e (some o.lifecycleState)
          (some prior.lifecycleState) (.obj [("phase", .str e.phase.asStr)])))
      else pure none : M (Option AuditEntry)).run :=
      only_ite (only_bind (puts_update rfl) fun _ => only_pure) only_pure
    exact only_ite (only_bind only_throw fun _ => hrest) hrest

theorem closing_puts {vs : ReservationStatus} {as : AttemptStatus} {ph : JournalPhase}
    {out : ReconcileOutcome} : Only (Puts φ) (Coordinator.closing now e vs as ph out).run :=
  closing_off.mono fun _ => .inl

/-- what follows the object row in a rollback -/
theorem rollback_rest_off {audit : Option AuditEntry} : Only (Off .objects) (do
    Coordinator.restoreRollbackMetadata e p
    let _ ← Coordinator.repairDedupCounts
    match audit with
    | some a => Coordinator.store (.appendAudit a)
    | none => pure ()
    Coordinator.closing now e .released .rolledBack .rolledBack .rolledBack :
      M ReconcileOutcome).run := by
  have hmild {c : Cmd} : Mild c → Off .objects c := Mild.off (.inr rfl)
  refine only_bind (restoreRollbackMetadata_mild.mono fun _ => hmild) fun _ => ?_
  refine only_bind (repairDedupCounts_mild.mono fun _ => hmild) fun _ => ?_
  cases audit with
  | none => exact closing_off
  | some a => exact only_bind (off_store (by simp [StoreOp.writes])) fun _ => closing_off

/-- the rows a rollback writes -/
theorem rollback_writes {r : Res ReconcileOutcome}
    (h : Ran (Traced.exec env t op) (Coordinator.rollback now e p).run w r w')
    {o : ReclaimObject} (ho : o ∈ w'.store.objects) :
    o ∈ w.store.objects ∨ o = p.priorObject :=
  puts_ran (only_bind restoreObject_puts fun _ => rollback_rest_off.mono fun _ => .inl) h ho

/-- what a query for an object finds is its row -/
theorem getObject_ran {id : Uuid} {found : Option ReclaimObject} {s s' : Store}
    (h : StoreOp.run (.getObject id) s = .ok (found, s')) : s'.objects.find? id = found ∧ s' = s := by
  have h : Except.ok (s.objects.find? id, s) = (.ok (found, s') : Res _) := h
  cases h
  exact ⟨rfl, rfl⟩

/-- an update that returns leaves the row as it was given -/
theorem updateObject_row {id : Uuid} {x : LifecycleState} {o : ReclaimObject}
    (h : Ran (Traced.exec env t op) (Coordinator.store (.updateObject o)).run w (.ok ()) w')
    (hid : o.id = id) (hx : o.lifecycleState = x) : RowIs id x w' := by
  rcases ran_store h with ⟨_, hno, _⟩ | ⟨_, _, hput⟩
  · cases hno
  obtain ⟨-, -, ⟨old, hold⟩, hd⟩ := Store.updateObject_ok hput
  have hobj : w'.store.objects = w.store.objects.replace o := congrArg Data.objects hd
  refine ⟨o, hobj ▸ Table.mem_replace.mpr (.inr ⟨rfl, old, ?_, ?_⟩), hid, hx⟩
  · exact Table.mem_of_find? hold
  · exact Table.key_of_find? hold

theorem restoreObject_row {prior : ReclaimObject} {audit : Option AuditEntry}
    (hid : prior.id = e.objectId)
    (h : Ran (Traced.exec env t op) (Coordinator.restoreObject now e prior).run w (.ok audit) w') :
    RowIs e.objectId prior.lifecycleState w' := by
  obtain ⟨found, w₁, h₁, h⟩ := ran_seq_ok h
  rcases ran_store h₁ with ⟨_, hno, _⟩ | ⟨_, hok, hrun⟩
  · cases hno
  cases hok
  cases found with
  | none =>
    obtain ⟨_, w₂, h₂, h⟩ := ran_seq_ok h
    obtain ⟨-, rfl⟩ := ran_pure.mp h
    rcases ran_store h₂ with ⟨_, hno, _⟩ | ⟨_, _, hcreate⟩
    · cases hno
    obtain ⟨-, -, T, hT, hd⟩ := Store.createObject_ok hcreate
    have hobj : w'.store.objects = T := congrArg Data.objects hd
    exact ⟨prior, hobj ▸ (Table.mem_insert? hT).mpr (.inr rfl), hid, rfl⟩
  | some o =>
    obtain ⟨hfind, -⟩ := getObject_ran hrun
    simp only at h
    split at h
    · obtain ⟨_, _, hno, -⟩ := ran_seq_ok h
      cases hno
    split at h
    · obtain ⟨_, w₂, h₂, h⟩ := ran_seq_ok h
      obtain ⟨-, rfl⟩ := ran_pure.mp h
      exact updateObject_row h₂ hid rfl
    · next hsame =>
      obtain ⟨-, rfl⟩ := ran_pure.mp h
      exact ⟨o, Table.mem_of_find? hfind, Table.key_of_find? hfind, not_not.mp hsame⟩

theorem RowIs.same {id : Uuid} {x : LifecycleState} (h : RowIs id x w)
    (hs : w'.store.objects = w.store.objects) : RowIs id x w' := by
  obtain ⟨o, ho, hid, hx⟩ := h
  exact ⟨o, hs ▸ ho, hid, hx⟩

/-- a rollback that returns has put the state of the snapshot back -/
theorem rollback_row {out : ReconcileOutcome} (hid : p.priorObject.id = e.objectId)
    (h : Ran (Traced.exec env t op) (Coordinator.rollback now e p).run w (.ok out) w') :
    RowIs e.objectId p.priorObject.lifecycleState w' := by
  obtain ⟨audit, w₁, h₁, hrest⟩ := ran_seq_ok h
  exact (restoreObject_row hid h₁).same (same_of_off rollback_rest_off hrest)

/-- the rows a commit writes -/
theorem commitAfterCrash_writes {r : Res ReconcileOutcome}
    (h : Ran (Traced.exec env t op) (Coordinator.commitAfterCrash now e p).run w r w')
    {o : ReclaimObject} (ho : o ∈ w'.store.objects) :
    o ∈ w.store.objects ∨ o.id = e.objectId ∧ o.lifecycleState = .reclaimed := by
  rcases ran_seq.mp h with ⟨err, -, hstop⟩ | ⟨found, w₁, h₁, hrest⟩
  · have hsame : w'.store.objects = w.store.objects :=
      same_of_off (T := .objects) (off_store (by simp [StoreOp.writes])) hstop
    exact .inl (hsame ▸ ho)
  rcases ran_store h₁ with ⟨_, hno, _⟩ | ⟨_, hok, hrun⟩
  · cases hno
  cases hok
  obtain ⟨hfind, hs⟩ := getObject_ran hrun
  rw [← hs]
  cases found with
  | none =>
    cases hrest
    exact .inl ho
  | some current =>
    have hid : current.id = e.objectId := Table.key_of_find? hfind
    have hobj : Only (Puts fun o => o.id = e.objectId ∧ o.lifecycleState = .reclaimed)
        (Coordinator.commitObject now e current).run := by
      refine only_ite ?_ only_pure
      exact only_bind (puts_update ⟨hid, rfl⟩) fun _ => puts_off (by simp [StoreOp.writes])
    have hbody : Only (Puts fun o => o.id = e.objectId ∧ o.lifecycleState = .reclaimed) (do
        let replicas ← Coordinator.store .allReplicas
        Coordinator.commitReplicas e replicas p.replicaDeletions
        let archives ← Coordinator.store .listArchives
        Coordinator.commitArchives e archives p.archiveDeletions
        Coordinator.commitObject now e current
        Coordinator.closing now e .committed .committed .committed .committed :
          M ReconcileOutcome).run := by
      refine only_bind (puts_off (by simp [StoreOp.writes])) fun _ => ?_
      refine only_bind (puts_mild commitReplicas_mild) fun _ => ?_
      refine only_bind (puts_off (by simp [StoreOp.writes])) fun _ => ?_
      refine only_bind (puts_mild commitArchives_mild) fun _ => ?_
      exact only_bind hobj fun _ => closing_puts
    exact puts_ran (only_ite (only_bind only_throw fun _ => hbody) hbody) hrest ho

theorem commitObject_row {current : ReclaimObject}
    (hfind : w.store.objects.find? e.objectId = some current)
    (h : Ran (Traced.exec env t op) (Coordinator.commitObject now e current).run w (.ok ()) w') :
    RowIs e.objectId .reclaimed w' := by
  have hid : current.id = e.objectId := Table.key_of_find? hfind
  unfold Coordinator.commitObject at h
  split at h
  · obtain ⟨_, w₁, h₁, h₂⟩ := ran_seq_ok h
    have hrow : RowIs e.objectId .reclaimed w₁ := updateObject_row h₁ hid rfl
    exact hrow.same (same_of_off (T := .objects) (off_store (by simp [StoreOp.writes])) h₂)
  · next hsame =>
    obtain ⟨-, rfl⟩ := ran_pure.mp h
    exact ⟨current, Table.mem_of_find? hfind, hid, not_not.mp (not_or.mp hsame).1⟩

/-- a commit that returns leaves the object RECLAIMED -/
theorem commitAfterCrash_row {out : ReconcileOutcome}
    (h : Ran (Traced.exec env t op) (Coordinator.commitAfterCrash now e p).run w (.ok out) w') :
    RowIs e.objectId .reclaimed w' := by
  have hmild {c : Cmd} : Mild c → Off .objects c := Mild.off (.inr rfl)
  obtain ⟨found, w₁, h₁, h⟩ := ran_seq_ok h
  rcases ran_store h₁ with ⟨_, hno, _⟩ | ⟨_, hok, hrun⟩
  · cases hno
  cases hok
  obtain ⟨hfind, -⟩ := getObject_ran hrun
  cases found with
  | none => cases h
  | some current =>
    simp only at h
    split at h
    · obtain ⟨_, _, hno, -⟩ := ran_seq_ok h
      cases hno
    obtain ⟨_, w₂, h₂, h⟩ := ran_seq_ok h
    obtain ⟨_, w₃, h₃, h⟩ := ran_seq_ok h
    obtain ⟨_, w₄, h₄, h⟩ := ran_seq_ok h
    obtain ⟨_, w₅, h₅, h⟩ := ran_seq_ok h
    obtain ⟨_, w₆, h₆, h⟩ := ran_seq_ok h
    have hs₂ : w₂.store.objects = w₁.store.objects :=
      same_of_off (T := .objects) (off_store (by simp [StoreOp.writes])) h₂
    have hs₃ : w₃.store.objects = w₂.store.objects :=
      same_of_off (T := .objects) (commitReplicas_mild.mono fun _ => hmild) h₃
    have hs₄ : w₄.store.objects = w₃.store.objects :=
      same_of_off (T := .objects) (off_store (by simp [StoreOp.writes])) h₄
    have hs₅ : w₅.store.objects = w₄.store.objects :=
      same_of_off (T := .objects) (commitArchives_mild.mono fun _ => hmild) h₅
    have hclose : Only (Off .objects)
        (Coordinator.closing now e .committed .committed .committed .committed).run := closing_off
    have hrow := commitObject_row (by rw [hs₅, hs₄, hs₃, hs₂]; exact hfind) h₆
    exact hrow.same (same_of_off hclose h)

end

/-! ## the reservations -/

/-- the attempt and the reservations of `a` are as they were, and no reservation changes its
attempt -/
structure Spared (a : Uuid) (w w' : Traced) : Prop where
  attempts : ∀ x : Attempt, x.attemptId = a → (x ∈ w'.store.attempts ↔ x ∈ w.store.attempts)
  reservations : ∀ x : Reservation, x.attemptId = a →
    (x ∈ w'.store.reservations ↔ x ∈ w.store.reservations)
  kept : ∀ x ∈ w'.store.reservations, ∃ y ∈ w.store.reservations,
    y.reservationId = x.reservationId ∧ y.attemptId = x.attemptId

/-- the commands with which a reservation is abandoned -/
def Abandons (v : Reservation) (c : Cmd) : Prop :=
  (Off .reservations c ∧ Off .attempts c) ∨
    c = .store (.updateReservation v.reservationId .expired) ∨
    ∃ now, c = .store (.reconcileAttempt v.attemptId .failed now)

section
variable {env : Env} {t : Tid} {op : Op} {w w₁ w' : Traced} {now : Int} {a : Uuid}
  {v : Reservation} {e : JournalEntry}

theorem Spared.same (h : Spared a w w₁) (ha : w'.store.attempts = w₁.store.attempts)
    (hr : w'.store.reservations = w₁.store.reservations) : Spared a w w' where
  attempts := fun x hx => ha ▸ h.attempts x hx
  reservations := fun x hx => hr ▸ h.reservations x hx
  kept := fun x hx => h.kept x (hr ▸ hx)

theorem Spared.refl (w : Traced) : Spared a w w :=
  ⟨fun _ _ => .rfl, fun _ _ => .rfl, fun x hx => ⟨x, hx, rfl, rfl⟩⟩

theorem abandon_abandons : Only (Abandons v) (Coordinator.abandon now v).run := by
  have hoff {so : StoreOp} (hr : Data.Part.reservations ∉ so.writes)
      (ha : Data.Part.attempts ∉ so.writes) : Only (Abandons v) (Coordinator.store so).run :=
    only_store (.inl ⟨⟨so, rfl, hr⟩, ⟨so, rfl, ha⟩⟩)
  have hrest : Only (Abandons v) (do
      Coordinator.store (.updateReservation v.reservationId .expired)
      Coordinator.store (.reconcileAttempt v.attemptId .failed now) : M Unit).run :=
    only_bind (only_store (.inr (.inl rfl))) fun _ => only_store (.inr (.inr ⟨now, rfl⟩))
  refine only_bind (hoff (by simp [StoreOp.writes]) (by simp [StoreOp.writes])) fun found => ?_
  cases found with
  | none => exact hrest
  | some o =>
    refine only_ite ?_ hrest
    refine only_bind (hoff (by simp [StoreOp.writes]) (by simp [StoreOp.writes])) fun _ => ?_
    exact only_bind (hoff (by simp [StoreOp.writes]) (by simp [StoreOp.writes])) fun _ => hrest

/-- the row that a command closes belongs to another attempt -/
theorem spared_step {c : Cmd} {i : Input} {r : c.Reply} (hc : Abandons v c)
    (hv : v ∈ w.store.reservations) (hne : v.attemptId ≠ a)
    (h : Traced.exec env t op c i w₁ = some (r, w')) (hw : Spared a w w₁) : Spared a w w' := by
  rcases hc with ⟨hr, ha⟩ | rfl | ⟨now, rfl⟩
  · exact hw.same (off_step ha h) (off_step hr h)
  · rcases store_step h with ⟨_, _, hs⟩ | ⟨_, _, hrun⟩
    · exact hw.same (by rw [hs]) (by rw [hs])
    obtain ⟨-, -, -, hd⟩ := Store.updateReservation_ok hrun
    have hR : w'.store.reservations = Store.closeReservations
        (fun x => decide (x.reservationId = v.reservationId)) .expired w₁.store.reservations :=
      congrArg Data.reservations hd
    have hA : w'.store.attempts = w₁.store.attempts := congrArg Data.attempts hd
    -- the row under the id has the attempt of `v`
    have hown : ∀ y ∈ w₁.store.reservations, y.reservationId = v.reservationId →
        y.attemptId ≠ a := by
      intro y hy hid
      obtain ⟨y', hy', hid', hatt⟩ := hw.kept y hy
      rw [← hatt, Table.eq_of_key hy' hv (hid'.trans hid)]
      exact hne
    refine ⟨fun x hx => hA ▸ hw.attempts x hx, fun x hx => ?_, fun x hx => ?_⟩
    · rw [← hw.reservations x hx, hR, Store.closeReservations, Table.mem_updateWhere]
      constructor
      · rintro ⟨y, hy, rfl⟩
        split at hx
        · next hit =>
          have hid := decide_eq_true_iff.mp (Bool.and_eq_true_iff.mp hit).1
          exact absurd hx (hown y hy hid)
        · next hmiss => rwa [if_neg hmiss]
      · intro hm
        refine ⟨x, hm, ?_⟩
        rw [if_neg]
        intro hit
        exact hown x hm (decide_eq_true_iff.mp (Bool.and_eq_true_iff.mp hit).1) hx
    · rw [hR, Store.closeReservations, Table.mem_updateWhere] at hx
      obtain ⟨y, hy, rfl⟩ := hx
      obtain ⟨y', hy', hid, hatt⟩ := hw.kept y hy
      refine ⟨y', hy', ?_⟩
      split <;> exact ⟨hid, hatt⟩
  · rcases store_step h with ⟨_, _, hs⟩ | ⟨_, _, hrun⟩
    · exact hw.same (by rw [hs]) (by rw [hs])
    rcases Store.reconcileAttempt_ok hrun with ⟨x, T, hx, -, ⟨-, -, -, -, hmem⟩, hd⟩ | hs
    · have hA : w'.store.attempts = T := congrArg Data.attempts hd
      have hid : x.attemptId = v.attemptId := Table.key_of_find? hx
      refine ⟨fun y hy => ?_, ?_, ?_⟩
      · rw [← hw.attempts y hy, hA, hmem, hid]
        have hyne : y.attemptId ≠ v.attemptId := fun he => hne (he.symm.trans hy)
        refine ⟨?_, fun hm => .inl ⟨hm, hyne⟩⟩
        rintro (⟨hm, -⟩ | hm)
        · exact hm
        · cases hm
          exact absurd rfl hyne
      · have hR : w'.store.reservations = w₁.store.reservations := congrArg Data.reservations hd
        exact fun y hy => hR ▸ hw.reservations y hy
      · have hR : w'.store.reservations = w₁.store.reservations := congrArg Data.reservations hd
        exact fun y hy => hw.kept y (hR ▸ hy)
    · exact hw.same (by rw [hs]) (by rw [hs])

theorem Expired.journal {vs gone : List Reservation} (h : Expired env t op now vs gone w w') :
    w'.store.journal = w.store.journal := by
  induction h with
  | stop hs => exact congrArg Data.journal hs.1
  | kept hs _ ih => exact ih.trans (congrArg Data.journal hs.1)
  | abandoned _ hs hran _ ih =>
    exact (ih.trans (same_of_off abandon_off hran)).trans (congrArg Data.journal hs.1)

/-- the expiry pass leaves the reservations of an open entry alone -/
theorem Expired.spared {vs gone : List Reservation} {w₀ : Traced}
    (h : Expired env t op now vs gone w w') (hw : Spared e.attemptId w₀ w)
    (hvs : ∀ v ∈ vs, v ∈ w₀.store.reservations) (he : e ∈ w.store.journal)
    (ho : e.phase.isOpen = true) :
    Spared e.attemptId w₀ w' ∧ ∀ v ∈ gone, v.attemptId ≠ e.attemptId := by
  have hread {w w₁ : Traced} (h : Spared e.attemptId w₀ w) (hs : Unchanged w w₁) :
      Spared e.attemptId w₀ w₁ :=
    h.same (congrArg Data.attempts hs.1) (congrArg Data.reservations hs.1)
  induction h with
  | stop hs => exact ⟨hread hw hs, fun _ h => absurd h List.not_mem_nil⟩
  | @kept _ _ _ w w₁ _ hs _ ih =>
    have hj : w₁.store.journal = w.store.journal := congrArg Data.journal hs.1
    exact ih (hread hw hs) (fun v hv => hvs v (List.mem_cons_of_mem _ hv)) (hj ▸ he)
  | @abandoned v _ _ w w₁ w₂ _ _ hno hs hran _ ih =>
    have hj : w₁.store.journal = w.store.journal := congrArg Data.journal hs.1
    have hne : v.attemptId ≠ e.attemptId := by
      intro hid
      have hclosed := hno e (hid ▸ Table.find?_of_mem he)
      rw [ho] at hclosed
      cases hclosed
    have hspared : Spared e.attemptId w₀ w₂ :=
      abandon_abandons.ran (fun _ _ _ _ _ hc hx hw₁ =>
        spared_step hc (hvs v List.mem_cons_self) hne hx hw₁) hran (hread hw hs)
    have hj₂ : w₂.store.journal = w₁.store.journal := same_of_off abandon_off hran
    obtain ⟨hw', hgone⟩ := ih hspared (fun v hv => hvs v (List.mem_cons_of_mem _ hv))
      (hj₂.trans hj ▸ he)
    refine ⟨hw', fun x hx => ?_⟩
    rcases List.mem_cons.mp hx with rfl | hx
    · exact hne
    · exact hgone x hx

end

/-! ## what became of an entry -/

/-- the phases before the physical plan was written -/
def JournalEntry.Pending (e : JournalEntry) : Prop := e.phase = .reserved ∨ e.phase = .validated

/-- what the reconciliation of an open entry came to, between `w` and `w'` -/
structure Followed (e : JournalEntry) (o : Res ReconcileOutcome) (w w' : Traced) : Prop where
  outcome : (o = .ok .committed ∧ Stamped e .committed w w') ∨
    (o = .ok .rolledBack ∧ Stamped e .rolledBack w w') ∨
    (∃ err, o = .error err) ∧ w'.store.journal = w.store.journal
  committed : o = .ok .committed → RowIs e.objectId .reclaimed w' ∧
    ∃ p, Coordinator.entryPayload e = .ok p ∧ CommitGrounds e p w w'
  rolledBack : o = .ok .rolledBack → ∃ p, Coordinator.entryPayload e = .ok p ∧
    RowIs e.objectId p.priorObject.lifecycleState w' ∧ (e.Pending ∨ RollbackGrounds e p w w')
  pending : e.Pending → o ≠ .ok .committed
  -- an object row that was written, by a run that fails halfway too
  written : ∀ x ∈ w'.store.objects, x ∈ w.store.objects ∨
    ∃ p, Coordinator.entryPayload e = .ok p ∧
      ((x.id = e.objectId ∧ x.lifecycleState = .reclaimed ∧ CommitGrounds e p w w') ∨
        (x = p.priorObject ∧ (e.Pending ∨ RollbackGrounds e p w w')))
  -- no answer was common to everything planned, or the payload cannot be read
  unresolved : e.Physical → (∀ p, Coordinator.entryPayload e = .ok p →
    p.planned ≠ [] ∧ ∀ d, ¬Unanimous p d w w') →
      (∃ err, o = .error err) ∧ w'.store.data = w.store.data
  doubtful : e.Physical → ∀ p, Coordinator.entryPayload e = .ok p → p.planned ≠ [] →
    Divided p w w' ∨ QueryFailed w w' → (∃ err, o = .error err) ∧ w'.store.data = w.store.data

/-- what is left of an entry at the end of the run -/
structure Concluded (e : JournalEntry) (o : Res ReconcileOutcome) (r : Res RecoveryReport)
    (gone : List Reservation) (w w' : Traced) : Prop where
  committed : Stands e .committed w' ↔ o = .ok .committed
  rolledBack : Stands e .rolledBack w' ↔ o = .ok .rolledBack
  report : ∀ report, r = .ok report →
    (e.attemptId ∈ report.committed ↔ o = .ok .committed) ∧
    (e.attemptId ∈ report.rolledBack ↔ o = .ok .rolledBack) ∧
    ∀ err, o = .error err → s!"attempt {e.attemptId}: {err}" ∈ report.errors
  -- its own reservation is not expired
  untouched : ∀ err, o = .error err → e ∈ w'.store.journal ∧ Spared e.attemptId w w' ∧
    ∀ v ∈ gone, v.attemptId ≠ e.attemptId

section
variable {env : Env} {t : Tid} {op : Op} {w w₁ w' : Traced} {now : Int} {e : JournalEntry}
  {p : ParsedJournalPayload} {o r : Res ReconcileOutcome} {φ : Bool → Prop}

theorem JournalEntry.Pending.not_physical (h : e.Pending) : ¬e.Physical := by
  unfold JournalEntry.Pending at h
  unfold JournalEntry.Physical
  rcases h with h | h <;> rw [h] <;> decide

theorem CommitGrounds.physical (h : CommitGrounds e p w w') : e.Physical := by
  rcases h with ⟨-, h⟩ | ⟨h, -⟩
  · exact .inr h
  · exact h

theorem Resolution.followed {o : Res ReconcileOutcome} (ho : e.phase.isOpen = true)
    (h : Resolution env t op now e w o w') : Followed e o w w' := by
  have hpend (hp : e.Pending) (p : ParsedJournalPayload) : ¬CommitGrounds e p w w' :=
    fun hg => JournalEntry.Pending.not_physical hp hg.physical
  -- an entry that fails before its decision
  have hfail {err : ReclaimError} (hsame : w'.store.data = w.store.data) :
      Followed e (.error err) w w' := by
    have hobj : w'.store.objects = w.store.objects := congrArg Data.objects hsame
    exact ⟨.inr (.inr ⟨⟨err, rfl⟩, congrArg Data.journal hsame⟩), nofun, nofun, fun _ => nofun,
      fun x hx => .inl (hobj ▸ hx), fun _ _ => ⟨⟨err, rfl⟩, hsame⟩,
      fun _ _ _ _ _ => ⟨⟨err, rfl⟩, hsame⟩⟩
  cases h with
  | unreadable err hp => exact hfail rfl
  | closed hph =>
    rw [ho] at hph
    cases hph
  | unresolved err _ hran hs => exact hfail hs.1
  | committed p w₁ hp hs hmay hran =>
    have hsilent (φ : Bool → Prop) : Spoken φ w₁ w' := by
      refine spoken_mute (commitAfterCrash_tame.mono ?_) hran
      rintro c ⟨so, rfl, -⟩
      rfl
    have hgrounds : CommitGrounds e p w w' := hmay.grounds hsilent
    have hobj : w₁.store.objects = w.store.objects := congrArg Data.objects hs.1
    have hj : w₁.store.journal = w.store.journal := congrArg Data.journal hs.1
    -- a commit needs an answer that all have in common
    have hcommon (hne : p.planned ≠ []) : Unanimous p false w w' := by
      rcases hgrounds with ⟨hnil, -⟩ | ⟨-, -, hall⟩
      · exact absurd hnil hne
      · exact hall
    refine ⟨?_, ?_, ?_, fun hpn => absurd hgrounds (hpend hpn p), ?_, ?_, ?_⟩
    · rcases commitAfterCrash_closes _ _ _ hran with ⟨hr, hst⟩ | ⟨herr, hjs⟩
      · exact .inl ⟨hr, fun x hx => hj ▸ hst.others x hx, hst.stands⟩
      · exact .inr (.inr ⟨herr, hjs.trans hj⟩)
    · rintro rfl
      exact ⟨commitAfterCrash_row hran, p, hp, hgrounds⟩
    · rintro rfl
      rcases commitAfterCrash_closes _ _ _ hran with ⟨hr, -⟩ | ⟨⟨_, hr⟩, -⟩ <;> cases hr
    · intro x hx
      rcases commitAfterCrash_writes hran hx with hx | ⟨hid, hst⟩
      · exact .inl (hobj ▸ hx)
      · exact .inr ⟨p, hp, .inl ⟨hid, hst, hgrounds⟩⟩
    · intro _ hdoubt
      obtain ⟨hne, hno⟩ := hdoubt p hp
      exact absurd (hcommon hne) (hno false)
    · intro _ q hq hne hdoubt
      cases hp.symm.trans hq
      exact absurd (hcommon hne) (not_unanimous hdoubt false)
  | rolledBack p w₁ hp hs hmay hran =>
    have hsilent (φ : Bool → Prop) : Spoken φ w₁ w' := by
      exact spoken_mute (Coordinator.rollback_onStore.mono fun _ => OnStore.mute) hran
    have hgrounds : e.Pending ∨ RollbackGrounds e p w w' := hmay.grounds hsilent
    have hobj : w₁.store.objects = w.store.objects := congrArg Data.objects hs.1
    have hj : w₁.store.journal = w.store.journal := congrArg Data.journal hs.1
    have hnot : o ≠ .ok .committed := by
      rintro rfl
      rcases rollback_closes _ _ _ hran with ⟨hr, -⟩ | ⟨⟨_, hr⟩, -⟩ <;> cases hr
    have hcommon (hphys : e.Physical) (hne : p.planned ≠ []) : Unanimous p true w w' := by
      rcases hgrounds with hpn | ⟨hnil, -⟩ | ⟨-, -, hall⟩
      · exact absurd hphys (JournalEntry.Pending.not_physical hpn)
      · exact absurd hnil hne
      · exact hall
    refine ⟨?_, fun hc => absurd hc hnot, ?_, fun _ => hnot, ?_, ?_, ?_⟩
    · rcases rollback_closes _ _ _ hran with ⟨hr, hst⟩ | ⟨herr, hjs⟩
      · exact .inr (.inl ⟨hr, fun x hx => hj ▸ hst.others x hx, hst.stands⟩)
      · exact .inr (.inr ⟨herr, hjs.trans hj⟩)
    · rintro rfl
      exact ⟨p, hp, rollback_row (entryPayload_identified hp).prior hran, hgrounds⟩
    · intro x hx
      rcases rollback_writes hran hx with hx | hx
      · exact .inl (hobj ▸ hx)
      · exact .inr ⟨p, hp, .inr ⟨hx, hgrounds⟩⟩
    · intro hphys hdoubt
      obtain ⟨hne, hno⟩ := hdoubt p hp
      exact absurd (hcommon hphys hne) (hno true)
    · intro hphys q hq hne hdoubt
      cases hp.symm.trans hq
      exact absurd (hcommon hphys hne) (not_unanimous hdoubt true)

/-- the rows of other attempts are left alone -/
theorem Resolution.others {o : Res ReconcileOutcome} (h : Resolution env t op now e w o w')
    {x : JournalEntry} (hne : x.attemptId ≠ e.attemptId) :
    x ∈ w'.store.journal ↔ x ∈ w.store.journal := by
  cases h with
  | unreadable _ _ => rfl
  | closed _ => rfl
  | unresolved _ _ _ hs =>
    have hj : w'.store.journal = w.store.journal := congrArg Data.journal hs.1
    rw [hj]
  | committed p w₁ _ hs _ hran =>
    have hj : w₁.store.journal = w.store.journal := congrArg Data.journal hs.1
    rw [← hj]
    rcases commitAfterCrash_closes _ _ _ hran with ⟨-, hst⟩ | ⟨-, hjs⟩
    · exact hst.others x hne
    · rw [hjs]
  | rolledBack p w₁ _ hs _ hran =>
    have hj : w₁.store.journal = w.store.journal := congrArg Data.journal hs.1
    rw [← hj]
    rcases rollback_closes _ _ _ hran with ⟨-, hst⟩ | ⟨-, hjs⟩
    · exact hst.others x hne
    · rw [hjs]

/-! ## the run -/

variable {outs post : List (JournalEntry × Res ReconcileOutcome)}

theorem Reconciled.others (h : Reconciled env t op now outs w w') {x : JournalEntry}
    (hne : x.attemptId ∉ outs.map fun y => y.1.attemptId) :
    x ∈ w'.store.journal ↔ x ∈ w.store.journal := by
  induction h with
  | nil => rfl
  | cons hr _ ih =>
    rw [List.map_cons, List.mem_cons, not_or] at hne
    rw [ih hne.2]
    exact hr.others hne.1

/-- the turn of one entry -/
theorem Reconciled.split {pre : List (JournalEntry × Res ReconcileOutcome)}
    {o : Res ReconcileOutcome} (h : Reconciled env t op now (pre ++ (e, o) :: post) w w') :
    ∃ u v, Reconciled env t op now pre w u ∧ Resolution env t op now e u o v ∧
      Reconciled env t op now post v w' := by
  induction pre generalizing w with
  | nil =>
    cases h with
    | cons hr hrest => exact ⟨w, _, .nil w, hr, hrest⟩
  | cons x pre ih =>
    cases h with
    | cons hr hrest =>
      obtain ⟨u, v, hpre, hres, hpost⟩ := ih hrest
      exact ⟨u, v, .cons hr hpre, hres, hpost⟩

theorem Stands.unique {ph ph' : JournalPhase} (h : Stands e ph w) (h' : Stands e ph' w) :
    ph = ph' := by
  obtain ⟨x, hx, hid, rfl⟩ := h
  obtain ⟨y, hy, hid', rfl⟩ := h'
  rw [Table.eq_of_key hx hy (hid.trans hid'.symm)]

end

/-- what a run of recovery that reads the open entries does with each of them -/
structure Follows (env : Env) (t : Tid) (op : Op) (w : Traced) (r : Res RecoveryReport)
    (w' : Traced) : Prop where
  run : ∃ now outs vs gone w₁ w₂ w₃ w₄,
    w.store.listOpenJournal = .ok (outs.map Prod.fst, w.store) ∧
    Unchanged w w₁ ∧ Reconciled env t op now outs w₁ w₂ ∧
    Unchanged w₂ w₃ ∧ Expired env t op now vs gone w₃ w₄ ∧ SameRows w₄ w' ∧
    ∀ e ∈ w.store.journal, e.phase.isOpen = true → ∃ pre o post u v,
      outs = pre ++ (e, o) :: post ∧ Reconciled env t op now pre w₁ u ∧
      Reconciled env t op now post v w₂ ∧ e ∈ u.store.journal ∧ Followed e o u v ∧
      Concluded e o r gone w₂ w'

section
variable {env : Env} {t : Tid} {op : Op} {w w₁ w₂ w' u v : Traced} {now : Int} {e : JournalEntry}
  {outs pre post : List (JournalEntry × Res ReconcileOutcome)} {o : Res ReconcileOutcome}
  {r : Res RecoveryReport} {gone : List Reservation}

theorem SameRows.journal (h : SameRows w w') : w'.store.journal = w.store.journal :=
  congrArg Data.journal h

theorem SameRows.attempts (h : SameRows w w') : w'.store.attempts = w.store.attempts :=
  congrArg Data.attempts h

theorem SameRows.reservations (h : SameRows w w') :
    w'.store.reservations = w.store.reservations := congrArg Data.reservations h

/-- an entry of which the others leave the row alone ends as its own turn left it -/
theorem Followed.concluded (hf : Followed e o u v) (he : e ∈ u.store.journal)
    (ho : e.phase.isOpen = true)
    (hids : ((pre ++ (e, o) :: post).map fun x => x.1.attemptId).Nodup)
    (hpost : Reconciled env t op now post v w₂) (hj : w'.store.journal = w₂.store.journal)
    (hrest : e ∈ w₂.store.journal → Spared e.attemptId w₂ w' ∧ ∀ x ∈ gone, x.attemptId ≠ e.attemptId)
    (hrep : ∀ report, r = .ok report → Tallied (pre ++ (e, o) :: post) report) :
    Concluded e o r gone w₂ w' := by
  rw [List.map_append, List.map_cons, List.nodup_append, List.nodup_cons] at hids
  obtain ⟨-, ⟨hnot, -⟩, hdisj⟩ := hids
  have hrow {x : JournalEntry} (hx : x.attemptId = e.attemptId) :
      x ∈ w₂.store.journal ↔ x ∈ v.store.journal := hpost.others (hx ▸ hnot)
  have hstands {ph : JournalPhase} (hs : Stands e ph v) : Stands e ph w' := by
    obtain ⟨x, hx, hid, hph⟩ := hs
    exact ⟨x, hj ▸ (hrow hid).mpr hx, hid, hph⟩
  have hkept {err : ReclaimError} (herr : o = .error err) : e ∈ w₂.store.journal := by
    rcases hf.outcome with ⟨h, -⟩ | ⟨h, -⟩ | ⟨-, hsame⟩
    · cases herr.symm.trans h
    · cases herr.symm.trans h
    · exact (hrow rfl).mpr (hsame ▸ he)
  -- the phase of the row tells the outcome
  have hphase : (o = .ok .committed ∧ Stands e .committed w') ∨
      (o = .ok .rolledBack ∧ Stands e .rolledBack w') ∨
      ((∃ err, o = .error err) ∧ Stands e e.phase w') := by
    rcases hf.outcome with ⟨h, hst⟩ | ⟨h, hst⟩ | ⟨⟨err, h⟩, -⟩
    · exact .inl ⟨h, hstands hst.stands⟩
    · exact .inr (.inl ⟨h, hstands hst.stands⟩)
    · exact .inr (.inr ⟨⟨err, h⟩, e, hj ▸ hkept h, rfl, rfl⟩)
  have hclosed {ph : JournalPhase} (hph : ph.isOpen = false) (h : Stands e ph w') :
      ¬Stands e e.phase w' := by
    intro h'
    rw [h.unique h', ho] at hph
    cases hph
  -- another outcome of the same attempt would be its own
  have hone {x : JournalEntry} {o' : Res ReconcileOutcome}
      (hx : (x, o') ∈ pre ++ (e, o) :: post) (hid : x.attemptId = e.attemptId) : o' = o := by
    rcases List.mem_append.mp hx with hx | hx
    · exact absurd hid (hdisj _ (List.mem_map.mpr ⟨_, hx, rfl⟩) _ List.mem_cons_self)
    rcases List.mem_cons.mp hx with hx | hx
    · cases hx
      rfl
    · exact absurd (hid ▸ List.mem_map.mpr ⟨_, hx, rfl⟩) hnot
  have hmem : (e, o) ∈ pre ++ (e, o) :: post :=
    List.mem_append_right _ List.mem_cons_self
  refine ⟨⟨fun h => ?_, fun h => ?_⟩, ⟨fun h => ?_, fun h => ?_⟩, fun report hr => ?_, ?_⟩
  · rcases hphase with ⟨h', -⟩ | ⟨-, h'⟩ | ⟨-, h'⟩
    · exact h'
    · cases h.unique h'
    · exact absurd h' (hclosed rfl h)
  · rcases hphase with ⟨-, h'⟩ | ⟨h', -⟩ | ⟨⟨_, h'⟩, -⟩
    · exact h'
    · cases h.symm.trans h'
    · cases h.symm.trans h'
  · rcases hphase with ⟨-, h'⟩ | ⟨h', -⟩ | ⟨-, h'⟩
    · cases h.unique h'
    · exact h'
    · exact absurd h' (hclosed rfl h)
  · rcases hphase with ⟨h', -⟩ | ⟨-, h'⟩ | ⟨⟨_, h'⟩, -⟩
    · cases h.symm.trans h'
    · exact h'
    · cases h.symm.trans h'
  · obtain ⟨hc, hb, herrs⟩ := hrep report hr
    refine ⟨(hc _).trans ⟨?_, ?_⟩, (hb _).trans ⟨?_, ?_⟩, ?_⟩
    · rintro ⟨x, hx, hid⟩
      exact (hone hx hid).symm
    · rintro rfl
      exact ⟨e, hmem, rfl⟩
    · rintro ⟨x, hx, hid⟩
      exact (hone hx hid).symm
    · rintro rfl
      exact ⟨e, hmem, rfl⟩
    · rintro err rfl
      exact herrs e err hmem
  · intro err herr
    exact ⟨hj ▸ hkept herr, hrest (hkept herr)⟩

/-- a run of recovery commits an entry only on an empty plan that was completed or on answers that
all deny, rolls it back only on an empty plan that was not or on answers that all confirm, and
leaves alone, and reports, what stays in doubt -/
theorem recover_follows_truth (h : Ran (Traced.exec env t op) Coordinator.recover.run w r w') :
    (∃ err, r = .error err ∧ Unchanged w w') ∨ Follows env t op w r w' := by
  refine (recover_passes h).imp id fun hpass => ?_
  obtain ⟨now, entries, s, outs, vs, gone, w₁, w₂, w₃, w₄, hlist, hsame, hes, hrec, hread, hvs,
    hexp, hrows, hrep⟩ := hpass.passes
  have hopen {x : JournalEntry} : x ∈ entries ↔ x ∈ w.store.journal ∧ x.phase.isOpen = true :=
    Store.listOpenJournal_ok hlist
  obtain ⟨hentries, hs⟩ := Prod.mk.inj (Except.ok.inj hlist)
  have hids : (outs.map fun x => x.1.attemptId).Nodup := by
    rw [show (fun x : JournalEntry × Res ReconcileOutcome => x.1.attemptId) =
      JournalEntry.attemptId ∘ Prod.fst from rfl, ← List.map_map, hes, ← hentries]
    exact w.store.journal.nodup_query (fun j => j.phase.isOpen) (fun a b => Store.journalLe a b)
  have hj₁ : w₁.store.journal = w.store.journal := congrArg Data.journal hsame.1
  have hj₃ : w₃.store.journal = w₂.store.journal := congrArg Data.journal hread.1
  subst hes hs
  refine ⟨now, outs, vs, gone, w₁, w₂, w₃, w₄, hlist, hsame, hrec, hread, hexp, hrows, ?_⟩
  intro e he ho
  obtain ⟨⟨x, o⟩, hx, rfl⟩ := List.mem_map.mp (hopen.mpr ⟨he, ho⟩)
  obtain ⟨pre, post, rfl⟩ := List.append_of_mem hx
  obtain ⟨u, v, hpre, hres, hpost⟩ := hrec.split
  have heu : x ∈ u.store.journal := by
    refine (hpre.others ?_).mpr (hj₁ ▸ he)
    rw [List.map_append, List.nodup_append] at hids
    exact fun hin => hids.2.2 _ hin _ List.mem_cons_self rfl
  have hf := hres.followed ho
  have hj : w'.store.journal = w₂.store.journal :=
    (hrows.journal.trans hexp.journal).trans hj₃
  refine ⟨pre, o, post, u, v, rfl, hpre, hpost, heu, hf, hf.concluded heu ho hids hpost hj ?_ hrep⟩
  intro hin
  have hstart : Spared x.attemptId w₂ w₃ := (Spared.refl w₂).same (congrArg Data.attempts hread.1)
    (congrArg Data.reservations hread.1)
  have hres : w₃.store.reservations = w₂.store.reservations := congrArg Data.reservations hread.1
  obtain ⟨hspared, hgone⟩ := hexp.spared hstart (fun v hv => hres ▸ hvs v hv) (hj₃ ▸ hin) ho
  exact ⟨hspared.same hrows.attempts hrows.reservations, hgone⟩

end

namespace Sample

/-- of the two planned payloads one is there -/
theorem halfDeleted_recover :
    (Coordinator.recover.run.eval (Traced.exec env 1 .recover) (calm 100) 0 halfDeleted).any
      (fun x => match x.1 with
        | .ok report => decide (report.errors.length = 1)
        | .error _ => false) = true := by
  decide +kernel

end Sample

theorem recover_follows_truth_half : ∃ report w',
    Ran (Traced.exec Sample.env 1 .recover) Coordinator.recover.run Sample.halfDeleted
      (.ok report) w' ∧ report.errors.length = 1 ∧
    Follows Sample.env 1 .recover Sample.halfDeleted (.ok report) w' := by
  obtain ⟨⟨r, w'⟩, hev, h⟩ := (Option.any_eq_true _ _).mp Sample.halfDeleted_recover
  cases r with
  | error err => cases h
  | ok report =>
    have hran := Prog.ran_of_eval hev
    exact ⟨report, w', hran, of_decide_eq_true h, (recover_follows_truth hran).resolve_left nofun⟩

end ReclaimFabric
