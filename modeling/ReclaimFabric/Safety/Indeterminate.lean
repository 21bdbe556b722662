import ReclaimFabric.Protocol.Indeterminate
import ReclaimFabric.Safety.Modes

/-!
# Failures after the durable plan

A reclaim whose plan has become durable either succeeds or leaves a coordinator behind that serves
nobody until it is started again.

* `ShutDown`              the process has been told to shut down since it was started;
* `Refuses`               sections that are entered now are refused;
* `Indeterminate`         the coordinator is fenced over an attempt that recovery has to finish;
* `indeterminate_fenced`  a failure after the durable plan leaves it so, when the archives of the
                          object can be reached at this start of the coordinator.

An archive row may name a backend that is not configured any more; then `reclaim` leaves the
physical phase with the coordinator in service.
-/

set_option linter.unusedSectionVars false

namespace ReclaimFabric

section
variable {env : Env} {s s' : Sys} {t : Tid} {w : World}

/-! ## the flags of the process -/

/-- the flags of the process are not taken back -/
structure FlagsKept (w x : World) : Prop where
  authorityLost : w.proc.authorityLost = true → x.proc.authorityLost = true
  shutdown : w.proc.shutdown = true → x.proc.shutdown = true

theorem FlagsKept.of_proc {x : World} (h : x.proc = w.proc) : FlagsKept w x := by
  constructor <;> rw [h] <;> exact id

theorem exec_flags {c : Cmd} {i : Input} {x : World} {r : c.Reply}
    (h : exec env t c i w = some (r, x)) : FlagsKept w x := by
  by_cases hcalm : c.calm = true
  · exact ⟨(exec_calm hcalm h).authorityLost, (exec_calm hcalm h).shutdown⟩
  cases c with
  | store so => exact .of_proc (exec_store_proc h)
  | lock =>
    simp only [exec] at h
    split at h <;> cases h
    exact ⟨id, id⟩
  | unlock =>
    cases h
    exact ⟨id, id⟩
  | insertActiveObject X =>
    simp only [exec, Option.some.injEq, execInsertActiveObject] at h
    split at h
    · cases h
      exact .of_proc rfl
    · split at h <;> cases h
      · exact .of_proc rfl
      · exact ⟨id, id⟩
  | removeActiveObject X =>
    simp only [exec] at h
    split at h <;> cases h
    exact ⟨id, id⟩
  | pollPayloads keys =>
    simp only [exec, execPollPayloads] at h
    split at h
    · split at h <;> cases h
      · exact ⟨id, id⟩
      · exact .of_proc rfl
    · cases h
  | removeActivePayloads keys =>
    simp only [exec] at h
    split at h <;> cases h
    exact ⟨id, id⟩
  | insertActiveRecovery =>
    simp only [exec, Option.some.injEq, execInsertActiveRecovery] at h
    split at h <;> cases h
    · exact .of_proc rfl
    · exact ⟨id, id⟩
  | removeActiveRecovery =>
    simp only [exec] at h
    split at h <;> cases h
    exact ⟨id, id⟩
  | put b k d =>
    have hc : (Cmd.put b k d).onPayload b k = true := by simp [Cmd.onPayload]
    rcases exec_onPayload hc h with rfl | ⟨v, rfl⟩ <;> exact .of_proc rfl
  | delete b k =>
    have hc : (Cmd.delete b k).onPayload b k = true := by simp [Cmd.onPayload]
    rcases exec_onPayload hc h with rfl | ⟨v, rfl⟩ <;> exact .of_proc rfl
  | node n b k op =>
    have hc : (Cmd.node n b k op).onPayload b k = true := by simp [Cmd.onPayload]
    rcases exec_onPayload hc h with rfl | ⟨v, rfl⟩ <;> exact .of_proc rfl
  | archiveWrite a k d hash =>
    have hc : (Cmd.archiveWrite a k d hash).onBlob a k = true := by simp [Cmd.onBlob]
    rcases exec_onBlob hc h with rfl | ⟨v, rfl⟩ <;> exact .of_proc rfl
  | archiveDelete a k =>
    have hc : (Cmd.archiveDelete a k).onBlob a k = true := by simp [Cmd.onBlob]
    rcases exec_onBlob hc h with rfl | ⟨v, rfl⟩ <;> exact .of_proc rfl
  | _ => exact absurd rfl hcalm

/-! ## from label to label -/

/-- the process has been told to shut down since it was started -/
def ShutDown : List Event → Prop
  | [] => False
  | e :: l => e ≠ .restarted ∧ (e.ShutsDown ∨ ShutDown l)

theorem shutDown_of_mem {e : Event} {l L : List Event} (hno : .restarted ∉ l) (he : e ∈ l)
    (hs : e.ShutsDown) : ShutDown (l ++ L) := by
  induction l with
  | nil => cases he
  | cons x l ih =>
    refine ⟨fun hx => hno (hx ▸ List.mem_cons_self), ?_⟩
    rcases List.mem_cons.mp he with rfl | he
    · exact .inl hs
    · exact .inr (ih (fun hm => hno (List.mem_cons_of_mem _ hm)) he)

/-- the runs of one process -/
def sameProcess : Mode
  | _, .restart _ _ _ => False
  | _, _ => True

theorem Sys.advance_shared (s : Sys) (t : Tid) (th : Thread) :
    (s.advance t th).shared = s.shared ∨
      ∃ op r, (s.advance t th).shared = s.shared.returned t op r := by
  unfold Sys.advance
  split
  · exact .inr ⟨_, _, rfl⟩
  · exact .inl rfl

theorem Sys.advance_proc (s : Sys) (t : Tid) (th : Thread) :
    (s.advance t th).shared.proc = s.shared.proc := by
  rcases s.advance_shared t th with h | ⟨op, r, h⟩ <;> rw [h]
  rfl

theorem Sys.advance_shutDown {th : Thread} (h : ShutDown (s.advance t th).shared.log) :
    ShutDown s.shared.log := by
  rcases s.advance_shared t th with hs | ⟨op, r, hs⟩ <;> rw [hs] at h
  · exact h
  · exact h.2.resolve_left id

/-- a label takes no flag back unless it stops the process -/
theorem Sys.next_flags {l : Label} (hl : sameProcess s l) (hn : s.next env l = some s') :
    FlagsKept s.shared.toWorld s'.shared.toWorld := by
  cases l with
  | start t op =>
    simp only [Sys.next] at hn
    split at hn
    · cases hn
      exact .of_proc (s.advance_proc t _)
    · cases hn
  | step t i =>
    simp only [Sys.next] at hn
    split at hn
    · cases hn
    · split at hn
      · cases hn
      · split at hn
        · cases hn
        · next he =>
          cases hn
          obtain ⟨⟨_, x⟩, hx, hw⟩ := Option.map_eq_some_iff.mp he
          cases hw
          have hkept := exec_flags hx
          constructor
          · rw [Sys.advance_proc]
            exact hkept.authorityLost
          · rw [Sys.advance_proc]
            exact hkept.shutdown
  | restart config bootId now => exact hl.elim

theorem Later.flags (h : Later env sameProcess s s') :
    FlagsKept s.shared.toWorld s'.shared.toWorld := by
  induction h with
  | refl => exact ⟨id, id⟩
  | next l _ hm hn ih =>
    have hnext := Sys.next_flags hm hn
    exact ⟨hnext.authorityLost ∘ ih.authorityLost, hnext.shutdown ∘ ih.shutdown⟩

/-- a process that has been told to shut down has its flag set -/
theorem Reach.shutdown (h : Reach env anyRun s) (hs : ShutDown s.shared.log) :
    s.shared.proc.shutdown = true := by
  induction h with
  | init => exact hs.elim
  | @next s s' l _ _ hn ih =>
    cases l with
    | start t op =>
      have hkept := Sys.next_flags (l := .start t op) trivial hn
      simp only [Sys.next] at hn
      split at hn
      · cases hn
        exact hkept.shutdown (ih (Sys.advance_shutDown hs))
      · cases hn
    | step t i =>
      have hkept := Sys.next_flags (l := .step t i) trivial hn
      simp only [Sys.next] at hn
      split at hn
      · cases hn
      · split at hn
        · cases hn
        · split at hn
          · cases hn
          · next he =>
            cases hn
            obtain ⟨⟨_, x⟩, hx, hw⟩ := Option.map_eq_some_iff.mp he
            cases hw
            rcases (Sys.advance_shutDown hs).2 with hev | hold
            · rw [Sys.advance_proc]
              unfold Event.ShutsDown at hev
              split at hev
              · next heq =>
                cases heq
                cases hx
                rfl
              · exact hev.elim
            · exact hkept.shutdown (ih hold)
    | restart config bootId now =>
      have hn : s.restart env config bootId now = some s' := hn
      unfold Sys.restart at hn
      split at hn
      · cases hn
      · split at hn
        · cases hn
        · cases hn
          exact absurd rfl hs.1

/-! ## the claim -/

/-- a section that is entered now is refused -/
def Refuses (env : Env) (w : Traced) : Prop :=
  ∀ (α : Type) (f : M α), ∃ k, (Coordinator.withInner f).run = .call .loadAuthorityLost k ∧
    ∀ t op i r w', w.exec env t op .loadAuthorityLost i = some (r, w') →
      k r = .ret (.error Coordinator.authorityLostError)

theorem refuses_of_lost {w : Traced} (h : w.proc.authorityLost = true) : Refuses env w := by
  intro α f
  refine ⟨_, rfl, ?_⟩
  intro t op i r w' he
  obtain ⟨⟨_, x⟩, hx, hw⟩ := Option.map_eq_some_iff.mp he
  cases hw
  cases hx
  rw [h]
  rfl

/-- the coordinator is fenced over attempt `a` of `X`, which recovery has to finish -/
structure Indeterminate (env : Env) (a X : Uuid) (s : Sys) : Prop where
  authorityLost : s.shared.proc.authorityLost = true
  shutdown : s.shared.proc.shutdown = true
  journal : ∃ j ∈ s.shared.store.journal, j.attemptId = a ∧ j.objectId = X ∧ j.phase.isOpen = true
  row : ∃ o, rowOf s.shared X = some o ∧ (o.lifecycleState = .reclaimPending ∨
    o.lifecycleState = .reclaimed ∧ ∃ e ∈ s.shared.log, e.Commits a X)
  refused : ∀ s', Later env sameProcess s s' → Refuses env s'.shared

/-- **A reclaim that fails after its plan has become durable leaves the coordinator fenced.** -/
theorem indeterminate_fenced {req : ReclaimRequest} {e : ReclaimError} {a : Uuid}
    {p : JournalPayload} {n : Int} {before : World} {l log : List Event}
    (h : Reach env anyRun s) (hret : s.shared.log = .returned t (.reclaim req) (.error e) :: log)
    (hstart : Since t (.reclaim req) (.store (.startJournalPhysical a p n)) (.ok ()) before l log)
    (hreach : ∀ x ∈ before.store.archives, x.objectId = req.objectId →
      (before.proc.config.archive x.backend).isSome = true) :
    Indeterminate env a req.objectId s := by
  obtain ⟨o, w₁, w₂, ho, hF, hs⟩ := Discipline.ended (sound Regime.free_collisionless)
    (admits env _) heedful h.free hret hstart ⟨rfl, hreach⟩
  have hF : Fenced a req.objectId o.log w₂ := hF
  have hlog : w₂.log = log := by
    rw [hs] at hret
    exact (List.cons.inj hret).2
  have hlost : s.shared.proc.authorityLost = true := by
    rw [hs]
    exact hF.lost
  constructor
  · exact hlost
  · -- the flag was raised after the step, and the process is still the same
    obtain ⟨l₁, hl₁, hno⟩ := hstart
    obtain ⟨l₂, hl₂, x, hx, hsd⟩ := hF.shutdown
    rw [hlog, hl₁, ho] at hl₂
    obtain rfl := List.append_cancel_right hl₂
    refine h.shutdown ?_
    rw [hret, hl₁]
    refine shutDown_of_mem (l := .returned t _ _ :: l₁) ?_ (List.mem_cons_of_mem _ hx) hsd
    intro hm
    rcases List.mem_cons.mp hm with hm | hm
    · cases hm
    · exact hno _ hm trivial
  · rw [hs]
    exact hF.journal
  · rw [hs]
    obtain ⟨row, hrow, hstate⟩ := hF.row
    refine ⟨row, hrow, hstate.imp id ?_⟩
    rintro ⟨hr, x, hx, hc⟩
    exact ⟨hr, x, List.mem_cons_of_mem _ hx, hc⟩
  · exact fun s' hlater => refuses_of_lost (hlater.flags.authorityLost hlost)

end

/-! ## two failures -/

namespace Sample

/-- the plan that thread 1 has made durable inside its reclaim -/
def durablePlan (req : ReclaimRequest) :
    List Event → Option (Uuid × JournalPayload × Int × World × List Event)
  | .call u (.reclaim req') (.store (.startJournalPhysical a p n)) (.ok _) before :: l =>
    if u = 1 ∧ req'.objectId = req.objectId ∧ req'.actor = req.actor ∧ req'.force = req.force then
      some (a, p, n, before, l)
    else none
  | .call _ _ _ _ _ :: l => durablePlan req l
  | _ => none

theorem since_durablePlan {req : ReclaimRequest} {a : Uuid} {p : JournalPayload} {n : Int}
    {before : World} {l log : List Event} (h : durablePlan req log = some (a, p, n, before, l)) :
    Since 1 (.reclaim req) (.store (.startJournalPhysical a p n)) (.ok ()) before l log := by
  induction log with
  | nil => cases h
  | cons e log ih =>
    unfold durablePlan at h
    split at h
    · next u req' a' p' n' r before' l' heq =>
      obtain ⟨rfl, rfl⟩ := List.cons.inj heq
      split at h
      · next hc =>
        obtain ⟨rfl, ho, ha, hf⟩ := hc
        cases h
        obtain ⟨id, actor, force⟩ := req
        obtain ⟨id', actor', force'⟩ := req'
        cases ho
        cases ha
        cases hf
        exact ⟨[], rfl, fun _ hx => absurd hx List.not_mem_nil⟩
      · cases h
    · next heq =>
      obtain ⟨rfl, rfl⟩ := List.cons.inj heq
      obtain ⟨l₁, hl, hno⟩ := ih h
      refine ⟨_ :: l₁, congrArg (List.cons _) hl, fun x hx => ?_⟩
      rcases List.mem_cons.mp hx with rfl | hx
      · exact id
      · exact hno x hx
    · cases h

/-- the reclaim of thread 1 that has just failed after its plan had become durable -/
def failedReclaim (s : Sys) : Option (ReclaimRequest × Uuid × World) :=
  match s.shared.log with
  | .returned u (.reclaim req) (.error _) :: log =>
    if u = 1 then (durablePlan req log).map fun d => (req, d.1, d.2.2.2.1) else none
  | _ => none

theorem failedReclaim_log {s : Sys} {req : ReclaimRequest} {a : Uuid} {before : World}
    (h : failedReclaim s = some (req, a, before)) : ∃ e p n l log,
      s.shared.log = .returned 1 (.reclaim req) (.error e) :: log ∧
        Since 1 (.reclaim req) (.store (.startJournalPhysical a p n)) (.ok ()) before l log := by
  unfold failedReclaim at h
  split at h
  · next u req' e log heq =>
    split at h
    · next hu =>
      subst hu
      obtain ⟨⟨a', p, n, before', l⟩, hd, hx⟩ := Option.map_eq_some_iff.mp h
      cases hx
      exact ⟨e, p, n, l, log, heq, since_durablePlan hd⟩
    · cases h
  · cases h

/-- the archive backend of every archive row is configured -/
def reachable (w : World) : Bool :=
  w.store.archives.rows.all fun x => (w.proc.config.archive x.backend).isSome

/-- an object with a copy in the vault -/
def vaulted : Option Sys :=
  after free (after free (opened free) (register (object 10) "a") 200)
    (.archive (uuid 10) "client") 300

theorem reached_vaulted : Reached anyRun vaulted :=
  ((reached_opened free_ok trivial).after free_ok).after free_ok

/-- the vault is configured and refuses the deletion -/
def refusedDeletion : Option Sys :=
  vaulted.bind fun s => s.call? env free 1 (reclaim 10) (failing 205 600)

/-- the coordinator has been started again without the vault -/
def withoutVault : Option Sys :=
  (vaulted.bind fun s => s.open? env free { config with archives := [] } (uuid 2) 20000
    (calm 600)).bind fun s => s.call? env free 1 (reclaim 10) (calm 700)

theorem refusedDeletion_eq : (refusedDeletion.bind fun s => (failedReclaim s).map fun f =>
    (f.1.objectId, reachable f.2.2)) = some (uuid 10, true) := by decide +kernel

theorem withoutVault_eq : (withoutVault.bind fun s => (failedReclaim s).map fun _ =>
    s.shared.proc.authorityLost) = some false := by decide +kernel

end Sample

/-- the deletion of the archived copy fails and the coordinator is fenced -/
theorem indeterminate_fenced_refused : ∃ s a, Reach Sample.env anyRun s ∧
    Indeterminate Sample.env a (Sample.uuid 10) s := by
  obtain ⟨s, hs, h⟩ := Option.bind_eq_some_iff.mp Sample.refusedDeletion_eq
  obtain ⟨⟨req, a, before⟩, hf, h⟩ := Option.map_eq_some_iff.mp h
  obtain ⟨hid, hreach⟩ := Prod.mk.inj h
  obtain ⟨s₀, hs₀, hcall⟩ := Option.bind_eq_some_iff.mp hs
  have hr := (Sample.reached_vaulted s₀ hs₀).call? Sample.free_ok hcall
  obtain ⟨e, p, n, l, log, hret, hstart⟩ := Sample.failedReclaim_log hf
  refine ⟨s, a, hr, ?_⟩
  rw [← hid]
  exact indeterminate_fenced hr hret hstart fun x hx _ => List.all_eq_true.mp hreach x hx

/-- the vault is not configured any more: reclaim fails and the coordinator stays in service -/
theorem missing_archive_unfenced : ¬∀ (env : Env) (s : Sys) (t : Tid) (req : ReclaimRequest)
    (e : ReclaimError) (a : Uuid) (p : JournalPayload) (n : Int) (before : World)
    (l log : List Event), Reach env anyRun s →
    s.shared.log = .returned t (.reclaim req) (.error e) :: log →
    Since t (.reclaim req) (.store (.startJournalPhysical a p n)) (.ok ()) before l log →
    Indeterminate env a req.objectId s := by
  intro h
  obtain ⟨s, hs, hx⟩ := Option.bind_eq_some_iff.mp Sample.withoutVault_eq
  obtain ⟨⟨req, a, before⟩, hf, hlost⟩ := Option.map_eq_some_iff.mp hx
  obtain ⟨s₁, hs₁, hcall⟩ := Option.bind_eq_some_iff.mp hs
  obtain ⟨s₀, hs₀, hopen⟩ := Option.bind_eq_some_iff.mp hs₁
  have hr := ((Sample.reached_vaulted s₀ hs₀).open? Sample.free_ok trivial hopen).call?
    Sample.free_ok hcall
  obtain ⟨e, p, n, l, log, hret, hstart⟩ := Sample.failedReclaim_log hf
  have hfenced := h Sample.env s 1 req e a p n before l log hr hret hstart
  rw [hfenced.authorityLost] at hlost
  cases hlost

end ReclaimFabric
