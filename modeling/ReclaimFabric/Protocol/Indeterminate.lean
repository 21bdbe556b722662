import ReclaimFabric.Protocol.Survey

/-!
# Reclaim from its durable plan on

How `Coordinator::reclaim` may end depends on whether its plan has become durable, so the walk
through it is made once more, from that step on.

* `Unstarted`          programs in which no plan becomes durable;
* `PlanDurable`        the plan of an attempt becomes durable while its archives can be reached;
* `ends_withObject`    an operation that holds one object, from such a step on;
* `ends_reclaim`       from that step on, reclaim ends with a report or `Fenced`.
-/

set_option linter.unusedSectionVars false

namespace ReclaimFabric

open Party (Triple Watched)
open Prog (Only)

/-! ## programs in which no plan becomes durable -/

def Cmd.starts : Cmd → Bool
  | .store (.startJournalPhysical _ _ _) => true
  | _ => false

abbrev Unstarted {α : Type} (x : M α) : Prop := Only (fun c => Cmd.starts c = false) x.run

theorem starts_of_restful {c : Cmd} (hc : c.restful = true) : c.starts = false := by
  cases c with
  | store so => cases so <;> first | rfl | cases hc
  | _ => rfl

section
variable {α : Type} {x : M α}

theorem Restful.unstarted (h : Restful x) : Unstarted x := h.mono fun _ => starts_of_restful

theorem unstarted_call {c : Cmd} {k : c.Reply → Res α} (hc : c.starts = false) :
    Unstarted (ExceptT.mk (.call c fun r => .ret (k r)) : M α) := .call hc fun _ => .ret _

theorem unstarted_ask {c : Cmd} (hc : c.starts = false) : Unstarted (Coordinator.ask c) :=
  unstarted_call (k := fun r => .ok r) hc

theorem unstarted_store {so : StoreOp} (hc : (Cmd.store so).starts = false) :
    Unstarted (Coordinator.store so) := unstarted_call (c := .store so) (k := fun r => r) hc

theorem unstarted_withInner (h : Unstarted x) : Unstarted (Coordinator.withInner x) :=
  only_withInner (fun _ => starts_of_restful) h

theorem unstarted_inner {so : StoreOp} (hc : (Cmd.store so).starts = false) :
    Unstarted (Coordinator.inner so) := unstarted_withInner (unstarted_store hc)

/-- `if c { return Err(e) }` and the rest -/
theorem unstarted_refuse {c : Prop} [Decidable c] {e : ReclaimError} {f : Unit → M α}
    (h : Unstarted (f ())) : Unstarted (if c then (throw e : M Unit) >>= f else f ()) :=
  only_ite (only_bind only_throw fun _ => h) h

/-- a section that reads the clock -/
theorem unstarted_stamped {f : Int → M α} (h : ∀ n, Unstarted (f n)) :
    Unstarted (Coordinator.withInner (Coordinator.nowMs >>= f)) :=
  unstarted_withInner (only_bind (unstarted_ask rfl) h)

end

section
variable {env : Env} {report : ReclaimReport} {o : ReclaimObject} {actor : String}

theorem unstarted_plan {id : Uuid} : Unstarted (Coordinator.plan id actor) := by
  refine only_bind (unstarted_inner rfl) fun o => only_bind ?_ fun _ => ?_
  · refine only_bind (unstarted_inner rfl) fun _ => only_bind (unstarted_inner rfl) fun _ => ?_
    exact only_bind (unstarted_inner rfl) fun _ => only_bind (unstarted_inner rfl) fun _ => only_pure
  refine only_bind (unstarted_withInner only_pure) fun _ => only_bind (unstarted_ask rfl) fun _ => ?_
  refine only_bind (unstarted_withInner only_pure) fun _ => only_bind (unstarted_call rfl) fun d => ?_
  refine only_bind (unstarted_withInner ?_) fun _ => only_pure
  exact only_bind (unstarted_store rfl) fun _ => unstarted_store rfl

theorem unstarted_checkSurvivability {rs : List Replica} {n : Nat} :
    Unstarted (Coordinator.checkSurvivability o rs n) := by
  refine only_bind ?_ fun _ => only_ite only_throw only_pure
  refine only_bind (unstarted_inner rfl) fun _ => ?_
  exact only_bind (unstarted_inner rfl) fun _ => only_pure

theorem unstarted_checkDependencies : Unstarted (Coordinator.checkDependencies o) :=
  only_bind (unstarted_inner rfl) fun _ => only_bind (unstarted_inner rfl) fun _ => only_settle

theorem unstarted_reserve {payload : JournalPayload} {now : Int} :
    Unstarted (Coordinator.reserve report o payload now) := by
  refine only_bind (unstarted_withInner ?_) fun _ => unstarted_refuse ?_
  · exact only_bind restful_config.unstarted fun _ => only_pure
  · exact unstarted_withInner (unstarted_store rfl)

theorem unstarted_applyTransition {s : LifecycleState} {action : String} {policy : Option String}
    {attempt : Option Uuid} :
    Unstarted (Coordinator.applyTransition o s actor action policy attempt) := by
  refine only_bind only_settle fun r => ?_
  cases r with
  | noop => exact only_pure
  | allowed => exact only_bind (unstarted_stamped fun _ => unstarted_store rfl) fun _ => only_pure

theorem unstarted_enterPending : Unstarted (Coordinator.enterPending report actor o) := by
  refine only_ite only_pure (only_ite ?_ unstarted_applyTransition)
  exact only_bind unstarted_applyTransition fun _ => unstarted_applyTransition

theorem unstarted_abortReclaim {reason : ReclaimError} :
    Unstarted (Coordinator.abortReclaim report o reason) := by
  refine only_bind (unstarted_ask rfl) fun now => unstarted_withInner ?_
  refine only_bind (unstarted_store rfl) fun _ => only_bind (unstarted_store rfl) fun _ => ?_
  exact only_bind (unstarted_store rfl) fun _ => unstarted_store rfl

theorem unstarted_orAbort {α : Type} {x : M α} (hx : Unstarted x) :
    Unstarted (Coordinator.orAbort report o x) := by
  refine only_bind (only_attempt hx) fun r => ?_
  cases r with
  | ok a => exact only_pure
  | error e => exact only_bind unstarted_abortReclaim fun _ => only_throw

theorem unstarted_planScheduled {ss : List Coordinator.Scheduled} {physical : List Replica} :
    Unstarted (Coordinator.planScheduled ss physical) := by
  induction ss generalizing physical with
  | nil => exact only_pure
  | cons s ss ih =>
    refine only_bind (unstarted_store rfl) fun entry => ?_
    cases entry with
    | none => exact only_throw
    | some e => exact unstarted_refuse (unstarted_refuse (only_ite ih ih))

theorem unstarted_physicalPlan {rs : List Replica} :
    Unstarted (Coordinator.physicalPlan env rs) := by
  refine unstarted_withInner (only_bind only_settle fun p => ?_)
  refine only_bind ?_ fun ss => unstarted_planScheduled
  exact only_bind (unstarted_ask rfl) fun _ => only_pure

/-! ## the physical phase -/

theorem unstarted_indeterminateReclaim {reason : ReclaimError} {kind : String} :
    Unstarted (Coordinator.indeterminateReclaim report reason kind) := by
  refine only_bind (only_attempt (unstarted_stamped fun _ => unstarted_store rfl)) fun r => ?_
  refine only_bind (unstarted_ask rfl) fun _ => only_bind (unstarted_ask rfl) fun _ => ?_
  cases r with
  | ok _ => exact only_pure
  | error e => exact only_pure

theorem unstarted_orIndeterminate {α : Type} {kind : String} {x : M α} (hx : Unstarted x) :
    Unstarted (Coordinator.orIndeterminate report kind x) := by
  refine only_bind (only_attempt hx) fun r => ?_
  cases r with
  | ok a => exact only_pure
  | error e => exact only_bind unstarted_indeterminateReclaim fun _ => only_throw

theorem unstarted_deletePayload {b k : String} : Unstarted (Coordinator.deletePayload b k) := by
  refine only_bind (restful_nodeForBackend b).unstarted fun n => ?_
  cases n with
  | none => exact only_bind (restful_lookupBackend b).unstarted fun _ => unstarted_call rfl
  | some n =>
    refine only_bind (only_bind ?_ fun _ => unstarted_call rfl) fun _ => only_ite only_throw only_pure
    exact unstarted_withInner (only_bind restful_config.unstarted fun _ =>
      only_ite only_pure only_throw)

theorem unstarted_deletePlanned {rs : List Replica} {deleted : List Uuid} :
    Unstarted (Coordinator.deletePlanned report rs deleted) := by
  induction rs generalizing deleted with
  | nil => exact only_pure
  | cons r rs ih =>
    exact only_bind (unstarted_orIndeterminate unstarted_deletePayload) fun _ => ih

theorem unstarted_deleteArchives {as : List ArchiveRecord} {deleted : List String} :
    Unstarted (Coordinator.deleteArchives report as deleted) := by
  induction as generalizing deleted with
  | nil => exact only_pure
  | cons a as ih =>
    refine only_bind restful_lookupArchive.unstarted fun info => ?_
    exact only_bind (unstarted_orIndeterminate (unstarted_call rfl)) fun _ => ih

theorem unstarted_verifyGone {rs : List Replica} :
    Unstarted (Coordinator.verifyGone report rs) := by
  induction rs with
  | nil => exact only_pure
  | cons r rs ih =>
    refine only_bind (unstarted_orIndeterminate (restful_payloadExists _ _).unstarted) fun _ => ?_
    refine only_ite (only_bind unstarted_indeterminateReclaim fun _ => ?_) ih
    exact only_bind only_throw fun _ => ih

theorem unstarted_releaseScheduled {rs : List Replica} :
    Unstarted (Coordinator.releaseScheduled env rs) := by
  induction rs with
  | nil => exact only_pure
  | cons r rs ih =>
    refine only_bind (unstarted_store rfl) fun _ => only_ite ?_ ih
    exact only_bind (unstarted_store rfl) fun _ => ih

theorem unstarted_deleteArchiveRows {as : List ArchiveRecord} :
    Unstarted (Coordinator.deleteArchiveRows as) := by
  induction as with
  | nil => exact only_pure
  | cons a as ih => exact only_bind (unstarted_store rfl) fun _ => ih

theorem unstarted_commitSection {rs : List Replica} {as : List ArchiveRecord} {deleted : List Uuid}
    {deletedArchives : List String} :
    Unstarted (Coordinator.commitSection env report actor o rs as deleted deletedArchives) := by
  refine only_bind unstarted_releaseScheduled fun _ => ?_
  refine only_bind unstarted_deleteArchiveRows fun _ => only_bind (unstarted_ask rfl) fun _ => ?_
  refine only_bind (unstarted_store rfl) fun _ => only_bind (unstarted_store rfl) fun _ => ?_
  refine only_bind (unstarted_ask rfl) fun _ => only_bind (unstarted_store rfl) fun _ => ?_
  exact only_bind (unstarted_ask rfl) fun _ => unstarted_store rfl

theorem unstarted_executePhysical {rs : List Replica} {as : List ArchiveRecord}
    {plan : List Replica} :
    Unstarted (Coordinator.executePhysical env report actor o rs as plan) := by
  refine only_bind unstarted_deletePlanned fun _ => only_bind unstarted_deleteArchives fun _ => ?_
  refine only_bind unstarted_verifyGone fun _ => ?_
  refine only_bind (unstarted_orIndeterminate (unstarted_stamped fun _ => unstarted_store rfl)) fun _ => ?_
  refine only_bind (unstarted_orIndeterminate ?_) fun _ => only_pure
  exact unstarted_withInner unstarted_commitSection

end

/-! ## the durable plan -/

/-- the plan of attempt `a` becomes durable while the archives of its object can be reached -/
def PlanDurable (a : Uuid) : Tid → Op → (c : Cmd) → c.Reply → Traced → Prop
  | _, .reclaim req, .store (.startJournalPhysical id _ _), .ok _, w =>
    id = a ∧ ∀ x ∈ w.store.archives, x.objectId = req.objectId →
      (w.proc.config.archive x.backend).isSome = true
  | _, _, _, _, _ => False

variable {env : Env} {m : Regime} {b : Bool} {t : Tid} {op : Op} {X a : Uuid} {k : Task}
  {w w' : Traced} {l : Bool} {req : ReclaimRequest} {L : List Event}

theorem unwatched_of_starts {c : Cmd} (hc : c.starts = false) :
    Unwatched (PlanDurable a t op) c := by
  intro r w h
  unfold PlanDurable at h
  split at h
  · cases hc
  · exact h

theorem Unstarted.unwatched {α : Type} {x : M α} (h : Unstarted x) :
    Only (Unwatched (PlanDurable a t op)) x.run := h.mono fun _ => unwatched_of_starts

/-- the archives that were to be deleted could be reached -/
theorem Stopped.met {ks : List (String × ContentHash)} {archs : List ArchiveRecord}
    (h : Stopped m t X ks a archs L w)
    (harchs : ∀ x ∈ archs, (w.proc.config.archive x.backend).isSome = true) :
    Stopped m t X ks a [] L w := ⟨h.bail, fun _ => h.fenced harchs⟩

/-- a store call leaves the process alone -/
theorem exec_store_proc {so : StoreOp} {i : Input} {w x : World} {r : (Cmd.store so).Reply}
    (h : exec env t (.store so) i w = some (r, x)) : x.proc = w.proc := by
  have hx : (execStore so i w).2 = x := congrArg Prod.snd (Option.some.inj h)
  rw [← hx, execStore]
  split
  · rfl
  · split <;> rfl

namespace Working

/-- the step itself: the plan becomes durable -/
theorem ends_startPhysical {plan : List Replica} {now : Int} (hreq : req.objectId = X)
    (hph : k.phase = .validated) (hplan : k.plan = none) (hst : k.state = .reclaimPending)
    (hsub : ∀ r ∈ plan, r ∈ k.snap.dels) (hnodup : (plan.map Replica.replicaId).Nodup)
    (harchs : k.archs = k.snap.archs) :
    (party env m b t (.reclaim req)).Watched (PlanDurable a t (.reclaim req))
      (Working env m t X k)
      (Coordinator.store (.startJournalPhysical k.attemptId (payloadOf k.snap (some plan)) now))
      (fun o _ w => k.attemptId = a ∧
        Afoot env m t X { k with phase := .physicalStarted, plan := some plan } o.log w ∧
        ∀ x ∈ k.snap.archs, (w.proc.config.archive x.backend).isSome = true)
      (fun _ _ _ => False) := by
  refine Watched.call (c := .store _) (k := fun r => r) firm ?_
  intro w i r x hw hi ha hx hS
  have hafter := Triple.step rfl (fun w => Keep.refl w)
    (startPhysical (l := false) hreq hph hplan hst hsub hnodup harchs) hw hi ha hx
  cases r with
  | error e => exact hS.elim
  | ok _ =>
    obtain ⟨hid, hreach⟩ := hS
    refine ⟨hid, ⟨hafter, rfl, .inl hst, [], rfl⟩, fun y hy => ?_⟩
    show (x.proc.config.archive y.backend).isSome = true
    rw [exec_store_proc hx]
    refine hreach y (hw.stock.archived y ?_) ?_
    · rw [harchs]
      exact hy
    · exact (hw.ok.archKeys y hy).1.trans hreq.symm

theorem ends_executeReclaim {report : ReclaimReport} {actor : String}
    (hreq : req.objectId = X) (ha : report.attemptId = k.attemptId)
    (hr : report.reservationId = k.reservationId) (hres : k.reserved = true)
    (hatt : k.attempted = true) (hplan : k.plan = none) (hst : k.state = .reclaimPending)
    (hph : k.phase = .validated) (hsafe : k.safe = true) (hreps : k.reps = k.snap.dels)
    (harchs : k.archs = k.snap.archs) (hslots : ∀ d ∈ k.snap.dels, d.slot ∈ k.keys) :
    (party env m b t (.reclaim req)).Watched (PlanDurable a t (.reclaim req))
      (Guarded env m t X k)
      (Coordinator.executeReclaim env report actor k.snap.prior k.row k.snap.dels k.snap.archs
        (payloadOf k.snap none))
      (fun _ _ => Resolved m t X k.keys) (fun o _ => Stopped m t X k.keys a [] o.log) := by
  have hphys : k.phase.physical = false := by rw [hph]; rfl
  have hs : k.state ≠ .reclaimed := by rw [hst]; simp
  refine Watched.skip rfl unstarted_physicalPlan.unwatched
    (physicalPlan hslots hreps hres hatt hphys hs) fun plan => Watched.of_pure ?_
  rintro ⟨hsub, hnodup⟩
  refine Watched.skip rfl (l := false) only_settle (withDeletions hsub hnodup) fun p =>
    Watched.of_pure fun hp => ?_
  subst hp
  -- the step is the last one of its section, so nothing can fail between it and the deletions
  refine Watched.within rfl (l := false) (G := fun o _ w => k.attemptId = a ∧
      Afoot env m t X { k with phase := .physicalStarted, plan := some plan } o.log w ∧
      ∀ x ∈ k.snap.archs, (w.proc.config.archive x.backend).isSome = true)
    (H := fun _ _ _ => False) ?_ ?_ (fun _ _ _ h => h.elim)
    fun _ => unstarted_executePhysical.unwatched
  · refine Watched.attempted rfl (l := false) (H := fun _ _ _ => False) ?_
      (fun o _ => Triple.pure fun _ h => h) (fun _ _ _ h => h.elim) fun r => ?_
    · have hfirm (o : Traced) : (party env m b t (.reclaim req)).Firm fun w => k.attemptId = a ∧
          Afoot env m t X { k with phase := .physicalStarted, plan := some plan } o.log w ∧
          ∀ x ∈ k.snap.archs, (w.proc.config.archive x.backend).isSome = true :=
        (Stable.and (Stable.const _) (Stable.and Afoot.stable fun _ _ hk h => by
          rw [hk.config]
          exact h)).firm
      refine Watched.withInner rfl (fun _ hc => unwatched_of_starts (starts_of_restful hc)) firm
        (fun o _ => hfirm o) (fun _ _ => .const False) ?_
      refine Watched.skip rfl (l := true) (unstarted_ask rfl).unwatched
        (Triple.nowMs (E := fun _ _ => False) firm) fun now => ?_
      rw [ha]
      exact ends_startPhysical hreq hph hplan hst hsub hnodup harchs
    · cases r with
      | ok _ => exact only_pure
      | error e => exact only_bind unstarted_abortReclaim.unwatched fun _ => only_throw
  · intro o _
    refine Triple.of_pure fun hid => ?_
    subst hid
    refine (Triple.frame (fun _ _ hk h => ?_) (fun _ _ hg h => ?_) (executePhysical
      (k := { k with phase := .physicalStarted, plan := some plan }) (L := o.log) ha hr hres hatt
      rfl hsub hst rfl hsafe hreps harchs hslots)).post (fun _ _ h => h.1) fun _ _ h => h.1.met h.2
    · rw [hk.config]
      exact h
    · rw [hg.config]
      exact h

end Working

theorem ends_reclaimReserved {report : ReclaimReport} {actor : String} {S : Snapshot}
    (hreq : req.objectId = X) (hid : S.prior.id = X)
    (hroute : Coordinator.preflight S.prior = .ok ()) :
    (party env m true t (.reclaim req)).Watched (PlanDurable a t (.reclaim req))
      (Working env m t X (.fresh report.attemptId report.reservationId S))
      (Coordinator.reclaimReserved env report actor S.prior S.dels S.archs (payloadOf S none))
      (fun _ _ => Resolved m t X []) (fun o _ => Stopped m t X [] a [] o.log) := by
  refine Watched.skip rfl unstarted_enterPending.unwatched
    (Working.enterPending rfl rfl rfl hroute) fun current => Watched.of_pure fun hcurrent => ?_
  subst hcurrent
  refine Watched.skip rfl (Unstarted.unwatched (unstarted_stamped fun _ => unstarted_store rfl))
    (Working.validated rfl rfl) fun _ => ?_
  refine Watched.skip rfl (unstarted_orAbort unstarted_checkSurvivability).unwatched
    (Working.orAbort rfl rfl rfl rfl rfl rfl rfl (by simp) Working.checkSurvivability) fun _ => ?_
  refine Watched.skip rfl (unstarted_orAbort unstarted_checkDependencies).unwatched
    (Working.orAbort rfl rfl rfl rfl rfl rfl rfl (by simp) (Working.checkDependencies hid rfl))
    fun _ => ?_
  refine Watched.skip rfl
    (unstarted_orAbort (Restful.unstarted (restful_beginPayloadOperations _))).unwatched
    (Working.orAbort rfl rfl rfl rfl rfl rfl rfl (by simp) (Working.acquireKeys hreq rfl rfl rfl))
    fun _ => ?_
  refine Watched.holding rfl (unwatched_of_starts rfl) (fun _ _ => Resolved.stable.firm)
    (fun _ _ => Stopped.firm)
    (Working.ends_executeReclaim hreq rfl rfl rfl rfl rfl rfl rfl rfl rfl rfl ?_) ?_ ?_
  · intro d hd
    exact mem_sortKeys.mpr (List.mem_map_of_mem hd)
  · intro o _ w hw hi
    exact ⟨hw.bail.dropKeys _ hi, hw.dropped _ _⟩
  · intro o _ w hw hi
    refine ⟨hw.bail.dropKeys _ hi, hw.bail.dropped _ _, fun harchs => ?_⟩
    exact (hw.fenced harchs).congr id ⟨[_], rfl⟩ rfl fun _ hj _ => hj

/-! ## the operation -/

/-! ## the operations -/

/-- an operation that holds one object, from a step of its body on -/
theorem heeds_withObject {body : M op.Out} {S : Tid → Op → (c : Cmd) → c.Reply → Traced → Prop}
    {F : Tid → (op : Op) → Traced → Res op.Out → Traced → Traced → Prop}
    {Q : Traced → op.Out → Traced → Prop} {E : Traced → ReclaimError → Traced → Prop}
    (hprog : op.prog env = Coordinator.withObject X body)
    (hS : ∀ c, c.restful = true → Unwatched (S t op) c)
    (hQ : ∀ o a, Stable env m t (Q o a)) (hE : ∀ o e, Stable env m t (E o e))
    (hbody : (party env m true t op).Watched (S t op) (Ready m t X) body Q E)
    (hF : ∀ o r w w₁, F t op o r w₁ w₁ → F t op o r w w₁)
    (hlast : ∀ o r w, outcome (Q o) (E o) r w → F t op o r w
      ((party env m true t op).after (.removeActiveObject X) () w (w.setProc { w.proc with
        activeObjects := w.proc.activeObjects.filter (fun e => decide (e.1 ≠ X)) })))
    (hidle : Idle t w) : (discipline env m).Heeds S F true t op (op.prog env) w := by
  have hrest {α : Type} {x : M α} (hx : Restful x) : Only (Unwatched (S t op)) x.run := hx.mono hS
  unfold Discipline.Heeds
  rw [hprog]
  refine watched_skip (hrest (restful_beginObjectOperation X)) (begin_ready.run rfl hidle) ?_
  intro r₀ w₀ h₀
  cases r₀ with
  | error e => exact watched_only (.ret _)
  | ok _ =>
    refine watched_within (K := fun q o => wp (party env m true t op).agent q
      (fun r w => ∃ r', r = .ok r' ∧ outcome (Q o) (E o) r' w) o)
      (watched_within (hbody w₀ h₀) ?_ fun _ => .ret _) ?_ ?_
    · intro q o hq
      rw [wp_bind]
      exact wp_mono hq fun r w hr => ⟨r, rfl, hr⟩
    · intro q o hq
      refine wpF_bind (fun r w₁ w₂ _ h => hF o r w₁ w₂ h) (wp_mono hq ?_)
      rintro _ w₁ ⟨r, rfl, hr⟩
      -- the object is dropped and the operation returns
      refine wpF_call ?_
      intro w₂ hk _ i _
      refine ⟨fun _ => rfl, ?_⟩
      intro _ w₃ he
      have hr₂ : outcome (Q o) (E o) r w₂ := by
        cases r with
        | ok a => exact hQ o a w₁ w₂ hk hr
        | error e => exact hE o e w₁ w₂ hk hr
      have he : (exec env t (.removeActiveObject X) i w₂.toWorld).map _ = some _ := he
      simp only [exec] at he
      split at he
      · cases he
        refine ⟨?_, fun hf => by cases hf⟩
        rintro _ ⟨⟩
        exact hlast o r w₂ hr₂
      · cases he
    · intro r
      cases r with
      | error e => exact .ret _
      | ok r => exact only_bind (hrest (restful_ask rfl)) fun _ => only_settle

/-- what a reclaim whose plan has become durable leaves behind when it fails -/
def FencedReturn (a : Uuid) : Tid → (op : Op) → Traced → Res op.Out → Traced → Traced → Prop
  | _, .reclaim req, o, .error _, _, w => Fenced a req.objectId o.log w
  | _, _, _, _, _, _ => True

theorem heeds_reclaim (hidle : Idle t w) :
    (discipline env m).Heeds (PlanDurable a) (FencedReturn a) true t (.reclaim req)
      (Op.prog env (.reclaim req)) w := by
  refine heeds_withObject (X := req.objectId) (Q := fun _ _ _ => True)
    (E := fun o _ => Stopped m t req.objectId [] a [] o.log) rfl
    (fun _ hc => unwatched_of_starts (starts_of_restful hc)) (fun _ _ => .const True)
    (fun _ _ => Stopped.stable) ?_ ?_ ?_ hidle
  · have hfound (o : ReclaimObject) (w : Traced) (h : Found m t req.objectId o w) :
        Ready m t req.objectId w := h.ready
    have hready (o : ReclaimObject) (w : Traced) (h : Surveyed m t req.objectId o w) :
        Ready m t req.objectId w := h.found.ready
    refine Watched.skip rfl (unstarted_ask rfl).unwatched
      (Triple.nowMs (l := false) (E := fun _ _ => False) stable_ready.firm) fun now => ?_
    refine Watched.skip rfl (Unstarted.unwatched (unstarted_inner rfl)) requireObject fun o =>
      Watched.of_pure ?_
    rintro ⟨hid, hrow⟩
    -- the refusals that read the row
    refine Watched.skip rfl only_settle (l := false) (R := fun _ w =>
      Coordinator.reclaimChecks o = .ok () ∧ Found m t req.objectId o w)
      (Triple.settle (fun _ hok w hw => ⟨hok, hw⟩) fun _ _ => hfound o) fun _ =>
      Watched.of_pure fun hchecks => ?_
    obtain ⟨hpin, hprot, hnr, hnf⟩ := reclaimChecks_ok hchecks
    rw [hid]
    refine Watched.skip rfl (Unstarted.unwatched (unstarted_inner rfl)) noReservation fun busy => ?_
    refine Watched.refuse fun hb => ?_
    refine Watched.pre ?_ fun w hw => hw.2 (by simpa using hb)
    refine Watched.skip rfl only_settle (l := false) (R := fun _ w =>
      Coordinator.checkDeadline o now = .ok () ∧ Surveyed m t req.objectId o w)
      (Triple.settle (fun _ hok w hw => ⟨hok, hw⟩) fun _ _ => hready o) fun _ =>
      Watched.of_pure fun hdeadline => ?_
    refine Watched.skip rfl unstarted_plan.unwatched (planCalm stable_surveyed.firm)
      fun decision => ?_
    refine Watched.skip rfl (unstarted_ask rfl).unwatched
      (Triple.ask (l := false) (E := fun _ _ => False) rfl stable_surveyed.firm) fun attemptId => ?_
    refine Watched.skip rfl (unstarted_ask rfl).unwatched
      (Triple.ask (l := false) (E := fun _ _ => False) rfl stable_surveyed.firm) fun reservationId => ?_
    refine Watched.ite (fun _ => Watched.only only_pure) fun _ => ?_
    -- the rows that would go
    refine Watched.skip rfl (Unstarted.unwatched (unstarted_inner rfl)) listReplicas fun rs => ?_
    refine Watched.skip rfl (Unstarted.unwatched (unstarted_inner rfl)) listArchives fun as => ?_
    refine Watched.skip rfl unstarted_checkSurvivability.unwatched (survivability hid) fun _ =>
      Watched.of_pure fun hcopies => ?_
    refine Watched.skip rfl only_settle (l := false) (R := fun _ w =>
      Coordinator.preflight o = .ok () ∧ Listed env m t req.objectId o rs as w)
      (Triple.settle (fun _ hok w hw => ⟨hok, hw⟩) fun _ _ w hw => hw.1.1.found.ready) fun _ =>
      Watched.of_pure fun hroute => ?_
    have hprior : PriorOk o now :=
      ⟨hrow, hpin, hprot, hnr, hnf, checkDeadline_ok hdeadline, hcopies, hroute⟩
    refine Watched.skip rfl unstarted_reserve.unwatched (reserve hid hprior) fun _ => ?_
    exact Watched.weaken (ends_reclaimReserved (S := ⟨o, rs, as⟩) rfl hid hroute)
      (fun _ _ _ _ => trivial) fun _ _ _ h => h
  · intro o r w w₁ h
    cases r with
    | ok _ => trivial
    | error e => exact h
  · intro o r w h
    cases r with
    | ok _ => trivial
    | error e =>
      have hf := h.fenced fun _ hx => absurd hx List.not_mem_nil
      exact hf.congr id ⟨[_], rfl⟩ rfl fun _ hj _ => hj

theorem heedful : (discipline env m).Heedful (PlanDurable a) (FencedReturn a) where
  start := by
    intro t w op _ hidle
    cases op with
    | reclaim req => exact heeds_reclaim hidle
    | _ => exact watched_none fun _ _ _ h => h
  opening := fun _ _ => watched_none fun _ _ _ h => h

end ReclaimFabric
