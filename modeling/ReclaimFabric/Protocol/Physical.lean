import ReclaimFabric.Logic.Watch
import ReclaimFabric.Protocol.Reclaim

/-!
# The physical phase of a reclaim

From the durable plan to the end of `Coordinator::reclaim`: payloads and blobs are deleted, their
absence is verified, and the ownership metadata and the object row are written.

* `Fenced`            the coordinator is stopped over an attempt whose journal is open;
* `Stopped`           the way out of the physical phase: fenced, unless an archive backend is missing;
* `Course`, `Afoot`   how far the attempt has come since the record was `L`;
* `executePhysical`   every failure is a `Stopped` one.
-/

set_option linter.unusedSectionVars false

namespace ReclaimFabric

open Party (Triple)

variable {env : Env} {m : Regime} {b : Bool} {t : Tid} {op : Op} {X a : Uuid} {k k' : Task}
  {w w' : Traced} {l : Bool} {req : ReclaimRequest} {L : List Event}

/-! ## the record -/

/-- attempt `a` writes the row of `X` RECLAIMED -/
def Event.Commits (a X : Uuid) : Event → Prop
  | .call _ (.reclaim _) (.store (.updateObjectWithAudit o d)) (.ok ()) _ =>
    o.id = X ∧ o.lifecycleState = .reclaimed ∧ d.attemptId = some a
  | _ => False

/-- the coordinator is told to shut down -/
def Event.ShutsDown : Event → Prop
  | .call _ _ .setShutdown _ _ => True
  | _ => False

theorem Guar.grown (h : Guar env m b t op w w') : ∃ l, w'.log = l ++ w.log := by
  have hone (h : ∃ e, Event.isCall e = true ∧ w'.log = e :: w.log) : ∃ l, w'.log = l ++ w.log := by
    obtain ⟨e, -, he⟩ := h
    exact ⟨[e], he⟩
  have hstill (h : Still w w') : ∃ l, w'.log = l ++ w.log := by
    obtain ⟨l, -, hl⟩ := h.log
    exact ⟨l, hl⟩
  cases h with
  | quiet h => exact hstill h.toStill
  | acquire _ _ _ _ _ _ _ hl => exact hone hl
  | acquireKeys _ _ _ _ _ _ _ _ hl => exact hone hl
  | dropKeys _ _ _ _ _ _ hl => exact hone hl
  | acquireRecovery _ _ _ _ _ _ _ _ hl => exact hone hl
  | row h => exact hstill h
  | replica h => exact hstill h
  | archive h => exact hstill h
  | dedup h => exact hstill h
  | lineage h => exact hstill h
  | reserve h => exact hstill h
  | journal h => exact hstill h
  | attempt h => exact hstill h
  | reservations h => exact hstill h
  | payload _ _ _ _ _ _ hl => exact hone hl
  | blob _ _ _ _ _ _ _ hl => exact hone hl

theorem Keep.grown (h : Keep env m t w w') : ∃ l, w'.log = l ++ w.log := by
  obtain ⟨l, hl, -⟩ := h.log
  exact ⟨l, hl⟩

/-! ## ways out -/

/-- the coordinator is stopped over the attempt `a`, by steps after the record `L` -/
structure Fenced (a X : Uuid) (L : List Event) (w : Traced) : Prop where
  lost : Lost w
  shutdown : ∃ l, w.log = l ++ L ∧ ∃ e ∈ l, e.ShutsDown
  journal : ∃ j ∈ w.store.journal, j.attemptId = a ∧ j.objectId = X ∧ j.phase.isOpen = true
  row : ∃ o, rowOf w X = some o ∧ (o.lifecycleState = .reclaimPending ∨
    o.lifecycleState = .reclaimed ∧ ∃ e ∈ w.log, e.Commits a X)

/-- the way out of the physical phase; `archs` are the archives that were to be deleted -/
structure Stopped (m : Regime) (t : Tid) (X : Uuid) (ks : List (String × ContentHash)) (a : Uuid)
    (archs : List ArchiveRecord) (L : List Event) (w : Traced) : Prop where
  bail : Bail m t X ks w
  fenced : (∀ x ∈ archs, (w.proc.config.archive x.backend).isSome = true) → Fenced a X L w

theorem Fenced.congr (h : Fenced a X L w) (hlost : Lost w → Lost w')
    (hlog : ∃ l, w'.log = l ++ w.log) (hrow : rowOf w' X = rowOf w X)
    (hjou : ∀ j ∈ w.store.journal, j.objectId = X → j ∈ w'.store.journal) : Fenced a X L w' where
  lost := hlost h.lost
  shutdown := by
    obtain ⟨l, hl, e, he, hs⟩ := h.shutdown
    obtain ⟨l', hl'⟩ := hlog
    exact ⟨l' ++ l, by rw [hl', hl, List.append_assoc], e, List.mem_append_right _ he, hs⟩
  journal := by
    obtain ⟨j, hj, ha, hX, ho⟩ := h.journal
    exact ⟨j, hjou j hj hX, ha, hX, ho⟩
  row := by
    obtain ⟨o, ho, hs⟩ := h.row
    refine ⟨o, hrow.trans ho, hs.imp id ?_⟩
    rintro ⟨hr, e, he, hc⟩
    obtain ⟨l', hl'⟩ := hlog
    exact ⟨hr, e, by rw [hl']; exact List.mem_append_right _ he, hc⟩

theorem Stopped.stable {ks : List (String × ContentHash)} {archs : List ArchiveRecord} :
    Stable env m t (Stopped m t X ks a archs L) := by
  intro w w' hk h
  refine ⟨Bail.stable w w' hk h.bail, fun harch => ?_⟩
  rw [hk.config] at harch
  exact (h.fenced harch).congr hk.lost hk.grown (hk.row X h.bail.held.mine)
    fun j hj hX => (hk.journal X h.bail.held.mine j hX).mpr hj

theorem Stopped.firm {ks : List (String × ContentHash)} {archs : List ArchiveRecord} :
    (party env m b t op).Firm (Stopped m t X ks a archs L) := stable.firm

/-! ## under way -/

/-- the attempt is in its physical phase, and its row is pending unless it has committed -/
structure Course (X : Uuid) (k : Task) (L : List Event) (w : Traced) : Prop where
  physical : k.phase.physical = true
  row : k.state = .reclaimPending ∨ k.state = .reclaimed ∧ ∃ e ∈ w.log, e.Commits k.attemptId X
  grown : ∃ l, w.log = l ++ L

theorem Course.later (h : Course X k L w) (hlog : ∃ l, w'.log = l ++ w.log) : Course X k L w' where
  physical := h.physical
  row := h.row.imp id fun ⟨hs, e, he, hc⟩ => by
    obtain ⟨l, hl⟩ := hlog
    exact ⟨hs, e, by rw [hl]; exact List.mem_append_right _ he, hc⟩
  grown := grown_trans h.grown hlog

section
variable (env m)

structure Afoot (t : Tid) (X : Uuid) (k : Task) (L : List Event) (w : Traced) : Prop where
  working : Working env m t X k w
  course : Course X k L w

/-- the attempt `a` is under way with the payloads `ks`, however far it has come -/
def Underway (t : Tid) (X : Uuid) (ks : List (String × ContentHash)) (a : Uuid) (L : List Event)
    (w : Traced) : Prop :=
  ∃ k : Task, k.keys = ks ∧ k.attemptId = a ∧ Afoot env m t X k L w

end

namespace Afoot

theorem stable : Stable env m t (Afoot env m t X k L) :=
  fun w w' hk h => ⟨Working.stable w w' hk h.working, h.course.later hk.grown⟩

theorem firm : (party env m b t op).Firm (Afoot env m t X k L) := stable.firm

theorem stable_underway {ks : List (String × ContentHash)} :
    Stable env m t (Underway env m t X ks a L) :=
  Stable.exists fun _ => Stable.and (Stable.const _) (Stable.and (Stable.const _) stable)

/-- a part of the walk, with the record -/
theorem frame {α : Type} {x : M α} {Q : α → Traced → Prop} {E : ReclaimError → Traced → Prop}
    (h : (party env m b t op).Triple l (Working env m t X k) x Q E) :
    (party env m b t op).Triple l (Afoot env m t X k L) x (fun a w => Q a w ∧ Course X k L w)
      (fun e w => E e w ∧ Course X k L w) :=
  (Triple.frame (fun _ _ hk hc => Course.later hc (Keep.grown hk))
    (fun _ _ hg hc => Course.later hc (Guar.grown hg)) h).pre fun _ hw => ⟨hw.working, hw.course⟩

theorem nowMs {α : Type} {f : Int → M α} {Q : α → Traced → Prop}
    {E : ReclaimError → Traced → Prop}
    (hf : ∀ n, (party env m b t op).Triple l (Afoot env m t X k L) (f n) Q E) :
    (party env m b t op).Triple l (Afoot env m t X k L) (Coordinator.nowMs >>= f) Q E :=
  Triple.bind (Triple.nowMs firm) hf

end Afoot

namespace Working

theorem underway (h : Working env m t X k w) (hc : Course X k L w) :
    Underway env m t X k.keys k.attemptId L w := ⟨k, rfl, rfl, h, hc⟩

/-! ## stopping the coordinator -/

/-- raising the flags, whether or not the failure was recorded -/
theorem raiseFlag {report : ReclaimReport} {reason : ReclaimError} {kind : String}
    {archs : List ArchiveRecord} (r : Res Unit) :
    (party env m b t op).Triple false (Afoot env m t X k L) (do
        Coordinator.ask .setAuthorityLost
        Coordinator.ask .setShutdown
        match r with
        | .ok () => Pure.pure (ReclaimError.recovery s!"reclaim {report.attemptId} became indeterminate during {kind}: {reason}; coordinator is shutting down for recovery")
        | .error e => Pure.pure (.recovery (s!"reclaim {report.attemptId} became indeterminate during {kind}: {reason}; coordinator is shutting down for recovery" ++
            s!"; recording the failure also failed: {e}")))
      (fun _ => Stopped m t X k.keys k.attemptId archs L)
      (fun _ => Stopped m t X k.keys k.attemptId archs L) := by
  have hfirm : (party env m b t op).Firm fun w => Afoot env m t X k L w ∧ Lost w :=
    (Stable.and Afoot.stable fun _ _ hk h => hk.lost h).firm
  have hset : (party env m b t op).Triple false (Afoot env m t X k L)
      (Coordinator.ask .setAuthorityLost) (fun _ w => Afoot env m t X k L w ∧ Lost w)
      (fun _ => Stopped m t X k.keys k.attemptId archs L) := by
    refine Triple.askLook rfl Afoot.firm ?_
    intro w i r x _ _ _ he h
    cases he
    exact ⟨h, rfl⟩
  have hshut : (party env m b t op).Triple false (fun w => Afoot env m t X k L w ∧ Lost w)
      (Coordinator.ask .setShutdown) (fun _ => Stopped m t X k.keys k.attemptId archs L)
      (fun _ => Stopped m t X k.keys k.attemptId archs L) := by
    refine Triple.askLook rfl hfirm ?_
    intro w i r x hw _ _ he h
    cases he
    obtain ⟨l, hl⟩ := hw.1.course.grown
    have hopen : k.phase.isOpen = true := JournalPhase.isOpen_of_physical h.1.course.physical
    obtain ⟨j, hj, hentry⟩ := h.1.working.bond.journal
    refine ⟨bail_lost h.1.working.bond h.2, fun _ => ?_⟩
    exact
      { lost := h.2
        shutdown := ⟨_ :: l, congrArg (List.cons _) hl, _, List.mem_cons_self, trivial⟩
        journal := ⟨j, hj, hentry.1, hentry.2.1, by rw [hentry.2.2.1]; exact hopen⟩
        row := ⟨k.row, h.1.working.bond.row, h.1.course.row⟩ }
  refine Triple.bind hset fun _ => Triple.bind hshut fun _ => ?_
  cases r with
  | ok _ => exact Triple.pure fun _ h => h
  | error e => exact Triple.pure fun _ h => h

/-- `indeterminate_reclaim` raises the flags -/
theorem indeterminateReclaim {report : ReclaimReport} {reason : ReclaimError} {kind : String}
    {archs : List ArchiveRecord} :
    (party env m b t op).Triple false (Afoot env m t X k L)
      (Coordinator.indeterminateReclaim report reason kind)
      (fun _ => Stopped m t X k.keys k.attemptId archs L)
      (fun _ => Stopped m t X k.keys k.attemptId archs L) := by
  have hrecord : (party env m b t op).Triple false (Afoot env m t X k L)
      (Coordinator.withInner do
        let ts ← Coordinator.nowMs
        Coordinator.store (.insertFailure
          ⟨ts, some report.objectId, some report.attemptId, kind, reason.text, false⟩))
      (fun _ => Afoot env m t X k L) (fun _ => Afoot env m t X k L) :=
    Triple.section_ Afoot.firm (fun _ => Afoot.firm)
      (Afoot.nowMs fun _ => Triple.storeCalm rfl Afoot.firm)
  exact Triple.attemptBind hrecord (fun _ => raiseFlag (.ok ())) fun e => raiseFlag (.error e)

/-- a step whose failure stops the coordinator -/
theorem orIndeterminate {α : Type} {report : ReclaimReport} {kind : String} {x : M α}
    {P : Traced → Prop} {Q : α → Traced → Prop} {S : ReclaimError → Traced → Prop}
    {ks : List (String × ContentHash)} {archs : List ArchiveRecord}
    (hx : (party env m b t op).Triple false P x Q S)
    (hS : ∀ e w, S e w → Underway env m t X ks a L w) :
    (party env m b t op).Triple false P (Coordinator.orIndeterminate report kind x) Q
      (fun _ => Stopped m t X ks a archs L) := by
  refine Triple.attemptBind hx (fun a => Triple.pure fun _ h => h) fun e => ?_
  have hex : (party env m b t op).Triple false (Underway env m t X ks a L)
      (do
        let err ← Coordinator.indeterminateReclaim report e kind
        MonadExcept.throw err : M α) Q (fun _ => Stopped m t X ks a archs L) := by
    refine Triple.of_exists fun k' => Triple.of_pure fun hk => Triple.of_pure fun ha => ?_
    rw [← hk, ← ha]
    exact Triple.bind indeterminateReclaim fun err => Triple.throw fun _ h => h
  exact hex.pre (hS e)

/-! ## physical deletions -/

/-- what one deletion leaves behind -/
theorem gone_step {r : Replica} (c : Cmd) (rep : c.Reply) (hw : Working env m t X k w)
    (hr : r ∈ k.snap.dels) (hk : r.slot ∈ k.keys) :
    Guar env m b t op w ((party env m b t op).after c rep w
        (w.setPayload r.location.backend r.location.key none)) ∧
      Working env m t X { k with gone := r :: k.gone } ((party env m b t op).after c rep w
        (w.setPayload r.location.backend r.location.key none)) := by
  constructor
  · refine .payload ((hw.bond.held.pay _).mpr hk) ?_ rfl rfl rfl rfl ⟨_, rfl, rfl⟩
    exact fun hm => ⟨hw.bond.names hm r hr, fun hne => absurd rfl hne⟩
  · have hheld : Held t X k.keys ((party env m b t op).after c rep w
        (w.setPayload r.location.backend r.location.key none)) :=
      ⟨hw.bond.held.own, hw.bond.held.pay, hw.bond.held.recovering⟩
    refine ⟨{ hw.ok with gone := ?_ }, ?_, ?_⟩
    · intro x hx
      rcases List.mem_cons.mp hx with rfl | hx
      · exact ⟨hr, hk⟩
      · exact hw.ok.gone x hx
    · exact hw.bond.congr hheld rfl rfl rfl rfl rfl rfl ⟨[_], by simp [Event.isCall], rfl⟩
    · refine { hw.stock with gone := ?_ }
      intro hm x hx
      show (if _ then _ else _) = _
      rcases List.mem_cons.mp hx with rfl | hx
      · rw [if_pos ⟨rfl, rfl⟩]
      · split
        · rfl
        · exact hw.stock.gone hm x hx

/-- fewer payloads are known to be gone -/
theorem forget_gone {g : List Replica} (hw : Working env m t X { k with gone := g } w)
    (hsub : ∀ r ∈ k.gone, r ∈ g) : Working env m t X k w where
  ok := { hw.ok with gone := fun r hr => hw.ok.gone r (hsub r hr) }
  bond := { hw.bond with }
  stock := { hw.stock with gone := fun hm r hr => hw.stock.gone hm r (hsub r hr) }

/-- where backends need not answer truthfully nothing is known to be gone -/
theorem gone_of_free {r : Replica} (hw : Working env m t X k w) (hm : m.honest = false)
    (hr : r ∈ k.snap.dels) (hk : r.slot ∈ k.keys) :
    Working env m t X { k with gone := r :: k.gone } w where
  ok := by
    refine { hw.ok with gone := ?_ }
    intro x hx
    rcases List.mem_cons.mp hx with rfl | hx
    · exact ⟨hr, hk⟩
    · exact hw.ok.gone x hx
  bond := { hw.bond with }
  stock := by
    refine { hw.stock with gone := ?_ }
    intro hh
    rw [hm] at hh
    cases hh

theorem quiet_step (c : Cmd) (rep : c.Reply) (hw : Working env m t X k w) :
    Guar env m b t op w ((party env m b t op).after c rep w w.toWorld) ∧
      Working env m t X k ((party env m b t op).after c rep w w.toWorld) := by
  have hq : Quiet w ((party env m b t op).after c rep w w.toWorld) :=
    Party.quiet_after (Calm.refl _)
  exact ⟨.quiet hq, stable w _ (.of_quiet hq) hw⟩

theorem deletePayload {r : Replica} (hr : r ∈ k.snap.dels) (hk : r.slot ∈ k.keys) :
    (party env m b t op).Triple false (Working env m t X k)
      (Coordinator.deletePayload r.location.backend r.location.key)
      (fun _ => Working env m t X { k with gone := r :: k.gone })
      (fun _ => Working env m t X k) := by
  have hback {w : Traced} (h : Working env m t X { k with gone := r :: k.gone } w) :
      Working env m t X k w := h.forget_gone fun _ hx => List.mem_cons_of_mem _ hx
  refine Triple.deletePayloadWith firm (fun _ _ h => h) ?_ ?_
  · intro w i rep x hw _ _ he
    cases rep with
    | ok u =>
      rw [exec_delete_ok he]
      exact gone_step _ _ hw hr hk
    | error e =>
      have hc : (Cmd.delete r.location.backend r.location.key).clears r.location.backend
          r.location.key = true := decide_eq_true ⟨rfl, rfl⟩
      rcases exec_clears hc he with rfl | rfl
      · exact quiet_step _ _ hw
      · exact ⟨(gone_step _ _ hw hr hk).1, hback (gone_step _ _ hw hr hk).2⟩
  · intro n w i rep x hw _ ha he
    have ha : m.Allows env op _ i w := ha
    have hc : (Cmd.node n r.location.backend r.location.key .delete).clears r.location.backend
        r.location.key = true := decide_eq_true ⟨rfl, rfl⟩
    rcases exec_clears hc he with rfl | rfl
    · refine ⟨(quiet_step _ _ hw).1, ?_⟩
      cases rep with
      | error e => exact (quiet_step _ _ hw).2
      | ok rep =>
        refine ⟨?_, fun _ _ => (quiet_step _ _ hw).2⟩
        intro hok
        cases hm : m.honest with
        | false => exact (quiet_step _ _ hw).2.gone_of_free hm hr hk
        | true =>
          -- a truthful node has removed the payload, so the world did change
          have hx := exec_nodeDelete_ok he hok (ha.answer hm).2
          rw [hx]
          exact (gone_step _ _ hw hr hk).2
    · refine ⟨(gone_step _ _ hw hr hk).1, ?_⟩
      cases rep with
      | error e => exact hback (gone_step _ _ hw hr hk).2
      | ok rep =>
        exact ⟨fun _ => (gone_step _ _ hw hr hk).2,
          fun _ _ => hback (gone_step _ _ hw hr hk).2⟩

theorem blob_step {a : ArchiveRecord} (c : Cmd) (rep : c.Reply) (hw : Working env m t X k w)
    (ha : a ∈ k.snap.archs) :
    Guar env m b t op w ((party env m b t op).after c rep w (w.setBlob a.backend a.key none)) ∧
      Working env m t X { k with blobs := a :: k.blobs }
        ((party env m b t op).after c rep w (w.setBlob a.backend a.key none)) := by
  constructor
  · exact .blob hw.bond.own (hw.ok.archKeys a ha).2 (fun _ hne => absurd rfl hne) rfl rfl rfl rfl
      ⟨_, rfl, rfl⟩
  · have hheld : Held t X k.keys ((party env m b t op).after c rep w
        (w.setBlob a.backend a.key none)) :=
      ⟨hw.bond.held.own, hw.bond.held.pay, hw.bond.held.recovering⟩
    refine ⟨{ hw.ok with blobs := ?_ }, ?_, ?_⟩
    · intro x hx
      rcases List.mem_cons.mp hx with rfl | hx
      · exact ha
      · exact hw.ok.blobs x hx
    · exact hw.bond.congr hheld rfl rfl rfl rfl rfl rfl ⟨[_], by simp [Event.isCall], rfl⟩
    · refine { hw.stock with blobs := ?_ }
      intro hm x hx
      show (if _ then _ else _) = _
      rcases List.mem_cons.mp hx with rfl | hx
      · rw [if_pos ⟨rfl, rfl⟩]
      · split
        · rfl
        · exact hw.stock.blobs hm x hx

theorem archiveDelete {a : ArchiveRecord} (ha : a ∈ k.snap.archs) :
    (party env m b t op).Triple false (Working env m t X k)
      (Coordinator.archiveDelete a.backend a.key)
      (fun _ => Working env m t X { k with blobs := a :: k.blobs })
      (fun _ => Working env m t X k) := by
  refine Triple.onBlob a.backend a.key (c := .archiveDelete a.backend a.key) (k := fun r => r)
    (decide_eq_true ⟨rfl, rfl⟩) firm ?_
  intro w i rep x hw _ _ he
  cases rep with
  | ok u =>
    rw [exec_archiveDelete_ok he]
    exact blob_step _ _ hw ha
  | error e =>
    rcases exec_archiveDelete he with rfl | rfl
    · exact quiet_step _ _ hw
    · obtain ⟨hg, hb⟩ := @blob_step env m b t op X k w a
        (.archiveDelete a.backend a.key) (.error e) hw ha
      refine ⟨hg, { hb.ok with blobs := ?_ }, { hb.bond with }, { hb.stock with blobs := ?_ }⟩
      · exact fun x hx => hb.ok.blobs x (List.mem_cons_of_mem _ hx)
      · exact fun hm x hx => hb.stock.blobs hm x (List.mem_cons_of_mem _ hx)

/-! ## execute -/

theorem deletePlanned {report : ReclaimReport} {rs : List Replica} {deleted : List Uuid}
    {archs : List ArchiveRecord} (hr : ∀ r ∈ rs, r ∈ k.snap.dels ∧ r.slot ∈ k.keys) :
    (party env m b t op).Triple false (Afoot env m t X k L)
      (Coordinator.deletePlanned report rs deleted)
      (fun _ => Afoot env m t X { k with gone := rs.reverse ++ k.gone } L)
      (fun _ => Stopped m t X k.keys k.attemptId archs L) := by
  induction rs generalizing k deleted with
  | nil => exact Triple.pure fun _ h => h
  | cons r rs ih =>
    obtain ⟨hdel, hslot⟩ := hr r List.mem_cons_self
    refine Triple.bind (R := fun _ => Afoot env m t X { k with gone := r :: k.gone } L)
      (orIndeterminate ((Afoot.frame (deletePayload hdel hslot)).post
        (fun _ _ h => ⟨h.1, { h.2 with }⟩) fun _ _ h => h) fun _ _ h => (h.1.underway h.2 :))
      fun _ => ?_
    refine Triple.post (ih (k := { k with gone := r :: k.gone })
      fun x hx => hr x (List.mem_cons_of_mem _ hx)) ?_ fun _ _ h => h
    intro _ w hw
    have he : (r :: rs).reverse ++ k.gone = rs.reverse ++ r :: k.gone := by simp
    rw [he]
    exact hw

/-- an archive backend that is not configured ends the reclaim as it is -/
theorem lookupArchive {x : ArchiveRecord} {missing : ReclaimError} (ha : x ∈ k.snap.archs)
    (hres : k.reserved = true) (hatt : k.attempted = true) (hst : k.state = .reclaimPending) :
    (party env m b t op).Triple false (Afoot env m t X k L)
      (Coordinator.lookupArchive x.backend missing)
      (fun info w => info.id = x.backend ∧ Afoot env m t X k L w)
      (fun _ => Stopped m t X k.keys k.attemptId k.snap.archs L) := by
  refine Triple.lockedConfig Afoot.firm fun c => ?_
  cases hc : c.archive x.backend with
  | none =>
    refine Triple.throw fun w hw => ?_
    obtain ⟨hw, rfl⟩ := hw
    have hwrapped : m.wrapped = false := by
      by_contra hne
      have hsome := hw.working.bond.equipped hw.course.physical (by simpa using hne) x ha
      rw [hc] at hsome
      cases hsome
    refine ⟨bail_parked hw.working.bond hwrapped hres hatt (by rw [hst]; simp)
      fun _ _ => ⟨hst, x, ha, hc⟩, fun harchs => ?_⟩
    have hsome := harchs x ha
    rw [hc] at hsome
    cases hsome
  | some info =>
    refine Triple.pure fun w hw => ⟨?_, hw.1⟩
    have := List.find?_some hc
    simpa using this

theorem deleteArchives {report : ReclaimReport} {as : List ArchiveRecord} {deleted : List String}
    (ha : ∀ x ∈ as, x ∈ k.snap.archs) (hres : k.reserved = true) (hatt : k.attempted = true)
    (hst : k.state = .reclaimPending) :
    (party env m b t op).Triple false (Afoot env m t X k L)
      (Coordinator.deleteArchives report as deleted)
      (fun _ => Afoot env m t X { k with blobs := as.reverse ++ k.blobs } L)
      (fun _ => Stopped m t X k.keys k.attemptId k.snap.archs L) := by
  induction as generalizing k deleted with
  | nil => exact Triple.pure fun _ h => h
  | cons x as ih =>
    have hmem := ha x List.mem_cons_self
    refine Triple.bind (lookupArchive hmem hres hatt hst) fun info =>
      Triple.of_pure fun hid => ?_
    rw [hid]
    refine Triple.bind (R := fun _ => Afoot env m t X { k with blobs := x :: k.blobs } L)
      (orIndeterminate ((Afoot.frame (archiveDelete hmem)).post
        (fun _ _ h => ⟨h.1, { h.2 with }⟩) fun _ _ h => h) fun _ _ h => (h.1.underway h.2 :))
      fun _ => ?_
    refine Triple.post (ih (k := { k with blobs := x :: k.blobs })
      (fun y hy => ha y (List.mem_cons_of_mem _ hy)) hres hatt hst) ?_ fun _ _ h => h
    intro _ w hw
    have he : (x :: as).reverse ++ k.blobs = as.reverse ++ x :: k.blobs := by simp
    rw [he]
    exact hw

theorem verifyGone {report : ReclaimReport} {rs : List Replica} {archs : List ArchiveRecord} :
    (party env m b t op).Triple false (Afoot env m t X k L) (Coordinator.verifyGone report rs)
      (fun _ => Afoot env m t X k L) (fun _ => Stopped m t X k.keys k.attemptId archs L) := by
  induction rs with
  | nil => exact Triple.pure fun _ h => h
  | cons r rs ih =>
    refine Triple.bind (orIndeterminate (Triple.payloadExists Afoot.firm _ _)
      fun _ _ h => h.working.underway h.course) fun there => ?_
    refine Triple.ite (fun _ => ?_) fun _ => ih
    refine Triple.bind indeterminateReclaim fun err => ?_
    exact Triple.bind (R := fun _ _ => False) (Triple.throw fun _ h => h) fun _ _ h => h.elim

/-! ## commit -/

theorem deleteReplica {r : Replica} {rs : List Replica} (hk : k.reps = r :: rs)
    (hslot : r.slot ∈ k.keys) :
    (party env m b t op).Triple l (Working env m t X k)
      (Coordinator.store (.deleteReplica r.replicaId))
      (fun _ => Working env m t X { k with reps := rs }) (fun _ => Working env m t X k) := by
  refine Triple.store firm ?_ (fun _ _ _ _ _ h => h)
  intro w _ s hw hi _ hrun
  have hd := Store.deleteReplica_ok hrun
  have hmem : r ∈ k.reps := by
    rw [hk]
    exact List.mem_cons_self
  obtain ⟨r', hr', hdesc⟩ := hw.stock.present r hmem
  have hfind : w.store.replicas.find? r.replicaId = some r' := by
    rw [← Replica.id_of_desc hdesc]
    exact Table.find?_of_mem hr'
  have hX' : r'.objectId = X :=
    (Replica.object_of_desc hdesc).trans (hw.ok.dels r (hw.ok.reps r hmem))
  constructor
  · refine .replica Party.still_store hd RowSwap.erase ?_
    rw [hfind]
    refine .delete (hX' ▸ hw.bond.own) ((hw.bond.held.pay _).mpr ?_)
    rw [Replica.slot_of_desc hdesc]
    exact hslot
  · refine ⟨{ hw.ok with nodup := ?_, reps := ?_ }, ?_, ?_⟩
    · have hn := hw.ok.nodup
      rw [hk, List.map_cons, List.nodup_cons] at hn
      exact hn.2
    · exact fun x hx => hw.ok.reps x (by rw [hk]; exact List.mem_cons_of_mem _ hx)
    · have hstill := Party.still_store (A := party env m b t op)
        (c := .store (.deleteReplica r.replicaId)) (r := .ok ()) (w := w) (s := s)
      exact hw.bond.congr (hstill.held hw.bond.held) (congrArg Data.objects hd)
        (congrArg Data.lineage hd) (congrArg Data.journal hd) (congrArg Data.attempts hd)
        (congrArg Data.reservations hd) hstill.config hstill.log
    · exact hw.stock.erase_replica hw.ok hk (congrArg Data.replicas hd)
        (congrArg Data.archives hd) rfl rfl

theorem dedupRelease {h : ContentHash} {be : String} (hk : (be, h) ∈ k.keys) :
    (party env m b t op).Triple l (Working env m t X k)
      (Coordinator.store (.dedupRelease h be)) (fun _ => Working env m t X k)
      (fun _ => Working env m t X k) := by
  refine Triple.store firm ?_ (fun _ _ _ _ _ h => h)
  intro w r s hw hi _ hrun
  obtain ⟨e, he, _, _, T, hd, hfind⟩ := Store.dedupRelease_ok hrun
  have hstill := Party.still_store (A := party env m b t op)
    (c := .store (.dedupRelease h be)) (r := .ok r) (w := w) (s := s)
  constructor
  · refine .dedup hstill hd ?_ (.inl ((hw.bond.held.pay _).mpr hk)) ?_
    · intro y hne
      rw [hfind, if_neg hne]
    · intro hm e' he'
      rw [hfind, if_pos rfl] at he'
      split at he'
      · cases he'
      · cases he'
        have hn := Tending.named_dedup hi hm he
        exact hn
  · refine ⟨hw.ok, ?_, ?_⟩
    · exact hw.bond.congr (hstill.held hw.bond.held) (congrArg Data.objects hd)
        (congrArg Data.lineage hd) (congrArg Data.journal hd) (congrArg Data.attempts hd)
        (congrArg Data.reservations hd) hstill.config hstill.log
    · exact hw.stock.congr (congrArg Data.replicas hd) (congrArg Data.archives hd) rfl rfl rfl
        rfl rfl rfl

theorem deleteArchiveRow {a : ArchiveRecord} {as : List ArchiveRecord} (hk : k.archs = a :: as) :
    (party env m b t op).Triple l (Working env m t X k)
      (Coordinator.store (.deleteArchive a.archiveId))
      (fun _ => Working env m t X { k with archs := as }) (fun _ => Working env m t X k) := by
  refine Triple.store firm ?_ (fun _ _ _ _ _ h => h)
  intro w _ s hw hi _ hrun
  have hd := Store.deleteArchive_ok hrun
  have hmem : a ∈ k.archs := by
    rw [hk]
    exact List.mem_cons_self
  have hfind : w.store.archives.find? a.archiveId = some a :=
    Table.find?_of_mem (hw.stock.archived a hmem)
  have hX : a.objectId = X := (hw.ok.archKeys a (hw.ok.archs a hmem)).1
  constructor
  · refine .archive Party.still_store hd RowSwap.erase ?_
    rw [hfind]
    exact .delete (hX ▸ hw.bond.own)
  · refine ⟨{ hw.ok with archNodup := ?_, archs := ?_ }, ?_, ?_⟩
    · have hn := hw.ok.archNodup
      rw [hk, List.map_cons, List.nodup_cons] at hn
      exact hn.2
    · exact fun x hx => hw.ok.archs x (by rw [hk]; exact List.mem_cons_of_mem _ hx)
    · have hstill := Party.still_store (A := party env m b t op)
        (c := .store (.deleteArchive a.archiveId)) (r := .ok ()) (w := w) (s := s)
      exact hw.bond.congr (hstill.held hw.bond.held) (congrArg Data.objects hd)
        (congrArg Data.lineage hd) (congrArg Data.journal hd) (congrArg Data.attempts hd)
        (congrArg Data.reservations hd) hstill.config hstill.log
    · exact hw.stock.erase_archive hw.ok hk (congrArg Data.replicas hd)
        (congrArg Data.archives hd) rfl rfl

/-- the ownership metadata of all scheduled replicas is released -/
theorem releaseScheduled {rs : List Replica} (hk : k.reps = rs)
    (hslots : ∀ r ∈ rs, r.slot ∈ k.keys) :
    (party env m b t op).Triple l (Afoot env m t X k L) (Coordinator.releaseScheduled env rs)
      (fun _ => Afoot env m t X { k with reps := [] } L)
      (fun _ => Underway env m t X k.keys k.attemptId L) := by
  induction rs generalizing k with
  | nil =>
    refine Triple.pure fun w hw => ?_
    rw [← hk]
    exact hw
  | cons r rs ih =>
    refine Triple.bind (R := fun _ => Afoot env m t X { k with reps := rs } L)
      ((Afoot.frame (deleteReplica hk (hslots r List.mem_cons_self))).post
        (fun _ _ h => ⟨h.1, { h.2 with }⟩) fun _ _ h => (h.1.underway h.2 :)) fun _ => ?_
    have hrest := ih (k := { k with reps := rs }) rfl fun x hx =>
      hslots x (List.mem_cons_of_mem _ hx)
    refine Triple.ite (fun _ => ?_) fun _ => hrest
    refine Triple.bind (R := fun _ => Afoot env m t X { k with reps := rs } L)
      ((Afoot.frame (dedupRelease (k := { k with reps := rs })
        (hslots r List.mem_cons_self))).post (fun _ _ h => ⟨h.1, h.2⟩)
        fun _ _ h => (h.1.underway h.2 :)) fun _ => hrest

theorem deleteArchiveRows {as : List ArchiveRecord} (hk : k.archs = as) :
    (party env m b t op).Triple l (Afoot env m t X k L) (Coordinator.deleteArchiveRows as)
      (fun _ => Afoot env m t X { k with archs := [] } L)
      (fun _ => Underway env m t X k.keys k.attemptId L) := by
  induction as generalizing k with
  | nil =>
    refine Triple.pure fun w hw => ?_
    rw [← hk]
    exact hw
  | cons x as ih =>
    refine Triple.bind (R := fun _ => Afoot env m t X { k with archs := as } L)
      ((Afoot.frame (deleteArchiveRow hk)).post (fun _ _ h => ⟨h.1, { h.2 with }⟩)
        fun _ _ h => (h.1.underway h.2 :)) fun _ => ?_
    exact ih (k := { k with archs := as }) rfl

/-- the rows are gone, the payloads and the blobs too: the object may be written RECLAIMED -/
theorem commit_just {plan : List Replica} (hw : Working env m t X k w)
    (hplan : k.plan = some plan) (hst : k.state = .reclaimPending)
    (hph : k.phase = .physicalDone) (hsafe : k.safe = true) (hreps : k.reps = [])
    (harchs : k.archs = []) (hgone : ∀ r ∈ plan, r ∈ k.gone)
    (hblobs : ∀ a ∈ k.snap.archs, a ∈ k.blobs) :
    RowJust m t (.reclaim req) w X { k with state := .reclaimed }.row := by
  obtain ⟨j, hj, he⟩ := hw.bond.journal
  have hrow := hw.bond.row
  rw [Task.row, hst] at hrow
  refine .commit ⟨req, rfl⟩ hw.bond.own hrow hj he.2.1 (he.2.2.1.trans hph)
    (by rw [he.2.2.2, hplan]) rfl ?_ ?_ ?_ ?_
  · intro r hr hX
    obtain ⟨d, hd, _⟩ := hw.stock.reps r hr hX
    rw [hreps] at hd
    exact List.not_mem_nil hd
  · intro a ha hX
    have hmem := hw.stock.archs a ha hX
    rw [harchs] at hmem
    exact List.not_mem_nil hmem
  · intro hm
    refine ⟨⟨k.snap, plan, by rw [he.2.2.2, hplan], ?_, ?_, ?_, ?_⟩, ?_⟩
    · rw [he.2.2.1, hph]
      rfl
    · exact fun _ _ => he.2.2.1.trans hph
    · exact fun r hr => hw.stock.gone hm r (hgone r hr)
    · exact fun a ha => hw.stock.blobs hm a (hblobs a ha)
    · exact fun r hr => (hw.bond.held.pay _).mpr (hw.ok.gone r (hgone r hr)).2
  · exact fun hm => (hw.bond.safe hsafe hm).safe

theorem commitSection {report : ReclaimReport} {actor : String} {plan rs : List Replica}
    {as : List ArchiveRecord} {deleted : List Uuid} {deletedArchives : List String}
    (hrs : k.reps = rs) (has : k.archs = as) (ha : report.attemptId = k.attemptId)
    (hr : report.reservationId = k.reservationId) (hres : k.reserved = true)
    (hatt : k.attempted = true) (hplan : k.plan = some plan) (hst : k.state = .reclaimPending)
    (hph : k.phase = .physicalDone) (hsafe : k.safe = true)
    (hslots : ∀ r ∈ rs, r.slot ∈ k.keys) (hgone : ∀ r ∈ plan, r ∈ k.gone)
    (hblobs : ∀ x ∈ k.snap.archs, x ∈ k.blobs) :
    (party env m b t (.reclaim req)).Triple true (Afoot env m t X k L)
      (Coordinator.commitSection env report actor k.row rs as deleted deletedArchives)
      (fun _ => Resolved m t X k.keys) (fun _ => Underway env m t X k.keys k.attemptId L) := by
  refine Triple.bind (releaseScheduled hrs hslots) fun _ => ?_
  refine Triple.bind (deleteArchiveRows (k := { k with reps := [] }) has) fun _ => ?_
  refine Afoot.nowMs fun ts => ?_
  have hrow : ({ k.row with lifecycleState := .reclaimed } : ReclaimObject) =
      { k with reps := [], archs := [], state := .reclaimed }.row := rfl
  rw [hrow]
  -- the RECLAIMED row, and from here on the record shows that it was written
  refine Triple.bind (R := fun _ =>
    Afoot env m t X { k with reps := [], archs := [], state := .reclaimed } L)
    ((Afoot.frame (writeRow (k := { k with reps := [], archs := [] }) rfl rfl rfl
      fun w hw _ => hw.commit_just hplan hst hph hsafe rfl rfl hgone hblobs)).post ?_
      fun _ _ h => (h.1.1.underway h.2 :)) fun _ => ?_
  · rintro _ w ⟨⟨hw, before, hmem⟩, hc⟩
    exact ⟨hw, hc.physical, .inr ⟨rfl, _, hmem, hw.ok.id, rfl, congrArg some ha⟩, hc.grown⟩
  rw [ha, hr]
  refine Triple.bind (R := fun _ => Afoot env m t X
    { k with reps := [], archs := [], state := .reclaimed, reserved := false } L)
    ((Afoot.frame (closeReservation
      (k := { k with reps := [], archs := [], state := .reclaimed }) hres)).post
      (fun _ _ h => ⟨h.1, { h.2 with }⟩) fun _ _ h => (h.1.1.underway h.2 :)) fun _ => ?_
  refine Afoot.nowMs fun now => ?_
  refine Triple.bind (R := fun _ => Afoot env m t X { k with
    reps := [], archs := [], state := .reclaimed, reserved := false, attempted := false } L)
    ((Afoot.frame (closeAttempt
      (k := { k with reps := [], archs := [], state := .reclaimed, reserved := false }) hatt)).post
      (fun _ _ h => ⟨h.1, { h.2 with }⟩) fun _ _ h => (h.1.1.underway h.2 :)) fun _ => ?_
  refine Afoot.nowMs fun now => ?_
  have hmem : k.phase ∈ [JournalPhase.physicalStarted, .physicalDone] := by
    rw [hph]
    simp
  have hopen : k.phase.isOpen = true := by
    rw [hph]
    rfl
  exact (Afoot.frame (closeJournal (k := { k with
    reps := [], archs := [], state := .reclaimed, reserved := false, attempted := false })
    rfl hmem hopen rfl)).post (fun _ _ h => h.1) fun _ _ h => (h.1.1.underway h.2 :)

/-- a locked section of the physical phase, whose failure stops the coordinator -/
theorem sectionUnderway {α : Type} {body : M α} {Q : α → Traced → Prop}
    (hQ : ∀ a, Stable env m t (Q a))
    (hbody : (party env m b t op).Triple true (Afoot env m t X k L) body Q
      (fun _ => Underway env m t X k.keys k.attemptId L)) :
    (party env m b t op).Triple false (Afoot env m t X k L) (Coordinator.withInner body) Q
      (fun _ => Underway env m t X k.keys k.attemptId L) := by
  refine Triple.withInner (R := fun _ => True) Afoot.firm (.const True) (fun a => (hQ a).firm)
    (fun _ => Afoot.stable_underway.firm) (fun _ _ _ _ => trivial)
    (fun _ w hw _ => hw.working.underway hw.course) ?_
  exact hbody.pre fun w hw => hw.1

theorem physicalDone {report : ReclaimReport} {archs : List ArchiveRecord}
    (ha : report.attemptId = k.attemptId) (hph : k.phase = .physicalStarted) :
    (party env m b t (.reclaim req)).Triple false (Afoot env m t X k L)
      (Coordinator.orIndeterminate report "PHYSICAL_DONE_PERSIST_FAILED" (Coordinator.withInner do
        let now ← Coordinator.nowMs
        Coordinator.store (.updateJournalPhase report.attemptId .physicalDone now)))
      (fun _ => Afoot env m t X { k with phase := .physicalDone } L)
      (fun _ => Stopped m t X k.keys k.attemptId archs L) := by
  have hmem : k.phase ∈ [JournalPhase.physicalStarted] := by rw [hph]; simp
  have hopen : k.phase.isOpen = true := by rw [hph]; rfl
  have hphys : JournalPhase.physicalDone.physical = k.phase.physical := by rw [hph]; rfl
  rw [ha]
  refine orIndeterminate (sectionUnderway (fun _ => Afoot.stable) (Afoot.nowMs fun now => ?_))
    fun _ _ h => h
  refine (Afoot.frame (advanceJournal rfl hmem hopen rfl hphys ?_)).post
    (fun _ _ h => ⟨h.1, rfl, h.2.row, h.2.grown⟩) fun _ _ h => (h.1.1.underway h.2 :)
  exact fun w j hown hj => .done hown (hj.trans hph) rfl rfl

/-- the plan is durable: the attempt is carried out, or it is `Stopped` -/
theorem executePhysical {report : ReclaimReport} {actor : String} {plan : List Replica}
    (ha : report.attemptId = k.attemptId) (hr : report.reservationId = k.reservationId)
    (hres : k.reserved = true) (hatt : k.attempted = true) (hplan : k.plan = some plan)
    (hsub : ∀ r ∈ plan, r ∈ k.snap.dels) (hst : k.state = .reclaimPending)
    (hph : k.phase = .physicalStarted) (hsafe : k.safe = true) (hreps : k.reps = k.snap.dels)
    (harchs : k.archs = k.snap.archs) (hslots : ∀ r ∈ k.snap.dels, r.slot ∈ k.keys) :
    (party env m b t (.reclaim req)).Triple false (Afoot env m t X k L)
      (Coordinator.executePhysical env report actor k.row k.snap.dels k.snap.archs plan)
      (fun _ => Resolved m t X k.keys)
      (fun _ => Stopped m t X k.keys k.attemptId k.snap.archs L) := by
  refine Triple.bind (deletePlanned fun r hr => ⟨hsub r hr, hslots r (hsub r hr)⟩)
    fun deleted => ?_
  refine Triple.bind (deleteArchives (k := { k with gone := plan.reverse ++ k.gone })
    (fun x hx => hx) hres hatt hst) fun deletedArchives => ?_
  refine Triple.bind verifyGone fun _ => ?_
  refine Triple.bind (physicalDone ha hph) fun _ => ?_
  -- everything planned is gone: the closure of step 6
  refine Triple.bind (R := fun _ => Resolved m t X k.keys) ?_ fun _ => Triple.pure fun _ h => h
  refine orIndeterminate (sectionUnderway (fun _ => Resolved.stable) ?_) fun _ _ h => h
  exact commitSection hreps harchs ha hr hres hatt hplan hst rfl hsafe hslots
    (fun r hr => by simp [hr]) (fun x hx => by simp [hx])

end Working

end ReclaimFabric
