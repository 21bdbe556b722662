import ReclaimFabric.Protocol.Return

/-!
# Regimes and the discipline of the runs

A `Regime` excludes faults and inputs; `Regime.Allows` says which, command by command, and
`Regime.mode` which runs are left.  `discipline` puts the invariant, the rely, the guarantee and
the last steps together; an operation is `Safe` when it keeps to it.

* `safe_withObject`     an operation that holds one object is safe when its body leaves it settled;
* `safe_withRecovery`   the same for recovery;
* `safe_plain`          an operation that takes no guard.
-/

set_option linter.unusedSectionVars false

namespace ReclaimFabric

/-! ## regimes -/

/-- store calls of `reclaim` whose failure is neither rolled back nor stops the coordinator, and
the writes of the rollback itself -/
def Cmd.bare : Cmd → Bool
  | .store (.updateObjectWithAudit _ a) =>
    a.action == "RECLAIM_STEP_RECOMPUTABLE" || a.action == "RECLAIM_RESERVED" ||
      a.action == "RECLAIM_ABORTED"
  | .store (.updateJournalPhase _ .validated _) => true
  | .store (.updateJournalPhase _ .rolledBack _) => true
  | .store (.updateReservation _ .released) => true
  | .store (.updateAttempt _ .rolledBack _) => true
  | .store (.getDedup _ _) => true
  | _ => false

/-- the bytes a read delivers -/
def Cmd.delivers : (c : Cmd) → c.Reply → Option Bytes
  | .get _ _, .ok d => some d
  | .node _ _ _ .read, .ok r => r.payload
  | _, _ => none

/-- the dedup rows fit the replica rows of `X` -/
def PlanOk (env : Env) (X : Uuid) (w : World) : Prop :=
  ∀ r ∈ w.store.replicas, r.objectId = X → r.contentHash ≠ Coordinator.emptyHash env →
    ∃ e, w.store.dedup.find? (r.contentHash, r.location.backend) = some e ∧
      e.key = r.location.key ∧
      w.store.replicas.countWhere (fun x => decide (x.objectId = X) && decide (x.slot = r.slot)) ≤
        e.refCount

/-- no edge makes an exposed object depend on an object whose reclaim has read the lineage -/
def EdgeOk (p c : Uuid) (w : Traced) : Prop :=
  ∀ X Z, PastRead w X → Z ≠ X → Exposed w Z → (p = X ∨ Downstream w X p) →
    ¬(c = Z ∨ Downstream w c Z)

/-- the inputs a regime admits for one step -/
structure Regime.Allows (env : Env) (m : Regime) (op : Op) (c : Cmd) (i : Input) (w : Traced) :
    Prop where
  recipe : m.recipe = true → ∀ j r a, c = .store (.createReclaimReservation j r a) →
    ∀ o, rowOf w j.objectId = some o → o.lifecycleState = .archived → o.Recipe
  edges : m.edges = true → ∀ p x, c = .store (.addLineageEdge p x .dependsOn) → EdgeOk p x w
  bare : m.wrapped = true → ∀ req, op = .reclaim req → c.bare = true → i.fault = none
  plan : m.wrapped = true → ∀ req, op = .reclaim req → ∀ ks, c = .pollPayloads ks →
    PlanOk env req.objectId w.toWorld
  archives : m.wrapped = true → ∀ req, op = .reclaim req →
    ∀ id p n, c = .store (.startJournalPhysical id p n) → ∀ a ∈ w.store.archives,
      a.objectId = req.objectId → (w.proc.config.archive a.backend).isSome = true
  store : m.honest = true → ∀ so, c = .store so → i.fault = none
  answer : m.honest = true → i.answer = none ∧ i.nodeReply = none
  bytes : m.honest = true → ∀ t r x d, exec env t c i w.toWorld = some (r, x) →
    c.delivers r = some d → d ∈ m.bytes

/-- the runs of a regime; one whose reclaims are rolled back stops only when nothing is under way -/
def Regime.mode (env : Env) (m : Regime) : Mode
  | s, .step t i => ∀ th c k, s.threads t = some th → th.rest = .call c k →
      m.Allows env th.op c i s.shared
  | s, .restart _ _ _ => m.wrapped = true → s.Quiescent
  | _, .start _ _ => True

/-! ## the discipline -/

variable (env : Env) (m : Regime)

def discipline : Discipline env where
  allow := m.Allows env
  inv := Inv env m
  rely := Keep env m
  guar := Guar env m
  last := Last env m
  idle := Idle
  mayRestart := fun s => m.wrapped = true → s.Quiescent
  quiet := .quiet
  lost := fun _ _ _ h => h.lost
  config := fun _ _ _ h => h.config

theorem admits : (discipline env m).Admits (m.mode env) where
  step := fun _ _ _ th c k hm hth hk => hm th c k hth hk
  restart := fun _ _ _ _ hm => hm

/-- a thread of the runs -/
abbrev party (b : Bool) (t : Tid) (op : Op) : Party env := (discipline env m).party b t op

section
variable {env : Env} {m : Regime} {b : Bool} {t : Tid} {op : Op} {w w' : Traced}
  {P Q : Traced → Prop}

/-! ## stable assertions -/

theorem Stable.firm (h : Stable env m t P) : (party env m b t op).Firm P where
  rely := fun w w' hr _ hP => h w w' hr hP
  quiet := fun w w' hq hP => h w w' (.of_quiet hq) hP

theorem Stable.and (hP : Stable env m t P) (hQ : Stable env m t Q) :
    Stable env m t (fun w => P w ∧ Q w) :=
  fun w w' hk h => ⟨hP w w' hk h.1, hQ w w' hk h.2⟩

theorem Stable.const (φ : Prop) : Stable env m t (fun _ => φ) := fun _ _ _ h => h

theorem Stable.imp {φ : Prop} (h : φ → Stable env m t P) : Stable env m t (fun w => φ → P w) :=
  fun w w' hk hP hφ => h hφ w w' hk (hP hφ)

theorem Stable.exists {ι : Type} {R : ι → Traced → Prop} (h : ∀ i, Stable env m t (R i)) :
    Stable env m t (fun w => ∃ i, R i w) :=
  fun w w' hk ⟨i, hR⟩ => ⟨i, h i w w' hk hR⟩

theorem stable_idle : Stable env m t (Idle t) :=
  fun _ _ hk h => ⟨fun X hX => h.own X ((hk.own X).mp hX), fun k hp => h.pay k ((hk.pay k).mp hp),
    fun hr => h.recovering (hk.recovering.mp hr)⟩

theorem stable_configured {backend : String} : Stable env m t (Configured backend) := by
  intro w w' hk h
  rw [Configured, hk.config]
  exact h

/-! ## an object in the hands of a thread -/

theorem Keep.sameAt (h : Keep env m t w w') {X : Uuid} (hX : Own t X w) : SameAt X w w' :=
  ⟨h.row X hX, h.journal X hX, h.attempts X hX, h.reservations X hX⟩

/-- the thread holds `X`, no other object, and exactly the payloads `ks` -/
structure Held (t : Tid) (X : Uuid) (ks : List (String × ContentHash)) (w : Traced) : Prop where
  own : ∀ Y, Own t Y w ↔ Y = X
  pay : ∀ k, Pay t k w ↔ k ∈ ks
  recovering : ¬Recovering t w

theorem Held.mine {X : Uuid} {ks : List (String × ContentHash)} (h : Held t X ks w) : Own t X w :=
  (h.own X).mpr rfl

theorem stable_held {X : Uuid} {ks : List (String × ContentHash)} :
    Stable env m t (Held t X ks) :=
  fun _ _ hk h => ⟨fun Y => (hk.own Y).trans (h.own Y), fun k => (hk.pay k).trans (h.pay k),
    fun hr => h.recovering (hk.recovering.mp hr)⟩

theorem Untouched.keep (h : Keep env m t w w') {j : JournalEntry} (hX : Own t j.objectId w)
    (hu : Untouched j w) : Untouched j w' := by
  intro S plan hp
  obtain ⟨hack, l₁, e, l₂, hlog, hres, hno⟩ := hu S plan hp
  obtain ⟨l, hl, hn⟩ := h.log
  refine ⟨by rw [h.acknowledged hX]; exact hack, l ++ l₁, e, l₂, ?_, hres, ?_⟩
  · rw [hl, hlog, List.append_assoc]
  · intro e' he'
    rcases List.mem_append.mp he' with he' | he'
    · exact hn _ hX e' he'
    · exact hno e' he'

theorem Settled.keep (h : Keep env m t w w') {X : Uuid} (hX : Own t X w) (hs : Settled m X w) :
    Settled m X w' where
  fine := hs.fine.imp h.lost fun hf => hf.congr (h.sameAt hX) h.config
  acked := fun hm => (hs.acked hm).congr (h.row X hX) (h.acknowledged hX)
  untouched := fun hm j hj hjX hopen => by
    subst hjX
    exact (hs.untouched hm j ((h.journal _ hX j rfl).mp hj) rfl hopen).keep h hX

/-- the thread holds an object that it could drop as it is -/
structure Ready (m : Regime) (t : Tid) (X : Uuid) (w : Traced) : Prop where
  held : Held t X [] w
  settled : Settled m X w

theorem stable_ready {X : Uuid} : Stable env m t (Ready m t X) :=
  fun w w' hk h => ⟨stable_held w w' hk h.held, h.settled.keep hk h.held.mine⟩

/-- the thread holds an object that it can drop with the result `r` -/
structure Leaving (m : Regime) (t : Tid) (op : Op) (X : Uuid) (r : Res op.Out) (w : Traced) :
    Prop where
  held : Held t X [] w
  fine : Lost w ∨ Fine m X w
  acked : m.wrapped = true → ∀ o, rowOf w X = some o →
    op.effect X r (acknowledged X w.log) = some o.flags
  untouched : m.wrapped = true → ∀ j ∈ w.store.journal, j.objectId = X →
    j.phase.isOpen = true → Untouched j w ∧ ¬Event.Acks X (.returned t op r)

theorem stable_leaving {X : Uuid} {r : Res op.Out} : Stable env m t (Leaving m t op X r) :=
  fun w w' hk h =>
    { held := stable_held w w' hk h.held
      fine := h.fine.imp hk.lost fun hf => hf.congr (hk.sameAt h.held.mine) hk.config
      acked := fun hm o ho => by
        rw [hk.row X h.held.mine] at ho
        rw [hk.acknowledged h.held.mine]
        exact h.acked hm o ho
      untouched := fun hm j hj hjX hopen => by
        subst hjX
        obtain ⟨hu, hno⟩ := h.untouched hm j ((hk.journal _ h.held.mine j rfl).mp hj) rfl hopen
        exact ⟨hu.keep hk h.held.mine, hno⟩ }

/-- an error leaves the object as it is -/
theorem Ready.leaving {X : Uuid} (h : Ready m t X w) (e : ReclaimError) :
    Leaving m t op X (.error e) w where
  held := h.held
  fine := h.settled.fine
  acked := fun hm o ho => by
    have hno : ¬Event.Acks X (.returned t op (.error e)) := fun h => h
    rw [Op.effect_of_not_acks hno]
    exact h.settled.acked hm o ho
  untouched := fun hm j hj hjX hopen => ⟨h.settled.untouched hm j hj hjX hopen, fun h => h⟩

/-! ## whole operations -/

/-- a last step may be preceded by a guaranteed one only when it is plain -/
theorem Last.of_guar {r : Res op.Out} (hg : Guar env m b t op w w')
    (h : Last env m b t op r w' w') : Last env m b t op r w w' := by
  cases h with
  | plain _ hidle hop hno => exact .plain hg hidle hop hno
  | @release X hown _ _ _ _ _ _ _ hproc _ _ =>
    have hmem := hown
    rw [Own, hproc, List.mem_filter, decide_eq_true_iff] at hmem
    exact absurd rfl hmem.2
  | recovered _ hrec _ _ _ hproc _ _ =>
    rw [Recovering, hproc] at hrec
    cases hrec

theorem Last.refused {r : Res op.Out} (hidle : Idle t w) (hop : op.opened r = false)
    (hno : ∀ X, ¬Event.Acks X (.returned t op r)) : Last env m b t op r w w :=
  .plain (.quiet (Quiet.refl w)) hidle hop hno

/-- an operation that takes no guard -/
theorem safe_plain {Q : op.Out → Traced → Prop} {E : ReclaimError → Traced → Prop}
    (hP : P w) (h : (party env m b t op).Triple false P (op.prog env) Q E)
    (hQ : ∀ a w, Q a w → Idle t w) (hE : ∀ e w, E e w → Idle t w)
    (hop : ∀ r, op.opened r = false) (htarget : op.target = none) :
    (discipline env m).Safe b t op (op.prog env) w := by
  have hno (X : Uuid) (r : Res op.Out) : ¬Event.Acks X (.returned t op r) :=
    not_acks_of_target (by rw [htarget]; simp)
  refine wpF_of_wp (fun _ _ _ hg h => Last.of_guar hg h) ?_
  refine wp_mono (h w hP (fun ht => by cases ht)) ?_
  intro r w' hr
  cases r with
  | ok a => exact Last.refused (hQ a w' hr.1) (hop _) (fun X => hno X _)
  | error e => exact Last.refused (hE e w' hr.1) (hop _) (fun X => hno X _)

/-- the object is dropped and the operation returns -/
theorem Leaving.last {X : Uuid} {r : Res op.Out} (h : Leaving m t op X r w)
    (htarget : op.target = some X) (hop : op.opened r = false) {e : Event}
    (he : Event.isCall e = true) (hs : w'.store = w.store) (hp : w'.payloads = w.payloads)
    (hb : w'.blobs = w.blobs) (hproc : w'.proc = { w.proc with
      activeObjects := w.proc.activeObjects.filter (fun e => decide (e.1 ≠ X)) })
    (hlog : w'.log = e :: w.log) : Last env m b t op r w w' := by
  refine .release h.held.mine (fun Y hY => (h.held.own Y).mp hY)
    (fun k hk => absurd ((h.held.pay k).mp hk) List.not_mem_nil) htarget hop hs hp hb hproc
    ⟨e, he, hlog⟩ ?_
  have hrow : rowOf (w'.returned t op r) X = rowOf w X := by
    show w'.store.objects.find? X = _
    rw [hs]
    rfl
  have hstore : (w'.returned t op r).store = w.store := hs
  have hsame : SameAt X w (w'.returned t op r) :=
    ⟨hrow, fun j _ => by rw [hstore], fun a _ => by rw [hstore], fun x _ => by rw [hstore]⟩
  have hack : acknowledged X w'.log = acknowledged X w.log :=
    (log_cons (t := t) ⟨e, he, hlog⟩).2 X
  refine ⟨?_, ?_, ?_⟩
  · rcases h.fine with hl | hf
    · refine .inl ?_
      show w'.proc.authorityLost = true
      rw [hproc]
      exact hl
    · refine .inr (hf.congr hsame ?_)
      show w'.proc.config = _
      rw [hproc]
  · intro hm o ho
    rw [acknowledged_returned, hack]
    rw [hrow] at ho
    exact h.acked hm o ho
  · rw [hstore]
    intro hm j hj hjX hopen
    obtain ⟨hu, hno⟩ := h.untouched hm j hj hjX hopen
    rw [← hjX] at hno
    exact (hu.mono (isCall_log ⟨e, he, hlog⟩)).returned hno

/-- the guard: an object that nobody holds is settled, or the coordinator is fenced -/
theorem begin_ready {X : Uuid} : (party env m true t op).Triple false (Idle t)
    (Coordinator.beginObjectOperation X) (fun _ => Ready m t X) (fun _ => Idle t) := by
  refine Party.Triple.beginObjectOperation (R := fun _ => True) stable_idle.firm (.const True)
    stable_ready.firm (fun _ _ _ _ => trivial) ?_
  intro w hw _ hi hnone hfree
  have hun : Unowned X w := hfree
  constructor
  · exact .acquire rfl hun hnone rfl rfl rfl rfl ⟨_, rfl, rfl⟩
  · refine ⟨⟨?_, ?_, hw.recovering⟩, ?_, ?_, ?_⟩
    · intro Y
      show (Y, t) ∈ (X, t) :: w.proc.activeObjects ↔ _
      rw [List.mem_cons]
      constructor
      · rintro (he | hm)
        · exact (Prod.mk.inj he).1
        · exact absurd hm (hw.own Y)
      · rintro rfl
        exact .inl rfl
    · intro k
      exact ⟨fun hk => absurd hk (hw.pay k), fun hk => absurd hk List.not_mem_nil⟩
    · rcases hi.settled rfl hnone X hun with hl | hf
      · exact .inl hl
      · refine .inr (Fine.congr (w := w) ?_ rfl hf)
        exact ⟨rfl, fun _ _ => Iff.rfl, fun _ _ => Iff.rfl, fun _ _ => Iff.rfl⟩
    · exact fun hm => Acked.congr (w := w) rfl rfl (hi.acked hm X hun)
    · intro hm j hj _ hopen
      exact Untouched.mono (w := w) (isCall_log ⟨_, rfl, rfl⟩) (hi.untouched hm j hj hopen)

/-- an operation that holds one object -/
theorem safe_withObject {X : Uuid} {body : M op.Out}
    (hprog : op.prog env = Coordinator.withObject X body) (htarget : op.target = some X)
    (hop : ∀ r, op.opened r = false)
    (hbody : (party env m true t op).Triple false (Ready m t X) body
      (fun a => Leaving m t op X (.ok a)) (fun _ => Ready m t X)) (hidle : Idle t w) :
    (discipline env m).Safe true t op (op.prog env) w := by
  have hlast : ∀ (r : Res op.Out) w₁ w₂, Guar env m true t op w₁ w₂ → Last env m true t op r w₂ w₂ →
      Last env m true t op r w₁ w₂ := fun _ _ _ hg h => Last.of_guar hg h
  rw [hprog]
  refine wpF_bind hlast ?_
  refine wp_mono (begin_ready w hidle (fun ht => by cases ht)) ?_
  intro r₀ w₀ h₀
  cases r₀ with
  | error e => exact Last.refused h₀.1 (hop _) (fun _ h => h)
  | ok _ =>
    -- the body, and whatever its outcome the guard is dropped
    refine wpF_bind hlast ?_
    refine wp_mono (Party.Triple.attempt (Q := fun r => Leaving m t op X r)
      (E := fun _ _ => False) (hbody.post (fun _ _ h => h) (fun e _ h => h.leaving e)) w₀ h₀.1
      (fun ht => by cases ht)) ?_
    intro r₁ w₁ h₁
    cases r₁ with
    | error e => exact absurd h₁.1 id
    | ok r =>
      refine wpF_call ?_
      intro w₂ hr hi i _
      refine ⟨fun _ => rfl, ?_⟩
      intro _ w₃ he
      have hw₂ : Leaving m t op X r w₂ := stable_leaving w₁ w₂ hr h₁.1
      have he : (exec env t (.removeActiveObject X) i w₂.toWorld).map _ = some _ := he
      simp only [exec] at he
      split at he
      · cases he
        refine ⟨?_, fun hf => by cases hf⟩
        rintro a ⟨⟩
        exact hw₂.last htarget (hop r) rfl rfl rfl rfl rfl rfl
      · cases he

/-- the thread runs recovery, and no object is left in a way that does harm -/
structure Begun (m : Regime) (b : Bool) (t : Tid) (w : Traced) : Prop where
  recovering : Recovering t w
  fine : b = true → ∀ X, Lost w ∨ Fine m X w

/-- while recovery runs nobody else changes what it looks at -/
theorem Keep.tables (hk : Keep env m t w w') (hr : Recovering t w) :
    w'.store.objects = w.store.objects ∧ w'.store.replicas = w.store.replicas ∧
      w'.store.dedup = w.store.dedup ∧ w'.store.attempts = w.store.attempts ∧
      w'.store.reservations = w.store.reservations ∧ w'.store.archives = w.store.archives ∧
      w'.store.journal = w.store.journal := by
  have hd := (hk.data hr).1
  exact ⟨congrArg Data.objects hd, congrArg Data.replicas hd, congrArg Data.dedup hd,
    congrArg Data.attempts hd, congrArg Data.reservations hd, congrArg Data.archives hd,
    congrArg Data.journal hd⟩

theorem Keep.sameAtAll (hk : Keep env m t w w') (hr : Recovering t w) (X : Uuid) :
    SameAt X w w' := by
  obtain ⟨hobj, _, _, hatt, hres, _, hjou⟩ := hk.tables hr
  exact ⟨by rw [rowOf, rowOf, hobj], fun j _ => by rw [hjou], fun a _ => by rw [hatt],
    fun r _ => by rw [hres]⟩

theorem stable_begun : Stable env m t (Begun m b t) :=
  fun _ _ hk h => ⟨hk.recovering.mpr h.recovering, fun hb X => (h.fine hb X).imp hk.lost
    fun hf => hf.congr (hk.sameAtAll h.recovering X) hk.config⟩

/-- recovery with the result `r` leaves every object settled when the coordinator serves -/
structure Recovered (m : Regime) (b : Bool) (t : Tid) (r : Res RecoveryReport) (w : Traced) :
    Prop where
  recovering : Recovering t w
  fine : (b || Op.opened .recover r) = true → ∀ X, Lost w ∨ Fine m X w

theorem stable_recovered {r : Res RecoveryReport} : Stable env m t (Recovered m b t r) :=
  fun _ _ hk h => ⟨hk.recovering.mpr h.recovering, fun hb X => (h.fine hb X).imp hk.lost
    fun hf => hf.congr (hk.sameAtAll h.recovering X) hk.config⟩

theorem Begun.error (h : Begun m b t w) (e : ReclaimError) : Recovered m b t (.error e) w :=
  ⟨h.recovering, fun hb => h.fine (by simpa [Op.opened] using hb)⟩

/-- recovery is safe when its body leaves every object settled -/
theorem safe_withRecovery {body : M RecoveryReport}
    (hprog : Op.prog env .recover = Coordinator.withRecovery body)
    (hbody : (party env m b t .recover).Triple false (Begun m b t) body
      (fun a => Recovered m b t (.ok a)) (fun _ => Begun m b t)) (hidle : Idle t w) :
    (discipline env m).Safe b t .recover (Op.prog env .recover) w := by
  have hlast : ∀ (r : Res RecoveryReport) w₁ w₂, Guar env m b t .recover w₁ w₂ →
      Last env m b t .recover r w₂ w₂ → Last env m b t .recover r w₁ w₂ :=
    fun _ _ _ hg h => Last.of_guar hg h
  have hbegin : (party env m b t .recover).Triple false (Idle t) Coordinator.beginRecovery
      (fun _ => Begun m b t) (fun _ => Idle t) := by
    refine Party.Triple.beginRecovery stable_idle.firm stable_begun.firm ?_
    intro w hw hi hnone hobj hpay
    refine ⟨.acquireRecovery rfl hnone hobj hpay rfl rfl rfl rfl ⟨_, rfl, rfl⟩, rfl, ?_⟩
    intro hb X
    have hun : Unowned X w := by
      intro u hu
      rw [Own, hobj] at hu
      exact List.not_mem_nil hu
    refine (hi.settled hb hnone X hun).imp id fun hf => Fine.congr (w := w) ?_ rfl hf
    exact ⟨rfl, fun _ _ => Iff.rfl, fun _ _ => Iff.rfl, fun _ _ => Iff.rfl⟩
  rw [hprog]
  refine wpF_bind hlast ?_
  refine wp_mono (hbegin w hidle (fun ht => by cases ht)) ?_
  intro r₀ w₀ h₀
  cases r₀ with
  | error e => exact Last.refused h₀.1 rfl (fun _ h => h)
  | ok _ =>
    refine wpF_bind hlast ?_
    refine wp_mono (Party.Triple.attempt (Q := fun r => Recovered m b t r)
      (E := fun _ _ => False) (hbody.post (fun _ _ h => h) (fun e _ h => h.error e)) w₀ h₀.1
      (fun ht => by cases ht)) ?_
    intro r₁ w₁ h₁
    cases r₁ with
    | error e => exact absurd h₁.1 id
    | ok r =>
      refine wpF_call ?_
      intro w₂ hr hi i _
      refine ⟨fun _ => rfl, ?_⟩
      intro _ w₃ he
      have hw₂ : Recovered m b t r w₂ := stable_recovered w₁ w₂ hr h₁.1
      have he : (exec env t .removeActiveRecovery i w₂.toWorld).map _ = some _ := he
      simp only [exec] at he
      split at he
      · cases he
        refine ⟨?_, fun hf => by cases hf⟩
        rintro a ⟨⟩
        exact .recovered rfl hw₂.recovering rfl rfl rfl rfl ⟨_, rfl, rfl⟩ hw₂.fine
      · cases he

end

end ReclaimFabric
