import ReclaimFabric.Safety.Modes

/-!
# Acknowledged updates

What clients were told: the flags and the access count of an object, and the operations on it that
returned Ok.

* `NothingSince`           an unresolved reclaim since whose reservation nothing was acknowledged;
* `acknowledged_survive`   when the failures of reclaims are rolled back, the rows have the
                           acknowledged values, and recovery undoes only reclaims of that kind;
* `acknowledged_lost`      a reclaim that fails between its reservation and its validation stays
                           unresolved, and recovery overwrites a pin acknowledged after it.
-/

namespace ReclaimFabric

section
variable {env : Env} {s s' : Sys} {X : Uuid} {t : Tid} {i : Input}

/-- `X` has an unresolved reclaim, and no call on `X` returned Ok since its reservation -/
def NothingSince (X : Uuid) (w : Traced) : Prop :=
  ∃ j ∈ w.store.journal, j.objectId = X ∧ j.phase.isOpen = true ∧ ∃ l₁ e l₂ prior,
    w.log = l₁ ++ e :: l₂ ∧ e.Reserves j prior ∧ ∀ e' ∈ l₁, ¬e'.Acks X

theorem Inv.nothingSince {m : Regime} {b : Bool} {w : Traced} (hi : Inv env m b w)
    (hm : m.wrapped = true) {j : JournalEntry} (hj : j ∈ w.store.journal) (hX : j.objectId = X)
    (hopen : j.phase.isOpen = true) : NothingSince X w := by
  obtain ⟨S, plan, hrec⟩ := hi.journal j hj
  obtain ⟨_, l₁, e, l₂, hlog, hres, hno⟩ := hi.untouched hm j hj hopen S plan hrec.payload
  subst hX
  exact ⟨j, hj, rfl, hopen, l₁, e, l₂, S.prior, hlog, hres, hno⟩

/-- what a step of recovery does to the row of an object -/
theorem RowJust.recovering {m : Regime} {b : Bool} {op : Op} {w : Traced} {o' : ReclaimObject}
    (h : RowJust m t op w X o') (hi : Inv env m b w) (hm : m.wrapped = true)
    (hrec : Recovering t w) : NothingSince X w ∨ ∃ o, rowOf w X = some o ∧
      o.lifecycleState = .reclaimPending ∧ o' = { o with lifecycleState := .failed } := by
  have howns (hX : Own t X w) : False := hi.own_not_recovering hX hrec
  cases h with
  | create hX => exact (howns hX).elim
  | flags hX => exact (howns hX).elim
  | tier hX => exact (howns hX).elim
  | route hX => exact (howns hX).elim
  | abort hX => exact (howns hX).elim
  | commit _ hX => exact (howns hX).elim
  | rollback _ _ hj hX hopen => exact .inl (hi.nothingSince hm hj hX hopen)
  | recommit _ _ _ hj hX hph =>
    refine .inl (hi.nothingSince hm hj hX ?_)
    revert hph
    cases JournalEntry.phase _ <;> decide
  | abandon _ _ hrow hpend ho' => exact .inr ⟨_, hrow, hpend, ho'⟩

/-- what a step of recovery does to replica rows -/
theorem Guar.replicas_recovering {m : Regime} {b : Bool} {op : Op} {w w' : Traced}
    (h : Guar env m b t op w w') (hi : Inv env m b w) (hm : m.wrapped = true)
    (hrec : Recovering t w) (r : Replica) (hr : r ∈ w'.store.replicas) :
    r ∈ w.store.replicas ∨ NothingSince r.objectId w := by
  have hsame (he : w'.store.replicas = w.store.replicas) :
      r ∈ w.store.replicas ∨ NothingSince r.objectId w := .inl (he ▸ hr)
  cases h with
  | @replica id old new T _ hd hswap hj =>
    have hT : w'.store.replicas = T := congrArg Data.replicas hd
    rw [hT, hswap.2.2.2.2] at hr
    rcases hr with hr | hr
    · exact .inl hr.1
    · cases hj with
      | add hX => exact (hi.own_not_recovering hX hrec).elim
      | delete hX => cases hr
      | update hpay => exact (hi.pay_not_recovering hpay hrec).elim
      | putBack _ hj hopen _ _ hX =>
        cases hr
        exact .inr (hi.nothingSince hm hj hX.symm hopen)
      | recommit => cases hr
  | quiet h => exact hsame h.replicas
  | acquire _ _ _ hs => exact hsame (by rw [hs])
  | acquireKeys _ _ _ _ hs => exact hsame (by rw [hs])
  | dropKeys _ _ hs => exact hsame (by rw [hs])
  | acquireRecovery _ _ _ _ hs => exact hsame (by rw [hs])
  | row _ hd => exact hsame (congrArg Data.replicas hd)
  | archive _ hd => exact hsame (congrArg Data.replicas hd)
  | dedup _ hd => exact hsame (congrArg Data.replicas hd)
  | lineage _ hd => exact hsame (congrArg Data.replicas hd)
  | reserve _ hd => exact hsame (congrArg Data.replicas hd)
  | journal _ hd => exact hsame (congrArg Data.replicas hd)
  | attempt _ hd => exact hsame (congrArg Data.replicas hd)
  | reservations _ hd => exact hsame (congrArg Data.replicas hd)
  | payload _ _ hs => exact hsame (by rw [hs])
  | blob _ _ _ hs => exact hsame (by rw [hs])

/-- what recovery may do to the rows of `X`: nothing, undo or finish a reclaim since which nothing
was acknowledged, or mark an abandoned reclaim as failed -/
def Harmless (X : Uuid) (w w' : Traced) : Prop :=
  NothingSince X w ∨ ((rowOf w' X = rowOf w X ∨ ∃ o, rowOf w X = some o ∧
      o.lifecycleState = .reclaimPending ∧
      rowOf w' X = some { o with lifecycleState := .failed }) ∧
    ∀ r ∈ w'.store.replicas, r.objectId = X → r ∈ w.store.replicas)

theorem Guar.harmless {m : Regime} {b : Bool} {op : Op} {w w' : Traced}
    (h : Guar env m b t op w w') (hi : Inv env m b w) (hm : m.wrapped = true)
    (hrec : Recovering t w) : Harmless X w w' := by
  by_cases hn : NothingSince X w
  · exact .inl hn
  refine .inr ⟨?_, ?_⟩
  · rcases h.row_cases X with hsame | ⟨o', ho', hj⟩
    · exact .inl hsame
    · obtain ⟨o, ho, hpend, rfl⟩ := (hj.recovering hi hm hrec).resolve_left hn
      exact .inr ⟨o, ho, hpend, ho'⟩
  · intro r hr hX
    refine (h.replicas_recovering hi hm hrec r hr).resolve_right ?_
    rw [hX]
    exact hn

/-- **Rows have the acknowledged values, and recovery moves nothing acknowledged back.** -/
theorem acknowledged_survive (h : Reach env (rolledBackRun env) s) :
    (∀ X o, Unowned X s.shared → rowOf s.shared X = some o →
      acknowledged X s.shared.log = some o.flags) ∧
    ∀ t i s', rolledBackRun env s (.step t i) → s.next env (.step t i) = some s' →
      Recovering t s.shared → ∀ X, Harmless X s.shared s'.shared := by
  have hinj : Regime.rolledBack.Collisionless env := fun h => by cases h
  have hreach := h.mono rolledBackRun_mode
  have hi := hreach.inv hinj
  refine ⟨fun X o hun ho => hi.acked rfl X hun o ho, ?_⟩
  intro t i s' hl hn hrec X
  cases hreach.moved hinj (rolledBackRun_mode s _ hl) hn with
  | stepped _ hg => exact hg.harmless hi rfl hrec
  | finished _ hlast hs =>
    rw [hs]
    have hstore {w : Traced} (hw : w.store = s.shared.store) : Harmless X s.shared w := by
      refine .inr ⟨.inl ?_, ?_⟩
      · rw [rowOf, rowOf, hw]
      · rw [hw]
        exact fun _ hr _ => hr
    cases hlast with
    | plain hg => exact hg.harmless hi rfl hrec
    | release _ _ _ _ _ hw => exact hstore hw
    | recovered _ _ hw => exact hstore hw

end

/-! ## a pin that survives -/

namespace Sample

/-- a decidable check of one command of a reclaim of `X` -/
def rolledBackCmd (X : Uuid) (c : Cmd) (w : Traced) : Bool :=
  match c with
  | .pollPayloads _ => w.store.replicas.rows.all fun r =>
      decide (r.objectId ≠ X) || decide (r.contentHash = Coordinator.emptyHash env) ||
        (w.store.dedup.find? (r.contentHash, r.location.backend)).any fun e =>
          decide (e.key = r.location.key) &&
            decide (w.store.replicas.countWhere (fun x =>
              decide (x.objectId = X) && decide (x.slot = r.slot)) ≤ e.refCount)
  | .store (.startJournalPhysical _ _ _) => w.store.archives.rows.all fun a =>
      (w.proc.config.archive a.backend).isSome
  | _ => true

/-- a decidable check: the failures of a reclaim that are not rolled back do not occur -/
def rolledBack (s : Sys) : Label → Bool
  | .restart _ _ _ => false
  | .start _ _ => true
  | .step t i =>
    match s.threads t with
    | none => true
    | some ⟨.reclaim req, .call c _⟩ =>
      (!c.bare || i.fault.isNone) && rolledBackCmd req.objectId c s.shared
    | some _ => true

theorem rolledBack_ok (s : Sys) (l : Label) (h : rolledBack s l = true) :
    rolledBackRun env s l := by
  cases l with
  | restart config bootId now => cases h
  | start t op => trivial
  | step t i =>
    rintro ⟨op, rest⟩ c k hth hk
    dsimp only at k hk ⊢
    subst hk
    refine ⟨fun req hop hbare => ?_, fun req hop ks hc => ?_, fun req hop id p n hc => ?_⟩
    · subst hop
      simp only [rolledBack, hth, hbare, Bool.and_eq_true] at h
      simpa using h.1
    · subst hop
      subst hc
      simp only [rolledBack, hth, rolledBackCmd, Bool.and_eq_true, List.all_eq_true] at h
      intro r hr hX hne
      have hrow := h.2 r hr
      simp only [hX, ne_eq, not_true_eq_false, decide_false, Bool.false_or, Bool.or_eq_true,
        decide_eq_true_eq] at hrow
      obtain ⟨e, he, hkey⟩ := (Option.any_eq_true _ _).mp (hrow.resolve_left hne)
      rw [Bool.and_eq_true, decide_eq_true_iff, decide_eq_true_iff] at hkey
      exact ⟨e, he, hkey.1, hkey.2⟩
    · subst hop
      subst hc
      simp only [rolledBack, hth, rolledBackCmd, Bool.and_eq_true, List.all_eq_true] at h
      intro a ha _
      exact h.2 a ha

/-- the reclaim of a registered object, which cannot read the lineage and rolls back -/
def readFails : Option Sys :=
  (after rolledBack (opened rolledBack) (register (object 10) "a") 200).bind fun s =>
    s.call? env rolledBack 1 (reclaim 10) (failing 166 600)

/-- then the object is pinned -/
def pinnedAfter : Option Sys := after rolledBack readFails (.pin (uuid 10) "client") 1000

theorem reached_pinnedAfter {s : Sys} (h : pinnedAfter = some s) :
    Reach env (rolledBackRun env) s ∧ s.Quiescent := by
  unfold pinnedAfter after readFails after at h
  obtain ⟨s₃, h₃, h₁⟩ := Option.bind_eq_some_iff.mp h
  obtain ⟨s₄, h₄, h₃⟩ := Option.bind_eq_some_iff.mp h₃
  obtain ⟨s₅, h₅, h₄⟩ := Option.bind_eq_some_iff.mp h₄
  have hq := (Sys.call?_quiescent (Sys.call?_quiescent (Sys.call?_quiescent
    (Sys.open?_quiescent h₅) h₄) h₃) h₁)
  have hr := (((reached_opened rolledBack_ok (fun _ => rfl) s₅
    h₅).call? rolledBack_ok h₄).call? rolledBack_ok h₃).call? rolledBack_ok h₁
  exact ⟨hr, hq⟩

/-- and recovery is called -/
def recoveredAfter : Option Sys := after rolledBack pinnedAfter .recover 1200

theorem reached_recoveredAfter {s : Sys} (h : recoveredAfter = some s) :
    Reach env (rolledBackRun env) s ∧ Unowned (uuid 10) s.shared := by
  unfold recoveredAfter after at h
  obtain ⟨s₁, h₁, h⟩ := Option.bind_eq_some_iff.mp h
  obtain ⟨hr₁, hq₁⟩ := reached_pinnedAfter h₁
  have hr := hr₁.call? rolledBack_ok h
  refine ⟨hr, fun t ht => ?_⟩
  exact (((hr.mono rolledBackRun_mode).holds fun h => by cases h).idle t
    (Sys.call?_quiescent hq₁ h t)).own _ ht

/-- the pin is there after recovery, which found the reclaim rolled back -/
theorem recoveredAfter_row : (recoveredAfter.any fun s =>
    (match s.shared.log.head? with
      | some (.returned _ .recover (.ok _)) => true
      | _ => false) &&
    (rowOf s.shared (uuid 10)).any fun o => o.pinned &&
      s.shared.store.journal.rows.any fun j => decide (j.phase = .rolledBack)) = true := by
  decide +kernel

/-- that recovery, before a command on the store -/
def recoveringAfter : Option Sys := during rolledBack 1 pinnedAfter .recover (calm 1200) 12

theorem recoveringAfter_steps : (recoveringAfter.any fun s =>
    decide (s.shared.proc.activeRecovery = some 1) && rolledBack s (.step 1 (calm 1200 12)) &&
      (s.next env (.step 1 (calm 1200 12))).isSome) = true := by
  decide +kernel

theorem reached_recoveringAfter : Reached (rolledBackRun env) recoveringAfter :=
  Reached.during rolledBack_ok fun _ h => (reached_pinnedAfter h).1

end Sample

theorem acknowledged_survive_pin :
    (∃ s o, Reach Sample.env (rolledBackRun Sample.env) s ∧
      rowOf s.shared (Sample.uuid 10) = some o ∧ o.pinned = true ∧
      acknowledged (Sample.uuid 10) s.shared.log = some o.flags) ∧
    ∃ s s' : Sys, Recovering 1 s.shared ∧
      s.next Sample.env (.step 1 (Sample.calm 1200 12)) = some s' ∧
      ∀ X, Harmless X s.shared s'.shared := by
  constructor
  · obtain ⟨s, hs, h⟩ := (Option.any_eq_true _ _).mp Sample.recoveredAfter_row
    rw [Bool.and_eq_true] at h
    obtain ⟨o, ho, h⟩ := (Option.any_eq_true _ _).mp h.2
    rw [Bool.and_eq_true] at h
    obtain ⟨hr, hun⟩ := Sample.reached_recoveredAfter hs
    exact ⟨s, o, hr, ho, h.1, (acknowledged_survive hr).1 _ o hun ho⟩
  · obtain ⟨s, hs, h⟩ := (Option.any_eq_true _ _).mp Sample.recoveringAfter_steps
    rw [Bool.and_eq_true, Bool.and_eq_true] at h
    obtain ⟨⟨hrec, hok⟩, hsome⟩ := h
    obtain ⟨s', hn⟩ := Option.isSome_iff_exists.mp hsome
    have hr := Sample.reached_recoveringAfter s hs
    rw [decide_eq_true_iff] at hrec
    exact ⟨s, s', hrec, hn,
      (acknowledged_survive hr).2 1 _ s' (Sample.rolledBack_ok s _ hok) hn hrec⟩

/-! ## a pin that is lost -/

/-- store calls may fail, nothing else does; the process stops and recovery is called only when
nothing is under way -/
def storeFaultRun : Mode
  | s, .restart _ _ _ => s.Quiescent
  | s, .start _ .recover => s.Quiescent
  | s, l => stepwise (fun _ c i _ => ((∀ so, c ≠ .store so) → i.fault = none) ∧ i.answer = none ∧
      i.nodeReply = none ∧ i.bytes = none) s l

namespace Sample

/-- a decidable check: requests and steps in which at most a store call fails -/
def storeFaults (s : Sys) : Label → Bool
  | .restart _ _ _ => false
  | .start _ .recover => false
  | .start _ _ => true
  | .step t i =>
    i.answer.isNone && i.nodeReply.isNone && i.bytes.isNone &&
      match s.threads t with
      | none => true
      | some th =>
        match th.rest with
        | .call (.store _) _ => true
        | _ => i.fault.isNone

theorem storeFaults_ok (s : Sys) (l : Label) (h : storeFaults s l = true) :
    storeFaultRun s l := by
  cases l with
  | restart config bootId now => cases h
  | start t op =>
    cases op with
    | recover => cases h
    | _ => trivial
  | step t i =>
    intro th c k hth hk
    simp only [storeFaults, hth, hk, Bool.and_eq_true, Option.isNone_iff_eq_none] at h
    obtain ⟨⟨⟨ha, hn⟩, hb⟩, hf⟩ := h
    refine ⟨fun hc => ?_, ha, hn, hb⟩
    cases c with
    | store so => exact absurd rfl (hc so)
    | _ => exact Option.isNone_iff_eq_none.mp hf

/-- the reclaim of a registered object, whose journal update to VALIDATED fails -/
def leftReserved : Option Sys :=
  (after storeFaults (opened storeFaults) (register (object 10) "a") 200).bind fun s =>
    s.call? env storeFaults 1 (reclaim 10) (failing 145 600)

/-- the object is pinned, and then recovery is called -/
def recovered : Option Sys :=
  (after storeFaults leftReserved (.pin (uuid 10) "client") 1000).bind fun s =>
    (s.next env (.start 1 .recover)).bind (Sys.finish? env storeFaults 1 (calm 1100) 500 0)

theorem reached_recovered {s : Sys} (h : recovered = some s) :
    Reach env storeFaultRun s ∧ s.Quiescent := by
  obtain ⟨s₁, h₁, h⟩ := Option.bind_eq_some_iff.mp h
  obtain ⟨s₂, hn, h⟩ := Option.bind_eq_some_iff.mp h
  obtain ⟨s₃, h₃, h₁⟩ := Option.bind_eq_some_iff.mp h₁
  obtain ⟨s₄, h₄, h₃⟩ := Option.bind_eq_some_iff.mp h₃
  obtain ⟨s₅, h₅, h₄⟩ := Option.bind_eq_some_iff.mp h₄
  have hq := (Sys.call?_quiescent (Sys.call?_quiescent (Sys.call?_quiescent
    (Sys.open?_quiescent h₅) h₄) h₃) h₁)
  have hr := (((reached_opened storeFaults_ok (fun _ => rfl) s₅
    h₅).call? storeFaults_ok h₄).call? storeFaults_ok h₃).call? storeFaults_ok h₁
  refine ⟨(Reach.next (.start 1 .recover) hr hq hn).finish? storeFaults_ok h, ?_⟩
  exact Sys.finish?_quiescent (fun u hu => (Sys.start_threads hn hu).trans (hq u)) h

/-- recovery has returned Ok; the row is no longer pinned, the client was told that it is -/
theorem recovered_row : (recovered.any fun s =>
    (match s.shared.log.head? with
      | some (.returned _ .recover (.ok _)) => true
      | _ => false) &&
    (rowOf s.shared (uuid 10)).any fun o => !o.pinned &&
      (acknowledged (uuid 10) s.shared.log).any Flags.pinned) = true := by
  decide +kernel

end Sample

theorem acknowledged_lost : ¬∀ (env : Env) (s : Sys) (t : Tid) (report : RecoveryReport),
    Reach env storeFaultRun s → s.Quiescent →
    s.shared.log.head? = some (.returned t .recover (.ok report)) →
    ∀ X o, rowOf s.shared X = some o → acknowledged X s.shared.log = some o.flags := by
  intro hall
  obtain ⟨s, hs, h⟩ := (Option.any_eq_true _ _).mp Sample.recovered_row
  rw [Bool.and_eq_true] at h
  obtain ⟨hhead, h⟩ := h
  obtain ⟨o, ho, h⟩ := (Option.any_eq_true _ _).mp h
  rw [Bool.and_eq_true] at h
  obtain ⟨f, hf, hpin⟩ := (Option.any_eq_true _ _).mp h.2
  obtain ⟨hr, hq⟩ := Sample.reached_recovered hs
  split at hhead
  · next t report hlog =>
    have hack := hall Sample.env s t report hr hq hlog (Sample.uuid 10) o ho
    rw [hf] at hack
    cases hack
    have hnot : o.pinned = false := by simpa using h.1
    have hpin : o.pinned = true := hpin
    rw [hnot] at hpin
    cases hpin
  · cases hhead

end ReclaimFabric
