import ReclaimFabric.Recovery.Again

/-!
# How operations take and drop guards

A thread on its own, with whatever answers the shared state gives it.  A `Grip` is what the thread
holds: the coordinator mutex, the guard of one object, payload keys, the recovery guard.

* `Grip.allows`   the commands a thread may issue with what it holds;
* `Neutral`       a part of an operation issues only such commands and ends with what it started with;
* `Ends`          a whole operation does, from nothing to nothing;
* `ends_prog`     every operation of the coordinator does.

An operation on an object does nothing but check its authority before it holds the guard of the
object, asks for payload keys only while it has none and outside of every section, and writes an
edge only in the section in which it found both endpoints idle.
-/

namespace ReclaimFabric

open Prog (attempt settle Only)

/-- the guard an operation works under -/
inductive Role where
  | free
  | object (id : Uuid)
  | recovery
deriving DecidableEq

/-- what one thread holds of the process memory -/
structure Grip where
  role : Role
  mutex : Bool
  object : Option Uuid
  keys : List (String × ContentHash)
  recovering : Bool
  /-- the lineage endpoints found idle in this section -/
  cleared : Option (Uuid × Uuid)
  /-- the object row written last without an audit row, and its state -/
  noted : Option (Uuid × LifecycleState)

namespace Grip

/-- nothing is held -/
def start (role : Role) : Grip := ⟨role, false, none, [], false, none, none⟩

/-- the thread holds the guard its operation works under -/
def armed (h : Grip) : Bool :=
  match h.role with
  | .free => true
  | .object id => decide (h.object = some id)
  | .recovery => h.recovering

/-- the audit row is about the row written last -/
def announces (h : Grip) (a : AuditEntry) : Bool :=
  match h.noted with
  | none => false
  | some (id, state) => decide (a.objectId = some id) && decide (a.newState = some state)

/-- may a thread that holds `h` issue the command -/
def allows (h : Grip) : Cmd → Bool
  | .lock => !h.mutex
  | .unlock => h.mutex
  | .insertActiveObject id =>
    h.mutex && decide (h.role = .object id) && h.object.isNone && h.cleared.isNone
  | .removeActiveObject id => !h.mutex && decide (h.object = some id)
  | .pollPayloads ks => h.armed && !h.mutex && decide (h.keys = []) && decide ks.Nodup
  | .removeActivePayloads ks => !h.mutex && decide (h.keys = ks)
  | .insertActiveRecovery =>
    h.mutex && decide (h.role = .recovery) && !h.recovering && h.cleared.isNone
  | .removeActiveRecovery => !h.mutex && h.recovering
  | .lineageBusy _ _ => h.mutex
  | .store (.addLineageEdge p c _) => h.armed && decide (h.cleared = some (p, c))
  | .store (.removeLineageEdge p c _) => h.armed && decide (h.cleared = some (p, c))
  | .store (.updateObject o) =>
    h.armed && (decide (h.role = .recovery) || decide (h.role = .object o.id))
  | .store (.createObject _) => h.armed && decide (h.role = .recovery)
  | .store (.updateObjectWithAudit _ a) => h.armed && h.noted.isNone && a.newState.isSome
  | .store (.createObjectWithAudits _ as) =>
    h.armed && h.noted.isNone && as.any (fun a => a.newState.isSome)
  | .store (.appendAudit a) => h.armed && (a.newState.isNone || h.announces a)
  -- what every section starts with
  | .loadAuthorityLost | .setAuthorityLost | .readProc | .now
  | .store (.coordinatorHeartbeat _ _ _ _) => true
  | _ => h.armed

/-- what it holds once the command has answered -/
def after (h : Grip) : (c : Cmd) → c.Reply → Grip
  | .loadAuthorityLost, _ => { h with noted := none }
  | .lock, _ => { h with mutex := true, noted := none }
  | .unlock, _ => { h with mutex := false, cleared := none, noted := none }
  | .insertActiveObject id, .ok () => { h with object := some id, noted := none }
  | .removeActiveObject _, _ => { h with object := none, noted := none }
  | .pollPayloads ks, true => { h with keys := ks }
  | .removeActivePayloads _, _ => { h with keys := [] }
  | .insertActiveRecovery, .ok () => { h with recovering := true, noted := none }
  | .removeActiveRecovery, _ => { h with recovering := false, noted := none }
  | .lineageBusy p c, busy => { h with cleared := if busy then none else some (p, c) }
  | .store (.updateObject o), .ok () => { h with noted := some (o.id, o.lifecycleState) }
  | .store (.createObject o), .ok () => { h with noted := some (o.id, o.lifecycleState) }
  | _, _ => h

/-- in a section -/
def enter (h : Grip) : Grip := { h with mutex := true, noted := none }

/-- out of the section -/
def leave (h : Grip) : Grip := { h with mutex := false, cleared := none, noted := none }

end Grip

/-- the commands that concern neither the mutex nor a guard nor an edge nor an object row -/
def Cmd.plain : Cmd → Bool
  | .loadAuthorityLost | .lock | .unlock | .insertActiveObject _ | .removeActiveObject _
  | .pollPayloads _
  | .removeActivePayloads _ | .insertActiveRecovery | .removeActiveRecovery | .lineageBusy _ _
  | .store (.addLineageEdge _ _ _) | .store (.removeLineageEdge _ _ _)
  | .store (.updateObject _) | .store (.createObject _) | .store (.updateObjectWithAudit _ _)
  | .store (.createObjectWithAudits _ _) => false
  | .store (.appendAudit a) => a.newState.isNone
  | _ => true

/-- the store methods that write an object row with an audit row that names its state -/
def StoreOp.audited : StoreOp → Bool
  | .updateObjectWithAudit _ a => a.newState.isSome
  | .createObjectWithAudits _ as => as.any (fun a => a.newState.isSome)
  | _ => false

/-- an object is found under the id that was asked for -/
def Cmd.Sane : (c : Cmd) → c.Reply → Prop
  | .store (.requireObject id), .ok o => o.id = id
  | .store (.getObject id), .ok (some o) => o.id = id
  | _, _ => True

/-- a thread on its own, with whatever sane answers it gets -/
def guardAgent : Agent Cmd Cmd.Reply ((c : Cmd) → c.Reply) Grip where
  exec c i h := if h.allows c then some (i c, h.after c (i c)) else none
  allow c i _ := c.Sane (i c)
  inv _ := True
  rely h h' := h' = h
  guar _ _ := True
  block := False

/-- started from `P` under its guard, the program issues only commands it may issue and ends
holding what it held -/
def Neutral {α : Type} (P : Grip → Prop) (x : M α) : Prop :=
  ∀ h, h.armed = true → P h → wpE guardAgent x (fun _ h' => h' = h) (fun _ h' => h' = h) h

/-- outside of every section -/
def Outside (h : Grip) : Prop := h.mutex = false ∧ h.cleared = none ∧ h.noted = none

/-- inside a section -/
def Inside (h : Grip) : Prop := h.mutex = true ∧ h.noted = none

/-- outside of every section, without payload keys -/
def Keyless (h : Grip) : Prop := Outside h ∧ h.keys = []

/-! ## programs that keep what they hold -/

section
variable {α β : Type} {P : Grip → Prop} {x y : M α} {f : α → M β}

theorem Neutral.mono {P' : Grip → Prop} (hx : Neutral P x) (h : ∀ k, P' k → P k) : Neutral P' x :=
  fun k ha hk => hx k ha (h k hk)

theorem neutral_pure {a : α} : Neutral P (pure a) := fun _ _ _ => wpE_pure.mpr rfl

theorem neutral_throw {e : ReclaimError} : Neutral P (throw e : M α) :=
  fun _ _ _ => wpE_throw.mpr rfl

theorem neutral_settle {r : Res α} : Neutral P (settle r) := by
  intro h _ _
  apply wpE_settle.mpr
  cases r with
  | ok a => rfl
  | error e => rfl

theorem Neutral.bind (hx : Neutral P x) (hf : ∀ a, Neutral P (f a)) : Neutral P (x >>= f) := by
  intro h ha hP
  apply wpE_bind.mpr
  refine wpE_mono (hx h ha hP) ?_ fun _ _ he => he
  rintro a h' rfl
  exact hf a _ ha hP

theorem Neutral.attempt (hx : Neutral P x) : Neutral P (attempt x) :=
  fun h ha hP => wpE_attempt.mpr (hx h ha hP)

theorem Neutral.ite {c : Prop} [Decidable c] (hx : Neutral P x) (hy : Neutral P y) :
    Neutral P (if c then x else y) := by
  by_cases hc : c
  · rw [if_pos hc]
    exact hx
  · rw [if_neg hc]
    exact hy

/-- a check that may refuse -/
theorem Neutral.refuse {c : Prop} [Decidable c] {e : ReclaimError} (hx : Neutral P x) :
    Neutral P (if c then (throw e >>= fun _ : Unit => x) else x) :=
  (neutral_throw.bind fun _ => hx).ite hx

/-- a step that may be left out -/
theorem Neutral.when {c : Prop} [Decidable c] {z : M Unit} (hz : Neutral P z) (hx : Neutral P x) :
    Neutral P (if c then (z >>= fun _ => x) else x) :=
  (hz.bind fun _ => hx).ite hx

/-- nothing comes after an error -/
theorem neutral_thrown {e : ReclaimError} : Neutral P (throw e >>= f) :=
  fun _ _ _ => wpE_bind.mpr (wpE_throw.mpr rfl)

/-- what a command asks of the thread, and what the thread holds then -/
theorem wpE_sane {Q : α → Grip → Prop} {E : ReclaimError → Grip → Prop} {h : Grip} {c : Cmd}
    {k : c.Reply → Prog Cmd Cmd.Reply (Res α)} (hc : h.allows c = true)
    (hk : ∀ r, c.Sane r → wp guardAgent (k r) (outcome Q E) (h.after c r)) :
    wpE guardAgent (ExceptT.mk (.call c k)) Q E h := by
  rintro h' rfl _ i hi
  show Agent.after _ _ (if h'.allows c then _ else _) _
  rw [if_pos hc]
  exact ⟨trivial, hk (i c) hi⟩

theorem wpE_command {Q : α → Grip → Prop} {E : ReclaimError → Grip → Prop} {h : Grip} {c : Cmd}
    {k : c.Reply → Prog Cmd Cmd.Reply (Res α)} (hc : h.allows c = true)
    (hk : ∀ r, wp guardAgent (k r) (outcome Q E) (h.after c r)) :
    wpE guardAgent (ExceptT.mk (.call c k)) Q E h := wpE_sane hc fun r _ => hk r

theorem after_plain {c : Cmd} (hc : c.plain = true) (h : Grip) (r : c.Reply) : h.after c r = h := by
  cases c with
  | store op => cases op <;> first | rfl | cases hc
  | _ => first | rfl | cases hc

theorem after_role {c : Cmd} (h : Grip) (r : c.Reply) : (h.after c r).role = h.role := by
  cases c with
  | insertActiveObject id => cases r <;> rfl
  | insertActiveRecovery => cases r <;> rfl
  | pollPayloads ks => cases r <;> rfl
  | store op =>
    cases op with
    | updateObject o => cases r <;> rfl
    | createObject o => cases r <;> rfl
    | _ => rfl
  | _ => rfl

theorem allows_plain {c : Cmd} (hc : c.plain = true) {h : Grip} (ha : h.armed = true) :
    h.allows c = true := by
  cases c with
  | store op =>
    cases op with
    | appendAudit a =>
      have hnone : a.newState.isNone = true := hc
      show (h.armed && (a.newState.isNone || h.announces a)) = true
      rw [ha, hnone]
      rfl
    | _ => first | exact ha | rfl | cases hc
  | _ => first | exact ha | rfl | cases hc

theorem neutral_ask {c : Cmd} (hc : c.plain = true) : Neutral P (Coordinator.ask c) := by
  intro h ha _
  apply wpE_command (allows_plain hc ha)
  intro r
  rw [after_plain hc]
  rfl

/-- a command whose answer is the outcome -/
theorem neutral_call {c : Cmd} (hc : c.plain = true) (k : c.Reply → Res α) :
    Neutral P (ExceptT.mk (.call c fun r => .ret (k r)) : M α) := by
  intro h ha _
  apply wpE_command (allows_plain hc ha)
  intro r
  rw [after_plain hc]
  show outcome _ _ (k r) h
  cases k r with
  | ok a => rfl
  | error e => rfl

theorem neutral_store {op : StoreOp} (hc : (Cmd.store op).plain = true) :
    Neutral P (Coordinator.store op) := neutral_call hc id

/-- an object row written with its audit row -/
theorem neutral_audited {op : StoreOp} (hc : op.audited = true) :
    Neutral Inside (Coordinator.store op) := by
  intro h ha hh
  have hallow : h.allows (.store op) = true := by
    cases op with
    | updateObjectWithAudit o a =>
      have hsome : a.newState.isSome = true := hc
      show (h.armed && h.noted.isNone && a.newState.isSome) = true
      rw [ha, hh.2, hsome]
      rfl
    | createObjectWithAudits o as =>
      have hany : as.any (fun a => a.newState.isSome) = true := hc
      show (h.armed && h.noted.isNone && as.any (fun a => a.newState.isSome)) = true
      rw [ha, hh.2, hany]
      rfl
    | _ => cases hc
  have hafter : ∀ r, h.after (.store op) r = h := by
    intro r
    cases op <;> first | rfl | cases hc
  apply wpE_command hallow
  intro r
  rw [hafter]
  cases r with
  | ok a => exact (rfl : h = h)
  | error e => exact (rfl : h = h)

theorem neutral_now : Neutral P Coordinator.nowMs := neutral_ask rfl

theorem neutral_config : Neutral P Coordinator.config :=
  (neutral_ask rfl).bind fun _ => neutral_pure

/-- the first command of a section forgets the row written last -/
theorem wpE_fresh {Q : α → Grip → Prop} {E : ReclaimError → Grip → Prop} {h : Grip}
    {k : Bool → Prog Cmd Cmd.Reply (Res α)} (hx : x.run = .call .loadAuthorityLost k)
    (hw : wpE guardAgent x Q E { h with noted := none }) : wpE guardAgent x Q E h := by
  unfold wpE at hw ⊢
  rw [hx] at hw ⊢
  rintro h' rfl _ i hi
  exact hw _ rfl trivial i hi

theorem Outside.unnoted {h : Grip} (hh : Outside h) : { h with noted := none } = h := by
  cases h
  obtain ⟨-, -, hn⟩ := hh
  cases hn
  rfl

theorem Outside.leave_enter {h : Grip} (hh : Outside h) : h.enter.leave = h := by
  cases h
  obtain ⟨hm, hc, hn⟩ := hh
  cases hm
  cases hc
  cases hn
  rfl

theorem wpE_lock {Q : α → Grip → Prop} {E : ReclaimError → Grip → Prop} {h : Grip}
    (hm : h.mutex = false) (hx : wpE guardAgent x Q E h.enter) :
    wpE guardAgent (Coordinator.ask .lock >>= fun _ => x) Q E h := by
  have hlock : h.allows .lock = true := by
    show (!h.mutex) = true
    rw [hm]
    rfl
  apply wpE_bind.mpr
  apply wpE_command hlock
  exact fun _ => hx

theorem wpE_unlock {Q : α → Grip → Prop} {E : ReclaimError → Grip → Prop} {h : Grip}
    (hm : h.mutex = true) (hx : wpE guardAgent x Q E h.leave) :
    wpE guardAgent (Coordinator.ask .unlock >>= fun _ => x) Q E h := by
  apply wpE_bind.mpr
  apply wpE_command
  · exact hm
  · exact fun _ => hx

/-- a section: its body starts under the mutex, and nothing is held when the section is refused -/
theorem wpE_withInner {Q : α → Grip → Prop} {E : ReclaimError → Grip → Prop} {h : Grip}
    (hh : Outside h) (hE : ∀ e, E e h)
    (hx : wpE guardAgent x (fun a h' => h'.mutex = true ∧ Q a h'.leave)
      (fun e h' => h'.mutex = true ∧ E e h'.leave) h.enter) :
    wpE guardAgent (Coordinator.withInner x) Q E h := by
  have hback : h.enter.leave = h := hh.leave_enter
  unfold Coordinator.withInner
  apply wpE_bind.mpr
  apply wpE_command rfl
  intro lost
  rw [show h.after .loadAuthorityLost lost = h from hh.unnoted]
  cases lost with
  | true =>
    show wpE guardAgent (throw Coordinator.authorityLostError : M α) Q E h
    exact wpE_throw.mpr (hE _)
  | false =>
    apply wpE_lock hh.1
    apply wpE_bind.mpr
    apply wpE_command rfl
    intro p
    apply wpE_bind.mpr
    apply wpE_command rfl
    intro now
    apply wpE_bind.mpr
    apply wpE_attempt.mpr
    apply wpE_command rfl
    intro r
    cases r with
    | error e =>
      show wpE guardAgent (Coordinator.ask .setAuthorityLost >>= _) Q E h.enter
      apply wpE_bind.mpr
      apply wpE_command rfl
      intro _
      show wpE guardAgent (Coordinator.ask .unlock >>= fun _ => settle (.error e)) Q E h.enter
      apply wpE_unlock rfl
      rw [hback]
      exact wpE_settle.mpr (hE e)
    | ok u =>
      show wpE guardAgent (attempt x >>= _) Q E h.enter
      apply wpE_bind.mpr
      apply wpE_attempt.mpr
      refine wpE_mono hx ?_ ?_
      · rintro a h' ⟨hm, hq⟩
        exact wpE_unlock hm (wpE_settle.mpr hq)
      · rintro e h' ⟨hm, he⟩
        exact wpE_unlock hm (wpE_settle.mpr he)

theorem Neutral.section (hx : Neutral Inside x) : Neutral Outside (Coordinator.withInner x) := by
  intro h ha hh
  have hback : h.enter.leave = h := hh.leave_enter
  refine wpE_withInner hh (fun _ => ?_) ?_
  · rfl
  refine wpE_mono (hx h.enter ha ⟨rfl, rfl⟩) ?_ ?_
  · rintro a h' rfl
    exact ⟨rfl, hback⟩
  · rintro e h' rfl
    exact ⟨rfl, hback⟩

theorem neutral_inner {op : StoreOp} (hc : (Cmd.store op).plain = true) :
    Neutral Outside (Coordinator.inner op) := (neutral_store hc).section

end

/-! ## guards -/

section
variable {α : Type} {x : M α} {h : Grip} {keys : List (String × ContentHash)}

theorem wpE_pollRound (ha : h.armed = true) (hh : Keyless h) (hn : keys.Nodup) :
    wpE guardAgent (Coordinator.pollRound keys)
      (fun got h' => h' = if got then { h with keys := keys } else h) (fun _ h' => h' = h) h := by
  have hpoll : h.allows (.pollPayloads keys) = true := by
    obtain ⟨⟨hm, -⟩, hk⟩ := hh
    simp [Grip.allows, ha, hm, hk, hn]
  unfold Coordinator.pollRound
  apply wpE_bind.mpr
  apply wpE_command
  · exact ha
  intro down
  cases down with
  | true => exact (rfl : h = h)
  | false =>
    apply wpE_bind.mpr
    apply wpE_command rfl
    intro lost
    rw [show (h.after .loadShutdown false).after .loadAuthorityLost lost = h from hh.1.unnoted]
    cases lost with
    | true => exact (rfl : h = h)
    | false =>
      apply wpE_command hpoll
      intro got
      cases got with
      | true => rfl
      | false => rfl

theorem wpE_pollLoop (ha : h.armed = true) (hh : Keyless h) (hn : keys.Nodup) (n : Nat) :
    wpE guardAgent (Coordinator.pollLoop keys n) (fun _ h' => h' = { h with keys := keys })
      (fun _ h' => h' = h) h := by
  induction n with
  | zero =>
    apply wpE_bind.mpr
    refine wpE_mono (wpE_pollRound ha hh hn) ?_ fun _ _ he => he
    rintro got h' rfl
    cases got with
    | true => exact wpE_pure.mpr rfl
    | false =>
      apply wpE_bind.mpr
      apply wpE_command
      · exact ha
      intro _
      exact (rfl : h = h)
  | succ n ih =>
    apply wpE_bind.mpr
    refine wpE_mono (wpE_pollRound ha hh hn) ?_ fun _ _ he => he
    rintro got h' rfl
    cases got with
    | true => exact wpE_pure.mpr rfl
    | false => exact ih

theorem wpE_beginPayloads (ha : h.armed = true) (hh : Keyless h) :
    wpE guardAgent (Coordinator.beginPayloadOperations keys)
      (fun _ h' => h' = { h with keys := Coordinator.sortKeys keys }) (fun _ h' => h' = h) h := by
  apply wpE_bind.mpr
  apply wpE_command
  · exact ha
  intro n
  exact wpE_pollLoop ha hh (List.nodup_dedup _) n

theorem wpE_holding {P : Grip → Prop} (ha : h.armed = true) (hh : Keyless h) (hx : Neutral P x)
    (hP : P { h with keys := Coordinator.sortKeys keys }) :
    wpE guardAgent (Coordinator.holding keys x) (fun _ h' => h' = h) (fun _ h' => h' = h)
      { h with keys := Coordinator.sortKeys keys } := by
  have hdrop : Grip.allows { h with keys := Coordinator.sortKeys keys }
      (.removeActivePayloads (Coordinator.sortKeys keys)) = true := by
    simp [Grip.allows, hh.1.1]
  have hback : { h with keys := [] } = h := by
    obtain ⟨-, hk⟩ := hh
    cases h
    cases hk
    rfl
  have hrest : ∀ r : Res α, wpE guardAgent
      (Coordinator.ask (.removeActivePayloads (Coordinator.sortKeys keys)) >>= fun _ => settle r)
      (fun _ h' => h' = h) (fun _ h' => h' = h)
      { h with keys := Coordinator.sortKeys keys } := by
    intro r
    apply wpE_bind.mpr
    apply wpE_command hdrop
    intro _
    apply wpE_settle.mpr
    cases r with
    | ok a => exact hback
    | error e => exact hback
  apply wpE_bind.mpr
  apply wpE_attempt.mpr
  refine wpE_mono (hx _ ha hP) ?_ ?_
  · rintro a h' rfl
    exact hrest (.ok a)
  · rintro e h' rfl
    exact hrest (.error e)

/-- a payload guard around a body that asks for no other -/
theorem Neutral.payloadsFor {P Q : Grip → Prop} (hx : Neutral P x) (hQ : ∀ h, Q h → Keyless h)
    (hP : ∀ h, Q h → P { h with keys := Coordinator.sortKeys keys }) :
    Neutral Q (Coordinator.withPayloads keys x) := by
  intro h ha hh
  apply wpE_bind.mpr
  refine wpE_mono (wpE_beginPayloads ha (hQ h hh)) ?_ ?_
  · rintro _ h' rfl
    exact wpE_holding ha (hQ h hh) hx (hP h hh)
  · exact fun _ _ he => he

theorem Neutral.payloads (hx : Neutral Outside x) :
    Neutral Keyless (Coordinator.withPayloads keys x) :=
  hx.payloadsFor (fun _ hh => hh) fun _ hh => hh.1

/-- the program starts with nothing, works under the guard of its role and ends with nothing -/
def Ends (role : Role) (x : M α) : Prop :=
  wpE guardAgent x (fun _ h' => h' = Grip.start role) (fun _ h' => h' = Grip.start role)
    (Grip.start role)

theorem Neutral.ends (hx : Neutral Outside x) : Ends .free x := hx _ rfl ⟨rfl, rfl, rfl⟩

/-- a thread that works on one object -/
def Serves (id : Uuid) (h : Grip) : Prop := Keyless h ∧ h.role = .object id

/-- an object guard around a whole operation -/
theorem Neutral.objectFor {id : Uuid} (hx : Neutral (Serves id) x) :
    Ends (.object id) (Coordinator.withObject id x) := by
  have hrest : ∀ r : Res α, wpE guardAgent
      (Coordinator.ask (.removeActiveObject id) >>= fun _ => settle r)
      (fun _ h' => h' = Grip.start (.object id)) (fun _ h' => h' = Grip.start (.object id))
      { Grip.start (.object id) with object := some id } := by
    intro r
    apply wpE_bind.mpr
    apply wpE_command
    · simp [Grip.allows, Grip.start]
    intro _
    apply wpE_settle.mpr
    cases r with
    | ok a => rfl
    | error e => rfl
  apply wpE_bind.mpr
  refine wpE_withInner ⟨rfl, rfl, rfl⟩ (fun _ => rfl) ?_
  apply wpE_command
  · simp [Grip.allows, Grip.enter, Grip.start]
  intro r
  cases r with
  | error e => exact ⟨rfl, rfl⟩
  | ok u =>
    refine ⟨rfl, ?_⟩
    apply wpE_bind.mpr
    apply wpE_attempt.mpr
    have hbody := hx { Grip.start (.object id) with object := some id } (decide_eq_true rfl)
      ⟨⟨⟨rfl, rfl, rfl⟩, rfl⟩, rfl⟩
    refine wpE_mono hbody ?_ ?_
    · rintro a h' rfl
      exact hrest (.ok a)
    · rintro e h' rfl
      exact hrest (.error e)

theorem Neutral.object {id : Uuid} (hx : Neutral Keyless x) :
    Ends (.object id) (Coordinator.withObject id x) := (hx.mono fun _ h => h.1).objectFor

/-! ### recovery, which writes rows outside of sections -/

/-- the same but for the row written last -/
def Alike (h h' : Grip) : Prop := { h' with noted := none } = { h with noted := none }

theorem Alike.trans {h' h'' : Grip} (a : Alike h h') (b : Alike h' h'') : Alike h h'' :=
  Eq.trans b a

theorem alike_noted {n : Option (Uuid × LifecycleState)} : Alike h { h with noted := n } := rfl

/-- a recovery between two of its steps -/
structure Mends (h : Grip) : Prop where
  mutex : h.mutex = false
  cleared : h.cleared = none
  role : h.role = .recovery
  recovering : h.recovering = true

theorem Mends.armed (hh : Mends h) : h.armed = true := by
  unfold Grip.armed
  rw [hh.role]
  exact hh.recovering

theorem Mends.outside (hh : Mends h) : Outside { h with noted := none } :=
  ⟨hh.mutex, hh.cleared, rfl⟩

theorem Mends.alike {h' : Grip} (hh : Mends h) (a : Alike h h') : Mends h' where
  mutex := (congrArg Grip.mutex a).trans hh.mutex
  cleared := (congrArg Grip.cleared a).trans hh.cleared
  role := (congrArg Grip.role a).trans hh.role
  recovering := (congrArg Grip.recovering a).trans hh.recovering

theorem Mends.leave_enter (hh : Mends h) : Alike h h.enter.leave := by
  cases h
  obtain ⟨hm, hc, -, -⟩ := hh
  cases hm
  cases hc
  rfl

/-- a part of recovery that ends with what it started with, but for the row written last -/
def Steady (x : M α) : Prop :=
  ∀ h, Mends h → wpE guardAgent x (fun _ h' => Alike h h') (fun _ h' => Alike h h') h

theorem Neutral.steady (hx : Neutral Mends x) : Steady x := by
  intro h hh
  refine wpE_mono (hx h hh.armed hh) ?_ ?_
  · rintro _ h' rfl
    exact rfl
  · rintro _ h' rfl
    exact rfl

/-- sections forget the row written last -/
theorem Neutral.steadySection {k : Bool → Prog Cmd Cmd.Reply (Res α)} (hx : Neutral Outside x)
    (hrun : x.run = .call .loadAuthorityLost k) : Steady x := by
  intro h hh
  apply wpE_fresh hrun
  refine wpE_mono (hx { h with noted := none } hh.armed hh.outside) ?_ ?_
  · rintro _ h' rfl
    exact alike_noted
  · rintro _ h' rfl
    exact alike_noted

theorem Steady.bind {β : Type} {f : α → M β} (hx : Steady x) (hf : ∀ a, Steady (f a)) :
    Steady (x >>= f) := by
  intro h hh
  apply wpE_bind.mpr
  refine wpE_mono (hx h hh) ?_ fun _ _ he => he
  intro a h' ha
  refine wpE_mono (hf a h' (hh.alike ha)) ?_ ?_
  · exact fun _ _ hb => ha.trans hb
  · exact fun _ _ hb => ha.trans hb

theorem Steady.attempt (hx : Steady x) : Steady (attempt x) :=
  fun h hh => wpE_attempt.mpr (hx h hh)

theorem Steady.ite {c : Prop} [Decidable c] {y : M α} (hx : Steady x) (hy : Steady y) :
    Steady (if c then x else y) := by
  by_cases hc : c
  · rw [if_pos hc]
    exact hx
  · rw [if_neg hc]
    exact hy

/-- a recovery guard around a body that takes no other -/
theorem Steady.recovery (hx : Steady x) : Ends .recovery (Coordinator.withRecovery x) := by
  have hrest : ∀ (r : Res α) (h : Grip), Alike { Grip.start .recovery with recovering := true } h →
      wpE guardAgent (Coordinator.ask .removeActiveRecovery >>= fun _ => settle r)
        (fun _ h' => h' = Grip.start .recovery) (fun _ h' => h' = Grip.start .recovery) h := by
    intro r h ha
    have hback : Grip.after h .removeActiveRecovery () = Grip.start .recovery :=
      congrArg (fun g : Grip => { g with recovering := false }) ha
    apply wpE_bind.mpr
    apply wpE_command
    · have hm : h.mutex = false := congrArg Grip.mutex ha
      have hr : h.recovering = true := congrArg Grip.recovering ha
      simp [Grip.allows, hm, hr]
    intro _
    apply wpE_settle.mpr
    cases r with
    | ok a => exact hback
    | error e => exact hback
  apply wpE_bind.mpr
  refine wpE_withInner ⟨rfl, rfl, rfl⟩ (fun _ => rfl) ?_
  apply wpE_command rfl
  intro r
  cases r with
  | error e => exact ⟨rfl, rfl⟩
  | ok u =>
    refine ⟨rfl, ?_⟩
    apply wpE_bind.mpr
    apply wpE_attempt.mpr
    refine wpE_mono (hx { Grip.start .recovery with recovering := true } ⟨rfl, rfl, rfl, rfl⟩) ?_ ?_
    · exact fun a h' ha => hrest (.ok a) h' ha
    · exact fun e h' ha => hrest (.error e) h' ha

end

/-! ## sections of the operations -/

section
variable {P : Grip → Prop} {env : Env}

theorem Neutral.mapErr {α : Type} {g : ReclaimError → ReclaimError} {x : M α}
    (hx : Neutral P x) : Neutral P (Coordinator.mapErr g x) := by
  apply hx.attempt.bind
  intro r
  cases r with
  | ok a => exact neutral_pure
  | error e => exact neutral_throw

/-- a look at the configuration under the mutex -/
theorem neutral_glance {α : Type} {f : Config → M α} (hf : ∀ c, Neutral Outside (f c)) :
    Neutral Outside (Coordinator.ask .lock >>= fun _ => Coordinator.config >>= fun c =>
      Coordinator.ask .unlock >>= fun _ => f c) := by
  intro h ha hh
  apply wpE_lock hh.1
  apply wpE_bind.mpr
  apply wpE_bind.mpr
  apply wpE_command rfl
  intro p
  apply wpE_unlock rfl
  show wpE guardAgent (f p.1) _ _ h.enter.leave
  rw [hh.leave_enter]
  exact hf p.1 h ha hh

/-! ### payloads on backends -/

section
variable {n b k : String} {data : Bytes} {h : ContentHash} {op : NodeOp}

theorem neutral_put : Neutral P (Coordinator.put b k data) :=
  @neutral_call _ P (.put b k data) rfl id

theorem neutral_get : Neutral P (Coordinator.get b k) := @neutral_call _ P (.get b k) rfl id

theorem neutral_delete : Neutral P (Coordinator.delete b k) :=
  @neutral_call _ P (.delete b k) rfl id

theorem neutral_exists : Neutral P (Coordinator.exists_ b k) :=
  @neutral_call _ P (.exists_ b k) rfl id

theorem neutral_archiveWrite : Neutral P (Coordinator.archiveWrite b k data h) :=
  @neutral_call _ P (.archiveWrite b k data h) rfl id

theorem neutral_archiveRead : Neutral P (Coordinator.archiveRead b k) :=
  @neutral_call _ P (.archiveRead b k) rfl id

theorem neutral_archiveDelete : Neutral P (Coordinator.archiveDelete b k) :=
  @neutral_call _ P (.archiveDelete b k) rfl id

theorem neutral_archiveExists : Neutral P (Coordinator.archiveExists b k) :=
  @neutral_call _ P (.archiveExists b k) rfl id

end

theorem neutral_nodeForBackend {b : String} : Neutral Outside (Coordinator.nodeForBackend b) :=
  (neutral_config.bind fun _ => neutral_settle).section

theorem neutral_lookupBackend {b : String} : Neutral Outside (Coordinator.lookupBackend b) :=
  (neutral_config.bind fun _ => neutral_settle).section

theorem neutral_nodeOperation {n b k : String} {op : NodeOp} :
    Neutral Outside (Coordinator.nodeOperation n b k op) :=
  (neutral_config.bind fun _ => neutral_pure.ite neutral_throw).section.bind fun _ =>
    @neutral_call _ _ (.node n b k op) rfl id

theorem neutral_deletePayload {b k : String} : Neutral Outside (Coordinator.deletePayload b k) := by
  apply neutral_nodeForBackend.bind
  intro owner
  cases owner with
  | none => exact neutral_lookupBackend.bind fun _ => neutral_delete
  | some n => exact neutral_nodeOperation.bind fun _ => neutral_throw.ite neutral_pure

theorem neutral_payloadExists {b k : String} : Neutral Outside (Coordinator.payloadExists b k) := by
  apply neutral_nodeForBackend.bind
  intro owner
  cases owner with
  | none => exact neutral_lookupBackend.bind fun _ => neutral_exists
  | some n => exact neutral_nodeOperation.bind fun _ => neutral_pure.refuse

theorem neutral_readPayload {b k : String} : Neutral Outside (Coordinator.readPayload b k) := by
  apply neutral_nodeForBackend.bind
  intro owner
  cases owner with
  | none => exact neutral_lookupBackend.bind fun _ => neutral_get
  | some n =>
    apply neutral_nodeOperation.bind
    intro reply
    apply Neutral.refuse
    cases reply.payload with
    | none => exact neutral_throw
    | some d => exact neutral_pure

theorem neutral_writeResult {b k : String} {data : Bytes} :
    Neutral Outside (Coordinator.writeResult env b k data) := by
  apply neutral_nodeForBackend.bind
  intro owner
  cases owner with
  | none =>
    apply neutral_lookupBackend.bind
    intro _
    apply neutral_put.bind
    intro size
    apply Neutral.ite
    · exact neutral_pure
    · exact neutral_get.bind fun _ => neutral_pure
  | some n =>
    apply neutral_nodeOperation.bind
    intro reply
    exact neutral_pure.ite (neutral_pure.ite (neutral_pure.ite neutral_pure))

theorem neutral_writePayloadTo {b k : String} {data : Bytes} :
    Neutral Outside (Coordinator.writePayloadTo env b k data) := by
  apply neutral_writeResult.bind
  intro r
  cases r with
  | ok u => exact neutral_pure
  | error e =>
    apply neutral_deletePayload.attempt.bind
    intro r
    cases r with
    | ok u => exact neutral_throw
    | error e => exact neutral_throw

theorem neutral_applyTransition {o : ReclaimObject} {target : LifecycleState}
    {actor action : String} {policy : Option String} {attempt : Option Uuid} :
    Neutral Outside (Coordinator.applyTransition o target actor action policy attempt) := by
  apply neutral_settle.bind
  intro move
  cases move with
  | noop => exact neutral_pure
  | allowed =>
    apply Neutral.bind
    · exact Neutral.section (neutral_now.bind fun _ => neutral_audited rfl)
    · exact fun _ => neutral_pure

theorem neutral_applyObjectUpdate {o : ReclaimObject} {actor action : String}
    {attempt : Option Uuid} :
    Neutral Outside (Coordinator.applyObjectUpdate o actor attempt action) :=
  Neutral.section (neutral_now.bind fun _ => neutral_audited rfl)

/-! ### registration and object updates -/

theorem neutral_canonicalKey {b : String} {h : ContentHash} {index : Nat}
    {existing : Option DedupEntry} :
    Neutral Outside (Coordinator.canonicalKey env b h index existing) := by
  cases existing with
  | none => exact neutral_pure
  | some entry =>
    apply Neutral.refuse
    apply neutral_readPayload.bind
    intro _
    apply neutral_settle.bind
    intro _
    exact Neutral.bind (neutral_inner rfl) fun _ => neutral_pure

theorem neutral_storeNew {b key : String} {data : Bytes} {h : ContentHash} :
    Neutral Outside (Coordinator.storeNew env b key data h) := by
  apply neutral_writePayloadTo.bind
  intro _
  apply Neutral.bind
  · exact Neutral.attempt (neutral_inner rfl)
  intro r
  cases r with
  | ok u => exact neutral_pure
  | error e => exact neutral_deletePayload.mapErr.bind fun _ => neutral_throw

theorem neutral_recordReplica {r : Replica} : Neutral Outside (Coordinator.recordReplica r) := by
  apply Neutral.bind
  · exact Neutral.attempt (neutral_inner rfl)
  intro a
  cases a with
  | ok u => exact neutral_pure
  | error e =>
    apply Neutral.bind (neutral_inner rfl)
    intro last
    exact (neutral_deletePayload.mapErr.bind fun _ => neutral_throw).ite neutral_throw

theorem neutral_storePayloadOnBackend {o : ReclaimObject} {b : String} {data : Bytes}
    {h : ContentHash} {now : Int} {index : Nat} :
    Neutral Outside (Coordinator.storePayloadOnBackend env o b data h now index) := by
  apply Neutral.bind
  · apply Neutral.section
    apply Neutral.bind (neutral_store rfl)
    intro _
    exact neutral_config.bind fun _ => neutral_settle.bind fun _ => neutral_pure
  intro found
  apply neutral_canonicalKey.bind
  intro target
  have hrest : ∀ u : Uuid, Neutral Outside (do
      let replica : Replica := ⟨u, o.id, o.generation, ⟨b, target.1, .hot⟩, data.length, h, now,
        some now, true, found.2⟩
      Coordinator.recordReplica replica
      pure replica) := fun u => neutral_recordReplica.bind fun _ => neutral_pure
  apply Neutral.ite
  · exact neutral_storeNew.bind fun _ => Neutral.bind (neutral_ask rfl) hrest
  · exact Neutral.bind (neutral_ask rfl) hrest

theorem neutral_releaseReplicas {rs : List Replica} {physical : List (String × String)} :
    Neutral P (Coordinator.releaseReplicas rs physical) := by
  induction rs generalizing physical with
  | nil => exact neutral_pure
  | cons r rs ih =>
    apply Neutral.bind (neutral_store rfl)
    intro _
    exact Neutral.bind (neutral_store rfl) fun _ => ih.ite ih

theorem neutral_deletePayloads {ps : List (String × String)} :
    Neutral Outside (Coordinator.deletePayloads ps) := by
  induction ps with
  | nil => exact neutral_pure
  | cons p ps ih => exact neutral_deletePayload.bind fun _ => ih

theorem neutral_rollbackReplicasUnderGuard {rs : List Replica} :
    Neutral Outside (Coordinator.rollbackReplicasUnderGuard rs) :=
  neutral_releaseReplicas.section.bind fun _ => neutral_deletePayloads

theorem neutral_rollbackReplicas {rs : List Replica} :
    Neutral Keyless (Coordinator.rollbackReplicas rs) := neutral_rollbackReplicasUnderGuard.payloads

theorem neutral_storeOnTargets {o : ReclaimObject} {data : Bytes} {h : ContentHash} {now : Int}
    {bs : List String} {index : Nat} {out : List Replica} :
    Neutral Outside (Coordinator.storeOnTargets env o data h now bs index out) := by
  induction bs generalizing index out with
  | nil => exact neutral_pure
  | cons b bs ih =>
    apply neutral_storePayloadOnBackend.attempt.bind
    intro r
    cases r with
    | ok replica => exact ih
    | error e => exact neutral_rollbackReplicasUnderGuard.bind fun _ => neutral_throw

theorem neutral_storePayload {o : ReclaimObject} {b : String} {data : Bytes}
    {replicateTo : List String} :
    Neutral Keyless (Coordinator.storePayload env o b data replicateTo) :=
  neutral_now.bind fun _ => neutral_storeOnTargets.payloads

theorem Neutral.keyless {α : Type} {x : M α} (hx : Neutral Outside x) : Neutral Keyless x :=
  hx.mono fun _ h => h.1

theorem neutral_publishObject {o : ReclaimObject} {audits : List AuditEntry} {rs : List Replica}
    (ha : audits.any (fun a => a.newState.isSome) = true) :
    Neutral Keyless (Coordinator.publishObject o audits rs) := by
  apply Neutral.bind
  · have hstore : Neutral Inside (Coordinator.store (.createObjectWithAudits o audits)) :=
      neutral_audited ha
    exact hstore.section.attempt.keyless
  intro r
  cases r with
  | ok u => exact neutral_pure
  | error e =>
    exact (neutral_rollbackReplicas.mapErr.bind fun _ => neutral_throw).ite neutral_throw

theorem neutral_registerObject {req : CreateObjectRequest} :
    Neutral Keyless (Coordinator.registerObject env req) := by
  apply neutral_settle.bind
  intro prepared
  apply Neutral.bind
  · exact Neutral.keyless (neutral_inner rfl)
  intro found
  apply Neutral.refuse
  apply neutral_now.bind
  intro now
  cases prepared with
  | none => exact neutral_publishObject rfl
  | some p =>
    apply neutral_storePayload.bind
    intro rs
    exact neutral_settle.bind fun _ => neutral_publishObject rfl

theorem ends_createObject {req : CreateObjectRequest} :
    Ends (.object req.object.id) (Coordinator.createObject env req) := by
  apply wpE_bind.mpr
  apply wpE_settle.mpr
  cases req.object.validate with
  | error e => exact (rfl : Grip.start _ = _)
  | ok u => exact neutral_registerObject.object

theorem ends_touch {id : Uuid} {actor : String} :
    Ends (.object id) (Coordinator.touch id actor) := by
  apply Neutral.object
  apply Neutral.keyless
  apply Neutral.bind (neutral_inner rfl)
  intro o
  apply Neutral.refuse
  apply Neutral.refuse
  exact neutral_now.bind fun _ => neutral_applyObjectUpdate.bind fun _ => neutral_pure

theorem ends_pin {id : Uuid} {actor : String} : Ends (.object id) (Coordinator.pin id actor) := by
  apply Neutral.object
  apply Neutral.keyless
  apply Neutral.bind (neutral_inner rfl)
  intro o
  apply Neutral.refuse
  exact neutral_applyObjectUpdate.bind fun _ => neutral_pure

theorem ends_unpin {id : Uuid} {actor : String} :
    Ends (.object id) (Coordinator.unpin id actor) := by
  apply Neutral.object
  apply Neutral.keyless
  apply Neutral.bind (neutral_inner rfl)
  exact fun _ => neutral_applyObjectUpdate.bind fun _ => neutral_pure

theorem ends_setProtected {id : Uuid} {b : Bool} {actor : String} :
    Ends (.object id) (Coordinator.setProtected id b actor) := by
  apply Neutral.object
  apply Neutral.keyless
  apply Neutral.bind (neutral_inner rfl)
  exact fun _ => neutral_applyObjectUpdate.bind fun _ => neutral_pure

/-! ### planning -/

theorem neutral_decisionContext {o : ReclaimObject} :
    Neutral Outside (Coordinator.decisionContext o) := by
  apply Neutral.bind (neutral_inner rfl)
  intro _
  apply Neutral.bind (neutral_inner rfl)
  intro _
  apply Neutral.bind (neutral_inner rfl)
  intro _
  exact Neutral.bind (neutral_inner rfl) fun _ => neutral_pure

theorem neutral_plan {id : Uuid} {actor : String} :
    Neutral Outside (Coordinator.plan id actor) := by
  apply Neutral.bind (neutral_inner rfl)
  intro o
  apply neutral_decisionContext.bind
  intro _
  apply Neutral.bind (Neutral.section neutral_pure)
  intro _
  apply neutral_now.bind
  intro now
  apply Neutral.bind (Neutral.section neutral_pure)
  intro _
  apply (@neutral_call _ _ (.policyDecide o) rfl fun r => r).bind
  intro d
  apply Neutral.bind
  · apply Neutral.section
    exact Neutral.bind (neutral_store rfl) fun _ => neutral_store rfl
  · exact fun _ => neutral_pure

/-! ### reclaim -/

theorem neutral_checkSurvivability {o : ReclaimObject} {rs : List Replica} {n : Nat} :
    Neutral Outside (Coordinator.checkSurvivability o rs n) := by
  apply Neutral.bind
  · apply Neutral.bind (neutral_inner rfl)
    exact fun _ => Neutral.bind (neutral_inner rfl) fun _ => neutral_pure
  · exact fun _ => neutral_throw.ite neutral_pure

theorem neutral_checkDependencies {o : ReclaimObject} :
    Neutral Outside (Coordinator.checkDependencies o) := by
  apply Neutral.bind (neutral_inner rfl)
  exact fun _ => Neutral.bind (neutral_inner rfl) fun _ => neutral_settle

theorem neutral_indeterminateReclaim {report : ReclaimReport} {e : ReclaimError} {kind : String} :
    Neutral Outside (Coordinator.indeterminateReclaim report e kind) := by
  apply Neutral.bind
  · apply Neutral.attempt
    exact Neutral.section (neutral_now.bind fun _ => neutral_store rfl)
  intro r
  apply Neutral.bind (neutral_ask rfl)
  intro _
  apply Neutral.bind (neutral_ask rfl)
  intro _
  cases r with
  | ok u => exact neutral_pure
  | error e => exact neutral_pure

theorem neutral_abortReclaim {report : ReclaimReport} {o : ReclaimObject} {e : ReclaimError} :
    Neutral Outside (Coordinator.abortReclaim report o e) := by
  apply neutral_now.bind
  intro now
  apply Neutral.section
  apply Neutral.bind (neutral_audited rfl)
  intro _
  apply Neutral.bind (neutral_store rfl)
  intro _
  exact Neutral.bind (neutral_store rfl) fun _ => neutral_store rfl

theorem neutral_orAbort {α : Type} {report : ReclaimReport} {o : ReclaimObject} {x : M α}
    (hx : Neutral Outside x) : Neutral Outside (Coordinator.orAbort report o x) := by
  apply hx.attempt.bind
  intro r
  cases r with
  | ok a => exact neutral_pure
  | error e => exact neutral_abortReclaim.bind fun _ => neutral_throw

theorem neutral_orIndeterminate {α : Type} {report : ReclaimReport} {kind : String} {x : M α}
    (hx : Neutral Outside x) : Neutral Outside (Coordinator.orIndeterminate report kind x) := by
  apply hx.attempt.bind
  intro r
  cases r with
  | ok a => exact neutral_pure
  | error e => exact neutral_indeterminateReclaim.bind fun _ => neutral_throw

theorem neutral_reserve {report : ReclaimReport} {o : ReclaimObject} {payload : JournalPayload}
    {now : Int} : Neutral Outside (Coordinator.reserve report o payload now) := by
  apply Neutral.bind
  · exact Neutral.section (neutral_config.bind fun _ => neutral_pure)
  intro ttl
  apply Neutral.refuse
  exact neutral_inner rfl

theorem neutral_enterPending {report : ReclaimReport} {actor : String} {o : ReclaimObject} :
    Neutral Outside (Coordinator.enterPending report actor o) := by
  apply neutral_pure.ite
  exact (neutral_applyTransition.bind fun _ => neutral_applyTransition).ite neutral_applyTransition

theorem neutral_planScheduled {ss : List Coordinator.Scheduled} {physical : List Replica} :
    Neutral P (Coordinator.planScheduled ss physical) := by
  induction ss generalizing physical with
  | nil => exact neutral_pure
  | cons s ss ih =>
    apply Neutral.bind (neutral_store rfl)
    intro entry
    cases entry with
    | none => exact neutral_throw
    | some entry => exact Neutral.refuse (Neutral.refuse (ih.ite ih))

theorem neutral_physicalPlan {rs : List Replica} :
    Neutral Outside (Coordinator.physicalPlan env rs) := by
  apply Neutral.section
  apply neutral_settle.bind
  intro p
  apply Neutral.bind
  · exact Neutral.bind (neutral_ask rfl) fun _ => neutral_pure
  · exact fun _ => neutral_planScheduled

theorem neutral_deletePlanned {report : ReclaimReport} {rs : List Replica} {deleted : List Uuid} :
    Neutral Outside (Coordinator.deletePlanned report rs deleted) := by
  induction rs generalizing deleted with
  | nil => exact neutral_pure
  | cons r rs ih => exact (neutral_orIndeterminate neutral_deletePayload).bind fun _ => ih

theorem neutral_lookupArchive {id : String} {e : ReclaimError} :
    Neutral Outside (Coordinator.lookupArchive id e) := by
  apply neutral_glance
  intro c
  cases c.archive id with
  | none => exact neutral_throw
  | some a => exact neutral_pure

theorem neutral_deleteArchives {report : ReclaimReport} {as : List ArchiveRecord}
    {deleted : List String} :
    Neutral Outside (Coordinator.deleteArchives report as deleted) := by
  induction as generalizing deleted with
  | nil => exact neutral_pure
  | cons a as ih =>
    apply neutral_lookupArchive.bind
    exact fun _ => (neutral_orIndeterminate neutral_archiveDelete).bind fun _ => ih

theorem neutral_verifyGone {report : ReclaimReport} {rs : List Replica} :
    Neutral Outside (Coordinator.verifyGone report rs) := by
  induction rs with
  | nil => exact neutral_pure
  | cons r rs ih =>
    apply (neutral_orIndeterminate neutral_payloadExists).bind
    intro found
    apply Neutral.ite
    · apply neutral_indeterminateReclaim.bind
      exact fun _ => neutral_throw.bind fun _ => ih
    · exact ih

theorem neutral_releaseScheduled {rs : List Replica} :
    Neutral P (Coordinator.releaseScheduled env rs) := by
  induction rs with
  | nil => exact neutral_pure
  | cons r rs ih =>
    apply Neutral.bind (neutral_store rfl)
    intro _
    apply Neutral.ite
    · exact Neutral.bind (neutral_store rfl) fun _ => ih
    · exact ih

theorem neutral_deleteArchiveRows {as : List ArchiveRecord} :
    Neutral P (Coordinator.deleteArchiveRows as) := by
  induction as with
  | nil => exact neutral_pure
  | cons a as ih => exact Neutral.bind (neutral_store rfl) fun _ => ih

theorem neutral_commitSection {report : ReclaimReport} {actor : String} {o : ReclaimObject}
    {rs : List Replica} {as : List ArchiveRecord} {us : List Uuid} {ds : List String} :
    Neutral Inside (Coordinator.commitSection env report actor o rs as us ds) := by
  apply neutral_releaseScheduled.bind
  intro _
  apply neutral_deleteArchiveRows.bind
  intro _
  apply neutral_now.bind
  intro ts
  apply Neutral.bind (neutral_audited rfl)
  intro _
  apply Neutral.bind (neutral_store rfl)
  intro _
  apply neutral_now.bind
  intro now
  apply Neutral.bind (neutral_store rfl)
  exact fun _ => neutral_now.bind fun _ => neutral_store rfl

theorem neutral_executePhysical {report : ReclaimReport} {actor : String} {o : ReclaimObject}
    {rs plan : List Replica} {as : List ArchiveRecord} :
    Neutral Outside (Coordinator.executePhysical env report actor o rs as plan) := by
  apply neutral_deletePlanned.bind
  intro deleted
  apply neutral_deleteArchives.bind
  intro deletedArchives
  apply neutral_verifyGone.bind
  intro _
  apply Neutral.bind
  · apply neutral_orIndeterminate
    exact Neutral.section (neutral_now.bind fun _ => neutral_store rfl)
  intro _
  exact (neutral_orIndeterminate neutral_commitSection.section).bind fun _ => neutral_pure

theorem neutral_executeReclaim {report : ReclaimReport} {actor : String}
    {prior current : ReclaimObject} {rs : List Replica} {as : List ArchiveRecord}
    {payload : JournalPayload} :
    Neutral Outside (Coordinator.executeReclaim env report actor prior current rs as payload) := by
  apply neutral_physicalPlan.bind
  intro plan
  apply neutral_settle.bind
  intro planned
  apply Neutral.bind
  · apply neutral_orAbort
    exact Neutral.section (neutral_now.bind fun _ => neutral_store rfl)
  · exact fun _ => neutral_executePhysical

/-- the payload guard of a reclaim; a refused one is followed by the rollback -/
theorem wpE_orAbort_begin {report : ReclaimReport} {o : ReclaimObject} {h : Grip}
    {keys : List (String × ContentHash)} (ha : h.armed = true) (hh : Keyless h) :
    wpE guardAgent (Coordinator.orAbort report o (Coordinator.beginPayloadOperations keys))
      (fun _ h' => h' = { h with keys := Coordinator.sortKeys keys }) (fun _ h' => h' = h) h := by
  apply wpE_bind.mpr
  apply wpE_attempt.mpr
  refine wpE_mono (wpE_beginPayloads ha hh) ?_ ?_
  · rintro _ h' rfl
    exact wpE_pure.mpr rfl
  · rintro e h' rfl
    apply wpE_bind.mpr
    refine wpE_mono (neutral_abortReclaim h' ha hh.1) ?_ fun _ _ he => he
    rintro _ _ rfl
    exact wpE_throw.mpr rfl

theorem neutral_reclaimReserved {report : ReclaimReport} {actor : String} {prior : ReclaimObject}
    {rs : List Replica} {as : List ArchiveRecord} {payload : JournalPayload} :
    Neutral Keyless (Coordinator.reclaimReserved env report actor prior rs as payload) := by
  apply neutral_enterPending.keyless.bind
  intro current
  apply Neutral.bind
  · exact Neutral.keyless (Neutral.section (neutral_now.bind fun _ => neutral_store rfl))
  intro _
  apply (neutral_orAbort neutral_checkSurvivability).keyless.bind
  intro _
  apply (neutral_orAbort neutral_checkDependencies).keyless.bind
  intro _ h ha hh
  apply wpE_bind.mpr
  refine wpE_mono (wpE_orAbort_begin ha hh) ?_ fun _ _ he => he
  rintro _ h' rfl
  exact wpE_holding ha hh neutral_executeReclaim hh.1

theorem ends_reclaim {req : ReclaimRequest} : Ends (.object req.objectId) (Coordinator.reclaim env req) := by
  apply Neutral.object
  apply neutral_now.bind
  intro now
  apply Neutral.bind
  · exact Neutral.keyless (neutral_inner rfl)
  intro o
  apply neutral_settle.bind
  intro _
  apply Neutral.bind
  · exact Neutral.keyless (neutral_inner rfl)
  intro busy
  apply Neutral.refuse
  apply neutral_settle.bind
  intro _
  apply neutral_plan.keyless.bind
  intro decision
  apply Neutral.bind (neutral_ask rfl)
  intro attemptId
  apply Neutral.bind (neutral_ask rfl)
  intro reservationId
  apply neutral_pure.ite
  apply Neutral.bind
  · exact Neutral.keyless (neutral_inner rfl)
  intro rs
  apply Neutral.bind
  · exact Neutral.keyless (neutral_inner rfl)
  intro as
  apply neutral_checkSurvivability.keyless.bind
  intro _
  apply neutral_settle.bind
  intro _
  exact neutral_reserve.keyless.bind fun _ => neutral_reclaimReserved

/-! ### compress and archive -/

theorem neutral_compressedTarget {b k : String} {h : ContentHash} {existing : Option DedupEntry} :
    Neutral Outside (Coordinator.compressedTarget env b k h existing) := by
  cases existing with
  | none => exact neutral_pure
  | some entry =>
    apply Neutral.refuse
    exact neutral_readPayload.bind fun _ => neutral_settle.bind fun _ => neutral_pure

theorem neutral_writeCompressed {b k : String} {data : Bytes} :
    Neutral Outside (Coordinator.writeCompressed env b k data) := by
  apply neutral_writePayloadTo.attempt.bind
  intro r
  cases r with
  | ok u => exact neutral_pure
  | error e =>
    apply neutral_deletePayload.attempt.bind
    intro r
    cases r with
    | ok u => exact neutral_throw
    | error e => exact neutral_throw

theorem neutral_sourceDedup {primary : Replica} {k : String} {wrote : Bool} :
    Neutral Outside (Coordinator.sourceDedup env primary k wrote) := by
  apply neutral_pure.ite
  apply Neutral.bind (neutral_inner rfl)
  intro entry
  cases entry with
  | none => exact neutral_throw
  | some entry =>
    apply Neutral.ite
    · apply Neutral.ite
      · exact neutral_deletePayload.attempt.bind fun _ => neutral_throw.bind fun _ => neutral_pure
      · exact neutral_throw.bind fun _ => neutral_pure
    · exact neutral_pure

theorem neutral_stage {α : Type} {p : Coordinator.CompressProgress} {x : M α}
    {k : α → M (Coordinator.CompressProgress × Res Unit)} (hx : Neutral P x)
    (hk : ∀ a, Neutral P (k a)) : Neutral P (Coordinator.stage p x k) := by
  apply hx.attempt.bind
  intro r
  cases r with
  | error e => exact neutral_pure
  | ok a => exact hk a

theorem neutral_compressMetadata {primary new : Replica} {existing old : Option DedupEntry}
    {updated : ReclaimObject} {audit : AuditEntry} (ha : audit.newState.isSome = true) :
    Neutral Inside (Coordinator.compressMetadata primary new existing old updated audit) := by
  have hrows : ∀ p : Coordinator.CompressProgress, Neutral Inside
      (Coordinator.stage p (Coordinator.store (.deleteReplica primary.replicaId)) fun _ =>
        Coordinator.stage { p with oldReplicaDeleted := true }
          (Coordinator.store (.addReplica new)) fun _ =>
          Coordinator.stage { p with oldReplicaDeleted := true, newReplicaAdded := true }
            (Coordinator.store (.updateObjectWithAudit updated audit)) fun _ =>
            pure ({ p with oldReplicaDeleted := true, newReplicaAdded := true }, .ok ())) := by
    intro p
    apply neutral_stage (neutral_store rfl)
    intro _
    apply neutral_stage (neutral_store rfl)
    exact fun _ => neutral_stage (neutral_audited ha) fun _ => neutral_pure
  apply Neutral.ite
  · apply neutral_stage
    · exact (neutral_store rfl).ite (neutral_store rfl)
    · intro _
      apply Neutral.ite
      · exact neutral_stage (neutral_store rfl) fun _ => hrows _
      · exact hrows _
  · exact hrows _

theorem neutral_undoCompress {p : Coordinator.CompressProgress} {primary new : Replica}
    {old : Option DedupEntry} :
    Neutral P (Coordinator.undoCompress p primary new old) := by
  apply Neutral.when (neutral_store rfl)
  apply Neutral.when (neutral_store rfl)
  apply Neutral.when
  · cases old with
    | none => exact neutral_throw
    | some old =>
      apply Neutral.bind (neutral_store rfl)
      exact fun _ => (neutral_store rfl).ite (neutral_store rfl)
  · exact (Neutral.bind (neutral_store rfl) fun _ => neutral_pure).ite neutral_pure

theorem neutral_recordCompressed {primary new : Replica} {existing old : Option DedupEntry}
    {updated : ReclaimObject} {audit : AuditEntry} {wrote : Bool}
    (ha : audit.newState.isSome = true) :
    Neutral Outside
      (Coordinator.recordCompressed primary new existing old updated audit wrote) := by
  apply Neutral.bind
  · apply (neutral_compressMetadata ha).section.attempt.bind
    intro r
    cases r with
    | ok p => exact neutral_pure
    | error e => exact neutral_pure
  rintro ⟨progress, result⟩
  cases result with
  | ok u => exact neutral_pure
  | error e =>
    apply neutral_undoCompress.section.attempt.bind
    intro cleanup
    cases cleanup with
    | ok u => exact (neutral_deletePayload.attempt.bind fun _ => neutral_throw).ite neutral_throw
    | error c => exact (neutral_deletePayload.attempt.bind fun _ => neutral_throw).ite neutral_throw

theorem neutral_compressGuarded {o : ReclaimObject} {actor : String} {primary : Replica}
    {data : Bytes} {result : CompressionResult} :
    Neutral Outside (Coordinator.compressGuarded env o actor primary data result) := by
  apply Neutral.bind (neutral_inner rfl)
  intro existing
  apply neutral_compressedTarget.bind
  intro target
  apply neutral_nodeForBackend.bind
  intro owner
  apply neutral_writeCompressed.when
  apply neutral_sourceDedup.bind
  intro old
  apply Neutral.bind (neutral_ask rfl)
  intro replicaId
  apply neutral_now.bind
  intro createdAt
  apply neutral_now.bind
  intro verifiedAt
  apply neutral_now.bind
  intro ts
  apply Neutral.bind (neutral_recordCompressed rfl)
  intro _
  apply Neutral.ite
  · apply neutral_deletePayload.attempt.bind
    intro r
    cases r with
    | ok u => exact neutral_pure
    | error e =>
      apply Neutral.bind
      · exact Neutral.section (neutral_now.bind fun _ => neutral_store rfl)
      · exact fun _ => neutral_pure
  · exact neutral_pure

theorem ends_compress {id : Uuid} {actor : String} :
    Ends (.object id) (Coordinator.compress env id actor) := by
  apply Neutral.object
  apply Neutral.bind
  · exact Neutral.keyless (neutral_inner rfl)
  intro o
  apply Neutral.refuse
  apply Neutral.refuse
  apply neutral_settle.bind
  intro _
  apply Neutral.bind
  · exact Neutral.keyless (neutral_inner rfl)
  intro rs
  cases Coordinator.compressPrimary o rs with
  | none => exact neutral_throw
  | some primary =>
    apply neutral_readPayload.keyless.bind
    intro data
    apply neutral_settle.bind
    intro _
    apply neutral_settle.bind
    intro p
    exact Neutral.refuse neutral_compressGuarded.payloads

theorem neutral_firstArchive : Neutral Outside Coordinator.firstArchive := by
  apply neutral_glance
  intro c
  cases c.archives.head? with
  | none => exact neutral_throw
  | some a => exact neutral_pure

theorem neutral_recordArchive {o : ReclaimObject} {actor : String} {a : ArchiveInfo}
    {record : ArchiveRecord} :
    Neutral Outside (Coordinator.recordArchive o actor a record) := by
  apply Neutral.bind
  · exact Neutral.attempt (neutral_inner rfl)
  intro r
  cases r with
  | error e => exact neutral_archiveDelete.mapErr.bind fun _ => neutral_thrown
  | ok u =>
    apply Neutral.bind
    · exact Neutral.attempt (Neutral.section (neutral_now.bind fun _ => neutral_audited rfl))
    intro r
    cases r with
    | ok u => exact neutral_pure
    | error e =>
      apply Neutral.bind
      · exact Neutral.attempt (neutral_inner rfl)
      intro r
      cases r with
      | error c => exact neutral_throw
      | ok u => exact neutral_archiveDelete.mapErr.bind fun _ => neutral_throw

theorem ends_archive {id : Uuid} {actor : String} :
    Ends (.object id) (Coordinator.archive env id actor) := by
  apply Neutral.object
  apply Neutral.keyless
  apply Neutral.bind (neutral_inner rfl)
  intro o
  apply Neutral.ite
  · apply Neutral.bind (neutral_inner rfl)
    intro as
    cases as.getLast? with
    | none => exact neutral_throw
    | some a => exact neutral_pure
  · apply neutral_settle.bind
    intro _
    apply Neutral.bind (neutral_inner rfl)
    intro rs
    cases Coordinator.archivePrimary o rs with
    | none => exact neutral_throw
    | some primary =>
      apply Neutral.refuse
      apply neutral_readPayload.bind
      intro data
      apply neutral_settle.bind
      intro _
      apply neutral_firstArchive.bind
      intro a
      apply neutral_archiveWrite.bind
      intro size
      apply Neutral.bind (neutral_ask rfl)
      intro archiveId
      exact neutral_now.bind fun _ => neutral_recordArchive

/-! ### restore and verify -/

/-- a thread that works on one object, perhaps with payload keys -/
def Minds (id : Uuid) (h : Grip) : Prop := Outside h ∧ h.role = .object id

theorem Neutral.minds {α : Type} {x : M α} {id : Uuid} (hx : Neutral Outside x) :
    Neutral (Minds id) x := hx.mono fun _ hh => hh.1

theorem Neutral.serves {α : Type} {x : M α} {id : Uuid} (hx : Neutral Outside x) :
    Neutral (Serves id) x := hx.mono fun _ hh => hh.1.1

/-- the object of an operation, read under its guard -/
theorem neutral_require {α : Type} {id : Uuid} {f : ReclaimObject → M α}
    (hf : ∀ o, o.id = id → Neutral (Serves id) (f o)) :
    Neutral (Serves id) (Coordinator.inner (.requireObject id) >>= f) := by
  intro h ha hh
  have hback : h.enter.leave = h := hh.1.1.leave_enter
  apply wpE_bind.mpr
  apply wpE_withInner hh.1.1
  · exact fun _ => rfl
  apply wpE_sane
  · exact ha
  intro r hr
  cases r with
  | error e => exact ⟨rfl, hback⟩
  | ok o =>
    refine ⟨rfl, ?_⟩
    show wpE guardAgent (f o) _ _ h.enter.leave
    rw [hback]
    exact hf o hr h ha hh

theorem allows_row {h : Grip} {o : ReclaimObject} (ha : h.armed = true)
    (hr : h.role = .object o.id) : h.allows (.store (.updateObject o)) = true := by
  simp [Grip.allows, ha, hr]

/-- the audit row of the row written last -/
theorem allows_announced {h : Grip} {a : AuditEntry} {id : Uuid} {state : LifecycleState}
    (ha : h.armed = true) (hn : h.noted = some (id, state)) (ho : a.objectId = some id)
    (hs : a.newState = some state) : h.allows (.store (.appendAudit a)) = true := by
  simp [Grip.allows, Grip.announces, ha, hn, ho, hs]

/-- a section that writes the row of the object without an audit row -/
theorem neutral_rowSection {α : Type} {id : Uuid} {x : M α}
    (hx : ∀ h : Grip, h.armed = true → h.role = .object id →
      wpE guardAgent x (fun _ h' => Alike h h') (fun _ h' => Alike h h') h) :
    Neutral (Minds id) (Coordinator.withInner x) := by
  intro h ha hh
  have hback : ∀ h', Alike h.enter h' → h'.mutex = true ∧ h'.leave = h := by
    intro h' hal
    refine ⟨congrArg Grip.mutex hal, ?_⟩
    exact (congrArg Grip.leave hal).trans hh.1.leave_enter
  apply wpE_withInner hh.1
  · exact fun _ => rfl
  refine wpE_mono (hx h.enter ha hh.2) ?_ ?_
  · exact fun _ h' hal => hback h' hal
  · exact fun _ h' hal => hback h' hal

theorem neutral_restoreExisting {o : ReclaimObject} {actor : String} {existing : Replica}
    {x : ContentHash} :
    Neutral (Minds o.id) (Coordinator.restoreExisting env o actor existing x) := by
  apply neutral_readPayload.minds.bind
  intro bytes
  apply neutral_settle.bind
  intro _
  apply Neutral.bind
  · exact Neutral.minds (neutral_inner rfl)
  intro n
  apply neutral_settle.bind
  intro count
  apply Neutral.bind
  · apply neutral_rowSection
    intro h ha hr
    apply wpE_bind.mpr
    apply wpE_command
    · exact allows_row ha hr
    intro a
    cases a with
    | error e => exact (rfl : Alike h h)
    | ok u =>
      apply wpE_bind.mpr
      apply wpE_command rfl
      intro ts
      apply wpE_command
      · exact allows_announced ha rfl rfl rfl
      intro a
      cases a with
      | error e => exact (rfl : Alike h { h with noted := _ })
      | ok u => exact (rfl : Alike h { h with noted := _ })
  · exact fun _ => neutral_pure

theorem neutral_hotBackend : Neutral Outside Coordinator.hotBackend := by
  apply neutral_glance
  intro c
  cases Coordinator.hotBackendOf c with
  | none => exact neutral_throw
  | some b => exact neutral_pure

theorem neutral_restoreTarget {b : String} {h : ContentHash} {record : ArchiveRecord}
    {data : Bytes} {existing : Option DedupEntry} :
    Neutral Outside (Coordinator.restoreTarget env b h record data existing) := by
  cases existing with
  | none => exact neutral_writePayloadTo.bind fun _ => neutral_pure
  | some entry =>
    apply Neutral.refuse
    exact neutral_readPayload.bind fun _ => neutral_settle.bind fun _ => neutral_pure

theorem wpE_restoredRow {o : ReclaimObject} {r : Replica} {h : Grip} (ha : h.armed = true)
    (hr : h.role = .object o.id) :
    wpE guardAgent (Coordinator.restoreMetadata.restoredRow o r)
      (fun _ h' => h' = { h with noted := some (o.id, .warm) }) (fun _ h' => h' = h) h := by
  apply wpE_bind.mpr
  apply wpE_command
  · exact ha
  intro n
  cases n with
  | error e => exact (rfl : h = h)
  | ok n =>
    show wpE guardAgent (settle (Coordinator.replicaCountU32 n) >>= _) _ _ h
    apply wpE_bind.mpr
    apply wpE_settle.mpr
    cases Coordinator.replicaCountU32 n with
    | error e => exact (rfl : h = h)
    | ok count =>
      show wpE guardAgent (Coordinator.store (.updateObject _) >>= _) _ _ h
      apply wpE_bind.mpr
      apply wpE_command
      · exact allows_row ha hr
      intro a
      cases a with
      | error e => exact (rfl : h = h)
      | ok u => exact (rfl : { h with noted := some (o.id, .warm) } = _)

theorem wpE_restoreMetadata {o : ReclaimObject} {actor : String} {r : Replica}
    {existing : Option DedupEntry} {h : Grip} (ha : h.armed = true) (hr : h.role = .object o.id) :
    wpE guardAgent (Coordinator.restoreMetadata o actor r existing) (fun _ h' => Alike h h')
      (fun _ h' => Alike h h') h := by
  have hrecord : Neutral (fun _ => True) (attempt (if existing.isSome then
      Coordinator.store (.dedupAcquire r.contentHash r.location.backend)
    else Coordinator.store (.insertDedup
      ⟨r.contentHash, r.location.backend, r.location.key, 1, r.size⟩))) :=
    Neutral.attempt ((neutral_store rfl).ite (neutral_store rfl))
  have hadd : Neutral (fun _ => True) (attempt (Coordinator.store (.addReplica r))) :=
    Neutral.attempt (neutral_store rfl)
  apply wpE_bind.mpr
  refine wpE_mono (hrecord h ha trivial) ?_ ?_
  · rintro a h' rfl
    cases a with
    | error e => exact (rfl : Alike h' h')
    | ok u =>
      apply wpE_bind.mpr
      refine wpE_mono (hadd h' ha trivial) ?_ ?_
      · rintro a h rfl
        cases a with
        | error e => exact (rfl : Alike h h)
        | ok u =>
          apply wpE_bind.mpr
          apply wpE_attempt.mpr
          refine wpE_mono (wpE_restoredRow ha hr) ?_ ?_
          · rintro restored h' rfl
            apply wpE_bind.mpr
            apply wpE_attempt.mpr
            apply wpE_bind.mpr
            apply wpE_command rfl
            intro ts
            apply wpE_command
            · exact allows_announced ha rfl rfl rfl
            intro a
            cases a with
            | error e => exact (rfl : Alike h { h with noted := _ })
            | ok u => exact (rfl : Alike h { h with noted := _ })
          · rintro e h' rfl
            exact (rfl : Alike h' h')
      · rintro e h rfl
        exact (rfl : Alike h h)
  · rintro e h' rfl
    exact (rfl : Alike h' h')

theorem wpE_undoRestore {p : Coordinator.RestoreProgress} {o : ReclaimObject} {r : Replica}
    {wrote : Bool} {h : Grip} (ha : h.armed = true) (hr : h.role = .object o.id) :
    wpE guardAgent (Coordinator.undoRestore p o r wrote) (fun _ h' => Alike h h')
      (fun _ h' => Alike h h') h := by
  have hrest : Neutral (fun _ => True) (do
      if p.replicaRecorded then
        Coordinator.store (.deleteReplica r.replicaId)
      if p.dedupRecorded then
        Coordinator.store (.dedupRelease r.contentHash r.location.backend)
      else pure wrote : M Bool) := by
    apply Neutral.when (neutral_store rfl)
    exact (neutral_store rfl).ite neutral_pure
  have hgo : ∀ h', Alike h h' → h'.armed = true → wpE guardAgent (do
      if p.replicaRecorded then
        Coordinator.store (.deleteReplica r.replicaId)
      if p.dedupRecorded then
        Coordinator.store (.dedupRelease r.contentHash r.location.backend)
      else pure wrote : M Bool) (fun _ h'' => Alike h h'') (fun _ h'' => Alike h h'') h' := by
    intro h' hal ha'
    refine wpE_mono (hrest h' ha' trivial) ?_ ?_
    · rintro _ _ rfl
      exact hal
    · rintro _ _ rfl
      exact hal
  unfold Coordinator.undoRestore
  by_cases hu : p.objectUpdated = true
  · simp only [hu, if_true]
    apply wpE_bind.mpr
    apply wpE_command
    · exact allows_row ha hr
    intro a
    cases a with
    | error e => exact (rfl : Alike h h)
    | ok u => exact hgo { h with noted := some (o.id, o.lifecycleState) } alike_noted ha
  · simp only [hu]
    exact hgo h rfl ha

theorem neutral_restoreGuarded {o : ReclaimObject} {actor b : String} {record : ArchiveRecord}
    {data : Bytes} :
    Neutral (Minds o.id) (Coordinator.restoreGuarded env o actor b record data) := by
  apply Neutral.bind
  · exact Neutral.minds (neutral_inner rfl)
  intro existing
  apply neutral_restoreTarget.minds.bind
  intro target
  apply Neutral.bind (neutral_ask rfl)
  intro replicaId
  apply neutral_now.bind
  intro createdAt
  apply neutral_now.bind
  intro verifiedAt
  apply neutral_nodeForBackend.minds.bind
  intro owner
  apply Neutral.bind
  · apply Neutral.bind (Neutral.attempt (neutral_rowSection fun _ ha hr => wpE_restoreMetadata ha hr))
    intro r
    cases r with
    | ok p => exact neutral_pure
    | error e => exact neutral_pure
  rintro ⟨progress, result⟩
  cases result with
  | ok restored => exact neutral_pure
  | error e =>
    apply Neutral.bind (neutral_rowSection fun _ ha hr => wpE_undoRestore ha hr)
    exact fun _ => neutral_deletePayload.mapErr.minds.when neutral_throw

theorem ends_restore {id : Uuid} {actor : String} :
    Ends (.object id) (Coordinator.restore env id actor) := by
  apply Neutral.objectFor
  apply neutral_require
  rintro o rfl
  apply Neutral.refuse
  apply Neutral.bind
  · exact Neutral.serves (neutral_inner rfl)
  intro as
  cases as.getLast? with
  | none => exact neutral_throw
  | some record =>
    apply neutral_lookupArchive.serves.bind
    intro a
    apply neutral_archiveRead.bind
    intro archived
    apply neutral_settle.bind
    intro _
    apply neutral_settle.bind
    intro data
    apply Neutral.bind
    · exact Neutral.serves (neutral_inner rfl)
    intro rs
    split
    · exact neutral_restoreExisting.mono fun _ hh => ⟨hh.1.1, hh.2⟩
    · apply neutral_hotBackend.serves.bind
      intro b
      exact neutral_restoreGuarded.payloadsFor (fun _ hh => hh.1) fun _ hh => ⟨hh.1.1, hh.2⟩

theorem neutral_invalidateAll {rs : List Replica} : Neutral P (Coordinator.invalidateAll rs) := by
  induction rs with
  | nil => exact neutral_pure
  | cons r rs ih => exact Neutral.bind (neutral_store rfl) fun _ => ih

theorem neutral_invalidateShared {o : ReclaimObject} {r : Replica} {e : ReclaimError} :
    Neutral Outside (Coordinator.invalidateShared o r e) := by
  apply Neutral.section
  apply Neutral.bind (neutral_store rfl)
  intro all
  apply neutral_invalidateAll.bind
  exact fun _ => neutral_now.bind fun _ => neutral_store rfl

theorem neutral_verifyReplicas {o : ReclaimObject} {rs : List Replica} {results : List Json} :
    Neutral Outside (Coordinator.verifyReplicas env o rs results) := by
  induction rs generalizing results with
  | nil => exact neutral_pure
  | cons r rs ih =>
    apply Neutral.bind
    · exact Neutral.attempt (neutral_readPayload.bind fun _ => neutral_settle)
    intro a
    cases a with
    | ok u =>
      apply neutral_now.bind
      exact fun _ => Neutral.bind (neutral_inner rfl) fun _ => ih
    | error e => exact neutral_invalidateShared.bind fun _ => ih

theorem ends_verify {id : Uuid} {actor : String} :
    Ends (.object id) (Coordinator.verify env id actor) := by
  apply Neutral.object
  apply Neutral.bind
  · exact Neutral.keyless (neutral_inner rfl)
  intro o
  apply Neutral.bind
  · exact Neutral.keyless (neutral_inner rfl)
  intro rs
  apply Neutral.payloads
  apply neutral_verifyReplicas.bind
  intro results
  apply Neutral.bind
  · exact Neutral.section (neutral_now.bind fun _ => neutral_store rfl)
  · exact fun _ => neutral_pure

/-! ### recovery -/

theorem Mild.plain {c : Cmd} (h : Mild c) : c.plain = true := by
  obtain ⟨so, rfl, hm⟩ := h
  cases so <;> first | rfl | cases hm

theorem neutral_only {α : Type} {x : M α} (hx : Only Mild x.run) : Neutral P x := by
  intro h ha _
  show wp guardAgent x.run _ h
  generalize x.run = y at hx
  induction hx with
  | ret r =>
    cases r with
    | ok a => exact (rfl : h = h)
    | error e => exact (rfl : h = h)
  | call hc _ ih =>
    rintro h' rfl _ i _
    show Agent.after _ _ (if h'.allows _ then _ else _) _
    rw [if_pos (allows_plain hc.plain ha), after_plain hc.plain]
    exact ⟨trivial, ih _⟩

theorem steady_pure {α : Type} {a : α} : Steady (pure a) := neutral_pure.steady

theorem steady_throw {α : Type} {e : ReclaimError} : Steady (throw e : M α) := neutral_throw.steady

theorem steady_settle {α : Type} {r : Res α} : Steady (settle r) := neutral_settle.steady

theorem steady_store {op : StoreOp} (hc : (Cmd.store op).plain = true) :
    Steady (Coordinator.store op) := (neutral_store hc).steady

theorem steady_only {α : Type} {x : M α} (hx : Only Mild x.run) : Steady x :=
  (neutral_only hx).steady

theorem Mends.allows_row {h : Grip} (hh : Mends h) (o : ReclaimObject) :
    h.allows (.store (.updateObject o)) = true := by
  simp [Grip.allows, hh.armed, hh.role]

theorem Mends.allows_create {h : Grip} (hh : Mends h) (o : ReclaimObject) :
    h.allows (.store (.createObject o)) = true := by
  simp [Grip.allows, hh.armed, hh.role]

/-- a row written, and then its audit row -/
theorem steady_rowAudit {o : ReclaimObject} {a : AuditEntry} (ho : a.objectId = some o.id)
    (hs : a.newState = some o.lifecycleState) :
    Steady (Coordinator.store (.updateObject o) >>= fun _ =>
      Coordinator.store (.appendAudit a)) := by
  intro h hh
  apply wpE_bind.mpr
  apply wpE_command
  · exact hh.allows_row o
  intro r
  cases r with
  | error e => exact (rfl : Alike h h)
  | ok u =>
    apply wpE_command
    · exact allows_announced hh.armed rfl ho hs
    intro r
    cases r with
    | error e => exact (rfl : Alike h { h with noted := _ })
    | ok u => exact (rfl : Alike h { h with noted := _ })

theorem steady_rowAuditThen {α : Type} {o : ReclaimObject} {a : AuditEntry} {f : Unit → M α}
    (ho : a.objectId = some o.id) (hs : a.newState = some o.lifecycleState)
    (hf : ∀ u, Steady (f u)) :
    Steady (Coordinator.store (.updateObject o) >>= fun _ =>
      Coordinator.store (.appendAudit a) >>= f) := by
  intro h hh
  have hboth := wpE_bind.mp ((steady_rowAudit ho hs).bind hf h hh)
  apply wpE_bind.mpr
  refine wpE_mono (wpE_bind.mp hboth) ?_ fun _ _ he => he
  exact fun _ _ hb => wpE_bind.mpr hb

/-- the row put back, and the audit row it still needs -/
theorem wpE_restoreObject {now : Int} {e : JournalEntry} {prior : ReclaimObject} {h : Grip}
    (hh : Mends h) (hid : prior.id = e.objectId) :
    wpE guardAgent (Coordinator.restoreObject now e prior)
      (fun audit h' => Alike h h' ∧ ∀ a, audit = some a →
        h'.noted = some (e.objectId, prior.lifecycleState) ∧ a.objectId = some e.objectId ∧
          a.newState = some prior.lifecycleState)
      (fun _ h' => Alike h h') h := by
  apply wpE_bind.mpr
  apply wpE_command
  · exact hh.armed
  intro r
  cases r with
  | error err => exact (rfl : Alike h h)
  | ok found =>
    cases found with
    | none =>
      show wpE guardAgent (Coordinator.store (.createObject prior) >>= _) _ _ h
      apply wpE_bind.mpr
      apply wpE_command
      · exact hh.allows_create prior
      intro r
      cases r with
      | error err => exact (rfl : Alike h h)
      | ok u =>
        refine ⟨alike_noted, ?_⟩
        intro a ha
        cases ha
        exact ⟨by rw [← hid]; rfl, rfl, rfl⟩
    | some o =>
      show wpE guardAgent (if o.generation ≠ e.generation then _ else _) _ _ h
      by_cases hg : o.generation ≠ e.generation
      · rw [if_pos hg]
        exact (rfl : Alike h h)
      · rw [if_neg hg]
        show wpE guardAgent (if o.lifecycleState ≠ prior.lifecycleState then _ else _) _ _ h
        by_cases hs : o.lifecycleState ≠ prior.lifecycleState
        · rw [if_pos hs]
          apply wpE_bind.mpr
          apply wpE_command
          · exact hh.allows_row prior
          intro r
          cases r with
          | error err => exact (rfl : Alike h h)
          | ok u =>
            refine ⟨alike_noted, ?_⟩
            intro a ha
            cases ha
            exact ⟨by rw [← hid]; rfl, rfl, rfl⟩
        · rw [if_neg hs]
          exact ⟨rfl, fun a ha => by cases ha⟩

theorem steady_rollback {now : Int} {e : JournalEntry} {p : ParsedJournalPayload}
    (hid : p.priorObject.id = e.objectId) : Steady (Coordinator.rollback now e p) := by
  have hrest : Steady (do
      Coordinator.store (.updateReservationForAttempt e.attemptId .released)
      Coordinator.store (.reconcileAttempt e.attemptId .rolledBack now)
      Coordinator.store (.updateJournalPhase e.attemptId .rolledBack now)
      pure .rolledBack : M ReconcileOutcome) := by
    apply Steady.bind (steady_store rfl)
    intro _
    apply Steady.bind (steady_store rfl)
    exact fun _ => Steady.bind (steady_store rfl) fun _ => steady_pure
  intro h hh
  apply wpE_bind.mpr
  refine wpE_mono (wpE_restoreObject hh hid) ?_ fun _ _ he => he
  rintro audit h₁ ⟨ha₁, hnote⟩
  have hh₁ := hh.alike ha₁
  have hlast : ∀ h', Alike h₁ h' → wpE guardAgent (do
      Coordinator.store (.updateReservationForAttempt e.attemptId .released)
      Coordinator.store (.reconcileAttempt e.attemptId .rolledBack now)
      Coordinator.store (.updateJournalPhase e.attemptId .rolledBack now)
      pure .rolledBack : M ReconcileOutcome) (fun _ h'' => Alike h h'') (fun _ h'' => Alike h h'')
      h' := by
    intro h' hal
    refine wpE_mono (hrest h' (hh₁.alike hal)) ?_ ?_
    · exact fun _ _ hb => ha₁.trans (hal.trans hb)
    · exact fun _ _ hb => ha₁.trans (hal.trans hb)
  apply wpE_bind.mpr
  refine wpE_mono (neutral_only (P := Mends) restoreRollbackMetadata_mild h₁ hh₁.armed hh₁) ?_ ?_
  · rintro _ h' rfl
    apply wpE_bind.mpr
    refine wpE_mono (neutral_only (P := Mends) repairDedupCounts_mild h' hh₁.armed hh₁) ?_ ?_
    · rintro _ h₁ rfl
      cases audit with
      | none => exact hlast h₁ rfl
      | some a =>
        obtain ⟨hn, ho, hs⟩ := hnote a rfl
        apply wpE_bind.mpr
        apply wpE_command
        · exact allows_announced hh₁.armed hn ho hs
        intro r
        cases r with
        | error err => exact ha₁
        | ok u => exact hlast h₁ rfl
    · rintro _ h₁ rfl
      exact ha₁
  · rintro _ h' rfl
    exact ha₁

theorem steady_commitObject {now : Int} {e : JournalEntry} {current : ReclaimObject}
    (hid : current.id = e.objectId) : Steady (Coordinator.commitObject now e current) := by
  apply Steady.ite
  · apply steady_rowAudit
    · exact congrArg some hid.symm
    · rfl
  · exact steady_pure

theorem steady_commitAfterCrash {now : Int} {e : JournalEntry} {p : ParsedJournalPayload} :
    Steady (Coordinator.commitAfterCrash now e p) := by
  have hrest : ∀ current : ReclaimObject, current.id = e.objectId → Steady (do
      let replicas ← Coordinator.store .allReplicas
      Coordinator.commitReplicas e replicas p.replicaDeletions
      let archives ← Coordinator.store .listArchives
      Coordinator.commitArchives e archives p.archiveDeletions
      Coordinator.commitObject now e current
      Coordinator.store (.updateReservationForAttempt e.attemptId .committed)
      Coordinator.store (.reconcileAttempt e.attemptId .committed now)
      Coordinator.store (.updateJournalPhase e.attemptId .committed now)
      pure .committed : M ReconcileOutcome) := by
    intro current hid
    apply Steady.bind (steady_store rfl)
    intro replicas
    apply (steady_only commitReplicas_mild).bind
    intro _
    apply Steady.bind (steady_store rfl)
    intro archives
    apply (steady_only commitArchives_mild).bind
    intro _
    apply (steady_commitObject hid).bind
    intro _
    apply Steady.bind (steady_store rfl)
    intro _
    apply Steady.bind (steady_store rfl)
    exact fun _ => Steady.bind (steady_store rfl) fun _ => steady_pure
  intro h hh
  apply wpE_bind.mpr
  apply wpE_sane
  · exact hh.armed
  intro r hr
  cases r with
  | error err => exact (rfl : Alike h h)
  | ok found =>
    cases found with
    | none => exact (rfl : Alike h h)
    | some current =>
      show wpE guardAgent (if current.generation ≠ e.generation then _ else _) _ _ h
      by_cases hg : current.generation ≠ e.generation
      · rw [if_pos hg]
        exact (rfl : Alike h h)
      · rw [if_neg hg]
        exact hrest current hr h hh

theorem steady_payloadExists {b k : String} : Steady (Coordinator.payloadExists b k) :=
  neutral_payloadExists.steadySection rfl

/-- the mutex taken and dropped, with a look at the configuration or none -/
theorem wpE_passing {α : Type} {x : M α} {h : Grip} (hh : Mends h) (hx : Steady x) :
    wpE guardAgent x (fun _ h' => Alike h h') (fun _ h' => Alike h h') h.enter.leave := by
  refine wpE_mono (hx h.enter.leave (hh.alike hh.leave_enter)) ?_ ?_
  · exact fun _ _ hb => hh.leave_enter.trans hb
  · exact fun _ _ hb => hh.leave_enter.trans hb

theorem steady_lookupArchive {id : String} {err : ReclaimError} :
    Steady (Coordinator.lookupArchive id err) := by
  intro h hh
  apply wpE_lock hh.mutex
  apply wpE_bind.mpr
  apply wpE_bind.mpr
  apply wpE_command rfl
  intro p
  apply wpE_unlock rfl
  apply wpE_passing hh
  cases p.1.archive id with
  | none => exact steady_throw
  | some a => exact steady_pure

theorem steady_payloadStates {rs : List Replica} {seen : Bool × Bool} :
    Steady (Coordinator.payloadStates rs seen) := by
  induction rs generalizing seen with
  | nil => exact steady_pure
  | cons r rs ih => exact steady_payloadExists.bind fun _ => steady_settle.bind fun _ => ih

theorem steady_archiveStates {as : List ArchiveRecord} {seen : Bool × Bool} :
    Steady (Coordinator.archiveStates as seen) := by
  induction as generalizing seen with
  | nil => exact steady_pure
  | cons a as ih =>
    apply steady_lookupArchive.bind
    exact fun _ => neutral_archiveExists.steady.bind fun _ => steady_settle.bind fun _ => ih

theorem steady_physicalState {payload : JournalPayload} :
    Steady (Coordinator.physicalState payload) := by
  apply steady_settle.bind
  intro plan
  apply steady_pure.ite
  apply steady_payloadStates.bind
  exact fun _ => steady_archiveStates.bind fun _ => steady_pure

theorem steady_reconcileEntry {now : Int} {e : JournalEntry} :
    Steady (Coordinator.reconcileEntry Coordinator.physicalState now e) := by
  have hphysical : ∀ p : ParsedJournalPayload, p.priorObject.id = e.objectId → Steady
      (Coordinator.reconcilePhysical Coordinator.physicalState now e p) := by
    intro p hid
    apply (steady_commitAfterCrash.ite (steady_rollback hid)).ite
    exact steady_physicalState.bind fun _ => (steady_rollback hid).ite steady_commitAfterCrash
  intro h hh
  apply wpE_bind.mpr
  apply wpE_settle.mpr
  cases hp : Coordinator.entryPayload e with
  | error err => exact (rfl : Alike h h)
  | ok p =>
    have hid : p.priorObject.id = e.objectId := (entryPayload_identified hp).prior
    dsimp only [outcome]
    cases e.phase with
    | committed => exact steady_pure h hh
    | rolledBack => exact steady_pure h hh
    | failed => exact steady_pure h hh
    | reserved => exact steady_rollback hid h hh
    | validated => exact steady_rollback hid h hh
    | physicalStarted => exact hphysical p hid h hh
    | physicalDone => exact hphysical p hid h hh

theorem steady_reconcileEntries {now : Int} {es : List JournalEntry} {report : RecoveryReport} :
    Steady (Coordinator.reconcileEntries Coordinator.physicalState now es report) := by
  induction es generalizing report with
  | nil => exact steady_pure
  | cons e es ih => exact steady_reconcileEntry.attempt.bind fun _ => ih

theorem steady_abandon {now : Int} {v : Reservation} : Steady (Coordinator.abandon now v) := by
  have hrest : Steady (do
      Coordinator.store (.updateReservation v.reservationId .expired)
      Coordinator.store (.reconcileAttempt v.attemptId .failed now) : M Unit) :=
    Steady.bind (steady_store rfl) fun _ => steady_store rfl
  apply Steady.bind (steady_store rfl)
  intro found
  cases found with
  | none => exact hrest
  | some o =>
    apply Steady.ite
    · exact steady_rowAuditThen rfl rfl fun _ => hrest
    · exact hrest

theorem steady_expireReservations {now : Int} {vs : List Reservation} {n : Nat} :
    Steady (Coordinator.expireReservations now vs n) := by
  induction vs generalizing n with
  | nil => exact steady_pure
  | cons v vs ih =>
    apply Steady.ite
    · apply Steady.bind (steady_store rfl)
      exact fun _ => ih.ite (steady_abandon.bind fun _ => ih)
    · exact ih

theorem steady_reconcileStore {now : Int} :
    Steady (Coordinator.reconcileStore Coordinator.physicalState now) := by
  apply Steady.bind (steady_store rfl)
  intro entries
  apply steady_reconcileEntries.bind
  intro report
  apply Steady.bind (steady_store rfl)
  intro reservations
  apply steady_expireReservations.bind
  intro abandoned
  apply (steady_only repairDedupCounts_mild).bind
  intro repairs
  apply Steady.bind (steady_store rfl)
  intro graph
  cases graph.validate with
  | ok u => exact steady_pure
  | error e => exact steady_pure

theorem ends_recover : Ends .recovery Coordinator.recover := by
  apply Steady.recovery
  have hrest : Steady (do
      let now ← Coordinator.nowMs
      let report ← Coordinator.reconcileStore Coordinator.physicalState now
      Coordinator.withInner do
        let ts ← Coordinator.nowMs
        Coordinator.store (.appendAudit
          { id := 0
            tsMs := ts
            actor := "coordinator"
            action := "RECOVERY_RAN"
            objectId := none
            generation := none
            priorState := none
            newState := none
            policy := none
            attemptId := none
            node := none
            detail := Coordinator.reportJson report })
      pure report) := by
    apply neutral_now.steady.bind
    intro now
    apply steady_reconcileStore.bind
    intro report
    apply Steady.bind
    · apply Neutral.steadySection
      · exact Neutral.section (neutral_now.bind fun _ => neutral_store rfl)
      · rfl
    · exact fun _ => steady_pure
  intro h hh
  apply wpE_lock hh.mutex
  apply wpE_unlock rfl
  exact wpE_passing hh hrest

/-! ### lineage -/

/-- in a section that found the two endpoints idle -/
def Looked (parent child : Uuid) (h : Grip) : Prop :=
  h.mutex = true ∧ h.cleared = some (parent, child)

/-- the commands that write an edge -/
theorem neutral_edge {parent child : Uuid} {so : StoreOp}
    (hc : ∀ h, h.armed = true → Looked parent child h → h.allows (.store so) = true)
    (hafter : ∀ h r, Grip.after h (.store so) r = h) :
    Neutral (Looked parent child) (Coordinator.store so) := by
  intro h ha hh
  apply wpE_command (hc h ha hh)
  intro r
  rw [hafter]
  cases r with
  | ok a => exact (rfl : h = h)
  | error e => exact (rfl : h = h)

theorem allows_edge {parent child : Uuid} {h : Grip} (ha : h.armed = true)
    (hh : Looked parent child h) :
    (h.armed && decide (h.cleared = some (parent, child))) = true := by
  rw [ha, hh.2]
  exact decide_eq_true rfl

/-- a lineage update: the busy check, then the edge, in one section -/
theorem neutral_lineageSection {parent child : Uuid} {x : M Unit}
    (hx : Neutral (Looked parent child) x) :
    Neutral Outside (Coordinator.withInner do
      if ← Coordinator.ask (.lineageBusy parent child) then
        throw Coordinator.lineageBusyError
      x) := by
  intro h ha hh
  have hback : ∀ c, Grip.leave { h.enter with cleared := c } = h := fun _ => hh.leave_enter
  apply wpE_withInner hh
  · exact fun _ => rfl
  apply wpE_bind.mpr
  apply wpE_command
  · rfl
  intro busy
  cases busy with
  | true => exact ⟨rfl, hback none⟩
  | false =>
    show wpE guardAgent x _ _ { h.enter with cleared := some (parent, child) }
    refine wpE_mono (hx _ ha ⟨rfl, rfl⟩) ?_ ?_
    · rintro _ h' rfl
      exact ⟨rfl, hback _⟩
    · rintro e h' rfl
      exact ⟨rfl, hback _⟩

theorem neutral_addLineage {parent child : Uuid} {kind : EdgeKind} {actor : String} :
    Neutral Outside (Coordinator.addLineage parent child kind actor) := by
  apply neutral_lineageSection
  apply Neutral.bind (neutral_store rfl)
  intro graph
  apply neutral_settle.bind
  intro _
  apply Neutral.bind
  · exact neutral_edge (fun _ ha hh => allows_edge ha hh) fun _ _ => rfl
  · exact fun _ => neutral_now.bind fun _ => neutral_store rfl

theorem neutral_removeLineage {parent child : Uuid} {kind : EdgeKind} {actor : String} :
    Neutral Outside (Coordinator.removeLineage parent child kind actor) := by
  apply neutral_lineageSection
  apply Neutral.bind
  · exact neutral_edge (fun _ ha hh => allows_edge ha hh) fun _ _ => rfl
  · exact fun _ => neutral_now.bind fun _ => neutral_store rfl

/-! ## operations -/

theorem neutral_authorityHeartbeat : Neutral Outside Coordinator.authorityHeartbeat := by
  apply Neutral.bind (neutral_ask rfl)
  intro down
  apply neutral_pure.ite
  apply Neutral.bind (neutral_ask rfl)
  intro p
  apply neutral_now.bind
  intro now
  apply Neutral.bind
  · exact Neutral.attempt (neutral_store rfl)
  intro r
  cases r with
  | ok u => exact neutral_pure
  | error e => exact neutral_ask rfl

/-- the guard an operation works under -/
def Op.role : Op → Role
  | .createObject req => .object req.object.id
  | .touch id _ | .pin id _ | .unpin id _ | .setProtected id _ _ => .object id
  | .reclaim req => .object req.objectId
  | .compress id _ | .archive id _ | .restore id _ | .verify id _ => .object id
  | .recover => .recovery
  | _ => .free

/-- every operation works under its guard and ends with nothing -/
theorem ends_prog (op : Op) : Ends op.role (op.prog env) := by
  cases op with
  | createObject req => exact ends_createObject
  | touch id actor => exact ends_touch
  | pin id actor => exact ends_pin
  | unpin id actor => exact ends_unpin
  | setProtected id b actor => exact ends_setProtected
  | addLineage p c k actor => exact neutral_addLineage.ends
  | removeLineage p c k actor => exact neutral_removeLineage.ends
  | plan id actor => exact neutral_plan.ends
  | reclaim req => exact ends_reclaim
  | compress id actor => exact ends_compress
  | archive id actor => exact ends_archive
  | restore id actor => exact ends_restore
  | verify id actor => exact ends_verify
  | recover => exact ends_recover
  | heartbeat => exact neutral_authorityHeartbeat.ends
  | requestShutdown => exact Neutral.ends (neutral_ask rfl)

end

end ReclaimFabric
