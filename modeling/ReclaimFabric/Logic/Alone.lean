import ReclaimFabric.Logic.Core

/-!
# Runs of one operation that is alone

When nobody else moves, a run of an operation can be taken apart along its program, and every part
is a run again.

* `gated`      the steps of a thread, as far as a check of the command, its input and its reply
               accepts them;
* `Rests`      nothing of substance has changed: tables, payloads, blobs and configuration;
* `Resting`    the same, by steps that cannot change any of it;
* `Restful`    programs over such commands;
* `ran_withInner`, `ran_withObject`, `ran_withPayloads`   the sections of an operation, by what
               their bodies do.
-/

set_option linter.unusedSectionVars false

namespace ReclaimFabric

open Prog (Ran Only attempt settle)

/-! ## steps that are accepted -/

/-- what is said of a step: the command, its input, the state before it and the reply -/
abbrev Gate := (c : Cmd) → Input → Traced → c.Reply → Bool

/-- the steps of a thread that the gate accepts -/
def gated (ok : Gate) (env : Env) (t : Tid) (op : Op) (c : Cmd) (i : Input) (w : Traced) :
    Option (c.Reply × Traced) :=
  (Traced.exec env t op c i w).filter fun x => ok c i w x.1

section
variable {ok : Gate} {env : Env} {t : Tid} {op : Op} {w w₁ w' : Traced}

theorem gated_eq_some {c : Cmd} {i : Input} {x : c.Reply × Traced} :
    gated ok env t op c i w = some x ↔
      Traced.exec env t op c i w = some x ∧ ok c i w x.1 = true := Option.filter_eq_some_iff

/-- a gate that is always open -/
theorem gated_open : gated (fun _ _ _ _ => true) env t op = Traced.exec env t op := by
  funext c i w
  unfold gated
  cases Traced.exec env t op c i w with
  | none => rfl
  | some x => rfl

/-! ## nothing of substance -/

/-- only the store may have changed -/
structure OnTables (w w' : Traced) : Prop where
  payloads : w'.payloads = w.payloads
  blobs : w'.blobs = w.blobs
  config : w'.proc.config = w.proc.config
  log : ∃ l, w'.log = l ++ w.log

/-- nothing of substance has changed -/
structure Rests (w w' : Traced) : Prop extends OnTables w w' where
  data : w'.store.data = w.store.data

theorem OnTables.trans (h : OnTables w w₁) (h' : OnTables w₁ w') : OnTables w w' where
  payloads := h'.payloads.trans h.payloads
  blobs := h'.blobs.trans h.blobs
  config := h'.config.trans h.config
  log := grown_trans h.log h'.log

namespace Rests

theorem refl (w : Traced) : Rests w w := ⟨⟨rfl, rfl, rfl, [], rfl⟩, rfl⟩

theorem trans (h : Rests w w₁) (h' : Rests w₁ w') : Rests w w' :=
  ⟨h.toOnTables.trans h'.toOnTables, h'.data.trans h.data⟩

variable (h : Rests w w')
include h

theorem objects : w'.store.objects = w.store.objects := congrArg Data.objects h.data
theorem replicas : w'.store.replicas = w.store.replicas := congrArg Data.replicas h.data
theorem dedup : w'.store.dedup = w.store.dedup := congrArg Data.dedup h.data
theorem archives : w'.store.archives = w.store.archives := congrArg Data.archives h.data

end Rests

/-- the questions an operation asks before it writes, and the heartbeat of its sections -/
def StoreOp.query : StoreOp → Bool
  | .getObject _ => true
  | .requireObject _ => true
  | .replicasFor _ => true
  | .getDedup _ _ => true
  | .archivesFor _ => true
  | .coordinatorHeartbeat _ _ _ _ => true
  | _ => false

theorem StoreOp.calm_of_query {so : StoreOp} (h : so.query = true) : so.calm = true := by
  cases so with
  | getObject id => rfl
  | requireObject id => rfl
  | replicasFor id => rfl
  | getDedup h b => rfl
  | archivesFor id => rfl
  | coordinatorHeartbeat p b e n => rfl
  | _ => cases h

/-- the commands that leave tables, payloads, blobs and configuration alone -/
def Cmd.restful : Cmd → Bool
  | .store op => op.query
  | .lock => true
  | .unlock => true
  | .insertActiveObject _ => true
  | .removeActiveObject _ => true
  | .pollPayloads _ => true
  | .removeActivePayloads _ => true
  | c => c.calm

theorem exec_restful {c : Cmd} (hc : c.restful = true) {i : Input} {w x : World} {r : c.Reply}
    (h : exec env t c i w = some (r, x)) :
    x.store.data = w.store.data ∧ x.payloads = w.payloads ∧ x.blobs = w.blobs ∧
      x.proc.config = w.proc.config := by
  by_cases hcalm : c.calm = true
  · have hq := exec_calm hcalm h
    exact ⟨hq.data, hq.payloads, hq.blobs, congrArg Guards.config hq.guards⟩
  cases c with
  | store so => exact absurd (StoreOp.calm_of_query hc) hcalm
  | lock =>
    simp only [exec] at h
    split at h
    · cases h
      exact ⟨rfl, rfl, rfl, rfl⟩
    · cases h
  | unlock =>
    cases h
    exact ⟨rfl, rfl, rfl, rfl⟩
  | insertActiveObject id =>
    simp only [exec, Option.some.injEq, execInsertActiveObject] at h
    split at h
    · cases h
      exact ⟨rfl, rfl, rfl, rfl⟩
    · split at h
      · cases h
        exact ⟨rfl, rfl, rfl, rfl⟩
      · cases h
        exact ⟨rfl, rfl, rfl, rfl⟩
  | removeActiveObject id =>
    simp only [exec] at h
    split at h
    · cases h
      exact ⟨rfl, rfl, rfl, rfl⟩
    · cases h
  | pollPayloads keys =>
    simp only [exec, execPollPayloads] at h
    split at h
    · split at h
      · cases h
        exact ⟨rfl, rfl, rfl, rfl⟩
      · cases h
        exact ⟨rfl, rfl, rfl, rfl⟩
    · cases h
  | removeActivePayloads keys =>
    simp only [exec] at h
    split at h
    · cases h
      exact ⟨rfl, rfl, rfl, rfl⟩
    · cases h
  | _ => exact absurd hc hcalm

/-- the event is a restful step -/
def Event.Restful : Event → Prop
  | .call _ _ c _ _ => c.restful = true
  | _ => False

/-- nothing of substance has changed, and nothing was tried -/
structure Resting (w w' : Traced) : Prop extends Rests w w' where
  trail : ∃ l, w'.log = l ++ w.log ∧ ∀ e ∈ l, Event.Restful e

theorem Resting.refl (w : Traced) : Resting w w :=
  ⟨.refl w, [], rfl, fun _ h => absurd h List.not_mem_nil⟩

theorem Resting.trans (h : Resting w w₁) (h' : Resting w₁ w') : Resting w w' := by
  obtain ⟨l, hl, he⟩ := h.trail
  obtain ⟨l', hl', he'⟩ := h'.trail
  refine ⟨h.toRests.trans h'.toRests, l' ++ l, by rw [hl', hl, List.append_assoc], ?_⟩
  intro e hm
  rcases List.mem_append.mp hm with hm | hm
  · exact he' e hm
  · exact he e hm

theorem rests_step {c : Cmd} (hc : c.restful = true) {i : Input} {r : c.Reply}
    (h : gated ok env t op c i w = some (r, w')) : Resting w w' := by
  obtain ⟨⟨b, y⟩, hy, hw⟩ := Option.map_eq_some_iff.mp (gated_eq_some.mp h).1
  cases hw
  obtain ⟨hd, hp, hb, hcfg⟩ := exec_restful hc hy
  refine ⟨⟨⟨hp, hb, hcfg, [_], rfl⟩, hd⟩, [_], rfl, fun e he => ?_⟩
  rw [List.mem_singleton.mp he]
  exact hc

/-- every command of the program leaves the state at rest -/
abbrev Restful {α : Type} (x : M α) : Prop := Only (fun c => Cmd.restful c = true) x.run

theorem rests {α : Type} {x : M α} {r : Res α} (hx : Restful x)
    (h : Ran (gated ok env t op) x.run w r w') : Resting w w' :=
  hx.ran (K := Resting w) (fun _ _ _ _ _ hc he hw => hw.trans (rests_step hc he)) h (.refl w)

end

/-! ## programs at rest -/

section
variable {α : Type}

theorem restful_call {c : Cmd} {k : c.Reply → Res α} (hc : c.restful = true) :
    Restful (ExceptT.mk (.call c fun r => .ret (k r)) : M α) := .call hc fun _ => .ret _

theorem restful_ask {c : Cmd} (hc : c.restful = true) : Restful (Coordinator.ask c) :=
  restful_call (k := fun r => .ok r) hc

theorem restful_store {so : StoreOp} (hc : so.query = true) : Restful (Coordinator.store so) :=
  restful_call (c := .store so) (k := fun r => r) hc

/-- the commands a section consists of, besides its body -/
def Cmd.sectional : Cmd → Bool
  | .loadAuthorityLost => true
  | .setAuthorityLost => true
  | .lock => true
  | .unlock => true
  | .readProc => true
  | .now => true
  | .store (.coordinatorHeartbeat _ _ _ _) => true
  | _ => false

theorem Cmd.restful_of_sectional {c : Cmd} (h : c.sectional = true) : c.restful = true := by
  cases c with
  | store so => cases so <;> first | rfl | cases h
  | _ => first | rfl | cases h

theorem only_section {P : Cmd → Prop} (hP : ∀ c, c.sectional = true → P c) {f : M α}
    (hf : Only P f.run) : Only P (Coordinator.withInner f).run := by
  have hask {c : Cmd} (hc : c.sectional = true) : Only P (Coordinator.ask c).run :=
    .call (hP c hc) fun _ => .ret _
  have hbeat {p : String} {b : Uuid} {e : Nat} {n : Int} :
      Only P (Coordinator.store (.coordinatorHeartbeat p b e n)).run :=
    .call (hP _ rfl) fun _ => .ret _
  refine only_bind (hask rfl) fun b => only_ite (only_bind only_throw fun _ => ?_) ?_
  -- the section itself, whether the flag was set or not
  all_goals
    refine only_bind (hask rfl) fun _ => only_bind (hask rfl) fun p => ?_
    refine only_bind (hask rfl) fun now => only_bind (only_attempt hbeat) fun o => ?_
    cases o with
    | error e => exact only_bind (hask rfl) fun _ => only_bind (hask rfl) fun _ => only_throw
    | ok _ => exact only_bind (only_attempt hf) fun _ => only_bind (hask rfl) fun _ => only_settle

/-- what a section does besides its body is restful -/
theorem only_withInner {P : Cmd → Prop} (hP : ∀ c, c.restful = true → P c) {f : M α}
    (hf : Only P f.run) : Only P (Coordinator.withInner f).run :=
  only_section (fun c hc => hP c (Cmd.restful_of_sectional hc)) hf

theorem restful_withInner {f : M α} (hf : Restful f) : Restful (Coordinator.withInner f) :=
  only_withInner (fun _ hc => hc) hf

theorem restful_inner {so : StoreOp} (hc : so.query = true) : Restful (Coordinator.inner so) :=
  restful_withInner (restful_store hc)

theorem restful_config : Restful Coordinator.config :=
  only_bind (restful_ask rfl) fun _ => only_pure

theorem restful_nodeForBackend (b : String) : Restful (Coordinator.nodeForBackend b) :=
  restful_withInner (only_bind restful_config fun _ => only_settle)

theorem restful_lookupBackend (b : String) : Restful (Coordinator.lookupBackend b) :=
  restful_withInner (only_bind restful_config fun _ => only_settle)

theorem restful_nodeOperation {n b k : String} {nop : NodeOp} (hc : nop.calm = true) :
    Restful (Coordinator.nodeOperation n b k nop) := by
  refine only_bind (restful_withInner (only_bind restful_config fun c => ?_)) fun _ => ?_
  · exact only_ite only_pure only_throw
  · exact restful_call (c := .node n b k nop) (k := fun r => r) hc

theorem restful_readPayload (b k : String) : Restful (Coordinator.readPayload b k) := by
  refine only_bind (restful_nodeForBackend b) fun n => ?_
  cases n with
  | none =>
    exact only_bind (restful_lookupBackend b) fun _ => restful_call (c := .get b k) (k := fun r => r) rfl
  | some n =>
    refine only_bind (restful_nodeOperation rfl) fun reply => ?_
    obtain ⟨_, _, _, payload, _, _⟩ := reply
    cases payload with
    | none => exact only_ite (only_bind only_throw fun _ => only_throw) only_throw
    | some d => exact only_ite (only_bind only_throw fun _ => only_pure) only_pure

theorem restful_payloadExists (b k : String) : Restful (Coordinator.payloadExists b k) := by
  refine only_bind (restful_nodeForBackend b) fun n => ?_
  cases n with
  | none =>
    exact only_bind (restful_lookupBackend b) fun _ =>
      restful_call (c := .exists_ b k) (k := fun r => r) rfl
  | some n =>
    exact only_bind (restful_nodeOperation rfl) fun reply =>
      only_ite (only_bind only_throw fun _ => only_pure) only_pure

theorem restful_lookupArchive {b : String} {e : ReclaimError} :
    Restful (Coordinator.lookupArchive b e) := by
  refine only_bind (restful_ask rfl) fun _ => only_bind restful_config fun c => ?_
  refine only_bind (restful_ask rfl) fun _ => ?_
  cases c.archive b with
  | none => exact only_throw
  | some a => exact only_pure

theorem restful_beginObjectOperation (id : Uuid) : Restful (Coordinator.beginObjectOperation id) :=
  restful_withInner (restful_call (c := .insertActiveObject id) (k := fun r => r) rfl)

theorem restful_pollRound (keys : List (String × ContentHash)) :
    Restful (Coordinator.pollRound keys) := by
  have hpoll : Restful (Coordinator.ask (.pollPayloads keys)) := restful_ask rfl
  have hrest : Restful (do
      if ← Coordinator.ask .loadAuthorityLost then
        throw Coordinator.authorityLostError
      Coordinator.ask (.pollPayloads keys) : M Bool) :=
    only_bind (restful_ask rfl) fun _ => only_ite (only_bind only_throw fun _ => hpoll) hpoll
  refine only_bind (restful_ask rfl) fun b => ?_
  exact only_ite (only_bind only_throw fun _ => hrest) hrest

theorem restful_pollLoop (keys : List (String × ContentHash)) (n : Nat) :
    Restful (Coordinator.pollLoop keys n) := by
  induction n with
  | zero =>
    refine only_bind (restful_pollRound keys) fun b => only_ite only_pure ?_
    exact only_bind (restful_ask rfl) fun _ => only_throw
  | succ n ih => exact only_bind (restful_pollRound keys) fun b => only_ite only_pure ih

theorem restful_beginPayloadOperations (keys : List (String × ContentHash)) :
    Restful (Coordinator.beginPayloadOperations keys) :=
  only_bind (restful_ask rfl) fun n => restful_pollLoop _ n

end

/-! ## sections -/

section
variable {ok : Gate} {env : Env} {t : Tid} {op : Op} {w w' : Traced} {α : Type} {r : Res α}

theorem ran_call {c : Cmd} {k : c.Reply → Res α}
    {exec : (c : Cmd) → Input → Traced → Option (c.Reply × Traced)}
    (h : Ran exec (ExceptT.mk (.call c fun x => .ret (k x)) : M α).run w r w') :
    ∃ i a, exec c i w = some (a, w') ∧ r = k a := by
  have h : Ran exec (.call c fun x => .ret (k x)) w r w' := h
  cases h with
  | call he h =>
    cases h
    exact ⟨_, _, he, rfl⟩

theorem ran_storeCall {so : StoreOp} {r : Res so.Out}
    {exec : (c : Cmd) → Input → Traced → Option (c.Reply × Traced)}
    (h : Ran exec (Coordinator.store so).run w r w') : ∃ i, exec (.store so) i w = some (r, w') := by
  obtain ⟨i, a, he, rfl⟩ := ran_call (c := .store so) (k := fun a => a) h
  exact ⟨i, he⟩

theorem ran_ask {c : Cmd} {r : Res c.Reply}
    {exec : (c : Cmd) → Input → Traced → Option (c.Reply × Traced)}
    (h : Ran exec (Coordinator.ask c).run w r w') : ∃ i a, exec c i w = some (a, w') ∧ r = .ok a :=
  ran_call (k := fun a => .ok a) h

/-- a command that cannot fail and the rest -/
theorem ran_ask_seq {c : Cmd} {f : c.Reply → M α}
    {exec : (c : Cmd) → Input → Traced → Option (c.Reply × Traced)}
    (h : Ran exec (Coordinator.ask c >>= f).run w r w') :
    ∃ i a w₁, exec c i w = some (a, w₁) ∧ Ran exec (f a).run w₁ r w' := by
  rcases ran_seq.mp h with ⟨err, -, hx⟩ | ⟨a, w₁, hx, hrest⟩
  · obtain ⟨_, _, -, hno⟩ := ran_ask hx
    cases hno
  · obtain ⟨i, b, he, hb⟩ := ran_ask hx
    cases hb
    exact ⟨i, a, w₁, he, hrest⟩

/-- an attempted call and the rest -/
theorem ran_attempt_seq {β : Type} {x : M β} {f : Res β → M α}
    {exec : (c : Cmd) → Input → Traced → Option (c.Reply × Traced)}
    (h : Ran exec (attempt x >>= f).run w r w') :
    ∃ o w₁, Ran exec x.run w o w₁ ∧ Ran exec (f o).run w₁ r w' := by
  rcases ran_seq.mp h with ⟨err, -, hx⟩ | ⟨o, w₁, hx, hrest⟩
  · obtain ⟨_, hno, -⟩ := ran_attempt.mp hx
    cases hno
  · obtain ⟨_, ho, hx⟩ := ran_attempt.mp hx
    cases ho
    exact ⟨o, w₁, hx, hrest⟩

/-- a command, and a run of the rest -/
theorem ran_ask_then {c : Cmd} {f : c.Reply → M α}
    {exec : (c : Cmd) → Input → Traced → Option (c.Reply × Traced)} {i : Input} {a : c.Reply}
    {w₁ : Traced} (he : exec c i w = some (a, w₁)) (h : Ran exec (f a).run w₁ r w') :
    Ran exec (Coordinator.ask c >>= f).run w r w' :=
  ran_seq.mpr (.inr ⟨a, w₁, .call he .ret, h⟩)

theorem ran_attempt_then {β : Type} {x : M β} {f : Res β → M α}
    {exec : (c : Cmd) → Input → Traced → Option (c.Reply × Traced)} {o : Res β} {w₁ : Traced}
    (hx : Ran exec x.run w o w₁) (h : Ran exec (f o).run w₁ r w') :
    Ran exec (attempt x >>= f).run w r w' :=
  ran_seq.mpr (.inr ⟨o, w₁, ran_attempt.mpr ⟨o, rfl, hx⟩, h⟩)

/-- `if c { x }` and the rest -/
theorem ran_guarded {c : Prop} [Decidable c] {x : M Unit} {f : Unit → M α}
    {exec : (c : Cmd) → Input → Traced → Option (c.Reply × Traced)}
    (h : Ran exec (if c then x >>= f else f ()).run w r w') :
    (c ∧ Ran exec (x >>= f).run w r w') ∨ (¬c ∧ Ran exec (f ()).run w r w') := by
  by_cases hc : c
  · rw [if_pos hc] at h
    exact .inl ⟨hc, h⟩
  · rw [if_neg hc] at h
    exact .inr ⟨hc, h⟩

theorem ran_throw {e : ReclaimError}
    {exec : (c : Cmd) → Input → Traced → Option (c.Reply × Traced)}
    (h : Ran exec (throw e : M α).run w r w') : r = .error e ∧ w' = w := by
  have h : Ran exec (.ret (.error e) : Prog Cmd Cmd.Reply (Res α)) w r w' := h
  cases h
  exact ⟨rfl, rfl⟩

/-- an error and the rest -/
theorem ran_throw_seq {β : Type} {e : ReclaimError} {f : β → M α}
    {exec : (c : Cmd) → Input → Traced → Option (c.Reply × Traced)}
    (h : Ran exec ((throw e : M β) >>= f).run w r w') : r = .error e ∧ w' = w := by
  rcases ran_seq.mp h with ⟨err, rfl, hx⟩ | ⟨a, w₁, hx, -⟩
  · obtain ⟨he, hw⟩ := ran_throw hx
    cases he
    exact ⟨rfl, hw⟩
  · cases (ran_throw hx).1

/-- from here on the gate accepts no loss of the authority -/
def Assured (ok : Gate) (w : Traced) : Prop :=
  ∀ w₁, (∃ l, w₁.log = l ++ w.log) → (∀ i, ok .loadAuthorityLost i w₁ true = false) ∧
    ∀ p b e n i err, ok (.store (.coordinatorHeartbeat p b e n)) i w₁ (.error err) = false

theorem Assured.later {w₁ : Traced} (h : Assured ok w) (hlog : ∃ l, w₁.log = l ++ w.log) :
    Assured ok w₁ := fun w₂ hlog₂ => h w₂ (grown_trans hlog hlog₂)

/-- the locked part of a section -/
theorem ran_section {f : M α} (h : Ran (gated ok env t op) (do
      Coordinator.ask .lock
      let p ← Coordinator.ask .readProc
      let now ← Coordinator.nowMs
      match ← attempt (Coordinator.store (.coordinatorHeartbeat p.1.processId p.2.2 p.2.1 now)) with
      | .error e =>
        Coordinator.ask .setAuthorityLost
        Coordinator.ask .unlock
        throw e
      | .ok () =>
        let r ← attempt f
        Coordinator.ask .unlock
        settle r : M α).run w r w') :
    (∃ err, r = .error err ∧ Resting w w' ∧ ¬Assured ok w) ∨
      ∃ w₁ w₂, Resting w w₁ ∧ Ran (gated ok env t op) f.run w₁ r w₂ ∧ Resting w₂ w' := by
  obtain ⟨_, _, w₁, hlock, h⟩ := ran_ask_seq h
  obtain ⟨_, p, w₂, hproc, h⟩ := ran_ask_seq h
  obtain ⟨_, now, w₃, hnow, h⟩ := ran_ask_seq h
  have hrest := (rests_step rfl hlock).trans ((rests_step rfl hproc).trans (rests_step rfl hnow))
  obtain ⟨o, w₄, hx, h⟩ := ran_attempt_seq h
  obtain ⟨i, hbeat⟩ := ran_storeCall hx
  have hrest' := hrest.trans (rests_step (c := .store _) rfl hbeat)
  cases o with
  | error err =>
    obtain ⟨_, _, w₅, hset, h⟩ := ran_ask_seq h
    obtain ⟨_, _, w₆, hunlock, h⟩ := ran_ask_seq h
    obtain ⟨rfl, rfl⟩ := ran_throw h
    refine .inl ⟨err, rfl, hrest'.trans ((rests_step rfl hset).trans (rests_step rfl hunlock)), ?_⟩
    intro hsure
    have hrefused := (hsure w₃ hrest.log).2 p.1.processId p.2.2 p.2.1 now i err
    rw [(gated_eq_some.mp hbeat).2] at hrefused
    cases hrefused
  | ok _ =>
    obtain ⟨o, w₅, hf, h⟩ := ran_attempt_seq h
    obtain ⟨_, _, w₆, hunlock, h⟩ := ran_ask_seq h
    obtain ⟨rfl, rfl⟩ := ran_settle.mp h
    exact .inr ⟨w₄, w₅, hrest', hf, rests_step rfl hunlock⟩

/-- a section fails before its body, or it is its body -/
theorem ran_withInner {f : M α} (h : Ran (gated ok env t op) (Coordinator.withInner f).run w r w') :
    (∃ err, r = .error err ∧ Resting w w' ∧ ¬Assured ok w) ∨
      ∃ w₁ w₂, Resting w w₁ ∧ Ran (gated ok env t op) f.run w₁ r w₂ ∧ Resting w₂ w' := by
  obtain ⟨i, lost, w₁, hload, h⟩ := ran_ask_seq h
  have hrest := rests_step rfl hload
  cases lost with
  | true =>
    obtain ⟨rfl, rfl⟩ := ran_throw_seq h
    refine .inl ⟨_, rfl, hrest, fun hsure => ?_⟩
    have hrefused := (hsure w ⟨[], rfl⟩).1 i
    rw [(gated_eq_some.mp hload).2] at hrefused
    cases hrefused
  | false =>
    rcases ran_section h with ⟨err, hr, hs, hno⟩ | ⟨w₂, w₃, hs, hf, hs'⟩
    · exact .inl ⟨err, hr, hrest.trans hs, fun hsure => hno (hsure.later hrest.log)⟩
    · exact .inr ⟨w₂, w₃, hrest.trans hs, hf, hs'⟩

theorem ran_config {r : Res Config} (h : Ran (gated ok env t op) Coordinator.config.run w r w') :
    r = .ok w.proc.config ∧ Resting w w' := by
  obtain ⟨_, p, w₁, hproc, h⟩ := ran_ask_seq h
  obtain ⟨rfl, rfl⟩ := ran_pure.mp h
  refine ⟨?_, rests_step rfl hproc⟩
  obtain ⟨⟨x, y⟩, hy, hw⟩ := Option.map_eq_some_iff.mp (gated_eq_some.mp hproc).1
  cases hw
  cases hy
  rfl

/-- a question about the configuration, in a section of its own -/
theorem ran_configured {f : Config → Res α} {r : Res α} (h : Ran (gated ok env t op)
      (Coordinator.withInner do
        let c ← Coordinator.config
        settle (f c)).run w r w') :
    Resting w w' ∧ ((∃ e, r = .error e) ∧ ¬Assured ok w ∨ r = f w.proc.config) := by
  rcases ran_withInner h with ⟨e, rfl, hs, hno⟩ | ⟨w₁, w₂, hs, hbody, hs'⟩
  · exact ⟨hs, .inl ⟨⟨e, rfl⟩, hno⟩⟩
  rcases ran_seq.mp hbody with ⟨_, -, hx⟩ | ⟨c, w₃, hx, hlast⟩
  · cases (ran_config hx).1
  obtain ⟨hc, hs₃⟩ := ran_config hx
  cases hc
  obtain ⟨rfl, rfl⟩ := ran_settle.mp hlast
  refine ⟨hs.trans (hs₃.trans hs'), .inr ?_⟩
  rw [hs.config]

/-- an operation is refused, or it is its body -/
theorem ran_withObject {id : Uuid} {body : M α}
    (h : Ran (gated ok env t op) (Coordinator.withObject id body).run w r w') :
    (∃ err, r = .error err ∧ Resting w w') ∨
      ∃ w₁ w₂, Resting w w₁ ∧ Ran (gated ok env t op) body.run w₁ r w₂ ∧ Resting w₂ w' := by
  rcases ran_seq.mp h with ⟨err, rfl, hx⟩ | ⟨_, w₁, hx, h⟩
  · exact .inl ⟨err, rfl, rests (restful_beginObjectOperation id) hx⟩
  obtain ⟨o, w₂, hbody, h⟩ := ran_attempt_seq h
  obtain ⟨_, _, w₃, hdrop, h⟩ := ran_ask_seq h
  obtain ⟨rfl, rfl⟩ := ran_settle.mp h
  exact .inr ⟨w₁, w₂, rests (restful_beginObjectOperation id) hx, hbody, rests_step rfl hdrop⟩

/-- the payload guard is not acquired, or the operation is its body -/
theorem ran_withPayloads {keys : List (String × ContentHash)} {body : M α}
    (h : Ran (gated ok env t op) (Coordinator.withPayloads keys body).run w r w') :
    (∃ err, r = .error err ∧ Resting w w' ∧
        Ran (gated ok env t op) (Coordinator.beginPayloadOperations keys).run w (.error err) w') ∨
      ∃ w₁ w₂, Resting w w₁ ∧ Ran (gated ok env t op) body.run w₁ r w₂ ∧ Resting w₂ w' := by
  have hbegin := restful_beginPayloadOperations keys
  rcases ran_seq.mp h with ⟨err, rfl, hx⟩ | ⟨_, w₁, hx, h⟩
  · exact .inl ⟨err, rfl, rests hbegin hx, hx⟩
  obtain ⟨o, w₂, hbody, h⟩ := ran_attempt_seq h
  obtain ⟨_, _, w₃, hdrop, h⟩ := ran_ask_seq h
  obtain ⟨rfl, rfl⟩ := ran_settle.mp h
  exact .inr ⟨w₁, w₂, rests hbegin hx, hbody, rests_step rfl hdrop⟩

/-! ## store methods -/

/-- one store method, by its outcome -/
theorem gated_store {so : StoreOp} {i : Input} {r : Res so.Out}
    (h : gated ok env t op (.store so) i w = some (r, w')) :
    (∃ err, r = .error err ∧ Rests w w') ∨
      ∃ a, r = .ok a ∧ so.run w.store = .ok (a, w'.store) ∧ OnTables w w' := by
  obtain ⟨⟨b, y⟩, hy, hw⟩ := Option.map_eq_some_iff.mp (gated_eq_some.mp h).1
  cases hw
  simp only [exec, Option.some.injEq] at hy
  unfold execStore at hy
  split at hy
  · cases hy
    exact .inl ⟨_, rfl, ⟨rfl, rfl, rfl, [_], rfl⟩, rfl⟩
  · split at hy
    · cases hy
      exact .inl ⟨_, rfl, ⟨rfl, rfl, rfl, [_], rfl⟩, rfl⟩
    · next a s hrun =>
      cases hy
      exact .inr ⟨a, rfl, hrun, rfl, rfl, rfl, [_], rfl⟩

/-- a store method in a section of its own: it is refused, or it is carried out on the tables -/
theorem ran_innerWrite {so : StoreOp} {r : Res so.Out}
    (h : Ran (gated ok env t op) (Coordinator.withInner (Coordinator.store so)).run w r w') :
    (∃ err, r = .error err ∧ Rests w w') ∨
      ∃ a s s', r = .ok a ∧ s.data = w.store.data ∧ so.run s = .ok (a, s') ∧
        s'.data = w'.store.data ∧ OnTables w w' := by
  rcases ran_withInner h with ⟨err, rfl, hs, -⟩ | ⟨w₁, w₂, hs, hx, hs'⟩
  · exact .inl ⟨err, rfl, hs.toRests⟩
  obtain ⟨i, he⟩ := ran_storeCall hx
  rcases gated_store he with ⟨err, rfl, hrest⟩ | ⟨a, rfl, hrun, hon⟩
  · exact .inl ⟨err, rfl, hs.toRests.trans (hrest.trans hs'.toRests)⟩
  · exact .inr ⟨a, w₁.store, w₂.store, rfl, hs.data, hrun, hs'.data.symm,
      hs.toOnTables.trans (hon.trans hs'.toOnTables)⟩

/-- a store method that answers, in a section of its own -/
theorem ran_innerRead {so : StoreOp} {r : Res so.Out} (hc : so.query = true)
    (h : Ran (gated ok env t op) (Coordinator.inner so).run w r w') :
    Resting w w' ∧ ∀ a, r = .ok a → ∃ s s', s.data = w.store.data ∧ so.run s = .ok (a, s') := by
  refine ⟨rests (restful_inner hc) h, ?_⟩
  rintro a rfl
  rcases ran_innerWrite h with ⟨_, hno, -⟩ | ⟨b, s, s', hb, hs, hrun, -, -⟩
  · cases hno
  · cases hb
    exact ⟨s, s', hs, hrun⟩

/-- `map_err` runs the call -/
theorem ran_mapErr {g : ReclaimError → ReclaimError} {x : M α}
    (h : Ran (gated ok env t op) (Coordinator.mapErr g x).run w r w') :
    ∃ o, Ran (gated ok env t op) x.run w o w' ∧ ∀ a, r = .ok a ↔ o = .ok a := by
  obtain ⟨o, w₁, hx, hrest⟩ := ran_attempt_seq h
  cases o with
  | ok a =>
    obtain ⟨rfl, rfl⟩ := ran_pure.mp hrest
    exact ⟨_, hx, fun _ => Iff.rfl⟩
  | error e =>
    obtain ⟨rfl, rfl⟩ := ran_throw hrest
    refine ⟨_, hx, fun a => ?_⟩
    constructor <;> exact nofun

end

end ReclaimFabric
