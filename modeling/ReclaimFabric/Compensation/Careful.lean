import ReclaimFabric.Compensation.Single

/-!
# Runs whose writes can be taken back

A failed registration takes back what it has stored.  It can do so when what it issues to take it
back succeeds, and every write is one that can be taken back.

* `takesBack`            what is issued to take something back succeeds;
* `harmless`, `careful`  and every write is harmless;
* `watched`              either of the two gates;
* `Tells`                a condition that says when what has run is careful;
* `Inert`              programs that write nothing, and read nothing back;
* `Staging`              something has been stored since the operation started;
* `Backed`               the calls on a backend get through to it;
* `deletePayload_done`   a compensating delete;
* `writePayloadTo_outcome`   a payload is written, or it is as it was before.
-/

set_option linter.unusedSectionVars false

namespace ReclaimFabric

open Prog (Ran Only attempt settle)

/-! ## the gate -/

/-- the step stores something that a failure has to take back -/
def Event.stages : Event → Bool
  | .call _ _ (.put _ _ _) (.ok _) _ => true
  | .call _ _ (.node _ _ _ (.store _ _)) (.ok _) _ => true
  | .call _ _ (.store (.dedupAcquire _ _)) (.ok _) _ => true
  | _ => false

/-- something has been stored since the record had `n` entries -/
def Traced.staged (n : Nat) (w : Traced) : Bool :=
  (w.log.take (w.log.length - n)).any Event.stages

/-- what was under the key before the last step, when that step has put a payload there -/
def Traced.justPut (b k : String) (w : Traced) : Option (Option Bytes) :=
  match w.log.head? with
  | some (.call _ _ (.put b' k' _) (.ok _) v) =>
    if b' = b ∧ k' = k then some (v.payloads b k) else none
  | _ => none

/-- what is issued to take something back succeeds: it is let through and it is done -/
def takesBack (n : Nat) : Gate
  | .delete _ _, _, _, .error _ => false
  | .node _ _ _ .delete, _, _, .error _ => false
  | .node _ _ _ .delete, i, _, .ok reply => reply.ok && i.nodeReply.isNone
  | .store (.deleteReplica _), _, _, .error _ => false
  | .store (.dedupRelease _ _), _, _, .error _ => false
  | .store (.coordinatorHeartbeat _ _ _ _), _, w, .error _ => !w.staged n
  | .loadAuthorityLost, _, w, true => !w.staged n
  | .loadShutdown, _, w, true => !w.staged n
  | .pollPayloads _, _, w, false => !w.staged n
  | _, _, _, _ => true

/-- a write that fails has stored nothing, one that cannot be read back has put back what was
there, and every other write has found nothing under its key -/
def harmless : Gate
  | .put _ _ _, i, _, .error _ => !i.applied
  | .put b k d, _, w, .ok size => decide (size = d.length) || (w.payloads b k).isNone
  | .node _ _ _ (.store _ _), i, _, .error _ => !i.applied
  | .node _ b k (.store _ _), _, w, .ok _ => (w.payloads b k).isNone
  | .get b k, _, w, .error _ => (w.justPut b k).all fun before => decide (before = w.payloads b k)
  | .get b k, _, w, .ok _ => (w.justPut b k).all Option.isNone
  | _, _, _, _ => true

/-- what has to be taken back can be, and every write is harmless -/
def careful (n : Nat) : Gate := fun x i w r => takesBack n x i w r && harmless x i w r

/-- the careful gate when the flag is set, and the other when it is not -/
def watched (strict : Bool) (n : Nat) : Gate :=
  fun x i w r => takesBack n x i w r && (!strict || harmless x i w r)

theorem watched_true (n : Nat) : watched true n = careful n := by
  funext x i w r
  rfl

theorem watched_false (n : Nat) : watched false n = takesBack n := by
  funext x i w r
  exact Bool.and_true _

/-- `P` holds in careful runs, and where it holds the run is careful -/
structure Tells (strict : Bool) (P Q : Prop) : Prop where
  holds : strict = true → P
  careful : P → Q

theorem Tells.of {strict : Bool} {P Q : Prop} (hP : P) (hQ : Q) : Tells strict P Q :=
  ⟨fun _ => hP, fun _ => hQ⟩

theorem Tells.imp {strict : Bool} {P Q Q' : Prop} (h : Tells strict P Q) (hQ : Q → Q') :
    Tells strict P Q' := ⟨h.holds, fun hP => hQ (h.careful hP)⟩

theorem Tells.iff {strict : Bool} {P P' Q : Prop} (h : Tells strict P Q) (hP : P' ↔ P) :
    Tells strict P' Q := ⟨fun hs => hP.mpr (h.holds hs), fun hP' => h.careful (hP.mp hP')⟩

/-- the commands that write no payload, and read none back -/
def Cmd.inert : Cmd → Bool
  | .put _ _ _ => false
  | .get _ _ => false
  | .node _ _ _ (.store _ _) => false
  | _ => true

theorem Cmd.inert_of_sectional {x : Cmd} (h : x.sectional = true) : x.inert = true := by
  cases x with
  | put | get | node => cases h
  | _ => rfl

theorem harmless_inert {x : Cmd} (h : x.inert = true) (i : Input) (w : Traced) (r : x.Reply) :
    harmless x i w r = true := by
  cases x with
  | put b k d => cases h
  | get b k => cases h
  | node nid b k nop =>
    cases nop with
    | store d g => cases h
    | read => rfl
    | exists_ => rfl
    | delete => rfl
  | _ => rfl

section
variable {strict : Bool} {n : Nat} {env : Env} {t : Tid} {op : Op} {w w₁ w' : Traced} {ok : Gate}
  {b k : String} {x : Cmd} {i : Input} {a : x.Reply}

theorem watched_takesBack (h : gated (watched strict n) env t op x i w = some (a, w')) :
    takesBack n x i w a = true := (Bool.and_eq_true_iff.mp (gated_eq_some.mp h).2).1

theorem watched_harmless (hs : strict = true)
    (h : gated (watched strict n) env t op x i w = some (a, w')) : harmless x i w a = true := by
  have h := (Bool.and_eq_true_iff.mp (gated_eq_some.mp h).2).2
  rw [hs] at h
  exact h

/-- a harmless step is a careful one -/
theorem watched_careful (h : gated (watched strict n) env t op x i w = some (a, w'))
    (hh : harmless x i w a = true) : gated (careful n) env t op x i w = some (a, w') :=
  gated_eq_some.mpr ⟨(gated_eq_some.mp h).1,
    Bool.and_eq_true_iff.mpr ⟨watched_takesBack h, hh⟩⟩

theorem takesBack_of_careful {α : Type} {p : M α} {r : Res α}
    (h : Ran (gated (careful n) env t op) p.run w r w') :
    Ran (gated (takesBack n) env t op) p.run w r w' := by
  refine h.mono fun x i v y he => ?_
  obtain ⟨he, hok⟩ := gated_eq_some.mp he
  exact gated_eq_some.mpr ⟨he, (Bool.and_eq_true_iff.mp hok).1⟩

theorem ran_throw_of {α : Type} {exec : (c : Cmd) → Input → Traced → Option (c.Reply × Traced)}
    (e : ReclaimError) : Ran exec (throw e : M α).run w (.error e) w := .ret

/-! ## programs that write nothing -/

/-- every command of the program is inert -/
abbrev Inert {α : Type} (p : M α) : Prop := Only (fun x => Cmd.inert x = true) p.run

theorem Inert.careful {α : Type} {p : M α} {r : Res α} (hp : Inert p)
    (h : Ran (gated (watched strict n) env t op) p.run w r w') :
    Ran (gated (careful n) env t op) p.run w r w' :=
  hp.rerun (fun _ _ _ _ hc he => watched_careful he (harmless_inert hc _ _ _)) h

theorem inert_ask (hx : x.inert = true) : Inert (Coordinator.ask x) :=
  .call hx fun _ => .ret _

theorem inert_store (so : StoreOp) : Inert (Coordinator.store so) := .call rfl fun _ => .ret _

theorem inert_withInner {α : Type} {f : M α} (hf : Inert f) : Inert (Coordinator.withInner f) :=
  only_section (fun _ hc => Cmd.inert_of_sectional hc) hf

theorem inert_config : Inert Coordinator.config :=
  only_bind (inert_ask rfl) fun _ => only_pure

theorem inert_configured {α : Type} (f : Config → Res α) : Inert (Coordinator.withInner do
    let c ← Coordinator.config
    settle (f c)) :=
  inert_withInner (only_bind inert_config fun _ => only_settle)

theorem inert_nodeOperation {nid b k : String} {nop : NodeOp}
    (hn : (Cmd.node nid b k nop).inert = true) :
    Inert (Coordinator.nodeOperation nid b k nop) := by
  refine only_bind (inert_withInner (only_bind inert_config fun c => ?_)) fun _ => ?_
  · exact only_ite only_pure only_throw
  · exact .call hn fun _ => .ret _

theorem inert_deletePayload (b k : String) : Inert (Coordinator.deletePayload b k) := by
  refine only_bind (inert_configured _) fun nid => ?_
  cases nid with
  | none => exact only_bind (inert_configured _) fun _ => .call rfl fun _ => .ret _
  | some nid => exact only_bind (inert_nodeOperation rfl) fun reply => only_ite only_throw only_pure

theorem inert_mapErr {α : Type} {g : ReclaimError → ReclaimError} {p : M α} (hp : Inert p) :
    Inert (Coordinator.mapErr g p) := by
  refine only_bind (only_attempt hp) fun o => ?_
  cases o with
  | ok _ => exact only_pure
  | error _ => exact only_throw

theorem inert_pollRound (keys : List (String × ContentHash)) :
    Inert (Coordinator.pollRound keys) := by
  refine only_bind (inert_ask rfl) fun down => only_ite (only_bind only_throw fun _ => ?_) ?_
  all_goals
    refine only_bind (inert_ask rfl) fun lost => only_ite (only_bind only_throw fun _ => ?_) ?_
    all_goals exact inert_ask rfl

theorem inert_beginPayloadOperations (keys : List (String × ContentHash)) :
    Inert (Coordinator.beginPayloadOperations keys) := by
  refine only_bind (inert_ask rfl) fun m => ?_
  have hloop (keys : List (String × ContentHash)) : Inert (Coordinator.pollLoop keys m) := by
    induction m with
    | zero =>
      refine only_bind (inert_pollRound keys) fun b => only_ite only_pure ?_
      exact only_bind (inert_ask rfl) fun _ => only_throw
    | succ m ih => exact only_bind (inert_pollRound keys) fun b => only_ite only_pure ih
  exact hloop _

/-! ## something has been stored -/

/-- something has been stored -/
structure Staging (n : Nat) (w : Traced) : Prop where
  length : n ≤ w.log.length
  staged : w.staged n = true

theorem Staging.later (h : Staging n w) (hlog : ∃ l, w'.log = l ++ w.log) : Staging n w' := by
  obtain ⟨l, hl⟩ := hlog
  have hn := h.length
  have hlen : (l ++ w.log).length - n = l.length + (w.log.length - n) := by
    rw [List.length_append]
    omega
  refine ⟨by rw [hl, List.length_append]; omega, ?_⟩
  rw [Traced.staged, hl, hlen, List.take_length_add_append, List.any_append]
  exact Bool.or_eq_true_iff.mpr (.inr h.staged)

/-- a step that stores something -/
theorem Staging.of_step {c : Cmd} {i : Input} {r : c.Reply} (hn : n ≤ w.log.length)
    (h : gated ok env t op c i w = some (r, w'))
    (hs : (Event.call t op c r w.toWorld).stages = true) : Staging n w' := by
  refine ⟨gated_length hn h, ?_⟩
  have hlen : w'.log.length - n = w.log.length - n + 1 := by
    rw [gated_log h, List.length_cons]
    omega
  rw [Traced.staged, hlen, gated_log h, List.take_succ_cons, List.any_cons, hs]
  rfl

/-- from then on the sections are entered -/
theorem Staging.assured (h : Staging n w) : Assured (watched strict n) w := by
  intro w₁ hlog
  have hs := (h.later hlog).staged
  refine ⟨fun i => ?_, fun p b e m i err => ?_⟩
  · show (!w₁.staged n && _) = false
    rw [hs]
    rfl
  · show (!w₁.staged n && _) = false
    rw [hs]
    rfl

/-- the payload guard is granted -/
theorem watched_begin {keys : List (String × ContentHash)} {r : Res Unit} (hs : Staging n w)
    (h : Ran (gated (watched strict n) env t op) (Coordinator.beginPayloadOperations keys).run w r w') :
    r = .ok () := by
  obtain ⟨_, m, w₁, hask, h⟩ := ran_ask_seq h
  have hs₁ := hs.later (rests_step rfl hask).log
  have hround {x : Res Bool} {w₂ : Traced} (hx : Ran (gated (watched strict n) env t op)
      (Coordinator.pollRound (Coordinator.sortKeys keys)).run w₁ x w₂) : x = .ok true := by
    obtain ⟨_, down, w₃, hdown, hx⟩ := ran_ask_seq hx
    have hdown' := watched_takesBack hdown
    cases down with
    | true =>
      have hno : (!w₁.staged n) = true := hdown'
      rw [hs₁.staged] at hno
      cases hno
    | false =>
      have hs₃ := hs₁.later (rests_step rfl hdown).log
      obtain ⟨_, lost, w₄, hlost, hx⟩ := ran_ask_seq hx
      have hlost' := watched_takesBack hlost
      cases lost with
      | true =>
        have hno : (!w₃.staged n) = true := hlost'
        rw [hs₃.staged] at hno
        cases hno
      | false =>
        have hs₄ := hs₃.later (rests_step rfl hlost).log
        obtain ⟨i, granted, hpoll, rfl⟩ := ran_ask hx
        cases granted with
        | true => rfl
        | false =>
          have hno : (!w₄.staged n) = true := watched_takesBack hpoll
          rw [hs₄.staged] at hno
          cases hno
  cases m with
  | zero =>
    rcases ran_seq.mp h with ⟨_, -, hx⟩ | ⟨granted, w₂, hx, hlast⟩
    · cases hround hx
    · cases hround hx
      exact (ran_pure.mp hlast).1
  | succ m =>
    rcases ran_seq.mp h with ⟨_, -, hx⟩ | ⟨granted, w₂, hx, hlast⟩
    · cases hround hx
    · cases hround hx
      exact (ran_pure.mp hlast).1

/-! ## backends -/

/-- the calls on the backend get through to it -/
def Backed (c : Config) (b : String) : Prop :=
  (∃ i, Coordinator.nodeForBackendLocked c b = .ok none ∧ c.backend b = .ok i) ∨
    ∃ nid, Coordinator.nodeForBackendLocked c b = .ok (some nid) ∧
      c.nodes.any (fun n => decide (n.nodeId = nid)) = true

/-- the check of `nodeOperation` -/
theorem ran_nodeKnown {nid : String} {r : Res Unit} (h : Ran (gated ok env t op)
      (Coordinator.withInner do
        let c ← Coordinator.config
        if c.nodes.any (fun n => decide (n.nodeId = nid)) then
          pure ()
        else throw (.notFound ("node " ++ nid))).run w r w') :
    Resting w w' ∧
      (r = .ok () → w.proc.config.nodes.any (fun n => decide (n.nodeId = nid)) = true) ∧
      (Assured ok w → w.proc.config.nodes.any (fun n => decide (n.nodeId = nid)) = true →
        r = .ok ()) := by
  rcases ran_withInner h with ⟨e, rfl, hs, hno⟩ | ⟨w₁, w₂, hs, hbody, hs'⟩
  · exact ⟨hs, nofun, fun hsure => absurd hsure hno⟩
  rcases ran_seq.mp hbody with ⟨_, -, hx⟩ | ⟨c, w₃, hx, hlast⟩
  · cases (ran_config hx).1
  obtain ⟨hc, hs₃⟩ := ran_config hx
  cases hc
  rw [hs.config] at hlast
  have hrest : Resting w₁ w₃ → w₂ = w₃ → Resting w w' := by
    rintro hs₃ rfl
    exact hs.trans (hs₃.trans hs')
  by_cases hany : w.proc.config.nodes.any (fun n => decide (n.nodeId = nid)) = true
  · rw [if_pos hany] at hlast
    obtain ⟨rfl, hw⟩ := ran_pure.mp hlast
    exact ⟨hrest hs₃ hw, fun _ => hany, fun _ _ => rfl⟩
  · rw [if_neg hany] at hlast
    obtain ⟨rfl, hw⟩ := ran_throw hlast
    exact ⟨hrest hs₃ hw, nofun, fun _ hyes => absurd hyes hany⟩

/-! ## refused writes -/

theorem World.setPayload_same {v : World} {d : Option Bytes} (h : d = v.payloads b k) :
    v.setPayload b k d = v := by
  have hpayloads : (fun b' k' => if b' = b ∧ k' = k then d else v.payloads b' k') = v.payloads := by
    funext b' k'
    by_cases hk : b' = b ∧ k' = k
    · rw [if_pos hk, h, hk.1, hk.2]
    · rw [if_neg hk]
  unfold World.setPayload
  rw [hpayloads]

/-- a refused write that was not carried out changes nothing, and one that has left the payload as
it was might as well not have been carried out -/
structure Refusal (env : Env) (t : Tid) (b k : String) (x : Cmd) (i : Input) (a : x.Reply)
    (v y : World) : Prop where
  unapplied : i.applied = false → y = v
  same : y.payloads b k = v.payloads b k → exec env t x { i with applied := false } v = some (a, y)

theorem exec_put_refused {d : Bytes} {v y : World} {e : ReclaimError}
    (h : exec env t (.put b k d) i v = some (.error e, y)) :
    Refusal env t b k (.put b k d) i (.error e) v y := by
  simp only [exec, Option.some.injEq, execPut] at h
  cases hb : v.proc.config.backend b with
  | error err =>
    simp only [hb, onBackend] at h
    cases h
    exact ⟨fun _ => rfl, fun _ => by simp only [exec, execPut, hb, onBackend]⟩
  | ok info =>
    cases hk : info.accepts k with
    | error err =>
      simp only [hb, onBackend, hk] at h
      cases h
      exact ⟨fun _ => rfl, fun _ => by simp only [exec, execPut, hb, onBackend, hk]⟩
    | ok _ =>
      cases hf : i.fault with
      | none =>
        simp only [hb, onBackend, hk, hf] at h
        cases h
      | some err =>
        simp only [hb, onBackend, hk, hf] at h
        cases h
        refine ⟨fun hi => by rw [hi]; rfl, fun hsame => ?_⟩
        simp only [exec, execPut, hb, onBackend, hk, hf]
        cases hi : i.applied with
        | false => rfl
        | true =>
          rw [hi] at hsame
          have hkept := World.setPayload_same (v := v) ((if_pos ⟨rfl, rfl⟩).symm.trans hsame)
          exact congrArg (fun z => some (_, z)) hkept.symm

theorem exec_node_refused {nid : String} {nop : NodeOp} {v y : World} {e : ReclaimError}
    (h : exec env t (.node nid b k nop) i v = some (.error e, y)) :
    Refusal env t b k (.node nid b k nop) i (.error e) v y := by
  simp only [exec, Option.some.injEq, execNode] at h
  cases hf : i.fault with
  | none =>
    simp only [hf] at h
    cases h
  | some err =>
    simp only [hf] at h
    cases h
    refine ⟨fun hi => by rw [hi]; rfl, fun hsame => ?_⟩
    simp only [exec, execNode, hf]
    cases hi : i.applied with
    | false => rfl
    | true =>
      rw [hi] at hsame
      have hkept : (executeOperation env (v.proc.config.nodeBackend nid b) b k v nop).2 = v := by
        rcases executeOperation_cases env (v.proc.config.nodeBackend nid b) b k v nop with hv | ⟨d, hv⟩
        · exact hv
        · rw [hv]
          refine World.setPayload_same ?_
          rw [if_pos rfl, hv] at hsame
          exact (if_pos ⟨rfl, rfl⟩).symm.trans hsame
      exact congrArg (fun z => some (_, z)) hkept.symm

/-- a refused write is harmless just when it has left the payload as it was -/
theorem refused_outcome (hx : x.onPayload b k = true) (htakes : ∀ i, takesBack n x i w a = true)
    (hharm : ∀ i, harmless x i w a = !i.applied)
    (herr : ∀ y, exec env t x i w.toWorld = some (a, y) → Refusal env t b k x i a w.toWorld y)
    (h : gated (watched strict n) env t op x i w = some (a, w')) :
    OnPayload b k w w' ∧ Tells strict (w'.payloads b k = w.payloads b k)
      (∃ i', gated (careful n) env t op x i' w = some (a, w')) := by
  refine ⟨onPayload_step (.inr hx) h, ?_⟩
  obtain ⟨⟨r, y⟩, hy, hw⟩ := Option.map_eq_some_iff.mp (gated_eq_some.mp h).1
  cases hw
  have hrefusal := herr y hy
  refine ⟨fun hs => ?_, fun hsame => ⟨{ i with applied := false }, ?_⟩⟩
  · have hno : (!i.applied) = true := by
      rw [← hharm i]
      exact watched_harmless hs h
    rw [show y = w.toWorld from hrefusal.unapplied (by simpa using hno)]
  · refine gated_eq_some.mpr ⟨?_, Bool.and_eq_true_iff.mpr ⟨htakes _, hharm _⟩⟩
    exact Option.map_eq_some_iff.mpr ⟨_, hrefusal.same hsame, rfl⟩

/-! ## deleting a payload -/

/-- the payload is gone, and nothing else has changed -/
structure Deleted (b k : String) (w w' : Traced) : Prop extends OnPayload b k w w' where
  gone : w'.payloads b k = none

/-- **a compensating delete** -/
theorem deletePayload_done {r : Res Unit} (hs : Staging n w) (hb : Backed w.proc.config b)
    (h : Ran (gated (watched strict n) env t op) (Coordinator.deletePayload b k).run w r w') :
    r = .ok () ∧ Deleted b k w w' := by
  have hnode {x : Res (Option String)} {w₁ : Traced} (hx : Ran (gated (watched strict n) env t op)
      (Coordinator.nodeForBackend b).run w x w₁) :
      x = Coordinator.nodeForBackendLocked w.proc.config b ∧ Resting w w₁ := by
    obtain ⟨hrest, ⟨-, hno⟩ | hx⟩ := ran_configured hx
    · exact absurd hs.assured hno
    · exact ⟨hx, hrest⟩
  rcases ran_seq.mp h with ⟨e, -, hx⟩ | ⟨x, w₁, hx, h₁⟩
  · obtain ⟨hx, -⟩ := hnode hx
    rcases hb with ⟨_, hb, -⟩ | ⟨_, hb, -⟩
    · rw [hb] at hx
      cases hx
    · rw [hb] at hx
      cases hx
  obtain ⟨hx, hrest⟩ := hnode hx
  have hs₁ := hs.later hrest.log
  rcases hb with ⟨info, hb, hinfo⟩ | ⟨nid, hb, hknown⟩
  · rw [hb] at hx
    cases hx
    have hlook {y : Res BackendInfo} {w₂ : Traced} (hy : Ran (gated (watched strict n) env t op)
        (Coordinator.lookupBackend b).run w₁ y w₂) : y = .ok info ∧ Resting w₁ w₂ := by
      obtain ⟨hrest₂, ⟨-, hno⟩ | hy⟩ := ran_configured hy
      · exact absurd hs₁.assured hno
      · rw [hrest.config, hinfo] at hy
        exact ⟨hy, hrest₂⟩
    rcases ran_seq.mp h₁ with ⟨_, -, hy⟩ | ⟨_, w₂, hy, h₂⟩
    · have hno := (hlook hy).1
      cases hno
    obtain ⟨-, hrest₂⟩ := hlook hy
    obtain ⟨i, _, he, rfl⟩ := ran_call (c := .delete b k) (k := fun r => r) h₂
    cases r with
    | error e => cases watched_takesBack he
    | ok _ =>
      have hstep := onPayload_step (b := b) (k := k) (.inr (by simp [Cmd.onPayload])) he
      refine ⟨rfl, (hrest.trans hrest₂).toRests.onPayload.trans hstep, ?_⟩
      obtain ⟨⟨x, y⟩, hy, hw⟩ := Option.map_eq_some_iff.mp (gated_eq_some.mp he).1
      cases hw
      cases exec_delete_ok hy
      exact if_pos ⟨rfl, rfl⟩
  · rw [hb] at hx
    cases hx
    have hcall {y : Res NodeReply} {w₂ : Traced} (hy : Ran (gated (watched strict n) env t op)
        (Coordinator.nodeOperation nid b k .delete).run w₁ y w₂) :
        ∃ reply, y = .ok reply ∧ reply.ok = true ∧ Deleted b k w₁ w₂ := by
      have hknown₁ : w₁.proc.config.nodes.any (fun n => decide (n.nodeId = nid)) = true := by
        rw [hrest.config]
        exact hknown
      rcases ran_seq.mp hy with ⟨_, -, hz⟩ | ⟨_, w₃, hz, h₃⟩
      · have hno := (ran_nodeKnown hz).2.2 hs₁.assured hknown₁
        cases hno
      have hrest₃ := (ran_nodeKnown hz).1
      obtain ⟨i, _, he, rfl⟩ := ran_call (c := .node nid b k .delete) (k := fun r => r) h₃
      cases y with
      | error e => cases watched_takesBack he
      | ok reply =>
        have hok : (reply.ok && i.nodeReply.isNone) = true := watched_takesBack he
        obtain ⟨hok, htrue⟩ := Bool.and_eq_true_iff.mp hok
        have hstep := onPayload_step (b := b) (k := k) (.inr (by simp [Cmd.onPayload])) he
        refine ⟨reply, rfl, hok, hrest₃.toRests.onPayload.trans hstep, ?_⟩
        obtain ⟨⟨x, v⟩, hv, hw⟩ := Option.map_eq_some_iff.mp (gated_eq_some.mp he).1
        cases hw
        cases exec_nodeDelete_ok hv hok (Option.isNone_iff_eq_none.mp htrue)
        exact if_pos ⟨rfl, rfl⟩
    rcases ran_seq.mp h₁ with ⟨_, -, hy⟩ | ⟨reply, w₂, hy, h₂⟩
    · obtain ⟨_, hno, -⟩ := hcall hy
      cases hno
    obtain ⟨_, hreply, hok, hgone⟩ := hcall hy
    cases hreply
    rw [hok] at h₂
    obtain ⟨rfl, rfl⟩ := ran_pure.mp h₂
    exact ⟨rfl, hrest.toRests.onPayload.trans hgone.toOnPayload, hgone.gone⟩

/-! ## writing a payload -/

/-- a write of one payload is refused, or made; `Q` says that the run is careful -/
inductive Wrote (strict : Bool) (n : Nat) (b k : String) (refused made Q : Prop) (w w' : Traced) :
    Prop
  | refused (hr : refused) (hon : OnPayload b k w w')
      (ht : Tells strict (w'.payloads b k = w.payloads b k) Q)
  | made (hr : made) (hon : OnPayload b k w w') (hs : Staging n w')
      (ht : Tells strict (w.payloads b k = none) Q)

/-- the same from an earlier state of rest -/
theorem Wrote.of_rests {refused refused' made made' Q Q' : Prop}
    (h : Wrote strict n b k refused made Q w₁ w') (hs : Rests w w₁) (hrefused : refused → refused')
    (hmade : made → made') (hQ : Q → Q') : Wrote strict n b k refused' made' Q' w w' := by
  cases h with
  | refused hr hon ht =>
    refine .refused (hrefused hr) (hs.onPayload.trans hon) ((ht.imp hQ).iff ?_)
    rw [hs.payloads]
  | made hr hon hst ht =>
    refine .made (hmade hr) (hs.onPayload.trans hon) hst ((ht.imp hQ).iff ?_)
    rw [hs.payloads]

theorem Wrote.unwritten {refused made Q : Prop} (hr : refused) (hs : Rests w w') (hQ : Q) :
    Wrote strict n b k refused made Q w w' :=
  .refused hr hs.onPayload (.of (by rw [hs.payloads]) hQ)

/-- the write and the read-back on a backend of this process -/
theorem put_outcome {data : Bytes} {g : ContentHash} {e' : Nat → ReclaimError} {r : Res (Res Unit)}
    (hn : n ≤ w.log.length) (h : Ran (gated (watched strict n) env t op) (do
      let size ← Coordinator.put b k data
      if size ≠ data.length then
        pure (.error (e' size))
      else
        let stored ← Coordinator.get b k
        pure (env.verifySha256 stored g) : M (Res Unit)).run w r w') :
    Wrote strict n b k (∃ e, r = .error e) (∃ x, r = .ok x) (Ran (gated (careful n) env t op) (do
      let size ← Coordinator.put b k data
      if size ≠ data.length then
        pure (.error (e' size))
      else
        let stored ← Coordinator.get b k
        pure (env.verifySha256 stored g) : M (Res Unit)).run w r w') w w' := by
  rcases ran_seq.mp h with ⟨e, rfl, hput⟩ | ⟨size, w₁, hput, h₁⟩
  · obtain ⟨i, a, he, ha⟩ := ran_call (c := .put b k data) (k := fun r => r) hput
    subst ha
    obtain ⟨hon, ht⟩ := refused_outcome (x := .put b k data) (by simp [Cmd.onPayload])
      (fun _ => rfl) (fun _ => rfl) (fun _ hy => exec_put_refused hy) he
    refine .refused ⟨e, rfl⟩ hon (ht.imp ?_)
    rintro ⟨i', he'⟩
    exact ran_seq.mpr (.inl ⟨e, rfl, .call he' .ret⟩)
  obtain ⟨i, a, he, ha⟩ := ran_call (c := .put b k data) (k := fun r => r) hput
  subst ha
  have hon := onPayload_step (b := b) (k := k) (.inr (by simp [Cmd.onPayload])) he
  have hs : Staging n w₁ := .of_step hn he rfl
  have hjust : w₁.justPut b k = some (w.payloads b k) := by
    rw [Traced.justPut, gated_log he]
    simp
  have hharmless : harmless (.put b k data) i w (.ok size) =
      (decide (size = data.length) || (w.payloads b k).isNone) := rfl
  by_cases hsize : size ≠ data.length
  · rw [if_pos hsize] at h₁
    obtain ⟨rfl, rfl⟩ := ran_pure.mp h₁
    rw [decide_eq_false hsize, Bool.false_or] at hharmless
    refine .made ⟨_, rfl⟩ hon hs ⟨fun hstrict => ?_, fun hfree => ?_⟩
    · exact Option.isNone_iff_eq_none.mp (hharmless ▸ watched_harmless hstrict he)
    · rw [hfree] at hharmless
      refine ran_seq.mpr (.inr ⟨size, w', .call (watched_careful he hharmless) .ret, ?_⟩)
      rw [if_pos hsize]
      exact ran_pure.mpr ⟨rfl, rfl⟩
  · rw [if_neg hsize] at h₁
    rw [decide_eq_true (Decidable.not_not.mp hsize), Bool.true_or] at hharmless
    have hrest (h₁ : Ran (gated (careful n) env t op) (do
          let stored ← Coordinator.get b k
          pure (env.verifySha256 stored g) : M (Res Unit)).run w₁ r w') :
        Ran (gated (careful n) env t op) (do
          let size ← Coordinator.put b k data
          if size ≠ data.length then
            pure (.error (e' size))
          else
            let stored ← Coordinator.get b k
            pure (env.verifySha256 stored g) : M (Res Unit)).run w r w' := by
      refine ran_seq.mpr (.inr ⟨size, w₁, .call (watched_careful he hharmless) .ret, ?_⟩)
      rw [if_neg hsize]
      exact h₁
    rcases ran_seq.mp h₁ with ⟨e, rfl, hget⟩ | ⟨stored, w₂, hget, hlast⟩
    · -- what was written cannot be read back
      obtain ⟨i', a', he', ha'⟩ := ran_call (c := .get b k) (k := fun r => r) hget
      subst ha'
      have hread := (rests_step (c := .get b k) rfl he').toRests
      have hharmless' : harmless (.get b k) i' w₁ (.error e) =
          decide (w.payloads b k = w₁.payloads b k) := by
        show (w₁.justPut b k).all _ = _
        rw [hjust]
        rfl
      refine .refused ⟨e, rfl⟩ (hon.trans hread.onPayload) ⟨fun hstrict => ?_, fun hsame => ?_⟩
      · rw [hread.payloads]
        exact (of_decide_eq_true (hharmless' ▸ watched_harmless hstrict he')).symm
      · rw [hread.payloads] at hsame
        rw [decide_eq_true hsame.symm] at hharmless'
        exact hrest (ran_seq.mpr (.inl ⟨e, rfl, .call (watched_careful he' hharmless') .ret⟩))
    · obtain ⟨i', a', he', ha'⟩ := ran_call (c := .get b k) (k := fun r => r) hget
      subst ha'
      have hread := rests_step (c := .get b k) rfl he'
      obtain ⟨rfl, rfl⟩ := ran_pure.mp hlast
      have hharmless' : harmless (.get b k) i' w₁ (.ok stored) = (w.payloads b k).isNone := by
        show (w₁.justPut b k).all _ = _
        rw [hjust]
        rfl
      refine .made ⟨_, rfl⟩ (hon.trans hread.toRests.onPayload) (hs.later hread.log)
        ⟨fun hstrict => ?_, fun hfree => ?_⟩
      · exact Option.isNone_iff_eq_none.mp (hharmless' ▸ watched_harmless hstrict he')
      · rw [hfree] at hharmless'
        exact hrest (ran_seq.mpr (.inr ⟨stored, w', .call (watched_careful he' hharmless') .ret,
          ran_pure.mpr ⟨rfl, rfl⟩⟩))

/-- the write on a node -/
theorem nodeStore_outcome {nid : String} {data : Bytes} {g : ContentHash} {r : Res NodeReply}
    (hn : n ≤ w.log.length) (h : Ran (gated (watched strict n) env t op)
      (Coordinator.nodeOperation nid b k (.store data g)).run w r w') :
    Wrote strict n b k (∃ e, r = .error e)
      ((∃ x, r = .ok x) ∧ w.proc.config.nodes.any (fun n => decide (n.nodeId = nid)) = true)
      (Ran (gated (careful n) env t op)
        (Coordinator.nodeOperation nid b k (.store data g)).run w r w') w w' := by
  have hknown : Inert (Coordinator.withInner do
      let c ← Coordinator.config
      if c.nodes.any (fun n => decide (n.nodeId = nid)) then
        pure ()
      else throw (.notFound ("node " ++ nid))) :=
    inert_withInner (only_bind inert_config fun c => only_ite only_pure only_throw)
  rcases ran_seq.mp h with ⟨e, rfl, hx⟩ | ⟨_, w₁, hx, h₁⟩
  · exact .unwritten ⟨e, rfl⟩ (ran_nodeKnown hx).1.toRests
      (ran_seq.mpr (.inl ⟨e, rfl, hknown.careful hx⟩))
  obtain ⟨hs, hyes, -⟩ := ran_nodeKnown hx
  have hn₁ := hs.toOnTables.length hn
  obtain ⟨i, a, he, ha⟩ := ran_call (c := .node nid b k (.store data g)) (k := fun r => r) h₁
  subst ha
  have hrest (hc : Ran (gated (careful n) env t op)
        (ExceptT.mk (.call (.node nid b k (.store data g)) fun r => .ret r) : M NodeReply).run w₁ r w') :
      Ran (gated (careful n) env t op)
        (Coordinator.nodeOperation nid b k (.store data g)).run w r w' :=
    ran_seq.mpr (.inr ⟨(), w₁, hknown.careful hx, hc⟩)
  cases r with
  | error e =>
    obtain ⟨hon, ht⟩ := refused_outcome (x := .node nid b k (.store data g))
      (by simp [Cmd.onPayload]) (fun _ => rfl) (fun _ => rfl) (fun _ hy => exec_node_refused hy) he
    refine .refused ⟨e, rfl⟩ (hs.toRests.onPayload.trans hon) ((ht.imp ?_).iff ?_)
    · rintro ⟨i', he'⟩
      exact hrest (.call he' .ret)
    · rw [hs.payloads]
  | ok reply =>
    have hon := onPayload_step (b := b) (k := k) (.inr (by simp [Cmd.onPayload])) he
    have hharmless : harmless (.node nid b k (.store data g)) i w₁ (.ok reply) =
        (w.payloads b k).isNone := by
      rw [← hs.payloads]
      rfl
    refine .made ⟨⟨reply, rfl⟩, hyes rfl⟩ (hs.toRests.onPayload.trans hon) (.of_step hn₁ he rfl)
      ⟨fun hstrict => ?_, fun hfree => ?_⟩
    · exact Option.isNone_iff_eq_none.mp (hharmless ▸ watched_harmless hstrict he)
    · rw [hfree] at hharmless
      exact hrest (.call (watched_careful he hharmless) .ret)

/-- the write of `writeResult`: refused, or made -/
theorem writeResult_outcome {data : Bytes} {r : Res (Res Unit)} (hn : n ≤ w.log.length)
    (h : Ran (gated (watched strict n) env t op)
      (Coordinator.writeResult env b k data).run w r w') :
    Wrote strict n b k (∃ e, r = .error e) ((∃ x, r = .ok x) ∧ Backed w.proc.config b)
      (Ran (gated (careful n) env t op) (Coordinator.writeResult env b k data).run w r w') w w' := by
  rcases ran_seq.mp h with ⟨e, rfl, hx⟩ | ⟨x, w₁, hx, h₁⟩
  · exact .unwritten ⟨e, rfl⟩ (ran_configured hx).1.toRests
      (ran_seq.mpr (.inl ⟨e, rfl, (inert_configured _).careful hx⟩))
  obtain ⟨hrest, ⟨⟨_, hno⟩, -⟩ | hnode⟩ := ran_configured hx
  · cases hno
  have hx := (inert_configured _).careful hx
  cases x with
  | none =>
    rcases ran_seq.mp h₁ with ⟨e, rfl, hy⟩ | ⟨info, w₂, hy, h₂⟩
    · exact .unwritten ⟨e, rfl⟩ (hrest.trans (ran_configured hy).1).toRests (ran_seq.mpr
        (.inr ⟨none, w₁, hx, ran_seq.mpr (.inl ⟨e, rfl, (inert_configured _).careful hy⟩)⟩))
    obtain ⟨hrest₂, ⟨⟨_, hno⟩, -⟩ | hinfo⟩ := ran_configured hy
    · cases hno
    have hall := (hrest.trans hrest₂).toRests
    have hbacked : Backed w.proc.config b := by
      rw [hrest.config] at hinfo
      exact .inl ⟨info, hnode.symm, hinfo.symm⟩
    refine (put_outcome (hall.toOnTables.length hn) h₂).of_rests hall (fun hr => hr)
      (fun hr => ⟨hr, hbacked⟩) fun hc => ?_
    exact ran_seq.mpr (.inr ⟨none, w₁, hx,
      ran_seq.mpr (.inr ⟨info, w₂, (inert_configured _).careful hy, hc⟩)⟩)
  | some nid =>
    have hn₁ := hrest.toOnTables.length hn
    rcases ran_seq.mp h₁ with ⟨e, rfl, hy⟩ | ⟨reply, w₂, hy, h₂⟩
    · refine (nodeStore_outcome hn₁ hy).of_rests hrest.toRests (fun _ => ⟨e, rfl⟩) ?_ fun hc => ?_
      · rintro ⟨⟨_, hno⟩, -⟩
        cases hno
      · exact ran_seq.mpr (.inr ⟨some nid, w₁, hx, ran_seq.mpr (.inl ⟨e, rfl, hc⟩)⟩)
    · have hlast := Inert.careful (only_ite only_pure (only_ite only_pure
        (only_ite only_pure only_pure))) h₂
      have hend : (∃ x, r = .ok x) ∧ w' = w₂ := by
        split at h₂
        · obtain ⟨rfl, hw⟩ := ran_pure.mp h₂
          exact ⟨⟨_, rfl⟩, hw⟩
        · split at h₂
          · obtain ⟨rfl, hw⟩ := ran_pure.mp h₂
            exact ⟨⟨_, rfl⟩, hw⟩
          · split at h₂
            · obtain ⟨rfl, hw⟩ := ran_pure.mp h₂
              exact ⟨⟨_, rfl⟩, hw⟩
            · obtain ⟨rfl, hw⟩ := ran_pure.mp h₂
              exact ⟨⟨_, rfl⟩, hw⟩
      obtain ⟨hr, rfl⟩ := hend
      refine (nodeStore_outcome hn₁ hy).of_rests hrest.toRests ?_ ?_ fun hc => ?_
      · rintro ⟨_, hno⟩
        cases hno
      · rintro ⟨-, hknown⟩
        rw [hrest.config] at hknown
        exact ⟨hr, .inr ⟨nid, hnode.symm, hknown⟩⟩
      · exact ran_seq.mpr (.inr ⟨some nid, w₁, hx, ran_seq.mpr (.inr ⟨reply, w', hc, hlast⟩)⟩)

/-- **A payload is written, or it is as before when the run is careful.** -/
theorem writePayloadTo_outcome {data : Bytes} {r : Res Unit} (hn : n ≤ w.log.length)
    (h : Ran (gated (watched strict n) env t op)
      (Coordinator.writePayloadTo env b k data).run w r w') :
    Wrote strict n b k (∃ e, r = .error e) (r = .ok () ∧ Backed w.proc.config b)
      (Ran (gated (careful n) env t op) (Coordinator.writePayloadTo env b k data).run w r w')
      w w' := by
  rcases ran_seq.mp h with ⟨e, rfl, hx⟩ | ⟨x, w₁, hx, h₁⟩
  · refine (writeResult_outcome hn hx).of_rests (.refl w) (fun _ => ⟨e, rfl⟩) ?_ fun hc => ?_
    · rintro ⟨⟨_, hno⟩, -⟩
      cases hno
    · exact ran_seq.mpr (.inl ⟨e, rfl, hc⟩)
  cases writeResult_outcome hn hx with
  | refused hr =>
    obtain ⟨_, hno⟩ := hr
    cases hno
  | made hr hon hs ht =>
    cases x with
    | ok _ =>
      obtain ⟨rfl, rfl⟩ := ran_pure.mp h₁
      exact .made ⟨rfl, hr.2⟩ hon hs
        (ht.imp fun hc => ran_seq.mpr (.inr ⟨_, w', hc, ran_pure.mpr ⟨rfl, rfl⟩⟩))
    | error e =>
      -- the verification has failed, and the payload is deleted
      obtain ⟨o, w₂, hdel, h₂⟩ := ran_attempt_seq h₁
      have hb := hr.2
      rw [← hon.config] at hb
      obtain ⟨rfl, hgone⟩ := deletePayload_done hs hb hdel
      obtain ⟨rfl, rfl⟩ := ran_throw h₂
      have hdel := (inert_deletePayload b k).careful hdel
      refine .refused ⟨e, rfl⟩ (hon.trans hgone.toOnPayload) ((ht.imp fun hc => ?_).iff ?_)
      · exact ran_seq.mpr (.inr ⟨_, w₁, hc, ran_seq.mpr (.inr
          ⟨_, w', ran_attempt.mpr ⟨_, rfl, hdel⟩, ran_throw_of e⟩)⟩)
      · rw [hgone.gone]
        exact eq_comm

end

end ReclaimFabric
