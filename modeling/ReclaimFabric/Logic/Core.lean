import ReclaimFabric.Logic.Command

/-!
# Specifications of the building blocks

One rule for each function of `Coordinator/Core.lean`.  They hold for every party and every firm
assertion; what a write to the store, to a payload or to a guard has to satisfy is a hypothesis.

* `withInner`  the closure is entered with what the authority check has shown;
* `readPayloadWith`, `payloadExists`, `nodeForBackend`  keep every firm assertion;
* `deletePayload`, `writePayloadTo`  need the step on the payload (`Clears`, `Fills`);
* `beginPayloadOperations`, `holding`  need the step on the guard set.
-/

set_option linter.unusedSectionVars false

namespace ReclaimFabric

namespace Party

variable {env : Env} {A : Party env} {α : Type} {l : Bool} {P R : Traced → Prop}
  {Q : α → Traced → Prop} {E : ReclaimError → Traced → Prop}

namespace Triple

/-! ## the coordinator mutex -/

theorem wpE_lock (hP : A.Firm P) {w : Traced} (hw : P w) (hm : A.Mutex false w) :
    wpE A.agent (Coordinator.ask .lock) (fun _ w' => P w' ∧ A.Mutex true w')
      (fun _ _ => False) w := by
  refine wpE_mono (Triple.call (c := .lock) (k := fun r => .ok r) (l := false) true
    (Q := fun _ w => P w) (E := fun _ _ => False) hP ?_ ?_ w hw hm)
    (fun _ _ h => h) (fun _ _ h => h.1)
  · intro w i r x hw hi hm ha he
    simp only [exec] at he
    split at he
    · cases he
      have hq : Quiet w (A.after .lock () w
          (w.toWorld.setProc { w.proc with mutex := some A.tid })) :=
        ⟨still_after rfl rfl rfl id id fun _ => id, rfl⟩
      exact ⟨A.quiet hq, fun _ => rfl, hP.quiet _ _ hq hw⟩
    · cases he
  · intro ht w i _ hm _
    have hnone : w.proc.mutex = none := hm ht
    simp only [exec, hnone]
    exact Option.some_ne_none _

theorem wpE_unlock (hP : A.Firm P) {w : Traced} (hw : P w) (hm : A.Mutex true w) :
    wpE A.agent (Coordinator.ask .unlock) (fun _ w' => P w' ∧ A.Mutex false w')
      (fun _ _ => False) w := by
  refine wpE_mono (Triple.call (c := .unlock) (k := fun r => .ok r) (l := true) false
    (Q := fun _ w => P w) (E := fun _ _ => False) hP ?_ ?_ w hw hm)
    (fun _ _ h => h) (fun _ _ h => h.1)
  · intro w i r x hw hi hm ha he
    cases he
    have hq : Quiet w (A.after .unlock () w (w.toWorld.setProc { w.proc with mutex := none })) :=
      ⟨still_after rfl rfl rfl id id fun _ => id, rfl⟩
    exact ⟨A.quiet hq, fun _ => rfl, hP.quiet _ _ hq hw⟩
  · intro _ w i _ _ _
    exact Option.some_ne_none _

/-- a lookup in the configuration under the mutex -/
theorem lockedConfig {f : Config → M α} (hP : A.Firm P)
    (hf : ∀ c, A.Triple false (fun w => P w ∧ w.proc.config = c) (f c) Q E) :
    A.Triple false P (do
      Coordinator.ask .lock
      let c ← Coordinator.config
      Coordinator.ask .unlock
      f c) Q E := by
  intro w hw hm
  rw [wpE_bind]
  refine wpE_mono (wpE_lock hP hw hm) ?_ (fun _ _ h => h.elim)
  intro _ w₁ h₁
  rw [wpE_bind]
  refine wpE_mono (Triple.config (l := true) (E := fun _ _ => False) hP w₁ h₁.1 h₁.2) ?_
    (fun _ _ h => h.1.elim)
  intro c w₂ h₂
  rw [wpE_bind]
  refine wpE_mono (wpE_unlock (hP.and (A.firm_config c)) h₂.1 h₂.2) ?_ (fun _ _ h => h.elim)
  intro _ w₃ h₃
  exact hf c w₃ h₃.1 h₃.2

/-- a touch of the mutex without an authority check -/
theorem lockUnlock {x : M α} (hP : A.Firm P) (hx : A.Triple false P x Q E) :
    A.Triple false P (do
      Coordinator.ask .lock
      Coordinator.ask .unlock
      x) Q E := by
  intro w hw hm
  rw [wpE_bind]
  refine wpE_mono (wpE_lock hP hw hm) ?_ (fun _ _ h => h.elim)
  intro _ w₁ h₁
  rw [wpE_bind]
  refine wpE_mono (wpE_unlock hP h₁.1 h₁.2) ?_ (fun _ _ h => h.elim)
  intro _ w₂ h₂
  exact hx w₂ h₂.1 h₂.2

/-! ## `with_inner` -/

/-- the rest of a section once the mutex is held -/
theorem wpE_section {f : M α} (hP : A.Firm P) (hR : A.Firm R) (hQ : ∀ a, A.Firm (Q a))
    (hE : ∀ e, A.Firm (E e))
    (hlost : ∀ e w, P w → w.proc.authorityLost = true → E e w)
    (hf : A.Triple true (fun w => P w ∧ R w) f Q E) {w : Traced} (hw : P w ∧ R w)
    (hm : A.Mutex true w) :
    wpE A.agent (do
      let p ← Coordinator.ask .readProc
      let now ← Coordinator.nowMs
      match ← Prog.attempt (Coordinator.store
          (.coordinatorHeartbeat p.1.processId p.2.2 p.2.1 now)) with
      | .error e =>
        Coordinator.ask .setAuthorityLost
        Coordinator.ask .unlock
        MonadExcept.throw e
      | .ok () =>
        let r ← Prog.attempt f
        Coordinator.ask .unlock
        Prog.settle r)
      (fun a w' => Q a w' ∧ A.Mutex false w') (fun e w' => E e w' ∧ A.Mutex false w') w := by
  have hPR := hP.and hR
  rw [wpE_bind]
  refine wpE_mono (Triple.ask (l := true) (E := fun _ _ => False) rfl hPR w hw hm) ?_
    (fun _ _ h => h.1.elim)
  intro p w₁ h₁
  rw [wpE_bind]
  refine wpE_mono (Triple.nowMs (l := true) (E := fun _ _ => False) hPR w₁ h₁.1 h₁.2) ?_
    (fun _ _ h => h.1.elim)
  intro now w₂ h₂
  rw [wpE_bind, wpE_attempt]
  refine wpE_mono (Triple.storeCalm (l := true) rfl hPR w₂ h₂.1 h₂.2) ?_ ?_
  · intro _ w₃ h₃
    show wpE A.agent (Prog.attempt f >>= _) _ _ w₃
    rw [wpE_bind, wpE_attempt]
    refine wpE_mono (hf w₃ h₃.1 h₃.2) ?_ ?_
    · intro a w₄ h₄
      rw [wpE_bind]
      refine wpE_mono (wpE_unlock (hQ a) h₄.1 h₄.2) ?_ (fun _ _ h => h.elim)
      intro _ w₅ h₅
      exact h₅
    · intro e w₄ h₄
      rw [wpE_bind]
      refine wpE_mono (wpE_unlock (hE e) h₄.1 h₄.2) ?_ (fun _ _ h => h.elim)
      intro _ w₅ h₅
      exact h₅
  · intro e w₃ h₃
    show wpE A.agent (Coordinator.ask .setAuthorityLost >>= _) _ _ w₃
    rw [wpE_bind]
    have hset : A.Triple true (fun w => P w ∧ R w) (Coordinator.ask .setAuthorityLost)
        (fun _ w => P w ∧ w.proc.authorityLost = true) (fun _ _ => False) := by
      refine askLook rfl hPR ?_
      intro w i r x _ _ _ he h
      cases he
      exact ⟨h.1, rfl⟩
    refine wpE_mono (hset w₃ h₃.1 h₃.2) ?_ (fun _ _ h => h.1.elim)
    intro _ w₄ h₄
    rw [wpE_bind]
    refine wpE_mono (wpE_unlock (hP.and A.firm_lost) h₄.1 h₄.2) ?_ (fun _ _ h => h.elim)
    intro _ w₅ h₅
    exact ⟨hlost e w₅ h₅.1.1 h₅.1.2, h₅.2⟩

/-- a section that is entered with what the authority check has shown -/
theorem withInner {f : M α} (hP : A.Firm P) (hR : A.Firm R) (hQ : ∀ a, A.Firm (Q a))
    (hE : ∀ e, A.Firm (E e))
    (hcheck : ∀ w, P w → A.inv w → w.proc.authorityLost = false → R w)
    (hlost : ∀ e w, P w → w.proc.authorityLost = true → E e w)
    (hf : A.Triple true (fun w => P w ∧ R w) f Q E) :
    A.Triple false P (Coordinator.withInner f) Q E := by
  have hload : A.Triple false P (Coordinator.ask .loadAuthorityLost)
      (fun b w => P w ∧ (b = true → w.proc.authorityLost = true) ∧ (b = false → R w)) E := by
    refine askLook rfl hP ?_
    intro w i r x hw hi _ he h
    cases he
    exact ⟨h, id, fun hb => hR.quiet _ _ (quiet_after (Calm.refl _)) (hcheck w hw hi hb)⟩
  refine bind hload ?_
  intro b
  refine ite ?_ ?_
  · intro hb
    refine bind (R := fun _ _ => False) (throw ?_) (fun _ _ h => h.elim)
    exact fun w hw => hlost _ w hw.1 (hw.2.1 hb)
  · intro hb w hw hm
    have hb : b = false := by simpa using hb
    show wpE A.agent (Coordinator.ask .lock >>= _) _ _ w
    rw [wpE_bind]
    refine wpE_mono (wpE_lock (hP.and hR) ⟨hw.1, hw.2.2 hb⟩ hm) ?_ (fun _ _ h => h.elim)
    intro _ w₁ h₁
    exact wpE_section hP hR hQ hE hlost hf h₁.1 h₁.2

/-- a section that keeps a firm assertion when it fails -/
theorem section_ {f : M α} (hP : A.Firm P) (hQ : ∀ a, A.Firm (Q a))
    (hf : A.Triple true P f Q (fun _ => P)) :
    A.Triple false P (Coordinator.withInner f) Q (fun _ => P) := by
  refine withInner (R := fun _ => True) hP (Firm.const True) hQ (fun _ => hP)
    (fun _ _ _ _ => trivial) (fun _ _ h _ => h) ?_
  exact hf.pre fun w hw => hw.1

/-- a store method in a section of its own -/
theorem innerAnswer {op : StoreOp} {Q : op.Out → Traced → Prop} (hP : A.Firm P)
    (hR : A.Firm R) (hQf : ∀ r, A.Firm (Q r)) (hcalm : op.calm = true)
    (hcheck : ∀ w, P w → A.inv w → w.proc.authorityLost = false → R w)
    (hQ : ∀ w r s, P w → R w → A.inv w → op.run w.store = .ok (r, s) → Q r w) :
    A.Triple false P (Coordinator.inner op) Q (fun _ => P) := by
  refine withInner hP hR hQf (fun _ => hP) hcheck (fun _ _ h _ => h) ?_
  refine answer (hP.and hR) hQf hcalm ?_ (fun _ _ h => h.1)
  intro w r s hw hi hrun
  exact hQ w r s hw.1 hw.2 hi hrun

theorem innerCalm {op : StoreOp} (hP : A.Firm P) (hcalm : op.calm = true) :
    A.Triple false P (Coordinator.inner op) (fun _ => P) (fun _ => P) :=
  section_ hP (fun _ => hP) (storeCalm hcalm hP)

/-! ## node-hosted and local payloads -/

theorem nodeForBackend (hP : A.Firm P) (b : String) :
    A.Triple false P (Coordinator.nodeForBackend b) (fun _ => P) (fun _ => P) := by
  refine section_ hP (fun _ => hP) ?_
  refine bind ((Triple.config hP).post (fun _ _ h => h) (fun _ _ h => h)) ?_
  intro c
  exact Triple.settle (fun _ _ _ h => h.1) (fun _ _ _ h => h.1)

theorem lookupBackend (hP : A.Firm P) (b : String) :
    A.Triple false P (Coordinator.lookupBackend b) (fun _ => P) (fun _ => P) := by
  refine section_ hP (fun _ => hP) ?_
  refine bind ((Triple.config hP).post (fun _ _ h => h) (fun _ _ h => h)) ?_
  intro c
  exact Triple.settle (fun _ _ _ h => h.1) (fun _ _ _ h => h.1)

/-- the check of a node operation, before the call -/
theorem nodeOperation {n b k : String} {op : NodeOp} {Q : NodeReply → Traced → Prop}
    (hP : A.Firm P) (hE : ∀ e w, P w → E e w)
    (hcall : A.Triple false P
      (ExceptT.mk (.call (.node n b k op) fun r => .ret r) : M NodeReply) Q E) :
    A.Triple false P (Coordinator.nodeOperation n b k op) Q E := by
  refine bind (R := fun _ => P) ?_ (fun _ => hcall)
  refine (section_ (Q := fun _ => P) hP (fun _ => hP) ?_).post (fun _ _ h => h) hE
  refine bind ((Triple.config hP).post (fun _ _ h => h) (fun _ _ h => h)) ?_
  intro c
  refine ite ?_ ?_
  · exact fun _ => Triple.pure fun _ h => h.1
  · exact fun _ => Triple.throw fun _ h => h.1

/-- `read_payload`, with what the two kinds of backend answer -/
theorem readPayloadWith {b k : String} {Q : Bytes → Traced → Prop} (hP : A.Firm P)
    (hQ : ∀ d, A.Firm (Q d))
    (hget : ∀ w i d x, P w → A.inv w → A.allow (.get b k) i w →
      exec env A.tid (.get b k) i w.toWorld = some (.ok d, x) → Q d w)
    (hnode : ∀ n w i r d x, P w → A.inv w → A.allow (.node n b k .read) i w →
      exec env A.tid (.node n b k .read) i w.toWorld = some (.ok r, x) → r.ok = true →
      r.payload = some d → Q d w) :
    A.Triple false P (Coordinator.readPayload b k) Q (fun _ => P) := by
  refine bind (R := fun _ => P) (nodeForBackend hP b) ?_
  intro n
  cases n with
  | none =>
    refine bind (R := fun _ => P) (lookupBackend hP b) ?_
    intro _
    refine look (c := .get b k) (k := fun r => r) rfl hP ?_
    intro w i r x hw hi ha he h
    cases r with
    | error e => exact h
    | ok d =>
      have hq : Quiet w (A.after (.get b k) (.ok d) w x) := quiet_after (exec_calm rfl he)
      exact (hQ d).quiet _ _ hq (hget w i d x hw hi ha he)
  | some n =>
    refine bind (R := fun r w => P w ∧ ∀ d, r.ok = true → r.payload = some d → Q d w) ?_ ?_
    · refine nodeOperation hP (fun _ _ h => h) ?_
      refine look (c := .node n b k .read) (k := fun r => r) rfl hP ?_
      intro w i r x hw hi ha he h
      cases r with
      | error e => exact h
      | ok r =>
        refine ⟨h, ?_⟩
        intro d hok hd
        have hq : Quiet w (A.after (.node n b k .read) (.ok r) w x) :=
          quiet_after (exec_calm rfl he)
        exact (hQ d).quiet _ _ hq (hnode n w i r d x hw hi ha he hok hd)
    · intro r
      refine refuse ?_ ?_
      · exact fun _ w hw => hw.1
      · intro hok
        cases hd : r.payload with
        | none => exact throw fun w hw => hw.1
        | some d => exact Triple.pure fun w hw => hw.2 d (by simpa using hok) rfl

/-- `payload_exists`, with what the two kinds of backend answer -/
theorem payloadExistsWith {b k : String} {Q : Bool → Traced → Prop} (hP : A.Firm P)
    (hex : ∀ w i d x, P w → A.inv w → A.allow (.exists_ b k) i w →
      exec env A.tid (.exists_ b k) i w.toWorld = some (.ok d, x) →
      P (A.after (.exists_ b k) (.ok d) w x) → Q d (A.after (.exists_ b k) (.ok d) w x))
    (hnode : ∀ n w i r x, P w → A.inv w → A.allow (.node n b k .exists_) i w →
      exec env A.tid (.node n b k .exists_) i w.toWorld = some (.ok r, x) → r.ok = true →
      P (A.after (.node n b k .exists_) (.ok r) w x) →
      Q r.existed (A.after (.node n b k .exists_) (.ok r) w x)) :
    A.Triple false P (Coordinator.payloadExists b k) Q (fun _ => P) := by
  refine bind (R := fun _ => P) (nodeForBackend hP b) ?_
  intro n
  cases n with
  | none =>
    refine bind (R := fun _ => P) (lookupBackend hP b) ?_
    intro _
    refine look (c := .exists_ b k) (k := fun r => r) rfl hP ?_
    intro w i r x hw hi ha he h
    cases r with
    | error e => exact h
    | ok d => exact hex w i d x hw hi ha he h
  | some n =>
    refine bind (R := fun r w => P w ∧ (r.ok = true → Q r.existed w)) ?_ ?_
    · refine nodeOperation hP (fun _ _ h => h) ?_
      refine look (c := .node n b k .exists_) (k := fun r => r) rfl hP ?_
      intro w i r x hw hi ha he h
      cases r with
      | error e => exact h
      | ok r => exact ⟨h, fun hok => hnode n w i r x hw hi ha he hok h⟩
    · intro r
      refine refuse ?_ ?_
      · exact fun _ w hw => hw.1
      · exact fun hok => Triple.pure fun w hw => hw.2 (by simpa using hok)

theorem payloadExists (hP : A.Firm P) (b k : String) :
    A.Triple false P (Coordinator.payloadExists b k) (fun _ => P) (fun _ => P) :=
  payloadExistsWith hP (fun _ _ _ _ _ _ _ _ h => h) (fun _ _ _ _ _ _ _ _ _ _ h => h)

/-- `delete_payload`, by what the deletion command does -/
theorem deletePayloadWith {b k : String} {Q : Unit → Traced → Prop} (hP : A.Firm P)
    (hE : ∀ e w, P w → E e w)
    (hdel : ∀ w i r x, P w → A.inv w → A.allow (.delete b k) i w →
      exec env A.tid (.delete b k) i w.toWorld = some (r, x) →
      A.guar w (A.after (.delete b k) r w x) ∧ outcome Q E r (A.after (.delete b k) r w x))
    (hnode : ∀ n w i r x, P w → A.inv w → A.allow (.node n b k .delete) i w →
      exec env A.tid (.node n b k .delete) i w.toWorld = some (r, x) →
      A.guar w (A.after (.node n b k .delete) r w x) ∧
        outcome (fun r w => (r.ok = true → Q () w) ∧ (r.ok = false → ∀ e, E e w)) E r
          (A.after (.node n b k .delete) r w x)) :
    A.Triple false P (Coordinator.deletePayload b k) Q E := by
  refine bind (R := fun _ => P) ((nodeForBackend hP b).post (fun _ _ h => h) hE) ?_
  intro n
  cases n with
  | none =>
    refine bind (R := fun _ => P) ((lookupBackend hP b).post (fun _ _ h => h) hE) ?_
    intro _
    exact physical b k (c := .delete b k) (k := fun r => r) (by simp [Cmd.onPayload]) hP hdel
  | some n =>
    refine bind (nodeOperation hP hE (physical b k (c := .node n b k .delete) (k := fun r => r)
      (by simp [Cmd.onPayload]) hP (hnode n))) ?_
    intro r
    cases hok : r.ok with
    | true => exact Triple.pure fun w hw => hw.1 rfl
    | false => exact throw fun w hw => hw.2 rfl _

end Triple

/-! ## writing and removing one payload -/

/-- the payload at a key may be removed -/
def Clears (A : Party env) (P : Traced → Prop) (b k : String) : Prop :=
  ∀ (c : Cmd) (r : c.Reply) (w : Traced), P w → A.inv w →
    A.guar w (A.after c r w (w.setPayload b k none)) ∧
      P (A.after c r w (w.setPayload b k none))

/-- the payload at a key may be written and removed -/
def Fills (A : Party env) (P : Traced → Prop) (b k : String) : Prop :=
  ∀ (c : Cmd) (r : c.Reply) (w : Traced) (v : Option Bytes), P w → A.inv w →
    A.guar w (A.after c r w (w.setPayload b k v)) ∧ P (A.after c r w (w.setPayload b k v))

theorem Fills.clears {b k : String} (h : A.Fills P b k) : A.Clears P b k :=
  fun c r w => h c r w none

namespace Triple

/-- a command that may remove one payload -/
theorem clear {c : Cmd} {k : c.Reply → Res α} {b key : String} (hc : c.clears b key = true)
    (hP : A.Firm P) (hk : A.Clears P b key) :
    A.Triple l P (ExceptT.mk (.call c fun r => .ret (k r)) : M α) (fun _ => P) (fun _ => P) := by
  refine physical b key (Cmd.onPayload_of_clears hc) hP ?_
  intro w i r x hw hi _ he
  have hstep : A.guar w (A.after c r w x) ∧ P (A.after c r w x) := by
    rcases exec_clears hc he with rfl | rfl
    · have hq : Quiet w (A.after c r w w.toWorld) := quiet_after (Calm.refl _)
      exact ⟨A.quiet hq, hP.quiet _ _ hq hw⟩
    · exact hk c r w hw hi
  refine ⟨hstep.1, ?_⟩
  cases k r with
  | ok a => exact hstep.2
  | error e => exact hstep.2

/-- a command that may write or remove one payload -/
theorem fill {c : Cmd} {k : c.Reply → Res α} {b key : String} (hc : c.onPayload b key = true)
    (hP : A.Firm P) (hk : A.Fills P b key) :
    A.Triple l P (ExceptT.mk (.call c fun r => .ret (k r)) : M α) (fun _ => P) (fun _ => P) := by
  refine physical b key hc hP ?_
  intro w i r x hw hi _ he
  have hstep : A.guar w (A.after c r w x) ∧ P (A.after c r w x) := by
    rcases exec_onPayload hc he with rfl | ⟨v, rfl⟩
    · have hq : Quiet w (A.after c r w w.toWorld) := quiet_after (Calm.refl _)
      exact ⟨A.quiet hq, hP.quiet _ _ hq hw⟩
    · exact hk c r w v hw hi
  refine ⟨hstep.1, ?_⟩
  cases k r with
  | ok a => exact hstep.2
  | error e => exact hstep.2

theorem deletePayload {b k : String} (hP : A.Firm P) (hk : A.Clears P b k) :
    A.Triple false P (Coordinator.deletePayload b k) (fun _ => P) (fun _ => P) := by
  refine bind (R := fun _ => P) (nodeForBackend hP b) ?_
  intro n
  cases n with
  | none =>
    refine bind (R := fun _ => P) (lookupBackend hP b) ?_
    intro _
    exact clear (c := .delete b k) (k := fun r => r) (decide_eq_true ⟨rfl, rfl⟩) hP hk
  | some n =>
    refine bind (R := fun _ => P) (nodeOperation hP (fun _ _ h => h)
      (clear (c := .node n b k .delete) (k := fun r => r) (decide_eq_true ⟨rfl, rfl⟩) hP hk)) ?_
    intro r
    refine ite ?_ ?_
    · exact fun _ => throw fun _ h => h
    · exact fun _ => Triple.pure fun _ h => h

theorem writeResult {b k : String} {data : Bytes} (hP : A.Firm P) (hk : A.Fills P b k) :
    A.Triple false P (Coordinator.writeResult env b k data) (fun _ => P) (fun _ => P) := by
  refine bind (R := fun _ => P) (nodeForBackend hP b) ?_
  intro n
  cases n with
  | none =>
    refine bind (R := fun _ => P) (lookupBackend hP b) ?_
    intro _
    refine bind (R := fun _ => P)
      (fill (c := .put b k data) (k := fun r => r) (decide_eq_true ⟨rfl, rfl⟩) hP hk) ?_
    intro size
    refine ite ?_ ?_
    · exact fun _ => Triple.pure fun _ h => h
    · intro _
      refine bind (R := fun _ => P) (calm (c := .get b k) (k := fun r => r) rfl hP) ?_
      exact fun _ => Triple.pure fun _ h => h
  | some n =>
    refine bind (R := fun _ => P) (nodeOperation hP (fun _ _ h => h)
      (fill (c := .node n b k (.store data (env.sha256 data))) (k := fun r => r)
        (decide_eq_true ⟨rfl, rfl⟩) hP hk)) ?_
    intro r
    refine ite ?_ ?_
    · exact fun _ => Triple.pure fun _ h => h
    · intro _
      refine ite ?_ ?_
      · exact fun _ => Triple.pure fun _ h => h
      · intro _
        refine ite ?_ ?_
        · exact fun _ => Triple.pure fun _ h => h
        · exact fun _ => Triple.pure fun _ h => h

theorem writePayloadTo {b k : String} {data : Bytes} (hP : A.Firm P) (hk : A.Fills P b k) :
    A.Triple false P (Coordinator.writePayloadTo env b k data) (fun _ => P) (fun _ => P) := by
  refine bind (R := fun _ => P) (writeResult hP hk) ?_
  intro r
  cases r with
  | ok _ => exact Triple.pure fun _ h => h
  | error e =>
    refine attemptBind (R := fun _ => P) (deletePayload hP hk.clears) ?_ ?_
    · exact fun _ => throw fun _ h => h
    · exact fun _ => throw fun _ h => h

/-- `map_err` keeps the postconditions that do not look at the error -/
theorem mapErr {g : ReclaimError → ReclaimError} {x : M α} {S : Traced → Prop}
    (h : A.Triple l P x Q (fun _ => S)) : A.Triple l P (Coordinator.mapErr g x) Q (fun _ => S) := by
  refine attemptBind h ?_ ?_
  · exact fun _ => Triple.pure fun _ h => h
  · exact fun _ => throw fun _ h => h

/-! ## guards -/

/-- the state in which this thread has acquired an object -/
def acquired (A : Party env) (id : Uuid) (w : Traced) : Traced :=
  A.after (.insertActiveObject id) (.ok ()) w (w.setProc
    { w.proc with activeObjects := (id, A.tid) :: w.proc.activeObjects })

/-- `begin_object_operation` -/
theorem beginObjectOperation {id : Uuid} {S : Traced → Prop} (hP : A.Firm P) (hR : A.Firm R)
    (hS : A.Firm S) (hcheck : ∀ w, P w → A.inv w → w.proc.authorityLost = false → R w)
    (hacq : ∀ w, P w → R w → A.inv w → w.proc.activeRecovery = none →
      (∀ u, (id, u) ∉ w.proc.activeObjects) →
      A.guar w (acquired A id w) ∧ S (acquired A id w)) :
    A.Triple false P (Coordinator.beginObjectOperation id) (fun _ => S) (fun _ => P) := by
  refine withInner hP hR (fun _ => hS) (fun _ => hP) hcheck (fun _ _ h _ => h) ?_
  intro w hw hm
  refine Triple.call (c := .insertActiveObject id) (k := fun r => r) (l := true) true
    (hP.and hR) ?_ ?_ w hw hm
  · intro w i r x hw hi hm _ he
    simp only [exec, Option.some.injEq] at he
    have hrefused : ∀ e, r = .error e → x = w.toWorld →
        A.guar w (A.after (.insertActiveObject id) r w x) ∧
          A.Mutex true (A.after (.insertActiveObject id) r w x) ∧
          outcome (fun _ => S) (fun _ => P) r (A.after (.insertActiveObject id) r w x) := by
      rintro e rfl rfl
      have hq : Quiet w (A.after (.insertActiveObject id) (.error e) w w.toWorld) :=
        quiet_after (Calm.refl _)
      exact ⟨A.quiet hq, hm, hP.quiet _ _ hq hw.1⟩
    unfold execInsertActiveObject at he
    split at he
    · cases he
      exact hrefused _ rfl rfl
    · next hrec =>
      split at he
      · cases he
        exact hrefused _ rfl rfl
      · next hno =>
        cases he
        have hrec' : w.proc.activeRecovery = none := by simpa using hrec
        have hno' : ∀ u, (id, u) ∉ w.proc.activeObjects := by
          intro u hu
          refine hno (List.any_eq_true.mpr ⟨(id, u), hu, ?_⟩)
          simp
        obtain ⟨hg, hs⟩ := hacq w hw.1 hw.2 hi hrec' hno'
        exact ⟨hg, hm, hs⟩
  · intro _ w i _ _ _
    exact Option.some_ne_none _

/-- the state in which this thread has begun recovery -/
def begunRecovery (A : Party env) (w : Traced) : Traced :=
  A.after .insertActiveRecovery (.ok ()) w (w.setProc { w.proc with activeRecovery := some A.tid })

/-- `begin_recovery` -/
theorem beginRecovery {S : Traced → Prop} (hP : A.Firm P) (hS : A.Firm S)
    (hacq : ∀ w, P w → A.inv w → w.proc.activeRecovery = none → w.proc.activeObjects = [] →
      w.proc.activePayloads = [] → A.guar w (begunRecovery A w) ∧ S (begunRecovery A w)) :
    A.Triple false P Coordinator.beginRecovery (fun _ => S) (fun _ => P) := by
  refine section_ hP (fun _ => hS) ?_
  intro w hw hm
  refine Triple.call (c := .insertActiveRecovery) (k := fun r => r) (l := true) true hP ?_ ?_ w hw hm
  · intro w i r x hw hi hm _ he
    simp only [exec, Option.some.injEq] at he
    unfold execInsertActiveRecovery at he
    split at he
    · cases he
      have hq : Quiet w (A.after .insertActiveRecovery (.error (.reservationConflict
          "cannot run recovery while lifecycle operations are active")) w w.toWorld) :=
        quiet_after (Calm.refl _)
      exact ⟨A.quiet hq, hm, hP.quiet _ _ hq hw⟩
    · next hfree =>
      cases he
      rw [not_or, not_or, not_not, not_not] at hfree
      obtain ⟨hg, hs⟩ := hacq w hw hi (by simpa using hfree.1) hfree.2.1 hfree.2.2
      exact ⟨hg, hm, hs⟩
  · intro _ w i _ _ _
    exact Option.some_ne_none _

/-- the state in which this thread has acquired payload keys -/
def acquiredKeys (A : Party env) (keys : List (String × ContentHash)) (w : Traced) : Traced :=
  A.after (.pollPayloads keys) true w (w.setProc { w.proc with
    activePayloads := keys.map (fun k => (k, A.tid)) ++ w.proc.activePayloads })

theorem pollPayloads {keys : List (String × ContentHash)} {S : Traced → Prop} (hP : A.Firm P)
    (hacq : ∀ w, P w → A.inv w → (∃ i, A.allow (.pollPayloads keys) i w) →
      w.proc.activeRecovery = none → (∀ k ∈ keys, ∀ u, (k, u) ∉ w.proc.activePayloads) →
      A.guar w (acquiredKeys A keys w) ∧ S (acquiredKeys A keys w)) :
    A.Triple false P (Coordinator.ask (.pollPayloads keys))
      (fun b w => (b = true → S w) ∧ (b = false → P w)) E := by
  intro w hw hm
  refine Triple.call (c := .pollPayloads keys) (k := fun r => .ok r) (l := false) false hP
    ?_ ?_ w hw hm
  · intro w i r x hw hi hm ha he
    simp only [exec] at he
    split at he
    · simp only [Option.some.injEq] at he
      unfold execPollPayloads at he
      split at he
      · next hfree =>
        cases he
        have hrec : w.proc.activeRecovery = none := by simpa using hfree.1
        obtain ⟨hg, hs⟩ := hacq w hw hi ⟨i, ha⟩ hrec (by
          intro k hk u hu
          have := List.all_eq_true.mp (hfree.2 k hk) (k, u) hu
          simp at this)
        refine ⟨hg, hm, ?_⟩
        exact ⟨fun _ => hs, fun h => Bool.noConfusion h⟩
      · cases he
        have hq : Quiet w (A.after (.pollPayloads keys) false w w.toWorld) :=
          quiet_after (Calm.refl _)
        refine ⟨A.quiet hq, hm, ?_⟩
        exact ⟨fun h => Bool.noConfusion h, fun _ => hP.quiet _ _ hq hw⟩
    · cases he
  · intro ht w i _ hm _
    have hnone : w.proc.mutex = none := hm ht
    simp only [exec, hnone]
    exact Option.some_ne_none _

theorem pollRound {keys : List (String × ContentHash)} {S : Traced → Prop} (hP : A.Firm P)
    (hacq : ∀ w, P w → A.inv w → (∃ i, A.allow (.pollPayloads keys) i w) →
      w.proc.activeRecovery = none → (∀ k ∈ keys, ∀ u, (k, u) ∉ w.proc.activePayloads) →
      A.guar w (acquiredKeys A keys w) ∧ S (acquiredKeys A keys w)) :
    A.Triple false P (Coordinator.pollRound keys) (fun b w => (b = true → S w) ∧ (b = false → P w))
      (fun _ => P) := by
  refine bind (R := fun _ => P) (ask rfl hP) ?_
  intro b
  refine refuse (fun _ _ h => h) ?_
  intro _
  refine bind (R := fun _ => P) (ask rfl hP) ?_
  intro b
  refine refuse (fun _ _ h => h) ?_
  intro _
  exact pollPayloads hP hacq

theorem pollLoop {keys : List (String × ContentHash)} {S : Traced → Prop} (hP : A.Firm P)
    (hacq : ∀ w, P w → A.inv w → (∃ i, A.allow (.pollPayloads keys) i w) →
      w.proc.activeRecovery = none → (∀ k ∈ keys, ∀ u, (k, u) ∉ w.proc.activePayloads) →
      A.guar w (acquiredKeys A keys w) ∧ S (acquiredKeys A keys w)) (n : Nat) :
    A.Triple false P (Coordinator.pollLoop keys n) (fun _ => S) (fun _ => P) := by
  induction n with
  | zero =>
    refine bind (pollRound hP hacq) ?_
    intro b
    refine ite ?_ ?_
    · exact fun hb => Triple.pure fun w hw => hw.1 hb
    · intro hb
      refine bind (R := fun _ => P) ?_ ?_
      · exact (ask (l := false) rfl hP).pre fun w hw => hw.2 (by simpa using hb)
      · exact fun _ => throw fun _ h => h
  | succ n ih =>
    refine bind (pollRound hP hacq) ?_
    intro b
    refine ite ?_ ?_
    · exact fun hb => Triple.pure fun w hw => hw.1 hb
    · exact fun hb => ih.pre fun w hw => hw.2 (by simpa using hb)

/-- `begin_payload_operations` -/
theorem beginPayloadOperations {keys : List (String × ContentHash)} {S : Traced → Prop}
    (hP : A.Firm P)
    (hacq : ∀ w, P w → A.inv w →
      (∃ i, A.allow (.pollPayloads (Coordinator.sortKeys keys)) i w) →
      w.proc.activeRecovery = none →
      (∀ k ∈ Coordinator.sortKeys keys, ∀ u, (k, u) ∉ w.proc.activePayloads) →
      A.guar w (acquiredKeys A (Coordinator.sortKeys keys) w) ∧
        S (acquiredKeys A (Coordinator.sortKeys keys) w)) :
    A.Triple false P (Coordinator.beginPayloadOperations keys) (fun _ => S) (fun _ => P) := by
  refine bind (R := fun _ => P) (ask rfl hP) ?_
  exact fun n => pollLoop hP hacq n

/-- the state in which payload keys have been dropped -/
def dropped (A : Party env) (keys : List (String × ContentHash)) (w : Traced) : Traced :=
  A.after (.removeActivePayloads keys) () w (w.setProc { w.proc with
    activePayloads := w.proc.activePayloads.filter (fun e => decide (e.1 ∉ keys)) })

theorem dropPayloads {keys : List (String × ContentHash)} {S : Traced → Prop} (hP : A.Firm P)
    (hdrop : ∀ w, P w → A.inv w → A.guar w (dropped A keys w) ∧ S (dropped A keys w)) :
    A.Triple false P (Coordinator.ask (.removeActivePayloads keys)) (fun _ => S) E := by
  intro w hw hm
  refine Triple.call (c := .removeActivePayloads keys) (k := fun r => .ok r) (l := false) false hP
    ?_ ?_ w hw hm
  · intro w i r x hw hi hm _ he
    simp only [exec] at he
    split at he
    · cases he
      obtain ⟨hg, hs⟩ := hdrop w hw hi
      exact ⟨hg, hm, hs⟩
    · cases he
  · intro ht w i _ hm _
    have hnone : w.proc.mutex = none := hm ht
    simp only [exec, hnone]
    exact Option.some_ne_none _

/-- the drop of a payload guard, and the result that was waiting for it -/
theorem dropSettled {keys : List (String × ContentHash)} {r : Res α} (hP : A.Firm P)
    (hdrop : ∀ w, P w → A.inv w → A.guar w (dropped A (Coordinator.sortKeys keys) w) ∧
      outcome Q E r (dropped A (Coordinator.sortKeys keys) w)) :
    A.Triple false P (do
        Coordinator.ask (.removeActivePayloads (Coordinator.sortKeys keys))
        Prog.settle r : M α) Q E := by
  refine bind (R := fun _ => outcome Q E r) (dropPayloads hP hdrop) fun _ => ?_
  refine Triple.settle ?_ ?_
  · rintro a rfl w hw
    exact hw
  · rintro e rfl w hw
    exact hw

/-- a body that runs under a payload guard, and the drop of the guard -/
theorem holding {keys : List (String × ContentHash)} {body : M α} {Q' : α → Traced → Prop}
    {E' : ReclaimError → Traced → Prop} (hQ : ∀ a, A.Firm (Q' a)) (hE : ∀ e, A.Firm (E' e))
    (hbody : A.Triple false P body Q' E')
    (hdropQ : ∀ a w, Q' a w → A.inv w →
      A.guar w (dropped A (Coordinator.sortKeys keys) w) ∧
        Q a (dropped A (Coordinator.sortKeys keys) w))
    (hdropE : ∀ e w, E' e w → A.inv w →
      A.guar w (dropped A (Coordinator.sortKeys keys) w) ∧
        E e (dropped A (Coordinator.sortKeys keys) w)) :
    A.Triple false P (Coordinator.holding keys body) Q E :=
  attemptBind hbody (fun a => dropSettled (hQ a) (hdropQ a)) fun e => dropSettled (hE e) (hdropE e)

end Triple

end Party

end ReclaimFabric
