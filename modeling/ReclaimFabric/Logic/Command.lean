import ReclaimFabric.Logic.Triple

/-!
# Rules for single commands

* `Triple.calm`   commands that change nothing of substance keep every firm assertion;
* `Triple.look`   the same, with what the reply says about the state;
* `Triple.read`   a store method that only answers;
* `Triple.store`  a store method that writes;
* `Triple.physical`  one payload or one blob is written or removed.
-/

set_option linter.unusedSectionVars false

namespace ReclaimFabric

/-- the part of `Quiet` that is about the world -/
structure Calm (w x : World) : Prop where
  data : x.store.data = w.store.data
  payloads : x.payloads = w.payloads
  blobs : x.blobs = w.blobs
  guards : x.proc.guards = w.proc.guards
  mutex : x.proc.mutex = w.proc.mutex
  authorityLost : w.proc.authorityLost = true → x.proc.authorityLost = true
  shutdown : w.proc.shutdown = true → x.proc.shutdown = true
  issued : ∀ u, u ∈ w.issued → u ∈ x.issued

theorem Calm.refl (w : World) : Calm w w := ⟨rfl, rfl, rfl, rfl, rfl, id, id, fun _ => id⟩

/-! ## which commands are calm -/

/-- the store methods that answer, or touch only the decision, audit, failure and coordinator
tables -/
def StoreOp.calm : StoreOp → Bool
  | .getObject _ => true
  | .requireObject _ => true
  | .listObjects => true
  | .replicasFor _ => true
  | .allReplicas => true
  | .validReplicaCount _ => true
  | .lineageGraph => true
  | .getDedup _ _ => true
  | .listDedup => true
  | .insertDecision _ => true
  | .appendAudit _ => true
  | .insertFailure _ => true
  | .listOpenReservations => true
  | .hasOpenReservationFor _ => true
  | .getJournal _ => true
  | .listOpenJournal => true
  | .coordinatorHeartbeat _ _ _ _ => true
  | .listArchives => true
  | .archivesFor _ => true
  | _ => false

def NodeOp.calm : NodeOp → Bool
  | .read => true
  | .exists_ => true
  | _ => false

def Cmd.calm : Cmd → Bool
  | .loadAuthorityLost => true
  | .setAuthorityLost => true
  | .loadShutdown => true
  | .setShutdown => true
  | .now => true
  | .newUuid => true
  | .readProc => true
  | .pollBudget => true
  | .deadlinePassed => true
  | .lineageBusy _ _ => true
  | .policyDecide _ => true
  | .hashOrder _ => true
  | .store op => op.calm
  | .get _ _ => true
  | .exists_ _ _ => true
  | .node _ _ _ op => op.calm
  | .archiveRead _ _ => true
  | .archiveExists _ _ => true
  | _ => false

theorem insertAuditRow_data {a : AuditEntry} {s s' : Store}
    (h : Store.insertAuditRow a s = .ok s') : s'.data = s.data := by
  rw [Store.insertAuditRow] at h
  cases hg : Store.sqlOptionalU64 "audit generation" a.generation with
  | error e =>
    rw [hg] at h
    cases h
  | ok u =>
    rw [hg] at h
    cases h
    rfl

theorem StoreOp.run_calm {op : StoreOp} (hc : op.calm = true) {s s' : Store} {r : op.Out}
    (h : op.run s = .ok (r, s')) : s'.data = s.data := by
  cases op with
  | getObject id => cases h; rfl
  | requireObject id =>
    simp only [StoreOp.run, Store.requireObject] at h
    split at h
    · cases h
    · cases h
      rfl
  | listObjects => cases h; rfl
  | replicasFor id => cases h; rfl
  | allReplicas => cases h; rfl
  | validReplicaCount id => cases h; rfl
  | lineageGraph =>
    simp only [StoreOp.run, Store.lineageGraph] at h
    cases hg : Store.addEdges s.lineage.rows
        (s.objects.rows.foldl (fun g o => g.addObject o.id) LineageGraph.default) with
    | error e =>
      rw [hg] at h
      cases h
    | ok g =>
      rw [hg] at h
      cases h
      rfl
  | getDedup h b => cases h; rfl
  | listDedup => cases h; rfl
  | insertDecision d =>
    simp only [StoreOp.run, Store.insertDecision] at h
    split at h
    · cases h
    · cases h₁ : Store.sqlU64 "decision generation" d.generation with
      | error e =>
        rw [h₁] at h
        cases h
      | ok u =>
        cases h₂ : Store.sqlU64 "decision epoch" d.epoch with
        | error e =>
          rw [h₁, h₂] at h
          cases h
        | ok u =>
          rw [h₁, h₂] at h
          cases h
          rfl
  | appendAudit a =>
    simp only [StoreOp.run, Store.appendAudit] at h
    cases ha : Store.insertAuditRow a s with
    | error e =>
      rw [ha] at h
      cases h
    | ok t =>
      rw [ha] at h
      cases h
      exact insertAuditRow_data ha
  | insertFailure f => cases h; rfl
  | listOpenReservations => cases h; rfl
  | hasOpenReservationFor id => cases h; rfl
  | getJournal id => cases h; rfl
  | listOpenJournal => cases h; rfl
  | coordinatorHeartbeat p b e n =>
    simp only [StoreOp.run, Store.coordinatorHeartbeat] at h
    cases h₁ : Store.sqlU64 "coordinator epoch" e with
    | error err =>
      rw [h₁] at h
      cases h
    | ok u =>
      rw [h₁] at h
      simp only [bind, Except.bind] at h
      split at h
      · cases h
        rfl
      · cases h
  | listArchives => cases h; rfl
  | archivesFor id => cases h; rfl
  | _ => cases hc

theorem execStore_calm (op : StoreOp) (hc : op.calm = true) (i : Input) (w : World) :
    Calm w (execStore op i w).2 := by
  unfold execStore
  split
  · exact Calm.refl w
  · split
    · exact Calm.refl w
    · next r s h => exact ⟨StoreOp.run_calm hc h, rfl, rfl, rfl, rfl, id, id, fun _ => id⟩

theorem onBackend_snd {α : Type} {info : Res BackendInfo} {k : String} {w : World}
    {f : Res α × World} (h : f.2 = w) : (onBackend info k w f).2 = w := by
  unfold onBackend
  split
  · rfl
  · split
    · rfl
    · exact h

theorem execGet_snd (info : Res BackendInfo) (b k : String) (i : Input) (w : World) :
    (execGet info b k i w).2 = w := by
  refine onBackend_snd ?_
  split
  · rfl
  · split
    · rfl
    · split <;> rfl

theorem execExists_snd (info : Res BackendInfo) (b k : String) (i : Input) (w : World) :
    (execExists info b k i w).2 = w := by
  refine onBackend_snd ?_
  split <;> rfl

theorem onArchive_snd {α : Type} {info : Option ArchiveInfo} {a k : String} {w : World}
    {f : Res α × World} (h : f.2 = w) : (onArchive info a k w f).2 = w := by
  unfold onArchive
  split
  · rfl
  · split
    · rfl
    · exact h

theorem execArchiveRead_snd (a k : String) (i : Input) (w : World) :
    (execArchiveRead a k i w).2 = w := by
  refine onArchive_snd ?_
  split
  · rfl
  · split
    · rfl
    · split <;> rfl

theorem execArchiveExists_snd (a k : String) (i : Input) (w : World) :
    (execArchiveExists a k i w).2 = w := by
  refine onArchive_snd ?_
  split <;> rfl

theorem executeOperation_snd (env : Env) (info : Res BackendInfo) (b k : String) (w : World)
    (op : NodeOp) (hc : op.calm = true) : (executeOperation env info b k w op).2 = w := by
  cases op with
  | store d h => cases hc
  | delete => cases hc
  | read =>
    have h := execGet_snd info b k {} w
    simp only [executeOperation]
    split
    · next e w' he =>
      rw [he] at h
      exact h
    · next d w' he =>
      rw [he] at h
      exact h
  | exists_ =>
    have h := execExists_snd info b k {} w
    simp only [executeOperation]
    split
    · next e w' he =>
      rw [he] at h
      exact h
    · next x w' he =>
      rw [he] at h
      exact h

theorem execNode_snd (env : Env) (n b k : String) (op : NodeOp) (hc : op.calm = true) (i : Input)
    (w : World) : (execNode env n b k op i w).2 = w := by
  have h := executeOperation_snd env (w.proc.config.nodeBackend n b) b k w op hc
  unfold execNode
  split
  · split
    · exact h
    · rfl
  · exact h

/-- a calm command leaves everything of substance alone -/
theorem exec_calm {env : Env} {t : Tid} {c : Cmd} (hc : c.calm = true) {i : Input} {w x : World}
    {r : c.Reply} (h : exec env t c i w = some (r, x)) : Calm w x := by
  have same : ∀ {y : World}, y = w → Calm w y := fun e => e ▸ Calm.refl w
  cases c with
  | loadAuthorityLost => cases h; exact Calm.refl w
  | setAuthorityLost => cases h; exact ⟨rfl, rfl, rfl, rfl, rfl, fun _ => rfl, id, fun _ => id⟩
  | loadShutdown => cases h; exact Calm.refl w
  | setShutdown => cases h; exact ⟨rfl, rfl, rfl, rfl, rfl, id, fun _ => rfl, fun _ => id⟩
  | now => cases h; exact Calm.refl w
  | newUuid =>
    simp only [exec] at h
    split at h
    · cases h
    · cases h
      exact ⟨rfl, rfl, rfl, rfl, rfl, id, id, fun _ => List.mem_cons_of_mem _⟩
  | readProc => cases h; exact Calm.refl w
  | pollBudget => cases h; exact Calm.refl w
  | deadlinePassed => cases h; exact Calm.refl w
  | lineageBusy p c => cases h; exact Calm.refl w
  | policyDecide o => cases h; exact Calm.refl w
  | hashOrder n =>
    simp only [exec] at h
    split at h
    · cases h
      exact Calm.refl w
    · cases h
  | store op =>
    have := execStore_calm op hc i w
    simp only [exec, Option.some.injEq] at h
    rw [h] at this
    exact this
  | get b k =>
    have := execGet_snd (w.proc.config.backend b) b k i w
    simp only [exec, Option.some.injEq] at h
    rw [h] at this
    exact same this
  | exists_ b k =>
    have := execExists_snd (w.proc.config.backend b) b k i w
    simp only [exec, Option.some.injEq] at h
    rw [h] at this
    exact same this
  | node n b k op =>
    have := execNode_snd env n b k op hc i w
    simp only [exec, Option.some.injEq] at h
    rw [h] at this
    exact same this
  | archiveRead a k =>
    have := execArchiveRead_snd a k i w
    simp only [exec, Option.some.injEq] at h
    rw [h] at this
    exact same this
  | archiveExists a k =>
    have := execArchiveExists_snd a k i w
    simp only [exec, Option.some.injEq] at h
    rw [h] at this
    exact same this
  | _ => cases hc

theorem exec_calm_ne_none {env : Env} (A : Party env) {c : Cmd} (hc : c.calm = true)
    (ht : A.total = true) {i : Input} {w : Traced} (ha : A.allow c i w) :
    exec env A.tid c i w.toWorld ≠ none := by
  cases c with
  | newUuid =>
    simp only [exec, if_neg (A.fresh ht i w ha)]
    exact Option.some_ne_none _
  | hashOrder n =>
    simp only [exec, if_pos (A.order ht n i w ha)]
    exact Option.some_ne_none _
  | store op => exact Option.some_ne_none _
  | node n b k op => exact Option.some_ne_none _
  | loadAuthorityLost => exact Option.some_ne_none _
  | setAuthorityLost => exact Option.some_ne_none _
  | loadShutdown => exact Option.some_ne_none _
  | setShutdown => exact Option.some_ne_none _
  | now => exact Option.some_ne_none _
  | readProc => exact Option.some_ne_none _
  | pollBudget => exact Option.some_ne_none _
  | deadlinePassed => exact Option.some_ne_none _
  | lineageBusy p c => exact Option.some_ne_none _
  | policyDecide o => exact Option.some_ne_none _
  | get b k => exact Option.some_ne_none _
  | exists_ b k => exact Option.some_ne_none _
  | archiveRead a k => exact Option.some_ne_none _
  | archiveExists a k => exact Option.some_ne_none _
  | _ => cases hc

/-! ## commands on one payload or one blob -/

/-- the commands that may change the payload at one key -/
def Cmd.onPayload (b key : String) : Cmd → Bool
  | .put b' k' _ => decide (b' = b ∧ k' = key)
  | .delete b' k' => decide (b' = b ∧ k' = key)
  | .node _ b' k' _ => decide (b' = b ∧ k' = key)
  | _ => false

/-- the commands that may change the blob at one key -/
def Cmd.onBlob (a key : String) : Cmd → Bool
  | .archiveWrite a' k' _ _ => decide (a' = a ∧ k' = key)
  | .archiveDelete a' k' => decide (a' = a ∧ k' = key)
  | _ => false

theorem onBackend_cases {α : Type} {info : Res BackendInfo} {b k : String} {w : World}
    {f : Res α × World} (h : f.2 = w ∨ ∃ v, f.2 = w.setPayload b k v) :
    (onBackend info k w f).2 = w ∨ ∃ v, (onBackend info k w f).2 = w.setPayload b k v := by
  unfold onBackend
  split
  · exact .inl rfl
  · split
    · exact .inl rfl
    · exact h

theorem execPut_cases (info : Res BackendInfo) (b k : String) (d : Bytes) (i : Input)
    (w : World) : (execPut info b k d i w).2 = w ∨
      ∃ v, (execPut info b k d i w).2 = w.setPayload b k v := by
  refine onBackend_cases ?_
  split
  · split
    · exact .inr ⟨_, rfl⟩
    · exact .inl rfl
  · exact .inr ⟨_, rfl⟩

theorem execDelete_cases (info : Res BackendInfo) (b k : String) (i : Input) (w : World) :
    (execDelete info b k i w).2 = w ∨ ∃ v, (execDelete info b k i w).2 = w.setPayload b k v := by
  refine onBackend_cases ?_
  split
  · split
    · exact .inr ⟨_, rfl⟩
    · exact .inl rfl
  · exact .inr ⟨_, rfl⟩

theorem executeOperation_cases (env : Env) (info : Res BackendInfo) (b k : String) (w : World)
    (op : NodeOp) : (executeOperation env info b k w op).2 = w ∨
      ∃ v, (executeOperation env info b k w op).2 = w.setPayload b k v := by
  cases op with
  | store d h =>
    simp only [executeOperation]
    split
    · exact .inl rfl
    · split
      · exact .inl rfl
      · split
        · exact .inr ⟨_, rfl⟩
        · exact .inr ⟨_, rfl⟩
  | read => exact .inl (executeOperation_snd env info b k w .read rfl)
  | exists_ => exact .inl (executeOperation_snd env info b k w .exists_ rfl)
  | delete =>
    have h := execDelete_cases info b k {} w
    simp only [executeOperation]
    split
    · next e w' he =>
      rw [he] at h
      exact h
    · next w' he =>
      rw [he] at h
      exact h

theorem execNode_cases (env : Env) (n b k : String) (op : NodeOp) (i : Input) (w : World) :
    (execNode env n b k op i w).2 = w ∨
      ∃ v, (execNode env n b k op i w).2 = w.setPayload b k v := by
  have h := executeOperation_cases env (w.proc.config.nodeBackend n b) b k w op
  unfold execNode
  split
  · split
    · exact h
    · exact .inl rfl
  · exact h

theorem exec_onPayload {env : Env} {t : Tid} {c : Cmd} {b key : String}
    (hc : c.onPayload b key = true) {i : Input} {w x : World} {r : c.Reply}
    (h : exec env t c i w = some (r, x)) : x = w ∨ ∃ v, x = w.setPayload b key v := by
  cases c with
  | put b' k' d =>
    obtain ⟨rfl, rfl⟩ := of_decide_eq_true hc
    have := execPut_cases (w.proc.config.backend b') b' k' d i w
    simp only [exec, Option.some.injEq] at h
    rw [h] at this
    exact this
  | delete b' k' =>
    obtain ⟨rfl, rfl⟩ := of_decide_eq_true hc
    have := execDelete_cases (w.proc.config.backend b') b' k' i w
    simp only [exec, Option.some.injEq] at h
    rw [h] at this
    exact this
  | node n b' k' op =>
    obtain ⟨rfl, rfl⟩ := of_decide_eq_true hc
    have := execNode_cases env n b' k' op i w
    simp only [exec, Option.some.injEq] at h
    rw [h] at this
    exact this
  | _ => cases hc

/-- the commands that may remove the payload at one key -/
def Cmd.clears (b key : String) : Cmd → Bool
  | .delete b' k' => decide (b' = b ∧ k' = key)
  | .node _ b' k' .delete => decide (b' = b ∧ k' = key)
  | _ => false

theorem Cmd.onPayload_of_clears {c : Cmd} {b key : String} (h : c.clears b key = true) :
    c.onPayload b key = true := by
  cases c with
  | delete b' k' => exact h
  | node n b' k' op =>
    cases op with
    | delete => exact h
    | _ => cases h
  | _ => cases h

theorem execDelete_none (info : Res BackendInfo) (b k : String) (i : Input) (w : World) :
    (execDelete info b k i w).2 = w ∨ (execDelete info b k i w).2 = w.setPayload b k none := by
  unfold execDelete onBackend
  split
  · exact .inl rfl
  · split
    · exact .inl rfl
    · split
      · split
        · exact .inr rfl
        · exact .inl rfl
      · exact .inr rfl

theorem exec_clears {env : Env} {t : Tid} {c : Cmd} {b key : String}
    (hc : c.clears b key = true) {i : Input} {w x : World} {r : c.Reply}
    (h : exec env t c i w = some (r, x)) : x = w ∨ x = w.setPayload b key none := by
  cases c with
  | delete b' k' =>
    obtain ⟨rfl, rfl⟩ := of_decide_eq_true hc
    have := execDelete_none (w.proc.config.backend b') b' k' i w
    simp only [exec, Option.some.injEq] at h
    rw [h] at this
    exact this
  | node n b' k' op =>
    cases op with
    | delete =>
      obtain ⟨rfl, rfl⟩ := of_decide_eq_true hc
      have hd := execDelete_none (w.proc.config.nodeBackend n b') b' k' {} w
      have he : (executeOperation env (w.proc.config.nodeBackend n b') b' k' w .delete).2 =
          (execDelete (w.proc.config.nodeBackend n b') b' k' {} w).2 := by
        simp only [executeOperation]
        split
        · next e w' he => rw [he]
        · next w' he => rw [he]
      simp only [exec, Option.some.injEq] at h
      unfold execNode at h
      rw [← he] at hd
      split at h
      · split at h
        · cases h
          exact hd
        · cases h
          exact .inl rfl
      · cases h
        exact hd
    | _ => cases hc
  | _ => cases hc

/-- a deletion that is acknowledged has been made -/
theorem execDelete_ok {info : Res BackendInfo} {b k : String} {i : Input} {w x : World}
    (h : execDelete info b k i w = (.ok (), x)) : x = w.setPayload b k none := by
  unfold execDelete onBackend at h
  split at h
  · cases h
  · split at h
    · cases h
    · split at h
      · cases h
      · cases h
        rfl

theorem exec_delete_ok {env : Env} {t : Tid} {b k : String} {i : Input} {w x : World} {u : Unit}
    (h : exec env t (.delete b k) i w = some (.ok u, x)) : x = w.setPayload b k none := by
  simp only [exec, Option.some.injEq] at h
  exact execDelete_ok h

/-- a node that answers truthfully has made the deletion it acknowledges -/
theorem exec_nodeDelete_ok {env : Env} {t : Tid} {n b k : String} {i : Input} {w x : World}
    {r : NodeReply} (h : exec env t (.node n b k .delete) i w = some (.ok r, x))
    (hr : r.ok = true) (hi : i.nodeReply = none) : x = w.setPayload b k none := by
  simp only [exec, Option.some.injEq] at h
  unfold execNode at h
  split at h
  · cases h
  · rw [hi] at h
    cases h
    simp only [executeOperation, Option.getD_none] at hr ⊢
    cases hd : execDelete (w.proc.config.nodeBackend n b) b k {} w with
    | mk res x =>
      rw [hd] at hr
      cases res with
      | error e => cases hr
      | ok _ => exact execDelete_ok hd

/-! ## truthful answers -/

theorem execExists_ok {info : Res BackendInfo} {b k : String} {i : Input} {w x : World} {d : Bool}
    (h : execExists info b k i w = (.ok d, x)) (hi : i.answer = none) :
    d = (w.payloads b k).isSome := by
  unfold execExists onBackend at h
  split at h
  · cases h
  · split at h
    · cases h
    · split at h
      · cases h
      · rw [hi] at h
        cases h
        rfl

theorem exec_exists_ok {env : Env} {t : Tid} {b k : String} {i : Input} {w x : World} {d : Bool}
    (h : exec env t (.exists_ b k) i w = some (.ok d, x)) (hi : i.answer = none) :
    d = (w.payloads b k).isSome := by
  simp only [exec, Option.some.injEq] at h
  exact execExists_ok h hi

theorem exec_nodeExists_ok {env : Env} {t : Tid} {n b k : String} {i : Input} {w x : World}
    {r : NodeReply} (h : exec env t (.node n b k .exists_) i w = some (.ok r, x))
    (hr : r.ok = true) (hi : i.nodeReply = none) : r.existed = (w.payloads b k).isSome := by
  simp only [exec, Option.some.injEq] at h
  unfold execNode at h
  split at h
  · cases h
  · rw [hi] at h
    cases h
    simp only [executeOperation, Option.getD_none] at hr ⊢
    cases hd : execExists (w.proc.config.nodeBackend n b) b k {} w with
    | mk res x =>
      rw [hd] at hr
      cases res with
      | error e => cases hr
      | ok d => exact execExists_ok hd rfl

theorem exec_archiveExists_ok {env : Env} {t : Tid} {a k : String} {i : Input} {w x : World}
    {d : Bool} (h : exec env t (.archiveExists a k) i w = some (.ok d, x)) (hi : i.answer = none) :
    d = (w.blobs a k).isSome := by
  simp only [exec, Option.some.injEq] at h
  unfold execArchiveExists onArchive at h
  split at h
  · cases h
  · split at h
    · cases h
    · split at h
      · cases h
      · rw [hi] at h
        cases h
        rfl

theorem exec_archiveDelete {env : Env} {t : Tid} {a k : String} {i : Input} {w x : World}
    {r : Res Unit} (h : exec env t (.archiveDelete a k) i w = some (r, x)) :
    x = w ∨ x = w.setBlob a k none := by
  simp only [exec, Option.some.injEq] at h
  unfold execArchiveDelete onArchive at h
  split at h
  · cases h
    exact .inl rfl
  · split at h
    · cases h
      exact .inl rfl
    · split at h
      · split at h
        · cases h
          exact .inr rfl
        · cases h
          exact .inl rfl
      · cases h
        exact .inr rfl

theorem exec_archiveDelete_ok {env : Env} {t : Tid} {a k : String} {i : Input} {w x : World}
    {u : Unit} (h : exec env t (.archiveDelete a k) i w = some (.ok u, x)) :
    x = w.setBlob a k none := by
  simp only [exec, Option.some.injEq] at h
  unfold execArchiveDelete onArchive at h
  split at h
  · cases h
  · split at h
    · cases h
    · split at h
      · cases h
      · cases h
        rfl

theorem exec_onPayload_ne_none {env : Env} {t : Tid} {c : Cmd} {b key : String}
    (hc : c.onPayload b key = true) {i : Input} {w : World} : exec env t c i w ≠ none := by
  cases c with
  | put b' k' d => exact Option.some_ne_none _
  | delete b' k' => exact Option.some_ne_none _
  | node n b' k' op => exact Option.some_ne_none _
  | _ => cases hc

theorem onArchive_cases {α : Type} {info : Option ArchiveInfo} {a k : String} {w : World}
    {f : Res α × World} (h : f.2 = w ∨ ∃ v, f.2 = w.setBlob a k v) :
    (onArchive info a k w f).2 = w ∨ ∃ v, (onArchive info a k w f).2 = w.setBlob a k v := by
  unfold onArchive
  split
  · exact .inl rfl
  · split
    · exact .inl rfl
    · exact h

theorem execArchiveWrite_cases (env : Env) (a k : String) (d : Bytes) (hash : ContentHash)
    (i : Input) (w : World) : (execArchiveWrite env a k d hash i w).2 = w ∨
      ∃ v, (execArchiveWrite env a k d hash i w).2 = w.setBlob a k v := by
  refine onArchive_cases ?_
  split
  · split
    · exact .inr ⟨_, rfl⟩
    · exact .inl rfl
  · split
    · exact .inl rfl
    · split
      · exact .inr ⟨_, rfl⟩
      · split <;> exact .inl rfl

theorem execArchiveDelete_cases (a k : String) (i : Input) (w : World) :
    (execArchiveDelete a k i w).2 = w ∨
      ∃ v, (execArchiveDelete a k i w).2 = w.setBlob a k v := by
  refine onArchive_cases ?_
  split
  · split
    · exact .inr ⟨_, rfl⟩
    · exact .inl rfl
  · exact .inr ⟨_, rfl⟩

theorem exec_onBlob {env : Env} {t : Tid} {c : Cmd} {a key : String}
    (hc : c.onBlob a key = true) {i : Input} {w x : World} {r : c.Reply}
    (h : exec env t c i w = some (r, x)) : x = w ∨ ∃ v, x = w.setBlob a key v := by
  cases c with
  | archiveWrite a' k' d hash =>
    obtain ⟨rfl, rfl⟩ := of_decide_eq_true hc
    have := execArchiveWrite_cases env a' k' d hash i w
    simp only [exec, Option.some.injEq] at h
    rw [h] at this
    exact this
  | archiveDelete a' k' =>
    obtain ⟨rfl, rfl⟩ := of_decide_eq_true hc
    have := execArchiveDelete_cases a' k' i w
    simp only [exec, Option.some.injEq] at h
    rw [h] at this
    exact this
  | _ => cases hc

theorem exec_onBlob_ne_none {env : Env} {t : Tid} {c : Cmd} {a key : String}
    (hc : c.onBlob a key = true) {i : Input} {w : World} : exec env t c i w ≠ none := by
  cases c with
  | archiveWrite a' k' d hash => exact Option.some_ne_none _
  | archiveDelete a' k' => exact Option.some_ne_none _
  | _ => cases hc

namespace Party

variable {env : Env} {A : Party env}

theorem still_after {c : Cmd} {r : c.Reply} {w : Traced} {x : World}
    (hp : x.payloads = w.payloads) (hb : x.blobs = w.blobs)
    (hg : x.proc.guards = w.proc.guards)
    (hl : w.proc.authorityLost = true → x.proc.authorityLost = true)
    (hs : w.proc.shutdown = true → x.proc.shutdown = true)
    (hi : ∀ u, u ∈ w.issued → u ∈ x.issued) : Still w (A.after c r w x) :=
  ⟨hp, hb, hg, hl, hs, hi, [_], fun e he => by rw [List.mem_singleton.mp he]; rfl, rfl⟩

/-- a store method leaves the rest alone -/
theorem still_store {c : Cmd} {r : c.Reply} {w : Traced} {s : Store} :
    Still w (A.after c r w (w.setStore s)) :=
  still_after rfl rfl rfl id id fun _ => id

theorem quiet_after {c : Cmd} {r : c.Reply} {w : Traced} {x : World} (h : Calm w.toWorld x) :
    Quiet w (A.after c r w x) :=
  ⟨still_after h.payloads h.blobs h.guards h.authorityLost h.shutdown h.issued, h.data⟩

namespace Triple

open Coordinator

variable {α : Type} {l : Bool} {P : Traced → Prop} {Q : α → Traced → Prop}
  {E : ReclaimError → Traced → Prop}

/-! ## calm commands -/

/-- a calm command, with what its reply says -/
theorem look {c : Cmd} {k : c.Reply → Res α} (hc : c.calm = true) (hP : A.Firm P)
    (h : ∀ w i r x, P w → A.inv w → A.allow c i w → exec env A.tid c i w.toWorld = some (r, x) →
      P (A.after c r w x) → outcome Q E (k r) (A.after c r w x)) :
    A.Triple l P (ExceptT.mk (.call c fun r => .ret (k r)) : M α) Q E := by
  intro w hw hm
  refine Triple.call l hP ?_ ?_ w hw hm
  · intro w i r x hw hi hm ha he
    have hcalm := exec_calm hc he
    have hq : Quiet w (A.after c r w x) := quiet_after hcalm
    exact ⟨A.quiet hq, fun ht => hcalm.mutex.trans (hm ht),
      h w i r x hw hi ha he (hP.quiet _ _ hq hw)⟩
  · intro ht w i _ _ ha
    exact exec_calm_ne_none A hc ht ha

theorem calm {c : Cmd} {k : c.Reply → Res α} (hc : c.calm = true) (hP : A.Firm P) :
    A.Triple l P (ExceptT.mk (.call c fun r => .ret (k r)) : M α) (fun _ => P) (fun _ => P) := by
  refine look hc hP ?_
  intro w i r x _ _ _ _ h
  cases k r with
  | ok a => exact h
  | error e => exact h

theorem ask {c : Cmd} (hc : c.calm = true) (hP : A.Firm P) :
    A.Triple l P (Coordinator.ask c) (fun _ => P) E := by
  refine look (k := fun r => .ok r) hc hP ?_
  intro w i r x _ _ _ _ h
  exact h

theorem askLook {c : Cmd} {Q : c.Reply → Traced → Prop} (hc : c.calm = true) (hP : A.Firm P)
    (h : ∀ w i r x, P w → A.inv w → A.allow c i w → exec env A.tid c i w.toWorld = some (r, x) →
      P (A.after c r w x) → Q r (A.after c r w x)) :
    A.Triple l P (Coordinator.ask c) Q E :=
  look (k := fun r => .ok r) hc hP h

theorem nowMs (hP : A.Firm P) : A.Triple l P Coordinator.nowMs (fun _ => P) E := ask rfl hP

/-- the configuration does not change while the process runs -/
theorem config (hP : A.Firm P) :
    A.Triple l P Coordinator.config (fun c w => P w ∧ w.proc.config = c) E := by
  refine bind (R := fun r w => P w ∧ w.proc.config = r.1) (askLook rfl hP ?_) ?_
  · intro w i r x _ _ _ he h
    cases he
    exact ⟨h, rfl⟩
  · intro r
    exact pure fun w hw => hw

/-! ## store methods -/

/-- why a store method failed -/
def Refused (A : Party env) (op : StoreOp) (e : ReclaimError) (w : Traced) : Prop :=
  (∃ i, A.allow (.store op) i w ∧ i.fault = some e) ∨ op.run w.store = .error e

/-- a store method, by its outcome -/
theorem store {op : StoreOp} {Q : op.Out → Traced → Prop} (hP : A.Firm P)
    (hok : ∀ w r s, P w → A.inv w → (∃ i, A.allow (.store op) i w) →
      op.run w.store = .ok (r, s) →
      A.guar w (A.after (.store op) (.ok r) w (w.setStore s)) ∧
        Q r (A.after (.store op) (.ok r) w (w.setStore s)))
    (herr : ∀ w e, P w → A.inv w → Refused A op e w →
      P (A.after (.store op) (.error e) w w.toWorld) →
      E e (A.after (.store op) (.error e) w w.toWorld)) :
    A.Triple l P (Coordinator.store op) Q E := by
  intro w hw hm
  refine Triple.call (c := .store op) (k := fun r => r) l hP ?_ ?_ w hw hm
  · intro w i r x hw hi hm ha he
    have hfail : ∀ e, Refused A op e w → r = .error e → x = w.toWorld →
        A.guar w (A.after (.store op) r w x) ∧ A.Mutex l (A.after (.store op) r w x) ∧
          outcome Q E r (A.after (.store op) r w x) := by
      rintro e hre rfl rfl
      have hq : Quiet w (A.after (.store op) (.error e) w w.toWorld) := quiet_after (Calm.refl _)
      exact ⟨A.quiet hq, hm, herr w e hw hi hre (hP.quiet _ _ hq hw)⟩
    simp only [exec, Option.some.injEq] at he
    unfold execStore at he
    split at he
    · next e hf =>
      cases he
      exact hfail e (.inl ⟨i, ha, hf⟩) rfl rfl
    · split at he
      · next e hrun =>
        cases he
        exact hfail e (.inr hrun) rfl rfl
      · next r' s hrun =>
        cases he
        obtain ⟨hg, hQ⟩ := hok w r' s hw hi ⟨i, ha⟩ hrun
        exact ⟨hg, hm, hQ⟩
  · intro _ w i _ _ _
    exact Option.some_ne_none _

/-- a calm store method -/
theorem storeCalm {op : StoreOp} (hc : op.calm = true) (hP : A.Firm P) :
    A.Triple l P (Coordinator.store op) (fun _ => P) (fun _ => P) :=
  calm (c := .store op) (k := fun r => r) hc hP

/-- a store method that only answers -/
theorem read {op : StoreOp} {Q : op.Out → Traced → Prop} (hP : A.Firm P)
    (hcalm : op.calm = true)
    (hQ : ∀ w r s, P w → A.inv w → op.run w.store = .ok (r, s) →
      P (A.after (.store op) (.ok r) w (w.setStore s)) →
      Q r (A.after (.store op) (.ok r) w (w.setStore s)))
    (hE : ∀ e w, P w → E e w) :
    A.Triple l P (Coordinator.store op) Q E := by
  refine store hP ?_ ?_
  · intro w r s hw hi _ hrun
    have hd := StoreOp.run_calm hcalm hrun
    have hq : Quiet w (A.after (.store op) (.ok r) w (w.setStore s)) :=
      quiet_after ⟨hd, rfl, rfl, rfl, rfl, id, id, fun _ => id⟩
    exact ⟨A.quiet hq, hQ w r s hw hi hrun (hP.quiet _ _ hq hw)⟩
  · intro w e _ _ _ h
    exact hE e _ h

/-- a store method that only answers, with a firm conclusion -/
theorem answer {op : StoreOp} {Q : op.Out → Traced → Prop} (hP : A.Firm P)
    (hQf : ∀ r, A.Firm (Q r)) (hcalm : op.calm = true)
    (hQ : ∀ w r s, P w → A.inv w → op.run w.store = .ok (r, s) → Q r w)
    (hE : ∀ e w, P w → E e w) : A.Triple l P (Coordinator.store op) Q E := by
  refine read hP hcalm ?_ hE
  intro w r s hw hi hrun _
  have hd := StoreOp.run_calm hcalm hrun
  exact (hQf r).quiet w _ (quiet_after ⟨hd, rfl, rfl, rfl, rfl, id, id, fun _ => id⟩)
    (hQ w r s hw hi hrun)

/-! ## payloads and blobs -/

/-- a command on one payload -/
theorem physical (b key : String) {c : Cmd} {k : c.Reply → Res α} (hc : c.onPayload b key = true)
    (hP : A.Firm P)
    (h : ∀ w i r x, P w → A.inv w → A.allow c i w → exec env A.tid c i w.toWorld = some (r, x) →
      A.guar w (A.after c r w x) ∧ outcome Q E (k r) (A.after c r w x)) :
    A.Triple l P (ExceptT.mk (.call c fun r => .ret (k r)) : M α) Q E := by
  intro w hw hm
  refine Triple.call l hP ?_ ?_ w hw hm
  · intro w i r x hw hi hm ha he
    obtain ⟨hg, ho⟩ := h w i r x hw hi ha he
    refine ⟨hg, ?_, ho⟩
    intro ht
    rcases exec_onPayload hc he with rfl | ⟨v, rfl⟩
    · exact hm ht
    · exact hm ht
  · intro _ w i _ _ _
    exact exec_onPayload_ne_none hc

/-- a command on one blob -/
theorem onBlob (a key : String) {c : Cmd} {k : c.Reply → Res α} (hc : c.onBlob a key = true)
    (hP : A.Firm P)
    (h : ∀ w i r x, P w → A.inv w → A.allow c i w → exec env A.tid c i w.toWorld = some (r, x) →
      A.guar w (A.after c r w x) ∧ outcome Q E (k r) (A.after c r w x)) :
    A.Triple l P (ExceptT.mk (.call c fun r => .ret (k r)) : M α) Q E := by
  intro w hw hm
  refine Triple.call l hP ?_ ?_ w hw hm
  · intro w i r x hw hi hm ha he
    obtain ⟨hg, ho⟩ := h w i r x hw hi ha he
    refine ⟨hg, ?_, ho⟩
    intro ht
    rcases exec_onBlob hc he with rfl | ⟨v, rfl⟩
    · exact hm ht
    · exact hm ht
  · intro _ w i _ _ _
    exact exec_onBlob_ne_none hc

end Triple

end Party

end ReclaimFabric
