import ReclaimFabric.Safety.Guards
import ReclaimFabric.Safety.Modes

/-!
# The audit log and the object rows

Most writers change an object row and append the audit row in one transaction.  Some write the row
first and append the audit row afterwards.

* `newestState`     the state the newest audit row of an object names;
* `AuditsAgree`     it is the state of the row, for every object;
* `Store.Written.agrees`  a transaction that writes a row with its audit row keeps the agreement;
* `plainRun`        no row gets another state in a transaction of its own;
* `audits_agree`    such runs agree in every state, and a label leads out of the agreement exactly
                    when it is not of that kind;
* `restore_disagrees`  a restore between its two transactions.
-/

namespace ReclaimFabric

/-! ## the newest state -/

/-- the audit row names a state of the object -/
def AuditEntry.names (X : Uuid) (a : AuditEntry) : Bool :=
  decide (a.objectId = some X) && a.newState.isSome

/-- the state that the newest audit row of the object names -/
def newestState (X : Uuid) (log : List AuditEntry) : Option LifecycleState :=
  (log.filter (AuditEntry.names X)).getLast?.bind AuditEntry.newState

section
variable {X : Uuid} {log as : List AuditEntry} {a : AuditEntry} {st : LifecycleState}

/-- rows about other objects or without a state are passed over -/
theorem newestState_skip (h : ∀ a ∈ as, a.names X = false) :
    newestState X (log ++ as) = newestState X log := by
  have hnone : as.filter (AuditEntry.names X) = [] := by
    apply List.filter_eq_nil_iff.mpr
    intro a ha
    rw [h a ha]
    exact Bool.false_ne_true
  unfold newestState
  rw [List.filter_append, hnone, List.append_nil]

/-- rows that all name one state -/
theorem newestState_named (h : ∀ a ∈ as, a.names X = true → a.newState = some st)
    (hsome : ∃ a ∈ as, a.names X = true) : newestState X (log ++ as) = some st := by
  obtain ⟨a, ha, hname⟩ := hsome
  have hne : as.filter (AuditEntry.names X) ≠ [] :=
    List.ne_nil_of_mem (List.mem_filter.mpr ⟨ha, hname⟩)
  obtain ⟨b, hb⟩ := Option.isSome_iff_exists.mp (List.getLast?_isSome.mpr hne)
  obtain ⟨hmem, hname⟩ := List.mem_filter.mp (List.mem_of_getLast? hb)
  unfold newestState
  rw [List.filter_append, List.getLast?_append, hb]
  exact h b hmem hname

theorem names_other (h : a.objectId ≠ some X) : a.names X = false := by
  unfold AuditEntry.names
  rw [decide_eq_false h]
  rfl

theorem names_self (hX : a.objectId = some X) (h : a.newState.isSome = true) :
    a.names X = true := by
  unfold AuditEntry.names
  rw [h, decide_eq_true hX]
  rfl

end

/-! ## transactions -/

/-- for every object the newest audit row with a state names the state of the row -/
def AuditsAgree (x : Store) : Prop :=
  ∀ X o, x.objects.find? X = some o → newestState X x.audit = some o.lifecycleState

namespace Store

variable {x x' : Store} {o : ReclaimObject} {a : AuditEntry} {as : List AuditEntry}

/-- the audit row is about the object, and a state it names is that of the object -/
def Describes (o : ReclaimObject) (a : AuditEntry) : Prop :=
  a.objectId = some o.id ∧ ∀ st, a.newState = some st → st = o.lifecycleState

theorem validateObjectAudit_describes (h : validateObjectAudit o a = .ok ()) : Describes o a := by
  unfold validateObjectAudit at h
  by_cases hid : a.objectId ≠ some o.id ∨ a.generation ≠ some o.generation
  · rw [if_pos hid] at h
    cases h
  · rw [if_neg hid] at h
    constructor
    · by_contra hne
      exact hid (.inl hne)
    · intro st hst
      rw [hst] at h
      by_contra hne
      simp only [if_pos (show st ≠ o.lifecycleState from hne)] at h
      cases h

theorem insertAuditRow_audit (h : insertAuditRow a x = .ok x') :
    x'.objects = x.objects ∧ x'.audit = x.audit ++ [{ a with id := x.audit.length + 1 }] := by
  unfold insertAuditRow at h
  cases hc : sqlOptionalU64 "audit generation" a.generation with
  | error e =>
    rw [hc] at h
    cases h
  | ok u =>
    rw [hc] at h
    cases h
    exact ⟨rfl, rfl⟩

/-- the object and the state of an audit row -/
def told (a : AuditEntry) : Option Uuid × Option LifecycleState := (a.objectId, a.newState)

/-- the rows of several audit entries are numbered -/
theorem insertAuditRows_audit (h : insertAuditRows as x = .ok x') :
    x'.objects = x.objects ∧ ∃ bs, x'.audit = x.audit ++ bs ∧ bs.map told = as.map told := by
  induction as generalizing x with
  | nil =>
    cases h
    exact ⟨rfl, [], (List.append_nil _).symm, rfl⟩
  | cons a as ih =>
    unfold insertAuditRows at h
    cases hc : insertAuditRow a x with
    | error e =>
      rw [hc] at h
      cases h
    | ok x₁ =>
      rw [hc] at h
      obtain ⟨ho, ha⟩ := insertAuditRow_audit hc
      obtain ⟨ho', bs, hb, hbs⟩ := ih h
      refine ⟨ho'.trans ho, { a with id := x.audit.length + 1 } :: bs, ?_, ?_⟩
      · rw [hb, ha, List.append_assoc]
        rfl
      · rw [List.map_cons, List.map_cons, hbs]
        rfl

/-- the row of `o` is written and the rows `bs` are appended to the audit log -/
structure Written (o : ReclaimObject) (bs : List AuditEntry) (x x' : Store) : Prop where
  rows : ∀ X, x'.objects.find? X = if o.id = X then some o else x.objects.find? X
  audit : x'.audit = x.audit ++ bs

theorem written_replace {bs : List AuditEntry} {old : ReclaimObject}
    (hold : x.objects.find? o.id = some old) (ho : x'.objects = x.objects.replace o)
    (ha : x'.audit = x.audit ++ bs) : Written o bs x x' := by
  refine ⟨?_, ha⟩
  intro X
  rw [ho, Table.find?_replace]
  by_cases hX : o.id = X
  · rw [if_pos hX, if_pos hX, ← hX, hold]
    rfl
  · rw [if_neg hX, if_neg hX]

theorem updateObjectRow_audit (h : updateObjectRow o x = .ok x') : x'.audit = x.audit := by
  unfold updateObjectRow at h
  cases hc : checkObjectRow o with
  | error e =>
    rw [hc] at h
    cases h
  | ok u =>
    rw [hc] at h
    cases hf : x.objects.find? o.id with
    | none =>
      simp only [hf] at h
      cases h
    | some old =>
      simp only [hf] at h
      cases h
      rfl

theorem insertObjectRow_audit (h : insertObjectRow o x = .ok x') : x'.audit = x.audit := by
  unfold insertObjectRow at h
  cases hc : checkObjectRow o with
  | error e =>
    rw [hc] at h
    cases h
  | ok u =>
    rw [hc] at h
    cases hf : x.objects.insert? o with
    | none =>
      simp only [hf] at h
      cases h
    | some T =>
      simp only [hf] at h
      cases h
      rfl

theorem updateObject_written (h : updateObject o x = .ok ((), x')) :
    (∃ old, x.objects.find? o.id = some old) ∧ Written o [] x x' := by
  obtain ⟨-, -, ⟨old, hold⟩, hd⟩ := updateObject_ok h
  refine ⟨⟨old, hold⟩, written_replace hold (congrArg Data.objects hd) ?_⟩
  unfold updateObject at h
  cases hv : o.validate with
  | error e =>
    rw [hv] at h
    cases h
  | ok u =>
    rw [hv] at h
    cases hu : updateObjectRow o x with
    | error e =>
      rw [hu] at h
      cases h
    | ok x₁ =>
      rw [hu] at h
      cases h
      rw [updateObjectRow_audit hu, List.append_nil]

theorem updateObjectWithAudit_written (h : updateObjectWithAudit o a x = .ok ((), x')) :
    Describes o a ∧ ∃ n, Written o [{ a with id := n }] x x' := by
  obtain ⟨-, -, ⟨old, hold⟩, hd⟩ := updateObjectWithAudit_ok h
  unfold updateObjectWithAudit at h
  cases hv : o.validate with
  | error e =>
    rw [hv] at h
    cases h
  | ok u =>
    rw [hv] at h
    cases ha : validateObjectAudit o a with
    | error e =>
      rw [ha] at h
      cases h
    | ok u =>
      rw [ha] at h
      cases hu : updateObjectRow o x with
      | error e =>
        rw [hu] at h
        cases h
      | ok x₁ =>
        rw [hu] at h
        cases hi : insertAuditRow a x₁ with
        | error e =>
          simp only [bind, Except.bind, hi] at h
          cases h
        | ok x₂ =>
          simp only [bind, Except.bind, hi] at h
          cases h
          refine ⟨validateObjectAudit_describes ha, x₁.audit.length + 1, ?_⟩
          refine written_replace hold (congrArg Data.objects hd) ?_
          rw [(insertAuditRow_audit hi).2, updateObjectRow_audit hu]

theorem forM_ok {α : Type} {f : α → Res Unit} {l : List α} (h : l.forM f = .ok ()) :
    ∀ a ∈ l, f a = .ok () := by
  induction l with
  | nil => exact fun a ha => absurd ha List.not_mem_nil
  | cons b l ih =>
    have h : (f b >>= fun _ => l.forM f) = .ok () := h
    cases hb : f b with
    | error e =>
      rw [hb] at h
      cases h
    | ok u =>
      rw [hb] at h
      intro a ha
      rcases List.mem_cons.mp ha with rfl | ha
      · exact hb
      · exact ih h a ha

theorem createObjectWithAudits_written (h : createObjectWithAudits o as x = .ok ((), x')) :
    (∀ a ∈ as, Describes o a) ∧ ∃ bs, bs.map told = as.map told ∧ Written o bs x x' := by
  obtain ⟨-, -, T, hT, hd⟩ := createObjectWithAudits_ok h
  have hrows : ∀ X, x'.objects.find? X = if o.id = X then some o else x.objects.find? X := by
    intro X
    rw [show x'.objects = T from congrArg Data.objects hd]
    exact Table.find?_insert? hT
  simp only [createObjectWithAudits, bind, Except.bind] at h
  cases hv : o.validate with
  | error e =>
    rw [hv] at h
    cases h
  | ok u =>
    rw [hv] at h
    simp only at h
    split at h
    · cases h
    · cases hf : as.forM (validateObjectAudit o) with
      | error e =>
        simp only [hf] at h
        cases h
      | ok u =>
        simp only [hf] at h
        cases hu : insertObjectRow o x with
        | error e =>
          simp only [hu] at h
          cases h
        | ok x₁ =>
          simp only [hu] at h
          cases hi : insertAuditRows as x₁ with
          | error e =>
            simp only [hi] at h
            cases h
          | ok x₂ =>
            simp only [hi] at h
            cases h
            obtain ⟨-, bs, hb, hbs⟩ := insertAuditRows_audit hi
            refine ⟨fun a ha => validateObjectAudit_describes (forM_ok hf a ha), bs, hbs, hrows, ?_⟩
            rw [hb, insertObjectRow_audit hu]

theorem appendAudit_audit (h : appendAudit a x = .ok ((), x')) :
    x'.objects = x.objects ∧ ∃ n, x'.audit = x.audit ++ [{ a with id := n }] := by
  unfold appendAudit at h
  cases hi : insertAuditRow a x with
  | error e =>
    rw [hi] at h
    cases h
  | ok x₁ =>
    rw [hi] at h
    cases h
    obtain ⟨ho, ha⟩ := insertAuditRow_audit hi
    exact ⟨ho, _, ha⟩

/-! ### what keeps the agreement -/

/-- a row written with an audit row that names its state -/
theorem Written.agrees {bs : List AuditEntry} (h : Written o bs x x') (hx : AuditsAgree x)
    (hb : ∀ b ∈ bs, Describes o b) (hsome : ∃ b ∈ bs, b.newState.isSome = true) :
    AuditsAgree x' := by
  intro X o' ho'
  rw [h.rows] at ho'
  rw [h.audit]
  by_cases hX : o.id = X
  · rw [if_pos hX] at ho'
    cases ho'
    subst hX
    apply newestState_named
    · intro b hmem hname
      obtain ⟨st, hst⟩ := Option.isSome_iff_exists.mp (Bool.and_eq_true_iff.mp hname).2
      rw [hst, (hb b hmem).2 st hst]
    · obtain ⟨b, hmem, hst⟩ := hsome
      exact ⟨b, hmem, names_self (hb b hmem).1 hst⟩
  · rw [if_neg hX] at ho'
    rw [newestState_skip]
    · exact hx X o' ho'
    · intro b hmem
      apply names_other
      rw [(hb b hmem).1]
      exact fun he => hX (Option.some.inj he)

/-- a row written without an audit row agrees exactly when its state is the old one -/
theorem Written.agrees_iff {old : ReclaimObject} (h : Written o [] x x') (hx : AuditsAgree x)
    (hold : x.objects.find? o.id = some old) :
    AuditsAgree x' ↔ o.lifecycleState = old.lifecycleState := by
  have haudit : x'.audit = x.audit := h.audit.trans (List.append_nil _)
  have hnew : x'.objects.find? o.id = some o := by rw [h.rows, if_pos rfl]
  constructor
  · intro hx'
    have hstate := hx' o.id o hnew
    rw [haudit, hx o.id old hold] at hstate
    exact (Option.some.inj hstate).symm
  · intro hstate X o' ho'
    rw [haudit]
    rw [h.rows] at ho'
    by_cases hX : o.id = X
    · rw [if_pos hX] at ho'
      cases ho'
      subst hX
      rw [hx o.id old hold, hstate]
    · rw [if_neg hX] at ho'
      exact hx X o' ho'

/-- an audit row that names no state, or the state of the row -/
theorem agrees_append {n : Nat} (hx : AuditsAgree x) (ho : x'.objects = x.objects)
    (ha : x'.audit = x.audit ++ [{ a with id := n }])
    (hname : ∀ X, a.names X = true →
      ∃ o, x.objects.find? X = some o ∧ a.newState = some o.lifecycleState) : AuditsAgree x' := by
  intro X o hX
  rw [ho] at hX
  rw [ha]
  by_cases hn : a.names X = true
  · obtain ⟨o', ho', hst⟩ := hname X hn
    cases hX.symm.trans ho'
    apply newestState_named
    · intro b hb _
      rw [List.mem_singleton.mp hb]
      exact hst
    · exact ⟨_, List.mem_singleton.mpr rfl, hn⟩
  · rw [newestState_skip]
    · exact hx X o hX
    · intro b hb
      rw [List.mem_singleton.mp hb]
      exact Bool.not_eq_true _ ▸ hn

end Store

/-- the store methods that neither write an object row nor append an audit row -/
def StoreOp.rowless : StoreOp → Bool
  | .createObject _ | .createObjectWithAudits _ _ | .updateObject _ | .updateObjectWithAudit _ _
  | .appendAudit _ => false
  | _ => true

/-- whatever the answer, the object rows and the audit log are those of `x` -/
def Untold {α : Type} (x : Store) (y : Res (α × Store)) : Prop :=
  ∀ a x', y = .ok (a, x') → x'.objects = x.objects ∧ x'.audit = x.audit

section
variable {α β : Type} {x : Store}

theorem untold_ok {a : α} {x' : Store} (ho : x'.objects = x.objects) (ha : x'.audit = x.audit) :
    Untold x (.ok (a, x')) := by
  intro b y hy
  cases hy
  exact ⟨ho, ha⟩

theorem untold_error {e : ReclaimError} : Untold x (.error e : Res (α × Store)) := by
  intro b y hy
  cases hy

theorem untold_bind {y : Res β} {f : β → Res (α × Store)} (h : ∀ b, Untold x (f b)) :
    Untold x (y >>= f) := by
  cases y with
  | error e => exact untold_error
  | ok b => exact h b

theorem untold_ite {c : Prop} [Decidable c] {y z : Res (α × Store)} (hy : Untold x y)
    (hz : Untold x z) : Untold x (if c then y else z) := by
  by_cases hc : c
  · rw [if_pos hc]
    exact hy
  · rw [if_neg hc]
    exact hz

/-- a check that may refuse -/
theorem untold_refuse {c : Prop} [Decidable c] {e : ReclaimError} {y : Res (α × Store)}
    (hy : Untold x y) : Untold x (if c then (throw e >>= fun _ : Unit => y) else y) :=
  untold_ite (untold_bind fun _ => hy) hy

end

theorem StoreOp.run_rowless {so : StoreOp} (hc : so.rowless = true) {x : Store} :
    Untold x (so.run x) := by
  cases so with
  | requireObject id =>
    show Untold x (Store.requireObject id x)
    unfold Store.requireObject
    cases x.objects.find? id with
    | none => exact untold_error
    | some o => exact untold_ok rfl rfl
  | addReplica r =>
    apply untold_bind
    intro _
    cases x.replicas.insert? r with
    | none => exact untold_error
    | some T => exact untold_ok rfl rfl
  | updateReplica r =>
    apply untold_bind
    intro _
    apply untold_bind
    intro _
    cases x.replicas.find? r.replicaId with
    | none => exact untold_error
    | some old => exact untold_ok rfl rfl
  | addLineageEdge p c k =>
    show Untold x (Store.addLineageEdge p c k x)
    unfold Store.addLineageEdge
    cases x.lineage.insert? ⟨p, c, k⟩ with
    | none => exact untold_ok rfl rfl
    | some T => exact untold_ok rfl rfl
  | lineageGraph => exact untold_bind fun _ => untold_ok rfl rfl
  | insertDedup e =>
    apply untold_bind
    intro _
    cases x.dedup.insert? e with
    | none => exact untold_error
    | some T => exact untold_ok rfl rfl
  | upsertDedup e =>
    apply untold_bind
    intro _
    cases x.dedup.insert? e with
    | none => exact untold_ok rfl rfl
    | some T => exact untold_ok rfl rfl
  | dedupAcquire h b =>
    show Untold x (Store.dedupAcquire h b x)
    unfold Store.dedupAcquire
    cases x.dedup.find? (h, b) with
    | none => exact untold_error
    | some e => exact untold_ite (untold_ok rfl rfl) untold_error
  | dedupRelease h b =>
    show Untold x (Store.dedupRelease h b x)
    unfold Store.dedupRelease
    cases x.dedup.find? (h, b) with
    | none => exact untold_error
    | some e => exact untold_ite untold_error (untold_ite (untold_ok rfl rfl) (untold_ok rfl rfl))
  | insertDecision d =>
    apply untold_refuse
    exact untold_bind fun _ => untold_bind fun _ => untold_ok rfl rfl
  | updateAttempt id st n =>
    show Untold x (Store.updateAttempt id st n x)
    unfold Store.updateAttempt
    cases x.attempts.find? id with
    | none => exact untold_error
    | some a => exact untold_ite (untold_ok rfl rfl) untold_error
  | reconcileAttempt id st n =>
    apply untold_ite untold_error
    cases x.attempts.find? id with
    | none => exact untold_error
    | some a => exact untold_ite (untold_ok rfl rfl) (untold_ite (untold_ok rfl rfl) untold_error)
  | updateReservation id st =>
    show Untold x (Store.updateReservation id st x)
    unfold Store.updateReservation
    cases x.reservations.find? id with
    | none => exact untold_error
    | some v => exact untold_ite (untold_ok rfl rfl) untold_error
  | createReclaimReservation j v a =>
    apply untold_refuse
    apply untold_refuse
    apply untold_bind
    intro _
    cases x.attempts.insert? a with
    | none => exact untold_error
    | some attempts =>
      cases x.reservations.insert? v with
      | none => exact untold_error
      | some reservations =>
        cases x.journal.insert? j with
        | none => exact untold_error
        | some journal => exact untold_ok rfl rfl
  | updateJournalPhase id ph n =>
    show Untold x (Store.updateJournalPhase id ph n x)
    unfold Store.updateJournalPhase
    cases Store.allowedPrior ph with
    | none => exact untold_error
    | some prior =>
      cases x.journal.find? id with
      | none => exact untold_error
      | some j => exact untold_ite (untold_ok rfl rfl) untold_error
  | startJournalPhysical id pl n =>
    apply untold_ite untold_error
    cases x.journal.find? id with
    | none => exact untold_error
    | some j => exact untold_ite (untold_ok rfl rfl) untold_error
  | coordinatorHeartbeat p b e n =>
    apply untold_bind
    exact fun _ => untold_ite (untold_ok rfl rfl) untold_error
  | insertArchive a =>
    apply untold_bind
    intro _
    apply untold_bind
    intro _
    cases x.archives.insert? a with
    | none => exact untold_error
    | some T => exact untold_ok rfl rfl
  | createObject o => cases hc
  | createObjectWithAudits o as => cases hc
  | updateObject o => cases hc
  | updateObjectWithAudit o a => cases hc
  | appendAudit a => cases hc
  | _ => exact untold_ok rfl rfl

/-! ## commands -/

section
variable {env : Env} {t : Tid} {c : Cmd} {i : Input} {w w' : World} {r : c.Reply} {g : Grip}

/-- only store calls change the store -/
theorem exec_unstored (hno : ∀ so, c ≠ .store so) (h : exec env t c i w = some (r, w')) :
    w'.store = w.store := by
  have hpayload {b k : String} (hk : w' = w ∨ ∃ v, w' = w.setPayload b k v) :
      w'.store = w.store := by
    rcases hk with rfl | ⟨v, rfl⟩
    · rfl
    · rfl
  have hblob {b k : String} (hk : w' = w ∨ ∃ v, w' = w.setBlob b k v) : w'.store = w.store := by
    rcases hk with rfl | ⟨v, rfl⟩
    · rfl
    · rfl
  by_cases hc : c.apart = true
  · cases c with
    | store so => exact absurd rfl (hno so)
    | newUuid =>
      simp only [exec] at h
      split at h
      · cases h
      · cases h
        rfl
    | hashOrder n =>
      simp only [exec] at h
      split at h
      · cases h
        rfl
      · cases h
    | get b k =>
      have hs := execGet_snd (w.proc.config.backend b) b k i w
      simp only [exec, Option.some.injEq] at h
      rw [h] at hs
      exact congrArg World.store hs
    | exists_ b k =>
      have hs := execExists_snd (w.proc.config.backend b) b k i w
      simp only [exec, Option.some.injEq] at h
      rw [h] at hs
      exact congrArg World.store hs
    | archiveRead a k =>
      have hs := execArchiveRead_snd a k i w
      simp only [exec, Option.some.injEq] at h
      rw [h] at hs
      exact congrArg World.store hs
    | archiveExists a k =>
      have hs := execArchiveExists_snd a k i w
      simp only [exec, Option.some.injEq] at h
      rw [h] at hs
      exact congrArg World.store hs
    | put b k d => exact @hpayload b k (exec_onPayload (by exact decide_eq_true ⟨rfl, rfl⟩) h)
    | delete b k => exact @hpayload b k (exec_onPayload (by exact decide_eq_true ⟨rfl, rfl⟩) h)
    | node n b k op => exact @hpayload b k (exec_onPayload (by exact decide_eq_true ⟨rfl, rfl⟩) h)
    | archiveWrite a k d x => exact @hblob a k (exec_onBlob (by exact decide_eq_true ⟨rfl, rfl⟩) h)
    | archiveDelete a k => exact @hblob a k (exec_onBlob (by exact decide_eq_true ⟨rfl, rfl⟩) h)
    | _ =>
      first
        | (cases h
           rfl)
        | cases hc
  · exact exec_guard hc hno h

/-- a store call that returns had no fault -/
theorem exec_faultless {so : StoreOp} {b : so.Out}
    (h : exec env t (.store so) i w = some (.ok b, w')) : i.fault = none := by
  simp only [exec, Option.some.injEq] at h
  unfold execStore at h
  cases hf : i.fault with
  | none => rfl
  | some e =>
    rw [hf] at h
    cases h

/-- an audit row that is about the row written last -/
theorem Grip.announced (g : Grip) {a : AuditEntry} {X : Uuid} (hX : a.objectId = some X)
    (h : g.announces a = true) : ∃ st, g.noted = some (X, st) ∧ a.newState = some st := by
  unfold Grip.announces at h
  cases hn : g.noted with
  | none =>
    rw [hn] at h
    cases h
  | some x =>
    rw [hn] at h
    obtain ⟨hid, hst⟩ := Bool.and_eq_true_iff.mp h
    cases hX.symm.trans (of_decide_eq_true hid)
    exact ⟨x.2, rfl, of_decide_eq_true hst⟩

/-- a command other than a store call forgets the row written last, or keeps it under its guard -/
theorem after_unstored (hno : ∀ so, c ≠ .store so) : (g.after c r).noted = none ∨
    ((g.after c r).noted = g.noted ∧ (g.after c r).armed = g.armed) := by
  cases c with
  | store so => exact absurd rfl (hno so)
  | insertActiveObject id =>
    cases r with
    | ok u => exact .inl rfl
    | error e => exact .inr ⟨rfl, rfl⟩
  | insertActiveRecovery =>
    cases r with
    | ok u => exact .inl rfl
    | error e => exact .inr ⟨rfl, rfl⟩
  | pollPayloads ks =>
    cases r with
    | true => exact .inr ⟨rfl, rfl⟩
    | false => exact .inr ⟨rfl, rfl⟩
  | _ => first | exact .inl rfl | exact .inr ⟨rfl, rfl⟩

end

/-! ## runs -/

/-- a row that is written in a transaction of its own keeps its state -/
def PlainStep (c : Cmd) (i : Input) (w : Traced) : Prop :=
  ∀ o x, c = .store (.updateObject o) → i.fault = none → w.store.updateObject o = .ok ((), x) →
    ∀ old, rowOf w o.id = some old → o.lifecycleState = old.lifecycleState

def plainRun : Mode := stepwise fun _ c i w => PlainStep c i w

/-- the row written last is still as it was written, and its guard is held -/
def Noted (w : Traced) (g : Grip) : Prop :=
  ∀ X st, g.noted = some (X, st) → g.armed = true ∧ (g.role = .object X ∨ g.role = .recovery) ∧
    ∃ o, rowOf w X = some o ∧ o.lifecycleState = st

/-- the threads go on as their grips allow, and what the audit log does not name yet is noted -/
structure Told (s : Sys) (grip : Tid → Grip) : Prop where
  gripped : Gripped s grip
  agree : AuditsAgree s.shared.store
  noted : ∀ t, Noted s.shared (grip t)

section
variable {env : Env} {s s' : Sys} {grip : Tid → Grip} {t u : Tid} {i : Input} {X : Uuid}
  {w w' : Traced} {g g' : Grip}

theorem noted_none (h : g.noted = none) : Noted w g := by
  intro X st hX
  rw [h] at hX
  cases hX

theorem Noted.congr (h : Noted w g) (hrow : ∀ X, rowOf w' X = rowOf w X)
    (hnoted : g'.noted = g.noted) (harmed : g'.armed = g.armed) (hrole : g'.role = g.role) :
    Noted w' g' := by
  intro X st hX
  rw [hnoted] at hX
  rw [harmed, hrole, hrow]
  exact h X st hX

/-- who wrote the row of `X` last holds `X` or recovers -/
theorem Gripped.holds (h : Gripped s grip) (ha : (grip u).armed = true)
    (hr : (grip u).role = .object X ∨ (grip u).role = .recovery) :
    Own u X s.shared ∨ Recovering u s.shared := by
  have hentry := h.recorded.entry u
  unfold Grip.armed at ha
  rcases hr with hr | hr
  · rw [hr] at ha
    exact .inl ((hentry.object X).mpr (of_decide_eq_true ha))
  · rw [hr] at ha
    exact .inr (hentry.recovering.mp ha)

/-- a step leaves the row of an object alone, or writes it for one of the reasons there are -/
theorem Reach.row_step (h : Reach env anyRun s) (hn : s.next env (.step t i) = some s')
    (X : Uuid) : rowOf s'.shared X = rowOf s.shared X ∨
      ∃ op o, rowOf s'.shared X = some o ∧ RowJust Regime.free t op s.shared X o := by
  cases h.free.moved Regime.free_collisionless (Regime.free_mode _) hn with
  | stepped _ hg =>
    exact (hg.row_cases X).imp id fun ⟨o, ho, hj⟩ => ⟨_, o, ho, hj⟩
  | finished _ hl hs =>
    rw [hs]
    exact (hl.row_cases X).imp id fun ⟨o, ho, hj⟩ => ⟨_, o, ho, hj⟩

/-- two threads do not hold one object, and nobody holds one during a recovery -/
theorem Undisputed.one (h : Undisputed s) (ht : Own t X s.shared ∨ Recovering t s.shared)
    (hu : Own u X s.shared ∨ Recovering u s.shared) : u = t := by
  rcases ht with ht | ht
  · rcases hu with hu | hu
    · exact h.objects X u t hu ht
    · exact absurd ht ((h.alone u hu t).1 X)
  · rcases hu with hu | hu
    · exact absurd hu ((h.alone t ht u).1 X)
    · exact Option.some.inj (hu.symm.trans ht)

/-- a step of one thread leaves alone what another has noted -/
theorem Told.others (h : Told s grip) (hr : Reach env anyRun s)
    (hn : s.next env (.step t i) = some s') (hu : u ≠ t) : Noted s'.shared (grip u) := by
  intro X st hX
  obtain ⟨ha, hrole, o, ho, hst⟩ := h.noted u X st hX
  refine ⟨ha, hrole, ?_⟩
  rcases hr.row_step hn X with hsame | ⟨_, _, _, hj⟩
  · exact ⟨o, hsame.trans ho, hst⟩
  · exact absurd (h.gripped.undisputed.one hj.holder (h.gripped.holds ha hrole)) hu

/-- nobody takes the place of a missing row without an audit row -/
theorem Told.not_created (h : Told s grip) (hr : Reach env anyRun s)
    (hn : s.next env (.step t i) = some s') {o : ReclaimObject}
    (hallow : (grip t).allows (.store (.createObject o)) = true) :
    ¬∃ T, s.shared.store.objects.insert? o = some T ∧ s'.shared.store.objects = T := by
  rintro ⟨T, hT, hs'⟩
  have hnone : rowOf s.shared o.id = none := (Table.insert?_eq_some hT).1
  have hsome : rowOf s'.shared o.id = some o := by
    rw [rowOf, hs', Table.find?_insert? hT, if_pos rfl]
  have hrecovering : Recovering t s.shared := by
    obtain ⟨ha, hrole⟩ := Bool.and_eq_true_iff.mp hallow
    have hrole := of_decide_eq_true hrole
    unfold Grip.armed at ha
    rw [hrole] at ha
    exact (h.gripped.recorded.entry t).recovering.mp ha
  have hi := hr.free.inv Regime.free_collisionless
  rcases hr.row_step hn o.id with hsame | ⟨_, _, _, hj⟩
  · rw [hsame, hnone] at hsome
    cases hsome
  · cases hj with
    | create hX => exact (h.gripped.undisputed.alone t hrecovering t).1 _ hX
    | flags _ hrow => cases hnone.symm.trans hrow
    | tier _ hrow => cases hnone.symm.trans hrow
    | route _ hrow => cases hnone.symm.trans hrow
    | abort _ hrow => cases hnone.symm.trans hrow
    | commit _ _ hrow => cases hnone.symm.trans hrow
    | recommit _ _ hrow => cases hnone.symm.trans hrow
    | abandon _ _ hrow => cases hnone.symm.trans hrow
    | rollback _ _ hj hX =>
      -- the object of a journal row has a row
      obtain ⟨S, plan, hrec⟩ := hi.journal _ hj
      obtain ⟨o', ho', -⟩ := hrec.row
      rw [hX] at ho'
      cases hnone.symm.trans ho'

/-- a store call that the grip allows -/
theorem Told.stored (h : Told s grip) (hr : Reach env anyRun s)
    (hn : s.next env (.step t i) = some s') {so : StoreOp} {r : Res so.Out}
    (hallow : (grip t).allows (.store so) = true)
    (he : exec env t (.store so) i s.shared.toWorld = some (r, s'.shared.toWorld))
    (hplain : PlainStep (.store so) i s.shared) :
    AuditsAgree s'.shared.store ∧ Noted s'.shared ((grip t).after (.store so) r) := by
  rcases (exec_store he).2 with ⟨e, rfl, hs⟩ | ⟨a, rfl, hrun⟩
  · have hafter : (grip t).after (.store so) (.error e) = grip t := by
      cases so <;> rfl
    rw [hafter, hs]
    refine ⟨h.agree, (h.noted t).congr (fun X => ?_) rfl rfl rfl⟩
    rw [rowOf, rowOf, hs]
  by_cases hc : so.rowless = true
  · have hafter : (grip t).after (.store so) (.ok a) = grip t := by
      cases so <;> first | rfl | cases hc
    obtain ⟨ho, ha⟩ := StoreOp.run_rowless hc a _ hrun
    rw [hafter]
    constructor
    · intro X o hX
      rw [ho] at hX
      rw [ha]
      exact h.agree X o hX
    · refine (h.noted t).congr (fun X => ?_) rfl rfl rfl
      rw [rowOf, rowOf, ho]
  · cases so with
    | updateObject o =>
      obtain ⟨⟨old, hold⟩, hw⟩ := Store.updateObject_written hrun
      have hstate := hplain o _ rfl (exec_faultless he) hrun old hold
      refine ⟨(hw.agrees_iff h.agree hold).mpr hstate, ?_⟩
      intro X st hX
      cases hX
      obtain ⟨ha, hrole⟩ := Bool.and_eq_true_iff.mp hallow
      refine ⟨ha, ?_, o, ?_, rfl⟩
      · rcases Bool.or_eq_true_iff.mp hrole with hrole | hrole
        · exact .inr (of_decide_eq_true hrole)
        · exact .inl (of_decide_eq_true hrole)
      · rw [rowOf, hw.rows, if_pos rfl]
    | createObject o =>
      obtain ⟨-, -, T, hT, hd⟩ := Store.createObject_ok hrun
      exact absurd ⟨T, hT, congrArg Data.objects hd⟩ (h.not_created hr hn hallow)
    | updateObjectWithAudit o a =>
      obtain ⟨hdesc, n, hw⟩ := Store.updateObjectWithAudit_written hrun
      simp only [Grip.allows, Bool.and_eq_true, Option.isNone_iff_eq_none] at hallow
      refine ⟨hw.agrees h.agree ?_ ?_, noted_none hallow.1.2⟩
      · intro b hb
        rw [List.mem_singleton.mp hb]
        exact hdesc
      · exact ⟨_, List.mem_singleton.mpr rfl, hallow.2⟩
    | createObjectWithAudits o as =>
      obtain ⟨hdesc, bs, hbs, hw⟩ := Store.createObjectWithAudits_written hrun
      simp only [Grip.allows, Bool.and_eq_true, Option.isNone_iff_eq_none,
        List.any_eq_true] at hallow
      refine ⟨hw.agrees h.agree ?_ ?_, noted_none hallow.1.2⟩
      · intro b hb
        obtain ⟨a, ha, hab⟩ := List.mem_map.mp (hbs ▸ List.mem_map_of_mem (f := Store.told) hb)
        obtain ⟨hid, hst⟩ := Prod.mk.inj hab
        have hd := hdesc a ha
        exact ⟨hid.symm.trans hd.1, fun st hs => hd.2 st (hst.trans hs)⟩
      · obtain ⟨a, ha, hsome⟩ := hallow.2
        obtain ⟨b, hb, hab⟩ := List.mem_map.mp (hbs.symm ▸ List.mem_map_of_mem (f := Store.told) ha)
        obtain ⟨-, hst⟩ := Prod.mk.inj hab
        exact ⟨b, hb, by rw [hst]; exact hsome⟩
    | appendAudit a =>
      obtain ⟨ho, n, ha⟩ := Store.appendAudit_audit hrun
      refine ⟨Store.agrees_append h.agree ho ha ?_, ?_⟩
      · intro X hname
        obtain ⟨hX, hsome⟩ := Bool.and_eq_true_iff.mp hname
        rcases Bool.or_eq_true_iff.mp (Bool.and_eq_true_iff.mp hallow).2 with hnone | hann
        · rw [Option.isNone_iff_eq_none.mp hnone] at hsome
          cases hsome
        · obtain ⟨st, hnoted, hst⟩ := (grip t).announced (of_decide_eq_true hX) hann
          obtain ⟨-, -, o, ho, hstate⟩ := h.noted t X st hnoted
          exact ⟨o, ho, hst.trans (congrArg some hstate.symm)⟩
      · refine (h.noted t).congr (fun X => ?_) rfl rfl rfl
        rw [rowOf, rowOf, ho]
    | _ => exact absurd rfl hc

theorem Told.step (h : Told s grip) (hr : Reach env anyRun s)
    (hm : plainRun s (.step t i)) (hn : s.next env (.step t i) = some s') :
    ∃ grip', Told s' grip' := by
  obtain ⟨th, c, k, r, hth, hk, he, hallow, hg⟩ := h.gripped.step hn
  have hmine : AuditsAgree s'.shared.store ∧ Noted s'.shared ((grip t).after c r) := by
    by_cases hc : ∃ so, c = .store so
    · obtain ⟨so, rfl⟩ := hc
      exact h.stored hr hn hallow he (hm th _ k hth hk)
    · have hno : ∀ so, c ≠ .store so := fun so hso => hc ⟨so, hso⟩
      have hs := exec_unstored hno he
      constructor
      · rw [hs]
        exact h.agree
      · rcases after_unstored (g := grip t) (r := r) hno with hnone | ⟨hnoted, harmed⟩
        · exact noted_none hnone
        · refine (h.noted t).congr (fun X => ?_) hnoted harmed (after_role _ _)
          rw [rowOf, rowOf, hs]
  refine ⟨_, hg, hmine.1, ?_⟩
  intro u
  by_cases hu : u = t
  · subst hu
    rw [Function.update_self]
    exact hmine.2
  · rw [Function.update_of_ne hu]
    exact h.others hr hn hu

theorem claim_untold {x : Store} {p : String} {b : Uuid} {now stale : Int} :
    Untold x (x.claimCoordinator p b now stale) := by
  apply untold_ite untold_error
  apply untold_ite untold_error
  cases x.coordinator with
  | none => exact untold_ok rfl rfl
  | some c => exact untold_ite (untold_ite (untold_ok rfl rfl) untold_error) untold_error

/-- a new process finds the rows and the audit log of the old one -/
theorem restart_untold {config : Config} {bootId : Uuid} {now : Int}
    (hn : s.next env (.restart config bootId now) = some s') :
    s'.shared.store.objects = s.shared.store.objects ∧
      s'.shared.store.audit = s.shared.store.audit := by
  have hn : s.restart env config bootId now = some s' := hn
  unfold Sys.restart at hn
  split at hn
  · cases hn
  · split at hn
    · cases hn
    · next epoch store hc =>
      cases hn
      exact claim_untold epoch store hc

theorem Told.next {l : Label} (h : Told s grip) (hr : Reach env anyRun s) (hm : plainRun s l)
    (hn : s.next env l = some s') : ∃ grip', Told s' grip' := by
  cases l with
  | start t op =>
    cases Sys.went hn with
    | started hw =>
      refine ⟨_, h.gripped.start hn, ?_, ?_⟩
      · rw [hw]
        exact h.agree
      · intro u
        by_cases hu : u = t
        · subst hu
          rw [Function.update_self]
          exact noted_none rfl
        · rw [Function.update_of_ne hu]
          refine (h.noted u).congr (fun X => ?_) rfl rfl rfl
          rw [rowOf, rowOf, hw]
  | step t i => exact h.step hr hm hn
  | restart config bootId now =>
    refine ⟨_, Gripped.restart hn, ?_, fun _ => noted_none rfl⟩
    obtain ⟨ho, ha⟩ := restart_untold hn
    intro X o hX
    rw [ho] at hX
    rw [ha]
    exact h.agree X o hX

theorem plainRun_any (s : Sys) (l : Label) (_ : plainRun s l) : anyRun s l := trivial

theorem Reach.told (h : Reach env plainRun s) : ∃ grip, Told s grip := by
  induction h with
  | init =>
    refine ⟨fun _ => Grip.start .free, ⟨start_recorded, fun _ => ⟨_, rfl⟩⟩, ?_, ?_⟩
    · intro X o hX
      cases hX
    · exact fun _ => noted_none rfl
  | next l h hm hn ih =>
    obtain ⟨grip, hg⟩ := ih
    exact hg.next (h.mono plainRun_any) hm hn

/-- a label that writes a row another state without an audit row leads out of the agreement -/
theorem Told.plain_of_agrees {l : Label} (h : Told s grip) (hn : s.next env l = some s')
    (ha : AuditsAgree s'.shared.store) : plainRun s l := by
  cases l with
  | start t op => trivial
  | restart config bootId now => trivial
  | step t i =>
    obtain ⟨th', c', k', r, hth', hk', he, -, -⟩ := h.gripped.step hn
    intro th c k hth hk o x hc hfault hrun old hold
    cases hth.symm.trans hth'
    cases hk.symm.trans hk'
    subst hc
    simp only [exec, execStore, hfault, StoreOp.run, hrun, Option.some.injEq] at he
    have hs' : s'.shared.store = x := (congrArg (fun y => y.2.store) he).symm
    rw [hs'] at ha
    exact ((Store.updateObject_written hrun).2.agrees_iff h.agree hold).mp ha

/-- **The audit log names the state of every row** in the runs in which no row gets another state
in a transaction of its own, and only as long as this is so. -/
theorem audits_agree (h : Reach env plainRun s) :
    AuditsAgree s.shared.store ∧
      ∀ l s', s.next env l = some s' → (AuditsAgree s'.shared.store ↔ plainRun s l) := by
  obtain ⟨grip, hg⟩ := h.told
  refine ⟨hg.agree, fun l s' hn => ⟨hg.plain_of_agrees hn, fun hm => ?_⟩⟩
  obtain ⟨grip', hg'⟩ := hg.next (h.mono plainRun_any) hm hn
  exact hg'.agree

end

namespace Sample

/-- a decidable check: no row is written in a transaction of its own -/
def plain (s : Sys) : Label → Bool
  | .step t _ =>
    match s.threads t with
    | none => true
    | some th =>
      match th.rest with
      | .call (.store (.updateObject _)) _ => false
      | _ => true
  | _ => true

theorem plain_ok (s : Sys) (l : Label) (h : plain s l = true) : plainRun s l := by
  cases l with
  | start t op => trivial
  | restart config bootId now => trivial
  | step t i =>
    intro th c k hth hk o x hc
    subst hc
    simp only [plain, hth, hk] at h
    cases h

/-- an object is registered and archived -/
def shelved (ok : Sys → Label → Bool) : Option Sys :=
  after ok (after ok (opened ok) (register (object 10) "a") 200) (.archive (uuid 10) "client") 300

theorem reached_shelved {mode : Mode} {ok : Sys → Label → Bool}
    (hok : ∀ s l, ok s l = true → mode s l) (hm : mode Sys.init (.restart config (uuid 1) 5000)) :
    Reached mode (shelved ok) := ((reached_opened hok hm).after hok).after hok

theorem shelved_state : (shelved plain).any (fun s =>
    (rowOf s.shared (uuid 10)).any fun o => decide (o.lifecycleState = .archived)) = true := by
  decide +kernel

/-- its restore has written the row and not yet the audit row -/
def halfRestored : Option Sys :=
  during free 1 (shelved free) (.restore (uuid 10) "client") (calm 500) 60

theorem halfRestored_state : halfRestored.any (fun s =>
    (rowOf s.shared (uuid 10)).any fun o => decide (o.lifecycleState = .warm) &&
      decide (newestState (uuid 10) s.shared.store.audit = some .archived)) = true := by
  decide +kernel

end Sample

theorem audits_agree_shelved : ∃ s o, Reach Sample.env plainRun s ∧
    rowOf s.shared (Sample.uuid 10) = some o ∧ o.lifecycleState = .archived ∧
    AuditsAgree s.shared.store ∧
      ∀ l s', s.next Sample.env l = some s' → (AuditsAgree s'.shared.store ↔ plainRun s l) := by
  obtain ⟨s, hs, h⟩ := (Option.any_eq_true _ _).mp Sample.shelved_state
  obtain ⟨o, ho, hst⟩ := (Option.any_eq_true _ _).mp h
  have hr := Sample.reached_shelved Sample.plain_ok trivial s hs
  exact ⟨s, o, hr, ho, of_decide_eq_true hst, audits_agree hr⟩

/-- a restore has made the object WARM, and the audit log still says ARCHIVED -/
theorem restore_disagrees : ¬∀ (env : Env) (s : Sys), Reach env anyRun s →
    ∀ X o, rowOf s.shared X = some o →
      newestState X s.shared.store.audit = some o.lifecycleState := by
  intro hall
  obtain ⟨s, hs, h⟩ := (Option.any_eq_true _ _).mp Sample.halfRestored_state
  obtain ⟨o, ho, h⟩ := (Option.any_eq_true _ _).mp h
  obtain ⟨hwarm, hnewest⟩ := Bool.and_eq_true_iff.mp h
  have hr := (Sample.reached_shelved Sample.free_ok trivial).during Sample.free_ok s hs
  have hagree := hall Sample.env s hr (Sample.uuid 10) o ho
  rw [of_decide_eq_true hwarm, of_decide_eq_true hnewest] at hagree
  cases hagree

end ReclaimFabric
