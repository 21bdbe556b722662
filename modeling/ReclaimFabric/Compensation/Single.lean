import ReclaimFabric.Logic.Alone
import ReclaimFabric.Safety.Modes

/-!
# Runs in which at most one store call fails

* `Traced.failures`    the store methods that have failed since an operation started;
* `StoreOp.metadata`   the store calls of the metadata sections of compress and restore;
* `lone`               at most one store call fails and the compensation after it succeeds;
* `Clean`              no call of a metadata section has failed yet.
-/

set_option linter.unusedSectionVars false

namespace ReclaimFabric

open Prog (Ran Only attempt settle)

/-! ## failures -/

/-- a count that the object row cannot hold -/
def StoreOp.overflows : (so : StoreOp) → so.Out → Bool
  | .validReplicaCount _, count => decide (2 ^ 32 ≤ count)
  | _, _ => false

/-- the step fails: its call returns an error, or a count that does not fit -/
def StoreOp.failed (so : StoreOp) : Res so.Out → Bool
  | .ok a => so.overflows a
  | .error _ => true

/-- the store method that failed in this step -/
def Event.failure : Event → Option StoreOp
  | .call _ _ (.store so) r _ => if so.failed r then some so else none
  | _ => none

/-- the store methods that have failed since the record had `n` entries, newest first -/
def Traced.failures (n : Nat) (w : Traced) : List StoreOp :=
  (w.log.take (w.log.length - n)).filterMap Event.failure

/-- the store calls of the metadata sections -/
def StoreOp.metadata : StoreOp → Bool
  | .insertDedup _ => true
  | .dedupAcquire _ _ => true
  | .dedupRelease _ _ => true
  | .addReplica _ => true
  | .deleteReplica _ => true
  | .validReplicaCount _ => true
  | .updateObject _ => true
  | .updateObjectWithAudit _ _ => true
  | .appendAudit _ => true
  | _ => false

theorem StoreOp.not_metadata_of_query {so : StoreOp} (h : so.query = true) :
    so.metadata = false := by
  cases so with
  | getObject id => rfl
  | requireObject id => rfl
  | replicasFor id => rfl
  | getDedup h b => rfl
  | archivesFor id => rfl
  | coordinatorHeartbeat p b e n => rfl
  | _ => cases h

/-! ## references -/

/-- the dedup row that counts the new replica -/
def referenced (existing : Option DedupEntry) (new : Replica) : DedupEntry :=
  match existing with
  | some e => { e with refCount := e.refCount + 1 }
  | none => ⟨new.contentHash, new.location.backend, new.location.key, 1, new.size⟩

/-- the dedup row after one reference has gone -/
def unreferenced (e : DedupEntry) : Option DedupEntry :=
  if e.refCount = 1 then none else some { e with refCount := e.refCount - 1 }

/-- the reference that was added goes again; it was the only one when the row is new -/
theorem unreferenced_referenced {existing : Option DedupEntry} (new : Replica)
    (h : ∀ e, existing = some e → e.refCount ≠ 0) :
    unreferenced (referenced existing new) = existing ∧
      ((referenced existing new).refCount = 1 → existing = none) := by
  cases existing with
  | none => exact ⟨rfl, fun _ => rfl⟩
  | some x =>
    have hx : x.refCount ≠ 0 := h x rfl
    have hne : x.refCount + 1 ≠ 1 := by omega
    refine ⟨?_, fun hone => absurd hone hne⟩
    show (if x.refCount + 1 = 1 then none else some { x with refCount := x.refCount + 1 - 1 }) = _
    rw [if_neg hne]
    rfl

/-! ## one failure -/

section
variable (B : Set Bytes) [DecidablePred (· ∈ B)] (n : Nat)

/-- at most one store call fails, the authority is kept after it, and reads deliver bytes of `B` -/
def lone : Gate
  | .store so, _, w, r => !so.failed r || (w.failures n).isEmpty
  | .loadAuthorityLost, _, w, true => (w.failures n).isEmpty
  | c, _, _, r => (c.delivers r).all fun d => decide (d ∈ B)

end

section
variable {B : Set Bytes} [DecidablePred (· ∈ B)] {n : Nat} {env : Env} {t : Tid} {op : Op}
  {w w₁ w' : Traced} {ok : Gate}

theorem failures_append {l : List Event} (hn : n ≤ w.log.length) (hl : w'.log = l ++ w.log) :
    w'.failures n = l.filterMap Event.failure ++ w.failures n := by
  have hlen : (l ++ w.log).length - n = l.length + (w.log.length - n) := by
    rw [List.length_append]
    omega
  rw [Traced.failures, hl, hlen, List.take_length_add_append, List.filterMap_append]
  rfl

/-- a step is recorded -/
theorem gated_log {c : Cmd} {i : Input} {r : c.Reply} (h : gated ok env t op c i w = some (r, w')) :
    w'.log = .call t op c r w.toWorld :: w.log := by
  obtain ⟨⟨x, y⟩, hy, hw⟩ := Option.map_eq_some_iff.mp (gated_eq_some.mp h).1
  cases hw
  rfl

theorem gated_length {c : Cmd} {i : Input} {r : c.Reply} (hn : n ≤ w.log.length)
    (h : gated ok env t op c i w = some (r, w')) : n ≤ w'.log.length := by
  rw [gated_log h, List.length_cons]
  omega

theorem gated_failures {c : Cmd} {i : Input} {r : c.Reply} (hn : n ≤ w.log.length)
    (h : gated ok env t op c i w = some (r, w')) :
    w'.failures n = (Event.call t op c r w.toWorld).failure.toList ++ w.failures n := by
  rw [failures_append hn (l := [_]) (gated_log h)]
  cases hf : (Event.call t op c r w.toWorld).failure with
  | none => rw [List.filterMap_cons_none hf]; rfl
  | some so => rw [List.filterMap_cons_some hf]; rfl

theorem OnTables.length (h : OnTables w w') (hn : n ≤ w.log.length) : n ≤ w'.log.length := by
  obtain ⟨l, hl⟩ := h.log
  rw [hl, List.length_append]
  omega

/-! ## the one failure -/

/-- a store call under the gate -/
theorem lone_store {so : StoreOp} {i : Input} {r : Res so.Out} (hn : n ≤ w.log.length)
    (h : gated (lone B n) env t op (.store so) i w = some (r, w')) :
    (∃ err, r = .error err ∧ Rests w w' ∧ w.failures n = [] ∧ w'.failures n = [so]) ∨
      ∃ a, r = .ok a ∧ so.run w.store = .ok (a, w'.store) ∧ OnTables w w' ∧
        (so.overflows a = true ∧ w'.failures n = [so] ∨
          so.overflows a = false ∧ w'.failures n = w.failures n) := by
  have hfail := gated_failures hn h
  have hgate : (!so.failed r || (w.failures n).isEmpty) = true := (gated_eq_some.mp h).2
  have hempty (hf : so.failed r = true) : w.failures n = [] := by
    rw [hf] at hgate
    exact List.isEmpty_iff.mp hgate
  rcases gated_store h with ⟨err, rfl, hs⟩ | ⟨a, rfl, hrun, hon⟩
  · refine .inl ⟨err, rfl, hs, hempty rfl, ?_⟩
    rw [hfail, hempty rfl]
    rfl
  · refine .inr ⟨a, rfl, hrun, hon, ?_⟩
    cases ho : so.overflows a with
    | true =>
      refine .inl ⟨rfl, ?_⟩
      rw [hfail, hempty ho]
      show (if so.overflows a = true then some so else none).toList ++ [] = [so]
      rw [ho]
      rfl
    | false =>
      refine .inr ⟨rfl, ?_⟩
      rw [hfail]
      show (if so.overflows a = true then some so else none).toList ++ _ = _
      rw [ho]
      rfl

/-- after the failure nothing fails -/
theorem lone_step {c : Cmd} {i : Input} {r : c.Reply} (hn : n ≤ w.log.length)
    (hf : w.failures n ≠ []) (h : gated (lone B n) env t op c i w = some (r, w')) :
    w'.failures n = w.failures n := by
  rw [gated_failures hn h]
  cases c with
  | store so =>
    have hgate : (!so.failed r || (w.failures n).isEmpty) = true := (gated_eq_some.mp h).2
    have hok : so.failed r = false := by
      rw [List.isEmpty_eq_false_iff.mpr hf, Bool.or_false] at hgate
      exact Bool.not_eq_true' _ ▸ hgate
    show (if so.failed r = true then some so else none).toList ++ _ = _
    rw [hok]
    rfl
  | _ => rfl

/-- after the failure a store call is carried out -/
theorem lone_sure {so : StoreOp} {r : Res so.Out} (hn : n ≤ w.log.length) (hf : w.failures n ≠ [])
    (h : Ran (gated (lone B n) env t op) (Coordinator.store so).run w r w') :
    ∃ a, r = .ok a ∧ so.run w.store = .ok (a, w'.store) ∧ OnTables w w' ∧
      w'.failures n = w.failures n := by
  obtain ⟨i, he⟩ := ran_storeCall h
  rcases lone_store hn he with ⟨_, -, -, hempty, -⟩ | ⟨a, hr, hrun, hon, -⟩
  · exact absurd hempty hf
  · exact ⟨a, hr, hrun, hon, lone_step hn hf he⟩

/-- the same with what follows -/
theorem lone_sure_seq {α : Type} {so : StoreOp} {f : so.Out → M α} {r : Res α}
    (hn : n ≤ w.log.length) (hf : w.failures n ≠ [])
    (h : Ran (gated (lone B n) env t op) (Coordinator.store so >>= f).run w r w') :
    ∃ a w₁, so.run w.store = .ok (a, w₁.store) ∧ OnTables w w₁ ∧ w₁.failures n = w.failures n ∧
      Ran (gated (lone B n) env t op) (f a).run w₁ r w' := by
  rcases ran_seq.mp h with ⟨_, -, hx⟩ | ⟨a, w₁, hx, h⟩
  · obtain ⟨_, hno, -⟩ := lone_sure hn hf hx
    cases hno
  · obtain ⟨b, hb, hrun, hon, hf⟩ := lone_sure hn hf hx
    cases hb
    exact ⟨a, w₁, hrun, hon, hf, h⟩

/-- an attempted call: it fails, or it is carried out -/
theorem lone_attempt {α : Type} {so : StoreOp} {f : Res so.Out → M α} {r : Res α}
    (hn : n ≤ w.log.length) (hso : ∀ a, so.overflows a = false)
    (h : Ran (gated (lone B n) env t op) (attempt (Coordinator.store so) >>= f).run w r w') :
    (∃ e w₁, Rests w w₁ ∧ w₁.failures n ≠ [] ∧
        Ran (gated (lone B n) env t op) (f (.error e)).run w₁ r w') ∨
      ∃ a w₁, so.run w.store = .ok (a, w₁.store) ∧ OnTables w w₁ ∧ w₁.failures n = w.failures n ∧
        Ran (gated (lone B n) env t op) (f (.ok a)).run w₁ r w' := by
  obtain ⟨o, w₁, hx, h⟩ := ran_attempt_seq h
  obtain ⟨i, he⟩ := ran_storeCall hx
  rcases lone_store hn he with ⟨e, rfl, hs, -, hf⟩ | ⟨a, rfl, hrun, hon, hf⟩
  · refine .inl ⟨e, w₁, hs, ?_, h⟩
    rw [hf]
    exact List.cons_ne_nil _ _
  · rcases hf with ⟨hover, -⟩ | ⟨-, hf⟩
    · rw [hso a] at hover
      cases hover
    · exact .inr ⟨a, w₁, hrun, hon, hf, h⟩

theorem gated_ran_log {α : Type} {x : M α} {r : Res α}
    (h : Ran (gated ok env t op) x.run w r w') : ∃ l, w'.log = l ++ w.log := by
  refine h.keeps (K := fun v => ∃ l, v.log = l ++ w.log) ?_ ⟨[], rfl⟩
  rintro c i v r v' he ⟨l, hl⟩
  exact ⟨_ :: l, by rw [gated_log he, hl]; rfl⟩

theorem gated_ran_length {α : Type} {x : M α} {r : Res α} (hn : n ≤ w.log.length)
    (h : Ran (gated ok env t op) x.run w r w') : n ≤ w'.log.length := by
  obtain ⟨l, hl⟩ := gated_ran_log h
  rw [hl, List.length_append]
  omega

theorem lone_ran {α : Type} {x : M α} {r : Res α} (hn : n ≤ w.log.length) (hf : w.failures n ≠ [])
    (h : Ran (gated (lone B n) env t op) x.run w r w') : w'.failures n = w.failures n := by
  refine (h.keeps (K := fun v => n ≤ v.log.length ∧ v.failures n = w.failures n) ?_ ⟨hn, rfl⟩).2
  rintro c i v r v' he ⟨hn, hsame⟩
  rw [← hsame] at hf ⊢
  exact ⟨gated_length hn he, lone_step hn hf he⟩

/-- what was recorded stays recorded -/
theorem failures_ne_nil (hn : n ≤ w.log.length) (hf : w.failures n ≠ [])
    (hlog : ∃ l, w'.log = l ++ w.log) : w'.failures n ≠ [] := by
  obtain ⟨l, hl⟩ := hlog
  rw [failures_append hn hl]
  exact fun h => hf (List.append_eq_nil_iff.mp h).2

theorem mem_failures {so : StoreOp} (hn : n ≤ w.log.length) (hlog : ∃ l, w'.log = l ++ w.log)
    (h : so ∈ w.failures n) : so ∈ w'.failures n := by
  obtain ⟨l, hl⟩ := hlog
  rw [failures_append hn hl]
  exact List.mem_append_right _ h

/-- only one call fails -/
theorem lone_single {α : Type} {x : M α} {r : Res α} (hn : n ≤ w.log.length)
    (hw : (w.failures n).length ≤ 1) (h : Ran (gated (lone B n) env t op) x.run w r w') :
    (w'.failures n).length ≤ 1 := by
  refine (h.keeps (K := fun v => n ≤ v.log.length ∧ (v.failures n).length ≤ 1) ?_ ⟨hn, hw⟩).2
  rintro c i v r v' he ⟨hn, hone⟩
  refine ⟨gated_length hn he, ?_⟩
  by_cases hf : v.failures n = []
  · rw [gated_failures hn he, hf, List.append_nil]
    exact Option.length_toList_le
  · rw [lone_step hn hf he]
    exact hone

theorem lone_unique {α : Type} {x : M α} {r : Res α} {so so' : StoreOp} (hn : n ≤ w.log.length)
    (hw : w.failures n = []) (h : Ran (gated (lone B n) env t op) x.run w r w')
    (hso : so ∈ w'.failures n) (hso' : so' ∈ w'.failures n) : so' = so := by
  have hlen : (w'.failures n).length ≤ 1 := by
    refine lone_single hn ?_ h
    rw [hw]
    exact Nat.zero_le 1
  obtain ⟨i, hi, rfl⟩ := List.getElem_of_mem hso
  obtain ⟨j, hj, rfl⟩ := List.getElem_of_mem hso'
  have hij : j = i := by omega
  subst hij
  rfl

/-- after the failure the sections are entered -/
theorem lone_assured (hn : n ≤ w.log.length) (hf : w.failures n ≠ []) : Assured (lone B n) w := by
  intro w₁ hlog
  have hne : (w₁.failures n).isEmpty = false :=
    List.isEmpty_eq_false_iff.mpr (failures_ne_nil hn hf hlog)
  refine ⟨fun _ => hne, fun _ _ _ _ _ _ => ?_⟩
  show (!true || (w₁.failures n).isEmpty) = false
  rw [hne]
  rfl

/-! ## a section that keeps flags -/

section
variable {P α : Type} {Applied : P → Data → Prop} {p : P}

/-- the section has ended: after a failure the tables are what its flags say -/
structure SectionEnd (Applied : P → Data → Prop) (n : Nat) (w : Traced) (r : Res (P × Res α))
    (w' : Traced) : Prop where
  tables : OnTables w w'
  outcome : ∃ p res, r = .ok (p, res) ∧
    ((∃ e, res = .error e) ∧ Applied p w'.store.data ∧ w'.failures n ≠ [] ∨
      (∃ a, res = .ok a) ∧ w'.failures n = w.failures n)

theorem SectionEnd.failed {e : ReclaimError} (hs : Rests w w') (hf : w'.failures n ≠ [])
    (h : Applied p w.store.data) :
    SectionEnd Applied n w (.ok (p, .error e) : Res (P × Res α)) w' := by
  refine ⟨hs.toOnTables, p, .error e, rfl, .inl ⟨⟨e, rfl⟩, ?_, hf⟩⟩
  rw [hs.data]
  exact h

theorem SectionEnd.after {r : Res (P × Res α)} (hon : OnTables w w₁)
    (hf : w₁.failures n = w.failures n) (h : SectionEnd Applied n w₁ r w') :
    SectionEnd Applied n w r w' := by
  obtain ⟨htables, q, res, hr, hend⟩ := h
  refine ⟨hon.trans htables, q, res, hr, hend.imp id ?_⟩
  rintro ⟨hok, hsame⟩
  exact ⟨hok, hsame.trans hf⟩

/-- the tables are what the flags say, and the compensation goes on -/
structure Undoing (Applied : P → Data → Prop) (n : Nat) (p : P) (w : Traced) : Prop where
  length : n ≤ w.log.length
  failed : w.failures n ≠ []
  applied : Applied p w.store.data

theorem Undoing.next {q : P} (h : Undoing Applied n p w) (hon : OnTables w w₁)
    (hf : w₁.failures n = w.failures n) (hq : Applied q w₁.store.data) :
    Undoing Applied n q w₁ := by
  refine ⟨hon.length h.length, ?_, hq⟩
  rw [hf]
  exact h.failed

/-- a section that reports its flags: it does not start, or it ends with them -/
theorem ran_progress {f : M (P × Res α)} {g : Res (P × Res α) → M (P × Res α)} {z : P}
    {r : Res (P × Res α)}
    (h : Ran (gated ok env t op) (attempt (Coordinator.withInner f) >>= g).run w r w')
    (hok : ∀ x, g (.ok x) = pure x) (herr : ∀ e, g (.error e) = pure (z, .error e)) :
    ∃ q, r = .ok q ∧ ((∃ e, q = (z, .error e)) ∧ Resting w w' ∨
      ∃ w₁ w₂ o, Resting w w₁ ∧ Ran (gated ok env t op) f.run w₁ o w₂ ∧ Resting w₂ w' ∧
        ∀ x, o = .ok x → q = x) := by
  obtain ⟨o, w₁, hx, hlast⟩ := ran_attempt_seq h
  rcases ran_withInner hx with ⟨e, rfl, hs, -⟩ | ⟨w₂, w₃, hs, hbody, hs'⟩
  · rw [herr] at hlast
    obtain ⟨rfl, rfl⟩ := ran_pure.mp hlast
    exact ⟨_, rfl, .inl ⟨⟨e, rfl⟩, hs⟩⟩
  · cases o with
    | ok x =>
      rw [hok] at hlast
      obtain ⟨rfl, rfl⟩ := ran_pure.mp hlast
      refine ⟨x, rfl, .inr ⟨w₂, w₃, _, hs, hbody, hs', ?_⟩⟩
      rintro _ ⟨⟩
      rfl
    | error e =>
      rw [herr] at hlast
      obtain ⟨rfl, rfl⟩ := ran_pure.mp hlast
      exact ⟨_, rfl, .inr ⟨w₂, w₃, _, hs, hbody, hs', nofun⟩⟩

end

/-! ## no write has failed -/

/-- no call of a metadata section has failed -/
def Clean (n : Nat) (w : Traced) : Prop :=
  n ≤ w.log.length ∧ ∀ so ∈ w.failures n, so.metadata = false

theorem failures_start (w : Traced) : w.failures w.log.length = [] := by
  rw [Traced.failures, Nat.sub_self]
  rfl

theorem clean_start (w : Traced) : Clean w.log.length w := by
  refine ⟨Nat.le_refl _, ?_⟩
  rw [failures_start]
  exact fun _ h => absurd h List.not_mem_nil

theorem clean_step {c : Cmd} {i : Input} {r : c.Reply} (hw : Clean n w)
    (hc : ∀ so, c = .store so → so.metadata = false)
    (h : gated ok env t op c i w = some (r, w')) : Clean n w' := by
  refine ⟨gated_length hw.1 h, ?_⟩
  rw [gated_failures hw.1 h]
  intro so hso
  rcases List.mem_append.mp hso with hso | hso
  · have hso : (Event.call t op c r w.toWorld).failure = some so := Option.mem_toList.mp hso
    cases c with
    | store so' =>
      obtain ⟨-, hsame⟩ := Option.ite_none_right_eq_some.mp hso
      cases hsame
      exact hc _ rfl
    | _ => cases hso
  · exact hw.2 so hso

/-- commands outside the metadata sections -/
abbrev Plain {α : Type} (x : M α) : Prop :=
  Only (fun c => ∀ so, c = .store so → so.metadata = false) x.run

theorem plain_of_restful {c : Cmd} (hc : c.restful = true) (so : StoreOp) (hso : c = .store so) :
    so.metadata = false := by
  subst hso
  exact StoreOp.not_metadata_of_query hc

theorem Restful.plain {α : Type} {x : M α} (h : Restful x) : Plain x :=
  h.mono fun _ hc => plain_of_restful hc

theorem clean_ran {α : Type} {x : M α} {r : Res α} (hx : Plain x) (hw : Clean n w)
    (h : Ran (gated ok env t op) x.run w r w') : Clean n w' :=
  hx.ran (K := Clean n) (fun _ _ _ _ _ hc he hw => clean_step hw hc he) h hw

/-- a part outside the metadata sections, and the rest when it succeeds -/
theorem clean_seq {α β : Type} {x : M α} {f : α → M β} {r : Res β} (hx : Plain x) (hw : Clean n w)
    (h : Ran (gated ok env t op) (x >>= f).run w r w') :
    Clean n w' ∨ ∃ a w₁, Ran (gated ok env t op) x.run w (.ok a) w₁ ∧ Clean n w₁ ∧
      Ran (gated ok env t op) (f a).run w₁ r w' := by
  rcases ran_seq.mp h with ⟨_, -, hrun⟩ | ⟨a, w₁, hrun, hrest⟩
  · exact .inl (clean_ran hx hw hrun)
  · exact .inr ⟨a, w₁, hrun, clean_ran hx hw hrun, hrest⟩

/-- `if c { return Err(e) }` and the rest -/
theorem clean_check {α : Type} {c : Prop} [Decidable c] {e : ReclaimError} {f : Unit → M α}
    {r : Res α} (hw : Clean n w)
    (h : Ran (gated ok env t op) (if c then throw e >>= f else f ()).run w r w') :
    Clean n w' ∨ ¬c ∧ Ran (gated ok env t op) (f ()).run w r w' := by
  rcases ran_guarded h with ⟨-, hx⟩ | hx
  · rw [(ran_throw_seq hx).2]
    exact .inl hw
  · exact .inr hx

/-- a checked value and the rest -/
theorem clean_settle {α β : Type} {x : Res α} {f : α → M β} {r : Res β} (hw : Clean n w)
    (h : Ran (gated ok env t op) (settle x >>= f).run w r w') :
    Clean n w' ∨ ∃ a, x = .ok a ∧ Ran (gated ok env t op) (f a).run w r w' := by
  rcases ran_seq.mp h with ⟨_, -, hx⟩ | ⟨a, w₁, hx, hrest⟩
  · rw [(ran_settle.mp hx).2]
    exact .inl hw
  · obtain ⟨ha, hw₁⟩ := ran_settle.mp hx
    rw [hw₁] at hrest
    exact .inr ⟨a, ha.symm, hrest⟩

/-- restful steps keep the record clean -/
theorem Clean.resting (hw : Clean n w) (h : Resting w w') : Clean n w' := by
  refine ⟨h.toOnTables.length hw.1, ?_⟩
  obtain ⟨l, hl, he⟩ := h.trail
  rw [failures_append hw.1 hl]
  intro so hso
  rcases List.mem_append.mp hso with hso | hso
  · obtain ⟨e, hm, hf⟩ := List.mem_filterMap.mp hso
    have hrest := he e hm
    cases e with
    | call t op c r before =>
      cases c with
      | store so' =>
        obtain ⟨-, hsame⟩ := Option.ite_none_right_eq_some.mp hf
        cases hsame
        exact StoreOp.not_metadata_of_query hrest
      | _ => cases hf
    | _ => cases hf
  · exact hw.2 so hso

/-! ## what reads deliver -/

theorem lone_readPayload {b k : String} {d : Bytes}
    (h : Ran (gated (lone B n) env t op) (Coordinator.readPayload b k).run w (.ok d) w') : d ∈ B := by
  obtain ⟨o, w₁, -, h⟩ := ran_seq_ok h
  cases o with
  | none =>
    obtain ⟨_, w₂, -, h⟩ := ran_seq_ok h
    obtain ⟨i, a, he, ha⟩ := ran_call (c := .get b k) (k := fun r => r) h
    subst ha
    have hok := (gated_eq_some.mp he).2
    exact of_decide_eq_true hok
  | some nid =>
    obtain ⟨reply, w₂, hx, h⟩ := ran_seq_ok h
    obtain ⟨_, w₃, -, hx⟩ := ran_seq_ok hx
    obtain ⟨i, a, he, ha⟩ := ran_call (c := .node nid b k .read) (k := fun r => r) hx
    subst ha
    have hok := (gated_eq_some.mp he).2
    have hok : (reply.payload).all (fun d => decide (d ∈ B)) = true := hok
    cases hreply : reply.ok with
    | false =>
      simp only [hreply, Bool.not_false, if_true] at h
      cases (ran_throw_seq h).1
    | true =>
      simp only [hreply, Bool.not_true, Bool.false_eq_true, if_false] at h
      cases hd : reply.payload with
      | none =>
        rw [hd] at h
        cases (ran_throw h).1
      | some d' =>
        rw [hd] at h hok
        cases (ran_pure.mp h).1
        exact of_decide_eq_true hok

/-! ## what a failed call leaves behind -/

/-- the rows are as they were, and so are the payloads that dedup rows refer to -/
structure Undone (w w' : Traced) : Prop where
  objects : ∀ X, w'.store.objects.find? X = w.store.objects.find? X
  replicas : ∀ r, r ∈ w'.store.replicas ↔ r ∈ w.store.replicas
  dedup : ∀ key, w'.store.dedup.find? key = w.store.dedup.find? key
  payloads : ∀ e ∈ w.store.dedup, w'.payloads e.backend e.key = w.payloads e.backend e.key

theorem undone_between {w₂ : Traced} (hs : Rests w w₁) (hs' : Rests w₂ w') :
    Undone w₁ w₂ ↔ Undone w w' := by
  have hobjects : (∀ X, w₂.store.objects.find? X = w₁.store.objects.find? X) ↔
      ∀ X, w'.store.objects.find? X = w.store.objects.find? X := by
    rw [hs'.objects, hs.objects]
  have hreplicas : (∀ r, r ∈ w₂.store.replicas ↔ r ∈ w₁.store.replicas) ↔
      ∀ r, r ∈ w'.store.replicas ↔ r ∈ w.store.replicas := by
    rw [hs'.replicas, hs.replicas]
  have hdedup : (∀ key, w₂.store.dedup.find? key = w₁.store.dedup.find? key) ↔
      ∀ key, w'.store.dedup.find? key = w.store.dedup.find? key := by
    rw [hs'.dedup, hs.dedup]
  have hpayloads : (∀ e ∈ w₁.store.dedup, w₂.payloads e.backend e.key = w₁.payloads e.backend e.key)
      ↔ ∀ e ∈ w.store.dedup, w'.payloads e.backend e.key = w.payloads e.backend e.key := by
    rw [hs'.payloads, hs.payloads, hs.dedup]
  constructor
  · rintro ⟨ho, hr, hd, hp⟩
    exact ⟨hobjects.mp ho, hreplicas.mp hr, hdedup.mp hd, hpayloads.mp hp⟩
  · rintro ⟨ho, hr, hd, hp⟩
    exact ⟨hobjects.mpr ho, hreplicas.mpr hr, hdedup.mpr hd, hpayloads.mpr hp⟩

theorem Rests.undone (h : Rests w w') : Undone w w' where
  objects := by
    rw [h.objects]
    exact fun _ => rfl
  replicas := by
    rw [h.replicas]
    exact fun _ => Iff.rfl
  dedup := by
    rw [h.dedup]
    exact fun _ => rfl
  payloads := by
    rw [h.payloads]
    exact fun _ _ => rfl

/-- the tables have the same rows -/
structure EqualRows (d d' : Data) : Prop where
  objects : ∀ X, d'.objects.find? X = d.objects.find? X
  replicas : ∀ r, r ∈ d'.replicas ↔ r ∈ d.replicas
  dedup : ∀ key, d'.dedup.find? key = d.dedup.find? key

/-- the payloads differ at most at one key, and only when it was written -/
def PayloadOnly (wrote : Bool) (b k : String) (w w' : Traced) : Prop :=
  ∀ b' k', ¬(wrote = true ∧ b' = b ∧ k' = k) → w'.payloads b' k' = w.payloads b' k'

theorem OnTables.payloadOnly {wrote : Bool} {b k : String} (h : OnTables w w') :
    PayloadOnly wrote b k w w' := by
  intro b' k' _
  rw [h.payloads]

theorem PayloadOnly.trans {wrote : Bool} {b k : String} (h : PayloadOnly wrote b k w w₁)
    (h' : PayloadOnly wrote b k w₁ w') : PayloadOnly wrote b k w w' :=
  fun b' k' hne => (h' b' k' hne).trans (h b' k' hne)

/-- the same rows, and no payload of a dedup row was written -/
theorem EqualRows.undone {wrote : Bool} {b k : String} (h : EqualRows w.store.data w'.store.data)
    (hp : PayloadOnly wrote b k w w')
    (hk : ∀ e ∈ w.store.dedup, ¬(wrote = true ∧ e.backend = b ∧ e.key = k)) : Undone w w' :=
  ⟨h.objects, h.replicas, h.dedup, fun e he => hp e.backend e.key (hk e he)⟩

/-! ## one payload -/

/-- at most one payload has changed -/
structure OnPayload (b k : String) (w w' : Traced) : Prop where
  payloads : PayloadOnly true b k w w'
  blobs : w'.blobs = w.blobs
  config : w'.proc.config = w.proc.config
  data : w'.store.data = w.store.data
  log : ∃ l, w'.log = l ++ w.log

theorem Rests.onPayload {b k : String} (h : Rests w w') : OnPayload b k w w' :=
  ⟨h.payloadOnly, h.blobs, h.config, h.data, h.log⟩

theorem OnPayload.trans {b k : String} (h : OnPayload b k w w₁) (h' : OnPayload b k w₁ w') :
    OnPayload b k w w' where
  payloads := h.payloads.trans h'.payloads
  blobs := h'.blobs.trans h.blobs
  config := h'.config.trans h.config
  data := h'.data.trans h.data
  log := grown_trans h.log h'.log

/-- the payload is as it was, too -/
theorem OnPayload.rests {b k : String} (h : OnPayload b k w w')
    (heq : w'.payloads b k = w.payloads b k) : Rests w w' := by
  refine ⟨⟨?_, h.blobs, h.config, h.log⟩, h.data⟩
  funext b' k'
  by_cases hk : b' = b ∧ k' = k
  · rw [hk.1, hk.2, heq]
  · exact h.payloads b' k' fun hc => hk hc.2

/-- the commands that leave the tables alone and write at most one payload -/
def Cmd.writesAt (b k : String) (c : Cmd) : Prop := c.restful = true ∨ c.onPayload b k = true

theorem onPayload_step {b k : String} {c : Cmd} (hc : c.writesAt b k) {i : Input}
    {r : c.Reply} (h : gated ok env t op c i w = some (r, w')) : OnPayload b k w w' := by
  rcases hc with hrest | hpay
  · exact (rests_step hrest h).toRests.onPayload
  · obtain ⟨⟨x, y⟩, hy, hw⟩ := Option.map_eq_some_iff.mp (gated_eq_some.mp h).1
    cases hw
    rcases exec_onPayload hpay hy with rfl | ⟨v, rfl⟩
    · exact ⟨fun _ _ _ => rfl, rfl, rfl, rfl, [_], rfl⟩
    · exact ⟨fun b' k' hne => if_neg fun he => hne ⟨rfl, he⟩, rfl, rfl, rfl, [_], rfl⟩

/-- every command of the program leaves the tables alone and writes at most one payload -/
abbrev WritesAt {α : Type} (b k : String) (x : M α) : Prop := Only (Cmd.writesAt b k) x.run

theorem Restful.writesAt {α : Type} {x : M α} {b k : String} (h : Restful x) : WritesAt b k x :=
  h.mono fun _ hc => .inl hc

theorem WritesAt.plain {α : Type} {x : M α} {b k : String} (h : WritesAt b k x) : Plain x := by
  refine h.mono fun c hc so hso => ?_
  rcases hc with hc | hc
  · exact plain_of_restful hc so hso
  · subst hso
    cases hc

theorem onPayload_ran {α : Type} {x : M α} {r : Res α} {b k : String} (hx : WritesAt b k x)
    (h : Ran (gated ok env t op) x.run w r w') : OnPayload b k w w' :=
  hx.ran (K := OnPayload b k w) (fun _ _ _ _ _ hc he hw => hw.trans (onPayload_step hc he)) h
    (Rests.refl w).onPayload

theorem writesAt_nodeOperation {nid b k : String} {nop : NodeOp} :
    WritesAt b k (Coordinator.nodeOperation nid b k nop) := by
  refine only_bind ?_ fun _ => .call (.inr (by simp [Cmd.onPayload])) fun _ => .ret _
  exact Restful.writesAt (restful_withInner (only_bind restful_config fun c =>
    only_ite only_pure only_throw))

theorem writesAt_deletePayload (b k : String) : WritesAt b k (Coordinator.deletePayload b k) := by
  refine only_bind (restful_nodeForBackend b).writesAt fun nid => ?_
  cases nid with
  | none =>
    refine only_bind (restful_lookupBackend b).writesAt fun _ => ?_
    exact .call (.inr (by simp [Cmd.onPayload])) fun _ => .ret _
  | some nid =>
    exact only_bind writesAt_nodeOperation fun reply => only_ite only_throw only_pure

theorem writesAt_writeResult (b k : String) (data : Bytes) :
    WritesAt b k (Coordinator.writeResult env b k data) := by
  refine only_bind (restful_nodeForBackend b).writesAt fun nid => ?_
  cases nid with
  | none =>
    refine only_bind (restful_lookupBackend b).writesAt fun _ => ?_
    refine only_bind (.call (.inr (by simp [Cmd.onPayload])) fun _ => .ret _) fun size => ?_
    refine only_ite only_pure (only_bind (.call (.inl rfl) fun _ => .ret _) fun _ => only_pure)
  | some nid =>
    refine only_bind writesAt_nodeOperation fun reply => ?_
    exact only_ite only_pure (only_ite only_pure (only_ite only_pure only_pure))

theorem writesAt_writePayloadTo (b k : String) (data : Bytes) :
    WritesAt b k (Coordinator.writePayloadTo env b k data) := by
  refine only_bind (writesAt_writeResult b k data) fun o => ?_
  cases o with
  | ok _ => exact only_pure
  | error e =>
    refine only_bind (only_attempt (writesAt_deletePayload b k)) fun o => ?_
    cases o with
    | ok _ => exact only_throw
    | error c => exact only_throw

end

end ReclaimFabric
