import ReclaimFabric.Compensation.Careful

/-!
# Registration is all or nothing

`createObject` stores the payload on one backend after the other, each time a payload or a
reference to one, then a replica row, and publishes the object row last.

* `Elsewhere`, `Added`   what storing on one backend leaves behind: the rows of before, or one
                       replica;
* `Staged`, `Untampered` the rows and the payloads of the start, with the replicas stored since;
* `Wiped`              the rollback takes the payloads it deletes, whatever was there before;
* `storeOnTargets_outcome`, `publishObject_outcome`   the loop and the last write;
* `Outcome`            what the whole call comes to;
* `register_all_or_nothing`   when it is all or nothing.
-/

set_option linter.unusedSectionVars false

namespace ReclaimFabric

open Prog (Ran Only attempt settle)

/-! ## one backend -/

/-- the same rows -/
structure AsBefore (w w' : Traced) : Prop where
  objects : w'.store.objects = w.store.objects
  replicas : w'.store.replicas = w.store.replicas
  dedup : ∀ key, w'.store.dedup.find? key = w.store.dedup.find? key
  config : w'.proc.config = w.proc.config
  log : ∃ l, w'.log = l ++ w.log

/-- the same rows, and the same payloads on the other backends -/
structure Elsewhere (b : String) (w w' : Traced) : Prop extends AsBefore w w' where
  payloads : ∀ b' k, b' ≠ b → w'.payloads b' k = w.payloads b' k

/-- a reference to a payload has been added, and the payload if there was none -/
structure Attached (n : Nat) (new : Replica) (w w' : Traced) : Prop where
  objects : w'.store.objects = w.store.objects
  replicas : w'.store.replicas = w.store.replicas
  config : w'.proc.config = w.proc.config
  dedup : ∀ key, w'.store.dedup.find? key =
    if key = new.ref then some (referenced (w.store.dedup.find? new.ref) new)
    else w.store.dedup.find? key
  counted : ∀ e, w.store.dedup.find? new.ref = some e → e.refCount ≠ 0
  payloads : ∀ b k, ¬(w.store.dedup.find? new.ref = none ∧ b = new.location.backend ∧
    k = new.location.key) → w'.payloads b k = w.payloads b k
  backed : w.store.dedup.find? new.ref = none → Backed w.proc.config new.location.backend
  staging : Staging n w'
  log : ∃ l, w'.log = l ++ w.log

/-- the reference and a replica row -/
structure Added (n : Nat) (new : Replica) (w w' : Traced) : Prop where
  objects : w'.store.objects = w.store.objects
  replicas : ∀ r, r ∈ w'.store.replicas ↔ r ∈ w.store.replicas ∨ r = new
  fresh : ∀ r ∈ w.store.replicas, r.replicaId ≠ new.replicaId
  config : w'.proc.config = w.proc.config
  dedup : ∀ key, w'.store.dedup.find? key =
    if key = new.ref then some (referenced (w.store.dedup.find? new.ref) new)
    else w.store.dedup.find? key
  counted : ∀ e, w.store.dedup.find? new.ref = some e → e.refCount ≠ 0
  payloads : ∀ b k, ¬(w.store.dedup.find? new.ref = none ∧ b = new.location.backend ∧
    k = new.location.key) → w'.payloads b k = w.payloads b k
  backed : w.store.dedup.find? new.ref = none → Backed w.proc.config new.location.backend
  staging : Staging n w'

/-- nothing lies where the payload of the replica is written -/
def Replica.Free (w : Traced) (new : Replica) : Prop :=
  w.store.dedup.find? new.ref = none → w.payloads new.location.backend new.location.key = none

section
variable {strict : Bool} {n : Nat} {env : Env} {t : Tid} {op : Op} {w w₁ w' : Traced}
  {new : Replica}

theorem OnPayload.elsewhere {b k : String} (h : OnPayload b k w w') : Elsewhere b w w' where
  objects := congrArg Data.objects h.data
  replicas := congrArg Data.replicas h.data
  dedup := by
    rw [show w'.store.dedup = w.store.dedup from congrArg Data.dedup h.data]
    exact fun _ => rfl
  config := h.config
  log := h.log
  payloads := fun b' k' hb => h.payloads b' k' fun hc => hb hc.2.1

theorem Rests.elsewhere {b : String} (h : Rests w w') : Elsewhere b w w' :=
  (h.onPayload (k := "")).elsewhere

theorem Rests.asBefore (h : Rests w w') : AsBefore w w' := (h.elsewhere (b := "")).toAsBefore

theorem AsBefore.trans (h : AsBefore w w₁) (h' : AsBefore w₁ w') : AsBefore w w' where
  objects := h'.objects.trans h.objects
  replicas := h'.replicas.trans h.replicas
  dedup := fun key => (h'.dedup key).trans (h.dedup key)
  config := h'.config.trans h.config
  log := grown_trans h.log h'.log

theorem Elsewhere.trans {b : String} (h : Elsewhere b w w₁) (h' : Elsewhere b w₁ w') :
    Elsewhere b w w' :=
  ⟨h.toAsBefore.trans h'.toAsBefore, fun b' k hb => (h'.payloads b' k hb).trans (h.payloads b' k hb)⟩

/-- one payload is what the payloads differ in -/
theorem OnPayload.same_iff {b k : String} (h : OnPayload b k w w') :
    w'.payloads = w.payloads ↔ w'.payloads b k = w.payloads b k :=
  ⟨fun hsame => by rw [hsame], fun hsame => (h.rests hsame).payloads⟩

theorem Replica.free_rests (new : Replica) (hs : Rests w w₁) : new.Free w₁ ↔ new.Free w := by
  unfold Replica.Free
  rw [hs.dedup, hs.payloads]

theorem Attached.rests (h : Attached n new w w₁) (hs : Rests w₁ w') : Attached n new w w' where
  objects := hs.objects.trans h.objects
  replicas := hs.replicas.trans h.replicas
  config := hs.config.trans h.config
  dedup := by
    rw [hs.dedup]
    exact h.dedup
  counted := h.counted
  payloads := by
    rw [hs.payloads]
    exact h.payloads
  backed := h.backed
  staging := h.staging.later hs.log
  log := grown_trans h.log hs.log

theorem Attached.of_rests (hs : Rests w w₁) (h : Attached n new w₁ w') : Attached n new w w' where
  objects := h.objects.trans hs.objects
  replicas := h.replicas.trans hs.replicas
  config := h.config.trans hs.config
  dedup := by
    rw [← hs.dedup]
    exact h.dedup
  counted := by
    rw [← hs.dedup]
    exact h.counted
  payloads := by
    rw [← hs.dedup, ← hs.payloads]
    exact h.payloads
  backed := by
    rw [← hs.dedup, ← hs.config]
    exact h.backed
  staging := h.staging
  log := grown_trans hs.log h.log

/-- the identifier of the replica does not matter -/
theorem Attached.named (h : Attached n new w w') (id : Uuid) :
    Attached n { new with replicaId := id } w w' := by
  have hrow : referenced (w.store.dedup.find? new.ref) { new with replicaId := id } =
      referenced (w.store.dedup.find? new.ref) new := by
    cases w.store.dedup.find? new.ref with
    | none => rfl
    | some e => rfl
  refine ⟨h.objects, h.replicas, h.config, ?_, h.counted, h.payloads, h.backed, h.staging, h.log⟩
  intro key
  show _ = if key = new.ref then
    some (referenced (w.store.dedup.find? new.ref) { new with replicaId := id }) else _
  rw [hrow]
  exact h.dedup key

/-- the release of a reference succeeds -/
theorem watched_release {g : ContentHash} {b : String} {r : Res Bool}
    (h : Ran (gated (watched strict n) env t op) (Coordinator.store (.dedupRelease g b)).run w r w') :
    ∃ last, r = .ok last ∧ Store.dedupRelease g b w.store = .ok (last, w'.store) ∧
      OnTables w w' := by
  obtain ⟨i, he⟩ := ran_storeCall h
  rcases gated_store he with ⟨_, rfl, -⟩ | ⟨last, rfl, hrun, hon⟩
  · cases watched_takesBack he
  · exact ⟨last, rfl, hrun, hon⟩

/-- the deletion of a replica row succeeds -/
theorem watched_deleteReplica {id : Uuid} {r : Res Unit}
    (h : Ran (gated (watched strict n) env t op) (Coordinator.store (.deleteReplica id)).run w r w') :
    r = .ok () ∧ Store.deleteReplica id w.store = .ok ((), w'.store) ∧ OnTables w w' := by
  obtain ⟨i, he⟩ := ran_storeCall h
  rcases gated_store he with ⟨_, rfl, -⟩ | ⟨_, rfl, hrun, hon⟩
  · cases watched_takesBack he
  · exact ⟨rfl, hrun, hon⟩

/-- once something has been stored a section is its body -/
theorem watched_section {α : Type} {f : M α} {r : Res α} (hs : Staging n w)
    (h : Ran (gated (watched strict n) env t op) (Coordinator.withInner f).run w r w') :
    ∃ w₁ w₂, Resting w w₁ ∧ Ran (gated (watched strict n) env t op) f.run w₁ r w₂ ∧ Resting w₂ w' := by
  rcases ran_withInner h with ⟨_, -, -, hno⟩ | hbody
  · exact absurd hs.assured hno
  · exact hbody

/-- a payload that has to be taken back, and the error -/
theorem watched_discard {α : Type} {b k : String} {g : ReclaimError → ReclaimError}
    {e : ReclaimError} {r : Res α} (hs : Staging n w) (hb : Backed w.proc.config b)
    (h : Ran (gated (watched strict n) env t op) (do
      Coordinator.mapErr g (Coordinator.deletePayload b k)
      throw e : M α).run w r w') : r = .error e ∧ Deleted b k w w' := by
  rcases ran_seq.mp h with ⟨_, -, hx⟩ | ⟨_, w₁, hx, hlast⟩
  · obtain ⟨o, hx, hsame⟩ := ran_mapErr hx
    obtain ⟨rfl, -⟩ := deletePayload_done hs hb hx
    cases (hsame ()).mpr rfl
  · obtain ⟨o, hx, -⟩ := ran_mapErr hx
    obtain ⟨-, hgone⟩ := deletePayload_done hs hb hx
    obtain ⟨rfl, rfl⟩ := ran_throw hlast
    exact ⟨rfl, hgone⟩

/-- a new payload and its first reference, or nothing when the run is careful -/
theorem storeNew_outcome (new : Replica) {data : Bytes} {r : Res Unit} (hn : n ≤ w.log.length)
    (hsize : new.size = data.length) (hnone : w.store.dedup.find? new.ref = none)
    (h : Ran (gated (watched strict n) env t op) (Coordinator.storeNew env new.location.backend
      new.location.key data new.contentHash).run w r w') :
    (∃ e, r = .error e) ∧ Elsewhere new.location.backend w w' ∧
        Tells strict (w'.payloads = w.payloads) (Ran (gated (careful n) env t op)
          (Coordinator.storeNew env new.location.backend new.location.key data
            new.contentHash).run w r w') ∨
      r = .ok () ∧ Attached n new w w' ∧
        Tells strict (new.Free w) (Ran (gated (careful n) env t op)
          (Coordinator.storeNew env new.location.backend new.location.key data
            new.contentHash).run w r w') := by
  have hfree : new.Free w ↔ w.payloads new.location.backend new.location.key = none :=
    ⟨fun hf => hf hnone, fun hf _ => hf⟩
  rcases ran_seq.mp h with ⟨e, rfl, hx⟩ | ⟨_, w₁, hx, h₁⟩
  · cases writePayloadTo_outcome hn hx with
    | refused hr hon ht =>
      exact .inl ⟨⟨e, rfl⟩, hon.elsewhere,
        (ht.imp fun hc => ran_seq.mpr (.inl ⟨e, rfl, hc⟩)).iff hon.same_iff⟩
    | made hr =>
      cases hr.1
  cases writePayloadTo_outcome hn hx with
  | refused hr =>
    obtain ⟨_, hno⟩ := hr
    cases hno
  | made hr hon hs ht =>
    have hb := hr.2
    obtain ⟨o, w₂, hins, h₂⟩ := ran_attempt_seq h₁
    have ht : Tells strict (w.payloads new.location.backend new.location.key = none)
        (Ran (gated (careful n) env t op) (Coordinator.storeNew env new.location.backend
          new.location.key data new.contentHash).run w r w') := by
      refine ht.imp fun hc => ran_seq.mpr (.inr ⟨(), w₁, hc, Inert.careful ?_ h₁⟩)
      refine only_bind (only_attempt (inert_withInner (inert_store _))) fun o => ?_
      cases o with
      | ok _ => exact only_pure
      | error e =>
        exact only_bind (inert_mapErr (inert_deletePayload _ _)) fun _ => only_throw
    rcases ran_innerWrite hins with ⟨e, rfl, hrest⟩ | ⟨_, s, s', rfl, hsd, hrun, hsd', htab⟩
    · have hb₂ : Backed w₂.proc.config new.location.backend := by
        rw [hrest.config, hon.config]
        exact hb
      obtain ⟨rfl, hgone⟩ := watched_discard (hs.later hrest.log) hb₂ h₂
      have hon' := hon.trans (hrest.onPayload.trans hgone.toOnPayload)
      refine .inl ⟨⟨e, rfl⟩, hon'.elsewhere, ht.iff (hon'.same_iff.trans ?_)⟩
      rw [hgone.gone]
      exact eq_comm
    · obtain ⟨rfl, rfl⟩ := ran_pure.mp h₂
      obtain ⟨-, T, hd, hfind⟩ := Store.insertDedup_ok hrun
      have hdata : w'.store.data = { w₁.store.data with dedup := T } := by
        rw [← hsd', hd, hsd]
      have hobj : w'.store.objects = w₁.store.objects := congrArg Data.objects hdata
      have hrep : w'.store.replicas = w₁.store.replicas := congrArg Data.replicas hdata
      refine .inr ⟨rfl, ⟨?_, ?_, ?_, ?_, ?_, ?_, ?_, ?_, ?_⟩, ht.iff hfree⟩
      · exact hobj.trans (congrArg Data.objects hon.data)
      · exact hrep.trans (congrArg Data.replicas hon.data)
      · exact htab.config.trans hon.config
      · intro key
        rw [show w'.store.dedup = T from congrArg Data.dedup hdata, hfind key,
          show s.dedup = w.store.dedup from
            (congrArg Data.dedup hsd).trans (congrArg Data.dedup hon.data), hnone, ← hsize]
        rfl
      · intro e he
        rw [hnone] at he
        cases he
      · intro b k hne
        rw [htab.payloads]
        exact hon.payloads b k fun hc => hne ⟨hnone, hc.2⟩
      · exact fun _ => hb
      · exact hs.later htab.log
      · exact grown_trans hon.log htab.log

theorem inert_recordReplica (new : Replica) : Inert (Coordinator.recordReplica new) := by
  refine only_bind (only_attempt (inert_withInner (inert_store _))) fun o => ?_
  cases o with
  | ok _ => exact only_pure
  | error e =>
    refine only_bind (inert_withInner (inert_store _)) fun last => ?_
    refine only_ite (only_bind (inert_mapErr (inert_deletePayload _ _)) fun _ => ?_) only_throw
    exact only_throw

/-- the replica row of an attached payload, or the payload is detached -/
theorem recordReplica_outcome {r : Res Unit} (ha : Attached n new w w₁)
    (h : Ran (gated (watched strict n) env t op) (Coordinator.recordReplica new).run w₁ r w') :
    (∃ e, r = .error e) ∧ Elsewhere new.location.backend w w' ∧
        (w'.payloads = w.payloads ↔ new.Free w) ∨ r = .ok () ∧ Added n new w w' := by
  obtain ⟨o, w₂, hadd, h₂⟩ := ran_attempt_seq h
  rcases ran_innerWrite hadd with ⟨e, rfl, hrest⟩ | ⟨_, s, s', rfl, hsd, hrun, hsd', htab⟩
  · -- the row is refused: the reference goes back, and the payload with the last one
    refine .inl ?_
    have ha₂ := ha.rests hrest
    have hrel {x : Res Bool} {w₃ : Traced} (hx : Ran (gated (watched strict n) env t op)
        (Coordinator.withInner (Coordinator.store
          (.dedupRelease new.contentHash new.location.backend))).run w₂ x w₃) :
        ∃ last, x = .ok last ∧ (last = true ↔ w.store.dedup.find? new.ref = none) ∧
          OnTables w₂ w₃ ∧ w₃.store.objects = w₂.store.objects ∧
          w₃.store.replicas = w₂.store.replicas ∧
          ∀ key, w₃.store.dedup.find? key = w.store.dedup.find? key := by
      obtain ⟨u₁, u₂, hu, hbody, hu'⟩ := watched_section ha₂.staging hx
      obtain ⟨last, rfl, hrun, hon⟩ := watched_release hbody
      obtain ⟨e', hfind, -, hlast, T, hd, hset⟩ := Store.dedupRelease_ok hrun
      have hprev (key : ContentHash × String) : u₁.store.dedup.find? key =
          if key = new.ref then some (referenced (w.store.dedup.find? new.ref) new)
          else w.store.dedup.find? key := by
        rw [hu.dedup]
        exact ha₂.dedup key
      have he' : e' = referenced (w.store.dedup.find? new.ref) new := by
        have hread := hprev new.ref
        rw [if_pos rfl, show u₁.store.dedup.find? new.ref = some e' from hfind] at hread
        exact Option.some.inj hread
      obtain ⟨hback, hone⟩ := unreferenced_referenced new ha.counted
      rw [← he'] at hback hone
      refine ⟨last, rfl, ?_, hu.toOnTables.trans (hon.trans hu'.toOnTables), ?_, ?_, ?_⟩
      · rw [hlast, decide_eq_true_iff]
        constructor
        · exact hone
        · intro hnone
          rw [he', hnone]
          rfl
      · rw [hu'.objects, ← hu.objects]
        exact congrArg Data.objects hd
      · rw [hu'.replicas, ← hu.replicas]
        exact congrArg Data.replicas hd
      · intro key
        rw [hu'.dedup, show u₂.store.dedup = T from congrArg Data.dedup hd, hset key]
        show (if key = new.ref then unreferenced e' else u₁.store.dedup.find? key) = _
        by_cases hk : key = new.ref
        · rw [if_pos hk, hk]
          exact hback
        · rw [if_neg hk, hprev key, if_neg hk]
    rcases ran_seq.mp h₂ with ⟨_, -, hx⟩ | ⟨last, w₃, hx, h₃⟩
    · obtain ⟨_, hno, -⟩ := hrel hx
      cases hno
    obtain ⟨_, hlast, hiff, hon, hobj, hrep, hded⟩ := hrel hx
    cases hlast
    have hs₃ := ha₂.staging.later hon.log
    have hlog : ∃ l, w₃.log = l ++ w.log :=
      grown_trans ha₂.log hon.log
    have hpayloads (b' k : String) (hne : ¬(w.store.dedup.find? new.ref = none ∧
        b' = new.location.backend ∧ k = new.location.key)) :
        w₃.payloads b' k = w.payloads b' k := by
      rw [hon.payloads]
      exact ha₂.payloads b' k hne
    have hrows : AsBefore w w₃ :=
      ⟨hobj.trans ha₂.objects, hrep.trans ha₂.replicas, hded, hon.config.trans ha₂.config, hlog⟩
    rcases ran_guarded h₃ with ⟨hlast, hx⟩ | ⟨hlast, hx⟩
    · have hnone := hiff.mp hlast
      have hb₃ : Backed w₃.proc.config new.location.backend := by
        rw [hon.config, ha₂.config]
        exact ha.backed hnone
      obtain ⟨rfl, hgone⟩ := watched_discard hs₃ hb₃ hx
      have hrest (b' k : String) (hk : ¬(b' = new.location.backend ∧ k = new.location.key)) :
          w'.payloads b' k = w.payloads b' k :=
        (hgone.payloads b' k fun hc => hk hc.2).trans (hpayloads b' k fun hc => hk hc.2)
      refine ⟨⟨e, rfl⟩, ⟨hrows.trans hgone.elsewhere.toAsBefore,
        fun b' k hb => hrest b' k fun hc => hb hc.1⟩, fun hsame _ => ?_, fun hfree => ?_⟩
      · rw [← hsame, hgone.gone]
      · funext b' k
        by_cases hk : b' = new.location.backend ∧ k = new.location.key
        · rw [hk.1, hk.2, hgone.gone, hfree hnone]
        · exact hrest b' k hk
    · obtain ⟨rfl, rfl⟩ := ran_throw hx
      have hsome : w.store.dedup.find? new.ref ≠ none := fun hnone => hlast (hiff.mpr hnone)
      refine ⟨⟨e, rfl⟩, ⟨hrows, fun b' k _ => hpayloads b' k fun hc => hsome hc.1⟩,
        fun _ hnone => absurd hnone hsome, fun _ => ?_⟩
      funext b' k
      exact hpayloads b' k fun hc => hsome hc.1
  · obtain ⟨rfl, rfl⟩ := ran_pure.mp h₂
    obtain ⟨T, hswap, -, hd⟩ := Store.addReplica_ok hrun
    have hdata : w'.store.data = { w₁.store.data with replicas := T } := by
      rw [← hsd', hd, hsd]
    have hold : s.replicas = w.store.replicas :=
      (congrArg Data.replicas hsd).trans ha.replicas
    have hfresh (x : Replica) (hx : x ∈ w.store.replicas) : x.replicaId ≠ new.replicaId := by
      intro hid
      rw [← hold] at hx
      cases hswap.2.1 x hx hid
    refine .inr ⟨rfl, ?_, ?_, hfresh, ?_, ?_, ha.counted, ?_, ha.backed, ha.staging.later htab.log⟩
    · have hobj : w'.store.objects = w₁.store.objects := congrArg Data.objects hdata
      exact hobj.trans ha.objects
    · intro x
      rw [show w'.store.replicas = T from congrArg Data.replicas hdata, hswap.2.2.2.2 x, hold]
      constructor
      · rintro (⟨hx, -⟩ | hx)
        · exact .inl hx
        · exact .inr (Option.some.inj hx).symm
      · rintro (hx | rfl)
        · exact .inl ⟨hx, hfresh x hx⟩
        · exact .inr rfl
    · exact htab.config.trans ha.config
    · intro key
      rw [show w'.store.dedup = w₁.store.dedup from congrArg Data.dedup hdata]
      exact ha.dedup key
    · intro b k hne
      rw [htab.payloads]
      exact ha.payloads b k hne

/-- what is read after a look-up was not put by the step before -/
theorem justPut_of_resting {b k : String} (h : Resting w w') (hne : w'.log ≠ w.log) :
    w'.justPut b k = none := by
  obtain ⟨l, hl, hrestful⟩ := h.trail
  cases l with
  | nil => exact absurd hl hne
  | cons e l =>
    have he := hrestful e List.mem_cons_self
    unfold Traced.justPut
    rw [hl]
    cases e with
    | call t op x a v =>
      cases x with
      | put b' k' d => cases he
      | _ => rfl
    | returned => rfl
    | restarted => rfl

/-- the reads of an existing payload are harmless -/
theorem careful_readPayload {b k : String} {r : Res Bytes}
    (h : Ran (gated (watched strict n) env t op) (Coordinator.readPayload b k).run w r w') :
    Ran (gated (careful n) env t op) (Coordinator.readPayload b k).run w r w' := by
  rcases ran_seq.mp h with ⟨e, rfl, hx⟩ | ⟨nid, w₁, hx, h₁⟩
  · exact ran_seq.mpr (.inl ⟨e, rfl, (inert_configured _).careful hx⟩)
  refine ran_seq.mpr (.inr ⟨nid, w₁, (inert_configured _).careful hx, ?_⟩)
  cases nid with
  | none =>
    rcases ran_seq.mp h₁ with ⟨e, rfl, hy⟩ | ⟨info, w₂, hy, h₂⟩
    · exact ran_seq.mpr (.inl ⟨e, rfl, (inert_configured _).careful hy⟩)
    refine ran_seq.mpr (.inr ⟨info, w₂, (inert_configured _).careful hy, ?_⟩)
    obtain ⟨i, a, he, rfl⟩ := ran_call (c := .get b k) (k := fun r => r) h₂
    have hjust : w₂.justPut b k = none := by
      refine justPut_of_resting (ran_configured hy).1 fun hlog => ?_
      obtain ⟨_, _, w₃, hstep, hrest⟩ := ran_ask_seq hy
      obtain ⟨l, hl⟩ := gated_ran_log hrest
      have hlen := congrArg List.length hlog
      rw [hl, gated_log hstep, List.length_append, List.length_cons] at hlen
      omega
    have hharmless : harmless (.get b k) i w₂ r = true := by
      cases r with
      | ok d =>
        show (w₂.justPut b k).all _ = true
        rw [hjust]
        rfl
      | error e =>
        show (w₂.justPut b k).all _ = true
        rw [hjust]
        rfl
    exact .call (watched_careful he hharmless) .ret
  | some nid =>
    refine Inert.careful (only_bind (inert_nodeOperation rfl) fun reply => ?_) h₁
    obtain ⟨_, _, _, payload, _, _⟩ := reply
    cases payload with
    | none => exact only_ite (only_bind only_throw fun _ => only_throw) only_throw
    | some d => exact only_ite (only_bind only_throw fun _ => only_pure) only_pure

theorem careful_canonicalKey {b : String} {g : ContentHash} {index : Nat} {e : DedupEntry}
    {r : Res (String × Bool)} (h : Ran (gated (watched strict n) env t op)
      (Coordinator.canonicalKey env b g index (some e)).run w r w') :
    Ran (gated (careful n) env t op)
      (Coordinator.canonicalKey env b g index (some e)).run w r w' := by
  unfold Coordinator.canonicalKey at h ⊢
  simp only at h ⊢
  split at h
  · next hcount =>
    rw [if_pos hcount]
    obtain ⟨rfl, rfl⟩ := ran_throw_seq h
    exact ran_seq.mpr (.inl ⟨_, rfl, ran_throw_of _⟩)
  · next hcount =>
    rw [if_neg hcount]
    rcases ran_seq.mp h with ⟨err, rfl, hx⟩ | ⟨bytes, w₁, hx, h₁⟩
    · exact ran_seq.mpr (.inl ⟨err, rfl, careful_readPayload hx⟩)
    · refine ran_seq.mpr (.inr ⟨bytes, w₁, careful_readPayload hx, Inert.careful ?_ h₁⟩)
      exact only_bind only_settle fun _ =>
        only_bind (inert_withInner (inert_store _)) fun _ => only_pure

/-- the canonical payload of a row is read, and its reference counted -/
theorem canonicalKey_outcome (new : Replica) {index : Nat} {e : DedupEntry}
    {r : Res (String × Bool)} (hn : n ≤ w.log.length)
    (hrow : w.store.dedup.find? new.ref = some e)
    (h : Ran (gated (watched strict n) env t op) (Coordinator.canonicalKey env new.location.backend
      new.contentHash index (some e)).run w r w') :
    (∃ err, r = .error err) ∧ Rests w w' ∨ r = .ok (e.key, false) ∧ Attached n new w w' := by
  unfold Coordinator.canonicalKey at h
  simp only at h
  split at h
  · obtain ⟨rfl, rfl⟩ := ran_throw_seq h
    exact .inl ⟨⟨_, rfl⟩, Rests.refl w'⟩
  next hcount =>
  rcases ran_seq.mp h with ⟨err, rfl, hx⟩ | ⟨bytes, w₁, hx, h₁⟩
  · exact .inl ⟨⟨err, rfl⟩, (rests (restful_readPayload _ _) hx).toRests⟩
  have hs₁ := rests (restful_readPayload _ _) hx
  rcases ran_seq.mp h₁ with ⟨err, rfl, hx⟩ | ⟨_, w₂, hx, h₂⟩
  · rw [(ran_settle.mp hx).2]
    exact .inl ⟨⟨err, rfl⟩, hs₁.toRests⟩
  rw [(ran_settle.mp hx).2] at h₂
  rcases ran_seq.mp h₂ with ⟨err, rfl, hx⟩ | ⟨_, w₃, hx, h₃⟩
  · rcases ran_innerWrite hx with ⟨_, -, hs⟩ | ⟨_, _, _, hno, -⟩
    · exact .inl ⟨⟨err, rfl⟩, hs₁.toRests.trans hs⟩
    · cases hno
  obtain ⟨rfl, rfl⟩ := ran_pure.mp h₃
  rcases ran_withInner hx with ⟨_, hno, -⟩ | ⟨u₁, u₂, hu, hbody, hu'⟩
  · cases hno
  obtain ⟨i, he⟩ := ran_storeCall hbody
  rcases gated_store he with ⟨_, hno, -⟩ | ⟨a, -, hrun, hon⟩
  · cases hno
  have hu₁ := hs₁.trans hu
  have hs : Staging n u₂ := .of_step (hu₁.toOnTables.length hn) he rfl
  obtain ⟨x, hfind, -, T, hd, hset⟩ := Store.dedupAcquire_ok hrun
  have hx : x = e := by
    have hread : u₁.store.dedup.find? new.ref = some x := hfind
    rw [hu₁.dedup, hrow] at hread
    exact (Option.some.inj hread).symm
  have hobj : u₂.store.objects = u₁.store.objects := congrArg Data.objects hd
  have hrep : u₂.store.replicas = u₁.store.replicas := congrArg Data.replicas hd
  refine .inr ⟨rfl, ?_, ?_, ?_, ?_, ?_, ?_, ?_, hs.later hu'.log, ?_⟩
  · exact hu'.objects.trans (hobj.trans hu₁.objects)
  · exact hu'.replicas.trans (hrep.trans hu₁.replicas)
  · exact hu'.config.trans (hon.config.trans hu₁.config)
  · intro key
    rw [hu'.dedup, show u₂.store.dedup = T from congrArg Data.dedup hd, hset key, hx,
      show u₁.store.dedup = w.store.dedup from hu₁.dedup, hrow]
    rfl
  · intro e' he'
    rw [hrow] at he'
    rw [← Option.some.inj he']
    exact hcount
  · intro b k _
    rw [hu'.payloads, hon.payloads, hu₁.payloads]
  · intro hnone
    rw [hrow] at hnone
    cases hnone
  · exact (hu₁.toOnTables.trans (hon.trans hu'.toOnTables)).log

/-- the replica that is stored on a backend -/
def Stored (o : ReclaimObject) (b : String) (g : ContentHash) (new : Replica) : Prop :=
  new.objectId = o.id ∧ new.generation = o.generation ∧ new.valid = true ∧
    new.location.backend = b ∧ new.contentHash = g

/-- **Storing on one backend is all or nothing** when the run is careful. -/
theorem storePayloadOnBackend_outcome {o : ReclaimObject} {b : String} {data : Bytes}
    {g : ContentHash} {now : Int} {index : Nat} {r : Res Replica} (hn : n ≤ w.log.length)
    (h : Ran (gated (watched strict n) env t op)
      (Coordinator.storePayloadOnBackend env o b data g now index).run w r w') :
    (∃ e, r = .error e) ∧ Elsewhere b w w' ∧
        Tells strict (w'.payloads = w.payloads) (Ran (gated (careful n) env t op)
          (Coordinator.storePayloadOnBackend env o b data g now index).run w r w') ∨
      ∃ new, r = .ok new ∧ Stored o b g new ∧ Added n new w w' ∧
        Tells strict (new.Free w) (Ran (gated (careful n) env t op)
          (Coordinator.storePayloadOnBackend env o b data g now index).run w r w') := by
  have hread {x : Res (Option DedupEntry × Option String)} {w₁ : Traced}
      (hx : Ran (gated (watched strict n) env t op) (Coordinator.withInner do
        let existing ← Coordinator.store (.getDedup g b)
        let c ← Coordinator.config
        let ownerNode ← settle (Coordinator.nodeForBackendLocked c b)
        pure (existing, ownerNode)).run w x w₁) :
      Resting w w₁ ∧ ∀ a, x = .ok a → a.1 = w.store.dedup.find? (g, b) := by
    have hrest : Restful (Coordinator.withInner do
        let existing ← Coordinator.store (.getDedup g b)
        let c ← Coordinator.config
        let ownerNode ← settle (Coordinator.nodeForBackendLocked c b)
        pure (existing, ownerNode)) :=
      restful_withInner (only_bind (restful_store rfl) fun _ => only_bind restful_config fun _ =>
        only_bind only_settle fun _ => only_pure)
    refine ⟨rests hrest hx, ?_⟩
    rintro a rfl
    rcases ran_withInner hx with ⟨_, hno, -⟩ | ⟨u₁, u₂, hu, hbody, -⟩
    · cases hno
    obtain ⟨existing, u₃, hget, hbody⟩ := ran_seq_ok hbody
    obtain ⟨c, u₄, -, hbody⟩ := ran_seq_ok hbody
    obtain ⟨owner, u₅, -, hbody⟩ := ran_seq_ok hbody
    cases (ran_pure.mp hbody).1
    obtain ⟨i, he⟩ := ran_storeCall hget
    rcases gated_store he with ⟨_, hno, -⟩ | ⟨y, hy, hrun, -⟩
    · cases hno
    · cases hy
      have hfound : u₁.store.dedup.find? (g, b) = existing := (Prod.mk.inj (Except.ok.inj hrun)).1
      rw [← hfound, hu.dedup]
  have hinert : Inert (Coordinator.withInner do
      let existing ← Coordinator.store (.getDedup g b)
      let c ← Coordinator.config
      let ownerNode ← settle (Coordinator.nodeForBackendLocked c b)
      pure (existing, ownerNode)) :=
    inert_withInner (only_bind (inert_store _) fun _ => only_bind inert_config fun _ =>
      only_bind only_settle fun _ => only_pure)
  rcases ran_seq.mp h with ⟨e, rfl, hx⟩ | ⟨⟨existing, owner⟩, w₁, hx, h₁⟩
  · exact .inl ⟨⟨e, rfl⟩, (hread hx).1.toRests.elsewhere,
      .of (hread hx).1.payloads (ran_seq.mpr (.inl ⟨e, rfl, hinert.careful hx⟩))⟩
  obtain ⟨hs, hexisting⟩ := hread hx
  have hexisting : existing = w.store.dedup.find? (g, b) := hexisting _ rfl
  have hn₁ := hs.toOnTables.length hn
  have hx := hinert.careful hx
  -- the replica, but for its identifier
  let made (key : String) : Replica :=
    { replicaId := .nil, objectId := o.id, generation := o.generation, location := ⟨b, key, .hot⟩,
      size := data.length, contentHash := g, createdAtMs := now, verifiedAtMs := some now,
      valid := true, ownerNode := owner }
  have hrecord {key : String} {w₂ : Traced} (ha : Attached n (made key) w w₂)
      (h₂ : Ran (gated (watched strict n) env t op) (do
        let replicaId ← Coordinator.ask .newUuid
        Coordinator.recordReplica { made key with replicaId := replicaId }
        pure { made key with replicaId := replicaId } : M Replica).run w₂ r w')
      (ht : Tells strict ((made key).Free w) (Ran (gated (careful n) env t op) (do
          let replicaId ← Coordinator.ask .newUuid
          Coordinator.recordReplica { made key with replicaId := replicaId }
          pure { made key with replicaId := replicaId } : M Replica).run w₂ r w' →
        Ran (gated (careful n) env t op)
          (Coordinator.storePayloadOnBackend env o b data g now index).run w r w')) :
      (∃ e, r = .error e) ∧ Elsewhere b w w' ∧
          Tells strict (w'.payloads = w.payloads) (Ran (gated (careful n) env t op)
            (Coordinator.storePayloadOnBackend env o b data g now index).run w r w') ∨
        ∃ new, r = .ok new ∧ Stored o b g new ∧ Added n new w w' ∧
          Tells strict (new.Free w) (Ran (gated (careful n) env t op)
            (Coordinator.storePayloadOnBackend env o b data g now index).run w r w') := by
    have ht := ht.imp fun hc => hc (Inert.careful (only_bind (inert_ask rfl) fun _ =>
      only_bind (inert_recordReplica _) fun _ => only_pure) h₂)
    obtain ⟨_, id, w₃, hid, h₃⟩ := ran_ask_seq h₂
    have ha₃ := (ha.named id).rests (rests_step rfl hid).toRests
    rcases ran_seq.mp h₃ with ⟨e, rfl, hx⟩ | ⟨_, w₄, hx, h₄⟩
    · rcases recordReplica_outcome ha₃ hx with ⟨-, helse, hsame⟩ | ⟨hno, -⟩
      · exact .inl ⟨⟨e, rfl⟩, helse, ht.iff hsame⟩
      · cases hno
    · obtain ⟨rfl, rfl⟩ := ran_pure.mp h₄
      rcases recordReplica_outcome ha₃ hx with ⟨⟨_, hno⟩, -⟩ | ⟨-, hrec⟩
      · cases hno
      · exact .inr ⟨_, rfl, ⟨rfl, rfl, rfl, rfl, rfl⟩, hrec, ht⟩
  cases existing with
  | none =>
    have hnone : w.store.dedup.find? (g, b) = none := hexisting.symm
    have hnone₁ : w₁.store.dedup.find? (made (Coordinator.freshKey g index)).ref = none := by
      rw [hs.dedup]
      exact hnone
    have hfree := ((made (Coordinator.freshKey g index)).free_rests hs.toRests).symm
    rcases ran_seq.mp h₁ with ⟨_, -, hy⟩ | ⟨⟨key, stored⟩, w₂, hy, h₂⟩
    · cases (ran_pure.mp hy).1
    obtain ⟨hkey, rfl⟩ := ran_pure.mp hy
    cases hkey
    rcases ran_seq.mp h₂ with ⟨e, rfl, hz⟩ | ⟨_, w₃, hz, h₃⟩
    · rcases storeNew_outcome (made (Coordinator.freshKey g index)) hn₁ rfl hnone₁ hz with
        ⟨-, helse, ht⟩ | ⟨hno, -⟩
      · refine .inl ⟨⟨e, rfl⟩, hs.toRests.elsewhere.trans helse, (ht.imp fun hc => ?_).iff ?_⟩
        · exact ran_seq.mpr (.inr ⟨_, w₂, hx, ran_seq.mpr (.inr ⟨_, w₂, ran_pure.mpr ⟨rfl, rfl⟩,
            ran_seq.mpr (.inl ⟨e, rfl, hc⟩)⟩)⟩)
        · rw [hs.payloads]
      · cases hno
    · rcases storeNew_outcome (made (Coordinator.freshKey g index)) hn₁ rfl hnone₁ hz with
        ⟨⟨_, hno⟩, -⟩ | ⟨-, ha, ht⟩
      · cases hno
      · refine hrecord (ha.of_rests hs.toRests) h₃ ((ht.imp fun hc hlast => ?_).iff hfree)
        exact ran_seq.mpr (.inr ⟨_, w₂, hx, ran_seq.mpr (.inr ⟨_, w₂, ran_pure.mpr ⟨rfl, rfl⟩,
          ran_seq.mpr (.inr ⟨(), w₃, hc, hlast⟩)⟩)⟩)
  | some e =>
    have hrow : w₁.store.dedup.find? (made e.key).ref = some e := by
      rw [hs.dedup]
      exact hexisting.symm
    have hfree : (made e.key).Free w := by
      intro hnone
      rw [show w.store.dedup.find? (made e.key).ref = some e from hexisting.symm] at hnone
      cases hnone
    rcases ran_seq.mp h₁ with ⟨err, rfl, hy⟩ | ⟨⟨key, stored⟩, w₂, hy, h₂⟩
    · rcases canonicalKey_outcome (made e.key) hn₁ hrow hy with ⟨-, hrest⟩ | ⟨hno, -⟩
      · have hall := hs.toRests.trans hrest
        exact .inl ⟨⟨err, rfl⟩, hall.elsewhere, .of hall.payloads (ran_seq.mpr (.inr
          ⟨_, w₁, hx, ran_seq.mpr (.inl ⟨err, rfl, careful_canonicalKey hy⟩)⟩))⟩
      · cases hno
    · rcases canonicalKey_outcome (made e.key) hn₁ hrow hy with
        ⟨⟨_, hno⟩, -⟩ | ⟨hkey, ha⟩
      · cases hno
      cases hkey
      refine hrecord (ha.of_rests hs.toRests) h₂ (.of hfree fun hlast => ?_)
      exact ran_seq.mpr (.inr ⟨_, w₁, hx, ran_seq.mpr (.inr
        ⟨_, w₂, careful_canonicalKey hy, hlast⟩)⟩)

end

/-! ## what has been stored so far -/

/-- the payloads that were written for these replicas -/
def writtenFor (w₀ : Traced) (out : List Replica) : List (String × String) :=
  (out.filter fun r => (w₀.store.dedup.find? r.ref).isNone).map fun r =>
    (r.location.backend, r.location.key)

/-- the rows of the start and those of `out` -/
structure Staged (n : Nat) (w₀ : Traced) (out : List Replica) (w : Traced) : Prop where
  length : n ≤ w.log.length
  objects : w.store.objects = w₀.store.objects
  config : w.proc.config = w₀.proc.config
  replicas : ∀ r, r ∈ w.store.replicas ↔ r ∈ w₀.store.replicas ∨ r ∈ out
  fresh : ∀ r ∈ out, ∀ x ∈ w₀.store.replicas, x.replicaId ≠ r.replicaId
  distinct : (out.map Replica.replicaId).Nodup
  refs : (out.map Replica.ref).Nodup
  counted : ∀ r ∈ out,
    w.store.dedup.find? r.ref = some (referenced (w₀.store.dedup.find? r.ref) r) ∧
      ∀ e, w₀.store.dedup.find? r.ref = some e → e.refCount ≠ 0
  dedup : ∀ key, key ∉ out.map Replica.ref →
    w.store.dedup.find? key = w₀.store.dedup.find? key
  backed : ∀ p ∈ writtenFor w₀ out, Backed w₀.proc.config p.1
  staging : out ≠ [] → Staging n w

/-- the payloads of the start, but for those that were written -/
def Untampered (w₀ : Traced) (out : List Replica) (w : Traced) : Prop :=
  ∀ b k, (b, k) ∉ writtenFor w₀ out → w.payloads b k = w₀.payloads b k

/-- these payloads are gone, and no other -/
def Wiped (pend : List (String × String)) (w w' : Traced) : Prop :=
  ∀ b k, w'.payloads b k = if (b, k) ∈ pend then none else w.payloads b k

/-- the tables have the same rows, and there are the same payloads -/
structure Reverted (w w' : Traced) : Prop where
  rows : EqualRows w.store.data w'.store.data
  payloads : w'.payloads = w.payloads

section
variable {strict : Bool} {n : Nat} {env : Env} {t : Tid} {op : Op} {w₀ w w₁ w' : Traced}
  {out : List Replica} {pend : List (String × String)}

theorem Staged.start (hn : n ≤ w.log.length) : Staged n w [] w where
  length := hn
  objects := rfl
  config := rfl
  replicas := fun _ => ⟨.inl, fun h => h.elim id fun hno => absurd hno List.not_mem_nil⟩
  fresh := fun _ h => absurd h List.not_mem_nil
  distinct := List.nodup_nil
  refs := List.nodup_nil
  counted := fun _ h => absurd h List.not_mem_nil
  dedup := fun _ _ => rfl
  backed := fun _ h => absurd h List.not_mem_nil
  staging := fun h => absurd rfl h

theorem Staged.asBefore (h : Staged n w₀ out w) (hs : AsBefore w w') : Staged n w₀ out w' where
  length := by
    obtain ⟨l, hl⟩ := hs.log
    have hn := h.length
    rw [hl, List.length_append]
    omega
  objects := hs.objects.trans h.objects
  config := hs.config.trans h.config
  replicas := by
    rw [hs.replicas]
    exact h.replicas
  fresh := h.fresh
  distinct := h.distinct
  refs := h.refs
  counted := fun r hr => ⟨(hs.dedup r.ref).trans (h.counted r hr).1, (h.counted r hr).2⟩
  dedup := fun key hk => (hs.dedup key).trans (h.dedup key hk)
  backed := h.backed
  staging := fun hne => (h.staging hne).later hs.log

theorem writtenFor_rests (hs : Rests w₁ w₀) : writtenFor w₀ out = writtenFor w₁ out := by
  unfold writtenFor
  rw [hs.dedup]

/-- the start may be an earlier state of rest -/
theorem Staged.of_rests (hs : Rests w₁ w₀) (h : Staged n w₀ out w) : Staged n w₁ out w where
  length := h.length
  objects := h.objects.trans hs.objects
  config := h.config.trans hs.config
  replicas := by
    rw [← hs.replicas]
    exact h.replicas
  fresh := by
    rw [← hs.replicas]
    exact h.fresh
  distinct := h.distinct
  refs := h.refs
  counted := by
    rw [← hs.dedup]
    exact h.counted
  dedup := by
    rw [← hs.dedup]
    exact h.dedup
  backed := by
    rw [← writtenFor_rests hs, ← hs.config]
    exact h.backed
  staging := h.staging

theorem untampered_start (w : Traced) : Untampered w [] w := fun _ _ _ => rfl

theorem Untampered.payloads (h : Untampered w₀ out w) (hs : w'.payloads = w.payloads) : Untampered w₀ out w' := by
  intro b k hk
  rw [hs]
  exact h b k hk

theorem wiped_nil (h : w'.payloads = w.payloads) : Wiped [] w w' := by
  intro b k
  rw [h, if_neg List.not_mem_nil]

/-- the rows of the start -/
theorem Staged.rows (h : Staged n w₀ [] w) : EqualRows w₀.store.data w.store.data where
  objects := by
    rw [show w.store.data.objects = w₀.store.data.objects from h.objects]
    exact fun _ => rfl
  replicas := fun r => (h.replicas r).trans
    ⟨fun hr => hr.elim id fun hno => absurd hno List.not_mem_nil, .inl⟩
  dedup := fun key => h.dedup key List.not_mem_nil

/-- a replica that stays is a row more -/
theorem Staged.not_reverted (h : Staged n w₀ out w) (hne : out ≠ []) : ¬Reverted w₀ w := by
  intro hback
  obtain ⟨x, hx⟩ := List.exists_mem_of_ne_nil out hne
  exact h.fresh x hx x ((hback.rows.replicas x).mp ((h.replicas x).mpr (.inr hx))) rfl

theorem forall_writtenFor :
    (∀ p ∈ writtenFor w₀ out, w₀.payloads p.1 p.2 = none) ↔ ∀ x ∈ out, x.Free w₀ := by
  constructor
  · intro h x hx hnone
    refine h _ (List.mem_map.mpr ⟨x, List.mem_filter.mpr ⟨hx, ?_⟩, rfl⟩)
    exact Option.isNone_iff_eq_none.mpr hnone
  · rintro h p hp
    obtain ⟨x, hx, rfl⟩ := List.mem_map.mp hp
    obtain ⟨hx, hnone⟩ := List.mem_filter.mp hx
    exact h x hx (Option.isNone_iff_eq_none.mp hnone)

/-- once they are cleared, the payloads are those of the start just when none of them was there, and
the others are the same -/
theorem Wiped.restored_iff (h : Wiped (writtenFor w₀ out) w w') :
    w'.payloads = w₀.payloads ↔ (∀ x ∈ out, x.Free w₀) ∧ Untampered w₀ out w := by
  rw [← forall_writtenFor]
  constructor
  · intro hsame
    refine ⟨fun p hp => ?_, fun b k hk => ?_⟩
    · rw [← hsame, h, if_pos hp]
    · rw [← hsame, h, if_neg hk]
  · rintro ⟨hnone, hkept⟩
    funext b k
    rw [h]
    by_cases hk : (b, k) ∈ writtenFor w₀ out
    · rw [if_pos hk]
      exact (hnone (b, k) hk).symm
    · rw [if_neg hk]
      exact hkept b k hk

theorem not_mem_writtenFor {b : String} (h : ∀ x ∈ out, x.location.backend ≠ b) (k : String) :
    (b, k) ∉ writtenFor w₀ out := by
  intro hm
  obtain ⟨x, hx, hsame⟩ := List.mem_map.mp hm
  exact h x (List.mem_filter.mp hx).1 (Prod.mk.inj hsame).1

/-- where another backend was written, too -/
theorem Untampered.elsewhere_iff {b : String} (h : Untampered w₀ out w) (helse : Elsewhere b w w₁)
    (hb : ∀ x ∈ out, x.location.backend ≠ b) : Untampered w₀ out w₁ ↔ w₁.payloads = w.payloads := by
  constructor
  · intro h₁
    funext b' k
    by_cases hbb : b' = b
    · rw [hbb, h₁ b k (not_mem_writtenFor hb k), h b k (not_mem_writtenFor hb k)]
    · exact helse.payloads b' k hbb
  · intro hsame
    exact h.payloads hsame

theorem mem_writtenFor_append {new : Replica} {p : String × String} :
    p ∈ writtenFor w₀ (out ++ [new]) ↔ p ∈ writtenFor w₀ out ∨
      w₀.store.dedup.find? new.ref = none ∧ p = (new.location.backend, new.location.key) := by
  rw [writtenFor, List.filter_append, List.map_append, List.mem_append]
  refine or_congr Iff.rfl ?_
  cases hnew : w₀.store.dedup.find? new.ref with
  | none =>
    rw [List.filter_cons_of_pos (by rw [hnew]; rfl)]
    simp
  | some e =>
    rw [List.filter_cons_of_neg (by rw [hnew]; simp)]
    simp

theorem Staged.unreferenced (h : Staged n w₀ out w) (key : ContentHash × String)
    (hother : ∀ x ∈ out, x.location.backend ≠ key.2) :
    w.store.dedup.find? key = w₀.store.dedup.find? key := by
  refine h.dedup key fun hm => ?_
  obtain ⟨x, hx, rfl⟩ := List.mem_map.mp hm
  exact hother x hx rfl

/-- what lies where a new payload goes has been there from the start -/
theorem Staged.free_iff {new : Replica} (h : Staged n w₀ out w) (hkept : Untampered w₀ out w)
    (hother : ∀ x ∈ out, x.location.backend ≠ new.location.backend) :
    new.Free w ↔ new.Free w₀ := by
  unfold Replica.Free
  rw [h.unreferenced new.ref hother, hkept _ _ (not_mem_writtenFor hother _)]

theorem Untampered.add {new : Replica} (h : Staged n w₀ out w) (hkept : Untampered w₀ out w)
    (hother : ∀ x ∈ out, x.location.backend ≠ new.location.backend) (hr : Added n new w w') :
    Untampered w₀ (out ++ [new]) w' := by
  intro b k hk
  rw [mem_writtenFor_append, not_or] at hk
  rw [hr.payloads b k ?_, hkept b k hk.1]
  rintro ⟨hnone, rfl, rfl⟩
  exact hk.2 ⟨(h.unreferenced new.ref hother).symm.trans hnone, rfl⟩

/-- one more replica -/
theorem Staged.add {new : Replica} (h : Staged n w₀ out w)
    (hother : ∀ x ∈ out, x.location.backend ≠ new.location.backend) (hr : Added n new w w') :
    Staged n w₀ (out ++ [new]) w' := by
  have href : new.ref ∉ out.map Replica.ref := by
    intro hm
    obtain ⟨r, hr, hsame⟩ := List.mem_map.mp hm
    exact hother r hr (Prod.mk.inj hsame).2
  have hrow : w.store.dedup.find? new.ref = w₀.store.dedup.find? new.ref := h.dedup _ href
  have hin {r : Replica} : r ∈ out ++ [new] ↔ r ∈ out ∨ r = new := by
    rw [List.mem_append, List.mem_singleton]
  refine ⟨hr.staging.length, hr.objects.trans h.objects, hr.config.trans h.config, ?_, ?_, ?_, ?_,
    ?_, ?_, ?_, fun _ => hr.staging⟩
  · intro r
    rw [hr.replicas, h.replicas, hin]
    exact or_assoc
  · intro r hm x hx
    rcases hin.mp hm with hm | rfl
    · exact h.fresh r hm x hx
    · exact hr.fresh x ((h.replicas x).mpr (.inl hx))
  · rw [List.map_append, List.nodup_append]
    refine ⟨h.distinct, List.nodup_singleton _, ?_⟩
    intro a ha b hb
    obtain ⟨r, hm, rfl⟩ := List.mem_map.mp ha
    rw [List.mem_singleton.mp hb]
    exact hr.fresh r ((h.replicas r).mpr (.inr hm))
  · rw [List.map_append, List.nodup_append]
    refine ⟨h.refs, List.nodup_singleton _, ?_⟩
    intro a ha b hb
    rw [List.mem_singleton.mp hb]
    rintro rfl
    exact href ha
  · intro r hm
    rcases hin.mp hm with hm | rfl
    · have hne : r.ref ≠ new.ref := by
        intro hsame
        exact href (hsame ▸ List.mem_map_of_mem hm)
      rw [hr.dedup, if_neg hne]
      exact h.counted r hm
    · rw [hr.dedup, if_pos rfl, ← hrow]
      exact ⟨rfl, hr.counted⟩
  · intro key hk
    rw [List.map_append, List.mem_append, not_or] at hk
    have hne : key ≠ new.ref := by
      rintro rfl
      exact hk.2 List.mem_cons_self
    rw [hr.dedup, if_neg hne]
    exact h.dedup key hk.1
  · intro p hp
    rcases mem_writtenFor_append.mp hp with hp | ⟨hnone, rfl⟩
    · exact h.backed p hp
    · rw [← h.config]
      exact hr.backed (hrow.trans hnone)

/-- the rows of the first replica go -/
theorem Staged.release {r : Replica} {last : Bool} (h : Staged n w₀ (r :: out) w)
    (hdel : Store.deleteReplica r.replicaId w.store = .ok ((), w₁.store)) (hon : OnTables w w₁)
    (hrel : Store.dedupRelease r.contentHash r.location.backend w₁.store = .ok (last, w'.store))
    (hon' : OnTables w₁ w') :
    (last = true ↔ w₀.store.dedup.find? r.ref = none) ∧ Staged n w₀ out w' := by
  have hd₁ := Store.deleteReplica_ok hdel
  obtain ⟨e, hfind, -, hlast, T, hd, hset⟩ := Store.dedupRelease_ok hrel
  have hall := hon.trans hon'
  have hsame : w₁.store.dedup = w.store.dedup := congrArg Data.dedup hd₁
  obtain ⟨hrow, hcount⟩ := h.counted r List.mem_cons_self
  have he : e = referenced (w₀.store.dedup.find? r.ref) r := by
    have hread : w₁.store.dedup.find? r.ref = some e := hfind
    rw [hsame, hrow] at hread
    exact (Option.some.inj hread).symm
  obtain ⟨hback, hone⟩ := unreferenced_referenced r hcount
  have hdedup (key : ContentHash × String) : w'.store.dedup.find? key =
      if key = r.ref then w₀.store.dedup.find? r.ref else w.store.dedup.find? key := by
    rw [show w'.store.dedup = T from congrArg Data.dedup hd, hset key, hsame, ← hback, ← he]
    rfl
  have hobj₁ : w₁.store.objects = w.store.objects := congrArg Data.objects hd₁
  have hobj : w'.store.objects = w₁.store.objects := congrArg Data.objects hd
  have hrep₁ : w₁.store.replicas = w.store.replicas.erase r.replicaId := congrArg Data.replicas hd₁
  have hrep : w'.store.replicas = w₁.store.replicas := congrArg Data.replicas hd
  have hdistinct := List.nodup_cons.mp h.distinct
  have hrefs := List.nodup_cons.mp h.refs
  refine ⟨?_, hall.length h.length, hobj.trans (hobj₁.trans h.objects), hall.config.trans h.config,
    ?_, fun x hx => h.fresh x (List.mem_cons_of_mem r hx), hdistinct.2, hrefs.2, ?_, ?_, ?_,
    fun _ => (h.staging (List.cons_ne_nil r out)).later hall.log⟩
  · rw [hlast, decide_eq_true_iff, he]
    constructor
    · exact hone
    · intro hnone
      rw [hnone]
      rfl
  · intro x
    rw [hrep, hrep₁, Table.mem_erase, h.replicas, List.mem_cons]
    constructor
    · rintro ⟨hx | rfl | hx, hne⟩
      · exact .inl hx
      · exact absurd rfl hne
      · exact .inr hx
    · rintro (hx | hx)
      · exact ⟨.inl hx, h.fresh r List.mem_cons_self x hx⟩
      · refine ⟨.inr (.inr hx), fun hid => hdistinct.1 ?_⟩
        rw [← hid]
        exact List.mem_map_of_mem hx
  · intro x hx
    have hne : x.ref ≠ r.ref := by
      intro hsame
      exact hrefs.1 (hsame ▸ List.mem_map_of_mem hx)
    rw [hdedup, if_neg hne]
    exact h.counted x (List.mem_cons_of_mem r hx)
  · intro key hk
    rw [hdedup]
    by_cases hkey : key = r.ref
    · rw [if_pos hkey, hkey]
    · rw [if_neg hkey]
      refine h.dedup key fun hm => ?_
      rcases List.mem_cons.mp hm with hm | hm
      · exact hkey hm
      · exact hk hm
  · intro p hp
    obtain ⟨x, hx, rfl⟩ := List.mem_map.mp hp
    obtain ⟨hx, hnone⟩ := List.mem_filter.mp hx
    exact h.backed _ (List.mem_map_of_mem (List.mem_filter.mpr ⟨List.mem_cons_of_mem r hx, hnone⟩))

theorem Deleted.asBefore {b k : String} (h : Deleted b k w w') : AsBefore w w' :=
  h.toOnPayload.elsewhere.toAsBefore

theorem Deleted.wiped {b k : String} (h : Deleted b k w w') (hrest : Wiped pend w' w₁) :
    Wiped ((b, k) :: pend) w w₁ := by
  intro b' k'
  rw [hrest]
  by_cases hp : (b', k') = (b, k)
  · obtain ⟨rfl, rfl⟩ := Prod.mk.inj hp
    rw [h.gone, ite_self, if_pos List.mem_cons_self]
  · have hne : ¬(True ∧ b' = b ∧ k' = k) := fun hc => hp (Prod.ext hc.2.1 hc.2.2)
    rw [h.payloads b' k' fun hc => hne ⟨trivial, hc.2⟩]
    simp only [List.mem_cons, hp, false_or]

/-! ## the rollback -/

theorem inert_releaseReplicas (replicas : List Replica) (physical : List (String × String)) :
    Inert (Coordinator.releaseReplicas replicas physical) := by
  induction replicas generalizing physical with
  | nil => exact only_pure
  | cons r rs ih =>
    refine only_bind (inert_store _) fun _ => only_bind (inert_store _) fun last => ?_
    exact only_ite (ih _) (ih _)

theorem inert_deletePayloads (pend : List (String × String)) :
    Inert (Coordinator.deletePayloads pend) := by
  induction pend with
  | nil => exact only_pure
  | cons p ps ih => exact only_bind (inert_deletePayload _ _) fun _ => ih

theorem inert_rollbackReplicasUnderGuard (replicas : List Replica) :
    Inert (Coordinator.rollbackReplicasUnderGuard replicas) :=
  only_bind (inert_withInner (inert_releaseReplicas _ _)) fun _ => inert_deletePayloads _

theorem inert_rollbackReplicas (replicas : List Replica) :
    Inert (Coordinator.rollbackReplicas replicas) :=
  only_bind (inert_beginPayloadOperations _) fun _ =>
    only_bind (only_attempt (inert_rollbackReplicasUnderGuard _)) fun _ =>
      only_bind (inert_ask rfl) fun _ => only_settle

theorem releaseReplicas_done {physical : List (String × String)}
    {r : Res (List (String × String))} (h : Staged n w₀ out w)
    (hrun : Ran (gated (watched strict n) env t op)
      (Coordinator.releaseReplicas out physical).run w r w') :
    r = .ok (physical ++ writtenFor w₀ out) ∧ Staged n w₀ [] w' ∧ w'.payloads = w.payloads := by
  induction out generalizing w physical with
  | nil =>
    obtain ⟨rfl, rfl⟩ := ran_pure.mp hrun
    exact ⟨by rw [writtenFor, List.filter_nil, List.map_nil, List.append_nil], h, rfl⟩
  | cons x rest ih =>
    rcases ran_seq.mp hrun with ⟨_, -, hx⟩ | ⟨_, w₁, hx, h₁⟩
    · cases (watched_deleteReplica hx).1
    obtain ⟨-, hdel, hon⟩ := watched_deleteReplica hx
    rcases ran_seq.mp h₁ with ⟨_, -, hy⟩ | ⟨last, w₂, hy, h₂⟩
    · obtain ⟨_, hno, -⟩ := watched_release hy
      cases hno
    obtain ⟨_, hlast, hrel, hon'⟩ := watched_release hy
    cases hlast
    obtain ⟨hiff, hstaged⟩ := h.release hdel hon hrel hon'
    have hpayloads : w₂.payloads = w.payloads := hon'.payloads.trans hon.payloads
    cases last with
    | true =>
      obtain ⟨rfl, hend, hsame⟩ := ih hstaged h₂
      have hnone := hiff.mp rfl
      refine ⟨?_, hend, hsame.trans hpayloads⟩
      rw [writtenFor, writtenFor, List.filter_cons_of_pos (by rw [hnone]; rfl), List.map_cons,
        List.append_assoc]
      rfl
    | false =>
      obtain ⟨rfl, hend, hsame⟩ := ih hstaged h₂
      have hsome : (w₀.store.dedup.find? x.ref).isNone = false := by
        refine Bool.eq_false_iff.mpr fun hnone => ?_
        cases hiff.mpr (Option.isNone_iff_eq_none.mp hnone)
      refine ⟨?_, hend, hsame.trans hpayloads⟩
      rw [writtenFor, writtenFor, List.filter_cons_of_neg (by rw [hsome]; exact Bool.false_ne_true)]

theorem deletePayloads_done {r : Res Unit} (hs : Staging n w)
    (hb : ∀ p ∈ pend, Backed w.proc.config p.1)
    (hrun : Ran (gated (watched strict n) env t op) (Coordinator.deletePayloads pend).run w r w') :
    r = .ok () ∧ AsBefore w w' ∧ Wiped pend w w' := by
  induction pend generalizing w with
  | nil =>
    obtain ⟨rfl, rfl⟩ := ran_pure.mp hrun
    exact ⟨rfl, (Rests.refl w').asBefore, wiped_nil rfl⟩
  | cons p rest ih =>
    have hbp := hb p List.mem_cons_self
    rcases ran_seq.mp hrun with ⟨_, -, hx⟩ | ⟨_, w₁, hx, h₁⟩
    · cases (deletePayload_done hs hbp hx).1
    obtain ⟨-, hgone⟩ := deletePayload_done hs hbp hx
    have hb₁ (q : String × String) (hq : q ∈ rest) : Backed w₁.proc.config q.1 := by
      rw [hgone.config]
      exact hb q (List.mem_cons_of_mem p hq)
    obtain ⟨rfl, hrows, hwiped⟩ := ih (hs.later hgone.log) hb₁ h₁
    exact ⟨rfl, hgone.asBefore.trans hrows, hgone.wiped hwiped⟩

/-- **The rollback leaves no row behind**, and no payload that was written. -/
theorem rollback_done {r : Res Unit} (h : Staged n w₀ out w)
    (hrun : Ran (gated (watched strict n) env t op)
      (Coordinator.rollbackReplicasUnderGuard out).run w r w') :
    Staged n w₀ [] w' ∧ Wiped (writtenFor w₀ out) w w' := by
  cases hout : out with
  | nil =>
    subst hout
    have hdone (hs : Rests w w') : Staged n w₀ [] w' ∧ Wiped (writtenFor w₀ []) w w' :=
      ⟨h.asBefore hs.asBefore, wiped_nil hs.payloads⟩
    rcases ran_seq.mp hrun with ⟨_, -, hx⟩ | ⟨physical, w₁, hx, h₁⟩
    · exact hdone (rests (restful_withInner only_pure) hx).toRests
    rcases ran_withInner hx with ⟨_, hno, -⟩ | ⟨u₁, u₂, hu, hbody, hu'⟩
    · cases hno
    obtain ⟨hp, rfl⟩ := ran_pure.mp hbody
    cases hp
    obtain ⟨-, rfl⟩ := ran_pure.mp h₁
    exact hdone (hu.trans hu').toRests
  | cons x rest =>
    have hs := h.staging (by rw [hout]; exact List.cons_ne_nil x rest)
    rw [← hout]
    have hrelease {y : Res (List (String × String))} {w₁ : Traced}
        (hx : Ran (gated (watched strict n) env t op)
          (Coordinator.withInner (Coordinator.releaseReplicas out [])).run w y w₁) :
        y = .ok (writtenFor w₀ out) ∧ Staged n w₀ [] w₁ ∧ w₁.payloads = w.payloads ∧
          Staging n w₁ := by
      obtain ⟨u₁, u₂, hu, hbody, hu'⟩ := watched_section hs hx
      obtain ⟨hy, hend, hsame⟩ := releaseReplicas_done (h.asBefore hu.toRests.asBefore) hbody
      have hlater := ((hs.later hu.log).later (gated_ran_log hbody)).later hu'.log
      exact ⟨hy, hend.asBefore hu'.toRests.asBefore,
        hu'.payloads.trans (hsame.trans hu.payloads), hlater⟩
    rcases ran_seq.mp hrun with ⟨_, -, hx⟩ | ⟨physical, w₁, hx, h₁⟩
    · cases (hrelease hx).1
    obtain ⟨hp, hend, hsame, hs₁⟩ := hrelease hx
    cases hp
    have hb (p : String × String) (hp : p ∈ writtenFor w₀ out) : Backed w₁.proc.config p.1 := by
      rw [hend.config]
      exact h.backed p hp
    obtain ⟨-, hrows, hwiped⟩ := deletePayloads_done hs₁ hb h₁
    refine ⟨hend.asBefore hrows, fun b k => ?_⟩
    rw [hwiped, hsame]

/-! ## the loop over the targets -/

theorem storeOnTargets_outcome {o : ReclaimObject} {data : Bytes} {g : ContentHash} {now : Int}
    {targets : List String} {index : Nat} {r : Res (List Replica)} (h : Staged n w₀ out w)
    (hkept : Untampered w₀ out w) (hfree : strict = true → ∀ x ∈ out, x.Free w₀)
    (hother : ∀ b ∈ targets, ∀ x ∈ out, x.location.backend ≠ b) (hnodup : targets.Nodup)
    (hrun : Ran (gated (watched strict n) env t op)
      (Coordinator.storeOnTargets env o data g now targets index out).run w r w') :
    (∃ e, r = .error e) ∧ Staged n w₀ [] w' ∧
        Tells strict (w'.payloads = w₀.payloads) ((∀ x ∈ out, x.Free w₀) ∧
          Ran (gated (careful n) env t op)
            (Coordinator.storeOnTargets env o data g now targets index out).run w r w') ∨
      ∃ rs, r = .ok (out ++ rs) ∧ rs.map (fun x => x.location.backend) = targets ∧
        (∀ x ∈ rs, Stored o x.location.backend g x) ∧ Staged n w₀ (out ++ rs) w' ∧
        Untampered w₀ (out ++ rs) w' ∧
        Tells strict (∀ x ∈ rs, x.Free w₀) (Ran (gated (careful n) env t op)
          (Coordinator.storeOnTargets env o data g now targets index out).run w r w') := by
  induction targets generalizing w index out with
  | nil =>
    obtain ⟨rfl, rfl⟩ := ran_pure.mp hrun
    refine .inr ⟨[], by rw [List.append_nil], rfl, fun _ hno => absurd hno List.not_mem_nil, ?_⟩
    rw [List.append_nil]
    exact ⟨h, hkept, .of (fun _ hno => absurd hno List.not_mem_nil) (ran_pure.mpr ⟨rfl, rfl⟩)⟩
  | cons b bs ih =>
    obtain ⟨x, w₁, hx, h₁⟩ := ran_attempt_seq hrun
    have hb' := hother b List.mem_cons_self
    rcases storePayloadOnBackend_outcome h.length hx with
      ⟨⟨e, rfl⟩, helse, ht⟩ | ⟨new, rfl, hnew, hrec, ht⟩
    · -- what the earlier targets got is released
      have hundo {y : Res Unit} {w₂ : Traced} (hy : Ran (gated (watched strict n) env t op)
          (Coordinator.rollbackReplicasUnderGuard out).run w₁ y w₂) : Staged n w₀ [] w₂ ∧
          (w₂.payloads = w₀.payloads ↔ (∀ x ∈ out, x.Free w₀) ∧ w₁.payloads = w.payloads) := by
        obtain ⟨hend, hwiped⟩ := rollback_done (h.asBefore helse.toAsBefore) hy
        exact ⟨hend, hwiped.restored_iff.trans
          (and_congr Iff.rfl (hkept.elsewhere_iff helse hb'))⟩
      have hlast := Inert.careful (only_bind (inert_rollbackReplicasUnderGuard _)
        fun _ => only_throw) h₁
      have htells {w₂ : Traced} (hiff : w₂.payloads = w₀.payloads ↔
          (∀ x ∈ out, x.Free w₀) ∧ w₁.payloads = w.payloads) :
          Tells strict (w₂.payloads = w₀.payloads) ((∀ x ∈ out, x.Free w₀) ∧
            Ran (gated (careful n) env t op)
              (Coordinator.storeOnTargets env o data g now (b :: bs) index out).run w r w') :=
        ⟨fun hs => hiff.mpr ⟨hfree hs, ht.holds hs⟩, fun hsame => ⟨(hiff.mp hsame).1, ran_seq.mpr
          (.inr ⟨_, w₁, ran_attempt.mpr ⟨_, rfl, ht.careful (hiff.mp hsame).2⟩, hlast⟩)⟩⟩
      rcases ran_seq.mp h₁ with ⟨e', rfl, hy⟩ | ⟨_, w₂, hy, h₂⟩
      · exact .inl ⟨⟨e', rfl⟩, (hundo hy).1, htells (hundo hy).2⟩
      · obtain ⟨rfl, rfl⟩ := ran_throw h₂
        exact .inl ⟨⟨e, rfl⟩, (hundo hy).1, htells (hundo hy).2⟩
    · have hb : new.location.backend = b := hnew.2.2.2.1
      have hothers : ∀ x ∈ out, x.location.backend ≠ new.location.backend := by
        rw [hb]
        exact hb'
      have ht := ht.iff (h.free_iff hkept hothers).symm
      have hadd := h.add hothers hrec
      have hfree' (hs : strict = true) : ∀ x ∈ out ++ [new], x.Free w₀ := by
        intro x hm
        rcases List.mem_append.mp hm with hm | hm
        · exact hfree hs x hm
        · rw [List.mem_singleton.mp hm]
          exact ht.holds hs
      have hother' : ∀ c ∈ bs, ∀ x ∈ out ++ [new], x.location.backend ≠ c := by
        intro c hc x hm
        rcases List.mem_append.mp hm with hm | hm
        · exact hother c (List.mem_cons_of_mem b hc) x hm
        · rw [List.mem_singleton.mp hm, hb]
          rintro rfl
          exact (List.nodup_cons.mp hnodup).1 hc
      have hcareful (hnew : new.Free w₀) (hc : Ran (gated (careful n) env t op)
          (Coordinator.storeOnTargets env o data g now bs (index + 1) (out ++ [new])).run w₁ r w') :
          Ran (gated (careful n) env t op)
            (Coordinator.storeOnTargets env o data g now (b :: bs) index out).run w r w' :=
        ran_seq.mpr (.inr ⟨_, w₁, ran_attempt.mpr ⟨_, rfl, ht.careful hnew⟩, hc⟩)
      have hmem : new ∈ out ++ [new] := List.mem_append_right _ (List.mem_singleton_self new)
      rcases ih hadd (hkept.add h hothers hrec) hfree' hother' (List.nodup_cons.mp hnodup).2 h₁ with
        ⟨he, hend, hrest⟩ | ⟨rs, rfl, hmap, hstored, hend, hkept', hrest⟩
      · refine .inl ⟨he, hend, hrest.imp ?_⟩
        rintro ⟨hall, hc⟩
        exact ⟨fun x hx => hall x (List.mem_append_left _ hx), hcareful (hall new hmem) hc⟩
      · rw [List.append_assoc] at hend hkept'
        refine .inr ⟨new :: rs, by rw [List.append_assoc]; rfl, ?_, ?_, hend, hkept', ?_, ?_⟩
        · rw [List.map_cons, hmap, hb]
        · intro x hx
          rcases List.mem_cons.mp hx with rfl | hx
          · rw [hb]
            exact hnew
          · exact hstored x hx
        · intro hs x hx
          rcases List.mem_cons.mp hx with rfl | hx
          · exact ht.holds hs
          · exact hrest.holds hs x hx
        · intro hall
          exact hcareful (hall new List.mem_cons_self)
            (hrest.careful fun x hx => hall x (List.mem_cons_of_mem new hx))

/-! ## the last write -/

theorem inert_publishObject (o : ReclaimObject) (audits : List AuditEntry)
    (replicas : List Replica) : Inert (Coordinator.publishObject o audits replicas) := by
  refine only_bind (only_attempt (inert_withInner (inert_store _))) fun y => ?_
  cases y with
  | ok _ => exact only_pure
  | error e =>
    refine only_ite (only_bind (inert_mapErr (inert_rollbackReplicas _)) fun _ => ?_) only_throw
    exact only_throw

/-- the object row is published, or everything is released -/
theorem publishObject_outcome {o : ReclaimObject} {audits : List AuditEntry} {r : Res ReclaimObject}
    (h : Staged n w₀ out w) (hkept : Untampered w₀ out w)
    (hrun : Ran (gated (watched strict n) env t op)
      (Coordinator.publishObject o audits out).run w r w') :
    (∃ e, r = .error e) ∧ Staged n w₀ [] w' ∧
        (w'.payloads = w₀.payloads ↔ ∀ x ∈ out, x.Free w₀) ∨
      r = .ok o ∧ w'.store.objects.find? o.id = some o ∧
        ∀ x, x ∈ w'.store.replicas ↔ x ∈ w₀.store.replicas ∨ x ∈ out := by
  obtain ⟨y, w₁, hx, h₁⟩ := ran_attempt_seq hrun
  rcases ran_innerWrite hx with ⟨e, rfl, hrest⟩ | ⟨_, s, s', rfl, hsd, hcreate, hsd', -⟩
  · refine .inl ?_
    have h₂ := h.asBefore hrest.asBefore
    have hkept₂ := hkept.payloads hrest.payloads
    rcases ran_guarded h₁ with ⟨hne, hx⟩ | ⟨hnil, hx⟩
    · have hundo {z : Res Unit} {w₂ : Traced} (hz : Ran (gated (watched strict n) env t op)
          (Coordinator.rollbackReplicas out).run w₁ z w₂) :
          Staged n w₀ [] w₂ ∧ (w₂.payloads = w₀.payloads ↔ ∀ x ∈ out, x.Free w₀) := by
        rcases ran_withPayloads hz with ⟨_, -, -, hbegin⟩ | ⟨u₁, u₂, hu, hbody, hu'⟩
        · cases watched_begin (h₂.staging hne) hbegin
        · obtain ⟨hend, hwiped⟩ := rollback_done (h₂.asBefore hu.toRests.asBefore) hbody
          refine ⟨hend.asBefore hu'.toRests.asBefore, ?_⟩
          rw [hu'.payloads, hwiped.restored_iff]
          exact and_iff_left (hkept₂.payloads hu.payloads)
      rcases ran_seq.mp hx with ⟨e', rfl, hz⟩ | ⟨_, w₂, hz, hlast⟩
      · obtain ⟨_, hz, -⟩ := ran_mapErr hz
        exact ⟨⟨e', rfl⟩, hundo hz⟩
      · obtain ⟨_, hz, -⟩ := ran_mapErr hz
        obtain ⟨rfl, rfl⟩ := ran_throw hlast
        exact ⟨⟨e, rfl⟩, hundo hz⟩
    · obtain ⟨rfl, rfl⟩ := ran_throw hx
      have hnil : out = [] := Decidable.not_not.mp hnil
      subst hnil
      have hsame : w'.payloads = w₀.payloads := by
        funext b k
        exact hkept₂ b k List.not_mem_nil
      exact ⟨⟨e, rfl⟩, h₂, fun _ _ hno => absurd hno List.not_mem_nil, fun _ => hsame⟩
  · obtain ⟨rfl, rfl⟩ := ran_pure.mp h₁
    obtain ⟨-, -, T, hinsert, hd⟩ := Store.createObjectWithAudits_ok hcreate
    have hobj : w'.store.objects = T := congrArg Data.objects (hsd'.symm.trans hd)
    have hrep : w'.store.replicas = s.replicas := congrArg Data.replicas (hsd'.symm.trans hd)
    refine .inr ⟨rfl, ?_, ?_⟩
    · rw [hobj, Table.find?_insert? hinsert, if_pos rfl]
    · intro x
      rw [hrep, show s.replicas = w.store.replicas from congrArg Data.replicas hsd]
      exact h.replicas x

/-! ## the call -/

/-- the payload guard is not acquired, or the operation is its body -/
theorem watched_withPayloads {α : Type} {keys : List (String × ContentHash)} {body : M α}
    {r : Res α} (h : Ran (gated (watched strict n) env t op)
      (Coordinator.withPayloads keys body).run w r w') :
    (∃ e, r = .error e) ∧ Rests w w' ∧ Ran (gated (careful n) env t op)
        (Coordinator.withPayloads keys body).run w r w' ∨
      ∃ w₁ w₂, Rests w w₁ ∧ Ran (gated (watched strict n) env t op) body.run w₁ r w₂ ∧
        Rests w₂ w' ∧ (Ran (gated (careful n) env t op) body.run w₁ r w₂ →
          Ran (gated (careful n) env t op) (Coordinator.withPayloads keys body).run w r w') := by
  have hbegin := restful_beginPayloadOperations keys
  rcases ran_seq.mp h with ⟨e, rfl, hx⟩ | ⟨_, w₁, hx, h₁⟩
  · exact .inl ⟨⟨e, rfl⟩, (rests hbegin hx).toRests,
      ran_seq.mpr (.inl ⟨e, rfl, (inert_beginPayloadOperations keys).careful hx⟩)⟩
  obtain ⟨o, w₂, hbody, h₂⟩ := ran_attempt_seq h₁
  have hlast := Inert.careful (only_bind (inert_ask rfl) fun _ => only_settle) h₂
  obtain ⟨_, _, w₃, hdrop, h₃⟩ := ran_ask_seq h₂
  obtain ⟨rfl, rfl⟩ := ran_settle.mp h₃
  exact .inr ⟨w₁, w₂, (rests hbegin hx).toRests, hbody, (rests_step rfl hdrop).toRests,
    fun hc => ran_seq.mpr (.inr ⟨(), w₁, (inert_beginPayloadOperations keys).careful hx,
      ran_seq.mpr (.inr ⟨r, w₂, ran_attempt.mpr ⟨r, rfl, hc⟩, hlast⟩)⟩)⟩

theorem inert_beginObjectOperation (id : Uuid) :
    Inert (Coordinator.beginObjectOperation id) :=
  inert_withInner (.call rfl fun _ => .ret _)

/-- an operation is refused, or it is its body -/
theorem watched_withObject {α : Type} {id : Uuid} {body : M α} {r : Res α}
    (h : Ran (gated (watched strict n) env t op) (Coordinator.withObject id body).run w r w') :
    (∃ e, r = .error e) ∧ Rests w w' ∧ Ran (gated (careful n) env t op)
        (Coordinator.withObject id body).run w r w' ∨
      ∃ w₁ w₂, Rests w w₁ ∧ Ran (gated (watched strict n) env t op) body.run w₁ r w₂ ∧
        Rests w₂ w' ∧ (Ran (gated (careful n) env t op) body.run w₁ r w₂ →
          Ran (gated (careful n) env t op) (Coordinator.withObject id body).run w r w') := by
  have hbegin := restful_beginObjectOperation id
  rcases ran_seq.mp h with ⟨e, rfl, hx⟩ | ⟨_, w₁, hx, h₁⟩
  · exact .inl ⟨⟨e, rfl⟩, (rests hbegin hx).toRests,
      ran_seq.mpr (.inl ⟨e, rfl, (inert_beginObjectOperation id).careful hx⟩)⟩
  obtain ⟨o, w₂, hbody, h₂⟩ := ran_attempt_seq h₁
  have hlast := Inert.careful (only_bind (inert_ask rfl) fun _ => only_settle) h₂
  obtain ⟨_, _, w₃, hdrop, h₃⟩ := ran_ask_seq h₂
  obtain ⟨rfl, rfl⟩ := ran_settle.mp h₃
  exact .inr ⟨w₁, w₂, (rests hbegin hx).toRests, hbody, (rests_step rfl hdrop).toRests,
    fun hc => ran_seq.mpr (.inr ⟨(), w₁, (inert_beginObjectOperation id).careful hx,
      ran_seq.mpr (.inr ⟨r, w₂, ran_attempt.mpr ⟨r, rfl, hc⟩, hlast⟩)⟩)⟩

theorem distinctTargets_nodup (l : List String) : (Coordinator.distinctTargets l).Nodup :=
  List.nodup_reverse.mpr (List.nodup_dedup _)

theorem storePayload_outcome {o : ReclaimObject} {b : String} {data : Bytes} {more : List String}
    {r : Res (List Replica)} (hn : n ≤ w.log.length)
    (hrun : Ran (gated (watched strict n) env t op)
      (Coordinator.storePayload env o b data more).run w r w') :
    (∃ e, r = .error e) ∧ Staged n w [] w' ∧
        Tells strict (w'.payloads = w.payloads) (Ran (gated (careful n) env t op)
          (Coordinator.storePayload env o b data more).run w r w') ∨
      ∃ rs, r = .ok rs ∧
        rs.map (fun x => x.location.backend) = Coordinator.distinctTargets (b :: more) ∧
        (∀ x ∈ rs, Stored o x.location.backend (env.sha256 data) x) ∧
        Staged n w rs w' ∧ Untampered w rs w' ∧
        Tells strict (∀ x ∈ rs, x.Free w) (Ran (gated (careful n) env t op)
          (Coordinator.storePayload env o b data more).run w r w') := by
  rcases ran_seq.mp hrun with ⟨_, -, hno⟩ | ⟨now, w₁, hnow, h₁⟩
  · obtain ⟨_, _, -, hno⟩ := ran_ask hno
    cases hno
  have hs₁ := (rests (restful_ask rfl) hnow).toRests
  have hnow := (inert_ask rfl).careful hnow
  rcases watched_withPayloads h₁ with ⟨he, hs, hc⟩ | ⟨u₁, u₂, hu, hbody, hu', hback⟩
  · have hall := hs₁.trans hs
    exact .inl ⟨he, (Staged.start hn).asBefore hall.asBefore,
      .of hall.payloads (ran_seq.mpr (.inr ⟨now, w₁, hnow, hc⟩))⟩
  have hall := hs₁.trans hu
  have hstart : Staged n w [] u₁ := (Staged.start hn).asBefore hall.asBefore
  have hcareful (hc : Ran (gated (careful n) env t op) (Coordinator.storeOnTargets env o data
        (env.sha256 data) now (Coordinator.distinctTargets (b :: more)) 0 []).run u₁ r u₂) :
      Ran (gated (careful n) env t op)
        (Coordinator.storePayload env o b data more).run w r w' :=
    ran_seq.mpr (.inr ⟨now, w₁, hnow, hback hc⟩)
  rcases storeOnTargets_outcome hstart ((untampered_start w).payloads hall.payloads)
      (fun _ _ hno => absurd hno List.not_mem_nil) (fun _ _ _ hno => absurd hno List.not_mem_nil)
      (distinctTargets_nodup _) hbody with
    ⟨he, hend, ht⟩ | ⟨rs, rfl, hmap, hstored, hend, hkept, ht⟩
  · refine .inl ⟨he, hend.asBefore hu'.asBefore, (ht.imp fun hc => hcareful hc.2).iff ?_⟩
    rw [hu'.payloads]
  · exact .inr ⟨rs, rfl, hmap, hstored, hend.asBefore hu'.asBefore, hkept.payloads hu'.payloads,
      ht.imp hcareful⟩

end

/-- the backends a registration stores the payload on -/
def CreateObjectRequest.targets (req : CreateObjectRequest) : List String :=
  match req.payloadB64, req.targetBackend with
  | some _, some b => Coordinator.distinctTargets (b :: req.replicateTo)
  | _, _ => []

/-- no replica row names the object that is registered -/
def Unclaimed (w : Traced) (req : CreateObjectRequest) : Prop :=
  ∀ x ∈ w.store.replicas, x.objectId ≠ req.object.id

/-- the object is HOT with one valid replica row for each target, or CREATED with none -/
structure Registered (req : CreateObjectRequest) (o : ReclaimObject) (w : Traced) : Prop where
  row : w.store.objects.find? req.object.id = some o
  state : o.lifecycleState = if req.payloadB64.isSome then .hot else .created
  counted : req.payloadB64.isSome = true → o.replicationCount = req.targets.length
  replicas : ∃ rs : List Replica, rs.map (fun r => r.location.backend) = req.targets ∧
    (∀ r, r ∈ rs ↔ r ∈ w.store.replicas ∧ r.objectId = req.object.id) ∧
    ∀ r ∈ rs, r.valid = true ∧ r.generation = o.generation ∧ o.contentHash = some r.contentHash

section
variable {n : Nat} {env : Env} {t : Tid} {op : Op} {w w' : Traced} {req : CreateObjectRequest}

theorem ok_of_check {α : Type} {c : Prop} [Decidable c] {e : ReclaimError} {x : Res α} {a : α}
    (h : (if c then .error e else x) = .ok a) : x = .ok a := by
  by_cases hc : c
  · rw [if_pos hc] at h
    cases h
  · rw [if_neg hc] at h
    exact h

theorem replicaCountU32_ok {m c : Nat} (h : Coordinator.replicaCountU32 m = .ok c) : c = m := by
  unfold Coordinator.replicaCountU32 at h
  split at h
  · exact (Except.ok.inj h).symm
  · cases h

theorem preparePayload_ok {o : ReclaimObject} {prepared : Option (Bytes × ContentHash × String)}
    (h : Coordinator.preparePayload env req o = .ok prepared) :
    (prepared = none ∧ req.payloadB64 = none ∧ req.targets = []) ∨
      ∃ p data b, prepared = some (data, env.sha256 data, b) ∧ req.payloadB64 = some p ∧
        env.decodeBase64 p = .ok data ∧
        req.targets = Coordinator.distinctTargets (b :: req.replicateTo) := by
  unfold Coordinator.preparePayload at h
  cases hp : req.payloadB64 with
  | none =>
    have htargets : req.targets = [] := by
      rw [CreateObjectRequest.targets, hp]
    rw [hp] at h
    simp only [bind, Except.bind, throw, throwThe, MonadExceptOf.throw] at h
    split at h
    · cases h
    · split at h
      · cases h
      · cases h
        exact .inl ⟨rfl, rfl, htargets⟩
  | some p =>
    cases hb : req.targetBackend with
    | none =>
      rw [hp, hb] at h
      cases h
    | some b =>
      have htargets : req.targets = Coordinator.distinctTargets (b :: req.replicateTo) := by
        rw [CreateObjectRequest.targets, hp, hb]
      rw [hp, hb] at h
      simp only [bind, Except.bind, throw, throwThe, MonadExceptOf.throw] at h
      cases hd : env.decodeBase64 p with
      | error e =>
        rw [hd] at h
        split at h
        · cases h
        · split at h
          · cases h
          · cases h
      | ok data =>
        rw [hd] at h
        have h := ok_of_check (ok_of_check h)
        dsimp only at h
        have h := ok_of_check h
        refine .inr ⟨p, data, b, ?_, rfl, hd, htargets⟩
        cases hdeclared : o.contentHash with
        | none =>
          rw [hdeclared] at h
          exact (Except.ok.inj (ok_of_check (ok_of_check h))).symm
        | some expected =>
          rw [hdeclared] at h
          exact (Except.ok.inj (ok_of_check (ok_of_check (ok_of_check h)))).symm

/-- the rows of a registration are those of its object just when there were none before -/
theorem registered_iff {o : ReclaimObject} {rs : List Replica} (h : Staged n w rs w₁)
    (hreps : ∀ x, x ∈ w'.store.replicas ↔ x ∈ w.store.replicas ∨ x ∈ rs)
    (hmap : rs.map (fun x => x.location.backend) = req.targets) (hnodup : req.targets.Nodup)
    (hof : ∀ x ∈ rs, x.objectId = req.object.id)
    (hrow : w'.store.objects.find? req.object.id = some o)
    (hstate : o.lifecycleState = if req.payloadB64.isSome then .hot else .created)
    (hcount : req.payloadB64.isSome = true → o.replicationCount = req.targets.length)
    (hvalid : ∀ x ∈ rs, x.valid = true ∧ x.generation = o.generation ∧
      o.contentHash = some x.contentHash) : Registered req o w' ↔ Unclaimed w req := by
  constructor
  · rintro ⟨-, -, -, rs', hmap', hall, -⟩ x hx hid
    have hx' : x ∈ rs' := (hall x).mpr ⟨(hreps x).mpr (.inl hx), hid⟩
    have hb : x.location.backend ∈ rs.map (fun y => y.location.backend) := by
      rw [hmap, ← hmap']
      exact List.mem_map_of_mem hx'
    obtain ⟨y, hy, hsame⟩ := List.mem_map.mp hb
    have hy' : y ∈ rs' := (hall y).mpr ⟨(hreps y).mpr (.inr hy), hof y hy⟩
    rw [← hmap'] at hnodup
    obtain rfl := List.inj_on_of_nodup_map hnodup hy' hx' hsame
    exact h.fresh y hy y hx rfl
  · intro hno
    refine ⟨hrow, hstate, hcount, rs, hmap, fun x => ?_, hvalid⟩
    rw [hreps]
    constructor
    · exact fun hx => ⟨.inr hx, hof x hx⟩
    · rintro ⟨hx | hx, hid⟩
      · exact absurd hid (hno x hx)
      · exact hx

/-- what a registration comes to: nothing, rows that stay because they are too many to be counted,
or the object -/
inductive Outcome (strict : Bool) (n : Nat) (req : CreateObjectRequest) (w : Traced)
    (r : Res ReclaimObject) (w' : Traced) (Q : Prop) : Prop
  | failed (he : ∃ e, r = .error e) (hend : Staged n w [] w')
      (ht : Tells strict (w'.payloads = w.payloads) Q)
  | uncounted (he : ∃ e, r = .error e) (rs : List Replica) (hend : Staged n w rs w')
      (hne : rs ≠ []) (hmany : 2 ^ 32 ≤ req.targets.length)
  | registered (o : ReclaimObject) (hr : r = .ok o) (hiff : Registered req o w' ↔ Unclaimed w req)

theorem Outcome.of_rests {r : Res ReclaimObject} {Q Q' : Prop} {w₁ w₂ : Traced}
    (h : Outcome strict n req w₁ r w₂ Q) (hs : Rests w w₁) (hs' : Rests w₂ w') (hQ : Q → Q') :
    Outcome strict n req w r w' Q' := by
  cases h with
  | failed he hend ht =>
    refine .failed he ((hend.of_rests hs).asBefore hs'.asBefore) ((ht.imp hQ).iff ?_)
    rw [hs'.payloads, hs.payloads]
  | uncounted he rs hend hne hmany =>
    exact .uncounted he rs ((hend.of_rests hs).asBefore hs'.asBefore) hne hmany
  | registered o hr hiff =>
    refine .registered o hr ?_
    rw [Unclaimed, ← hs.replicas]
    refine Iff.trans ?_ hiff
    constructor
    · rintro ⟨hrow, hstate, hcount, hreps⟩
      rw [hs'.objects] at hrow
      rw [hs'.replicas] at hreps
      exact ⟨hrow, hstate, hcount, hreps⟩
    · rintro ⟨hrow, hstate, hcount, hreps⟩
      rw [← hs'.objects] at hrow
      rw [← hs'.replicas] at hreps
      exact ⟨hrow, hstate, hcount, hreps⟩

/-- the payload is stored, and the object published -/
theorem storeAndPublish_outcome {o : ReclaimObject} {now : Int} {data : Bytes} {b : String}
    {r : Res ReclaimObject} (hn : n ≤ w.log.length) (hid : o.id = req.object.id)
    (hpayload : req.payloadB64.isSome = true) (hhash : o.contentHash = some (env.sha256 data))
    (htargets : req.targets = Coordinator.distinctTargets (b :: req.replicateTo))
    (h : Ran (gated (watched strict n) env t op) (do
      let replicas ← Coordinator.storePayload env o b data req.replicateTo
      let count ← settle (Coordinator.replicaCountU32 replicas.length)
      Coordinator.publishObject { o with replicationCount := count, lifecycleState := .hot }
        (Coordinator.creationAudits now { o with replicationCount := count, lifecycleState := .hot }
          true) replicas : M ReclaimObject).run w r w') :
    Outcome strict n req w r w' (Ran (gated (careful n) env t op) (do
      let replicas ← Coordinator.storePayload env o b data req.replicateTo
      let count ← settle (Coordinator.replicaCountU32 replicas.length)
      Coordinator.publishObject { o with replicationCount := count, lifecycleState := .hot }
        (Coordinator.creationAudits now { o with replicationCount := count, lifecycleState := .hot }
          true) replicas : M ReclaimObject).run w r w') := by
  rcases ran_seq.mp h with ⟨e, rfl, hx⟩ | ⟨rs, w₁, hx, h₁⟩
  · rcases storePayload_outcome hn hx with ⟨he, hend, ht⟩ | ⟨_, hno, -⟩
    · exact .failed ⟨e, rfl⟩ hend (ht.imp fun hc => ran_seq.mpr (.inl ⟨e, rfl, hc⟩))
    · cases hno
  rcases storePayload_outcome hn hx with
    ⟨⟨_, hno⟩, -⟩ | ⟨_, hrs, hmap, hstored, hend, hkept, ht⟩
  · cases hno
  cases hrs
  have hlength : rs.length = req.targets.length := by
    rw [htargets, ← hmap, List.length_map]
  rcases ran_seq.mp h₁ with ⟨e, rfl, hy⟩ | ⟨count, w₂, hy, h₂⟩
  · -- there are more replicas than can be counted
    obtain ⟨hcount, rfl⟩ := ran_settle.mp hy
    have hmany : 2 ^ 32 ≤ rs.length := by
      refine Nat.not_lt.mp fun hfew => ?_
      rw [Coordinator.replicaCountU32, if_pos hfew] at hcount
      cases hcount
    refine .uncounted ⟨e, rfl⟩ rs hend ?_ (hlength ▸ hmany)
    rintro rfl
    exact absurd hmany (by decide)
  obtain ⟨hcount, rfl⟩ := ran_settle.mp hy
  obtain rfl := replicaCountU32_ok hcount.symm
  have hlast := (inert_publishObject _ _ _).careful h₂
  rcases publishObject_outcome hend hkept h₂ with ⟨he, hundone, hsame⟩ | ⟨rfl, hrow, hreps⟩
  · exact .failed he hundone ((ht.imp fun hc => ran_seq.mpr (.inr ⟨rs, w₂, hc, ran_seq.mpr
      (.inr ⟨rs.length, w₂, ran_settle.mpr ⟨hcount, rfl⟩, hlast⟩)⟩)).iff hsame)
  · refine .registered _ rfl (registered_iff hend hreps (htargets ▸ hmap) ?_ ?_ (hid ▸ hrow) ?_ ?_ ?_)
    · rw [htargets]
      exact distinctTargets_nodup _
    · exact fun x hx => (hstored x hx).1.trans hid
    · rw [hpayload]
      rfl
    · exact fun _ => hlength
    · intro x hx
      obtain ⟨-, hgen, hvalid, -, hg⟩ := hstored x hx
      exact ⟨hvalid, hgen, hhash.trans (congrArg some hg.symm)⟩

theorem registerObject_outcome {r : Res ReclaimObject} (hn : n ≤ w.log.length)
    (h : Ran (gated (watched strict n) env t op) (Coordinator.registerObject env req).run w r w') :
    Outcome strict n req w r w' (Ran (gated (careful n) env t op)
      (Coordinator.registerObject env req).run w r w') := by
  have hfail {w₁ : Traced} (he : ∃ e, r = .error e) (hs : Rests w w₁) {Q : Prop} (hQ : Q) :
      Outcome strict n req w r w₁ Q :=
    .failed he ((Staged.start hn).asBefore hs.asBefore) (.of hs.payloads hQ)
  rcases ran_seq.mp h with ⟨e, rfl, hx⟩ | ⟨prepared, w₁, hx, h₁⟩
  · obtain ⟨hprepared, hw₁⟩ := ran_settle.mp hx
    rw [hw₁]
    exact hfail ⟨e, rfl⟩ (.refl w) (ran_seq.mpr (.inl ⟨e, rfl, ran_settle.mpr ⟨hprepared, rfl⟩⟩))
  obtain ⟨hprepared, rfl⟩ := ran_settle.mp hx
  have hx := Inert.careful only_settle hx
  rcases ran_seq.mp h₁ with ⟨e, rfl, hy⟩ | ⟨found, w₂, hy, h₂⟩
  · exact hfail ⟨e, rfl⟩ (ran_innerRead rfl hy).1.toRests (ran_seq.mpr (.inr ⟨prepared, w₁, hx,
      ran_seq.mpr (.inl ⟨e, rfl, (inert_withInner (inert_store _)).careful hy⟩)⟩))
  have hs₂ := (ran_innerRead rfl hy).1.toRests
  have hy := (inert_withInner (inert_store _)).careful hy
  by_cases hfound : found.isSome = true
  · rw [if_pos hfound] at h₂
    obtain ⟨rfl, rfl⟩ := ran_throw_seq h₂
    refine hfail ⟨_, rfl⟩ hs₂ (ran_seq.mpr (.inr ⟨prepared, w₁, hx,
      ran_seq.mpr (.inr ⟨found, w', hy, ?_⟩)⟩))
    rw [if_pos hfound]
    exact ran_seq.mpr (.inl ⟨_, rfl, ran_throw_of _⟩)
  rw [if_neg hfound] at h₂
  rcases ran_seq.mp h₂ with ⟨_, -, hno⟩ | ⟨now, w₃, hnow, h₃⟩
  · obtain ⟨_, _, -, hno⟩ := ran_ask hno
    cases hno
  have hs₃ := hs₂.trans (rests (restful_ask rfl) hnow).toRests
  have hnow := (inert_ask rfl).careful hnow
  have hn₃ := hs₃.toOnTables.length hn
  have hid : (Coordinator.registeredObject req.object now).id = req.object.id := registeredObject_id
  rcases preparePayload_ok hprepared.symm with
    ⟨rfl, hpayload, htargets⟩ | ⟨p, data, b, rfl, hpayload, -, htargets⟩
  · have hlast := (inert_publishObject _ _ _).careful h₃
    have hout : Outcome strict n req w₃ r w' True := by
      rcases publishObject_outcome (Staged.start hn₃) (untampered_start w₃) h₃ with
        ⟨he, hend, hsame⟩ | ⟨rfl, hrow, hreps⟩
      · exact .failed he hend (.of (hsame.mpr fun _ hno => absurd hno List.not_mem_nil) trivial)
      · refine .registered _ rfl (registered_iff (Staged.start hn₃) hreps htargets.symm ?_
          (fun _ hno => absurd hno List.not_mem_nil) (hid ▸ hrow) ?_ ?_
          fun _ hno => absurd hno List.not_mem_nil)
        · rw [htargets]
          exact List.nodup_nil
        · rw [hpayload]
          exact registeredObject_state
        · rw [hpayload]
          exact nofun
    refine hout.of_rests hs₃ (.refl w') fun _ => ran_seq.mpr (.inr ⟨_, w₁, hx,
      ran_seq.mpr (.inr ⟨found, w₂, hy, ?_⟩)⟩)
    rw [if_neg hfound]
    exact ran_seq.mpr (.inr ⟨now, w₃, hnow, hlast⟩)
  · let o : ReclaimObject :=
      { Coordinator.registeredObject req.object now with
        contentHash := some (env.sha256 data), physicalSize := data.length }
    refine (storeAndPublish_outcome (o := o) hn₃ hid (by rw [hpayload]; rfl) rfl htargets
      h₃).of_rests hs₃ (.refl w') fun hc => ran_seq.mpr (.inr ⟨_, w₁, hx, ran_seq.mpr (.inr ⟨found, w₂, hy, ?_⟩)⟩)
    rw [if_neg hfound]
    exact ran_seq.mpr (.inr ⟨now, w₃, hnow, hc⟩)

theorem createObject_outcome {r : Res ReclaimObject}
    (h : Ran (gated (watched strict w.log.length) env t op)
      (Coordinator.createObject env req).run w r w') :
    Outcome strict w.log.length req w r w' (Ran (gated (careful w.log.length) env t op)
      (Coordinator.createObject env req).run w r w') := by
  rcases ran_seq.mp h with ⟨e, rfl, hx⟩ | ⟨_, w₁, hx, h₁⟩
  · obtain ⟨hvalid, hw₁⟩ := ran_settle.mp hx
    rw [hw₁]
    exact .failed ⟨e, rfl⟩ (.start (Nat.le_refl _))
      (.of rfl (ran_seq.mpr (.inl ⟨e, rfl, ran_settle.mpr ⟨hvalid, rfl⟩⟩)))
  have hx' := Inert.careful only_settle hx
  obtain ⟨-, rfl⟩ := ran_settle.mp hx
  rcases watched_withObject h₁ with ⟨he, hs, hc⟩ | ⟨u₁, u₂, hu, hbody, hu', hback⟩
  · exact .failed he ((Staged.start (Nat.le_refl _)).asBefore hs.asBefore)
      (.of hs.payloads (ran_seq.mpr (.inr ⟨(), w₁, hx', hc⟩)))
  · have hn : w₁.log.length ≤ u₁.log.length := hu.toOnTables.length (Nat.le_refl _)
    exact (registerObject_outcome hn hbody).of_rests hu hu' fun hc =>
      ran_seq.mpr (.inr ⟨(), w₁, hx', hback hc⟩)

/-- **Registration is all or nothing.**  A registration that fails has changed nothing just when
every write was harmless, and one that succeeds has registered the object just when no replica row
named it before. -/
theorem register_all_or_nothing {r : Res ReclaimObject}
    (h : Ran (gated (takesBack w.log.length) env t op)
      (Coordinator.createObject env req).run w r w') :
    (∀ e, r = .error e →
      (Reverted w w' → Ran (gated (careful w.log.length) env t op)
        (Coordinator.createObject env req).run w r w') ∧
      (req.targets.length < 2 ^ 32 → Ran (gated (careful w.log.length) env t op)
        (Coordinator.createObject env req).run w r w' → Reverted w w')) ∧
      ∀ o, r = .ok o → (Registered req o w' ↔ Unclaimed w req) := by
  rw [← watched_false] at h
  refine ⟨?_, ?_⟩
  · rintro e rfl
    refine ⟨fun hback => ?_, fun hfew hc => ?_⟩
    · cases createObject_outcome h with
      | failed _ _ ht => exact ht.careful hback.payloads
      | uncounted _ rs hend hne => exact absurd hback (hend.not_reverted hne)
      | registered _ hr => cases hr
    · rw [← watched_true] at hc
      cases createObject_outcome hc with
      | failed _ hend ht => exact ⟨hend.rows, ht.holds rfl⟩
      | uncounted _ _ _ _ hmany => exact absurd hfew (Nat.not_lt.mpr hmany)
      | registered _ hr => cases hr
  · rintro o rfl
    cases createObject_outcome h with
    | failed he =>
      obtain ⟨_, hno⟩ := he
      cases hno
    | uncounted he =>
      obtain ⟨_, hno⟩ := he
      cases hno
    | registered o' hr hiff =>
      cases hr
      exact hiff

end

/-! ## a payload that stays -/

namespace Sample

def payload : Bytes := [120]

/-- the empty store is open, and the registration runs alone; its `j`-th command fails -/
def registering (ok : Gate) (j : Nat) (s : Sys) : Option (Res ReclaimObject × Traced) :=
  (Coordinator.createObject env ⟨object 10, some "x", some "disk", []⟩).run.eval
    (gated ok env 1 (register (object 10) "x")) (failing j 400) 0 s.shared

theorem opened_reached : Reached anyRun (opened free) := reached_opened free_ok trivial

/-- the payload cannot be read back after it was put -/
theorem readBack_stays : ((opened free).any fun s =>
    (s.shared.payloads "disk" (Coordinator.freshKey (env.sha256 payload) 0)).isNone &&
    (registering (takesBack s.shared.log.length) 43 s).any fun x => !x.1.isOk &&
      (x.2.payloads "disk" (Coordinator.freshKey (env.sha256 payload) 0)).isSome) = true := by
  decide +kernel

/-- the object row, the last write, is refused; or no command fails -/
theorem publish_fails : ((opened free).any fun s => decide (s.shared.store.replicas.rows = []) &&
    ((registering (careful s.shared.log.length) 65 s).any fun x => !x.1.isOk) &&
    (registering (takesBack s.shared.log.length) 400 s).any fun x => x.1.isOk) = true := by
  decide +kernel

end Sample

/-- a payload that cannot be read back is not deleted -/
theorem register_leaves_payload : ∃ s err w', Reach Sample.env anyRun s ∧
    Ran (gated (takesBack s.shared.log.length) Sample.env 1
        (Sample.register (Sample.object 10) "x"))
      (Coordinator.createObject Sample.env ⟨Sample.object 10, some "x", some "disk", []⟩).run
      s.shared (.error err) w' ∧
    ¬Reverted s.shared w' := by
  obtain ⟨s, hs, h⟩ := (Option.any_eq_true _ _).mp Sample.readBack_stays
  obtain ⟨hbefore, h⟩ := Bool.and_eq_true_iff.mp h
  obtain ⟨⟨r, w'⟩, hev, h⟩ := (Option.any_eq_true _ _).mp h
  obtain ⟨hr, hafter⟩ := Bool.and_eq_true_iff.mp h
  cases r with
  | ok _ => cases hr
  | error err =>
    refine ⟨s, err, w', Sample.opened_reached s hs, Prog.ran_of_eval hev, fun hback => ?_⟩
    have hafter : (w'.payloads "disk"
      (Coordinator.freshKey (Sample.env.sha256 Sample.payload) 0)).isSome = true := hafter
    rw [hback.payloads, Option.isNone_iff_eq_none.mp hbefore] at hafter
    cases hafter

/-- a registration that cannot publish its object row leaves nothing; one that succeeds has
registered the object -/
theorem register_all_or_nothing_publish : ∃ s err w' o w'', Reach Sample.env anyRun s ∧
    Ran (gated (careful s.shared.log.length) Sample.env 1
        (Sample.register (Sample.object 10) "x"))
      (Coordinator.createObject Sample.env ⟨Sample.object 10, some "x", some "disk", []⟩).run
      s.shared (.error err) w' ∧
    Reverted s.shared w' ∧ Registered ⟨Sample.object 10, some "x", some "disk", []⟩ o w'' := by
  obtain ⟨s, hs, h⟩ := (Option.any_eq_true _ _).mp Sample.publish_fails
  obtain ⟨h, hgood⟩ := Bool.and_eq_true_iff.mp h
  obtain ⟨hempty, hbad⟩ := Bool.and_eq_true_iff.mp h
  obtain ⟨⟨r, w'⟩, hev, hr⟩ := (Option.any_eq_true _ _).mp hbad
  obtain ⟨⟨r', w''⟩, hev', hr'⟩ := (Option.any_eq_true _ _).mp hgood
  cases r with
  | ok _ => cases hr
  | error err =>
    cases r' with
    | error _ => cases hr'
    | ok o =>
      have hran := Prog.ran_of_eval hev
      have hunclaimed : Unclaimed s.shared ⟨Sample.object 10, some "x", some "disk", []⟩ := by
        intro x hx
        have hx : x ∈ s.shared.store.replicas.rows := hx
        rw [of_decide_eq_true hempty] at hx
        cases hx
      exact ⟨s, err, w', o, w'', Sample.opened_reached s hs, hran,
        ((register_all_or_nothing (takesBack_of_careful hran)).1 err rfl).2 (by decide) hran,
        ((register_all_or_nothing (Prog.ran_of_eval hev')).2 o rfl).mpr hunclaimed⟩

end ReclaimFabric
