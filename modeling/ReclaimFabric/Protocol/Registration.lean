import ReclaimFabric.Protocol.Objects

/-!
# Registration keeps the discipline

`create_object` stores the payload on every target backend under the payload guard, releases what
it has stored when one of them fails, and publishes the object row last.

* `storePayloadOnBackend`        one replica row more, or nothing;
* `rollbackReplicasUnderGuard`   the rows that were stored are gone;
* `publishObject`                the row appears together with its acknowledged flags;
* `safe_createObject`            the whole operation.
-/

set_option linter.unusedSectionVars false

namespace ReclaimFabric

open Party (Triple)

variable {env : Env} {m : Regime} {t : Tid} {op : Op} {X : Uuid} {f : Tend} {w w' : Traced}

namespace Tending

/-! ## one backend -/

theorem canonicalKey {be : String} {h : ContentHash} {index : Nat} {existing : Option DedupEntry}
    (hk : (be, h) ∈ f.keys) :
    (party env m true t op).Triple false (Tending env m t X (found f h existing))
      (Coordinator.canonicalKey env be h index existing)
      (fun x => Tending env m t X { f with names := (x.1, h) :: f.names })
      (fun _ => Tending env m t X f) := by
  cases existing with
  | none =>
    refine Triple.pure ?_
    intro w hw
    refine Tending.named hw fun _ => ?_
    rw [Coordinator.freshKey]
    split
    · exact .fresh h
    · exact .copy h index
  | some e =>
    have hback : ∀ w, Tending env m t X (found f h (some e)) w → Tending env m t X f w :=
      fun w hw => hw.weaken rfl id rfl (fun _ h => h) (fun _ h => h)
        (fun _ h => List.mem_cons_of_mem _ h)
    unfold Coordinator.canonicalKey
    refine Triple.refuse (fun _ w hw => hback w hw) fun _ => ?_
    refine Triple.post ?_ (fun _ _ h => h) (fun _ => hback)
    refine Triple.bind (Tending.readPayload be e.key) fun d => Triple.of_pure fun _ => ?_
    refine Triple.bind (Triple.settle (fun _ _ _ h => h) (fun _ _ _ h => h)) fun _ => ?_
    refine Triple.bind (inSectionStore (fun _ => stable) (dedupAcquire hk)) fun _ => ?_
    exact Triple.pure fun _ h => h.forget

theorem storeNew {be key : String} {data : Bytes} {h : ContentHash} (hk : (be, h) ∈ f.keys)
    (hn : (key, h) ∈ f.names) (hc : f.clear = true) (hbase : f.base ≠ .unknown) :
    (party env m true t op).Triple false (Tending env m t X f)
      (Coordinator.storeNew env be key data h) (fun _ => Tending env m t X f)
      (fun _ => Tending env m t X f) := by
  refine Triple.bind (Triple.writePayloadTo firm (fills hk hn hc hbase)) fun _ => ?_
  refine Triple.attemptBind (R := fun _ => Tending env m t X { f with clear := true })
    (inSectionStore (fun _ => stable) (insertDedup hk fun _ => hn)) (fun _ => ?_) fun e => ?_
  · exact Triple.pure fun _ h => h.forget
  · refine Triple.bind (Triple.mapErr (deletePayload hk hn)) fun _ => ?_
    exact Triple.throw fun _ h => h

theorem recordReplica {r : Replica} (hbase : f.base ≠ .unknown) (hX : r.objectId = X)
    (hk : r.slot ∈ f.keys) (hn : (r.location.key, r.contentHash) ∈ f.names) :
    (party env m true t op).Triple false (Tending env m t X f) (Coordinator.recordReplica r)
      (fun _ w => (∀ x ∈ f.rows, x.replicaId ≠ r.replicaId) ∧
        Tending env m t X { f with rows := r :: f.rows } w)
      (fun _ => Tending env m t X f) := by
  refine Triple.attemptBind (R := fun _ w => (∀ x ∈ f.rows, x.replicaId ≠ r.replicaId) ∧
      Tending env m t X { f with clear := true, rows := r :: f.rows } w)
    (inSectionStore (fun _ => Stable.and (Stable.const _) stable)
      (addReplica hbase hX hk fun _ => hn)) (fun _ => ?_) fun e => ?_
  · exact Triple.pure fun _ h => ⟨h.1, h.2.forget⟩
  · refine Triple.bind (inSectionStore (fun _ => stable) (dedupRelease hk)) fun last => ?_
    refine Triple.pre ?_ (fun _ h => h.forget)
    refine Triple.ite (fun _ => ?_) fun _ => Triple.throw fun _ h => h
    refine Triple.bind (Triple.mapErr (deletePayload hk hn)) fun _ => ?_
    exact Triple.throw fun _ h => h

theorem storePayloadOnBackend {o : ReclaimObject} {be : String} {data : Bytes} {h : ContentHash}
    {now : Int} {index : Nat} (hbase : f.base ≠ .unknown) (hX : o.id = X)
    (hk : (be, h) ∈ f.keys) :
    (party env m true t op).Triple false (Tending env m t X f)
      (Coordinator.storePayloadOnBackend env o be data h now index)
      (fun r w => (r.objectId = X ∧ r.slot = (be, h) ∧
        ∀ x ∈ f.rows, x.replicaId ≠ r.replicaId) ∧ Tending env m t X
        { f with
          rows := r :: f.rows, names := (r.location.key, r.contentHash) :: f.names } w)
      (fun _ => Tending env m t X f) := by
  refine Triple.bind (R := fun x => Tending env m t X (found { f with clear := true } h x.1)) ?_
    fun x => ?_
  · refine inSection (fun _ => stable) ?_
    refine Triple.bind (getDedup.post (fun _ _ h => h) fun _ _ h => h.forget) fun existing =>
      Triple.of_pure fun _ => ?_
    have hback : ∀ w, Tending env m t X (found { f with clear := true } h existing) w →
        Tending env m t X f w := fun w hw =>
      hw.weaken rfl (fun _ => rfl) rfl (fun _ h => h) (fun _ h => h)
        (fun _ h => List.mem_append_right _ h)
    refine Triple.bind (Triple.config firm) fun c => ?_
    refine Triple.bind (Triple.settle (fun _ _ _ h => h) fun _ _ w hw => hback w hw.1) fun _ => ?_
    exact Triple.pure fun _ h => h.1
  · refine Triple.bind ((canonicalKey (f := { f with clear := true }) hk).post (fun _ _ h => h)
      fun _ _ h => h.forget) fun y => ?_
    have hback : ∀ w, Tending env m t X { f with clear := true, names := (y.1, h) :: f.names } w →
        Tending env m t X f w := fun w hw =>
      hw.weaken rfl (fun _ => rfl) rfl (fun _ h => h) (fun _ h => h)
        (fun _ h => List.mem_cons_of_mem _ h)
    have hrest : (party env m true t op).Triple false
        (Tending env m t X { f with clear := true, names := (y.1, h) :: f.names })
        (do
          let replicaId ← Coordinator.ask .newUuid
          let replica : Replica :=
            { replicaId := replicaId
              objectId := o.id
              generation := o.generation
              location := ⟨be, y.1, .hot⟩
              size := data.length
              contentHash := h
              createdAtMs := now
              verifiedAtMs := some now
              valid := true
              ownerNode := x.2 }
          Coordinator.recordReplica replica
          pure replica)
        (fun r w => (r.objectId = X ∧ r.slot = (be, h) ∧
        ∀ x ∈ f.rows, x.replicaId ≠ r.replicaId) ∧ Tending env m t X
          { f with rows := r :: f.rows, names := (r.location.key, r.contentHash) :: f.names } w)
        (fun _ => Tending env m t X f) := by
      refine Triple.bind (Triple.ask rfl firm) fun id => ?_
      refine Triple.bind (Triple.post (recordReplica
        (f := { f with clear := true, names := (y.1, h) :: f.names }) hbase hX hk
        List.mem_cons_self) (fun _ _ h => h) fun _ => hback) fun _ => ?_
      exact Triple.pure fun w hw => ⟨⟨hX, rfl, hw.1⟩, hw.2.forget⟩
    refine Triple.ite (fun _ => ?_) fun _ => hrest
    refine Triple.bind (Triple.post (storeNew
      (f := { f with clear := true, names := (y.1, h) :: f.names }) hk List.mem_cons_self rfl
      hbase)
      (fun _ _ h => h) fun _ => hback) fun _ => hrest

/-! ## compensation -/

/-- the replica rows are there, their payloads are held and their keys are known -/
def Stocked (X : Uuid) (f : Tend) (rs : List Replica) : Prop :=
  ∀ r ∈ rs, r ∈ f.rows ∧ r.objectId = X ∧ r.slot ∈ f.keys ∧
    (r.location.key, r.contentHash) ∈ f.names

/-- the payloads are held and their keys are known -/
def Removable (f : Tend) (ps : List (String × String)) : Prop :=
  ∀ p ∈ ps, ∃ h, (p.1, h) ∈ f.keys ∧ (p.2, h) ∈ f.names

theorem releaseReplicas {rs : List Replica} (hr : Stocked X f rs)
    (hd : (rs.map Replica.replicaId).Nodup) {ps : List (String × String)} (hp : Removable f ps) :
    (party env m true t op).Triple true (Tending env m t X f)
      (Coordinator.releaseReplicas rs ps)
      (fun qs w => Removable f qs ∧ Tending env m t X { f with rows := [] } w)
      (fun _ => Tending env m t X { f with rows := [] }) := by
  induction rs generalizing f ps with
  | nil =>
    refine Triple.pure fun w hw => ⟨hp, ?_⟩
    exact hw.weaken rfl id rfl (by simp) (fun _ h => h) (fun _ h => h)
  | cons r rs ih =>
    obtain ⟨hrow, hX, hk, hn⟩ := hr r List.mem_cons_self
    rw [List.map_cons, List.nodup_cons] at hd
    have hnil : ∀ (g : Tend) w, Tending env m t X g w →
        Tending env m t X { g with rows := [] } w := fun g w hw =>
      hw.weaken rfl id rfl (by simp) (fun _ h => h) (fun _ h => h)
    have hrest : Stocked X
        { f with rows := f.rows.filter (fun x => decide (x.replicaId ≠ r.replicaId)) } rs := by
      intro x hx
      obtain ⟨hxrow, hxX, hxk, hxn⟩ := hr x (List.mem_cons_of_mem _ hx)
      refine ⟨List.mem_filter.mpr ⟨hxrow, ?_⟩, hxX, hxk, hxn⟩
      rw [decide_eq_true_iff]
      intro he
      exact hd.1 (he ▸ List.mem_map_of_mem hx)
    refine Triple.bind ((deleteReplica hrow hX hk).post (fun _ _ h => h) fun _ w => hnil f w)
      fun _ => ?_
    refine Triple.bind (Triple.post (dedupRelease hk) (fun _ _ h => h) fun _ w => hnil _ w)
      fun last => ?_
    refine Triple.ite (fun _ => ?_) fun _ => ih hrest hd.2 hp
    refine ih hrest hd.2 ?_
    intro p hmem
    rcases List.mem_append.mp hmem with hmem | hmem
    · exact hp p hmem
    · rw [List.mem_singleton] at hmem
      subst hmem
      exact ⟨r.contentHash, hk, hn⟩

theorem deletePayloads {ps : List (String × String)} (hp : Removable f ps) :
    (party env m true t op).Triple false (Tending env m t X f) (Coordinator.deletePayloads ps)
      (fun _ => Tending env m t X f) (fun _ => Tending env m t X f) := by
  induction ps with
  | nil => exact Triple.pure fun _ h => h
  | cons p ps ih =>
    obtain ⟨h, hk, hn⟩ := hp p List.mem_cons_self
    exact Triple.bind (deletePayload hk hn) fun _ =>
      ih fun q hq => hp q (List.mem_cons_of_mem _ hq)

theorem rollbackReplicasUnderGuard {rs : List Replica} (hr : Stocked X f rs)
    (hd : (rs.map Replica.replicaId).Nodup) :
    (party env m true t op).Triple false (Tending env m t X f)
      (Coordinator.rollbackReplicasUnderGuard rs)
      (fun _ => Tending env m t X { f with rows := [] })
      (fun _ => Tending env m t X { f with rows := [] }) := by
  have hnil : ∀ w, Tending env m t X f w → Tending env m t X { f with rows := [] } w :=
    fun w hw => hw.weaken rfl id rfl (by simp) (fun _ h => h) (fun _ h => h)
  refine Triple.bind (R := fun ps w => Removable f ps ∧
    Tending env m t X { f with rows := [] } w) ?_ fun ps => Triple.of_pure fun hp => ?_
  · refine inSectionTo (fun _ => Stable.and (Stable.const _) stable) stable hnil ?_
    exact (releaseReplicas hr hd (by simp [Removable])).pre fun _ h => h.forget
  · exact deletePayloads hp

/-! ## all backends -/

/-- the replicas a registration has stored so far -/
def shelf (ks : List (String × ContentHash)) (rs : List Replica) : Tend where
  keys := ks
  clear := false
  base := .absent
  rows := rs
  archs := []
  names := rs.map fun r => (r.location.key, r.contentHash)

/-- replicas of the object with distinct identifiers, on payloads of the list -/
structure Shelved (X : Uuid) (ks : List (String × ContentHash)) (rs : List Replica) : Prop where
  object : ∀ r ∈ rs, r.objectId = X
  slot : ∀ r ∈ rs, r.slot ∈ ks
  nodup : (rs.map Replica.replicaId).Nodup

theorem Shelved.stocked {ks : List (String × ContentHash)} {rs : List Replica}
    (h : Shelved X ks rs) : Stocked X (shelf ks rs) rs :=
  fun r hr => ⟨hr, h.object r hr, h.slot r hr, List.mem_map_of_mem hr⟩

theorem Shelved.snoc {ks : List (String × ContentHash)} {rs : List Replica} {r : Replica}
    (h : Shelved X ks rs) (hX : r.objectId = X) (hk : r.slot ∈ ks)
    (hne : ∀ x ∈ rs, x.replicaId ≠ r.replicaId) : Shelved X ks (rs ++ [r]) where
  object := by
    intro x hx
    rcases List.mem_append.mp hx with hx | hx
    · exact h.object x hx
    · rw [List.mem_singleton.mp hx]
      exact hX
  slot := by
    intro x hx
    rcases List.mem_append.mp hx with hx | hx
    · exact h.slot x hx
    · rw [List.mem_singleton.mp hx]
      exact hk
  nodup := by
    rw [List.map_append, List.nodup_append]
    refine ⟨h.nodup, by simp, ?_⟩
    intro a ha b hb
    obtain ⟨x, hx, rfl⟩ := List.mem_map.mp ha
    cases List.mem_singleton.mp hb
    exact hne x hx

theorem storeOnTargets {o : ReclaimObject} {data : Bytes} {h : ContentHash} {now : Int}
    {ks : List (String × ContentHash)} {targets : List String} (hX : o.id = X)
    (hks : ∀ be ∈ targets, (be, h) ∈ ks) {index : Nat} {out : List Replica}
    (hout : Shelved X ks out) :
    (party env m true t op).Triple false (Tending env m t X (shelf ks out))
      (Coordinator.storeOnTargets env o data h now targets index out)
      (fun rs w => Shelved X ks rs ∧ Tending env m t X (shelf ks rs) w)
      (fun _ => Busy env m t X ks) := by
  induction targets generalizing index out with
  | nil => exact Triple.pure fun w hw => ⟨hout, hw⟩
  | cons be targets ih =>
    have hk : (be, h) ∈ ks := hks be List.mem_cons_self
    refine Triple.attemptBind (storePayloadOnBackend (f := shelf ks out) nofun hX hk) (fun r => ?_)
      fun e => ?_
    · refine Triple.of_pure fun hr => ?_
      refine Triple.pre (ih (fun x hx => hks x (List.mem_cons_of_mem _ hx))
        (hout.snoc hr.1 (hr.2.1 ▸ hk) hr.2.2)) ?_
      intro w hw
      refine hw.weaken rfl id rfl ?_ (fun _ h => h) ?_
      · intro x hx
        rcases List.mem_append.mp hx with hx | hx
        · exact List.mem_cons_of_mem _ hx
        · rw [List.mem_singleton.mp hx]
          exact List.mem_cons_self
      · intro n hn
        obtain ⟨x, hx, rfl⟩ := List.mem_map.mp hn
        rcases List.mem_append.mp hx with hx | hx
        · exact List.mem_cons_of_mem _ (List.mem_map_of_mem hx)
        · rw [List.mem_singleton.mp hx]
          exact List.mem_cons_self
    · refine Triple.bind (R := fun _ => Busy env m t X ks) ?_ fun _ => Triple.throw fun _ h => h
      exact (rollbackReplicasUnderGuard hout.stocked hout.nodup).post (fun _ _ h => ⟨_, rfl, h⟩)
        (fun _ _ h => ⟨_, rfl, h⟩)

theorem storePayload {o : ReclaimObject} {be : String} {data : Bytes} {others : List String}
    (hX : o.id = X) :
    (party env m true t op).Triple false (Tending env m t X (shelf [] []))
      (Coordinator.storePayload env o be data others)
      (fun rs w => (rs.map Replica.replicaId).Nodup ∧ (∀ r ∈ rs, r.objectId = X) ∧
        Tending env m t X (shelf [] rs) w)
      (fun _ => Busy env m t X []) := by
  refine Triple.bind (Triple.nowMs firm) fun now => ?_
  have hnil : ∀ ks, Shelved X ks [] := fun ks => ⟨by simp, by simp, by simp⟩
  refine Triple.post (withPayloads (f := shelf [] []) (φ := Shelved X _) (g := shelf _) rfl
    (by simp [shelf]) (fun _ => rfl) (fun rs h => h.object)
    (storeOnTargets hX ?_ (hnil _))) (fun rs w h => ⟨h.1.nodup, h.1.object, h.2⟩)
    (fun _ _ h => h)
  intro x hx
  rw [mem_sortKeys]
  exact List.mem_map_of_mem hx

theorem rollbackReplicas {rs : List Replica} (hd : (rs.map Replica.replicaId).Nodup)
    (hX : ∀ r ∈ rs, r.objectId = X) :
    (party env m true t op).Triple false (Tending env m t X (shelf [] rs))
      (Coordinator.rollbackReplicas rs) (fun _ => Busy env m t X [])
      (fun _ => Busy env m t X []) := by
  have hs : Shelved X (Coordinator.sortKeys (Coordinator.replicaKeys rs)) rs :=
    ⟨hX, fun r hr => mem_sortKeys.mpr (List.mem_map_of_mem hr), hd⟩
  refine Triple.post (withPayloads (f := shelf [] rs) (φ := fun _ => True)
    (g := fun _ => shelf (Coordinator.sortKeys (Coordinator.replicaKeys rs)) []) rfl hX
    (fun _ => rfl) (by simp [shelf]) ?_) (fun _ w h => ⟨_, rfl, h.2⟩) (fun _ _ h => h)
  refine (rollbackReplicasUnderGuard (f := shelf _ rs) hs.stocked hd).post ?_
    (fun _ _ h => ⟨_, rfl, h⟩)
  exact fun _ w h => ⟨trivial, h.weaken rfl id rfl (by simp [shelf]) (fun _ h => h)
    (by simp [shelf])⟩

/-! ## publication -/

/-- the object row appears, and with it the flags that are acknowledged -/
theorem createRow {req : CreateObjectRequest} {o : ReclaimObject} {as : List AuditEntry}
    (hb : f.base = .absent) (hk : f.keys = []) (hX : req.object.id = X) (hid : o.id = X)
    (hs : o.lifecycleState = .created ∨ o.lifecycleState = .hot)
    (hh : o.lifecycleState = .hot → o.contentHash.isSome = true) :
    (party env m true t (.createObject req)).Triple true
      (Tending env m t X f) (Coordinator.store (.createObjectWithAudits o as))
      (fun _ => Leaving m t (.createObject req) X (.ok o)) (fun _ => Tending env m t X f) := by
  refine Triple.store firm ?_ (fun _ _ _ _ _ h => h)
  intro w r s hw hi _ hr
  obtain ⟨hv, hc, T, hT, hd⟩ := Store.createObjectWithAudits_ok hr
  have hstill := Party.still_store (A := party env m true t (.createObject req))
    (c := .store (.createObjectWithAudits o as)) (r := .ok r) (w := w) (s := s)
  have hnone : rowOf w X = none := by
    have hrow := hw.row
    rw [hb] at hrow
    exact hrow
  have hfind : ∀ Y, T.find? Y = if Y = X then some o else rowOf w Y := by
    intro Y
    rw [Table.find?_insert? hT]
    show (if o.id = Y then _ else _) = _
    rw [hid]
    by_cases hY : Y = X
    · rw [if_pos hY.symm, if_pos hY]
    · rw [if_neg (Ne.symm hY), if_neg hY]
      rfl
  have hrow : s.objects.find? X = some o := by
    rw [show s.objects = T from congrArg Data.objects hd, hfind, if_pos rfl]
  have hjou : s.journal = w.store.journal := congrArg Data.journal hd
  constructor
  · refine .row hstill hd hfind hid ⟨hv, hc, ?_⟩ (.create hw.own hnone hs)
    intro hne
    rcases hs with hs | hs
    · exact absurd hs hne
    · exact hh hs
  · refine ⟨hstill.held (hk ▸ hw.held), .inr ?_, ?_, ?_⟩
    · exact hw.fine.of_noPhysical (fun hm => hw.noPhysical (by rw [hb]; simp) hm) hjou
        (congrArg Data.attempts hd) (congrArg Data.reservations hd)
    · intro _ o₁ ho₁
      have ho₁ : s.objects.find? X = some o₁ := ho₁
      rw [hrow] at ho₁
      cases ho₁
      exact if_pos hX
    · intro hm j hj hjX hopen
      rw [hw.fine.resolved hm j (hjou ▸ hj) hjX] at hopen
      cases hopen

theorem publishObject {req : CreateObjectRequest} {o : ReclaimObject} {as : List AuditEntry}
    {rs : List Replica} (hd : (rs.map Replica.replicaId).Nodup) (hrX : ∀ r ∈ rs, r.objectId = X)
    (hX : req.object.id = X) (hid : o.id = X)
    (hs : o.lifecycleState = .created ∨ o.lifecycleState = .hot)
    (hh : o.lifecycleState = .hot → o.contentHash.isSome = true) :
    (party env m true t (.createObject req)).Triple false (Tending env m t X (shelf [] rs))
      (Coordinator.publishObject o as rs)
      (fun a => Leaving m t (.createObject req) X (.ok a)) (fun _ => Ready m t X) := by
  refine Triple.attemptBind (inSectionStore (fun _ => stable_leaving)
    (createRow (f := { shelf [] rs with clear := true }) rfl rfl hX hid hs hh)) (fun _ => ?_)
    fun e => ?_
  · exact Triple.pure fun _ h => h
  · refine Triple.ite (fun _ => ?_) fun _ => Triple.throw fun _ h => h.ready rfl
    refine Triple.bind (R := fun _ => Ready m t X) ?_ fun _ => Triple.throw fun _ h => h
    exact Triple.mapErr ((rollbackReplicas hd hrX).post (fun _ _ h => h.ready)
      fun _ _ h => h.ready)

end Tending

/-! ## the operation -/

/-- the row is not there yet -/
theorem getObject_none :
    (party env m true t op).Triple false (Ready m t X) (Coordinator.inner (.getObject X))
      (fun x w => Ready m t X w ∧ (x = none → Tending env m t X (Tending.shelf [] []) w))
      (fun _ => Ready m t X) := by
  refine Triple.innerAnswer stable_ready.firm stable_readyFine.firm
    (fun x => (Stable.and stable_ready (Stable.imp fun _ => Tending.stable)).firm) rfl
    (fun w hw _ hl => hw.checked hl) ?_
  intro w x s _ hw _ hr
  cases hr
  refine ⟨hw.1, fun hx => ?_⟩
  exact ⟨hw.1.held, hw.1.settled, hw.2, hx, by simp [Tending.shelf], by simp [Tending.shelf],
    by simp [Tending.shelf], by simp [Tending.shelf]⟩

theorem registeredObject_id {o : ReclaimObject} {now : Int} :
    (Coordinator.registeredObject o now).id = o.id := by
  unfold Coordinator.registeredObject
  split <;> rfl

theorem registeredObject_state {o : ReclaimObject} {now : Int} :
    (Coordinator.registeredObject o now).lifecycleState = .created := by
  unfold Coordinator.registeredObject
  split <;> rfl

theorem registerObject {req : CreateObjectRequest} :
    (party env m true t (.createObject req)).Triple false (Ready m t req.object.id)
      (Coordinator.registerObject env req)
      (fun a => Leaving m t (.createObject req) req.object.id (.ok a))
      (fun _ => Ready m t req.object.id) := by
  refine Triple.bind (Triple.settle (fun _ _ _ h => h) (fun _ _ _ h => h)) fun prepared => ?_
  refine Triple.bind getObject_none fun x => ?_
  refine Triple.refuse (fun _ _ h => h.1) fun hx => ?_
  have hx : x = none := by
    cases x with
    | none => rfl
    | some o => exact absurd rfl hx
  refine Triple.pre ?_ fun w hw => hw.2 hx
  refine Triple.bind (Triple.nowMs Tending.firm) fun now => ?_
  cases prepared with
  | none =>
    refine Tending.publishObject (by simp) (by simp) rfl registeredObject_id
      (.inl registeredObject_state) ?_
    rw [registeredObject_state]
    exact fun h => by cases h
  | some p =>
    obtain ⟨data, h, target⟩ := p
    refine Triple.bind (Triple.post (Tending.storePayload ?_) (fun _ _ h => h)
      fun _ _ h => h.ready) fun rs => Triple.of_pure fun hd => Triple.of_pure fun hX => ?_
    · exact registeredObject_id
    refine Triple.bind (Triple.settle (fun _ _ _ h => h) (fun _ _ _ h => h.ready rfl))
      fun count => ?_
    exact Tending.publishObject hd hX rfl registeredObject_id (.inr rfl) fun _ => rfl

theorem safe_createObject {req : CreateObjectRequest} (hidle : Idle t w) :
    (discipline env m).Safe true t (.createObject req) (Op.prog env (.createObject req)) w := by
  cases hv : req.object.validate with
  | error e =>
    have hprog : Op.prog env (.createObject req) = .ret (.error e) := by
      show (Prog.settle req.object.validate >>= _ : M ReclaimObject) = _
      rw [hv]
      rfl
    rw [hprog]
    exact Last.refused hidle rfl fun _ h => h
  | ok u =>
    refine safe_withObject (X := req.object.id) ?_ rfl (fun _ => rfl) registerObject hidle
    show (Prog.settle req.object.validate >>= _ : M ReclaimObject) = _
    rw [hv]
    rfl

end ReclaimFabric
