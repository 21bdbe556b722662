import ReclaimFabric.Protocol.Objects

/-!
# Compress, archive, restore and verify keep the discipline

Each of them tends its object (`Tending`): the payload is written first, the rows are changed in
one locked section, and a failure undoes the rows that were changed.

* `safe_compress`   the source replica is swapped for the compressed one;
* `safe_archive`    a blob, its archive row and the ARCHIVED state;
* `safe_restore`    the logical bytes are a replica again, or they still were;
* `safe_verify`     only the outcome of a verification is written.
-/

set_option linter.unusedSectionVars false

namespace ReclaimFabric

open Party (Triple)

variable {env : Env} {m : Regime} {t : Tid} {op : Op} {X : Uuid} {f : Tend} {w w' : Traced}

/-! ## where the operations start -/

/-- what is known of an object of a tier -/
def Tend.start (o : ReclaimObject) : Tend := ⟨[], false, .row o, [], [], []⟩

theorem Found.tending {o : ReclaimObject} (h : Found m t X o w) (ht : Tiered o.lifecycleState) :
    Tending env m t X (.start o) w where
  held := h.ready.held
  settled := h.ready.settled
  fine := h.fine
  row := ⟨h.row, ht⟩
  ghosts := fun hc => by cases hc
  rows := fun _ h => absurd h List.not_mem_nil
  archs := fun _ h => absurd h List.not_mem_nil
  names := fun _ _ h => absurd h List.not_mem_nil

theorem tiered_of_compressed {s : LifecycleState} (h : Legal s .compressed) : Tiered s := by
  obtain ⟨r, h⟩ := h
  cases s <;> simp [checkTransition, LifecycleState.successors, Tiered] at h ⊢

theorem tiered_of_archived {s : LifecycleState} (h : Legal s .archived) : Tiered s := by
  obtain ⟨r, h⟩ := h
  cases s <;> simp [checkTransition, LifecycleState.successors, Tiered] at h ⊢

/-- an operation whose result acknowledges no value -/
theorem Busy.leaving (h : Busy env m t X [] w) (r : Res op.Out) (he : ∀ F, op.effect X r F = F) :
    Leaving m t op X r w := by
  obtain ⟨f, hk, hf⟩ := h
  exact hf.leaving hk r he

namespace Tending

/-! ## compress -/

/-- what compress knows while it holds its two payloads -/
def pressing (o : ReclaimObject) (primary : Replica) (ks : List (String × ContentHash))
    (key : String) (h : ContentHash) (rows : List Replica) : Tend where
  keys := ks
  clear := true
  base := .row o
  rows := rows
  archs := []
  names := [(key, h), (primary.location.key, primary.contentHash)]

theorem compressedTarget {be key : String} {h : ContentHash} {existing : Option DedupEntry}
    (hn : (key ++ "-zstd", h) ∈ f.names) :
    (party env m true t op).Triple false (Tending env m t X (found f h existing))
      (Coordinator.compressedTarget env be key h existing)
      (fun x => Tending env m t X { f with names := (x.1, h) :: f.names })
      (fun _ => Tending env m t X f) := by
  cases existing with
  | none =>
    refine Triple.pure ?_
    intro w hw
    refine hw.weaken rfl id rfl (fun _ h => h) (fun _ h => h) ?_
    intro n hmem
    rcases List.mem_cons.mp hmem with rfl | hmem
    · exact hn
    · exact hmem
  | some e =>
    have hback : ∀ w, Tending env m t X (found f h (some e)) w → Tending env m t X f w :=
      fun w hw => hw.weaken rfl id rfl (fun _ h => h) (fun _ h => h)
        (fun _ h => List.mem_cons_of_mem _ h)
    unfold Coordinator.compressedTarget
    refine Triple.refuse (fun _ w hw => hback w hw) fun _ => ?_
    refine Triple.post ?_ (fun _ _ h => h) (fun _ => hback)
    refine Triple.bind (Tending.readPayload be e.key) fun d => Triple.of_pure fun _ => ?_
    refine Triple.bind (Triple.settle (fun _ _ _ h => h) (fun _ _ _ h => h)) fun _ => ?_
    exact Triple.pure fun _ h => h

theorem writeCompressed {be key : String} {data : Bytes} {h : ContentHash}
    (hk : (be, h) ∈ f.keys) (hn : (key, h) ∈ f.names) (hc : f.clear = true)
    (hbase : f.base ≠ .unknown) :
    (party env m true t op).Triple false (Tending env m t X f)
      (Coordinator.writeCompressed env be key data) (fun _ => Tending env m t X f)
      (fun _ => Tending env m t X f) := by
  refine Triple.attemptBind (Triple.writePayloadTo firm (fills hk hn hc hbase))
    (fun _ => Triple.pure fun _ h => h) fun e => ?_
  exact Triple.attemptBind (deletePayload hk hn) (fun _ => Triple.throw fun _ h => h)
    fun _ => Triple.throw fun _ h => h

/-- the source dedup row, when there is one, is that of the source replica -/
def SourceRow (primary : Replica) (x : Option DedupEntry) : Prop :=
  ∀ e, x = some e → e.contentHash = primary.contentHash ∧
    e.backend = primary.location.backend ∧ e.key = primary.location.key

theorem sourceDedup {primary : Replica} {key : String} {h : ContentHash} {wrote : Bool}
    (hk : (primary.location.backend, h) ∈ f.keys) (hn : (key, h) ∈ f.names) :
    (party env m true t op).Triple false (Tending env m t X f)
      (Coordinator.sourceDedup env primary key wrote)
      (fun x w => SourceRow primary x ∧ Tending env m t X f w)
      (fun _ => Tending env m t X f) := by
  refine Triple.ite (fun _ => Triple.pure fun w hw => ⟨nofun, hw⟩) fun _ => ?_
  refine Triple.bind (inSectionStore (fun _ => Stable.and (Stable.const _) stable) getDedup)
    fun x => Triple.of_pure fun hx => ?_
  have hback : ∀ w, Tending env m t X (found { f with clear := true } primary.contentHash x) w →
      Tending env m t X f w := fun w hw =>
    hw.weaken rfl (fun _ => rfl) rfl (fun _ h => h) (fun _ h => h)
      (fun _ h => List.mem_append_right _ h)
  refine Triple.pre ?_ hback
  cases x with
  | none => exact Triple.throw fun _ h => h
  | some e =>
    refine Triple.ite (fun _ => ?_) fun hkey => ?_
    · refine Triple.ite (fun _ => ?_) fun _ => ?_
      · refine Triple.bind (R := fun _ => Tending env m t X f)
          (Triple.attempt (deletePayload hk hn)) fun _ => ?_
        exact Triple.bind (R := fun _ _ => False) (Triple.throw fun _ h => h)
          fun _ _ h => h.elim
      · exact Triple.bind (R := fun _ _ => False) (Triple.throw fun _ h => h)
          fun _ _ h => h.elim
    · refine Triple.pure fun w hw => ⟨?_, hw⟩
      rintro e' ⟨⟩
      exact ⟨(hx e rfl).1, (hx e rfl).2, not_not.mp hkey⟩

/-- one stage of the metadata section -/
theorem stage {α : Type} {p : Coordinator.CompressProgress} {x : M α}
    {k : α → M (Coordinator.CompressProgress × Res Unit)} {P : Traced → Prop}
    {R : α → Traced → Prop} {S : Traced → Prop}
    {Q : Coordinator.CompressProgress × Res Unit → Traced → Prop}
    {E : ReclaimError → Traced → Prop}
    (h : (party env m true t op).Triple true P x R (fun _ => S))
    (hk : ∀ a, (party env m true t op).Triple true (R a) (k a) Q E)
    (hS : ∀ e w, S w → Q (p, .error e) w) :
    (party env m true t op).Triple true P (Coordinator.stage p x k) Q E :=
  Triple.attemptBind h hk fun e => Triple.pure (hS e)

/-- the replica rows that are known to be there after some progress -/
def progressRows (primary new : Replica) (p : Coordinator.CompressProgress) : List Replica :=
  (if p.newReplicaAdded then [new] else []) ++ (if p.oldReplicaDeleted then [] else [primary])

/-- the source and the replacement of a compression -/
structure Swap (X : Uuid) (ks : List (String × ContentHash)) (primary new : Replica)
    (o updated : ReclaimObject) : Prop where
  source : primary.objectId = X
  target : new.objectId = X
  held : primary.slot ∈ ks
  slot : (primary.location.backend, new.contentHash) ∈ ks
  backend : new.location.backend = primary.location.backend
  id : updated.id = X
  immut : updated.immut = o.immut
  flags : updated.flags = o.flags
  state : updated.lifecycleState = .compressed
  legal : Legal o.lifecycleState updated.lifecycleState

section
variable {ks : List (String × ContentHash)} {primary new : Replica} {o updated : ReclaimObject}

theorem Swap.new_slot (h : Swap X ks primary new o updated) : new.slot ∈ ks := by
  have hs := h.slot
  rw [← h.backend] at hs
  exact hs

/-- the metadata section: done, or stopped with the progress that is reported -/
theorem compressMetadata {existing old : Option DedupEntry} {audit : AuditEntry}
    (h : Swap X ks primary new o updated) :
    (party env m true t op).Triple true
      (Tending env m t X (pressing o primary ks new.location.key new.contentHash [primary]))
      (Coordinator.compressMetadata primary new existing old updated audit)
      (fun y => outcome
        (fun _ => Tending env m t X
          (pressing updated primary ks new.location.key new.contentHash []))
        (fun _ => Tending env m t X (pressing o primary ks new.location.key new.contentHash
          (progressRows primary new y.1))) y.2)
      (fun _ _ => False) := by
  -- the two replica rows and the object row
  have hrows (p : Coordinator.CompressProgress) (hdel : p.oldReplicaDeleted = false)
      (hadd : p.newReplicaAdded = false) :
      (party env m true t op).Triple true
        (Tending env m t X (pressing o primary ks new.location.key new.contentHash [primary]))
        (Coordinator.stage p (Coordinator.store (.deleteReplica primary.replicaId)) fun _ =>
          Coordinator.stage { p with oldReplicaDeleted := true }
            (Coordinator.store (.addReplica new)) fun _ =>
              Coordinator.stage { p with oldReplicaDeleted := true, newReplicaAdded := true }
                (Coordinator.store (.updateObjectWithAudit updated audit)) fun _ =>
                  pure ({ p with oldReplicaDeleted := true, newReplicaAdded := true }, .ok ()))
        (fun y => outcome
          (fun _ => Tending env m t X
            (pressing updated primary ks new.location.key new.contentHash []))
          (fun _ => Tending env m t X (pressing o primary ks new.location.key new.contentHash
            (progressRows primary new y.1))) y.2)
        (fun _ _ => False) := by
    refine stage (deleteReplica List.mem_cons_self h.source h.held) (fun _ => ?_) ?_
    · refine stage (Triple.pre (addReplica (f := pressing o primary ks new.location.key
        new.contentHash []) nofun h.target h.new_slot fun _ => List.mem_cons_self) ?_)
        (fun _ => Triple.of_pure fun _ => ?_) ?_
      · exact fun w hw => hw.weaken rfl id rfl nofun (fun _ h => h) (fun _ h => h)
      · refine stage (writeRow rfl h.id h.immut h.flags (.inl h.state) h.legal
          (StoreOp.writesRow_updateObjectWithAudit _ _)) (fun _ => ?_) ?_
        · exact Triple.pure fun w hw =>
            hw.weaken rfl id rfl nofun (fun _ h => h) (fun _ h => h)
        · intro e w hw
          exact hw.weaken rfl id rfl (by simp [pressing, progressRows]) (fun _ h => h)
            (fun _ h => h)
      · intro e w hw
        exact hw.weaken rfl id rfl (by simp [pressing, progressRows, hadd]) (fun _ h => h)
          (fun _ h => h)
    · intro e w hw
      exact hw.weaken rfl id rfl (by simp [pressing, progressRows, hadd, hdel]) (fun _ h => h)
        (fun _ h => h)
  have hstay (p : Coordinator.CompressProgress) (hdel : p.oldReplicaDeleted = false)
      (hadd : p.newReplicaAdded = false) (e : ReclaimError) (w : Traced)
      (hw : Tending env m t X (pressing o primary ks new.location.key new.contentHash [primary]) w) :
      outcome (fun (_ : Unit) => Tending env m t X
          (pressing updated primary ks new.location.key new.contentHash []))
        (fun _ => Tending env m t X (pressing o primary ks new.location.key new.contentHash
          (progressRows primary new p))) (.error e) w :=
    hw.weaken rfl id rfl (by simp [pressing, progressRows, hadd, hdel]) (fun _ h => h)
      (fun _ h => h)
  refine Triple.ite (fun _ => ?_) fun _ => hrows {} rfl rfl
  have hrecord : (party env m true t op).Triple true
      (Tending env m t X (pressing o primary ks new.location.key new.contentHash [primary]))
      (if existing.isSome then
        Coordinator.store (.dedupAcquire new.contentHash primary.location.backend)
      else Coordinator.store (.insertDedup ⟨new.contentHash, primary.location.backend,
        new.location.key, 1, new.size⟩))
      (fun _ => Tending env m t X
        (pressing o primary ks new.location.key new.contentHash [primary]))
      (fun _ => Tending env m t X
        (pressing o primary ks new.location.key new.contentHash [primary])) :=
    Triple.ite (fun _ => dedupAcquire h.slot) fun _ => insertDedup h.slot fun _ => List.mem_cons_self
  refine stage hrecord (fun _ => ?_) (hstay {} rfl rfl)
  refine Triple.ite (fun _ => ?_) fun _ => hrows { newRefRecorded := true } rfl rfl
  exact stage (dedupRelease h.held) (fun _ => hrows _ rfl rfl)
    (hstay { newRefRecorded := true } rfl rfl)

theorem restoreSourceRef {old : Option DedupEntry} {key : String} {h : ContentHash}
    (hheld : primary.slot ∈ ks) (hold : SourceRow primary old) :
    (party env m true t op).Triple true (Tending env m t X (pressing o primary ks key h []))
      (Coordinator.restoreSourceRef old)
      (fun _ => Tending env m t X (pressing o primary ks key h []))
      (fun _ => Tending env m t X (pressing o primary ks key h [])) := by
  cases old with
  | none => exact Triple.throw fun _ h => h
  | some e =>
    obtain ⟨hh, hb, hk⟩ := hold e rfl
    have hheld : (e.backend, e.contentHash) ∈ ks := by
      rw [hh, hb]
      exact hheld
    have hback (x : Option DedupEntry) (w : Traced)
        (hw : Tending env m t X (found (pressing o primary ks key h []) e.contentHash x) w) :
        Tending env m t X (pressing o primary ks key h []) w :=
      hw.weaken rfl id rfl (fun _ h => h) (fun _ h => h) (fun _ h => List.mem_append_right _ h)
    refine Triple.bind getDedup fun x => Triple.of_pure fun _ => Triple.pre ?_ (hback x)
    refine Triple.ite (fun _ => dedupAcquire hheld) fun _ => insertDedup hheld fun _ => ?_
    rw [hh, hk]
    exact List.mem_cons_of_mem _ List.mem_cons_self

/-- the rows are put back as far as the progress went -/
theorem undoCompress {old : Option DedupEntry} {p : Coordinator.CompressProgress}
    (h : Swap X ks primary new o updated) (hold : SourceRow primary old) :
    (party env m true t op).Triple true
      (Tending env m t X (pressing o primary ks new.location.key new.contentHash
        (progressRows primary new p)))
      (Coordinator.undoCompress p primary new old)
      (fun _ => Tending env m t X (pressing o primary ks new.location.key new.contentHash []))
      (fun _ => Tending env m t X (pressing o primary ks new.location.key new.contentHash [])) := by
  have hdrop {rs : List Replica} (w : Traced)
      (hw : Tending env m t X (pressing o primary ks new.location.key new.contentHash rs) w) :
      Tending env m t X (pressing o primary ks new.location.key new.contentHash []) w :=
    hw.weaken rfl id rfl nofun (fun _ h => h) (fun _ h => h)
  unfold Coordinator.undoCompress
  refine Triple.guarded (fun hadd => ?_) (fun _ => hdrop) ?_
  · refine Triple.post (deleteReplica (r := new) ?_ h.target h.new_slot) (fun _ => hdrop)
      fun _ => hdrop
    simp [pressing, progressRows, hadd]
  refine Triple.guarded (fun _ => ?_) (fun _ _ h => h) ?_
  · exact Triple.post (addReplica nofun h.source h.held fun _ =>
      List.mem_cons_of_mem _ List.mem_cons_self) (fun _ w hw => hdrop w hw.2) fun _ _ h => h
  refine Triple.guarded (fun _ => restoreSourceRef h.held hold) (fun _ _ h => h) ?_
  refine Triple.ite (fun _ => ?_) fun _ => Triple.pure fun _ h => h
  exact Triple.bind (dedupRelease h.slot) fun _ => Triple.pure fun _ h => h

/-- the error of a failed compression, with the one of its compensation -/
theorem throwUndone {F : Tend} {Q : Unit → Traced → Prop} {e : ReclaimError} (cleanup : Res Unit)
    (hF : F.keys = ks) :
    (party env m true t op).Triple false (Tending env m t X F)
      (match cleanup with
        | .ok () => throw e
        | .error c => throw (.internal
            s!"compression metadata failed ({e}); rollback also failed ({c})") : M Unit)
      Q (fun _ => Busy env m t X ks) := by
  cases cleanup with
  | ok _ => exact Triple.throw fun _ h => ⟨_, hF, h⟩
  | error _ => exact Triple.throw fun _ h => ⟨_, hF, h⟩

/-- the metadata section with its compensation -/
theorem recordCompressed {existing old : Option DedupEntry} {audit : AuditEntry} {wrote : Bool}
    (h : Swap X ks primary new o updated) (hold : SourceRow primary old) :
    (party env m true t op).Triple false
      (Tending env m t X (pressing o primary ks new.location.key new.contentHash [primary]))
      (Coordinator.recordCompressed primary new existing old updated audit wrote)
      (fun _ => Tending env m t X
        (pressing updated primary ks new.location.key new.contentHash []))
      (fun _ => Busy env m t X ks) := by
  have hfirm {F : Tend} : Stable env m t (Tending env m t X F) := stable
  refine Triple.bind (R := fun (y : Coordinator.CompressProgress × Res Unit) => outcome
    (fun _ => Tending env m t X (pressing updated primary ks new.location.key new.contentHash []))
    (fun _ => Tending env m t X (pressing o primary ks new.location.key new.contentHash
      (progressRows primary new y.1))) y.2) ?_ fun y => ?_
  · refine Triple.attemptBind (S := fun _ => Tending env m t X
      (pressing o primary ks new.location.key new.contentHash [primary])) ?_
      (fun y => Triple.pure fun _ h => h) fun e => Triple.pure fun _ h => h
    refine inSection (f := pressing o primary ks new.location.key new.contentHash [primary])
      (fun y => ?_) ((compressMetadata h).post (fun _ _ h => h) nofun)
    obtain ⟨p, r⟩ := y
    cases r with
    | ok _ => exact hfirm
    | error _ => exact hfirm
  · obtain ⟨p, r⟩ := y
    cases r with
    | ok _ => exact Triple.pure fun _ h => h
    | error e =>
      have hundo : (party env m true t op).Triple false
          (Tending env m t X (pressing o primary ks new.location.key new.contentHash
            (progressRows primary new p)))
          (Coordinator.withInner (Coordinator.undoCompress p primary new old))
          (fun _ => Tending env m t X (pressing o primary ks new.location.key new.contentHash []))
          (fun _ => Tending env m t X
            (pressing o primary ks new.location.key new.contentHash [])) :=
        inSectionTo (fun _ => stable) stable
          (fun w hw => hw.weaken rfl id rfl nofun (fun _ h => h) (fun _ h => h))
          (undoCompress h hold)
      have hkey : (new.location.key, new.contentHash) ∈
          (pressing o primary ks new.location.key new.contentHash []).names := List.mem_cons_self
      refine Triple.bind (Triple.attempt (Q := fun _ => Tending env m t X
        (pressing o primary ks new.location.key new.contentHash [])) hundo) fun cleanup => ?_
      refine Triple.ite (fun _ => ?_) fun _ => throwUndone cleanup rfl
      refine Triple.bind (Triple.attempt (Q := fun _ => Tending env m t X
        (pressing o primary ks new.location.key new.contentHash [])) ?_)
        fun _ => throwUndone cleanup rfl
      exact deletePayload h.slot hkey

/-- what compress knows when it has taken its payload guard -/
def toPress (o : ReclaimObject) (primary : Replica) (ks : List (String × ContentHash))
    (h : ContentHash) : Tend where
  keys := ks
  clear := false
  base := .row o
  rows := [primary]
  archs := []
  names := [(primary.location.key ++ "-zstd", h), (primary.location.key, primary.contentHash)]

theorem compressGuarded {actor : String} {data : Bytes} {result : CompressionResult}
    (hX : primary.objectId = X) (hid : o.id = X) (hheld : primary.slot ∈ ks)
    (hslot : (primary.location.backend, env.sha256 data) ∈ ks)
    (hl : Legal o.lifecycleState .compressed) :
    (party env m true t op).Triple false
      (Tending env m t X (toPress o primary ks (env.sha256 data)))
      (Coordinator.compressGuarded env o actor primary data result)
      (fun _ => Busy env m t X ks) (fun _ => Busy env m t X ks) := by
  refine Triple.bind ((inSectionStore (fun _ => Stable.and (Stable.const _) stable)
    getDedup).post (fun _ _ h => h) fun _ _ h => ⟨_, rfl, h⟩) fun existing =>
    Triple.of_pure fun _ => ?_
  refine Triple.bind ((compressedTarget (f := { toPress o primary ks (env.sha256 data) with
    clear := true }) List.mem_cons_self).post (fun _ _ h => h) fun _ _ h => ⟨_, rfl, h⟩) fun y => ?_
  obtain ⟨key, wrote⟩ := y
  have hpress (w : Traced) (hw : Tending env m t X { toPress o primary ks (env.sha256 data) with
      clear := true, names := (key, env.sha256 data) ::
        (toPress o primary ks (env.sha256 data)).names } w) :
      Tending env m t X (pressing o primary ks key (env.sha256 data) [primary]) w := by
    refine hw.weaken rfl id rfl (fun _ h => h) (fun _ h => h) ?_
    intro n hn
    simp only [pressing, List.mem_cons, List.not_mem_nil, or_false] at hn
    rcases hn with rfl | rfl
    · exact List.mem_cons_self
    · exact List.mem_cons_of_mem _ (List.mem_cons_of_mem _ List.mem_cons_self)
  refine Triple.pre ?_ hpress
  refine Triple.bind ((Triple.nodeForBackend firm _).post (fun _ _ h => h)
    fun _ _ h => ⟨_, rfl, h⟩) fun owner => ?_
  refine Triple.guarded (S := Tending env m t X
    (pressing o primary ks key (env.sha256 data) [primary])) (fun _ => ?_) (fun _ _ h => h) ?_
  · exact (writeCompressed (f := pressing o primary ks key (env.sha256 data) [primary]) hslot
      List.mem_cons_self rfl nofun).post (fun _ _ h => h) fun _ _ h => ⟨_, rfl, h⟩
  refine Triple.bind ((sourceDedup (f := pressing o primary ks key (env.sha256 data) [primary])
    hslot List.mem_cons_self).post (fun _ _ h => h) fun _ _ h => ⟨_, rfl, h⟩) fun old =>
    Triple.of_pure fun hold => ?_
  refine Triple.bind (Triple.ask rfl firm) fun rid => ?_
  refine Triple.bind (Triple.nowMs firm) fun created => ?_
  refine Triple.bind (Triple.nowMs firm) fun verified => ?_
  refine Triple.bind (Triple.nowMs firm) fun ts => ?_
  have hswap : Swap X ks primary ⟨rid, o.id, o.generation,
      ⟨primary.location.backend, key, primary.location.kind⟩, result.compressedSize,
      env.sha256 data, created, some verified, true, owner⟩ o
      (Coordinator.compressedObject o result) :=
    ⟨hX, hid, hheld, hslot, rfl, hid, rfl, rfl, rfl, hl⟩
  refine Triple.bind (recordCompressed hswap hold) fun _ => ?_
  refine Triple.ite (fun _ => ?_) fun _ => Triple.pure fun _ h => ⟨_, rfl, h⟩
  refine Triple.attemptBind (deletePayload hheld (List.mem_cons_of_mem _ List.mem_cons_self))
    (fun _ => Triple.pure fun _ h => ⟨_, rfl, h⟩) fun e => ?_
  refine Triple.pre ?_ (fun w hw => (⟨_, rfl, hw⟩ : Busy env m t X ks w))
  refine Triple.bind (R := fun _ => Busy env m t X ks) ?_ fun _ => Triple.pure fun _ h => h
  refine Triple.section_ stable_busy.firm (fun _ => stable_busy.firm) ?_
  exact Triple.bind (Triple.nowMs stable_busy.firm) fun _ => Triple.storeCalm rfl stable_busy.firm

end

end Tending

theorem compressVerified_ok {data c : Bytes} {r : CompressionResult}
    (h : Coordinator.compressVerified env data = .ok (c, r)) : env.zstdEncode data = .ok c := by
  simp only [Coordinator.compressVerified, bind, Except.bind] at h
  cases he : env.zstdEncode data with
  | error e => rw [he] at h; cases h
  | ok x =>
    rw [he] at h
    simp only at h
    split at h
    · cases h
    · split at h
      · cases h
      · cases h
        rfl

theorem verifySha256_ok {data : Bytes} {h : ContentHash} {u : Unit}
    (hv : env.verifySha256 data h = .ok u) : env.sha256 data = h := by
  unfold Env.verifySha256 at hv
  split at hv
  · assumption
  · cases hv

theorem safe_compress {id : Uuid} {actor : String} (hidle : Idle t w) :
    (discipline env m).Safe true t (.compress id actor) (Op.prog env (.compress id actor)) w := by
  refine safe_withObject (X := id) rfl rfl (fun _ => rfl) ?_ hidle
  refine Triple.bind requireObject fun o => Triple.of_pure fun hid => ?_
  refine Triple.refuse (fun _ w hw => hw.ready) fun _ => ?_
  refine Triple.refuse (fun _ w hw => hw.ready) fun _ => ?_
  refine Triple.bind (R := fun _ w => Legal o.lifecycleState .compressed ∧ Found m t id o w)
    (Triple.settle (fun r h w hw => ⟨⟨r, h⟩, hw⟩) fun _ _ w hw => hw.ready) fun _ =>
    Triple.of_pure fun hl => ?_
  have hstart (w : Traced) (hw : Found m t id o w) : Tending env m t id (.start o) w :=
    hw.tending (tiered_of_compressed hl)
  refine Triple.pre ?_ hstart
  have hready {F : Tend} (hF : F.keys = []) (w : Traced) (hw : Tending env m t id F w) :
      Ready m t id w := hw.ready hF
  refine Triple.bind (Tending.innerReplicas.post (fun _ _ h => h) fun _ => hready rfl) fun rs =>
    Triple.of_pure fun hrs => ?_
  cases hp : Coordinator.compressPrimary o rs with
  | none =>
    simp only
    exact Triple.throw (hready rfl)
  | some primary =>
    simp only
    have hmem : primary ∈ rs := List.mem_of_find?_eq_some hp
    refine Triple.bind ((Tending.readPayload _ _).post (fun _ _ h => h) fun _ => hready rfl)
      fun data => Triple.of_pure fun hbytes => ?_
    refine Triple.bind (R := fun _ w => env.sha256 data = primary.contentHash ∧
      Tending env m t id (Tending.stocked (.start o) rs) w)
      (Triple.settle (fun _ h w hw => ⟨verifySha256_ok h, hw⟩) fun _ _ => hready rfl) fun _ =>
      Triple.of_pure fun hhash => ?_
    refine Triple.bind (R := fun y w => env.zstdEncode data = .ok y.1 ∧
      Tending env m t id (Tending.stocked (.start o) rs) w)
      (Triple.settle (fun y h w hw => ⟨compressVerified_ok h, hw⟩) fun _ _ => hready rfl) fun y =>
      Triple.of_pure fun hz => ?_
    obtain ⟨c, result⟩ := y
    refine Triple.refuse (fun _ => hready rfl) fun _ => ?_
    have hname {F : Tend} (hF : (primary.location.key, primary.contentHash) ∈ F.names)
        (w : Traced) (hw : Tending env m t id F w) : m.honest = true →
        Named env m.bytes w (primary.location.key ++ "-zstd") (env.sha256 c) :=
      fun hm => .zstd (hw.names hm _ hF) (hbytes hm) hhash hz
    have hpname : (primary.location.key, primary.contentHash) ∈
        (Tending.stocked (.start o) rs).names :=
      List.mem_append_left _ (List.mem_map_of_mem hmem)
    have hpress (w : Traced) (hw : Tending env m t id (Tending.stocked (.start o) rs) w) :
        Tending env m t id (Tending.toPress o primary [] (env.sha256 c)) w := by
      refine (hw.named (hname hpname w hw)).weaken rfl nofun rfl ?_ (fun _ h => h) ?_
      · intro r hr
        rw [List.mem_singleton.mp hr]
        exact hmem
      · intro n hn
        simp only [Tending.toPress, List.mem_cons, List.not_mem_nil, or_false] at hn
        rcases hn with rfl | rfl
        · exact List.mem_cons_self
        · exact List.mem_cons_of_mem _ hpname
    refine Triple.pre ?_ hpress
    refine Triple.post (Tending.withPayloadsBusy rfl ?_ (Tending.compressGuarded
      (hrs primary hmem) hid.1 (mem_sortKeys.mpr List.mem_cons_self)
      (mem_sortKeys.mpr (List.mem_cons_of_mem _ List.mem_cons_self)) hl))
      (fun _ _ h => h.leaving _ fun _ => rfl) (fun _ _ h => h.ready)
    intro r hr
    rw [List.mem_singleton.mp hr]
    exact hrs primary hmem

/-! ## archive -/

namespace Tending

/-- the archive row and the ARCHIVED state, or neither -/
theorem recordArchive {o : ReclaimObject} {actor : String} {a : ArchiveInfo}
    {record : ArchiveRecord} (hb : f.base = .row o) (hid : o.id = X)
    (hX : record.objectId = X) (hk : ArchiveKeyOf X record.key)
    (hgen : record.generation = o.generation) (harch : record.archiveId ≠ "")
    (hl : Legal o.lifecycleState .archived) :
    (party env m true t op).Triple false
      (fun w => Tending env m t X f w ∧ Configured record.backend w)
      (Coordinator.recordArchive o actor a record) (fun _ => Busy env m t X f.keys)
      (fun _ => Busy env m t X f.keys) := by
  have hbusy {g : Tend} (hg : g.keys = f.keys) (w : Traced) (hw : Tending env m t X g w) :
      Busy env m t X f.keys w := ⟨g, hg, hw⟩
  have hdelete {g : Tend} (hg : g.keys = f.keys) (hgb : g.base ≠ .unknown) :
      (party env m true t op).Triple false (Tending env m t X g)
        (Coordinator.archiveDelete a.id record.key) (fun _ => Busy env m t X f.keys)
        (fun _ => Busy env m t X f.keys) :=
    Triple.post (onBlob (a := a.id) hgb (by simp [Cmd.onBlob]) hk) (fun _ => hbusy hg) (fun _ => hbusy hg)
  have hbase : f.base ≠ .unknown := by rw [hb]; simp
  have hinsert : (party env m true t op).Triple false
      (fun w => Tending env m t X f w ∧ Configured record.backend w)
      (Coordinator.withInner (Coordinator.store (.insertArchive record)))
      (fun _ => Tending env m t X { f with clear := true, archs := record :: f.archs })
      (fun _ => Tending env m t X f) := by
    refine Triple.withInner (R := Tending env m t X { f with clear := true })
      (stable.and stable_configured).firm firm (fun _ => firm) (fun _ => firm)
      (fun w hw hi hl => hw.1.clear hi rfl hl) (fun _ w hw _ => hw.1) ?_
    exact ((insertArchive (f := { f with clear := true }) hb hX hk hgen harch).pre
      fun w hw => ⟨hw.2, hw.1.2⟩).post (fun _ _ h => h) fun _ _ h => h.forget
  refine Triple.attemptBind hinsert (fun _ => ?_) fun e => ?_
  · have hrow : (party env m true t op).Triple true
        (Tending env m t X { f with clear := true, archs := record :: f.archs })
        (do
          let ts ← Coordinator.nowMs
          Coordinator.store (.updateObjectWithAudit { o with lifecycleState := .archived }
            (Coordinator.auditOf ts actor "OBJECT_ARCHIVED"
              { o with lifecycleState := .archived } (some o.lifecycleState) (some .archived) none
              none (.obj [("archive_key", .str record.key), ("archive_id", .str record.archiveId),
                ("size", .nat record.size)]))))
        (fun _ => Busy env m t X f.keys)
        (fun _ => Tending env m t X { f with clear := true, archs := record :: f.archs }) := by
      refine Triple.bind (Triple.nowMs firm) fun ts => ?_
      refine Triple.post (writeRow hb ?_ ?_ ?_ ?_ ?_
        (StoreOp.writesRow_updateObjectWithAudit _ _)) (fun _ => hbusy rfl) fun _ _ h => h
      · exact hid
      · rfl
      · rfl
      · exact .inr (.inl rfl)
      · exact hl
    refine Triple.attemptBind (inSection (fun _ => stable_busy) hrow)
      (fun _ => Triple.pure fun _ h => h) fun e => ?_
    refine Triple.attemptBind (inSectionStore (fun _ => stable)
      (deleteArchive (a := record) List.mem_cons_self)) (fun _ => ?_)
      fun _ => Triple.throw (hbusy rfl)
    exact Triple.bind (Triple.mapErr (hdelete rfl hbase)) fun _ => Triple.throw fun _ h => h
  · exact Triple.bind (R := fun _ => Busy env m t X f.keys) (Triple.mapErr (hdelete rfl hbase))
      fun _ => Triple.throw fun _ h => h

end Tending

theorem archiveKeyOf (X : Uuid) (gen : Nat) (rid : Uuid) :
    ArchiveKeyOf X s!"{X}/{gen}/gen{rid}" := ⟨gen, rid, rfl⟩

/-- the archived object keeps its last record; another one is archived anew -/
theorem safe_archive {id : Uuid} {actor : String} (hidle : Idle t w) :
    (discipline env m).Safe true t (.archive id actor) (Op.prog env (.archive id actor)) w := by
  refine safe_withObject (X := id) rfl rfl (fun _ => rfl) ?_ hidle
  refine Triple.bind requireObject fun o => Triple.of_pure fun hid => ?_
  have hready {F : Tend} (hF : F.keys = []) (w : Traced) (hw : Tending env m t id F w) :
      Ready m t id w := hw.ready hF
  refine Triple.ite (fun hs => ?_) fun _ => ?_
  · have hstart (w : Traced) (hw : Found m t id o w) : Tending env m t id (.start o) w :=
      hw.tending (by rw [hs]; simp [Tiered])
    refine Triple.pre ?_ hstart
    refine Triple.bind (Tending.innerArchives.post (fun _ _ h => h) fun _ => hready rfl) fun as =>
      Triple.of_pure fun _ => ?_
    cases as.getLast? with
    | none => exact Triple.throw (hready rfl)
    | some a => exact Triple.pure fun w hw => hw.leaving rfl _ fun _ => rfl
  · refine Triple.bind (R := fun _ w => Legal o.lifecycleState .archived ∧ Found m t id o w)
      (Triple.settle (fun r h w hw => ⟨⟨r, h⟩, hw⟩) fun _ _ w hw => hw.ready) fun _ =>
      Triple.of_pure fun hl => ?_
    have hstart (w : Traced) (hw : Found m t id o w) : Tending env m t id (.start o) w :=
      hw.tending (tiered_of_archived hl)
    refine Triple.pre ?_ hstart
    refine Triple.bind (Tending.innerReplicas.post (fun _ _ h => h) fun _ => hready rfl) fun rs =>
      Triple.of_pure fun hrs => ?_
    cases hp : Coordinator.archivePrimary o rs with
    | none => exact Triple.throw (hready rfl)
    | some primary =>
      refine Triple.refuse (fun _ => hready rfl) fun _ => ?_
      refine Triple.bind ((Tending.readPayload _ _).post (fun _ _ h => h) fun _ => hready rfl)
        fun data => Triple.of_pure fun _ => ?_
      refine Triple.bind (Triple.settle (fun _ _ _ h => h) fun _ _ => hready rfl) fun _ => ?_
      refine Triple.bind (R := fun a w => Tending env m t id (Tending.stocked (.start o) rs) w ∧
        Configured a.id w) (Triple.lockedConfig Tending.firm fun c => ?_) fun backend => ?_
      · cases hc : c.archives.head? with
        | none => exact Triple.throw fun w hw => hready rfl w hw.1
        | some a =>
          refine Triple.pure fun w hw => ⟨hw.1, a, ?_, rfl⟩
          rw [hw.2]
          exact List.mem_of_mem_head? hc
      have hkey : ArchiveKeyOf id s!"{o.id}/{o.generation}/gen{primary.replicaId}" := by
        rw [hid.1]
        exact archiveKeyOf id o.generation primary.replicaId
      have hbase (h : (Tending.stocked (.start o) rs).base = .unknown) : False := by cases h
      have hfirm : (party env m true t (.archive id actor)).Firm (fun w =>
          Tending env m t id (Tending.stocked (.start o) rs) w ∧ Configured backend.id w) :=
        (Tending.stable.and stable_configured).firm
      refine Triple.bind (Triple.post (Triple.frame stable_configured (fun _ _ hg => ?_)
        (Tending.onBlob (a := backend.id) (fun h => (hbase h).elim) (by simp [Cmd.onBlob]) hkey))
        (fun _ _ h => h) fun _ _ h => hready rfl _ h.1) fun size => ?_
      · rw [Configured, Configured, hg.config]
        exact fun h => h
      refine Triple.bind (Triple.ask rfl hfirm) fun aid => ?_
      refine Triple.bind (Triple.nowMs hfirm) fun created => ?_
      refine Triple.pre (Triple.post (Tending.recordArchive (f := Tending.stocked (.start o) rs)
        rfl hid.1 ?_ ?_ ?_ ?_ hl) (fun _ _ h => h.leaving _ fun _ => rfl) fun _ _ h => h.ready)
        fun _ hw => hw
      · exact hid.1
      · exact hkey
      · rfl
      · exact aid.text_ne

/-! ## restore -/

theorem restoredBytes_ok {o : ReclaimObject} {record : ArchiveRecord} {d data : Bytes}
    {h : ContentHash} (hh : o.contentHash = some h)
    (hok : Coordinator.restoredBytes env o record d = .ok data) : env.sha256 data = h := by
  simp only [Coordinator.restoredBytes, hh, bind, Except.bind] at hok
  split at hok
  · split at hok
    · cases hok
    · split at hok
      · cases hok
      · split at hok
        · cases hok
        · split at hok
          · cases hok
          · next hv => cases hok; exact verifySha256_ok hv
  · split at hok
    · cases hok
    · next hv => cases hok; exact verifySha256_ok hv

theorem legal_archived_warm : Legal .archived .warm := ⟨.allowed, by decide⟩

theorem legal_warm_archived : Legal .warm .archived := ⟨.allowed, by decide⟩

namespace Tending

section
variable {o : ReclaimObject}

/-- the restored row of an archived object -/
theorem writeRestored {n c : Nat} (hb : f.base = .row o) (hid : o.id = X)
    (hs : o.lifecycleState = .archived) :
    (party env m true t op).Triple true (Tending env m t X f)
      (Coordinator.store (.updateObject (Coordinator.restoredObject o n c)))
      (fun _ => Tending env m t X { f with
        base := .row (Coordinator.restoredObject o n c) })
      (fun _ => Tending env m t X f) := by
  refine writeRow hb ?_ ?_ ?_ ?_ ?_ (StoreOp.writesRow_updateObject _)
  · exact hid
  · rfl
  · rfl
  · exact .inr (.inr rfl)
  · rw [hs]
    exact legal_archived_warm

/-- the row is archived again -/
theorem writeBack {n c : Nat}
    (hb : f.base = .row (Coordinator.restoredObject o n c))
    (hid : o.id = X) (hs : o.lifecycleState = .archived) :
    (party env m true t op).Triple true (Tending env m t X f)
      (Coordinator.store (.updateObject o))
      (fun _ => Tending env m t X { f with base := .row o }) (fun _ => Tending env m t X f) := by
  refine writeRow hb hid ?_ ?_ (.inr (.inl hs)) ?_ (StoreOp.writesRow_updateObject _)
  · rfl
  · rfl
  · rw [hs]
    exact legal_warm_archived

theorem restoreExisting {actor : String} {existing : Replica} {h : ContentHash}
    (hb : f.base = .row o) (hid : o.id = X) (hs : o.lifecycleState = .archived) :
    (party env m true t op).Triple false (Tending env m t X f)
      (Coordinator.restoreExisting env o actor existing h) (fun _ => Busy env m t X f.keys)
      (fun _ => Busy env m t X f.keys) := by
  have hbusy {g : Tend} (hg : g.keys = f.keys) (w : Traced) (hw : Tending env m t X g w) :
      Busy env m t X f.keys w := ⟨g, hg, hw⟩
  refine Triple.bind ((readPayload _ _).post (fun _ _ h => h) fun _ => hbusy rfl) fun d =>
    Triple.of_pure fun _ => ?_
  refine Triple.bind (Triple.settle (fun _ _ _ h => h) fun _ _ => hbusy rfl) fun _ => ?_
  refine Triple.bind ((Triple.innerCalm firm rfl).post (fun _ _ h => h) fun _ => hbusy rfl)
    fun n => ?_
  refine Triple.bind (Triple.settle (fun _ _ _ h => h) fun _ _ => hbusy rfl) fun c => ?_
  refine Triple.bind (R := fun _ => Busy env m t X f.keys) ?_ fun _ => Triple.pure fun _ h => h
  refine inSectionTo (fun _ => stable_busy) stable_busy (hbusy rfl) ?_
  refine Triple.bind ((writeRestored (f := { f with clear := true }) hb hid hs).post
    (fun _ => hbusy rfl) fun _ => hbusy rfl) fun _ => ?_
  exact Triple.bind (Triple.nowMs stable_busy.firm) fun _ => Triple.storeCalm rfl stable_busy.firm

/-- what restore knows while it holds its payload -/
def restoring (o : ReclaimObject) (ks : List (String × ContentHash)) (key : String)
    (h : ContentHash) (rows : List Replica) : Tend :=
  ⟨ks, true, .row o, rows, [], [(key, h)]⟩

/-- how far the metadata section of restore got -/
def Restored (env : Env) (m : Regime) (t : Tid) (X : Uuid) (o : ReclaimObject)
    (ks : List (String × ContentHash)) (replica : Replica) (p : Coordinator.RestoreProgress)
    (w : Traced) : Prop :=
  if p.objectUpdated then
    p.replicaRecorded = true ∧ ∃ n c, Tending env m t X (restoring
      (Coordinator.restoredObject o n c) ks replica.location.key
      replica.contentHash [replica]) w
  else Tending env m t X (restoring o ks replica.location.key replica.contentHash
    (if p.replicaRecorded then [replica] else [])) w

variable {ks : List (String × ContentHash)} {replica : Replica}

theorem stable_restored {p : Coordinator.RestoreProgress} :
    Stable env m t (Restored env m t X o ks replica p) := by
  unfold Restored
  split
  · exact Stable.and (Stable.const _) (Stable.exists fun _ => Stable.exists fun _ => stable)
  · exact stable

theorem Restored.busy {p : Coordinator.RestoreProgress}
    (h : Restored env m t X o ks replica p w) : Busy env m t X ks w := by
  unfold Restored at h
  split at h
  · obtain ⟨_, n, c, h⟩ := h
    exact ⟨_, rfl, h⟩
  · exact ⟨_, rfl, h⟩

theorem restoreMetadata {actor : String} {existing : Option DedupEntry}
    (hid : o.id = X) (hs : o.lifecycleState = .archived) (hX : replica.objectId = X)
    (hk : replica.slot ∈ ks) :
    (party env m true t op).Triple true
      (Tending env m t X (restoring o ks replica.location.key replica.contentHash []))
      (Coordinator.restoreMetadata o actor replica existing)
      (fun y => outcome (fun _ => Busy env m t X ks)
        (fun _ => Restored env m t X o ks replica y.1) y.2) (fun _ _ => False) := by
  have hrecord : (party env m true t op).Triple true
      (Tending env m t X (restoring o ks replica.location.key replica.contentHash []))
      (if existing.isSome then
        Coordinator.store (.dedupAcquire replica.contentHash replica.location.backend)
      else Coordinator.store (.insertDedup ⟨replica.contentHash, replica.location.backend,
        replica.location.key, 1, replica.size⟩))
      (fun _ => Tending env m t X
        (restoring o ks replica.location.key replica.contentHash []))
      (fun _ => Tending env m t X
        (restoring o ks replica.location.key replica.contentHash [])) :=
    Triple.ite (fun _ => dedupAcquire hk) fun _ => insertDedup hk fun _ => List.mem_cons_self
  refine Triple.attemptBind hrecord (fun _ => ?_) fun e => Triple.pure fun _ h => h
  refine Triple.attemptBind (addReplica nofun hX hk fun _ => List.mem_cons_self)
    (fun _ => Triple.of_pure fun _ => ?_) fun e => Triple.pure fun _ h => h
  -- the object row, and then the audit row
  have hrow : (party env m true t op).Triple true
      (Tending env m t X (restoring o ks replica.location.key replica.contentHash [replica]))
      (Coordinator.restoreMetadata.restoredRow o replica)
      (fun _ w => ∃ n c, Tending env m t X (restoring
        (Coordinator.restoredObject o n c) ks replica.location.key
        replica.contentHash [replica]) w)
      (fun _ => Tending env m t X
        (restoring o ks replica.location.key replica.contentHash [replica])) := by
    refine Triple.bind (Triple.storeCalm rfl firm) fun n => ?_
    refine Triple.bind (Triple.settle (fun _ _ _ h => h) (fun _ _ _ h => h)) fun c => ?_
    refine Triple.bind (writeRestored (f := restoring o ks replica.location.key
      replica.contentHash [replica]) rfl hid hs) fun _ => ?_
    exact Triple.pure fun _ h => ⟨_, _, h⟩
  refine Triple.attemptBind hrow (fun _ => ?_) fun e => Triple.pure fun _ h => h
  refine Triple.of_exists fun n => Triple.of_exists fun c => ?_
  refine Triple.attemptBind (R := fun _ => Tending env m t X (restoring
      (Coordinator.restoredObject o n c) ks replica.location.key
      replica.contentHash [replica])) ?_ (fun _ => Triple.pure fun _ h => ⟨_, rfl, h⟩)
    fun e => Triple.pure fun _ h => ⟨rfl, n, c, h⟩
  exact Triple.bind (Triple.nowMs firm) fun _ => Triple.storeCalm rfl firm

theorem undoRestore {p : Coordinator.RestoreProgress} {wrote : Bool}
    (hid : o.id = X) (hs : o.lifecycleState = .archived) (hX : replica.objectId = X)
    (hk : replica.slot ∈ ks) :
    (party env m true t op).Triple true (Restored env m t X o ks replica p)
      (Coordinator.undoRestore p o replica wrote)
      (fun _ => Tending env m t X
        (restoring o ks replica.location.key replica.contentHash []))
      (fun _ => Busy env m t X ks) := by
  have hrelease : (party env m true t op).Triple true
      (Tending env m t X (restoring o ks replica.location.key replica.contentHash []))
      (if p.dedupRecorded then
        Coordinator.store (.dedupRelease replica.contentHash replica.location.backend)
      else pure wrote)
      (fun _ => Tending env m t X
        (restoring o ks replica.location.key replica.contentHash []))
      (fun _ => Busy env m t X ks) :=
    Triple.ite (fun _ => (dedupRelease hk).post (fun _ _ h => h) fun _ _ h => ⟨_, rfl, h⟩)
      fun _ => Triple.pure fun _ h => h
  unfold Coordinator.undoRestore
  refine Triple.guarded (S := Tending env m t X (restoring o ks replica.location.key
    replica.contentHash (if p.replicaRecorded then [replica] else []))) (fun hu => ?_)
    (fun hu w hw => ?_) ?_
  · refine Triple.pre (Triple.of_pure fun hr => Triple.of_exists fun n => Triple.of_exists
      fun c => ?_) (fun w hw => by rw [Restored, if_pos hu] at hw; exact hw)
    rw [if_pos hr]
    exact (writeBack (f := restoring (Coordinator.restoredObject o n c) ks replica.location.key
      replica.contentHash [replica]) rfl hid hs).post (fun _ _ h => h) fun _ _ h => ⟨_, rfl, h⟩
  · rw [Restored, if_neg hu] at hw
    exact hw
  · refine Triple.guarded (fun hr => ?_) (fun hr w hw => ?_) hrelease
    · rw [if_pos hr]
      refine Triple.post (deleteReplica (r := replica) List.mem_cons_self hX hk) (fun _ w hw => ?_)
        fun _ _ h => ⟨_, rfl, h⟩
      exact hw.weaken rfl id rfl nofun (fun _ h => h) (fun _ h => h)
    · rw [if_neg hr] at hw
      exact hw

theorem restoreTarget {be : String} {h : ContentHash} {record : ArchiveRecord} {data : Bytes}
    {existing : Option DedupEntry} (hk : (be, h) ∈ ks) :
    (party env m true t op).Triple false
      (Tending env m t X (found (restoring o ks
        (Coordinator.flattenKey record.key ++ "-restored") h []) h existing))
      (Coordinator.restoreTarget env be h record data existing)
      (fun y => Tending env m t X (restoring o ks y.1 h [])) (fun _ => Busy env m t X ks) := by
  cases existing with
  | none =>
    refine Triple.bind ((Triple.writePayloadTo firm (fills (f := restoring o ks _ h []) hk
      List.mem_cons_self rfl nofun)).post (fun _ _ h => h) fun _ _ h => ⟨_, rfl, h⟩) fun _ => ?_
    exact Triple.pure fun _ h => h
  | some e =>
    unfold Coordinator.restoreTarget
    refine Triple.refuse (fun _ _ h => ⟨_, rfl, h⟩) fun _ => ?_
    refine Triple.bind ((readPayload be e.key).post (fun _ _ h => h) fun _ _ h => ⟨_, rfl, h⟩)
      fun d => Triple.of_pure fun _ => ?_
    refine Triple.bind (Triple.settle (fun _ _ _ h => h) fun _ _ _ h => ⟨_, rfl, h⟩) fun _ => ?_
    refine Triple.pure fun w hw => hw.weaken rfl id rfl (fun _ h => h) (fun _ h => h) ?_
    intro n hn
    rw [List.mem_singleton.mp hn]
    exact List.mem_cons_self

theorem restoreGuarded {actor be : String} {record : ArchiveRecord} {data : Bytes}
    (hid : o.id = X) (hs : o.lifecycleState = .archived) (hk : (be, env.sha256 data) ∈ ks) :
    (party env m true t op).Triple false
      (Tending env m t X { restoring o ks (Coordinator.flattenKey record.key ++ "-restored")
        (env.sha256 data) [] with clear := false })
      (Coordinator.restoreGuarded env o actor be record data)
      (fun _ => Busy env m t X ks) (fun _ => Busy env m t X ks) := by
  refine Triple.bind ((inSectionStore (fun _ => Stable.and (Stable.const _) stable)
    getDedup).post (fun _ _ h => h) fun _ _ h => ⟨_, rfl, h⟩) fun existing =>
    Triple.of_pure fun _ => ?_
  refine Triple.bind (restoreTarget hk) fun y => ?_
  obtain ⟨key, wrote⟩ := y
  refine Triple.bind (Triple.ask rfl firm) fun rid => ?_
  refine Triple.bind (Triple.nowMs firm) fun created => ?_
  refine Triple.bind (Triple.nowMs firm) fun verified => ?_
  refine Triple.bind ((Triple.nodeForBackend firm _).post (fun _ _ h => h)
    fun _ _ h => ⟨_, rfl, h⟩) fun owner => ?_
  generalize hr : (⟨rid, o.id, o.generation, ⟨be, key, .hot⟩, data.length, env.sha256 data,
    created, some verified, true, owner⟩ : Replica) = replica
  have hX : replica.objectId = X := by rw [← hr]; exact hid
  have hslot : replica.slot ∈ ks := by rw [← hr]; exact hk
  have hkey : replica.location.key = key := by rw [← hr]
  have hback : replica.location.backend = be := by rw [← hr]
  have hhash : replica.contentHash = env.sha256 data := by rw [← hr]
  rw [← hkey, ← hhash, ← hback]
  refine Triple.bind (R := fun (y : Coordinator.RestoreProgress × Res ReclaimObject) =>
    outcome (fun _ => Busy env m t X ks) (fun _ => Restored env m t X o ks replica y.1) y.2) ?_
    fun y => ?_
  · refine Triple.attemptBind (inSection (f := restoring o ks replica.location.key
      replica.contentHash []) (fun y => ?_) ((restoreMetadata hid hs hX hslot).post
      (fun _ _ h => h) nofun)) (fun y => Triple.pure fun _ h => h) fun e =>
      Triple.pure fun _ h => h
    obtain ⟨p, r⟩ := y
    cases r with
    | ok _ => exact stable_busy
    | error _ => exact stable_restored
  · obtain ⟨p, r⟩ := y
    cases r with
    | ok restored => exact Triple.pure fun _ h => h
    | error e =>
      refine Triple.bind (R := fun _ => Tending env m t X
        (restoring o ks replica.location.key replica.contentHash [])) ?_ fun last => ?_
      · refine Triple.withInner (R := fun _ => True) stable_restored.firm (.const True)
          (fun _ => firm) (fun _ => stable_busy.firm) (fun _ _ _ _ => trivial)
          (fun _ _ h _ => h.busy) ?_
        exact (undoRestore hid hs hX hslot).pre fun _ h => h.1
      · refine Triple.ite (fun _ => ?_) fun _ => Triple.throw fun _ h => ⟨_, rfl, h⟩
        refine Triple.bind (R := fun _ => Busy env m t X ks) (Triple.mapErr
          ((deletePayload hslot List.mem_cons_self).post (fun _ _ h => ⟨_, rfl, h⟩)
            fun _ _ h => ⟨_, rfl, h⟩)) fun _ => Triple.throw fun _ h => h

end

end Tending

theorem safe_restore {id : Uuid} {actor : String} (hidle : Idle t w) :
    (discipline env m).Safe true t (.restore id actor) (Op.prog env (.restore id actor)) w := by
  refine safe_withObject (X := id) rfl rfl (fun _ => rfl) ?_ hidle
  refine Triple.bind requireObject fun o => Triple.of_pure fun hid => ?_
  refine Triple.refuse (fun _ w hw => hw.ready) fun hs => ?_
  have hs : o.lifecycleState = .archived := not_not.mp hs
  have hstart (w : Traced) (hw : Found m t id o w) : Tending env m t id (.start o) w :=
    hw.tending (by rw [hs]; simp [Tiered])
  have hready {F : Tend} (hF : F.keys = []) (w : Traced) (hw : Tending env m t id F w) :
      Ready m t id w := hw.ready hF
  obtain ⟨h, hh⟩ : ∃ h, o.contentHash = some h := by
    have := hid.2.hashed (by rw [hs]; simp)
    exact Option.isSome_iff_exists.mp this
  refine Triple.pre ?_ hstart
  refine Triple.bind (Tending.innerArchives.post (fun _ _ h => h) fun _ => hready rfl) fun as =>
    Triple.of_pure fun has => ?_
  cases hlast : as.getLast? with
  | none => exact Triple.throw (hready rfl)
  | some record =>
    obtain ⟨_, gen, rid, hkey⟩ := has record (List.mem_of_getLast? hlast)
    refine Triple.bind (R := fun _ => Tending env m t id { Tend.start o with archs := as })
      (Triple.lockedConfig Tending.firm fun c => ?_) fun backend => ?_
    · cases c.archive record.backend with
      | none => exact Triple.throw fun w hw => hready rfl w hw.1
      | some a => exact Triple.pure fun w hw => hw.1
    refine Triple.bind (Triple.post (Triple.calm rfl Tending.firm) (fun _ _ h => h)
      fun _ => hready rfl) fun d => ?_
    refine Triple.bind (Triple.settle (fun _ _ _ h => h) fun _ _ => hready rfl) fun _ => ?_
    refine Triple.bind (R := fun data w => env.sha256 data = h ∧
      Tending env m t id { Tend.start o with archs := as } w)
      (Triple.settle (fun data hok w hw => ⟨restoredBytes_ok hh hok, hw⟩) fun _ _ => hready rfl)
      fun data => Triple.of_pure fun hdata => ?_
    refine Triple.bind (Tending.innerReplicas.post (fun _ _ h => h) fun _ => hready rfl) fun rs =>
      Triple.of_pure fun hrs => ?_
    cases rs.find? (fun r => r.valid && decide (r.location.kind ≠ .archived) &&
        decide (r.contentHash = env.sha256 data)) with
    | some existing =>
      exact Triple.post (Tending.restoreExisting rfl hid.1 hs)
        (fun _ _ h => h.leaving _ fun _ => rfl) fun _ _ h => h.ready
    | none =>
      refine Triple.bind (R := fun _ => Tending env m t id
          (Tending.stocked { Tend.start o with archs := as } rs))
        (Triple.lockedConfig Tending.firm fun c => ?_) fun be => ?_
      · cases Coordinator.hotBackendOf c with
        | none => exact Triple.throw fun w hw => hready rfl w hw.1
        | some be => exact Triple.pure fun w hw => hw.1
      have hname (w : Traced) (hw : Tending env m t id
          (Tending.stocked { Tend.start o with archs := as } rs) w) : Tending env m t id
          { Tending.restoring o [] (Coordinator.flattenKey record.key ++ "-restored")
            (env.sha256 data) [] with clear := false } w := by
        have hn : m.honest = true → Named env m.bytes w
            (Coordinator.flattenKey record.key ++ "-restored") (env.sha256 data) := by
          intro _
          rw [hkey, hdata]
          exact .restored hw.row.1 hh
        refine (hw.named hn).weaken rfl (fun h => by cases h) rfl
          (fun _ h => absurd h List.not_mem_nil) (fun _ h => absurd h List.not_mem_nil) ?_
        intro n hn
        rw [List.mem_singleton.mp hn]
        exact List.mem_cons_self
      refine Triple.pre ?_ hname
      refine Triple.post (Tending.withPayloadsBusy rfl (fun _ h => absurd h List.not_mem_nil) ?_)
        (fun _ _ h => h.leaving _ fun _ => rfl) fun _ _ h => h.ready
      have hk : (be, env.sha256 data) ∈ Coordinator.sortKeys [(be, env.sha256 data)] :=
        mem_sortKeys.mpr List.mem_cons_self
      exact Tending.restoreGuarded hid.1 hs hk

/-! ## verify -/

namespace Tending

/-- the rows that share a payload the thread holds become invalid -/
theorem invalidateAll {rs : List Replica} (hr : ∀ r ∈ rs, r ∈ f.rows ∧ r.slot ∈ f.keys) :
    (party env m true t op).Triple true (Tending env m t X f) (Coordinator.invalidateAll rs)
      (fun _ => Tending env m t X f) (fun _ => Tending env m t X f) := by
  induction rs with
  | nil => exact Triple.pure fun _ h => h
  | cons r rs ih =>
    obtain ⟨hrow, hk⟩ := hr r List.mem_cons_self
    refine Triple.bind (updateReplica hrow hk (.inr rfl)) fun _ => ?_
    exact ih fun x hx => hr x (List.mem_cons_of_mem _ hx)

theorem invalidateShared {o : ReclaimObject} {r : Replica} {e : ReclaimError}
    (hk : r.slot ∈ f.keys) :
    (party env m true t op).Triple false (Tending env m t X f)
      (Coordinator.invalidateShared o r e) (fun _ => Tending env m t X f)
      (fun _ => Tending env m t X f) := by
  refine Triple.section_ firm (fun _ => firm) ?_
  generalize hfilter : (fun x : Replica => x.valid &&
    decide (x.location.backend = r.location.backend) &&
    decide (x.location.key = r.location.key) && decide (x.contentHash = r.contentHash)) = shares
  have hslot (x : Replica) (hx : shares x = true) : x.slot = r.slot := by
    rw [← hfilter] at hx
    simp only [Bool.and_eq_true, decide_eq_true_iff] at hx
    rw [Replica.slot, Replica.slot, hx.1.1.2, hx.2]
  refine Triple.bind (R := fun all => Tending env m t X
      { f with rows := all.filter shares ++ f.rows }) ?_ fun all => ?_
  · refine Triple.answer firm (fun _ => firm) rfl ?_ (fun _ _ h => h)
    intro w all s hw _ hr
    refine ⟨hw.held, hw.settled, hw.fine, hw.row, hw.ghosts, ?_, hw.archs, hw.names⟩
    intro x hx
    rcases List.mem_append.mp hx with hx | hx
    · rw [List.mem_filter] at hx
      refine ⟨.inr ?_, x, (Store.allReplicas_ok hr).mp hx.1, rfl⟩
      rw [hslot x hx.2]
      exact hk
    · exact hw.rows x hx
  · have hback (w : Traced) (hw : Tending env m t X
        { f with rows := all.filter shares ++ f.rows } w) : Tending env m t X f w :=
      hw.weaken rfl id rfl (fun _ h => List.mem_append_right _ h) (fun _ h => h) (fun _ h => h)
    refine Triple.bind (Triple.post (invalidateAll ?_) (fun _ => hback) fun _ => hback) fun _ => ?_
    · intro x hx
      refine ⟨List.mem_append_left _ hx, ?_⟩
      rw [hslot x (List.mem_filter.mp hx).2]
      exact hk
    · exact Triple.bind (Triple.nowMs firm) fun _ => Triple.storeCalm rfl firm

theorem verifyReplicas {o : ReclaimObject} {rs : List Replica} {results : List Json}
    (hr : ∀ r ∈ rs, r ∈ f.rows ∧ r.objectId = X ∧ r.slot ∈ f.keys) :
    (party env m true t op).Triple false (Tending env m t X f)
      (Coordinator.verifyReplicas env o rs results) (fun _ => Tending env m t X f)
      (fun _ => Tending env m t X f) := by
  induction rs generalizing results with
  | nil => exact Triple.pure fun _ h => h
  | cons r rs ih =>
    obtain ⟨hrow, hX, hk⟩ := hr r List.mem_cons_self
    have hrest : ∀ x ∈ rs, x ∈ f.rows ∧ x.objectId = X ∧ x.slot ∈ f.keys :=
      fun x hx => hr x (List.mem_cons_of_mem _ hx)
    have hcheck : (party env m true t op).Triple false (Tending env m t X f)
        (Coordinator.checkReplica env r) (fun _ => Tending env m t X f)
        (fun _ => Tending env m t X f) :=
      Triple.bind (readPayload _ _) fun d => Triple.of_pure fun _ =>
        Triple.settle (fun _ _ _ h => h) (fun _ _ _ h => h)
    refine Triple.attemptBind hcheck (fun _ => ?_) fun e => ?_
    · refine Triple.bind (Triple.nowMs firm) fun now => ?_
      refine Triple.bind (Triple.section_ firm (fun _ => firm)
        (updateReplica hrow hk (.inl hX))) fun _ => ih hrest
    · exact Triple.bind (invalidateShared hk) fun _ => ih hrest

end Tending

/-- what is known of any object that was found -/
theorem Found.unknown {o : ReclaimObject} (h : Found m t X o w) :
    Tending env m t X ⟨[], false, .unknown, [], [], []⟩ w where
  held := h.ready.held
  settled := h.ready.settled
  fine := h.fine
  row := trivial
  ghosts := fun hc => by cases hc
  rows := nofun
  archs := nofun
  names := nofun

theorem safe_verify {id : Uuid} {actor : String} (hidle : Idle t w) :
    (discipline env m).Safe true t (.verify id actor) (Op.prog env (.verify id actor)) w := by
  refine safe_withObject (X := id) rfl rfl (fun _ => rfl) ?_ hidle
  refine Triple.bind requireObject fun o => Triple.of_pure fun hid => ?_
  have hstart (w : Traced) (hw : Found m t id o w) :
      Tending env m t id ⟨[], false, .unknown, [], [], []⟩ w := hw.unknown
  refine Triple.pre ?_ hstart
  refine Triple.bind (Tending.innerReplicas.post (fun _ _ h => h) fun _ _ h => h.ready rfl)
    fun rs => Triple.of_pure fun hrs => ?_
  refine Triple.post (Tending.withPayloadsBusy rfl hrs ?_)
    (fun _ _ h => h.leaving _ fun _ => rfl) fun _ _ h => h.ready
  let f : Tend := { Tending.stocked ⟨[], false, .unknown, [], [], []⟩ rs with
    keys := Coordinator.sortKeys (Coordinator.replicaKeys rs) }
  have hbusy (w : Traced) (hw : Tending env m t id f w) :
      Busy env m t id (Coordinator.sortKeys (Coordinator.replicaKeys rs)) w := hw.busy
  have hrows : ∀ r ∈ rs, r ∈ f.rows ∧ r.objectId = id ∧ r.slot ∈ f.keys :=
    fun r hr => ⟨hr, hrs r hr, mem_sortKeys.mpr (List.mem_map.mpr ⟨r, hr, rfl⟩)⟩
  refine Triple.bind (Triple.post (Tending.verifyReplicas hrows) (fun _ _ h => h)
    fun _ => hbusy) fun results => ?_
  have haudit {x : AuditEntry} : (party env m true t (.verify id actor)).Triple true
      (Tending env m t id f) (Coordinator.store (.appendAudit x)) (fun _ => Tending env m t id f)
      (fun _ => Tending env m t id f) := Triple.storeCalm rfl Tending.firm
  refine Triple.bind (Triple.post (Triple.section_ Tending.firm (fun _ => Tending.firm)
    (Triple.bind (Triple.nowMs Tending.firm) fun _ => haudit)) (fun _ _ h => h)
    fun _ => hbusy) fun _ => ?_
  exact Triple.pure hbusy

end ReclaimFabric
