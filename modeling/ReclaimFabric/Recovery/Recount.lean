import ReclaimFabric.Logic.Recovery

/-!
# The dedup table as a count of the replica rows

`repair_dedup_counts` makes the dedup table what a count of all replica rows gives.

* `Recount rs xs`        `xs` are the entries counted from the rows `rs`;
* `Store.Recounted`      the dedup table is the count of the replica table;
* `liveEntries_recount`  what the counting loop computes;
* `Triple.recounted`     what the repair leaves, for any party that has the two tables to itself.
-/

set_option linter.unusedSectionVars false

namespace ReclaimFabric

open Prog (attempt settle)

/-! ## counting -/

/-- the key of a dedup row -/
def DedupEntry.ref (x : DedupEntry) : ContentHash × String := (x.contentHash, x.backend)

/-- the dedup entries counted from replica rows -/
structure Recount (rs : List Replica) (xs : List DedupEntry) : Prop where
  nodup : (xs.map DedupEntry.ref).Nodup
  covers : ∀ r ∈ rs, ∃ x ∈ xs, x.ref = r.ref
  count : ∀ x ∈ xs, 0 < x.refCount ∧ x.refCount = rs.countP (fun r => decide (r.ref = x.ref))
  same : ∀ x ∈ xs, ∀ r ∈ rs, r.ref = x.ref → r.location.key = x.key ∧ r.size = x.payloadSize

/-- the dedup table is exactly the recount of all replica rows -/
def Store.Recounted (s : Store) : Prop := Recount s.replicas.rows s.dedup.rows

namespace Recount

variable {rs rs' : List Replica} {xs xs' : List DedupEntry}

theorem nil : Recount [] [] := ⟨List.nodup_nil, nofun, nofun, nofun⟩

theorem perm (h : Recount rs xs) (hp : rs.Perm rs') : Recount rs' xs where
  nodup := h.nodup
  covers := fun r hr => h.covers r (hp.mem_iff.mpr hr)
  count := fun x hx => by
    rw [← hp.countP_eq]
    exact h.count x hx
  same := fun x hx r hr => h.same x hx r (hp.mem_iff.mpr hr)

/-- an entry stands for at least one row -/
theorem row (h : Recount rs xs) {x : DedupEntry} (hx : x ∈ xs) : ∃ r ∈ rs, r.ref = x.ref := by
  obtain ⟨hpos, hc⟩ := h.count x hx
  rw [hc, List.countP_pos_iff] at hpos
  obtain ⟨r, hr, hk⟩ := hpos
  exact ⟨r, hr, of_decide_eq_true hk⟩

/-- the rows determine the entries -/
theorem mem_iff (h : Recount rs xs) (h' : Recount rs xs') {x : DedupEntry} (hx : x ∈ xs) :
    x ∈ xs' := by
  obtain ⟨r, hr, hk⟩ := h.row hx
  obtain ⟨y, hy, hyk⟩ := h'.covers r hr
  have hxy : y.ref = x.ref := hyk.trans hk
  have hs := h.same x hx r hr hk
  have hs' := h'.same y hy r hr hyk.symm
  have hc : y.refCount = x.refCount := by
    rw [(h'.count y hy).2, (h.count x hx).2, hxy]
  obtain ⟨hh, hb⟩ := Prod.mk.inj hxy
  have : y = x := by
    cases x
    cases y
    simp_all
  exact this ▸ hy

end Recount

namespace Coordinator

/-- one more replica row -/
theorem addLive_refs {r : Replica} {live live' : List DedupEntry}
    (h : addLive r live = .ok live') :
    (∃ l₁ x l₂, live = l₁ ++ x :: l₂ ∧ live' = l₁ ++ { x with refCount := x.refCount + 1 } :: l₂ ∧
      x.ref = r.ref ∧ x.key = r.location.key ∧ x.payloadSize = r.size) ∨
    ((∀ x ∈ live, x.ref ≠ r.ref) ∧
      live' = live ++ [⟨r.contentHash, r.location.backend, r.location.key, 1, r.size⟩]) := by
  induction live generalizing live' with
  | nil =>
    cases h
    exact .inr ⟨nofun, rfl⟩
  | cons e es ih =>
    simp only [addLive] at h
    split at h
    · next hid =>
      split at h
      · cases h
      · next hsame =>
        rw [not_or, not_not, not_not] at hsame
        split at h
        · cases h
        · cases h
          refine .inl ⟨[], e, es, rfl, rfl, ?_, hsame.1, hsame.2⟩
          rw [DedupEntry.ref, Replica.ref, hid.1, hid.2]
    · next hid =>
      cases hrec : addLive r es with
      | error err =>
        rw [hrec] at h
        cases h
      | ok es' =>
        rw [hrec] at h
        cases h
        rcases ih hrec with ⟨l₁, x, l₂, rfl, rfl, hx⟩ | ⟨hno, rfl⟩
        · exact .inl ⟨e :: l₁, x, l₂, rfl, rfl, hx⟩
        · refine .inr ⟨?_, rfl⟩
          intro x hx
          rcases List.mem_cons.mp hx with rfl | hx
          · intro hk
            exact hid ⟨(Prod.mk.inj hk).1, (Prod.mk.inj hk).2⟩
          · exact hno x hx

theorem countP_snoc {rs : List Replica} {r : Replica} {k : ContentHash × String} :
    (rs ++ [r]).countP (fun y => decide (y.ref = k)) =
      rs.countP (fun y => decide (y.ref = k)) + if r.ref = k then 1 else 0 := by
  rw [List.countP_append, List.countP_singleton]
  simp only [decide_eq_true_eq]

theorem addLive_recount {r : Replica} {rs : List Replica} {live live' : List DedupEntry}
    (hl : Recount rs live) (h : addLive r live = .ok live') : Recount (rs ++ [r]) live' := by
  rcases addLive_refs h with ⟨l₁, x, l₂, rfl, rfl, hx, hkey, hsize⟩ | ⟨hno, rfl⟩
  · -- the entry of the row is there
    have hmem : ∀ y, y ∈ l₁ ++ { x with refCount := x.refCount + 1 } :: l₂ →
        y = { x with refCount := x.refCount + 1 } ∨ (y ∈ l₁ ++ x :: l₂ ∧ y.ref ≠ r.ref) := by
      intro y hy
      have hnd := hl.nodup
      rw [List.map_append, List.map_cons, List.nodup_middle, List.nodup_cons,
        ← List.map_append] at hnd
      rw [List.mem_append, List.mem_cons] at hy
      have hother (hy : y ∈ l₁ ++ l₂) : y ∈ l₁ ++ x :: l₂ ∧ y.ref ≠ r.ref := by
        refine ⟨?_, fun hk => hnd.1 ?_⟩
        · rw [List.mem_append] at hy
          rw [List.mem_append, List.mem_cons]
          rcases hy with hy | hy
          · exact .inl hy
          · exact .inr (.inr hy)
        · rw [hx, ← hk]
          exact List.mem_map_of_mem hy
      rcases hy with hy | rfl | hy
      · exact .inr (hother (List.mem_append_left _ hy))
      · exact .inl rfl
      · exact .inr (hother (List.mem_append_right _ hy))
    have hxm : x ∈ l₁ ++ x :: l₂ := List.mem_append_right _ List.mem_cons_self
    refine ⟨?_, ?_, ?_, ?_⟩
    · have := hl.nodup
      rwa [List.map_append, List.map_cons] at this ⊢
    · intro y hy
      rcases List.mem_append.mp hy with hy | hy
      · obtain ⟨z, hz, hk⟩ := hl.covers y hy
        rw [List.mem_append, List.mem_cons] at hz
        rcases hz with hz | rfl | hz
        · exact ⟨z, List.mem_append_left _ hz, hk⟩
        · exact ⟨_, List.mem_append_right _ List.mem_cons_self, hk⟩
        · exact ⟨z, List.mem_append_right _ (List.mem_cons_of_mem _ hz), hk⟩
      · rw [List.mem_singleton.mp hy]
        exact ⟨_, List.mem_append_right _ List.mem_cons_self, hx⟩
    · intro y hy
      rw [countP_snoc]
      rcases hmem y hy with rfl | ⟨hy, hne⟩
      · show 0 < x.refCount + 1 ∧ x.refCount + 1 =
          rs.countP (fun y => decide (y.ref = x.ref)) + if r.ref = x.ref then 1 else 0
        rw [if_pos hx.symm, ← (hl.count x hxm).2]
        exact ⟨Nat.succ_pos _, rfl⟩
      · rw [if_neg hne.symm]
        exact hl.count y hy
    · intro y hy z hz hk
      rcases List.mem_append.mp hz with hz | hz
      · rcases hmem y hy with rfl | ⟨hy, _⟩
        · exact hl.same x hxm z hz hk
        · exact hl.same y hy z hz hk
      · rw [List.mem_singleton.mp hz] at hk ⊢
        rcases hmem y hy with rfl | ⟨_, hne⟩
        · exact ⟨hkey.symm, hsize.symm⟩
        · exact absurd hk.symm hne
  · -- the first row of its kind
    have hzero : rs.countP (fun y => decide (y.ref = r.ref)) = 0 := by
      rw [List.countP_eq_zero]
      intro y hy hk
      obtain ⟨x, hxm, hxk⟩ := hl.covers y hy
      exact hno x hxm (hxk.trans (of_decide_eq_true hk))
    refine ⟨?_, ?_, ?_, ?_⟩
    · rw [List.map_append, List.nodup_append]
      refine ⟨hl.nodup, List.nodup_singleton _, ?_⟩
      intro a ha b hb hab
      obtain ⟨x, hxm, rfl⟩ := List.mem_map.mp ha
      rw [List.map_singleton, List.mem_singleton] at hb
      exact hno x hxm (hab.trans hb)
    · intro y hy
      rcases List.mem_append.mp hy with hy | hy
      · obtain ⟨x, hxm, hxk⟩ := hl.covers y hy
        exact ⟨x, List.mem_append_left _ hxm, hxk⟩
      · rw [List.mem_singleton.mp hy]
        exact ⟨_, List.mem_append_right _ (List.mem_singleton.mpr rfl), rfl⟩
    · intro x hxm
      rw [countP_snoc]
      rcases List.mem_append.mp hxm with hxm | hxm
      · rw [if_neg (hno x hxm).symm]
        exact hl.count x hxm
      · rw [List.mem_singleton.mp hxm]
        refine ⟨Nat.one_pos, ?_⟩
        show 1 = rs.countP (fun y => decide (y.ref = r.ref)) + if r.ref = r.ref then 1 else 0
        rw [hzero, if_pos rfl]
    · intro x hxm y hy hk
      rcases List.mem_append.mp hxm with hxm | hxm
      · rcases List.mem_append.mp hy with hy | hy
        · exact hl.same x hxm y hy hk
        · rw [List.mem_singleton.mp hy] at hk
          exact absurd hk.symm (hno x hxm)
      · rw [List.mem_singleton.mp hxm] at hk ⊢
        rcases List.mem_append.mp hy with hy | hy
        · have := List.countP_eq_zero.mp hzero y hy
          exact absurd (decide_eq_true hk) this
        · rw [List.mem_singleton.mp hy]
          exact ⟨rfl, rfl⟩

/-- the counting loop counts -/
theorem liveEntries_recount {objects : List ReclaimObject} {done rs : List Replica}
    {live live' : List DedupEntry} (hl : Recount done live)
    (h : liveEntries objects rs live = .ok live') : Recount (done ++ rs) live' := by
  induction rs generalizing done live with
  | nil =>
    cases h
    rw [List.append_nil]
    exact hl
  | cons r rs ih =>
    simp only [liveEntries] at h
    split at h
    · cases h
    · split at h
      · cases h
      · cases hadd : addLive r live with
        | error err =>
          rw [hadd] at h
          cases h
        | ok live₁ =>
          rw [hadd] at h
          have := ih (addLive_recount hl hadd) h
          rwa [List.append_assoc, List.singleton_append] at this

end Coordinator

/-! ## repairing the stored rows -/

/-- the state of the repair: `es` are still to be looked at, `live` have no row yet -/
structure Correcting (all es live : List DedupEntry)
    (D : Table (fun e : DedupEntry => (e.contentHash, e.backend))) : Prop where
  nodup : (es.map DedupEntry.ref).Nodup
  pending : ∀ e ∈ es, e ∈ D
  sub : ∀ x ∈ live, x ∈ all
  left : ∀ x ∈ all, (∃ e ∈ es, e.ref = x.ref) → x ∈ live
  done : ∀ x, (∀ e ∈ es, e.ref ≠ x.ref) → (x ∈ D ↔ x ∈ all ∧ x ∉ live)

namespace Correcting

variable {all es live : List DedupEntry} {e : DedupEntry}
  {D D' : Table (fun e : DedupEntry => (e.contentHash, e.backend))}

theorem tail_ne (h : Correcting all (e :: es) live D) : ∀ y ∈ es, y.ref ≠ e.ref := by
  intro y hy hk
  have := h.nodup
  rw [List.map_cons, List.nodup_cons] at this
  exact this.1 (List.mem_map.mpr ⟨y, hy, hk⟩)

/-- the row of `e` is set to the entry of its key among `all`, which leaves `live` -/
theorem step (h : Correcting all (e :: es) live D) {live' : List DedupEntry}
    (hlive : ∀ x, x ∈ live' ↔ x ∈ live ∧ x.ref ≠ e.ref)
    (hkeep : ∀ x, x.ref ≠ e.ref → (x ∈ D' ↔ x ∈ D))
    (hset : ∀ x, x.ref = e.ref → (x ∈ D' ↔ x ∈ live)) : Correcting all es live' D' where
  nodup := (List.nodup_cons.mp h.nodup).2
  pending := fun y hy =>
    (hkeep y (h.tail_ne y hy)).mpr (h.pending y (List.mem_cons_of_mem _ hy))
  sub := fun x hx => h.sub x ((hlive x).mp hx).1
  left := by
    rintro x hx ⟨y, hy, hk⟩
    refine (hlive x).mpr ⟨h.left x hx ⟨y, List.mem_cons_of_mem _ hy, hk⟩, ?_⟩
    rw [← hk]
    exact h.tail_ne y hy
  done := by
    intro x hx
    rw [hlive]
    by_cases hk : x.ref = e.ref
    · rw [hset x hk]
      refine ⟨fun hm => ⟨h.sub x hm, fun hc => hc.2 hk⟩, fun hm => ?_⟩
      exact h.left x hm.1 ⟨e, List.mem_cons_self, hk.symm⟩
    · rw [hkeep x hk, h.done x ?_]
      · refine ⟨fun hm => ⟨hm.1, fun hc => hm.2 hc.1⟩, fun hm => ⟨hm.1, fun hc => hm.2 ⟨hc, hk⟩⟩⟩
      · intro y hy
        rcases List.mem_cons.mp hy with rfl | hy
        · exact fun hc => hk hc.symm
        · exact hx y hy

end Correcting

/-- the state of the insertions: `xs` have no row yet -/
structure Filling (all xs : List DedupEntry)
    (D : Table (fun e : DedupEntry => (e.contentHash, e.backend))) : Prop where
  sub : ∀ x ∈ xs, x ∈ all
  done : ∀ x, x ∉ xs → (x ∈ D ↔ x ∈ all)

/-- the party has the replica and the dedup table to itself as long as `C` holds -/
structure Exclusive {env : Env} (A : Party env) (C : Traced → Prop) : Prop where
  firm : ∀ φ : List Replica → Table (fun e : DedupEntry => (e.contentHash, e.backend)) → Prop,
    A.Firm (fun w => C w ∧ φ w.store.replicas.rows w.store.dedup)
  delete : ∀ h b w s r, C w → A.inv w → (StoreOp.deleteDedup h b).run w.store = .ok (r, s) →
    A.guar w (A.after (.store (.deleteDedup h b)) (.ok r) w (w.setStore s)) ∧
      C (A.after (.store (.deleteDedup h b)) (.ok r) w (w.setStore s))
  upsert : ∀ x w s r, C w → A.inv w → Coordinator.Live w.store.replicas.rows x →
    (StoreOp.upsertDedup x).run w.store = .ok (r, s) →
    A.guar w (A.after (.store (.upsertDedup x)) (.ok r) w (w.setStore s)) ∧
      C (A.after (.store (.upsertDedup x)) (.ok r) w (w.setStore s))
  insert : ∀ x w s r, C w → A.inv w → Coordinator.Live w.store.replicas.rows x →
    (StoreOp.insertDedup x).run w.store = .ok (r, s) →
    A.guar w (A.after (.store (.insertDedup x)) (.ok r) w (w.setStore s)) ∧
      C (A.after (.store (.insertDedup x)) (.ok r) w (w.setStore s))

/-- the rows after the row of one key has been set -/
theorem Store.DedupSet.mem_iff {s s' : Store} {k : ContentHash × String} {v : Option DedupEntry}
    (h : Store.DedupSet s s' k v) (x : DedupEntry) :
    (x.ref = k → (x ∈ s'.dedup ↔ v = some x)) ∧ (x.ref ≠ k → (x ∈ s'.dedup ↔ x ∈ s.dedup)) := by
  obtain ⟨T, hd, hT⟩ := h
  have hD : s'.dedup = T := congrArg Data.dedup hd
  have hfind : x ∈ s'.dedup ↔ T.find? x.ref = some x := by
    rw [hD, Table.find?_eq_some]
    exact ⟨fun h => ⟨h, rfl⟩, And.left⟩
  refine ⟨fun hk => ?_, fun hk => ?_⟩
  · rw [hfind, hT, if_pos hk]
  · rw [hfind, hT, if_neg hk, Table.find?_eq_some]
    exact ⟨And.left, fun h => ⟨h, rfl⟩⟩

theorem Store.DedupSet.replicas {s s' : Store} {k : ContentHash × String} {v : Option DedupEntry}
    (h : Store.DedupSet s s' k v) : s'.replicas = s.replicas := by
  obtain ⟨T, hd, _⟩ := h
  exact congrArg Data.replicas hd

namespace Party

namespace Triple

variable {env : Env} {A : Party env} {l : Bool} {C : Traced → Prop} (hx : Exclusive A C)
  {rows : List Replica} {all : List DedupEntry}
include hx

/-- the rows of the dedup table are corrected one after the other -/
theorem mend {es live : List DedupEntry} {repairs : List String}
    (hall : (all.map DedupEntry.ref).Nodup) (hlv : ∀ x ∈ all, Coordinator.Live rows x) :
    A.Triple l (fun w => C w ∧ (w.store.replicas.rows = rows ∧ Correcting all es live w.store.dedup))
      (Coordinator.repairStored es live repairs)
      (fun out w => C w ∧ (w.store.replicas.rows = rows ∧ Correcting all [] out.1 w.store.dedup))
      (fun _ => C) := by
  induction es generalizing live repairs with
  | nil => exact Triple.pure fun _ h => h
  | cons e es ih =>
    have hfirm := hx.firm fun rs D => rs = rows ∧ Correcting all (e :: es) live D
    unfold Coordinator.repairStored
    simp only
    split
    · -- nothing refers to the row
      next hnone =>
      have hno : ∀ x ∈ live, x.ref ≠ e.ref := by
        intro x hxl hk
        have := List.find?_eq_none.mp hnone x hxl
        simp only [Bool.and_eq_true, decide_eq_true_eq, not_and] at this
        exact this (Prod.mk.inj hk).1 (Prod.mk.inj hk).2
      refine bind (R := fun _ w => C w ∧ (w.store.replicas.rows = rows ∧
        Correcting all es live w.store.dedup)) (store hfirm ?_ fun _ _ _ _ _ h => h.1) fun _ => ih
      intro w r s hw hi _ hrun
      obtain ⟨hg, hC⟩ := hx.delete _ _ w s r hw.1 hi hrun
      have hset : Store.DedupSet w.store s _ _ := Store.deleteDedup_ok hrun
      refine ⟨hg, hC, ?_, ?_⟩
      · show s.replicas.rows = rows
        rw [hset.replicas]
        exact hw.2.1
      · refine hw.2.2.step (fun x => ⟨fun h => ⟨h, hno x h⟩, And.left⟩)
          (fun x hk => (hset.mem_iff x).2 hk) fun x hk => ?_
        refine ((hset.mem_iff x).1 hk).trans ⟨nofun, fun h => absurd hk (hno x h)⟩
    · next x hx' =>
      have hxl := List.mem_of_find?_eq_some hx'
      have hid : x.contentHash = e.contentHash ∧ x.backend = e.backend := by
        simpa using List.find?_some hx'
      have hxe : x.ref = e.ref := by rw [DedupEntry.ref, DedupEntry.ref, hid.1, hid.2]
      have hlive : ∀ y, y ∈ live.filter (fun y => !(decide (y.contentHash = e.contentHash) &&
          decide (y.backend = e.backend))) ↔ y ∈ live ∧ y.ref ≠ e.ref := by
        intro y
        rw [List.mem_filter]
        simp [DedupEntry.ref, imp_iff_not_or]
      -- the entry of a key is the only one
      have huniq (hsub : ∀ y ∈ live, y ∈ all) (y : DedupEntry) (hk : y.ref = e.ref) :
          x = y ↔ y ∈ live := by
        refine ⟨fun h => h ▸ hxl, fun hy => ?_⟩
        exact List.inj_on_of_nodup_map hall (hsub x hxl) (hsub y hy) (hxe.trans hk.symm)
      refine ite (fun hne => ?_) fun heq => ?_
      · have hrow : (⟨e.contentHash, e.backend, x.key, x.refCount, x.payloadSize⟩ : DedupEntry) =
            x := by
          rw [← hid.1, ← hid.2]
        rw [hrow]
        refine bind (R := fun _ w => C w ∧ (w.store.replicas.rows = rows ∧
          Correcting all es (live.filter (fun y => !(decide (y.contentHash = e.contentHash) &&
            decide (y.backend = e.backend)))) w.store.dedup))
          (store hfirm ?_ fun _ _ _ _ _ h => h.1) fun _ => ih
        intro w r s hw hi _ hrun
        have hlv' : Coordinator.Live w.store.replicas.rows x := by
          rw [hw.2.1]
          exact hlv x (hw.2.2.sub x hxl)
        obtain ⟨hg, hC⟩ := hx.upsert x w s r hw.1 hi hlv' hrun
        have hset : Store.DedupSet w.store s x.ref (some x) := Store.upsertDedup_ok hrun
        rw [hxe] at hset
        refine ⟨hg, hC, ?_, ?_⟩
        · show s.replicas.rows = rows
          rw [hset.replicas]
          exact hw.2.1
        · refine hw.2.2.step hlive (fun y hk => (hset.mem_iff y).2 hk) fun y hk => ?_
          refine ((hset.mem_iff y).1 hk).trans ?_
          rw [Option.some.injEq]
          exact huniq hw.2.2.sub y hk
      · refine ih.pre fun w hw => ⟨hw.1, hw.2.1, ?_⟩
        rw [not_or, not_or, not_not, not_not, not_not] at heq
        have hex : e = x := by
          cases e
          cases x
          simp_all
        refine hw.2.2.step hlive (fun _ _ => Iff.rfl) fun y hk => ?_
        rw [← huniq hw.2.2.sub y hk, ← hex]
        have he : e ∈ w.store.dedup := hw.2.2.pending e List.mem_cons_self
        refine ⟨fun hy => Table.eq_of_key he hy hk.symm, fun h => h ▸ he⟩

/-- the missing rows are inserted one after the other -/
theorem insertMissing {xs : List DedupEntry} {repairs : List String}
    (hall : (all.map DedupEntry.ref).Nodup) (hlv : ∀ x ∈ all, Coordinator.Live rows x) :
    A.Triple l (fun w => C w ∧ (w.store.replicas.rows = rows ∧ Filling all xs w.store.dedup))
      (Coordinator.recreateMissing xs repairs)
      (fun _ w => C w ∧ (w.store.replicas.rows = rows ∧ Filling all [] w.store.dedup))
      (fun _ => C) := by
  induction xs generalizing repairs with
  | nil => exact Triple.pure fun _ h => h
  | cons x xs ih =>
    have hfirm := hx.firm fun rs D => rs = rows ∧ Filling all (x :: xs) D
    refine bind (R := fun _ w => C w ∧ (w.store.replicas.rows = rows ∧
      Filling all xs w.store.dedup)) (store hfirm ?_ fun _ _ _ _ _ h => h.1) fun _ => ih
    intro w r s hw hi _ hrun
    have hxa := hw.2.2.sub x List.mem_cons_self
    have hlv' : Coordinator.Live w.store.replicas.rows x := by
      rw [hw.2.1]
      exact hlv x hxa
    obtain ⟨hg, hC⟩ := hx.insert x w s r hw.1 hi hlv' hrun
    obtain ⟨hnone, hset⟩ := Store.insertDedup_ok hrun
    have hset : Store.DedupSet w.store s x.ref (some x) := hset
    refine ⟨hg, hC, ?_, ?_⟩
    · show s.replicas.rows = rows
      rw [hset.replicas]
      exact hw.2.1
    · refine ⟨fun y hy => hw.2.2.sub y (List.mem_cons_of_mem _ hy), fun y hy => ?_⟩
      by_cases hk : y.ref = x.ref
      · refine ((hset.mem_iff y).1 hk).trans ?_
        rw [Option.some.injEq]
        refine ⟨fun h => h ▸ hxa, fun hya => ?_⟩
        exact List.inj_on_of_nodup_map hall hxa hya hk.symm
      · refine ((hset.mem_iff y).2 hk).trans (hw.2.2.done y ?_)
        rw [List.mem_cons, not_or]
        exact ⟨fun h => hk (congrArg DedupEntry.ref h), hy⟩

/-- **The repair leaves the recount of the replica rows.** -/
theorem recounted : A.Triple l C Coordinator.repairDedupCounts
    (fun _ w => C w ∧ w.store.Recounted) (fun _ => C) := by
  have hC : A.Firm C := by
    have := hx.firm fun _ _ => True
    exact ⟨fun w w' hr hi h => (this.rely w w' hr hi ⟨h, trivial⟩).1,
      fun w w' hq h => (this.quiet w w' hq ⟨h, trivial⟩).1⟩
  have hrows (rs : List Replica) := hx.firm fun rows _ => rs.Perm rows
  refine bind (storeCalm rfl hC) fun objects => ?_
  refine bind (R := fun rs w => C w ∧ rs.Perm w.store.replicas.rows)
    (answer hC hrows rfl (fun w rs s hw _ hrun => ?_) fun _ _ h => h) fun rs => ?_
  · cases hrun
    exact ⟨hw, List.perm_insertionSort _ _⟩
  refine bind (R := fun live w => Recount rs live ∧ C w ∧ rs.Perm w.store.replicas.rows)
    (Triple.settle (fun live hlive w hw => ⟨?_, hw⟩) fun _ _ _ hw => hw.1) fun live =>
    of_pure fun hrec => ?_
  · have := Coordinator.liveEntries_recount .nil hlive
    rwa [List.nil_append] at this
  refine bind (R := fun stored w => C w ∧ (rs.Perm w.store.replicas.rows ∧
      stored.Perm w.store.dedup.rows))
    (answer (hrows rs) (fun stored => hx.firm fun rows D => rs.Perm rows ∧ stored.Perm D.rows) rfl
      (fun w stored s hw _ hrun => ?_) fun _ _ h => h.1) fun stored => ?_
  · cases hrun
    exact ⟨hw.1, hw.2, List.perm_insertionSort _ _⟩
  -- the replica rows stay as they are from here on
  refine @Triple.pre _ _ _ _ _ (fun w => ∃ rows, rs.Perm rows ∧ C w ∧
    (w.store.replicas.rows = rows ∧ stored.Perm w.store.dedup.rows)) _ _ _ ?_
    fun w hw => ⟨_, hw.2.1, hw.1, rfl, hw.2.2⟩
  refine of_exists fun rows => of_pure fun hperm => ?_
  have hrec := hrec.perm hperm
  have hlv : ∀ x ∈ live, Coordinator.Live rows x := by
    intro x hxl
    obtain ⟨r, hr, hk⟩ := hrec.row hxl
    obtain ⟨hkey, hsize⟩ := hrec.same x hxl r hr hk
    exact ⟨r, hr, (Prod.mk.inj hk).1, (Prod.mk.inj hk).2, hkey, hsize⟩
  refine bind (R := fun out w => C w ∧ (w.store.replicas.rows = rows ∧
    Correcting live [] out.1 w.store.dedup)) ((mend hx hrec.nodup hlv).pre ?_) fun out => ?_
  · intro w hw
    refine ⟨hw.1, hw.2.1, ?_, ?_, fun _ h => h, fun x h _ => h, ?_⟩
    · rw [(hw.2.2.map DedupEntry.ref).nodup_iff]
      exact w.store.dedup.nodup
    · exact fun e he => hw.2.2.mem_iff.mp he
    · intro x hno
      refine ⟨fun hm => ?_, fun h => absurd h.1 h.2⟩
      exact absurd rfl (hno x (hw.2.2.mem_iff.mpr hm))
  obtain ⟨missing, repairs⟩ := out
  refine ((insertMissing hx hrec.nodup hlv).pre ?_).post ?_ fun _ _ h => h
  · intro w hw
    refine ⟨hw.1, hw.2.1, ?_, ?_⟩
    · intro x hm
      rw [List.mem_insertionSort] at hm
      exact hw.2.2.sub x hm
    · intro x hm
      rw [List.mem_insertionSort] at hm
      rw [hw.2.2.done x nofun]
      exact ⟨And.left, fun h => ⟨h, hm⟩⟩
  · intro _ w hw
    refine ⟨hw.1, ?_⟩
    have hD : ∀ x, x ∈ w.store.dedup.rows ↔ x ∈ live := fun x => hw.2.2.done x List.not_mem_nil
    refine ⟨w.store.dedup.nodup, ?_, ?_, ?_⟩
    · intro r hr
      rw [hw.2.1] at hr
      obtain ⟨x, hxl, hk⟩ := hrec.covers r hr
      exact ⟨x, (hD x).mpr hxl, hk⟩
    · intro x hm
      rw [hw.2.1]
      exact hrec.count x ((hD x).mp hm)
    · intro x hm
      rw [hw.2.1]
      exact hrec.same x ((hD x).mp hm)

end Triple

end Party

end ReclaimFabric
