import ReclaimFabric.Lib.Result
import ReclaimFabric.Recovery.Lineage

/-!
# The repair of the dedup table, exactly

`repair_dedup_counts` on a database that does not fail: three passes over the dedup table, after a
count that refuses before anything is written.

* `Store.Readable`      the replica rows the queries decode;
* `Store.Conflicting`   the rows the count refuses;
* `liveEntries_cases`   the count refuses exactly those;
* `lookup`              the counted entry of a key;
* `repairStored_ran`, `recreateMissing_ran`   what the passes do to the table, key by key;
* `repair_exact`        the repair as a whole.
-/

namespace ReclaimFabric

open Prog (Ran Only settle)

/-- every replica row is one `row_to_replica` decodes (a row it refuses is an error of the query),
and the rows fit a vector -/
structure Store.Readable (s : Store) : Prop where
  rows : ∀ r ∈ s.replicas, Store.validateReplicaDescriptor r = .ok ()
  fits : s.replicas.rows.length ≤ i64Max

/-- the replica row belongs to no object, or to one that was reclaimed -/
def Store.Ownerless (s : Store) (r : Replica) : Prop :=
  s.objects.find? r.objectId = none ∨
    ∃ o, s.objects.find? r.objectId = some o ∧ o.lifecycleState = .reclaimed

/-- two replica rows of one payload that differ in key or size -/
def Disagree (r r' : Replica) : Prop :=
  r.ref = r'.ref ∧ (r.location.key ≠ r'.location.key ∨ r.size ≠ r'.size)

/-- what the count refuses -/
def Store.Conflicting (s : Store) : Prop :=
  (∃ r ∈ s.replicas, s.Ownerless r) ∨ ∃ r ∈ s.replicas, ∃ r' ∈ s.replicas, Disagree r r'

/-! ## the count -/

section
variable {objects : List ReclaimObject} {done rs : List Replica} {live : List DedupEntry}

namespace Coordinator

/-- a row that is not counted contradicts an earlier one -/
theorem addLive_error {r : Replica} {err : ReclaimError} (hl : Recount done live)
    (hfits : done.length + 1 ≤ i64Max) (h : addLive r live = .error err) :
    ∃ r' ∈ done, Disagree r' r := by
  have hbad : ∀ l, (∀ x ∈ l, x ∈ live) → ∀ err, addLive r l = .error err →
      ∃ x ∈ live, x.ref = r.ref ∧ (x.key ≠ r.location.key ∨ x.payloadSize ≠ r.size) := by
    intro l
    induction l with
    | nil =>
      intro _ err h
      cases h
    | cons e es ih =>
      intro hsub err h
      have he := hsub e List.mem_cons_self
      simp only [addLive] at h
      split at h
      · next hid =>
        have href : e.ref = r.ref := by rw [DedupEntry.ref, Replica.ref, hid.1, hid.2]
        split at h
        · next hdiff => exact ⟨e, he, href, hdiff⟩
        · split at h
          · next hover =>
            -- no table has that many rows
            have hle : e.refCount ≤ done.length := by
              rw [(hl.count e he).2]
              exact List.countP_le_length
            rw [i64Max] at hfits
            omega
          · cases h
      · cases hrec : addLive r es with
        | error err' => exact ih (fun x hx => hsub x (List.mem_cons_of_mem _ hx)) err' hrec
        | ok es' =>
          rw [hrec] at h
          cases h
  obtain ⟨x, hx, href, hdiff⟩ := hbad live (fun _ hx => hx) err h
  obtain ⟨r', hr', hk⟩ := hl.row hx
  obtain ⟨hkey, hsize⟩ := hl.same x hx r' hr' hk
  refine ⟨r', hr', hk.trans href, ?_⟩
  rw [hkey, hsize]
  exact hdiff

/-- the count fails on a row without an owner or on two rows that disagree, and on nothing else -/
theorem liveEntries_error {err : ReclaimError} (hl : Recount done live)
    (hfits : (done ++ rs).length ≤ i64Max) (h : liveEntries objects rs live = .error err) :
    (∃ r ∈ rs, objects.find? (fun o => decide (o.id = r.objectId)) = none ∨
      ∃ o, objects.find? (fun o => decide (o.id = r.objectId)) = some o ∧
        o.lifecycleState = .reclaimed) ∨
    ∃ r ∈ done ++ rs, ∃ r' ∈ done ++ rs, Disagree r r' := by
  induction rs generalizing done live with
  | nil => cases h
  | cons r rs ih =>
    simp only [liveEntries] at h
    split at h
    · next hnone => exact Or.inl ⟨r, List.mem_cons_self, Or.inl hnone⟩
    · next o ho =>
      split at h
      · next hst => exact Or.inl ⟨r, List.mem_cons_self, Or.inr ⟨o, ho, hst⟩⟩
      · have hlen : done.length + 1 ≤ i64Max := by
          rw [List.length_append, List.length_cons] at hfits
          omega
        cases hadd : addLive r live with
        | error err' =>
          obtain ⟨r', hr', hd⟩ := addLive_error hl hlen hadd
          exact Or.inr ⟨r', List.mem_append_left _ hr', r,
            List.mem_append_right _ List.mem_cons_self, hd⟩
        | ok live' =>
          rw [hadd] at h
          have happ : done ++ [r] ++ rs = done ++ r :: rs := by
            rw [List.append_assoc, List.singleton_append]
          rcases ih (addLive_recount hl hadd) (by rw [happ]; exact hfits) h with hbad | hbad
          · obtain ⟨x, hx, hx'⟩ := hbad
            exact Or.inl ⟨x, List.mem_cons_of_mem _ hx, hx'⟩
          · rw [happ] at hbad
            exact Or.inr hbad

/-- rows that are counted have owners -/
theorem liveEntries_owned {live' : List DedupEntry}
    (h : liveEntries objects rs live = .ok live') :
    ∀ r ∈ rs, ∃ o, objects.find? (fun o => decide (o.id = r.objectId)) = some o ∧
      o.lifecycleState ≠ .reclaimed := by
  induction rs generalizing live with
  | nil => exact fun r hr => absurd hr List.not_mem_nil
  | cons r rs ih =>
    simp only [liveEntries] at h
    split at h
    · cases h
    · next o ho =>
      split at h
      · cases h
      · next hst =>
        cases hadd : addLive r live with
        | error err =>
          rw [hadd] at h
          cases h
        | ok live₁ =>
          rw [hadd] at h
          intro r' hr'
          rcases List.mem_cons.mp hr' with rfl | hr'
          · exact ⟨o, ho, hst⟩
          · exact ih h r' hr'

end Coordinator

end

/-- a query of the objects finds the row of the table -/
theorem find?_listObjects {s : Store} {objects : List ReclaimObject}
    (hp : objects.Perm s.objects.rows) (id : Uuid) :
    objects.find? (fun o => decide (o.id = id)) = s.objects.find? id := by
  have hmem : ∀ o, o ∈ objects ↔ o ∈ s.objects := fun o => hp.mem_iff
  cases ho : s.objects.find? id with
  | none =>
    rw [List.find?_eq_none]
    intro o hm hid
    exact Table.find?_eq_none.mp ho o ((hmem o).mp hm) (of_decide_eq_true hid)
  | some o =>
    obtain ⟨hm, hid⟩ := Table.find?_eq_some.mp ho
    cases hf : objects.find? (fun o => decide (o.id = id)) with
    | none => exact absurd (decide_eq_true hid) (List.find?_eq_none.mp hf o ((hmem o).mpr hm))
    | some o' =>
      have hm' := (hmem o').mp (List.mem_of_find?_eq_some hf)
      have hid' : o'.id = id := by simpa using List.find?_some hf
      rw [Table.eq_of_key hm' hm (hid'.trans hid.symm)]

/-- the count of a store: refused exactly when the rows conflict -/
theorem liveEntries_cases {s : Store} (hread : s.Readable) {objects : List ReclaimObject}
    {rs : List Replica} (ho : objects.Perm s.objects.rows) (hr : rs.Perm s.replicas.rows) :
    (s.Conflicting ∧ ∃ err, Coordinator.liveEntries objects rs [] = .error err) ∨
    (¬ s.Conflicting ∧ ∃ live, Coordinator.liveEntries objects rs [] = .ok live ∧
      Recount s.replicas.rows live) := by
  have hmem : ∀ r, r ∈ rs ↔ r ∈ s.replicas := fun r => hr.mem_iff
  cases hl : Coordinator.liveEntries objects rs [] with
  | error err =>
    refine Or.inl ⟨?_, err, rfl⟩
    have hfits : ([] ++ rs).length ≤ i64Max := by
      rw [List.nil_append, hr.length_eq]
      exact hread.fits
    rcases Coordinator.liveEntries_error Recount.nil hfits hl with hbad | hbad
    · obtain ⟨r, hm, hbad⟩ := hbad
      rw [find?_listObjects ho] at hbad
      exact Or.inl ⟨r, (hmem r).mp hm, hbad⟩
    · obtain ⟨r, hm, r', hm', hd⟩ := hbad
      exact Or.inr ⟨r, (hmem r).mp hm, r', (hmem r').mp hm', hd⟩
  | ok live =>
    have hrec := Coordinator.liveEntries_recount Recount.nil hl
    rw [List.nil_append] at hrec
    refine Or.inr ⟨?_, live, rfl, hrec.perm hr⟩
    intro hc
    rcases hc with hc | hc
    · obtain ⟨r, hm, hown⟩ := hc
      obtain ⟨o, hfind, hst⟩ := Coordinator.liveEntries_owned hl r ((hmem r).mpr hm)
      rw [find?_listObjects ho] at hfind
      rcases hown with hnone | ⟨o', ho', hst'⟩
      · rw [hnone] at hfind
        cases hfind
      · rw [ho'] at hfind
        cases hfind
        exact hst hst'
    · obtain ⟨r, hm, r', hm', href, hdiff⟩ := hc
      obtain ⟨x, hx, hxr⟩ := hrec.covers r ((hmem r).mpr hm)
      have h1 := hrec.same x hx r ((hmem r).mpr hm) hxr.symm
      have h2 := hrec.same x hx r' ((hmem r').mpr hm') (href.symm.trans hxr.symm)
      rcases hdiff with hk | hk
      · exact hk (h1.1.trans h2.1.symm)
      · exact hk (h1.2.trans h2.2.symm)

/-! ## the entry of a key -/

/-- the counted entry of a key -/
def lookup (live : List DedupEntry) (k : ContentHash × String) : Option DedupEntry :=
  live.find? (fun x => decide (x.ref = k))

section
variable {live : List DedupEntry} {k : ContentHash × String} {x : DedupEntry}

theorem lookup_eq_none : lookup live k = none ↔ ∀ x ∈ live, x.ref ≠ k := by
  simp only [lookup, List.find?_eq_none, decide_eq_true_eq, ne_eq]

theorem lookup_eq_some (hn : (live.map DedupEntry.ref).Nodup) :
    lookup live k = some x ↔ x ∈ live ∧ x.ref = k := by
  constructor
  · intro h
    exact ⟨List.mem_of_find?_eq_some h, by simpa using List.find?_some h⟩
  · intro h
    obtain ⟨hx, hk⟩ := h
    cases hf : lookup live k with
    | none => exact absurd hk (lookup_eq_none.mp hf x hx)
    | some y =>
      have hy : y ∈ live := List.mem_of_find?_eq_some hf
      have hyk : y.ref = k := by simpa using List.find?_some hf
      rw [List.inj_on_of_nodup_map hn hy hx (hyk.trans hk.symm)]

/-- a lookup does not depend on the order, nor on the entries of other keys -/
theorem lookup_congr {live' : List DedupEntry} (hn : (live.map DedupEntry.ref).Nodup)
    (hn' : (live'.map DedupEntry.ref).Nodup)
    (h : ∀ x, x.ref = k → (x ∈ live ↔ x ∈ live')) : lookup live k = lookup live' k := by
  cases hl : lookup live' k with
  | none =>
    rw [lookup_eq_none] at hl ⊢
    intro x hx hk
    exact hl x ((h x hk).mp hx) hk
  | some x =>
    rw [lookup_eq_some hn'] at hl
    exact (lookup_eq_some hn).mpr ⟨(h x hl.2).mpr hl.1, hl.2⟩

theorem here_eq (e x : DedupEntry) :
    (decide (x.contentHash = e.contentHash) && decide (x.backend = e.backend)) =
      decide (x.ref = e.ref) := by
  rw [Bool.eq_iff_iff, Bool.and_eq_true, decide_eq_true_eq, decide_eq_true_eq, decide_eq_true_eq,
    DedupEntry.ref, DedupEntry.ref, Prod.mk.injEq]

end

/-! ## one write -/

section
variable {env : Env} {t : Tid} {op : Op} {w w' : Traced}

/-- the store differs in the dedup table only, and there as `f` says -/
def Rewritten (w w' : Traced) (f : ContentHash × String → Option DedupEntry) : Prop :=
  w'.store = { w.store with dedup := w'.store.dedup } ∧ ∀ k, w'.store.dedup.find? k = f k

theorem Rewritten.refl (w : Traced) : Rewritten w w w.store.dedup.find? := ⟨rfl, fun _ => rfl⟩

theorem Rewritten.trans {w₁ : Traced} {f g : ContentHash × String → Option DedupEntry}
    (h : Rewritten w w₁ f) (h' : Rewritten w₁ w' g) : Rewritten w w' g := by
  refine ⟨?_, h'.2⟩
  rw [h'.1, h.1]

theorem rewritten_deleteDedup {x : ContentHash} {b : String} {r : Res Unit}
    (h : Ran (sturdy env t op) (Coordinator.store (.deleteDedup x b)).run w r w') :
    r = .ok () ∧ Rewritten w w' (fun k => if k = (x, b) then none else w.store.dedup.find? k) := by
  rcases sturdy_store h with ⟨err, -, hrun⟩ | ⟨a, ha, hrun⟩
  · cases hrun
  · have hs : w'.store = { w.store with dedup := w.store.dedup.erase (x, b) } :=
      (Prod.mk.inj (Except.ok.inj hrun)).2.symm
    refine ⟨ha, by rw [hs], fun k => ?_⟩
    rw [hs]
    show (w.store.dedup.erase (x, b)).find? k = if k = (x, b) then none else _
    rw [Table.find?_erase]
    exact if_congr eq_comm rfl rfl

theorem rewritten_upsertDedup {e : DedupEntry} {r : Res Unit}
    (hv : Store.validateDedupEntry e = .ok ())
    (h : Ran (sturdy env t op) (Coordinator.store (.upsertDedup e)).run w r w') :
    r = .ok () ∧ Rewritten w w'
      (fun k => if k = e.ref then some e else w.store.dedup.find? k) := by
  have hrun : ∃ T, (StoreOp.upsertDedup e).run w.store = .ok ((), { w.store with dedup := T }) := by
    show ∃ T, (Store.validateDedupEntry e >>= fun _ => _) = Except.ok ((), { w.store with dedup := T })
    rw [hv]
    cases hi : w.store.dedup.insert? e with
    | none => exact ⟨w.store.dedup.replace e, rfl⟩
    | some T => exact ⟨T, rfl⟩
  obtain ⟨T, hT⟩ := hrun
  obtain ⟨T', hd, hfind⟩ := Store.upsertDedup_ok hT
  have hTT : T = T' := congrArg Data.dedup hd
  rcases sturdy_store h with ⟨err, -, hrun⟩ | ⟨a, ha, hrun⟩
  · cases hT.symm.trans hrun
  · have hs : w'.store = { w.store with dedup := T } :=
      (Prod.mk.inj (Except.ok.inj (hT.symm.trans hrun))).2.symm
    refine ⟨ha, by rw [hs], fun k => ?_⟩
    rw [hs]
    show T.find? k = _
    rw [hTT, hfind]
    rfl

theorem rewritten_insertDedup {e : DedupEntry} {r : Res Unit}
    (hv : Store.validateDedupEntry e = .ok ()) (hfree : w.store.dedup.find? e.ref = none)
    (h : Ran (sturdy env t op) (Coordinator.store (.insertDedup e)).run w r w') :
    r = .ok () ∧ Rewritten w w'
      (fun k => if k = e.ref then some e else w.store.dedup.find? k) := by
  obtain ⟨T, hi⟩ := Table.insert?_of_none hfree
  have hT : (StoreOp.insertDedup e).run w.store = .ok ((), { w.store with dedup := T }) := by
    show Store.insertDedup e w.store = _
    rw [Store.insertDedup, Result.bind_of_ok hv, hi]
    rfl
  obtain ⟨-, T', hd, hfind⟩ := Store.insertDedup_ok hT
  have hTT : T = T' := congrArg Data.dedup hd
  rcases sturdy_store h with ⟨err, -, hrun⟩ | ⟨a, ha, hrun⟩
  · cases hT.symm.trans hrun
  · have hs : w'.store = { w.store with dedup := T } :=
      (Prod.mk.inj (Except.ok.inj (hT.symm.trans hrun))).2.symm
    refine ⟨ha, by rw [hs], fun k => ?_⟩
    rw [hs]
    show T.find? k = _
    rw [hTT, hfind]
    rfl

/-! ## the passes -/

/-- what the report says about a key whose row was and is -/
def repairNote (k : ContentHash × String) : Option DedupEntry → Option DedupEntry → String
  | some _, none => s!"removed unreferenced dedup entry for {k.1} on {k.2}"
  | some e, some x =>
    s!"repaired dedup entry for {k.1} on {k.2} (refs {e.refCount} -> {x.refCount})"
  | none, _ => s!"recreated missing dedup entry for {k.1} on {k.2}"

/-- the stored rows `es` have been compared with the counted entries -/
structure Swept (es live : List DedupEntry) (repairs : List String) (w : Traced)
    (r : Res (List DedupEntry × List String)) (w' : Traced) : Prop where
  answer : r = .ok (live.filter (fun x => decide (x.ref ∉ es.map DedupEntry.ref)),
    repairs ++ (es.filter (fun e => decide (lookup live e.ref ≠ some e))).map
      (fun e => repairNote e.ref (some e) (lookup live e.ref)))
  table : Rewritten w w' (fun k =>
    if k ∈ es.map DedupEntry.ref then lookup live k else w.store.dedup.find? k)

theorem Swept.nil {live : List DedupEntry} {repairs : List String} :
    Swept [] live repairs w (.ok (live, repairs)) w := by
  refine ⟨?_, Rewritten.refl w⟩
  have hall : live.filter (fun x => decide (x.ref ∉ ([] : List DedupEntry).map DedupEntry.ref)) =
      live := List.filter_eq_self.mpr fun x _ => decide_eq_true List.not_mem_nil
  rw [hall, List.filter_nil, List.map_nil, List.append_nil]

/-- one more stored row: its key gets the counted entry, and the entry leaves the list -/
theorem Swept.cons {e : DedupEntry} {es live live₁ : List DedupEntry} {repairs : List String}
    {r : Res (List DedupEntry × List String)} {w₁ : Traced}
    (hne : ∀ y ∈ es, y.ref ≠ e.ref)
    (hlive : live₁ = live.filter (fun x => decide (x.ref ≠ e.ref)))
    (hlook : ∀ k, k ≠ e.ref → lookup live₁ k = lookup live k)
    (hrow : Rewritten w w₁ (fun k => if k = e.ref then lookup live e.ref
      else w.store.dedup.find? k))
    (h : Swept es live₁ (repairs ++ if lookup live e.ref = some e then []
      else [repairNote e.ref (some e) (lookup live e.ref)]) w₁ r w') :
    Swept (e :: es) live repairs w r w' := by
  constructor
  · rw [h.answer, hlive]
    have hleft : (live.filter (fun x => decide (x.ref ≠ e.ref))).filter
        (fun x => decide (x.ref ∉ es.map DedupEntry.ref)) =
        live.filter (fun x => decide (x.ref ∉ (e :: es).map DedupEntry.ref)) := by
      rw [List.filter_filter]
      refine List.filter_congr fun x _ => ?_
      rw [Bool.eq_iff_iff, Bool.and_eq_true, decide_eq_true_eq, decide_eq_true_eq,
        decide_eq_true_eq, List.map_cons, List.mem_cons, not_or]
      exact and_comm
    have hsame : ∀ y ∈ es, lookup (live.filter (fun x => decide (x.ref ≠ e.ref))) y.ref =
        lookup live y.ref := fun y hy => by rw [← hlive]; exact hlook y.ref (hne y hy)
    have hfilter : es.filter (fun y => decide (lookup (live.filter
        (fun x => decide (x.ref ≠ e.ref))) y.ref ≠ some y)) =
        es.filter (fun y => decide (lookup live y.ref ≠ some y)) :=
      List.filter_congr fun y hy => by rw [hsame y hy]
    have hmap : ∀ l : List DedupEntry, (∀ y ∈ l, y ∈ es) →
        l.map (fun y => repairNote y.ref (some y) (lookup (live.filter
          (fun x => decide (x.ref ≠ e.ref))) y.ref)) =
        l.map (fun y => repairNote y.ref (some y) (lookup live y.ref)) :=
      fun l hl => List.map_congr_left fun y hy => by rw [hsame y (hl y hy)]
    rw [hleft, hfilter, hmap _ fun y hy => (List.mem_filter.mp hy).1, List.append_assoc]
    by_cases hc : lookup live e.ref = some e
    · rw [if_pos hc, List.nil_append, List.filter_cons_of_neg (by simp [hc])]
    · rw [if_neg hc, List.filter_cons_of_pos (by simp [hc])]
      rfl
  · obtain ⟨hst, hfind⟩ := hrow.trans h.table
    refine ⟨hst, fun k => (hfind k).trans ?_⟩
    show (if k ∈ es.map DedupEntry.ref then lookup live₁ k else w₁.store.dedup.find? k) =
      if k ∈ (e :: es).map DedupEntry.ref then lookup live k else w.store.dedup.find? k
    rw [show w₁.store.dedup.find? k = if k = e.ref then lookup live e.ref
      else w.store.dedup.find? k from hrow.2 k]
    by_cases hk : k = e.ref
    · have hno : k ∉ es.map DedupEntry.ref := by
        intro hm
        obtain ⟨y, hy, hyk⟩ := List.mem_map.mp hm
        exact hne y hy (hyk.trans hk)
      rw [if_neg hno, if_pos hk, if_pos (by rw [hk]; exact List.mem_cons_self), hk]
    · rw [hlook k hk, if_neg hk]
      refine if_congr ?_ rfl rfl
      rw [List.map_cons, List.mem_cons]
      exact ⟨Or.inr, fun hm => hm.resolve_left hk⟩

theorem repairStored_ran {es live : List DedupEntry} {repairs : List String}
    {r : Res (List DedupEntry × List String)} (hes : (es.map DedupEntry.ref).Nodup)
    (hn : (live.map DedupEntry.ref).Nodup)
    (hv : ∀ x ∈ live, Store.validateDedupEntry x = .ok ())
    (hrows : ∀ e ∈ es, w.store.dedup.find? e.ref = some e)
    (h : Ran (sturdy env t op) (Coordinator.repairStored es live repairs).run w r w') :
    Swept es live repairs w r w' := by
  induction es generalizing live repairs w with
  | nil =>
    obtain ⟨rfl, rfl⟩ := ran_pure.mp h
    exact Swept.nil
  | cons e es ih =>
    rw [List.map_cons, List.nodup_cons] at hes
    have hne : ∀ y ∈ es, y.ref ≠ e.ref := fun y hy hk =>
      hes.1 (List.mem_map.mpr ⟨y, hy, hk⟩)
    have hrow := hrows e List.mem_cons_self
    -- the entries of the other keys
    have hlook : ∀ k, k ≠ e.ref →
        lookup (live.filter (fun x => decide (x.ref ≠ e.ref))) k = lookup live k := by
      intro k hk
      refine lookup_congr (hn.sublist (List.filter_sublist.map _)) hn fun x hx => ?_
      rw [List.mem_filter, decide_eq_true_eq, hx]
      exact ⟨And.left, fun hm => ⟨hm, hk⟩⟩
    have hn' := hn.sublist
      ((List.filter_sublist (p := fun x => decide (x.ref ≠ e.ref))).map DedupEntry.ref)
    have hv' : ∀ x ∈ live.filter (fun x => decide (x.ref ≠ e.ref)),
        Store.validateDedupEntry x = .ok () := fun x hx => hv x (List.mem_filter.mp hx).1
    have hnext {w₁ : Traced} (hset : Rewritten w w₁ (fun k => if k = e.ref then lookup live e.ref
        else w.store.dedup.find? k)) : ∀ y ∈ es, w₁.store.dedup.find? y.ref = some y := by
      intro y hy
      exact ((hset.2 y.ref).trans (if_neg (hne y hy))).trans
        (hrows y (List.mem_cons_of_mem _ hy))
    unfold Coordinator.repairStored at h
    simp only [here_eq] at h
    split at h
    · -- nothing refers to the row
      next hnone =>
      have hl : lookup live e.ref = none := hnone
      rcases ran_seq.mp h with ⟨err, -, hx⟩ | ⟨a, w₁, hx, hrest⟩
      · cases (rewritten_deleteDedup hx).1
      have hset := (rewritten_deleteDedup hx).2
      rw [← hl] at hset
      have hself : live.filter (fun x => decide (x.ref ≠ e.ref)) = live :=
        List.filter_eq_self.mpr fun x hx => decide_eq_true (lookup_eq_none.mp hl x hx)
      refine Swept.cons hne hself.symm (fun k _ => rfl) hset ?_
      rw [if_neg (by rw [hl]; nofun), hl]
      exact ih hes.2 hn hv (hnext hset) hrest
    · next x hsome =>
      have hl : lookup live e.ref = some x := hsome
      obtain ⟨hxl, hxe⟩ := (lookup_eq_some hn).mp hl
      have hx : (⟨e.contentHash, e.backend, x.key, x.refCount, x.payloadSize⟩ : DedupEntry) = x := by
        obtain ⟨hh, hb⟩ := Prod.mk.inj hxe
        rw [← hh, ← hb]
      have hfilter : live.filter (fun y => !decide (y.ref = e.ref)) =
          live.filter (fun y => decide (y.ref ≠ e.ref)) :=
        List.filter_congr fun y _ => (decide_not).symm
      rw [hfilter, hx] at h
      split at h
      · next hdiff =>
        have hex : lookup live e.ref ≠ some e := by
          rw [hl]
          intro hc
          cases hc
          rcases hdiff with hd | hd | hd <;> exact hd rfl
        rcases ran_seq.mp h with ⟨err, -, hx'⟩ | ⟨a, w₁, hx', hrest⟩
        · cases (rewritten_upsertDedup (hv x hxl) hx').1
        have hset := (rewritten_upsertDedup (hv x hxl) hx').2
        rw [hxe, ← hl] at hset
        refine Swept.cons hne rfl hlook hset ?_
        rw [if_neg hex, hl]
        exact ih hes.2 hn' hv' (hnext hset) hrest
      · next hsame =>
        rw [not_or, not_or, not_not, not_not, not_not] at hsame
        have hex : lookup live e.ref = some e := by
          rw [hl, ← hx, ← hsame.1, ← hsame.2.1, ← hsame.2.2]
        have hset : Rewritten w w (fun k => if k = e.ref then lookup live e.ref
            else w.store.dedup.find? k) := by
          refine ⟨rfl, fun k => ?_⟩
          show _ = if k = e.ref then lookup live e.ref else w.store.dedup.find? k
          by_cases hk : k = e.ref
          · rw [if_pos hk, hk, hrow, hex]
          · rw [if_neg hk]
        refine Swept.cons hne rfl hlook hset ?_
        rw [if_pos hex, List.append_nil]
        exact ih hes.2 hn' hv' (hnext hset) h

theorem recreateMissing_ran {xs : List DedupEntry} {repairs : List String}
    {r : Res (List String)} (hxs : (xs.map DedupEntry.ref).Nodup)
    (hv : ∀ x ∈ xs, Store.validateDedupEntry x = .ok ())
    (hfree : ∀ x ∈ xs, w.store.dedup.find? x.ref = none)
    (h : Ran (sturdy env t op) (Coordinator.recreateMissing xs repairs).run w r w') :
    r = .ok (repairs ++ xs.map (fun x => repairNote x.ref none (some x))) ∧
      Rewritten w w' (fun k => (lookup xs k).or (w.store.dedup.find? k)) := by
  induction xs generalizing repairs w with
  | nil =>
    obtain ⟨rfl, rfl⟩ := ran_pure.mp h
    rw [List.map_nil, List.append_nil]
    exact ⟨rfl, Rewritten.refl w'⟩
  | cons x xs ih =>
    rw [List.map_cons, List.nodup_cons] at hxs
    have hne : ∀ y ∈ xs, y.ref ≠ x.ref := fun y hy hk =>
      hxs.1 (List.mem_map.mpr ⟨y, hy, hk⟩)
    have hvx := hv x List.mem_cons_self
    have hfx := hfree x List.mem_cons_self
    rcases ran_seq.mp h with ⟨err, -, hx⟩ | ⟨a, w₁, hx, hrest⟩
    · cases (rewritten_insertDedup hvx hfx hx).1
    have hset := (rewritten_insertDedup hvx hfx hx).2
    have hfree₁ : ∀ y ∈ xs, w₁.store.dedup.find? y.ref = none := by
      intro y hy
      exact ((hset.2 y.ref).trans (if_neg (hne y hy))).trans
        (hfree y (List.mem_cons_of_mem _ hy))
    obtain ⟨hr, hst, hfind⟩ := ih hxs.2 (fun y hy => hv y (List.mem_cons_of_mem _ hy)) hfree₁ hrest
    refine ⟨?_, (hset.trans ⟨hst, hfind⟩).1, fun k => (hfind k).trans ?_⟩
    · rw [hr, List.append_assoc]
      rfl
    · show (lookup xs k).or (w₁.store.dedup.find? k) =
        (lookup (x :: xs) k).or (w.store.dedup.find? k)
      rw [show w₁.store.dedup.find? k = if k = x.ref then some x else w.store.dedup.find? k
        from hset.2 k, lookup, lookup, List.find?_cons]
      by_cases hk : k = x.ref
      · have hno : xs.find? (fun y => decide (y.ref = k)) = none := by
          rw [hk]
          exact lookup_eq_none.mpr hne
        rw [hno, if_pos hk, decide_eq_true hk.symm]
        rfl
      · rw [if_neg hk, decide_eq_false (Ne.symm hk)]

/-! ## the repair -/

/-- a counted entry can be written, when its count fits the column -/
theorem Recount.valid_of_count {rows : Table Replica.replicaId} {live : List DedupEntry}
    (hread : ∀ r ∈ rows, Store.validateReplicaDescriptor r = .ok ())
    (hrec : Recount rows.rows live) {x : DedupEntry} (hx : x ∈ live)
    (hcount : x.refCount ≤ i64Max) : Store.validateDedupEntry x = .ok () := by
  obtain ⟨r, hr, hk⟩ := hrec.row hx
  obtain ⟨hkey, hsize⟩ := hrec.same x hx r hr hk
  obtain ⟨-, hbackend⟩ := Prod.mk.inj hk
  have hv := hread r hr
  rw [Store.validateReplicaDescriptor] at hv
  by_cases hb : (blank r.location.backend || blank r.location.key) = true
  · rw [if_pos hb] at hv
    cases hv
  rw [if_neg hb] at hv
  have hblank : ∀ t : String, blank t ≠ true → t ≠ "" := by
    intro t ht he
    exact ht (by rw [he]; rfl)
  rw [Bool.or_eq_true, not_or] at hb
  have hne : ¬ (x.backend = "" ∨ x.key = "") := by
    rw [not_or, ← hbackend, ← hkey]
    exact ⟨hblank _ hb.1, hblank _ hb.2⟩
  have hsz : x.payloadSize ≤ i64Max := by
    rw [← hsize]
    by_cases ho : r.ownerNode.any blank = true
    · rw [if_pos ho] at hv
      cases hv
    rw [if_neg ho] at hv
    change (Store.sqlU64 "replica generation" r.generation >>= fun _ => _) = _ at hv
    cases hg : Store.sqlU64 "replica generation" r.generation with
    | error err =>
      rw [hg] at hv
      cases hv
    | ok _ =>
      rw [hg] at hv
      change Store.sqlU64 "replica size" r.size = _ at hv
      rw [Store.sqlU64] at hv
      split at hv
      · assumption
      · cases hv
  have hpos : x.refCount ≠ 0 := (hrec.count x hx).1.ne'
  rw [Store.validateDedupEntry, if_neg hne, if_neg hpos, Store.sqlU64, Store.sqlU64, if_pos hcount,
    if_pos hsz]
  rfl

theorem Recount.valid {s : Store} {live : List DedupEntry} (hread : s.Readable)
    (hrec : Recount s.replicas.rows live) {x : DedupEntry} (hx : x ∈ live) :
    Store.validateDedupEntry x = .ok () := by
  refine hrec.valid_of_count hread.rows hx ?_
  rw [(hrec.count x hx).2]
  exact List.countP_le_length.trans hread.fits

/-- the keys whose row the passes change: those of the drifted and stale rows `stored`, and those
of the counted entries without a row -/
theorem changed_keys {live stored xs : List DedupEntry}
    {D : Table (fun e : DedupEntry => (e.contentHash, e.backend))} (hp : stored.Perm D.rows)
    (hn : (live.map DedupEntry.ref).Nodup) (hxn : (xs.map DedupEntry.ref).Nodup)
    (hin : ∀ x, x ∈ xs ↔ x ∈ live ∧ x.ref ∉ stored.map DedupEntry.ref) :
    ∃ keys : List (ContentHash × String), keys.Nodup ∧
      (∀ k, k ∈ keys ↔ D.find? k ≠ lookup live k) ∧
      (stored.filter (fun e => decide (lookup live e.ref ≠ some e))).map
          (fun e => repairNote e.ref (some e) (lookup live e.ref)) ++
        xs.map (fun x => repairNote x.ref none (some x)) =
      keys.map fun k => repairNote k (D.find? k) (lookup live k) := by
  have hmem : ∀ e, e ∈ stored ↔ e ∈ D := fun e => hp.mem_iff
  have hrow : ∀ e ∈ stored, D.find? e.ref = some e :=
    fun e he => Table.find?_of_mem ((hmem e).mp he)
  have hnew : ∀ x ∈ xs, D.find? x.ref = none ∧ lookup live x.ref = some x := by
    intro x hx
    obtain ⟨hxl, hno⟩ := (hin x).mp hx
    refine ⟨Table.find?_eq_none.mpr fun e he hk => hno ?_, (lookup_eq_some hn).mpr ⟨hxl, rfl⟩⟩
    exact List.mem_map.mpr ⟨e, (hmem e).mpr he, hk⟩
  refine ⟨(stored.filter (fun e => decide (lookup live e.ref ≠ some e))).map DedupEntry.ref ++
    xs.map DedupEntry.ref, ?_, ?_, ?_⟩
  · rw [List.nodup_append]
    have hkeys : (stored.map DedupEntry.ref).Nodup :=
      (hp.map DedupEntry.ref).nodup_iff.mpr D.nodup
    refine ⟨hkeys.sublist (List.filter_sublist.map _), hxn, ?_⟩
    intro a ha b hb hab
    obtain ⟨e, he, rfl⟩ := List.mem_map.mp ha
    obtain ⟨x, hx, rfl⟩ := List.mem_map.mp hb
    refine ((hin x).mp hx).2 ?_
    rw [← hab]
    exact List.mem_map_of_mem (List.mem_filter.mp he).1
  · intro k
    rw [List.mem_append, List.mem_map, List.mem_map]
    constructor
    · intro hm
      rcases hm with ⟨e, he, rfl⟩ | ⟨x, hx, rfl⟩
      · obtain ⟨hes, hne⟩ := List.mem_filter.mp he
        rw [decide_eq_true_eq] at hne
        rw [hrow e hes]
        exact Ne.symm hne
      · rw [(hnew x hx).1, (hnew x hx).2]
        nofun
    · intro hne
      cases hf : D.find? k with
      | some e =>
        obtain ⟨he, hek⟩ := Table.find?_eq_some.mp hf
        have hek : e.ref = k := hek
        refine Or.inl ⟨e, List.mem_filter.mpr ⟨(hmem e).mpr he, ?_⟩, hek⟩
        rw [decide_eq_true_eq, hek, ← hf]
        exact Ne.symm hne
      | none =>
        cases hl : lookup live k with
        | none => exact absurd (hf.trans hl.symm) hne
        | some x =>
          obtain ⟨hxl, rfl⟩ := (lookup_eq_some hn).mp hl
          refine Or.inr ⟨x, (hin x).mpr ⟨hxl, fun hm => ?_⟩, rfl⟩
          obtain ⟨e, he, hek⟩ := List.mem_map.mp hm
          exact Table.find?_eq_none.mp hf e ((hmem e).mp he) hek
  · rw [List.map_append, List.map_map, List.map_map]
    refine congrArg₂ _ (List.map_congr_left fun e he => ?_) (List.map_congr_left fun x hx => ?_)
    · show repairNote e.ref (some e) _ = repairNote e.ref (D.find? e.ref) _
      rw [hrow e (List.mem_filter.mp he).1]
    · show _ = repairNote x.ref (D.find? x.ref) (lookup live x.ref)
      rw [(hnew x hx).1, (hnew x hx).2]

/-- the two passes over the table, from the counted entries -/
theorem passes_ran {live stored : List DedupEntry} {r : Res (List String)}
    (hp : stored.Perm w.store.dedup.rows) (hn : (live.map DedupEntry.ref).Nodup)
    (hv : ∀ x ∈ live, Store.validateDedupEntry x = .ok ())
    (h : Ran (sturdy env t op) (do
      let (missing, repairs) ← Coordinator.repairStored stored live []
      Coordinator.recreateMissing (missing.insertionSort (fun a b => Store.dedupLe a b))
        repairs).run w r w') :
    Rewritten w w' (lookup live) ∧ ∃ keys : List (ContentHash × String), keys.Nodup ∧
      (∀ k, k ∈ keys ↔ w.store.dedup.find? k ≠ lookup live k) ∧
      r = .ok (keys.map fun k => repairNote k (w.store.dedup.find? k) (lookup live k)) := by
  have hmem : ∀ e, e ∈ stored ↔ e ∈ w.store.dedup := fun e => hp.mem_iff
  have hswept {r' : Res (List DedupEntry × List String)} {w₁ : Traced}
      (hx : Ran (sturdy env t op) (Coordinator.repairStored stored live []).run w r' w₁) :=
    repairStored_ran ((hp.map DedupEntry.ref).nodup_iff.mpr w.store.dedup.nodup) hn hv
      (fun e he => Table.find?_of_mem ((hmem e).mp he)) hx
  rcases ran_seq.mp h with ⟨err', -, hx⟩ | ⟨out, w₁, hx, hrest⟩
  · cases (hswept hx).answer
  obtain ⟨hout, hsweep⟩ := hswept hx
  obtain ⟨missing, repairs⟩ := out
  obtain ⟨hmissing, hrepairs⟩ := Prod.mk.inj (Except.ok.inj hout)
  have hsort : (missing.insertionSort (fun a b => Store.dedupLe a b)).Perm missing :=
    List.perm_insertionSort _ _
  generalize hxs : missing.insertionSort (fun a b => Store.dedupLe a b) = xs at hsort
  have hin : ∀ x, x ∈ xs ↔ x ∈ live ∧ x.ref ∉ stored.map DedupEntry.ref := by
    intro x
    rw [hsort.mem_iff, hmissing, List.mem_filter, decide_eq_true_eq]
  have hxn : (xs.map DedupEntry.ref).Nodup := by
    rw [(hsort.map DedupEntry.ref).nodup_iff, hmissing]
    exact hn.sublist (List.filter_sublist.map _)
  -- after the first pass a key has a row only if it had one before
  have hnone : ∀ k, k ∉ stored.map DedupEntry.ref → w₁.store.dedup.find? k = none := by
    intro k hno
    refine ((hsweep.2 k).trans (if_neg hno)).trans (Table.find?_eq_none.mpr fun e he hk => hno ?_)
    exact List.mem_map.mpr ⟨e, (hmem e).mpr he, hk⟩
  have hlast : Ran (sturdy env t op) (Coordinator.recreateMissing xs repairs).run w₁ r w' := by
    rw [← hxs]
    exact hrest
  obtain ⟨hr, hst, hfind⟩ := recreateMissing_ran hxn (fun x hx => hv x ((hin x).mp hx).1)
    (fun x hx => hnone x.ref ((hin x).mp hx).2) hlast
  obtain ⟨keys, hkn, hkm, hnotes⟩ := changed_keys hp hn hxn hin
  refine ⟨⟨(hsweep.trans ⟨hst, hfind⟩).1, fun k => (hfind k).trans ?_⟩, keys, hkn, hkm, ?_⟩
  · show (lookup xs k).or (w₁.store.dedup.find? k) = lookup live k
    by_cases hk : k ∈ stored.map DedupEntry.ref
    · have hno : lookup xs k = none :=
        lookup_eq_none.mpr fun x hx hxk => ((hin x).mp hx).2 (hxk ▸ hk)
      rw [hno, Option.none_or]
      exact (hsweep.2 k).trans (if_pos hk)
    · rw [hnone k hk, Option.or_none]
      refine lookup_congr hxn hn fun x hx => ?_
      rw [hin, hx]
      exact ⟨And.left, fun hm => ⟨hm, hk⟩⟩
  · rw [hr, hrepairs, List.nil_append, hnotes]

/-- the repair: refused by the count, or both passes -/
theorem repairDedupCounts_ran {r : Res (List String)} (hread : w.store.Readable)
    (h : Ran (sturdy env t op) Coordinator.repairDedupCounts.run w r w') :
    (w.store.Conflicting ∧ (∃ err, r = .error err) ∧ w'.store = w.store) ∨
    (¬ w.store.Conflicting ∧ ∃ live, Recount w.store.replicas.rows live ∧
      Rewritten w w' (lookup live) ∧ ∃ keys : List (ContentHash × String), keys.Nodup ∧
        (∀ k, k ∈ keys ↔ w.store.dedup.find? k ≠ lookup live k) ∧
        r = .ok (keys.map fun k => repairNote k (w.store.dedup.find? k) (lookup live k))) := by
  obtain ⟨w₁, hs₁, h⟩ := sturdy_read (q := .listObjects) rfl h
  obtain ⟨w₂, hs₂, h⟩ := sturdy_read (q := .allReplicas) rfl h
  have hobj : (w.store.objects.rows.insertionSort (fun a b => a.id.le b.id)).Perm
      w.store.objects.rows := List.perm_insertionSort _ _
  have hrep : (Store.sortReplicas w₁.store.replicas.rows).Perm w.store.replicas.rows := by
    rw [hs₁]
    exact List.perm_insertionSort _ _
  rcases liveEntries_cases hread hobj hrep with ⟨hc, err, hl⟩ | ⟨hc, live, hl, hrec⟩
  · rcases ran_seq.mp h with ⟨err', rfl, hx⟩ | ⟨live, w₃, hx, -⟩
    · obtain ⟨-, rfl⟩ := ran_settle.mp hx
      exact Or.inl ⟨hc, ⟨err', rfl⟩, hs₂.trans hs₁⟩
    · have hno := (ran_settle.mp hx).1
      rw [hl] at hno
      cases hno
  refine Or.inr ⟨hc, live, hrec, ?_⟩
  rcases ran_seq.mp h with ⟨err', rfl, hx⟩ | ⟨live', w₃, hx, hrest⟩
  · have hno := (ran_settle.mp hx).1
    rw [hl] at hno
    cases hno
  clear h
  obtain ⟨hlive, rfl⟩ := ran_settle.mp hx
  rw [hl] at hlive
  rw [Except.ok.inj hlive] at hrest
  obtain ⟨w₄, hs₄, h⟩ := sturdy_read (q := .listDedup) rfl hrest
  have hstore : w₄.store = w.store := hs₄.trans (hs₂.trans hs₁)
  have hp : (w₃.store.dedup.rows.insertionSort (fun a b => Store.dedupLe a b)).Perm
      w₄.store.dedup.rows := by
    rw [hs₄]
    exact List.perm_insertionSort _ _
  obtain ⟨⟨hst, hfind⟩, keys, hkeys⟩ := passes_ran hp hrec.nodup
    (fun x hx => hrec.valid hread hx) h
  rw [hstore] at hst hkeys
  exact ⟨⟨hst, hfind⟩, keys, hkeys⟩

/-- a database that does not fail answers every program over the store -/
theorem sturdy_runs {α : Type} {p : Prog Cmd Cmd.Reply α} (hp : Only OnStore p) (w : Traced) :
    ∃ a w', Ran (sturdy env t op) p w a w' := by
  induction hp generalizing w with
  | ret a => exact ⟨a, w, .ret⟩
  | call hc _ ih =>
    obtain ⟨so, rfl⟩ := hc
    obtain ⟨x, hx⟩ : ∃ x, sturdy env t op (.store so) {} w = some x := ⟨_, rfl⟩
    obtain ⟨a, w', h⟩ := ih x.1 x.2
    exact ⟨a, w', .call hx h⟩

/-- the table is the count exactly when every lookup is that of the counted entries -/
theorem recounted_iff {s : Store} {live : List DedupEntry} (hrec : Recount s.replicas.rows live) :
    s.Recounted ↔ ∀ k, s.dedup.find? k = lookup live k := by
  have hfind : ∀ x, x ∈ s.dedup ↔ s.dedup.find? x.ref = some x := fun x =>
    ⟨fun hx => Table.find?_of_mem hx, Table.mem_of_find?⟩
  have hlook : ∀ x, x ∈ live ↔ lookup live x.ref = some x := fun x => by
    rw [lookup_eq_some hrec.nodup]
    exact ⟨fun hx => ⟨hx, rfl⟩, And.left⟩
  constructor
  · intro hD k
    have hrows : ∀ x, x ∈ s.dedup ↔ x ∈ live := fun x =>
      ⟨fun hx => hD.mem_iff hrec hx, fun hx => hrec.mem_iff hD hx⟩
    cases hl : lookup live k with
    | none =>
      rw [Table.find?_eq_none]
      exact fun x hx => lookup_eq_none.mp hl x ((hrows x).mp hx)
    | some x =>
      obtain ⟨hx, hk⟩ := (lookup_eq_some hrec.nodup).mp hl
      exact Table.find?_eq_some.mpr ⟨(hrows x).mpr hx, hk⟩
  · intro hk
    have hrows : ∀ x, x ∈ s.dedup.rows ↔ x ∈ live := fun x => by
      rw [hlook, ← hk]
      exact hfind x
    refine ⟨s.dedup.nodup, ?_, ?_, ?_⟩
    · intro r hr
      obtain ⟨x, hx, hxr⟩ := hrec.covers r hr
      exact ⟨x, (hrows x).mpr hx, hxr⟩
    · exact fun x hx => hrec.count x ((hrows x).mp hx)
    · exact fun x hx => hrec.same x ((hrows x).mp hx)

/-- **The repair is exact and all or nothing.**  On a database that does not fail it answers.  It
fails exactly when a replica row has no owner or two rows of one payload disagree, and then it
changes nothing.  Otherwise the dedup table becomes the count of the replica rows and no other
table changes; the report has one note for each key whose row was inserted, changed or removed,
and is empty when the table was exact. -/
theorem repair_exact (env : Env) (t : Tid) (op : Op) (w : Traced) (hread : w.store.Readable) :
    (∃ r w', Ran (sturdy env t op) Coordinator.repairDedupCounts.run w r w') ∧
    ∀ r w', Ran (sturdy env t op) Coordinator.repairDedupCounts.run w r w' →
      (w.store.Conflicting ∧ (∃ err, r = .error err) ∧ w'.store = w.store) ∨
      (¬ w.store.Conflicting ∧ w'.store.Recounted ∧
        w'.store = { w.store with dedup := w'.store.dedup } ∧
        ∃ keys : List (ContentHash × String), keys.Nodup ∧
          (∀ k, k ∈ keys ↔ w.store.dedup.find? k ≠ w'.store.dedup.find? k) ∧
          r = .ok (keys.map fun k =>
            repairNote k (w.store.dedup.find? k) (w'.store.dedup.find? k)) ∧
          (w.store.Recounted → r = .ok [])) := by
  have honly : Only OnStore (Coordinator.repairDedupCounts).run :=
    repairDedupCounts_mild.mono fun c hc => ⟨hc.choose, hc.choose_spec.1⟩
  refine ⟨sturdy_runs honly w, ?_⟩
  intro r w' h
  rcases repairDedupCounts_ran hread h with hbad | ⟨hc, live, hrec, ⟨hst, hfind⟩, keys, hkn, hkm, hr⟩
  · exact Or.inl hbad
  have hreps : w'.store.replicas = w.store.replicas := by rw [hst]
  refine Or.inr ⟨hc, ?_, hst, keys, hkn, ?_, ?_, ?_⟩
  · exact (recounted_iff (by rw [hreps]; exact hrec)).mpr hfind
  · intro k
    rw [hkm, hfind]
  · rw [hr]
    exact congrArg Except.ok (List.map_congr_left fun k _ => by rw [hfind])
  · intro hexact
    have hnil : keys = [] := by
      rw [List.eq_nil_iff_forall_not_mem]
      intro k hk
      exact (hkm k).mp hk ((recounted_iff hrec).mp hexact k)
    rw [hr, hnil]
    rfl

end

namespace Sample

/-- a replica without a dedup row, and a dedup row without a replica -/
def drifted : Traced where
  store := { Store.new with
    objects := ⟨[object 10], List.nodup_singleton _⟩
    replicas := ⟨[⟨uuid 20, uuid 10, 1, ⟨"disk", "k", .hot⟩, 3, ⟨5⟩, 0, none, true, none⟩],
      List.nodup_singleton _⟩
    dedup := ⟨[⟨⟨6⟩, "disk", "stale", 1, 5⟩], List.nodup_singleton _⟩ }
  payloads := fun _ _ => none
  blobs := fun _ _ => none
  proc := Proc.start config 1 (uuid 1)
  issued := []
  log := []

theorem drifted_readable : drifted.store.Readable where
  rows r hr := by
    obtain rfl := List.mem_singleton.mp hr
    rfl
  fits := by decide

theorem drifted_owned : ¬ drifted.store.Conflicting := by
  intro hc
  rcases hc with ⟨r, hr, hno⟩ | ⟨r, hr, r', hr', hd⟩
  · obtain rfl := List.mem_singleton.mp hr
    rcases hno with hno | ⟨o, ho, hst⟩
    · cases hno
    · cases ho
      cases hst
  · rw [List.mem_singleton.mp hr, List.mem_singleton.mp hr'] at hd
    rcases hd.2 with hk | hk <;> exact hk rfl

end Sample

theorem repair_exact_drifted : ∃ r w', Ran (sturdy Sample.env 0 .recover)
    Coordinator.repairDedupCounts.run Sample.drifted r w' ∧ w'.store.Recounted := by
  obtain ⟨⟨r, w', hran⟩, hall⟩ := repair_exact Sample.env 0 .recover Sample.drifted
    Sample.drifted_readable
  refine ⟨r, w', hran, ?_⟩
  rcases hall r w' hran with ⟨hc, -⟩ | ⟨-, hrec, -⟩
  · exact absurd hc Sample.drifted_owned
  · exact hrec

end ReclaimFabric
