import ReclaimFabric.Protocol.Physical
import ReclaimFabric.Protocol.Schedule
import ReclaimFabric.Model.Recovery

/-!
# What the journal lists

Recovery reads back what reclaim has written, and refuses a payload whose lists do not belong to
the entry.  So a run keeps track of where the listed rows come from.

* `Drafted`              a payload as reclaim has written it, with the reservation of the attempt;
* `Journaled`            the rows a payload may list, and the payloads there are;
* `Guar.journaled`       one step keeps it;
* `Drafted.readable_iff` what recovery makes of such a payload.
-/

set_option linter.unusedSectionVars false

namespace ReclaimFabric

variable {env : Env} {m : Regime} {b : Bool} {t : Tid} {op : Op} {w w' : Traced}
  {j j' : JournalEntry} {S : Snapshot} {plan : Option (List Replica)} {L L' : List Event}
  {s s' : Sys}

/-! ## payloads -/

/-- the row says which blob it is about -/
structure ArchiveRecord.Named (a : ArchiveRecord) : Prop where
  archiveId : a.archiveId ≠ ""
  backend : a.backend ≠ ""
  key : a.key ≠ ""

/-- the replica rows of the object carry the generation of its row -/
def Uniform (X : Uuid) (w : World) : Prop :=
  ∀ o, w.store.objects.find? X = some o → ∀ r ∈ w.store.replicas, r.objectId = X →
    r.generation = o.generation

/-- the reservation of the attempt of `j`, made in `before` -/
def Event.Reserved (j : JournalEntry) (before : World) (e : Event) : Prop :=
  ∃ t req j₀ r a,
    e = .call t (.reclaim req) (.store (.createReclaimReservation j₀ r a)) (.ok ()) before ∧
      j₀.attemptId = j.attemptId ∧ j₀.objectId = j.objectId

/-- a payload as reclaim has written it -/
structure Drafted (j : JournalEntry) (S : Snapshot) (plan : Option (List Replica))
    (L : List Event) : Prop where
  payload : j.payload = payloadOf S plan
  dels : ∀ d ∈ S.dels, d.Located
  delsNodup : (S.dels.map Replica.replicaId).Nodup
  archs : ∀ a ∈ S.archs, a.generation = j.generation ∧ a.Named
  archsNodup : (S.archs.map ArchiveRecord.archiveId).Nodup
  planNodup : ∀ p, plan = some p → (p.map Replica.replicaId).Nodup
  reserved : ∃ e ∈ L, ∃ before, e.Reserved j before ∧
    ((∀ d ∈ S.dels, d.generation = j.generation) ↔ Uniform j.objectId before)

theorem Drafted.grown (h : Drafted j S plan L) (hL : ∃ l, L' = l ++ L) : Drafted j S plan L' where
  payload := h.payload
  dels := h.dels
  delsNodup := h.delsNodup
  archs := h.archs
  archsNodup := h.archsNodup
  planNodup := h.planNodup
  reserved := by
    obtain ⟨e, he, hr⟩ := h.reserved
    obtain ⟨l, rfl⟩ := hL
    exact ⟨e, List.mem_append_right _ he, hr⟩

/-- a later version of the row, with the same snapshot -/
theorem Drafted.of_row {plan' : Option (List Replica)} (h : Drafted j S plan L)
    (ha : j'.attemptId = j.attemptId) (hX : j'.objectId = j.objectId)
    (hg : j'.generation = j.generation) (hp : j'.payload = payloadOf S plan')
    (hnodup : ∀ p, plan' = some p → (p.map Replica.replicaId).Nodup) :
    Drafted j' S plan' L where
  payload := hp
  dels := h.dels
  delsNodup := h.delsNodup
  archs := by
    rw [hg]
    exact h.archs
  archsNodup := h.archsNodup
  planNodup := hnodup
  reserved := by
    obtain ⟨e, he, before, ⟨t, req, j₀, r, a, heq, hatt, hobj⟩, hiff⟩ := h.reserved
    refine ⟨e, he, before, ⟨t, req, j₀, r, a, heq, hatt.trans ha.symm, hobj.trans hX.symm⟩, ?_⟩
    rw [hg, hX]
    exact hiff

/-! ## parts of rows that stay -/

theorem immut_generation {o o' : ReclaimObject} (h : o'.immut = o.immut) :
    o'.generation = o.generation := by
  have := congrArg ReclaimObject.generation h
  exact this

theorem Replica.generation_of_desc {r r' : Replica} (h : r'.desc = r.desc) :
    r'.generation = r.generation := by
  have := congrArg Replica.generation h
  exact this

theorem Replica.location_of_desc {r r' : Replica} (h : r'.desc = r.desc) :
    r'.location = r.location := by
  have := congrArg Replica.location h
  exact this

theorem Replica.located_of_desc {r r' : Replica} (h : r'.desc = r.desc) (hr : r.Located) :
    r'.Located := by
  rw [Replica.Located, location_of_desc h]
  exact hr

/-! ## the invariant -/

structure Journaled (w : Traced) : Prop where
  config : ∀ a ∈ w.proc.config.archives, a.id ≠ ""
  replicas : ∀ r ∈ w.store.replicas, r.Located
  archives : ∀ a ∈ w.store.archives, a.Named ∧
    ∃ o, rowOf w a.objectId = some o ∧ o.generation = a.generation
  journal : ∀ j ∈ w.store.journal, ∃ S plan, Drafted j S plan w.log

theorem Journaled.draft (h : Journaled w) (hj : j ∈ w.store.journal)
    (hp : j.payload = payloadOf S plan) : Drafted j S plan w.log := by
  obtain ⟨S', plan', hd⟩ := h.journal j hj
  obtain ⟨rfl, rfl⟩ := payloadOf_inj (hp.symm.trans hd.payload)
  exact hd

/-- what has to be checked of a step -/
theorem Journaled.step (h : Journaled w) (hconf : ∀ a ∈ w'.proc.config.archives, a.id ≠ "")
    (hlog : ∃ l, w'.log = l ++ w.log)
    (hrows : ∀ X o, rowOf w X = some o → ∃ o', rowOf w' X = some o' ∧ o'.immut = o.immut)
    (hreps : ∀ r ∈ w'.store.replicas, r ∈ w.store.replicas ∨ r.Located)
    (harch : ∀ a ∈ w'.store.archives, a ∈ w.store.archives ∨
      a.Named ∧ ∃ o, rowOf w a.objectId = some o ∧ o.generation = a.generation)
    (hjou : ∀ j ∈ w'.store.journal, j ∈ w.store.journal ∨ ∃ S plan, Drafted j S plan w'.log) :
    Journaled w' where
  config := hconf
  replicas := fun r hr => (hreps r hr).elim (h.replicas r) id
  archives := fun a ha => by
    obtain ⟨hn, o, ho, hg⟩ := (harch a ha).elim (h.archives a) id
    obtain ⟨o', ho', himm⟩ := hrows _ o ho
    exact ⟨hn, o', ho', (immut_generation himm).trans hg⟩
  journal := fun j hj => by
    rcases hjou j hj with hold | hnew
    · obtain ⟨S, plan, hd⟩ := h.journal j hold
      exact ⟨S, plan, hd.grown hlog⟩
    · exact hnew

/-- a step that leaves these tables alone -/
theorem Journaled.of_tables (h : Journaled w) (hconf : ∀ a ∈ w'.proc.config.archives, a.id ≠ "")
    (hlog : ∃ l, w'.log = l ++ w.log) (hobj : w'.store.objects = w.store.objects)
    (hrep : w'.store.replicas = w.store.replicas) (harch : w'.store.archives = w.store.archives)
    (hjou : w'.store.journal = w.store.journal) : Journaled w' := by
  refine h.step hconf hlog (fun X o ho => ⟨o, ?_, rfl⟩) (fun r hr => .inl ?_)
    (fun a ha => .inl ?_) fun j hj => .inl ?_
  · rw [rowOf, hobj]
    exact ho
  · rw [← hrep]
    exact hr
  · rw [← harch]
    exact ha
  · rw [← hjou]
    exact hj

theorem Journaled.of_data (h : Journaled w) (hconf : ∀ a ∈ w'.proc.config.archives, a.id ≠ "")
    (hlog : ∃ l, w'.log = l ++ w.log) (hd : w'.store.data = w.store.data) : Journaled w' :=
  h.of_tables hconf hlog (congrArg Data.objects hd) (congrArg Data.replicas hd)
    (congrArg Data.archives hd) (congrArg Data.journal hd)

theorem ArchiveKeyOf.ne_empty {X : Uuid} {k : String} (h : ArchiveKeyOf X k) : k ≠ "" := by
  obtain ⟨gen, rid, rfl⟩ := h
  obtain ⟨l, hl⟩ := toList_archiveKey X gen rid
  intro he
  rw [he] at hl
  have hlen := congrArg List.length hl
  rw [List.length_append, Uuid.chars_length, String.toList_empty, List.length_nil] at hlen
  omega

theorem ReplicaJust.located {old r : Option Replica} {x : Replica}
    (h : ReplicaJust env m t w old r) (hx : r = some x) (hw : Journaled w)
    (hold : ∀ y, old = some y → y ∈ w.store.replicas) : x.Located := by
  subst hx
  cases h with
  | add _ _ _ _ hl => exact hl
  | @update y _ _ hd _ => exact Replica.located_of_desc hd (hw.replicas y (hold y rfl))
  | putBack _ hj _ hp hr _ _ => exact (hw.draft hj hp).dels _ hr

theorem ArchiveJust.filed {old new : Option ArchiveRecord} {x : ArchiveRecord}
    (h : ArchiveJust m t w old new) (hx : new = some x) (hi : Inv env m b w)
    (hw : Journaled w) :
    x.Named ∧ ∃ o, rowOf w x.objectId = some o ∧ o.generation = x.generation := by
  subst hx
  cases h with
  | add _ ho _ hk _ hg hid hc =>
    obtain ⟨a, ha, hb⟩ := hc
    exact ⟨⟨hid, hb ▸ hw.config a ha, hk.ne_empty⟩, _, ho, hg.symm⟩
  | putBack _ hj _ hp hx hX _ =>
    obtain ⟨hgen, hn⟩ := (hw.draft hj hp).archs _ hx
    have hrec := hi.records hj hp
    obtain ⟨o, ho, himm⟩ := hrec.row
    refine ⟨hn, o, by rw [hX]; exact ho, ?_⟩
    rw [hgen, ← hrec.generation]
    exact immut_generation himm

/-- the payload of a new reservation -/
theorem ReserveJust.drafted {r : Reservation} {a : Attempt}
    (h : ReserveJust env m t op w j r a S) (hw : Journaled w) (he : ∃ e ∈ L,
      e = .call t op (.store (.createReclaimReservation j r a)) (.ok ()) w.toWorld) :
    Drafted j S none L where
  payload := h.payload
  dels := fun d hd => by
    obtain ⟨x, hx, hdesc⟩ := h.listed d hd
    exact Replica.located_of_desc hdesc.symm (hw.replicas x hx)
  delsNodup := h.delsNodup
  archs := fun x hx => by
    obtain ⟨hn, o, ho, hg⟩ := hw.archives x (h.filed x hx)
    rw [(h.archs x hx).1, h.row] at ho
    cases ho
    exact ⟨hg.symm.trans h.generation.symm, hn⟩
  archsNodup := h.archsNodup
  planNodup := nofun
  reserved := by
    obtain ⟨e, hmem, rfl⟩ := he
    obtain ⟨req, rfl⟩ := h.reclaim
    refine ⟨_, hmem, w.toWorld, ⟨t, req, j, r, a, rfl, rfl, rfl⟩, ?_⟩
    constructor
    · intro hgen o ho x hx hX
      obtain ⟨d, hd, hdesc⟩ := h.covers x hx hX
      have hrow : some S.prior = some o := h.row.symm.trans ho
      cases hrow
      exact (Replica.generation_of_desc hdesc).symm.trans ((hgen d hd).trans h.generation)
    · intro hu d hd
      obtain ⟨x, hx, hdesc⟩ := h.listed d hd
      have hX : x.objectId = j.objectId := (Replica.object_of_desc hdesc).trans (h.dels d hd).1
      exact (Replica.generation_of_desc hdesc).symm.trans
        ((hu _ h.row x hx hX).trans h.generation.symm)

/-- a later version of a journal row -/
theorem JournalJust.drafted (h : JournalJust t w j j') (hd : Drafted j S plan L)
    (ha : j'.attemptId = j.attemptId) (hX : j'.objectId = j.objectId)
    (hg : j'.generation = j.generation) : ∃ S plan, Drafted j' S plan L := by
  have hkept (hp : j'.payload = j.payload) : ∃ S plan, Drafted j' S plan L :=
    ⟨S, plan, hd.of_row ha hX hg (hp.trans hd.payload) hd.planNodup⟩
  cases h with
  | validate _ _ _ hp => exact hkept hp
  | @start S' p _ _ _ hp hp' _ _ _ _ hnodup =>
    obtain ⟨rfl, rfl⟩ := payloadOf_inj (hp.symm.trans hd.payload)
    refine ⟨S', some p, hd.of_row ha hX hg hp' ?_⟩
    rintro _ ⟨⟩
    exact hnodup
  | done _ _ _ hp => exact hkept hp
  | close _ _ _ hp => exact hkept hp

/-- **One step.** -/
theorem Guar.journaled (h : Guar env m b t op w w') (hi : Inv env m b w) (hw : Journaled w) :
    Journaled w' := by
  have hconf : ∀ a ∈ w'.proc.config.archives, a.id ≠ "" := by
    rw [h.config]
    exact hw.config
  have hlog := h.grown
  have hsame (hobj : w'.store.objects = w.store.objects) (X : Uuid) (o : ReclaimObject)
      (ho : rowOf w X = some o) : ∃ o', rowOf w' X = some o' ∧ o'.immut = o.immut :=
    ⟨o, by rw [rowOf, hobj]; exact ho, rfl⟩
  cases h with
  | quiet hq => exact hw.of_data hconf hlog hq.data
  | acquire _ _ _ hs => exact hw.of_data hconf hlog (congrArg Store.data hs)
  | acquireKeys _ _ _ _ hs => exact hw.of_data hconf hlog (congrArg Store.data hs)
  | dropKeys _ _ hs => exact hw.of_data hconf hlog (congrArg Store.data hs)
  | acquireRecovery _ _ _ _ hs => exact hw.of_data hconf hlog (congrArg Store.data hs)
  | @row X o' T hst hd hfind _ _ hj =>
    have hrow : ∀ Y, rowOf w' Y = if Y = X then some o' else rowOf w Y := fun Y => by
      rw [rowOf, show w'.store.objects = T from congrArg Data.objects hd]
      exact hfind Y
    refine hw.step hconf hlog (fun Y o ho => ?_) (fun r hr => .inl ?_) (fun a ha => .inl ?_)
      fun j hj => .inl ?_
    · rw [hrow]
      by_cases hY : Y = X
      · subst hY
        exact ⟨o', if_pos rfl, hj.immut hi ho⟩
      · exact ⟨o, by rw [if_neg hY]; exact ho, rfl⟩
    · rwa [show w'.store.replicas = w.store.replicas from congrArg Data.replicas hd] at hr
    · rwa [show w'.store.archives = w.store.archives from congrArg Data.archives hd] at ha
    · rwa [show w'.store.journal = w.store.journal from congrArg Data.journal hd] at hj
  | @replica id old new T _ hd hswap hj =>
    refine hw.step hconf hlog (hsame (congrArg Data.objects hd)) (fun r hr => ?_)
      (fun a ha => .inl ?_) fun j hj => .inl ?_
    · rw [show w'.store.replicas = T from congrArg Data.replicas hd] at hr
      rcases (hswap.2.2.2.2 r).mp hr with hold | hnew
      · exact .inl hold.1
      · exact .inr (hj.located hnew hw hswap.1)
    · rwa [show w'.store.archives = w.store.archives from congrArg Data.archives hd] at ha
    · rwa [show w'.store.journal = w.store.journal from congrArg Data.journal hd] at hj
  | @archive id old new T _ hd hswap hj =>
    refine hw.step hconf hlog (hsame (congrArg Data.objects hd)) (fun r hr => .inl ?_)
      (fun a ha => ?_) fun j hj => .inl ?_
    · rwa [show w'.store.replicas = w.store.replicas from congrArg Data.replicas hd] at hr
    · rw [show w'.store.archives = T from congrArg Data.archives hd] at ha
      rcases (hswap.2.2.2.2 a).mp ha with hold | hnew
      · exact .inl hold.1
      · exact .inr (hj.filed hnew hi hw)
    · rwa [show w'.store.journal = w.store.journal from congrArg Data.journal hd] at hj
  | dedup _ hd =>
    exact hw.of_tables hconf hlog (congrArg Data.objects hd) (congrArg Data.replicas hd)
      (congrArg Data.archives hd) (congrArg Data.journal hd)
  | lineage _ hd =>
    exact hw.of_tables hconf hlog (congrArg Data.objects hd) (congrArg Data.replicas hd)
      (congrArg Data.archives hd) (congrArg Data.journal hd)
  | @reserve j r a S J V A _ hd hswap _ _ he hj =>
    refine hw.step hconf hlog (hsame (congrArg Data.objects hd)) (fun r hr => .inl ?_)
      (fun a ha => .inl ?_) fun x hx => ?_
    · rwa [show w'.store.replicas = w.store.replicas from congrArg Data.replicas hd] at hr
    · rwa [show w'.store.archives = w.store.archives from congrArg Data.archives hd] at ha
    · rw [show w'.store.journal = J from congrArg Data.journal hd] at hx
      rcases (hswap.2.2.2.2 x).mp hx with hold | hnew
      · exact .inl hold.1
      · cases hnew
        exact .inr ⟨S, none, hj.drafted hw ⟨_, by rw [he]; exact List.mem_cons_self, rfl⟩⟩
  | @journal j j' T _ hd hswap hX hg _ hj =>
    refine hw.step hconf hlog (hsame (congrArg Data.objects hd)) (fun r hr => .inl ?_)
      (fun a ha => .inl ?_) fun x hx => ?_
    · rwa [show w'.store.replicas = w.store.replicas from congrArg Data.replicas hd] at hr
    · rwa [show w'.store.archives = w.store.archives from congrArg Data.archives hd] at ha
    · rw [show w'.store.journal = T from congrArg Data.journal hd] at hx
      rcases (hswap.2.2.2.2 x).mp hx with hold | hnew
      · exact .inl hold.1
      · cases hnew
        obtain ⟨S, plan, hdraft⟩ := hw.journal j (hswap.1 j rfl)
        exact .inr (hj.drafted (hdraft.grown hlog) (hswap.2.2.2.1 _ rfl) hX hg)
  | attempt _ hd =>
    exact hw.of_tables hconf hlog (congrArg Data.objects hd) (congrArg Data.replicas hd)
      (congrArg Data.archives hd) (congrArg Data.journal hd)
  | reservations _ hd =>
    exact hw.of_tables hconf hlog (congrArg Data.objects hd) (congrArg Data.replicas hd)
      (congrArg Data.archives hd) (congrArg Data.journal hd)
  | payload _ _ hs => exact hw.of_data hconf hlog (congrArg Store.data hs)
  | blob _ _ _ hs => exact hw.of_data hconf hlog (congrArg Store.data hs)

theorem Last.journaled {r : Res op.Out} (h : Last env m b t op r w w') (hi : Inv env m b w)
    (hw : Journaled w) : Journaled w' := by
  cases h with
  | plain hg _ _ _ => exact hg.journaled hi hw
  | release _ _ _ _ _ hs _ _ hp hl =>
    obtain ⟨e, -, he⟩ := hl
    exact hw.of_data (by rw [hp]; exact hw.config) ⟨[e], he⟩ (congrArg Store.data hs)
  | recovered _ _ hs _ _ hp hl =>
    obtain ⟨e, -, he⟩ := hl
    exact hw.of_data (by rw [hp]; exact hw.config) ⟨[e], he⟩ (congrArg Store.data hs)

theorem Journaled.returned {r : Res op.Out} (h : Journaled w) : Journaled (w.returned t op r) :=
  h.of_data h.config ⟨[_], rfl⟩ rfl

/-! ## reading -/

theorem checkReplicas_iff {rs : List Replica} {seen : List Uuid} :
    checkReplicas j rs seen = .ok () ↔
      (∀ r ∈ rs, r.objectId = j.objectId ∧ r.generation = j.generation ∧ r.Located) ∧
        (rs.map Replica.replicaId).Nodup ∧ ∀ r ∈ rs, r.replicaId ∉ seen := by
  induction rs generalizing seen with
  | nil => simp [checkReplicas]
  | cons r rs ih =>
    rw [checkReplicas]
    by_cases hid : r.objectId ≠ j.objectId ∨ r.generation ≠ j.generation
    · rw [if_pos hid]
      refine iff_of_false (by simp) fun h => ?_
      obtain ⟨hX, hg, -⟩ := h.1 r List.mem_cons_self
      exact hid.elim (absurd hX) (absurd hg)
    rw [if_neg hid]
    rw [not_or, not_not, not_not] at hid
    by_cases hseen : r.replicaId ∈ seen
    · rw [if_pos hseen]
      exact iff_of_false (by simp) fun h => h.2.2 r List.mem_cons_self hseen
    rw [if_neg hseen]
    by_cases hloc : r.location.backend = "" ∨ r.location.key = ""
    · rw [if_pos hloc]
      refine iff_of_false (by simp) fun h => ?_
      obtain ⟨-, -, hb, hk⟩ := h.1 r List.mem_cons_self
      exact hloc.elim (absurd · hb) (absurd · hk)
    rw [if_neg hloc, ih, List.map_cons, List.nodup_cons]
    rw [not_or] at hloc
    constructor
    · rintro ⟨hall, hnodup, hns⟩
      refine ⟨?_, ⟨?_, hnodup⟩, ?_⟩
      · intro x hx
        rcases List.mem_cons.mp hx with rfl | hx
        · exact ⟨hid.1, hid.2, hloc.1, hloc.2⟩
        · exact hall x hx
      · intro hmem
        obtain ⟨x, hx, he⟩ := List.mem_map.mp hmem
        exact hns x hx (he ▸ List.mem_cons_self)
      · intro x hx
        rcases List.mem_cons.mp hx with rfl | hx
        · exact hseen
        · exact fun hm => hns x hx (List.mem_cons_of_mem _ hm)
    · rintro ⟨hall, ⟨hnot, hnodup⟩, hns⟩
      refine ⟨fun x hx => hall x (List.mem_cons_of_mem _ hx), hnodup, ?_⟩
      intro x hx hm
      rcases List.mem_cons.mp hm with he | hm
      · exact hnot (he ▸ List.mem_map_of_mem hx)
      · exact hns x (List.mem_cons_of_mem _ hx) hm

theorem checkArchives_ok_of {as : List ArchiveRecord} {seen : List String}
    (hall : ∀ a ∈ as, a.objectId = j.objectId ∧ a.generation = j.generation ∧ a.Named)
    (hnodup : (as.map ArchiveRecord.archiveId).Nodup) (hseen : ∀ a ∈ as, a.archiveId ∉ seen) :
    checkArchives j as seen = .ok () := by
  induction as generalizing seen with
  | nil => rfl
  | cons a as ih =>
    obtain ⟨hX, hg, hid, hb, hk⟩ := hall a List.mem_cons_self
    rw [List.map_cons, List.nodup_cons] at hnodup
    rw [checkArchives, if_neg (by simp [hX, hg]), if_neg (hseen a List.mem_cons_self),
      if_neg (by simp [hid, hb, hk])]
    refine ih (fun x hx => hall x (List.mem_cons_of_mem _ hx)) hnodup.2 fun x hx hm => ?_
    rcases List.mem_cons.mp hm with he | hm
    · exact hnodup.1 (he ▸ List.mem_map_of_mem hx)
    · exact hseen x (List.mem_cons_of_mem _ hx) hm

theorem compatible_payloadOf : (payloadOf S plan).compatible = payloadOf S plan := rfl

/-- **Recovery accepts the payload exactly when the listed replicas carry the generation.** -/
theorem Drafted.readable_iff (h : Drafted j S plan L) (hr : Records m j S plan w) :
    (∃ p, Coordinator.entryPayload j = .ok p) ↔ ∀ d ∈ S.dels, d.generation = j.generation := by
  have hparse : parseJournalPayload (if j.phase = .reserved ∨ j.phase = .validated then
      j.payload.compatible else j.payload) = .ok ⟨S.prior, S.dels, plan, S.archs⟩ := by
    rw [h.payload, compatible_payloadOf, ite_self]
    exact parseJournalPayload_payloadOf hr.prior.row.valid
  have harch : checkArchives j S.archs [] = .ok () := by
    refine checkArchives_ok_of (fun a ha => ?_) h.archsNodup fun _ _ => List.not_mem_nil
    exact ⟨(hr.archs a ha).1, h.archs a ha⟩
  have hplan (p : List Replica) (hp : plan = some p) :
      validatePhysicalSubset S.dels p [] = .ok () :=
    validatePhysicalSubset_total (hr.planned p hp) (h.planNodup p hp) fun _ _ => List.not_mem_nil
  have hident : validatePayloadIdentity j ⟨S.prior, S.dels, plan, S.archs⟩ =
      checkReplicas j S.dels [] := by
    have hid : ¬(S.prior.id ≠ j.objectId ∨ S.prior.generation ≠ j.generation) := by
      rw [not_or, not_not, not_not]
      exact ⟨hr.object, hr.generation⟩
    simp only [validatePayloadIdentity, if_neg hid, bind, Except.bind]
    cases hc : checkReplicas j S.dels [] with
    | error e => rfl
    | ok u =>
      cases hp : plan with
      | none => exact harch
      | some p =>
        simp only [hplan p hp]
        exact harch
  have hbefore : ¬((j.phase = .reserved ∨ j.phase = .validated) ∧ plan.isSome = true) := by
    rintro ⟨hph, hsome⟩
    have hnone : plan = none := by
      refine hr.before ?_ ?_ <;> rcases hph with hph | hph <;> rw [hph] <;> rfl
    rw [hnone] at hsome
    cases hsome
  have hafter : ¬((j.phase = .physicalStarted ∨ j.phase = .physicalDone) ∧
      plan.isNone = true) := by
    rintro ⟨hph, hnone⟩
    have hsome : plan.isSome = true := by
      refine hr.started ?_
      rcases hph with hph | hph <;> rw [hph] <;> rfl
    rw [Option.isNone_iff_eq_none.mp hnone] at hsome
    cases hsome
  have hentry : Coordinator.entryPayload j =
      (checkReplicas j S.dels []).map fun _ => ⟨S.prior, S.dels, plan, S.archs⟩ := by
    simp only [Coordinator.entryPayload, hparse, hident, bind, Except.bind, pure, Except.pure]
    cases checkReplicas j S.dels [] with
    | error e => rfl
    | ok u => simp only [if_neg hbefore, if_neg hafter, Except.map]
  rw [hentry]
  cases hc : checkReplicas j S.dels [] with
  | ok u =>
    have hall := (checkReplicas_iff.mp hc).1
    exact ⟨fun _ d hd => (hall d hd).2.1, fun _ => ⟨_, rfl⟩⟩
  | error e =>
    refine iff_of_false (by simp [Except.map]) fun hgen => ?_
    have hok : checkReplicas j S.dels [] = .ok () := by
      refine checkReplicas_iff.mpr ⟨fun d hd => ?_, h.delsNodup, fun _ _ => List.not_mem_nil⟩
      exact ⟨hr.dels d hd, hgen d hd, h.dels d hd⟩
    rw [hok] at hc
    cases hc

end ReclaimFabric
