import ReclaimFabric.Protocol.Discipline

/-!
# The steps of an operation on one object

An operation other than reclaim holds its object, at times some payloads, and knows a few rows.
`Tending f` is what it knows; `f` lists the payloads it holds, the row of the object it started
from, replica and archive rows that are there, and payload keys whose content is known.

There is one rule for every store method and every payload or blob access of these operations:
the step is in the guarantee and what is known afterwards is `Tending` again.
-/

set_option linter.unusedSectionVars false

namespace ReclaimFabric

/-- the row an operation starts from -/
inductive Base where
  | unknown
  | absent
  | row (o : ReclaimObject)

/-- what an operation knows about the object it holds -/
structure Tend where
  keys : List (String × ContentHash)
  /-- the payloads are not planned by a reclaim that has committed -/
  clear : Bool
  base : Base
  rows : List Replica
  archs : List ArchiveRecord
  names : List (String × ContentHash)

/-- the row is the one the operation has found or written -/
def Tends : Base → Option ReclaimObject → Prop
  | .unknown, _ => True
  | .absent, r => r = none
  | .row o, r => r = some o ∧ Tiered o.lifecycleState

/-- the replica row is there, up to the outcome of its verification -/
def Present (r : Replica) (w : Traced) : Prop := ∃ r' ∈ w.store.replicas, r'.desc = r.desc

section
variable (env : Env) (m : Regime)

structure Tending (t : Tid) (X : Uuid) (f : Tend) (w : Traced) : Prop where
  held : Held t X f.keys w
  settled : Settled m X w
  fine : Fine m X w
  row : Tends f.base (rowOf w X)
  ghosts : f.clear = true → f.base ≠ .unknown → m.honest = true → ∀ k ∈ f.keys, NoGhost k w
  rows : ∀ r ∈ f.rows, (r.objectId = X ∨ r.slot ∈ f.keys) ∧ Present r w
  archs : ∀ a ∈ f.archs, a.objectId = X ∧ a ∈ w.store.archives
  names : m.honest = true → ∀ n ∈ f.names, Named env m.bytes w n.1 n.2

end

variable {env : Env} {m : Regime} {b : Bool} {t : Tid} {op : Op} {X : Uuid} {f : Tend}
  {w w' : Traced} {l : Bool}

namespace Tending

theorem own (h : Tending env m t X f w) : Own t X w := h.held.mine

theorem stable : Stable env m t (Tending env m t X f) :=
  fun w w' hk h =>
    { held := stable_held w w' hk h.held
      settled := h.settled.keep hk h.own
      fine := h.fine.congr (hk.sameAt h.own) hk.config
      row := by rw [hk.row X h.own]; exact h.row
      ghosts := fun hc hb hm k hmem =>
        hk.ghosts hm k ((h.held.pay k).mpr hmem) (h.ghosts hc hb hm k hmem)
      rows := fun r hr => by
        obtain ⟨hX, r', hr', hd⟩ := h.rows r hr
        refine ⟨hX, ?_⟩
        rcases hX with hX | hslot
        · have hX' : r'.objectId = X := (Replica.object_of_desc hd).trans hX
          obtain ⟨r'', hr'', hd'⟩ := (hk.replicas X h.own).forth r' hr' hX'
          exact ⟨r'', hr'', hd'.trans hd⟩
        · have hpay : Pay t r.slot w := (h.held.pay _).mpr hslot
          exact ⟨r', (hk.slots _ hpay r' (Replica.slot_of_desc hd)).mpr hr', hd⟩
      archs := fun a ha => by
        obtain ⟨hX, ham⟩ := h.archs a ha
        exact ⟨hX, (hk.archives X h.own a hX).mpr ham⟩
      names := fun hm n hn => hk.named (h.names hm n hn) }

theorem firm : (party env m b t op).Firm (Tending env m t X f) := stable.firm

/-- forget some of what is known -/
theorem weaken {f' : Tend} (h : Tending env m t X f w) (hk : f'.keys = f.keys)
    (hc : f'.clear = true → f.clear = true) (hb : f'.base = f.base)
    (hr : ∀ r ∈ f'.rows, r ∈ f.rows) (ha : ∀ a ∈ f'.archs, a ∈ f.archs)
    (hn : ∀ n ∈ f'.names, n ∈ f.names) : Tending env m t X f' w where
  held := by rw [hk]; exact h.held
  settled := h.settled
  fine := h.fine
  row := by rw [hb]; exact h.row
  ghosts := fun hcl hbase hm => by rw [hk]; exact h.ghosts (hc hcl) (hb ▸ hbase) hm
  rows := fun r hr' => by rw [hk]; exact h.rows r (hr r hr')
  archs := fun a ha' => h.archs a (ha a ha')
  names := fun hm n hn' => h.names hm n (hn n hn')

/-- a reclaim of the object is not in a physical phase -/
theorem noPhysical (h : Tending env m t X f w) (hbase : f.base ≠ .unknown)
    (hm : m.honest = true) : NoPhysical X w := by
  intro j hj hX
  cases hph : j.phase.physical with
  | false => rfl
  | true =>
    obtain ⟨⟨o, ho, hs⟩, _⟩ := (h.fine.parked hm j hj hX
      (JournalPhase.isOpen_of_physical hph)).physical hph
    have hrow := h.row
    rw [← hX, ho] at hrow
    cases hb : f.base with
    | unknown => exact absurd hb hbase
    | absent => rw [hb] at hrow; cases hrow
    | row o₀ =>
      rw [hb] at hrow
      obtain ⟨he, ht⟩ := hrow
      cases he
      rw [Tiered, hs] at ht
      simp at ht

theorem tiered (h : Tending env m t X f w) (hbase : f.base ≠ .unknown) :
    rowOf w X = none ∨ ∃ o, rowOf w X = some o ∧ Tiered o.lifecycleState := by
  have hrow := h.row
  cases hb : f.base with
  | unknown => exact absurd hb hbase
  | absent => rw [hb] at hrow; exact .inl hrow
  | row o =>
    rw [hb] at hrow
    exact .inr ⟨o, hrow⟩

/-- the row is not RECLAIMED -/
theorem notReclaimed (h : Tending env m t X f w) (hbase : f.base ≠ .unknown) :
    ∀ o, rowOf w X = some o → o.lifecycleState ≠ .reclaimed := by
  intro o ho hs
  rcases h.tiered hbase with hn | ⟨o', ho', ht⟩
  · rw [hn] at ho
    cases ho
  · rw [ho] at ho'
    cases ho'
    rw [Tiered, hs] at ht
    simp at ht

/-- with the authority check: no committed reclaim has planned a payload the thread holds -/
theorem clear (h : Tending env m t X f w) (hi : Inv env m b w) (hb : b = true)
    (hl : w.proc.authorityLost = false) : Tending env m t X { f with clear := true } w where
  held := h.held
  settled := h.settled
  fine := h.fine
  row := h.row
  ghosts := fun _ hbase hm k hk j hj hopen o ho hs S plan hp r hr he => by
    have hpay : Pay t k w := (h.held.pay k).mpr hk
    have hnone : w.proc.activeRecovery = none := by
      cases hr : w.proc.activeRecovery with
      | none => rfl
      | some u => exact absurd hr (hi.pay_not_recovering (u := u) hpay)
    have hnl : ¬Lost w := by rw [Lost, hl]; simp
    obtain ⟨u, hu, hpu⟩ := (hi.truthful hm).guarded hb hnone hnl j hj hopen o ho hs
    have hut : u = t := hi.pay k t u hpay (he ▸ hpu S plan hp r hr)
    subst hut
    exact h.notReclaimed hbase o (((h.held.own _).mp hu) ▸ ho) hs
  rows := h.rows
  archs := h.archs
  names := h.names

end Tending

/-! ## steps of the thread that leave the object row alone -/

theorem Still.held {ks : List (String × ContentHash)} (h : Still w w') (hh : Held t X ks w) :
    Held t X ks w' where
  own := fun Y => by rw [Own, h.activeObjects]; exact hh.own Y
  pay := fun k => by rw [Pay, h.activePayloads]; exact hh.pay k
  recovering := by rw [Recovering, h.activeRecovery]; exact hh.recovering

theorem Settled.of_same (h : Still w w') (hsame : SameAt X w w') (hs : Settled m X w) :
    Settled m X w' where
  fine := hs.fine.imp h.authorityLost fun hf => hf.congr hsame h.config
  acked := fun hm => (hs.acked hm).congr hsame.row (h.acknowledged X)
  untouched := fun hm j hj hjX hopen =>
    (hs.untouched hm j ((hsame.journal j hjX).mp hj) hjX hopen).mono h.log

/-- where no reclaim is in a physical phase the object row is not looked at -/
theorem Fine.of_noPhysical (h : Fine m X w) (hn : m.honest = true → NoPhysical X w)
    (hjou : w'.store.journal = w.store.journal) (hatt : w'.store.attempts = w.store.attempts)
    (hres : w'.store.reservations = w.store.reservations) : Fine m X w' where
  resolved := fun hm j hj => by
    rw [hjou] at hj
    exact h.resolved hm j hj
  parked := fun hm j hj hjX hopen => by
    rw [hjou] at hj
    have hp := h.parked hm j hj hjX hopen
    refine ⟨?_, ?_, ?_⟩
    · rw [ReservationOpen, hres]
      exact hp.reserved
    · rw [AttemptOpen, hatt]
      exact hp.attempted
    · intro hph
      rw [hn hm j hj hjX] at hph
      cases hph

/-- a step that changes replicas, archives or dedup rows -/
theorem Tending.of_metadata {f' : Tend} (h : Tending env m t X f w) (hs : Still w w')
    (hobj : w'.store.objects = w.store.objects) (hjou : w'.store.journal = w.store.journal)
    (hatt : w'.store.attempts = w.store.attempts)
    (hres : w'.store.reservations = w.store.reservations) (hk : f'.keys = f.keys)
    (hc : f'.clear = f.clear) (hb : f'.base = f.base)
    (hrows : ∀ r ∈ f'.rows, (r.objectId = X ∨ r.slot ∈ f'.keys) ∧ Present r w')
    (harchs : ∀ a ∈ f'.archs, a.objectId = X ∧ a ∈ w'.store.archives)
    (hn : f'.names = f.names) : Tending env m t X f' w' := by
  have hrow : ∀ Y, rowOf w' Y = rowOf w Y := fun Y => by rw [rowOf, rowOf, hobj]
  have hsame : SameAt X w w' :=
    ⟨hrow X, fun j _ => by rw [hjou], fun a _ => by rw [hatt], fun r _ => by rw [hres]⟩
  exact
    { held := by rw [hk]; exact hs.held h.held
      settled := h.settled.of_same hs hsame
      fine := h.fine.congr hsame hs.config
      row := by rw [hrow, hb]; exact h.row
      ghosts := fun hcl hbase hm k hmem => by
        rw [hc] at hcl
        rw [hb] at hbase
        rw [hk] at hmem
        exact (h.ghosts hcl hbase hm k hmem).of_row_eq hrow hjou
      rows := hrows
      archs := harchs
      names := fun hm n hmem => by
        rw [hn] at hmem
        exact (h.names hm n hmem).mono fun Y o ho => ⟨o, by rw [hrow]; exact ho, rfl⟩ }

/-- the row of an identifier that is known to be there -/
theorem Present.find {r old : Replica} (h : Present r w) (ho : old ∈ w.store.replicas)
    (hid : old.replicaId = r.replicaId) : old.desc = r.desc := by
  obtain ⟨r', hr', hd⟩ := h
  have hid' : r'.replicaId = r.replicaId := Replica.id_of_desc hd
  rw [Table.eq_of_key ho hr' (hid.trans hid'.symm)]
  exact hd

namespace Tending

open Party (Triple)

variable {A : Party env}

/-! ## replica rows -/

theorem addReplica {r : Replica} (hbase : f.base ≠ .unknown) (hX : r.objectId = X)
    (hk : r.slot ∈ f.keys) (hn : m.honest = true → (r.location.key, r.contentHash) ∈ f.names) :
    (party env m b t op).Triple l (Tending env m t X f) (Coordinator.store (.addReplica r))
      (fun _ w => (∀ x ∈ f.rows, x.replicaId ≠ r.replicaId) ∧
        Tending env m t X { f with rows := r :: f.rows } w)
      (fun _ => Tending env m t X f) := by
  refine Triple.store firm ?_ (fun _ _ _ _ _ h => h)
  intro w _ s hw hi _ hrun
  obtain ⟨T, hswap, _, hd⟩ := Store.addReplica_ok hrun
  have hstill : Still w ((party env m b t op).after (.store (.addReplica r)) (.ok ()) w
      (w.setStore s)) := Party.still_store
  have hrep : s.replicas = T := congrArg Data.replicas hd
  constructor
  · refine .replica hstill hd hswap (.add (hX ▸ hw.own) ((hw.held.pay _).mpr hk) ?_ ?_
      (Store.addReplica_located hrun))
    · rw [hX]
      exact hw.tiered hbase
    · rw [hX]
      exact fun hm => ⟨hw.noPhysical hbase hm, hw.names hm _ (hn hm)⟩
  · refine ⟨?_, ?_⟩
    · intro x hx he
      obtain ⟨_, y, hy, hyd⟩ := hw.rows x hx
      cases hswap.2.1 y hy ((Replica.id_of_desc hyd).trans he)
    refine hw.of_metadata hstill (congrArg Data.objects hd) (congrArg Data.journal hd)
      (congrArg Data.attempts hd) (congrArg Data.reservations hd) rfl rfl rfl ?_ ?_ rfl
    · intro x hx
      rcases List.mem_cons.mp hx with rfl | hx
      · refine ⟨.inl hX, x, ?_, rfl⟩
        show x ∈ s.replicas
        rw [hrep]
        exact (hswap.2.2.2.2 x).mpr (.inr rfl)
      · obtain ⟨hxX, hp⟩ := hw.rows x hx
        refine ⟨hxX, ?_⟩
        obtain ⟨y, hy, hyd⟩ := hp
        refine ⟨y, ?_, hyd⟩
        show y ∈ s.replicas
        rw [hrep]
        exact (hswap.2.2.2.2 y).mpr (.inl ⟨hy, fun hk => by cases hswap.2.1 y hy hk⟩)
    · intro a ha
      obtain ⟨haX, ham⟩ := hw.archs a ha
      refine ⟨haX, ?_⟩
      show a ∈ s.archives
      rw [show s.archives = w.store.archives from congrArg Data.archives hd]
      exact ham

theorem deleteReplica {r : Replica} (hr : r ∈ f.rows) (hX : r.objectId = X)
    (hk : r.slot ∈ f.keys) :
    (party env m b t op).Triple l (Tending env m t X f)
      (Coordinator.store (.deleteReplica r.replicaId))
      (fun _ => Tending env m t X
        { f with rows := f.rows.filter (fun x => decide (x.replicaId ≠ r.replicaId)) })
      (fun _ => Tending env m t X f) := by
  refine Triple.store firm ?_ (fun _ _ _ _ _ h => h)
  intro w _ s hw hi _ hrun
  have hd := Store.deleteReplica_ok hrun
  have hstill : Still w ((party env m b t op).after (.store (.deleteReplica r.replicaId)) (.ok ())
      w (w.setStore s)) := Party.still_store
  have hrep : s.replicas = w.store.replicas.erase r.replicaId := congrArg Data.replicas hd
  obtain ⟨_, r', hr', hdesc⟩ := hw.rows r hr
  have hid : r'.replicaId = r.replicaId := Replica.id_of_desc hdesc
  have hfind : w.store.replicas.find? r.replicaId = some r' := by
    rw [← hid]
    exact Table.find?_of_mem hr'
  have hX' : r'.objectId = X := (Replica.object_of_desc hdesc).trans hX
  constructor
  · refine .replica hstill hd RowSwap.erase ?_
    rw [hfind]
    refine .delete (hX' ▸ hw.own) ((hw.held.pay _).mpr ?_)
    rw [Replica.slot_of_desc hdesc]
    exact hk
  · refine hw.of_metadata hstill (congrArg Data.objects hd) (congrArg Data.journal hd)
      (congrArg Data.attempts hd) (congrArg Data.reservations hd) rfl rfl rfl ?_ ?_ rfl
    · intro x hx
      rw [List.mem_filter, decide_eq_true_iff] at hx
      obtain ⟨hxX, y, hy, hyd⟩ := hw.rows x hx.1
      refine ⟨hxX, y, ?_, hyd⟩
      show y ∈ s.replicas
      rw [hrep, Table.mem_erase]
      have hyid : y.replicaId = x.replicaId := Replica.id_of_desc hyd
      exact ⟨hy, by rw [hyid]; exact hx.2⟩
    · intro a ha
      obtain ⟨haX, ham⟩ := hw.archs a ha
      refine ⟨haX, ?_⟩
      show a ∈ s.archives
      rw [show s.archives = w.store.archives from congrArg Data.archives hd]
      exact ham

/-! ## dedup rows -/

theorem of_dedup (hw : Tending env m t X f w) (hs : Still w w')
    (hd : ∃ T, w'.store.data = { w.store.data with dedup := T }) : Tending env m t X f w' := by
  obtain ⟨T, hd⟩ := hd
  have hrep : w'.store.replicas = w.store.replicas := congrArg Data.replicas hd
  have harch : w'.store.archives = w.store.archives := congrArg Data.archives hd
  refine hw.of_metadata hs (congrArg Data.objects hd) (congrArg Data.journal hd)
    (congrArg Data.attempts hd) (congrArg Data.reservations hd) rfl rfl rfl ?_ ?_ rfl
  · intro r hr
    rw [Present, hrep]
    exact hw.rows r hr
  · rw [harch]
    exact hw.archs

/-- a store method that sets one dedup row whose payload the thread holds -/
theorem dedup {so : StoreOp} {h : ContentHash} {be : String} (hk : (be, h) ∈ f.keys)
    (hrun : ∀ w r s, Tending env m t X f w → Inv env m b w → so.run w.store = .ok (r, s) →
      ∃ v, Store.DedupSet w.store s (h, be) v ∧ (m.honest = true → ∀ e, v = some e →
        Named env m.bytes w e.key h)) :
    (party env m b t op).Triple l (Tending env m t X f) (Coordinator.store so)
      (fun _ => Tending env m t X f) (fun _ => Tending env m t X f) := by
  refine Triple.store firm ?_ (fun _ _ _ _ _ h => h)
  intro w r s hw hi _ hr
  obtain ⟨v, ⟨T, hd, hfind⟩, hname⟩ := hrun w r s hw hi hr
  have hstill : Still w ((party env m b t op).after (.store so) (.ok r) w (w.setStore s)) :=
    Party.still_store
  constructor
  · refine .dedup hstill hd ?_ (.inl ((hw.held.pay _).mpr hk)) ?_
    · intro k hne
      rw [hfind, if_neg hne]
    · intro hm e he
      rw [hfind, if_pos rfl] at he
      exact hname hm e he
  · exact hw.of_dedup hstill ⟨T, hd⟩

/-- the key of a dedup row stands for its content -/
theorem named_dedup (hi : Inv env m b w) (hm : m.honest = true) {h : ContentHash} {be : String}
    {e : DedupEntry} (he : w.store.dedup.find? (h, be) = some e) :
    Named env m.bytes w e.key h := by
  have hk := Table.key_of_find? he
  have := (hi.truthful hm).dedup e (Table.mem_of_find? he)
  rw [(Prod.mk.inj hk).1] at this
  exact this

theorem dedupAcquire {h : ContentHash} {be : String} (hk : (be, h) ∈ f.keys) :
    (party env m b t op).Triple l (Tending env m t X f)
      (Coordinator.store (.dedupAcquire h be)) (fun _ => Tending env m t X f)
      (fun _ => Tending env m t X f) := by
  refine dedup hk ?_
  intro w _ s hw hi hr
  obtain ⟨e, he, _, hset⟩ := Store.dedupAcquire_ok hr
  refine ⟨_, hset, ?_⟩
  rintro hm _ ⟨⟩
  have hn := named_dedup hi hm he
  exact hn

theorem dedupRelease {h : ContentHash} {be : String} (hk : (be, h) ∈ f.keys) :
    (party env m b t op).Triple l (Tending env m t X f)
      (Coordinator.store (.dedupRelease h be)) (fun _ => Tending env m t X f)
      (fun _ => Tending env m t X f) := by
  refine dedup hk ?_
  intro w _ s hw hi hr
  obtain ⟨e, he, _, _, hset⟩ := Store.dedupRelease_ok hr
  refine ⟨_, hset, ?_⟩
  intro hm e' he'
  split at he'
  · cases he'
  · cases he'
    have hn := named_dedup hi hm he
    exact hn

theorem insertDedup {e : DedupEntry} (hk : (e.backend, e.contentHash) ∈ f.keys)
    (hn : m.honest = true → (e.key, e.contentHash) ∈ f.names) :
    (party env m b t op).Triple l (Tending env m t X f)
      (Coordinator.store (.insertDedup e)) (fun _ => Tending env m t X f)
      (fun _ => Tending env m t X f) := by
  refine dedup hk ?_
  intro w _ s hw hi hr
  obtain ⟨_, hset⟩ := Store.insertDedup_ok hr
  refine ⟨_, hset, ?_⟩
  rintro hm _ ⟨⟩
  exact hw.names hm _ (hn hm)

/-! ## archive rows -/

theorem insertArchive {a : ArchiveRecord} {o : ReclaimObject} (hb : f.base = .row o)
    (hX : a.objectId = X) (hk : ArchiveKeyOf X a.key) (hgen : a.generation = o.generation)
    (hid : a.archiveId ≠ "") :
    (party env m b t op).Triple l (fun w => Tending env m t X f w ∧ Configured a.backend w)
      (Coordinator.store (.insertArchive a))
      (fun _ => Tending env m t X { f with archs := a :: f.archs })
      (fun _ => Tending env m t X f) := by
  refine Triple.store (stable.and stable_configured).firm ?_ (fun _ _ _ _ _ h => h.1)
  intro w _ s ⟨hw, hconf⟩ hi _ hrun
  obtain ⟨T, hswap, hd⟩ := Store.insertArchive_ok hrun
  have hstill : Still w ((party env m b t op).after (.store (.insertArchive a)) (.ok ()) w
      (w.setStore s)) := Party.still_store
  have harch : s.archives = T := congrArg Data.archives hd
  have hrow := hw.row
  rw [hb] at hrow
  obtain ⟨ho', ht⟩ := hrow
  constructor
  · refine .archive hstill hd hswap (.add (hX ▸ hw.own) (hX ▸ ho') ht (hX ▸ hk) ?_ hgen hid
      hconf)
    rw [hX]
    exact fun hm => hw.noPhysical (by rw [hb]; simp) hm
  · refine hw.of_metadata hstill (congrArg Data.objects hd) (congrArg Data.journal hd)
      (congrArg Data.attempts hd) (congrArg Data.reservations hd) rfl rfl rfl ?_ ?_ rfl
    · intro r hr
      obtain ⟨hrX, y, hy, hyd⟩ := hw.rows r hr
      refine ⟨hrX, y, ?_, hyd⟩
      show y ∈ s.replicas
      rw [show s.replicas = w.store.replicas from congrArg Data.replicas hd]
      exact hy
    · intro x hx
      rcases List.mem_cons.mp hx with rfl | hx
      · refine ⟨hX, ?_⟩
        show x ∈ s.archives
        rw [harch]
        exact (hswap.2.2.2.2 x).mpr (.inr rfl)
      · obtain ⟨hxX, hm⟩ := hw.archs x hx
        refine ⟨hxX, ?_⟩
        show x ∈ s.archives
        rw [harch]
        exact (hswap.2.2.2.2 x).mpr (.inl ⟨hm, fun hk => by cases hswap.2.1 x hm hk⟩)

theorem deleteArchive {a : ArchiveRecord} (ha : a ∈ f.archs) :
    (party env m b t op).Triple l (Tending env m t X f)
      (Coordinator.store (.deleteArchive a.archiveId))
      (fun _ => Tending env m t X { f with archs := [] }) (fun _ => Tending env m t X f) := by
  refine Triple.store firm ?_ (fun _ _ _ _ _ h => h)
  intro w _ s hw hi _ hrun
  have hd := Store.deleteArchive_ok hrun
  have hstill : Still w ((party env m b t op).after (.store (.deleteArchive a.archiveId)) (.ok ())
      w (w.setStore s)) := Party.still_store
  obtain ⟨hX, hm⟩ := hw.archs a ha
  constructor
  · refine .archive hstill hd RowSwap.erase ?_
    rw [Table.find?_of_mem hm]
    exact .delete (hX ▸ hw.own)
  · refine hw.of_metadata hstill (congrArg Data.objects hd) (congrArg Data.journal hd)
      (congrArg Data.attempts hd) (congrArg Data.reservations hd) rfl rfl rfl ?_ (by simp) rfl
    intro r hr
    obtain ⟨hrX, y, hy, hyd⟩ := hw.rows r hr
    refine ⟨hrX, y, ?_, hyd⟩
    show y ∈ s.replicas
    rw [show s.replicas = w.store.replicas from congrArg Data.replicas hd]
    exact hy

/-! ## verification outcomes -/

/-- a row keeps its description when it is updated -/
theorem present_replace {id : Uuid} {old new r : Replica}
    (h : RowSwap w.store.replicas w'.store.replicas id (some old) (some new))
    (hold : old ∈ w.store.replicas) (hid : old.replicaId = id) (hd : new.desc = old.desc)
    (hr : Present r w) : Present r w' := by
  obtain ⟨r', hr', hdr⟩ := hr
  by_cases hk : r'.replicaId = id
  · have he : r' = old := Table.eq_of_key hr' hold (hk.trans hid.symm)
    subst he
    exact ⟨new, (h.2.2.2.2 new).mpr (.inr rfl), hd.trans hdr⟩
  · exact ⟨r', (h.2.2.2.2 r').mpr (.inl ⟨hr', hk⟩), hdr⟩

/-- the outcome of a verification; only an invalid one may be recorded for another object -/
theorem updateReplica {r : Replica} {v : Bool} {n : Option Int} (hr : r ∈ f.rows)
    (hk : r.slot ∈ f.keys) (hv : r.objectId = X ∨ v = false) :
    (party env m b t op).Triple l (Tending env m t X f)
      (Coordinator.store (.updateReplica { r with verifiedAtMs := n, valid := v }))
      (fun _ => Tending env m t X f) (fun _ => Tending env m t X f) := by
  refine Triple.store firm ?_ (fun _ _ _ _ _ h => h)
  intro w _ s hw hi _ hrun
  obtain ⟨old, T, hfind, hswap, _, hd⟩ := Store.updateReplica_ok hrun
  have hstill : Still w ((party env m b t op).after
      (.store (.updateReplica { r with verifiedAtMs := n, valid := v })) (.ok ()) w
      (w.setStore s)) := Party.still_store
  have hrep : s.replicas = T := congrArg Data.replicas hd
  have hmem : old ∈ w.store.replicas := Table.mem_of_find? hfind
  have hid : old.replicaId = r.replicaId := Table.key_of_find? hfind
  have hold : old.desc = r.desc := (hw.rows r hr).2.find hmem hid
  have hobj : old.objectId = r.objectId := Replica.object_of_desc hold
  have hnew : ({ r with verifiedAtMs := n, valid := v, objectId := old.objectId } : Replica).desc =
      old.desc := by
    rw [hold, hobj]
    rfl
  have hpresent : ∀ x, Present x w → Present x ((party env m b t op).after
      (.store (.updateReplica { r with verifiedAtMs := n, valid := v })) (.ok ()) w
      (w.setStore s)) := by
    intro x hx
    refine present_replace ?_ hmem hid hnew hx
    show RowSwap w.store.replicas s.replicas _ _ _
    rw [hrep]
    exact hswap
  constructor
  · refine .replica hstill hd hswap (.update ((hw.held.pay _).mpr ?_) hnew ?_)
    · rw [Replica.slot_of_desc hold]
      exact hk
    · rcases hv with hX | hv
      · exact .inl ((hobj.trans hX) ▸ hw.own)
      · exact .inr hv
  · refine hw.of_metadata hstill (congrArg Data.objects hd) (congrArg Data.journal hd)
      (congrArg Data.attempts hd) (congrArg Data.reservations hd) rfl rfl rfl ?_ ?_ rfl
    · intro x hx
      exact ⟨(hw.rows x hx).1, hpresent x (hw.rows x hx).2⟩
    · intro a ha
      obtain ⟨haX, ham⟩ := hw.archs a ha
      refine ⟨haX, ?_⟩
      show a ∈ s.archives
      rw [show s.archives = w.store.archives from congrArg Data.archives hd]
      exact ham

/-! ## the object row -/

/-- the object row is written -/
theorem of_row {o o' : ReclaimObject} {T : Table ReclaimObject.id} (h : Tending env m t X f w)
    (hs : Still w w') (hd : w'.store.data = { w.store.data with objects := T })
    (hfind : ∀ Y, T.find? Y = if Y = X then some o' else rowOf w Y) (hb : f.base = .row o)
    (himm : o'.immut = o.immut) (hfl : o'.flags = o.flags) (ht : Tiered o'.lifecycleState) :
    Tending env m t X { f with base := .row o' } w' := by
  have hrowX : rowOf w' X = some o' := by
    show w'.store.objects.find? X = _
    rw [show w'.store.objects = T from congrArg Data.objects hd, hfind, if_pos rfl]
  have hrowY : ∀ Y, Y ≠ X → rowOf w' Y = rowOf w Y := by
    intro Y hY
    show w'.store.objects.find? Y = _
    rw [show w'.store.objects = T from congrArg Data.objects hd, hfind, if_neg hY]
  have hjou : w'.store.journal = w.store.journal := congrArg Data.journal hd
  have hatt : w'.store.attempts = w.store.attempts := congrArg Data.attempts hd
  have hres : w'.store.reservations = w.store.reservations := congrArg Data.reservations hd
  obtain ⟨ho, _⟩ : Tends (.row o) (rowOf w X) := hb ▸ h.row
  have hfine : Fine m X w' := h.fine.of_noPhysical (fun hm => h.noPhysical (by rw [hb]; simp) hm)
    hjou hatt hres
  exact
    { held := hs.held h.held
      settled :=
        { fine := .inr hfine
          acked := fun hm o₂ ho₂ => by
            rw [hrowX] at ho₂
            cases ho₂
            rw [hs.acknowledged, h.settled.acked hm o ho, hfl]
          untouched := fun hm j hj hjX hopen => by
            rw [hjou] at hj
            exact (h.settled.untouched hm j hj hjX hopen).mono hs.log }
      fine := hfine
      row := ⟨hrowX, ht⟩
      ghosts := fun hc _ hm k hk j hj hopen o₂ ho₂ hr => by
        rw [hjou] at hj
        by_cases hjX : j.objectId = X
        · rw [hjX, hrowX] at ho₂
          cases ho₂
          rw [Tiered, hr] at ht
          simp at ht
        · rw [hrowY _ hjX] at ho₂
          exact h.ghosts hc (by rw [hb]; simp) hm k hk j hj hopen o₂ ho₂ hr
      rows := fun r hr => by
        rw [Present, show w'.store.replicas = w.store.replicas from congrArg Data.replicas hd]
        exact h.rows r hr
      archs := by
        rw [show w'.store.archives = w.store.archives from congrArg Data.archives hd]
        exact h.archs
      names := fun hm n hn => by
        refine (h.names hm n hn).mono ?_
        intro Y o₂ ho₂
        by_cases hY : Y = X
        · subst hY
          rw [ho] at ho₂
          cases ho₂
          exact ⟨o', hrowX, himm⟩
        · exact ⟨o₂, (hrowY Y hY).trans ho₂, rfl⟩ }

/-- a store method that writes the object row in a new tier, or back in the old one -/
theorem writeRow {so : StoreOp} {o o' : ReclaimObject} (hb : f.base = .row o) (hid : o'.id = X)
    (himm : o'.immut = o.immut) (hfl : o'.flags = o.flags)
    (ht : o'.lifecycleState = .compressed ∨ o'.lifecycleState = .archived ∨
      o'.lifecycleState = .warm) (hl : Legal o.lifecycleState o'.lifecycleState)
    (hrun : so.WritesRow o') :
    (party env m b t op).Triple l (Tending env m t X f) (Coordinator.store so)
      (fun _ => Tending env m t X { f with base := .row o' }) (fun _ => Tending env m t X f) := by
  refine Triple.store firm ?_ (fun _ _ _ _ _ h => h)
  intro w r s hw hi _ hr
  obtain ⟨hv, hc, hd, hfind⟩ := hrun _ _ _ hr
  rw [hid] at hfind
  have hstill : Still w ((party env m b t op).after (.store so) (.ok r) w (w.setStore s)) :=
    Party.still_store
  obtain ⟨ho, hto⟩ : Tends (.row o) (rowOf w X) := hb ▸ hw.row
  have htiered : Tiered o'.lifecycleState := by
    unfold Tiered
    tauto
  constructor
  · refine .row hstill hd hfind hid ⟨hv, hc, ?_⟩ (.tier hw.own ho himm hfl hto ht hl)
    intro _
    have hne : o.lifecycleState ≠ .created := by
      intro he
      rw [Tiered, he] at hto
      simp at hto
    have hh := (hi.rows X o ho).hashed hne
    rw [← immut_contentHash himm] at hh
    exact hh
  · exact hw.of_row hstill hd hfind hb himm hfl htiered

/-! ## payloads, blobs and payload guards -/

/-- a step that leaves the store alone -/
theorem of_external {f' : Tend} (h : Tending env m t X f w) (hs : w'.store = w.store)
    (hc : w'.proc.config = w.proc.config)
    (hlog : ∃ e, Event.isCall e = true ∧ w'.log = e :: w.log) (hheld : Held t X f'.keys w')
    (hb : f'.base = f.base) (hg : f'.clear = true → f.clear = true ∧ f'.keys = f.keys)
    (hr : ∀ r ∈ f'.rows, r ∈ f.rows ∧ (r.objectId = X ∨ f'.keys = f.keys))
    (ha : f'.archs = f.archs) (hn : f'.names = f.names) : Tending env m t X f' w' := by
  have hrow : ∀ Y, rowOf w' Y = rowOf w Y := fun Y => by rw [rowOf, rowOf, hs]
  have hsame : SameAt X w w' :=
    ⟨hrow X, fun j _ => by rw [hs], fun a _ => by rw [hs], fun r _ => by rw [hs]⟩
  have hack : acknowledged X w'.log = acknowledged X w.log := (log_cons (t := t) hlog).2 X
  exact
    { held := hheld
      settled :=
        { fine := .inr (h.fine.congr hsame hc)
          acked := fun hm => (h.settled.acked hm).congr (hrow X) hack
          untouched := fun hm j hj hjX hopen => by
            rw [hs] at hj
            exact (h.settled.untouched hm j hj hjX hopen).mono (isCall_log hlog) }
      fine := h.fine.congr hsame hc
      row := by rw [hrow, hb]; exact h.row
      ghosts := fun hcl hbase hm k hk => by
        obtain ⟨hclear, hkeys⟩ := hg hcl
        rw [hkeys] at hk
        rw [hb] at hbase
        exact (h.ghosts hclear hbase hm k hk).of_row_eq hrow (by rw [hs])
      rows := fun r hmem => by
        obtain ⟨hin, hX⟩ := hr r hmem
        obtain ⟨hor, hp⟩ := h.rows r hin
        refine ⟨?_, by rw [Present, hs]; exact hp⟩
        rcases hX with hX | hkeys
        · exact .inl hX
        · rw [hkeys]
          exact hor
      archs := by rw [ha, hs]; exact h.archs
      names := fun hm n hmem => by
        rw [hn] at hmem
        exact (h.names hm n hmem).mono fun Y o ho => ⟨o, by rw [hrow]; exact ho, rfl⟩ }

theorem payload_step {be k : String} {h : ContentHash} {v : Option Bytes} (c : Cmd) (r : c.Reply)
    (hk : (be, h) ∈ f.keys) (hn : (k, h) ∈ f.names)
    (hv : v ≠ none → f.clear = true ∧ f.base ≠ .unknown)
    (hw : Tending env m t X f w) :
    Guar env m b t op w ((party env m b t op).after c r w (w.setPayload be k v)) ∧
      Tending env m t X f ((party env m b t op).after c r w (w.setPayload be k v)) := by
  constructor
  · refine .payload ((hw.held.pay _).mpr hk) ?_ rfl rfl rfl rfl ⟨_, rfl, rfl⟩
    exact fun hm => ⟨hw.names hm _ hn, fun hne => hw.ghosts (hv hne).1 (hv hne).2 hm _ hk⟩
  · refine hw.of_external rfl rfl ⟨_, rfl, rfl⟩ ?_ rfl (fun h => ⟨h, rfl⟩)
      (fun r hr => ⟨hr, .inr rfl⟩) rfl rfl
    exact ⟨hw.held.own, hw.held.pay, hw.held.recovering⟩

theorem clears {be k : String} {h : ContentHash} (hk : (be, h) ∈ f.keys) (hn : (k, h) ∈ f.names) :
    (party env m b t op).Clears (Tending env m t X f) be k :=
  fun c r _ hw _ => payload_step c r hk hn (fun hne => absurd rfl hne) hw

theorem fills {be k : String} {h : ContentHash} (hk : (be, h) ∈ f.keys) (hn : (k, h) ∈ f.names)
    (hc : f.clear = true) (hbase : f.base ≠ .unknown) :
    (party env m b t op).Fills (Tending env m t X f) be k :=
  fun c r _ _ hw _ => payload_step c r hk hn (fun _ => ⟨hc, hbase⟩) hw

theorem deletePayload {be k : String} {h : ContentHash} (hk : (be, h) ∈ f.keys)
    (hn : (k, h) ∈ f.names) :
    (party env m b t op).Triple false (Tending env m t X f) (Coordinator.deletePayload be k)
      (fun _ => Tending env m t X f) (fun _ => Tending env m t X f) :=
  Triple.deletePayload firm (clears hk hn)

theorem onBlob {α : Type} {a k : String} {c : Cmd} {g : c.Reply → Res α}
    (hbase : f.base ≠ .unknown) (hc : c.onBlob a k = true) (hk : ArchiveKeyOf X k) :
    (party env m b t op).Triple l (Tending env m t X f)
      (ExceptT.mk (.call c fun r => .ret (g r)) : M α) (fun _ => Tending env m t X f)
      (fun _ => Tending env m t X f) := by
  refine Triple.onBlob a k hc firm ?_
  intro w i r x hw _ _ he
  have hstep : (party env m b t op).guar w ((party env m b t op).after c r w x) ∧
      Tending env m t X f ((party env m b t op).after c r w x) := by
    rcases exec_onBlob hc he with rfl | ⟨v, rfl⟩
    · have hq : Quiet w ((party env m b t op).after c r w w.toWorld) :=
        Party.quiet_after (Calm.refl _)
      exact ⟨.quiet hq, stable w _ (.of_quiet hq) hw⟩
    · constructor
      · exact .blob hw.own hk (fun _ _ => hw.notReclaimed hbase) rfl rfl rfl rfl ⟨_, rfl, rfl⟩
      · refine hw.of_external rfl rfl ⟨_, rfl, rfl⟩ ?_ rfl (fun h => ⟨h, rfl⟩)
          (fun r hr => ⟨hr, .inr rfl⟩) rfl rfl
        exact ⟨hw.held.own, hw.held.pay, hw.held.recovering⟩
  refine ⟨hstep.1, ?_⟩
  cases g r with
  | ok _ => exact hstep.2
  | error _ => exact hstep.2

end Tending

/-- the thread is busy with its object and holds the payloads `ks` -/
def Busy (env : Env) (m : Regime) (t : Tid) (X : Uuid) (ks : List (String × ContentHash))
    (w : Traced) : Prop :=
  ∃ f : Tend, f.keys = ks ∧ Tending env m t X f w

theorem stable_busy {ks : List (String × ContentHash)} : Stable env m t (Busy env m t X ks) :=
  Stable.exists fun _ => Stable.and (Stable.const _) Tending.stable

theorem Tending.busy (h : Tending env m t X f w) : Busy env m t X f.keys w := ⟨f, rfl, h⟩

theorem Tending.ready (h : Tending env m t X f w) (hk : f.keys = []) : Ready m t X w where
  held := hk ▸ h.held
  settled := h.settled

theorem Busy.ready (h : Busy env m t X [] w) : Ready m t X w := by
  obtain ⟨f, hk, hf⟩ := h
  exact hf.ready hk

theorem Tending.leaving (h : Tending env m t X f w) (hk : f.keys = []) (r : Res op.Out)
    (he : ∀ F, op.effect X r F = F) : Leaving m t op X r w where
  held := hk ▸ h.held
  fine := .inr h.fine
  acked := fun hm o ho => by
    rw [he]
    exact h.settled.acked hm o ho
  untouched := fun hm j hj hjX hopen => by
    rw [h.fine.resolved hm j hj hjX] at hopen
    cases hopen

theorem mem_sortKeys {ks : List (String × ContentHash)} {k : String × ContentHash} :
    k ∈ Coordinator.sortKeys ks ↔ k ∈ ks := by
  rw [Coordinator.sortKeys, List.mem_dedup, List.mem_insertionSort]

variable (env m op) in
/-- an operation that holds no payload acquires some -/
theorem acquireKeys_step {ks : List (String × ContentHash)} (hh : Held t X [] w)
    (hnone : w.proc.activeRecovery = none)
    (hfree : ∀ k ∈ Coordinator.sortKeys ks, ∀ u, (k, u) ∉ w.proc.activePayloads) :
    Guar env m true t op w
        (Party.Triple.acquiredKeys (party env m true t op) (Coordinator.sortKeys ks) w) ∧
      Held t X (Coordinator.sortKeys ks)
        (Party.Triple.acquiredKeys (party env m true t op) (Coordinator.sortKeys ks) w) := by
  constructor
  · exact .acquireKeys rfl (List.nodup_dedup _) hfree hnone rfl rfl rfl rfl ⟨_, rfl, rfl⟩
  · refine ⟨hh.own, ?_, hh.recovering⟩
    intro k
    show (k, t) ∈ (Coordinator.sortKeys ks).map (fun k => (k, t)) ++ w.proc.activePayloads ↔ _
    rw [List.mem_append, List.mem_map]
    constructor
    · rintro (⟨k', hk', he⟩ | hp)
      · rw [← (Prod.mk.inj he).1]
        exact hk'
      · exact absurd ((hh.pay k).mp hp) List.not_mem_nil
    · exact fun hk => .inl ⟨k, hk, rfl⟩

theorem held_dropped {ks : List (String × ContentHash)} {A : Party env}
    (hh : Held t X ks w) : Held t X [] (Party.Triple.dropped A ks w) := by
  refine ⟨hh.own, ?_, hh.recovering⟩
  intro k
  show (k, t) ∈ w.proc.activePayloads.filter (fun e => decide (e.1 ∉ ks)) ↔ _
  rw [List.mem_filter, decide_eq_true_iff]
  constructor
  · rintro ⟨hp, hn⟩
    exact absurd ((hh.pay k).mp hp) hn
  · exact fun hk => absurd hk List.not_mem_nil

namespace Tending

open Party (Triple)

variable (op) in
/-- a step that drops the payloads -/
theorem drop {ks : List (String × ContentHash)} (h : Tending env m t X f w) (hk : f.keys = ks)
    (hi : Inv env m b w) (hX : ∀ r ∈ f.rows, r.objectId = X) :
    Guar env m b t op w (Party.Triple.dropped (party env m b t op) ks w) ∧
      Tending env m t X { f with keys := [], clear := false }
        (Party.Triple.dropped (party env m b t op) ks w) := by
  have hh : Held t X ks w := hk ▸ h.held
  constructor
  · refine .dropKeys ?_ ?_ rfl rfl rfl rfl ⟨_, rfl, rfl⟩
    · intro k hmem u hu
      exact hi.pay k t u ((hh.pay k).mpr hmem) hu
    · -- a reclaim that has committed is in a physical phase, and then the row is not RECLAIMED
      intro hm Y hY j hj hjY hopen o ho hs
      rw [(h.held.own Y).mp hY] at hjY ho
      obtain ⟨S, plan, _, hph, _⟩ := (hi.truthful hm).decided j hj hopen o (hjY ▸ ho) hs
      obtain ⟨⟨o', ho', hs'⟩, _⟩ := (h.fine.parked hm j hj hjY hopen).physical hph
      rw [hjY, ho] at ho'
      cases ho'
      rw [hs] at hs'
      cases hs'
  · exact h.of_external rfl rfl ⟨_, rfl, rfl⟩ (held_dropped hh) rfl
      (fun hc => by cases hc) (fun r hr => ⟨hr, .inl (hX r hr)⟩) rfl rfl

theorem acquire {ks : List (String × ContentHash)} (hk : f.keys = [])
    (hX : ∀ r ∈ f.rows, r.objectId = X) :
    (party env m true t op).Triple false (Tending env m t X f)
      (Coordinator.beginPayloadOperations ks)
      (fun _ => Tending env m t X { f with keys := Coordinator.sortKeys ks, clear := false })
      (fun _ => Busy env m t X []) := by
  refine (Triple.beginPayloadOperations firm ?_).post (fun _ _ h => h) (fun _ _ h => ⟨f, hk, h⟩)
  intro w hw _ _ hnone hfree
  obtain ⟨hguar, hheld⟩ := acquireKeys_step env m op (hk ▸ hw.held) hnone hfree
  exact ⟨hguar, hw.of_external rfl rfl ⟨_, rfl, rfl⟩ hheld rfl (fun hc => by cases hc)
    (fun r hr => ⟨hr, .inl (hX r hr)⟩) rfl rfl⟩

variable (op) in
theorem drop_busy {ks : List (String × ContentHash)} (h : Busy env m t X ks w)
    (hi : Inv env m b w) :
    Guar env m b t op w (Party.Triple.dropped (party env m b t op) ks w) ∧
      Busy env m t X [] (Party.Triple.dropped (party env m b t op) ks w) := by
  obtain ⟨f, hf, hw⟩ := h
  have hw' : Tending env m t X { f with rows := [] } w :=
    hw.weaken rfl id rfl (by simp) (fun _ h => h) (fun _ h => h)
  obtain ⟨hguar, ht⟩ := hw'.drop op hf hi (by simp)
  exact ⟨hguar, _, rfl, ht⟩

/-- an operation that takes a payload guard and drops it on every way out -/
theorem withPayloads {α : Type} {ks : List (String × ContentHash)} {body : M α} {φ : α → Prop}
    {g : α → Tend} (hk : f.keys = []) (hX : ∀ r ∈ f.rows, r.objectId = X)
    (hg : ∀ a, (g a).keys = Coordinator.sortKeys ks)
    (hgX : ∀ a, φ a → ∀ r ∈ (g a).rows, r.objectId = X)
    (hbody : (party env m true t op).Triple false
      (Tending env m t X { f with keys := Coordinator.sortKeys ks, clear := false }) body
      (fun a w => φ a ∧ Tending env m t X (g a) w)
      (fun _ => Busy env m t X (Coordinator.sortKeys ks))) :
    (party env m true t op).Triple false (Tending env m t X f) (Coordinator.withPayloads ks body)
      (fun a w => φ a ∧ Tending env m t X { g a with keys := [], clear := false } w)
      (fun _ => Busy env m t X []) := by
  refine Triple.bind (acquire hk hX) fun _ => ?_
  refine Triple.holding (fun _ => Party.Firm.and (.const _) firm) (fun _ => stable_busy.firm)
    hbody ?_ (fun _ _ h hi => drop_busy op h hi)
  intro a w hw hi
  obtain ⟨hguar, ht⟩ := hw.2.drop op (hg a) hi (hgX a hw.1)
  exact ⟨hguar, hw.1, ht⟩

/-- the same, when nothing has to be known afterwards -/
theorem withPayloadsBusy {α : Type} {ks : List (String × ContentHash)} {body : M α}
    (hk : f.keys = []) (hX : ∀ r ∈ f.rows, r.objectId = X)
    (hbody : (party env m true t op).Triple false
      (Tending env m t X { f with keys := Coordinator.sortKeys ks, clear := false }) body
      (fun _ => Busy env m t X (Coordinator.sortKeys ks))
      (fun _ => Busy env m t X (Coordinator.sortKeys ks))) :
    (party env m true t op).Triple false (Tending env m t X f) (Coordinator.withPayloads ks body)
      (fun _ => Busy env m t X []) (fun _ => Busy env m t X []) := by
  refine Triple.bind (acquire hk hX) fun _ => ?_
  exact Triple.holding (fun _ => stable_busy.firm) (fun _ => stable_busy.firm) hbody
    (fun _ _ h hi => drop_busy op h hi) (fun _ _ h hi => drop_busy op h hi)

/-! ## sections and answers -/

theorem forget (h : Tending env m t X { f with clear := true } w) : Tending env m t X f w :=
  h.weaken rfl (fun _ => rfl) rfl (fun _ h => h) (fun _ h => h) (fun _ h => h)

/-- a locked section starts with the authority check -/
theorem inSectionTo {α : Type} {body : M α} {Q : α → Traced → Prop} {S : Traced → Prop}
    (hQ : ∀ a, Stable env m t (Q a)) (hS : Stable env m t S)
    (hback : ∀ w, Tending env m t X f w → S w)
    (hbody : (party env m true t op).Triple true (Tending env m t X { f with clear := true }) body Q
      (fun _ => S)) :
    (party env m true t op).Triple false (Tending env m t X f) (Coordinator.withInner body) Q
      (fun _ => S) := by
  refine Triple.withInner firm firm (fun a => (hQ a).firm) (fun _ => hS.firm)
    (fun w hw hi hl => hw.clear hi rfl hl) (fun _ w hw _ => hback w hw) ?_
  exact hbody.pre fun _ h => h.2

/-- the same, when a failure leaves everything as it is -/
theorem inSection {α : Type} {body : M α} {Q : α → Traced → Prop}
    (hQ : ∀ a, Stable env m t (Q a))
    (hbody : (party env m true t op).Triple true (Tending env m t X { f with clear := true }) body Q
      (fun _ => Tending env m t X f)) :
    (party env m true t op).Triple false (Tending env m t X f) (Coordinator.withInner body) Q
      (fun _ => Tending env m t X f) :=
  inSectionTo hQ stable (fun _ h => h) hbody

/-- a locked section of one store method -/
theorem inSectionStore {so : StoreOp} {Q : so.Out → Traced → Prop}
    (hQ : ∀ a, Stable env m t (Q a))
    (h : (party env m true t op).Triple true (Tending env m t X { f with clear := true })
      (Coordinator.store so) Q (fun _ => Tending env m t X { f with clear := true })) :
    (party env m true t op).Triple false (Tending env m t X f)
      (Coordinator.withInner (Coordinator.store so)) Q (fun _ => Tending env m t X f) :=
  inSection hQ (h.post (fun _ _ h => h) (fun _ _ h => h.forget))

/-- what is known after a dedup row was read -/
def found (f : Tend) (h : ContentHash) (x : Option DedupEntry) : Tend :=
  { f with names := (x.map fun e => (e.key, h)).toList ++ f.names }

theorem getDedup {h : ContentHash} {be : String} :
    (party env m b t op).Triple l (Tending env m t X f) (Coordinator.store (.getDedup h be))
      (fun x w => (∀ e : DedupEntry, x = some e → e.contentHash = h ∧ e.backend = be) ∧
        Tending env m t X (found f h x) w) (fun _ => Tending env m t X f) := by
  refine Triple.answer firm (fun _ => (Stable.and (Stable.const _) stable).firm) rfl ?_
    (fun _ _ h => h)
  intro w x s hw hi hr
  cases hr
  constructor
  · intro e he
    have hk := Table.key_of_find? he
    exact ⟨(Prod.mk.inj hk).1, (Prod.mk.inj hk).2⟩
  · refine ⟨hw.held, hw.settled, hw.fine, hw.row, hw.ghosts, hw.rows, hw.archs, ?_⟩
    intro hm n hn
    rcases List.mem_append.mp hn with hn | hn
    · cases he : w.store.dedup.find? (h, be) with
      | none => rw [he] at hn; cases hn
      | some e =>
        rw [he] at hn
        cases List.mem_singleton.mp hn
        exact named_dedup hi hm he
    · exact hw.names hm n hn

/-- what is known after the replica rows of the object were read -/
def stocked (f : Tend) (rs : List Replica) : Tend :=
  { f with rows := rs, names := rs.map (fun r => (r.location.key, r.contentHash)) ++ f.names }

theorem innerReplicas :
    (party env m true t op).Triple false (Tending env m t X f)
      (Coordinator.inner (.replicasFor X))
      (fun rs w => (∀ r ∈ rs, r.objectId = X) ∧ Tending env m t X (stocked f rs) w)
      (fun _ => Tending env m t X f) := by
  refine inSectionStore (fun _ => Stable.and (Stable.const _) stable) ?_
  refine Triple.answer firm (fun _ => (Stable.and (Stable.const _) stable).firm) rfl ?_
    (fun _ _ h => h)
  intro w rs s hw hi hr
  have hmem {r : Replica} := Store.replicasFor_ok (r := r) hr
  refine ⟨fun r h => (hmem.mp h).2, hw.held, hw.settled, hw.fine, hw.row,
    fun _ => hw.ghosts rfl, ?_, hw.archs, ?_⟩
  · intro r h
    exact ⟨.inl (hmem.mp h).2, r, (hmem.mp h).1, rfl⟩
  · intro hm n hn
    rcases List.mem_append.mp hn with hn | hn
    · obtain ⟨r, hr', rfl⟩ := List.mem_map.mp hn
      exact (hi.truthful hm).replicas r (hmem.mp hr').1
    · exact hw.names hm n hn

theorem innerArchives :
    (party env m true t op).Triple false (Tending env m t X f)
      (Coordinator.inner (.archivesFor X))
      (fun as w => (∀ a ∈ as, a.objectId = X ∧ ArchiveKeyOf X a.key) ∧
        Tending env m t X { f with archs := as } w)
      (fun _ => Tending env m t X f) := by
  refine inSectionStore (fun _ => Stable.and (Stable.const _) stable) ?_
  refine Triple.answer firm (fun _ => (Stable.and (Stable.const _) stable).firm) rfl ?_
    (fun _ _ h => h)
  intro w as s hw hi hr
  have hmem {a : ArchiveRecord} := Store.archivesFor_ok (a := a) hr
  refine ⟨?_, hw.held, hw.settled, hw.fine, hw.row, fun _ => hw.ghosts rfl, hw.rows, ?_,
    hw.names⟩
  · intro a h
    have hX := (hmem.mp h).2
    exact ⟨hX, hX ▸ hi.archives a (hmem.mp h).1⟩
  · exact fun a h => ⟨(hmem.mp h).2, (hmem.mp h).1⟩

/-- the bytes a read delivers -/
theorem readPayload (be k : String) :
    (party env m b t op).Triple false (Tending env m t X f) (Coordinator.readPayload be k)
      (fun d w => (m.honest = true → d ∈ m.bytes) ∧ Tending env m t X f w)
      (fun _ => Tending env m t X f) := by
  refine Triple.readPayloadWith firm (fun _ => (Stable.and (Stable.const _) stable).firm) ?_ ?_
  · intro w i d x hw _ ha he
    exact ⟨fun hm => ha.bytes hm _ _ _ d he rfl, hw⟩
  · intro n w i r d x hw _ ha he _ hd
    exact ⟨fun hm => ha.bytes hm _ _ _ d he hd, hw⟩

/-- one more key whose content is known -/
theorem named {k : String} {h : ContentHash} (hw : Tending env m t X f w)
    (hn : m.honest = true → Named env m.bytes w k h) :
    Tending env m t X { f with names := (k, h) :: f.names } w where
  held := hw.held
  settled := hw.settled
  fine := hw.fine
  row := hw.row
  ghosts := hw.ghosts
  rows := hw.rows
  archs := hw.archs
  names := fun hm n hmem => by
    rcases List.mem_cons.mp hmem with rfl | hmem
    · exact hn hm
    · exact hw.names hm n hmem

end Tending

end ReclaimFabric
