import ReclaimFabric.Protocol.Objects

/-!
# What a reclaim attempt knows

From its reservation to the end of its journal a reclaim holds one object and drives the rows it
has reserved.  `Task` is what it has recorded and reached so far, and two assertions connect it
with the shared state

* `Bond`    the object row, the journal, the reservation and the attempt, with everything that
            decides whether the object may be dropped;
* `Stock`   the replica and archive rows that are left and the payloads and blobs that are gone.

A step changes one of the two and leaves the other alone.  `Bail` is what holds on every way out.
-/

set_option linter.unusedSectionVars false

namespace ReclaimFabric

/-- what a reclaim has recorded and how far it has come -/
structure Task where
  keys : List (String × ContentHash)
  attemptId : Uuid
  reservationId : Uuid
  snap : Snapshot
  phase : JournalPhase
  plan : Option (List Replica)
  state : LifecycleState
  /-- the reservation and the attempt are still open -/
  reserved : Bool
  attempted : Bool
  /-- the dependency check has passed -/
  safe : Bool
  /-- the rows that are left are among these -/
  reps : List Replica
  archs : List ArchiveRecord
  /-- payloads and blobs that are gone -/
  gone : List Replica
  blobs : List ArchiveRecord

namespace Task

/-- the object row as the attempt has written it -/
def row (k : Task) : ReclaimObject := { k.snap.prior with lifecycleState := k.state }

/-- another stock of rows, payloads and blobs, and other payload guards -/
def restock (k : Task) (keys : List (String × ContentHash)) (reps : List Replica)
    (archs : List ArchiveRecord) (gone : List Replica) (blobs : List ArchiveRecord) : Task :=
  { k with keys := keys, reps := reps, archs := archs, gone := gone, blobs := blobs }

/-- what does not depend on the shared state -/
structure Ok (X : Uuid) (k : Task) : Prop where
  id : k.snap.prior.id = X
  row : k.snap.prior.RowOk
  hashed : k.snap.prior.contentHash.isSome = true
  dels : ∀ d ∈ k.snap.dels, d.objectId = X
  nodup : (k.reps.map Replica.replicaId).Nodup
  archNodup : (k.archs.map ArchiveRecord.archiveId).Nodup
  archKeys : ∀ a ∈ k.snap.archs, a.objectId = X ∧ ArchiveKeyOf X a.key
  reps : ∀ r ∈ k.reps, r ∈ k.snap.dels
  archs : ∀ a ∈ k.archs, a ∈ k.snap.archs
  gone : ∀ r ∈ k.gone, r ∈ k.snap.dels ∧ r.slot ∈ k.keys
  blobs : ∀ a ∈ k.blobs, a ∈ k.snap.archs

theorem Ok.rowOk {X : Uuid} {k : Task} (h : k.Ok X) : k.row.RowOk where
  valid := h.row.valid
  columns := h.row.columns
  hashed := fun _ => h.hashed

end Task

section
variable (env : Env) (m : Regime)

/-- the journal row of the attempt -/
def Task.Entry (k : Task) (X : Uuid) (j : JournalEntry) : Prop :=
  j.attemptId = k.attemptId ∧ j.objectId = X ∧ j.phase = k.phase ∧
    j.payload = payloadOf k.snap k.plan

/-- no exposed object depends on the one that is reclaimed, and none can come to -/
structure Cleared (X : Uuid) (w : Traced) : Prop where
  safe : DependencySafe w X
  read : PastRead w X

structure Bond (t : Tid) (X : Uuid) (k : Task) (w : Traced) : Prop where
  held : Held t X k.keys w
  row : rowOf w X = some k.row
  journal : ∃ j ∈ w.store.journal, k.Entry X j
  alone : m.wrapped = true ∨ m.honest = true → ∀ j ∈ w.store.journal, j.objectId = X →
    j.phase.isOpen = true → j.attemptId = k.attemptId
  reserved : k.reserved = true → ∃ r ∈ w.store.reservations,
    r.reservationId = k.reservationId ∧ r.attemptId = k.attemptId ∧ r.objectId = X ∧
      r.status = .isOpen
  attempted : k.attempted = true → ∃ a ∈ w.store.attempts, a.attemptId = k.attemptId ∧
    a.objectId = X ∧ a.status = .isOpen
  acked : m.wrapped = true → acknowledged X w.log = some k.snap.prior.flags
  untouched : m.wrapped = true → ∀ j ∈ w.store.journal, j.objectId = X →
    j.phase.isOpen = true → Untouched j w
  names : m.honest = true → ∀ d ∈ k.snap.dels, Named env m.bytes w d.location.key d.contentHash
  safe : k.safe = true → m.edges = true → Cleared X w
  equipped : k.phase.physical = true → m.wrapped = true → ∀ a ∈ k.snap.archs,
    (w.proc.config.archive a.backend).isSome = true

structure Stock (X : Uuid) (k : Task) (w : Traced) : Prop where
  reps : ∀ r ∈ w.store.replicas, r.objectId = X → ∃ d ∈ k.reps, d.desc = r.desc
  archs : ∀ a ∈ w.store.archives, a.objectId = X → a ∈ k.archs
  present : ∀ d ∈ k.reps, Present d w
  archived : ∀ a ∈ k.archs, a ∈ w.store.archives
  gone : m.honest = true → ∀ r ∈ k.gone, w.payloads r.location.backend r.location.key = none
  blobs : m.honest = true → ∀ a ∈ k.blobs, w.blobs a.backend a.key = none

structure Working (t : Tid) (X : Uuid) (k : Task) (w : Traced) : Prop where
  ok : k.Ok X
  bond : Bond env m t X k w
  stock : Stock m X k w

/-- the way out of a reclaim that holds the payloads `ks` -/
structure Bail (t : Tid) (X : Uuid) (ks : List (String × ContentHash)) (w : Traced) : Prop where
  held : Held t X ks w
  settled : Settled m X w
  lost : m.honest = true → ∀ j ∈ w.store.journal, j.objectId = X → j.phase.isOpen = true →
    ∀ o, rowOf w X = some o → o.lifecycleState = .reclaimed → Lost w

end

variable {env : Env} {m : Regime} {b : Bool} {t : Tid} {op : Op} {X : Uuid} {k k' : Task}
  {w w' : Traced} {l : Bool}

/-! ## stability -/

theorem Cleared.keep (h : Cleared X w) (hk : Keep env m t w w') (hX : Own t X w)
    (he : m.edges = true) : Cleared X w' where
  safe := fun Z hZ hexp hdown =>
    h.safe Z hZ (hk.exposed hX hexp) (hk.downstream he X hX h.read Z hZ hexp hdown)
  read := hk.pastRead hX h.read

namespace Bond

theorem own (h : Bond env m t X k w) : Own t X w := h.held.mine

theorem keep (h : Bond env m t X k w) (hk : Keep env m t w w') : Bond env m t X k w' where
  held := stable_held w w' hk h.held
  row := (hk.row X h.own).trans h.row
  journal := by
    obtain ⟨j, hj, he⟩ := h.journal
    exact ⟨j, (hk.journal X h.own j he.2.1).mpr hj, he⟩
  alone := fun hm j hj hX => h.alone hm j ((hk.journal X h.own j hX).mp hj) hX
  reserved := fun hr => by
    obtain ⟨r, hm, he⟩ := h.reserved hr
    exact ⟨r, (hk.reservations X h.own r he.2.2.1).mpr hm, he⟩
  attempted := fun ha => by
    obtain ⟨a, hm, he⟩ := h.attempted ha
    exact ⟨a, (hk.attempts X h.own a he.2.1).mpr hm, he⟩
  acked := fun hm => (hk.acknowledged h.own).trans (h.acked hm)
  untouched := fun hm j hj hX hopen => by
    have hold := h.untouched hm j ((hk.journal X h.own j hX).mp hj) hX hopen
    exact hold.keep hk (hX ▸ h.own)
  names := fun hm d hd => hk.named (h.names hm d hd)
  safe := fun hs he => (h.safe hs he).keep hk h.own he
  equipped := by
    rw [hk.config]
    exact h.equipped

end Bond

theorem Stock.keep (h : Stock m X k w) (hb : Bond env m t X k w) (hok : k.Ok X)
    (hk : Keep env m t w w') : Stock m X k w' where
  reps := fun r hr hX => by
    obtain ⟨r₀, hr₀, hd, _⟩ := (hk.replicas X hb.own).back r hr hX
    obtain ⟨d, hd', he⟩ := h.reps r₀ hr₀ ((Replica.object_of_desc hd).trans hX)
    exact ⟨d, hd', he.trans hd⟩
  archs := fun a ha hX => h.archs a ((hk.archives X hb.own a hX).mp ha) hX
  present := fun d hd => by
    obtain ⟨r, hr, he⟩ := h.present d hd
    obtain ⟨r', hr', he'⟩ := (hk.replicas X hb.own).forth r hr
      ((Replica.object_of_desc he).trans (hok.dels d (hok.reps d hd)))
    exact ⟨r', hr', he'.trans he⟩
  archived := fun a ha =>
    (hk.archives X hb.own a (hok.archKeys a (hok.archs a ha)).1).mpr (h.archived a ha)
  gone := fun hm r hr => by
    obtain ⟨hdel, hslot⟩ := hok.gone r hr
    rw [hk.payloads hm r.location.backend r.contentHash r.location.key
      ((hb.held.pay _).mpr hslot) (hb.names hm r hdel)]
    exact h.gone hm r hr
  blobs := fun hm a ha => by
    rw [hk.blobs X a.backend a.key hb.own (hok.archKeys a (hok.blobs a ha)).2]
    exact h.blobs hm a ha

theorem Working.stable : Stable env m t (Working env m t X k) :=
  fun _ _ hk h => ⟨h.ok, h.bond.keep hk, h.stock.keep h.bond h.ok hk⟩

theorem Working.firm : (party env m b t op).Firm (Working env m t X k) := Working.stable.firm

theorem Bail.stable {ks : List (String × ContentHash)} : Stable env m t (Bail m t X ks) := by
  intro w w' hk h
  refine ⟨stable_held w w' hk h.held, h.settled.keep hk h.held.mine, ?_⟩
  intro hm j hj hX hopen o ho hs
  rw [hk.row X h.held.mine] at ho
  exact hk.lost (h.lost hm j ((hk.journal X h.held.mine j hX).mp hj) hX hopen o ho hs)

theorem Bail.firm {ks : List (String × ContentHash)} : (party env m b t op).Firm (Bail m t X ks) :=
  Bail.stable.firm

theorem Bail.ready (h : Bail m t X [] w) : Ready m t X w := ⟨h.held, h.settled⟩

/-! ## ways out -/

namespace Working

theorem acked (h : Bond env m t X k w) (hm : m.wrapped = true) : Acked X w := by
  intro o ho
  rw [h.row] at ho
  cases ho
  exact h.acked hm

/-- a fenced coordinator may drop the object in any state -/
theorem bail_lost (h : Bond env m t X k w) (hl : Lost w) : Bail m t X k.keys w where
  held := h.held
  settled := ⟨.inl hl, acked h, h.untouched⟩
  lost := fun _ _ _ _ _ _ _ _ => hl

/-- where no reclaim is resolved by force, an open attempt is left for recovery -/
theorem bail_parked (h : Bond env m t X k w) (hw : m.wrapped = false)
    (hr : k.reserved = true) (ha : k.attempted = true) (hs : k.state ≠ .reclaimed)
    (hp : m.honest = true → k.phase.physical = true → k.state = .reclaimPending ∧
      ∃ a ∈ k.snap.archs, w.proc.config.archive a.backend = none) : Bail m t X k.keys w where
  held := h.held
  settled := by
    have hno {φ : Prop} (hm : m.wrapped = true) : φ := by
      rw [hw] at hm
      cases hm
    refine ⟨.inr ⟨fun hm => hno hm, ?_⟩, fun hm => hno hm, fun hm => hno hm⟩
    intro hm j hj hX hopen
    have hid := h.alone (.inr hm) j hj hX hopen
    obtain ⟨j₀, hj₀, he⟩ := h.journal
    obtain rfl : j = j₀ := Table.eq_of_key hj hj₀ (hid.trans he.1.symm)
    refine ⟨?_, ?_, ?_⟩
    · obtain ⟨r, hr, hre⟩ := h.reserved hr
      exact ⟨r, hr, hre.2.1.trans he.1.symm, hre.2.2.1.trans hX.symm, hre.2.2.2⟩
    · obtain ⟨a, ha, hae⟩ := h.attempted ha
      exact ⟨a, ha, hae.1.trans he.1.symm, hae.2.1.trans hX.symm, hae.2.2⟩
    · intro hph
      rw [he.2.2.1] at hph
      obtain ⟨hst, a, hmem, hnone⟩ := hp hm hph
      refine ⟨⟨k.row, by rw [hX]; exact h.row, hst⟩, k.snap, k.plan, a, he.2.2.2, hmem, hnone⟩
  lost := fun _ j _ _ _ o ho hst => by
    rw [h.row] at ho
    cases ho
    exact absurd hst hs

end Working

/-- where neither is asked for, nothing has to be resolved or parked -/
theorem Bail.of_free {ks : List (String × ContentHash)} (h : Held t X ks w)
    (hw : m.wrapped = false) (hh : m.honest = false) : Bail m t X ks w where
  held := h
  settled := by
    refine ⟨.inr ⟨?_, ?_⟩, ?_, ?_⟩
    · intro hm; rw [hw] at hm; cases hm
    · intro hm; rw [hh] at hm; cases hm
    · intro hm; rw [hw] at hm; cases hm
    · intro hm; rw [hw] at hm; cases hm
  lost := fun hm => by rw [hh] at hm; cases hm

/-! ## steps that change the bond -/

namespace Bond

/-- lineage, journal and object rows of the others decide about dependencies -/
theorem cleared_of_row (h : Cleared X w) (hrows : ∀ Y, Y ≠ X → rowOf w' Y = rowOf w Y)
    (hlin : w'.store.lineage = w.store.lineage) (hjou : w'.store.journal = w.store.journal)
    (hlog : ∃ l, w'.log = l ++ w.log) : Cleared X w' where
  safe := fun Z hZ hexp hdown => by
    refine h.safe Z hZ ?_ ?_
    · intro o ho
      rw [← hrows Z hZ] at ho
      exact hexp o ho
    · rw [Downstream, hlin] at hdown
      exact hdown
  read := h.read.mono (fun j _ hj => by rw [hjou]; exact hj) hlog

/-- the object row moves to another state -/
theorem of_row {s : LifecycleState} {T : Table ReclaimObject.id} (h : Bond env m t X k w)
    (hs : Still w w') (hd : w'.store.data = { w.store.data with objects := T })
    (hfind : ∀ Y, T.find? Y = if Y = X then some { k with state := s }.row else rowOf w Y) :
    Bond env m t X { k with state := s } w' := by
  have hobj : w'.store.objects = T := congrArg Data.objects hd
  have hjou : w'.store.journal = w.store.journal := congrArg Data.journal hd
  have hrows : ∀ Y, Y ≠ X → rowOf w' Y = rowOf w Y := by
    intro Y hY
    show w'.store.objects.find? Y = _
    rw [hobj, hfind, if_neg hY]
  have hrowX : rowOf w' X = some { k with state := s }.row := by
    show w'.store.objects.find? X = _
    rw [hobj, hfind, if_pos rfl]
  obtain ⟨l, hcall, hlog⟩ := hs.log
  exact
    { held := hs.held h.held
      row := hrowX
      journal := by rw [hjou]; exact h.journal
      alone := by rw [hjou]; exact h.alone
      reserved := by
        rw [show w'.store.reservations = w.store.reservations from congrArg Data.reservations hd]
        exact h.reserved
      attempted := by
        rw [show w'.store.attempts = w.store.attempts from congrArg Data.attempts hd]
        exact h.attempted
      acked := fun hm => (hs.acknowledged X).trans (h.acked hm)
      untouched := fun hm j hj hX hopen => by
        rw [hjou] at hj
        exact (h.untouched hm j hj hX hopen).mono hs.log
      names := fun hm d hd => by
        refine (h.names hm d hd).mono ?_
        intro Y o ho
        by_cases hY : Y = X
        · subst hY
          rw [h.row] at ho
          cases ho
          exact ⟨_, hrowX, rfl⟩
        · exact ⟨o, (hrows Y hY).trans ho, rfl⟩
      safe := fun hsafe he => cleared_of_row (h.safe hsafe he) hrows
        (congrArg Data.lineage hd) hjou ⟨l, hlog⟩
      equipped := by rw [hs.config]; exact h.equipped }

/-- everything the bond is about stays as it is -/
theorem congr {ks : List (String × ContentHash)} {rs gs : List Replica}
    {as bs : List ArchiveRecord} (h : Bond env m t X k w) (hh : Held t X ks w')
    (hobj : w'.store.objects = w.store.objects) (hlin : w'.store.lineage = w.store.lineage)
    (hjou : w'.store.journal = w.store.journal) (hatt : w'.store.attempts = w.store.attempts)
    (hres : w'.store.reservations = w.store.reservations)
    (hconf : w'.proc.config = w.proc.config)
    (hlog : ∃ l, (∀ e ∈ l, Event.isCall e = true) ∧ w'.log = l ++ w.log) :
    Bond env m t X (k.restock ks rs as gs bs) w' := by
  have hrows : ∀ Y, rowOf w' Y = rowOf w Y := fun Y => by rw [rowOf, rowOf, hobj]
  obtain ⟨l, hcall, hl⟩ := hlog
  exact
    { held := hh
      row := (hrows X).trans h.row
      journal := by rw [hjou]; exact h.journal
      alone := by rw [hjou]; exact h.alone
      reserved := by rw [hres]; exact h.reserved
      attempted := by rw [hatt]; exact h.attempted
      acked := fun hm => by
        rw [hl, acknowledged_append fun e he => Event.not_acks_of_isCall (hcall e he)]
        exact h.acked hm
      untouched := fun hm j hj hX hopen => by
        rw [hjou] at hj
        exact (h.untouched hm j hj hX hopen).mono ⟨l, hcall, hl⟩
      names := fun hm d hd => (h.names hm d hd).mono fun Y o ho => ⟨o, (hrows Y).trans ho, rfl⟩
      safe := fun hs he =>
        cleared_of_row (h.safe hs he) (fun Y _ => hrows Y) hlin hjou ⟨l, hl⟩
      equipped := by rw [hconf]; exact h.equipped }

/-- the attempt's reservation and attempt rows are closed -/
theorem of_closed {p q : Bool} (h : Bond env m t X k w) (hs : Still w w')
    (hobj : w'.store.objects = w.store.objects) (hlin : w'.store.lineage = w.store.lineage)
    (hjou : w'.store.journal = w.store.journal)
    (hres : p = true → k.reserved = true ∧ w'.store.reservations = w.store.reservations)
    (hatt : q = true → k.attempted = true ∧ w'.store.attempts = w.store.attempts) :
    Bond env m t X { k with reserved := p, attempted := q } w' := by
  have hrows : ∀ Y, rowOf w' Y = rowOf w Y := fun Y => by rw [rowOf, rowOf, hobj]
  obtain ⟨l, hcall, hl⟩ := hs.log
  exact
    { held := hs.held h.held
      row := (hrows X).trans h.row
      journal := by rw [hjou]; exact h.journal
      alone := by rw [hjou]; exact h.alone
      reserved := fun hr => by
        obtain ⟨hk, he⟩ := hres hr
        rw [he]
        exact h.reserved hk
      attempted := fun ha => by
        obtain ⟨hk, he⟩ := hatt ha
        rw [he]
        exact h.attempted hk
      acked := fun hm => (hs.acknowledged X).trans (h.acked hm)
      untouched := fun hm j hj hX hopen => by
        rw [hjou] at hj
        exact (h.untouched hm j hj hX hopen).mono hs.log
      names := fun hm d hd => (h.names hm d hd).mono fun Y o ho => ⟨o, (hrows Y).trans ho, rfl⟩
      safe := fun hsafe he =>
        cleared_of_row (h.safe hsafe he) (fun Y _ => hrows Y) hlin hjou ⟨l, hl⟩
      equipped := by rw [hs.config]; exact h.equipped }

/-- the journal row of the attempt moves to another open phase -/
theorem of_journal {j j' : JournalEntry} {ph : JournalPhase} {p : Option (List Replica)}
    {T : Table JournalEntry.attemptId} (h : Bond env m t X k w) (hs : Still w w')
    (hd : w'.store.data = { w.store.data with journal := T }) (hj : k.Entry X j)
    (hswap : RowSwap w.store.journal T j.attemptId (some j) (some j'))
    (hj' : { k with phase := ph, plan := p }.Entry X j')
    (hcreated : j'.createdAtMs = j.createdAtMs) (hopen : k.phase.isOpen = true)
    (hopen' : ph.isOpen = true)
    (hequipped : ph.physical = true → m.wrapped = true → ∀ a ∈ k.snap.archs,
      (w.proc.config.archive a.backend).isSome = true) :
    Bond env m t X { k with phase := ph, plan := p } w' := by
  have hjou : w'.store.journal = T := congrArg Data.journal hd
  have hobj : w'.store.objects = w.store.objects := congrArg Data.objects hd
  have hlin : w'.store.lineage = w.store.lineage := congrArg Data.lineage hd
  have hrows : ∀ Y, rowOf w' Y = rowOf w Y := fun Y => by rw [rowOf, rowOf, hobj]
  obtain ⟨hold, _, _, _, hmem⟩ := hswap
  have hjm : j ∈ w.store.journal := hold j rfl
  have hjo : j.phase.isOpen = true := by rw [hj.2.2.1]; exact hopen
  have hj'm : j' ∈ w'.store.journal := by rw [hjou, hmem]; exact .inr rfl
  have hid : j'.attemptId = j.attemptId := hj'.1.trans hj.1.symm
  have hcases : ∀ x, x ∈ w'.store.journal → x ∈ w.store.journal ∨ x = j' := by
    intro x hx
    rw [hjou, hmem] at hx
    rcases hx with ⟨hx, _⟩ | hx
    · exact .inl hx
    · exact .inr (Option.some.inj hx).symm
  obtain ⟨l, hcall, hl⟩ := hs.log
  exact
    { held := hs.held h.held
      row := (hrows X).trans h.row
      journal := ⟨j', hj'm, hj'⟩
      alone := fun hm x hx hX hxo => by
        rcases hcases x hx with hx | rfl
        · exact h.alone hm x hx hX hxo
        · exact hj'.1
      reserved := by
        rw [show w'.store.reservations = w.store.reservations from congrArg Data.reservations hd]
        exact h.reserved
      attempted := by
        rw [show w'.store.attempts = w.store.attempts from congrArg Data.attempts hd]
        exact h.attempted
      acked := fun hm => (hs.acknowledged X).trans (h.acked hm)
      untouched := fun hm x hx hX hxo => by
        rcases hcases x hx with hx | rfl
        · exact (h.untouched hm x hx hX hxo).mono hs.log
        · -- the new row records the same snapshot of the same attempt
          intro S p' hp
          obtain ⟨rfl, rfl⟩ := payloadOf_inj (hp.symm.trans hj'.2.2.2)
          have hu := (h.untouched hm j hjm hj.2.1 hjo).mono hs.log
          obtain ⟨hack, l₁, e, l₂, hlog, hres, hno⟩ := hu k.snap k.plan hj.2.2.2
          rw [hj.2.1] at hack hno
          rw [hX]
          refine ⟨hack, l₁, e, l₂, hlog, ?_, hno⟩
          obtain ⟨t', req, j₀, r, a, before, he, h₁, h₂, h₃, h₄⟩ := hres
          exact ⟨t', req, j₀, r, a, before, he, h₁.trans hid.symm,
            h₂.trans (hj.2.1.trans hX.symm), h₃.trans hcreated.symm, by rw [hX, ← hj.2.1]; exact h₄⟩
      names := fun hm d hdel => (h.names hm d hdel).mono fun Y o ho =>
        ⟨o, (hrows Y).trans ho, rfl⟩
      safe := fun hsafe he => by
        have hc := h.safe hsafe he
        refine ⟨?_, ?_⟩
        · intro Z hZ hexp hdown
          rw [Downstream, hlin] at hdown
          refine hc.safe Z hZ ?_ hdown
          intro o ho
          rw [← hrows Z] at ho
          exact hexp o ho
        · obtain ⟨x, hx, hxX, hxo, e, hemem, hread⟩ := hc.read
          have hemem' : e ∈ w'.log := by
            rw [hl]
            exact List.mem_append_right l hemem
          by_cases hxj : x.attemptId = j.attemptId
          · refine ⟨j', hj'm, hj'.2.1, by rw [hj'.2.2.1]; exact hopen', e, hemem', ?_⟩
            rw [hid, ← hxj]
            exact hread
          · refine ⟨x, ?_, hxX, hxo, e, hemem', hread⟩
            rw [hjou, hmem]
            exact .inl ⟨hx, hxj⟩
      equipped := by
        intro hp hm
        rw [hs.config]
        exact hequipped hp hm }

end Bond

/-! ## steps that change the stock -/

namespace Stock

/-- replica and archive rows, payloads and blobs stay as they are -/
theorem congr (h : Stock m X k w) (hrep : w'.store.replicas = w.store.replicas)
    (harc : w'.store.archives = w.store.archives) (hpay : w'.payloads = w.payloads)
    (hblob : w'.blobs = w.blobs) (hreps : k'.reps = k.reps) (harchs : k'.archs = k.archs)
    (hgone : k'.gone = k.gone) (hblobs : k'.blobs = k.blobs) : Stock m X k' w' where
  reps := by rw [hrep, hreps]; exact h.reps
  archs := by rw [harc, harchs]; exact h.archs
  present := by
    rw [hreps]
    intro d hd
    rw [Present, hrep]
    exact h.present d hd
  archived := by rw [harc, harchs]; exact h.archived
  gone := by rw [hpay, hgone]; exact h.gone
  blobs := by rw [hblob, hblobs]; exact h.blobs

/-- the first of the replica rows that are left goes -/
theorem erase_replica {r : Replica} {rs : List Replica} (h : Stock m X k w) (hok : k.Ok X)
    (hk : k.reps = r :: rs) (hrep : w'.store.replicas = w.store.replicas.erase r.replicaId)
    (harc : w'.store.archives = w.store.archives) (hpay : w'.payloads = w.payloads)
    (hblob : w'.blobs = w.blobs) : Stock m X { k with reps := rs } w' where
  reps := fun x hx hX => by
    rw [hrep, Table.mem_erase] at hx
    obtain ⟨d, hd, he⟩ := h.reps x hx.1 hX
    rw [hk] at hd
    rcases List.mem_cons.mp hd with rfl | hd
    · exact absurd (Replica.id_of_desc he).symm hx.2
    · exact ⟨d, hd, he⟩
  archs := by rw [harc]; exact h.archs
  present := fun d hd => by
    obtain ⟨x, hx, he⟩ := h.present d (by rw [hk]; exact List.mem_cons_of_mem _ hd)
    refine ⟨x, ?_, he⟩
    rw [hrep, Table.mem_erase]
    refine ⟨hx, ?_⟩
    rw [Replica.id_of_desc he]
    intro heq
    have hn := hok.nodup
    rw [hk, List.map_cons, List.nodup_cons] at hn
    exact hn.1 (heq ▸ List.mem_map_of_mem hd)
  archived := by rw [harc]; exact h.archived
  gone := by rw [hpay]; exact h.gone
  blobs := by rw [hblob]; exact h.blobs

/-- the first of the archive rows that are left goes -/
theorem erase_archive {a : ArchiveRecord} {as : List ArchiveRecord} (h : Stock m X k w)
    (hok : k.Ok X) (hk : k.archs = a :: as) (hrep : w'.store.replicas = w.store.replicas)
    (harc : w'.store.archives = w.store.archives.erase a.archiveId)
    (hpay : w'.payloads = w.payloads) (hblob : w'.blobs = w.blobs) :
    Stock m X { k with archs := as } w' where
  reps := by rw [hrep]; exact h.reps
  archs := fun x hx hX => by
    rw [harc, Table.mem_erase] at hx
    have hmem := h.archs x hx.1 hX
    rw [hk] at hmem
    rcases List.mem_cons.mp hmem with rfl | hmem
    · exact absurd rfl hx.2
    · exact hmem
  present := fun d hd => by
    rw [Present, hrep]
    exact h.present d hd
  archived := fun x hx => by
    rw [harc, Table.mem_erase]
    refine ⟨h.archived x (by rw [hk]; exact List.mem_cons_of_mem _ hx), ?_⟩
    intro heq
    have hn := hok.archNodup
    rw [hk, List.map_cons, List.nodup_cons] at hn
    exact hn.1 (heq ▸ List.mem_map_of_mem hx)
  gone := by rw [hpay]; exact h.gone
  blobs := by rw [hblob]; exact h.blobs

end Stock

end ReclaimFabric
