import ReclaimFabric.Protocol.Rely

/-!
# Steps keep the invariant

Every step of the guarantee keeps `Inv`, and so does the last step of an operation together with
its return.

* `Guar.inv`      a step;
* `Last.inv`      a return.
-/

set_option linter.unusedSectionVars false

namespace ReclaimFabric

variable {env : Env} {m : Regime} {t : Tid} {b : Bool} {op : Op} {w w' : Traced}

theorem JournalPhase.isOpen_of_physical {p : JournalPhase} (h : p.physical = true) :
    p.isOpen = true := by
  cases p with
  | physicalStarted => rfl
  | physicalDone => rfl
  | _ => cases h

/-! ## transfer -/

theorem Records.mono {j : JournalEntry} {S : Snapshot} {plan : Option (List Replica)}
    (hrows : ∀ X o, rowOf w X = some o → ∃ o', rowOf w' X = some o' ∧ o'.immut = o.immut)
    (hlog : ∃ l, w'.log = l ++ w.log) (h : Records m j S plan w) : Records m j S plan w' where
  payload := h.payload
  object := h.object
  generation := h.generation
  prior := h.prior
  recipe := h.recipe
  row := by
    obtain ⟨o, ho, he⟩ := h.row
    obtain ⟨o', ho', he'⟩ := hrows _ o ho
    exact ⟨o', ho', he'.trans he⟩
  dels := h.dels
  archs := h.archs
  planned := h.planned
  before := h.before
  started := h.started
  logged := by
    obtain ⟨l, hl⟩ := hlog
    obtain ⟨e, he, hr⟩ := h.logged
    exact ⟨e, by rw [hl]; exact List.mem_append_right l he, hr⟩

theorem Untouched.mono {j : JournalEntry}
    (hlog : ∃ l, (∀ e ∈ l, Event.isCall e = true) ∧ w'.log = l ++ w.log) (h : Untouched j w) :
    Untouched j w' := by
  obtain ⟨l, hl, he⟩ := hlog
  intro S plan hp
  obtain ⟨hack, l₁, e, l₂, hlog, hres, hno⟩ := h S plan hp
  refine ⟨by rw [he, acknowledged_append fun e hm => Event.not_acks_of_isCall (hl e hm)]; exact hack, l ++ l₁, e, l₂, ?_, hres, ?_⟩
  · rw [he, hlog, List.append_assoc]
  · intro e' he'
    rcases List.mem_append.mp he' with he' | he'
    · exact Event.not_acks_of_isCall (hl e' he')
    · exact hno e' he'

/-- nothing that concerns `X` changes -/
structure SameAt (X : Uuid) (w w' : Traced) : Prop where
  row : rowOf w' X = rowOf w X
  journal : ∀ j : JournalEntry, j.objectId = X → (j ∈ w'.store.journal ↔ j ∈ w.store.journal)
  attempts : ∀ a : Attempt, a.objectId = X → (a ∈ w'.store.attempts ↔ a ∈ w.store.attempts)
  reservations : ∀ r : Reservation, r.objectId = X →
    (r ∈ w'.store.reservations ↔ r ∈ w.store.reservations)

theorem NoOpen.congr {X : Uuid} (h : SameAt X w w') (hn : NoOpen X w) : NoOpen X w' :=
  fun j hj hX => hn j ((h.journal j hX).mp hj) hX

theorem Parked.congr {j : JournalEntry} (h : SameAt j.objectId w w')
    (hc : w'.proc.config = w.proc.config) (hp : Parked j w) : Parked j w' where
  reserved := by
    obtain ⟨r, hr, ha, hX, hs⟩ := hp.reserved
    exact ⟨r, (h.reservations r hX).mpr hr, ha, hX, hs⟩
  attempted := by
    obtain ⟨a, ha, hid, hX, hs⟩ := hp.attempted
    exact ⟨a, (h.attempts a hX).mpr ha, hid, hX, hs⟩
  physical := fun hph => by
    obtain ⟨⟨o, ho, hs⟩, S, plan, a, hpl, ha, hnone⟩ := hp.physical hph
    exact ⟨⟨o, by rw [h.row]; exact ho, hs⟩, S, plan, a, hpl, ha, by rw [hc]; exact hnone⟩

theorem Fine.congr {X : Uuid} (h : SameAt X w w') (hc : w'.proc.config = w.proc.config)
    (hf : Fine m X w) : Fine m X w' where
  resolved := fun hm => (hf.resolved hm).congr h
  parked := fun hm j hj hX hopen => by
    subst hX
    exact (hf.parked hm j ((h.journal j rfl).mp hj) rfl hopen).congr h hc

theorem Acked.congr {X : Uuid} (hrow : rowOf w' X = rowOf w X)
    (hack : acknowledged X w'.log = acknowledged X w.log) (h : Acked X w) : Acked X w' := by
  intro o ho
  rw [hrow] at ho
  rw [hack]
  exact h o ho

theorem Decided.congr {j : JournalEntry} (hp : w'.payloads = w.payloads)
    (hb : w'.blobs = w.blobs) (h : Decided j w) : Decided j w' := by
  obtain ⟨S, plan, hpl, hph, hempty, hgone, hblobs⟩ := h
  exact ⟨S, plan, hpl, hph, hempty, by rw [hp]; exact hgone, by rw [hb]; exact hblobs⟩

/-! ## steps that change only the store -/

/-- the invariant after a step that changes only the store -/
theorem Inv.of_still (hi : Inv env m b w) (h : Still w w')
    (hrows : ∀ X o, rowOf w' X = some o → o.RowOk)
    (hrecipe : m.recipe = true → ∀ X o, rowOf w' X = some o → Doomed o.lifecycleState → o.Recipe)
    (harch : ∀ a ∈ w'.store.archives, ArchiveKeyOf a.objectId a.key)
    (hjournal : ∀ j ∈ w'.store.journal, ∃ S plan, Records m j S plan w')
    (hsingle : SingleReservation w')
    (hsame : w.proc.activeRecovery = none → ∀ X, Unowned X w → SameAt X w w')
    (hacked : m.wrapped = true → ∀ X, Unowned X w → Acked X w → Acked X w')
    (huntouched : m.wrapped = true → ∀ j ∈ w'.store.journal, j.phase.isOpen = true →
      Untouched j w')
    (htruth : m.honest = true → Truthful env m b w → Truthful env m b w') : Inv env m b w' where
  own := by
    intro X t u
    rw [Own, Own, h.activeObjects]
    exact hi.own X t u
  pay := by
    intro k t u
    rw [Pay, Pay, h.activePayloads]
    exact hi.pay k t u
  recovery := by
    intro t
    rw [Recovering, h.activeRecovery, h.activeObjects, h.activePayloads]
    exact hi.recovery t
  opening := by
    rw [h.activeObjects, h.activePayloads]
    exact hi.opening
  rows := hrows
  recipe := hrecipe
  archives := harch
  journal := hjournal
  single := hsingle
  settled := by
    intro hb hnone X hX
    rw [h.activeRecovery] at hnone
    have hX : Unowned X w := by
      intro u hu
      refine hX u ?_
      rw [Own, h.activeObjects]
      exact hu
    rcases hi.settled hb hnone X hX with hl | hf
    · exact .inl (h.authorityLost hl)
    · exact .inr (hf.congr (hsame hnone X hX) h.config)
  acked := by
    intro hm X hX
    have hX : Unowned X w := by
      intro u hu
      refine hX u ?_
      rw [Own, h.activeObjects]
      exact hu
    exact hacked hm X hX (hi.acked hm X hX)
  untouched := huntouched
  truthful := fun hm => htruth hm (hi.truthful hm)

/-- the fields that hold because the object rows and the journal are unchanged -/
theorem Inv.of_metadata (hi : Inv env m b w) (h : Still w w')
    (hobj : w'.store.objects = w.store.objects) (hjou : w'.store.journal = w.store.journal)
    (harch : ∀ a ∈ w'.store.archives, ArchiveKeyOf a.objectId a.key)
    (hatt : w.proc.activeRecovery = none → ∀ X, Unowned X w → ∀ a : Attempt, a.objectId = X →
      (a ∈ w'.store.attempts ↔ a ∈ w.store.attempts))
    (hres : w.proc.activeRecovery = none → ∀ X, Unowned X w → ∀ r : Reservation,
      r.objectId = X → (r ∈ w'.store.reservations ↔ r ∈ w.store.reservations))
    (hsub : ∀ r ∈ w'.store.reservations, r.status = .isOpen → r ∈ w.store.reservations)
    (htruth : m.honest = true → Truthful env m b w → Truthful env m b w') : Inv env m b w' := by
  have hrow : ∀ X, rowOf w' X = rowOf w X := fun X => by rw [rowOf, rowOf, hobj]
  refine hi.of_still h ?_ ?_ harch ?_ (hi.single.mono hsub) ?_ ?_ ?_ htruth
  · intro X o ho
    rw [hrow] at ho
    exact hi.rows X o ho
  · intro hm X o ho
    rw [hrow] at ho
    exact hi.recipe hm X o ho
  · intro j hj
    rw [hjou] at hj
    obtain ⟨S, plan, hr⟩ := hi.journal j hj
    obtain ⟨l, _, hl⟩ := h.log
    exact ⟨S, plan, hr.mono (fun X o ho => ⟨o, by rw [hrow]; exact ho, rfl⟩) ⟨l, hl⟩⟩
  · intro hnone X hX
    exact ⟨hrow X, fun j _ => by rw [hjou], hatt hnone X hX, hres hnone X hX⟩
  · intro _ X _ ha
    exact ha.congr (hrow X) (h.acknowledged X)
  · intro hm j hj hopen
    rw [hjou] at hj
    exact (hi.untouched hm j hj hopen).mono h.log

/-! ## truthful backends, table by table -/

section
variable (hi : Inv env m b w) (hm : m.honest = true)
include hi hm

/-- a step that leaves the object rows, the journal, payloads and blobs alone -/
theorem Truthful.of_metadata (hq : Still w w') (hobj : w'.store.objects = w.store.objects)
    (hjou : w'.store.journal = w.store.journal)
    (hempty : ∀ X o, rowOf w X = some o → o.lifecycleState = .reclaimed →
      (∀ r ∈ w'.store.replicas, r.objectId ≠ X) ∧ ∀ a ∈ w'.store.archives, a.objectId ≠ X)
    (hcovered : ∀ j ∈ w.store.journal, j.phase.physical = true →
      ∀ S plan, j.payload = payloadOf S plan →
      (∀ r ∈ w'.store.replicas, r.objectId = j.objectId → ∃ d ∈ S.dels, d.desc = r.desc) ∧
        ∀ a ∈ w'.store.archives, a.objectId = j.objectId → a ∈ S.archs)
    (hrep : ∀ r ∈ w'.store.replicas, Named env m.bytes w r.location.key r.contentHash)
    (hded : ∀ e ∈ w'.store.dedup, Named env m.bytes w e.key e.contentHash) :
    Truthful env m b w' := by
  have h := hi.truthful hm
  have hrow : ∀ X, rowOf w' X = rowOf w X := fun X => by rw [rowOf, rowOf, hobj]
  have hnamed {k x} (hn : Named env m.bytes w k x) : Named env m.bytes w' k x :=
    hn.mono fun X o ho => ⟨o, by rw [hrow]; exact ho, rfl⟩
  exact
    { unique := by rw [hjou]; exact h.unique
      empty := by simp only [hrow]; exact hempty
      decided := by
        simp only [hrow, hjou]
        exact fun j hj ho o hr hs => (h.decided j hj ho o hr hs).congr hq.payloads hq.blobs
      covered := by rw [hjou]; exact hcovered
      guarded := by
        simp only [hrow, hjou, hq.activeRecovery, Own, Pay, hq.activeObjects, hq.activePayloads]
        exact fun hb hn hl => h.guarded hb hn fun hl' => hl (hq.authorityLost hl')
      replicas := fun r hr => hnamed (hrep r hr)
      dedup := fun e he => hnamed (hded e he)
      dels := by
        rw [hjou]
        exact fun j hj S plan hp d hd => hnamed (h.dels j hj S plan hp d hd) }

/-- the tables that are spoken of are unchanged -/
theorem Truthful.of_others (hq : Still w w') (hobj : w'.store.objects = w.store.objects)
    (hjou : w'.store.journal = w.store.journal) (hrep : w'.store.replicas = w.store.replicas)
    (harch : w'.store.archives = w.store.archives) (hded : w'.store.dedup = w.store.dedup) :
    Truthful env m b w' := by
  have ht := hi.truthful hm
  refine .of_metadata hi hm hq hobj hjou ?_ ?_ ?_ ?_
  · rw [hrep, harch]
    exact ht.empty
  · rw [hrep, harch]
    exact ht.covered
  · rw [hrep]
    exact ht.replicas
  · rw [hded]
    exact ht.dedup

theorem Truthful.of_row {X : Uuid} {o' : ReclaimObject} (hq : Still w w')
    (hfind : ∀ Y, rowOf w' Y = if Y = X then some o' else rowOf w Y)
    (hrep : w'.store.replicas = w.store.replicas) (harch : w'.store.archives = w.store.archives)
    (hded : w'.store.dedup = w.store.dedup) (hjou : w'.store.journal = w.store.journal)
    (hj : RowJust m t op w X o') : Truthful env m b w' := by
  have h := hi.truthful hm
  have hrows : ∀ Y o, rowOf w Y = some o → ∃ o', rowOf w' Y = some o' ∧ o'.immut = o.immut := by
    intro Y o ho
    rw [hfind]
    by_cases hY : Y = X
    · subst hY
      exact ⟨o', if_pos rfl, hj.immut hi ho⟩
    · exact ⟨o, by rw [if_neg hY]; exact ho, rfl⟩
  have hnamed {k x} (hn : Named env m.bytes w k x) : Named env m.bytes w' k x := hn.mono hrows
  -- how a row that is RECLAIMED afterwards got there
  have hwhy : o'.lifecycleState = .reclaimed →
      (∃ o, rowOf w X = some o ∧ o.lifecycleState = .reclaimed) ∨
      (((∀ r ∈ w.store.replicas, r.objectId ≠ X) ∧ ∀ a ∈ w.store.archives, a.objectId ≠ X) ∧
        ∃ j ∈ w.store.journal, j.objectId = X ∧ j.phase.isOpen = true ∧ Decided j w ∧
          (Recovering t w ∨ Own t X w ∧ ∀ S plan, j.payload = payloadOf S (some plan) →
            ∀ r ∈ plan, Pay t r.slot w)) := by
    intro hs
    cases hj with
    | create _ _ hst => rcases hst with hst | hst <;> rw [hst] at hs <;> cases hs
    | flags _ ho' _ hst => exact .inl ⟨_, ho', hst ▸ hs⟩
    | tier _ _ _ _ _ hst _ => rcases hst with hst | hst | hst <;> rw [hst] at hs <;> cases hs
    | route _ _ _ _ _ _ _ hnew _ => rcases hnew with rfl | rfl <;> cases hs
    | abort _ _ _ hj' _ _ _ hp' hnew =>
      subst hnew
      exact absurd hs (hi.records hj' hp').prior.notReclaimed
    | commit _ ho _ hj' hX' hph hp' _ hr ha hpay _ =>
      refine .inr ⟨⟨hr, ha⟩, _, hj', hX', by rw [hph]; rfl, (hpay hm).1, .inr ⟨ho, ?_⟩⟩
      intro S plan hp
      obtain ⟨rfl, he⟩ := payloadOf_inj (hp.symm.trans hp')
      cases he
      exact (hpay hm).2
    | rollback _ _ hj' _ _ hp' hnew _ =>
      subst hnew
      exact absurd hs (hi.records hj' hp').prior.notReclaimed
    | recommit _ hrec _ hj' hX' hph _ _ _ hdec =>
      obtain ⟨hd, hr, ha⟩ := hdec hm
      exact .inr ⟨⟨hr, ha⟩, _, hj', hX', JournalPhase.isOpen_of_physical hph, hd, .inl hrec⟩
    | abandon _ _ _ _ hnew => subst hnew; cases hs
  exact
    { unique := by rw [hjou]; exact h.unique
      empty := by
        rw [hrep, harch]
        intro Y o ho hs
        rw [hfind] at ho
        by_cases hY : Y = X
        · subst hY
          rw [if_pos rfl] at ho
          cases ho
          rcases hwhy hs with ⟨o, ho, hs⟩ | ⟨he, _⟩
          · exact h.empty Y o ho hs
          · exact he
        · rw [if_neg hY] at ho
          exact h.empty Y o ho hs
      decided := by
        rw [hjou]
        intro j hjm hopen o ho hs
        refine Decided.congr hq.payloads hq.blobs ?_
        rw [hfind] at ho
        by_cases hX : j.objectId = X
        · rw [if_pos hX] at ho
          cases ho
          rcases hwhy hs with ⟨o, ho, hs⟩ | ⟨_, j₀, hj₀, hX₀, ho₀, hd, _⟩
          · exact h.decided j hjm hopen o (hX ▸ ho) hs
          · rw [h.unique j₀ hj₀ j hjm ho₀ hopen (hX.trans hX₀.symm)]
            exact hd
        · rw [if_neg hX] at ho
          exact h.decided j hjm hopen o ho hs
      covered := by rw [hjou, hrep, harch]; exact h.covered
      guarded := by
        rw [hjou, hq.activeRecovery]
        simp only [Own, Pay, hq.activeObjects, hq.activePayloads]
        intro hb hnone hl j hjm hopen o ho hs
        have hl' : ¬Lost w := fun hl' => hl (hq.authorityLost hl')
        rw [hfind] at ho
        by_cases hX : j.objectId = X
        · rw [if_pos hX] at ho
          cases ho
          rcases hwhy hs with ⟨o, ho, hs⟩ | ⟨_, j₀, hj₀, hX₀, ho₀, _, hrec | ⟨hown, hpay⟩⟩
          · exact h.guarded hb hnone hl' j hjm hopen o (hX ▸ ho) hs
          · rw [Recovering, hnone] at hrec
            cases hrec
          · have := h.unique j₀ hj₀ j hjm ho₀ hopen (hX.trans hX₀.symm)
            subst this
            exact ⟨t, by rw [hX]; exact hown, hpay⟩
        · rw [if_neg hX] at ho
          exact h.guarded hb hnone hl' j hjm hopen o ho hs
      replicas := by rw [hrep]; exact fun r hr => hnamed (h.replicas r hr)
      dedup := by rw [hded]; exact fun e he => hnamed (h.dedup e he)
      dels := by
        rw [hjou]
        exact fun j hj S plan hp d hd => hnamed (h.dels j hj S plan hp d hd) }

theorem Truthful.of_replica {id : Uuid} {old new : Option Replica}
    (hq : Still w w') (hobj : w'.store.objects = w.store.objects)
    (harch : w'.store.archives = w.store.archives) (hded : w'.store.dedup = w.store.dedup)
    (hjou : w'.store.journal = w.store.journal)
    (hswap : RowSwap w.store.replicas w'.store.replicas id old new)
    (hj : ReplicaJust env m t w old new) : Truthful env m b w' := by
  have h := hi.truthful hm
  obtain ⟨hold, _, _, _, hmem⟩ := hswap
  refine .of_metadata hi hm hq hobj hjou ?_ ?_ ?_ (by rw [hded]; exact h.dedup)
  · intro X o ho hs
    obtain ⟨hr, ha⟩ := h.empty X o ho hs
    rw [harch]
    refine ⟨?_, ha⟩
    intro r hrm
    rcases (hmem r).mp hrm with ⟨hrm, _⟩ | hn
    · exact hr r hrm
    · cases hj with
      | add _ _ hst _ =>
        cases hn
        rintro rfl
        rcases hst with hst | ⟨o', ho', ht⟩
        · rw [hst] at ho
          cases ho
        · rw [ho] at ho'
          cases ho'
          rw [Tiered, hs] at ht
          simp at ht
      | delete _ _ => cases hn
      | @update r₀ r₁ _ hd _ =>
        cases hn
        have := congrArg Replica.objectId hd
        rw [show r.objectId = r₀.objectId from this]
        exact hr r₀ (hold r₀ rfl)
      | putBack _ _ _ _ _ hX hst =>
        cases hn
        rintro rfl
        exact hst hm o (hX ▸ ho) hs
      | recommit _ _ _ _ => cases hn
  · intro j hjm hph S plan hp
    obtain ⟨hr, ha⟩ := h.covered j hjm hph S plan hp
    rw [harch]
    refine ⟨?_, ha⟩
    intro r hrm hX
    rcases (hmem r).mp hrm with ⟨hrm, _⟩ | hn
    · exact hr r hrm hX
    · cases hj with
      | add _ _ _ hno =>
        cases hn
        rw [(hno hm).1 j hjm hX.symm] at hph
        cases hph
      | delete _ _ => cases hn
      | @update r₀ r₁ _ hd _ =>
        cases hn
        have hX₀ : r₀.objectId = j.objectId := by
          have := congrArg Replica.objectId hd
          exact Eq.trans this.symm hX
        obtain ⟨d, hdm, he⟩ := hr r₀ (hold r₀ rfl) hX₀
        exact ⟨d, hdm, he.trans hd.symm⟩
      | @putBack _ j₀ S₀ plan₀ _ hj₀ ho₀ hp₀ hmem₀ hX₀ _ =>
        cases hn
        have := h.unique j₀ hj₀ j hjm ho₀ (JournalPhase.isOpen_of_physical hph)
          (hX.symm.trans hX₀)
        subst this
        obtain ⟨rfl, _⟩ := payloadOf_inj (hp.symm.trans hp₀)
        exact ⟨r, hmem₀, rfl⟩
      | recommit _ _ _ _ => cases hn
  · intro r hrm
    rcases (hmem r).mp hrm with ⟨hrm, _⟩ | hn
    · exact h.replicas r hrm
    · cases hj with
      | add _ _ _ hname => cases hn; exact (hname hm).2
      | delete _ _ => cases hn
      | @update r₀ r₁ _ hd _ =>
        cases hn
        have hl := congrArg Replica.location hd
        have hh := congrArg Replica.contentHash hd
        rw [show r.location = r₀.location from hl, show r.contentHash = r₀.contentHash from hh]
        exact h.replicas r₀ (hold r₀ rfl)
      | putBack _ hj₀ _ hp₀ hmem₀ _ _ => cases hn; exact h.dels _ hj₀ _ _ hp₀ r hmem₀
      | recommit _ _ _ _ => cases hn

theorem Truthful.of_archive {id : String} {old new : Option ArchiveRecord}
    (hq : Still w w') (hobj : w'.store.objects = w.store.objects)
    (hrep : w'.store.replicas = w.store.replicas) (hded : w'.store.dedup = w.store.dedup)
    (hjou : w'.store.journal = w.store.journal)
    (hswap : RowSwap w.store.archives w'.store.archives id old new)
    (hj : ArchiveJust m t w old new) : Truthful env m b w' := by
  have h := hi.truthful hm
  obtain ⟨hold, _, _, _, hmem⟩ := hswap
  refine .of_metadata hi hm hq hobj hjou ?_ ?_ (by rw [hrep]; exact h.replicas)
    (by rw [hded]; exact h.dedup)
  · intro X o ho hs
    obtain ⟨hr, ha⟩ := h.empty X o ho hs
    rw [hrep]
    refine ⟨hr, ?_⟩
    intro a ham
    rcases (hmem a).mp ham with ⟨ham, _⟩ | hn
    · exact ha a ham
    · cases hj with
      | add _ ho' ht _ _ =>
        cases hn
        rintro rfl
        rw [ho] at ho'
        cases ho'
        rw [Tiered, hs] at ht
        simp at ht
      | delete _ => cases hn
      | putBack _ _ _ _ _ hX hst =>
        cases hn
        rintro rfl
        exact hst hm o (hX ▸ ho) hs
      | recommit _ _ _ _ => cases hn
  · intro j hjm hph S plan hp
    obtain ⟨hr, ha⟩ := h.covered j hjm hph S plan hp
    rw [hrep]
    refine ⟨hr, ?_⟩
    intro a ham hX
    rcases (hmem a).mp ham with ⟨ham, _⟩ | hn
    · exact ha a ham hX
    · cases hj with
      | add _ _ _ _ hno =>
        cases hn
        rw [hno hm j hjm hX.symm] at hph
        cases hph
      | delete _ => cases hn
      | @putBack _ j₀ S₀ plan₀ _ hj₀ ho₀ hp₀ hmem₀ hX₀ _ =>
        cases hn
        have := h.unique j₀ hj₀ j hjm ho₀ (JournalPhase.isOpen_of_physical hph)
          (hX.symm.trans hX₀)
        subst this
        obtain ⟨rfl, _⟩ := payloadOf_inj (hp.symm.trans hp₀)
        exact hmem₀
      | recommit _ _ _ _ => cases hn

/-- the journal changes, the object rows do not -/
theorem Truthful.of_journal (hq : Still w w') (hobj : w'.store.objects = w.store.objects)
    (hrep : w'.store.replicas = w.store.replicas) (harch : w'.store.archives = w.store.archives)
    (hded : w'.store.dedup = w.store.dedup) {k : Uuid} {old : Option JournalEntry}
    {j' : JournalEntry} (hswap : RowSwap w.store.journal w'.store.journal k old (some j'))
    (hunique : j'.phase.isOpen = true → ∀ j ∈ w.store.journal, j.phase.isOpen = true →
      j.objectId = j'.objectId → old = some j)
    (hreclaimed : j'.phase.isOpen = true → ∀ o, rowOf w j'.objectId = some o →
      o.lifecycleState = .reclaimed → Decided j' w ∧ ∃ j, old = some j ∧
        j.phase.isOpen = true ∧ j'.objectId = j.objectId ∧ j'.payload = j.payload)
    (hcovered : j'.phase.physical = true → ∀ S plan, j'.payload = payloadOf S plan →
      (∀ r ∈ w.store.replicas, r.objectId = j'.objectId → ∃ d ∈ S.dels, d.desc = r.desc) ∧
        ∀ a ∈ w.store.archives, a.objectId = j'.objectId → a ∈ S.archs)
    (hdels : ∀ S plan, j'.payload = payloadOf S plan →
      ∀ d ∈ S.dels, Named env m.bytes w d.location.key d.contentHash) :
    Truthful env m b w' := by
  have h := hi.truthful hm
  have hrow : ∀ X, rowOf w' X = rowOf w X := fun X => by rw [rowOf, rowOf, hobj]
  have hnamed {k x} (hn : Named env m.bytes w k x) : Named env m.bytes w' k x :=
    hn.mono fun X o ho => ⟨o, by rw [hrow]; exact ho, rfl⟩
  obtain ⟨hold, hkey, hko, hkn, hmem⟩ := hswap
  exact
    { unique := by
        intro x hx y hy hxo hyo he
        rcases (hmem x).mp hx with ⟨hx, hxk⟩ | hx
        · rcases (hmem y).mp hy with ⟨hy, _⟩ | hy
          · exact h.unique x hx y hy hxo hyo he
          · cases hy
            exact absurd (hko x (hunique hyo x hx hxo he.symm)) hxk
        · cases hx
          rcases (hmem y).mp hy with ⟨hy, hyk⟩ | hy
          · exact absurd (hko y (hunique hxo y hy hyo he)) hyk
          · cases hy
            rfl
      empty := by simp only [hrow, hrep, harch]; exact h.empty
      decided := by
        simp only [hrow]
        intro x hx hopen o ho hs
        refine Decided.congr hq.payloads hq.blobs ?_
        rcases (hmem x).mp hx with ⟨hx, _⟩ | hx
        · exact h.decided x hx hopen o ho hs
        · cases hx
          exact (hreclaimed hopen o ho hs).1
      covered := by
        rw [hrep, harch]
        intro x hx
        rcases (hmem x).mp hx with ⟨hx, _⟩ | hx
        · exact h.covered x hx
        · cases hx
          exact hcovered
      guarded := by
        simp only [hrow, hq.activeRecovery, Own, Pay, hq.activeObjects, hq.activePayloads]
        intro hb hn hl x hx hopen o ho hs
        have hl' : ¬Lost w := fun hl' => hl (hq.authorityLost hl')
        rcases (hmem x).mp hx with ⟨hx, _⟩ | hx
        · exact h.guarded hb hn hl' x hx hopen o ho hs
        · cases hx
          obtain ⟨_, j, hj, hjo, hX, hp⟩ := hreclaimed hopen o ho hs
          rw [hX, hp]
          exact h.guarded hb hn hl' j (hold j hj) hjo o (hX ▸ ho) hs
      replicas := by rw [hrep]; exact fun r hr => hnamed (h.replicas r hr)
      dedup := by rw [hded]; exact fun e he => hnamed (h.dedup e he)
      dels := by
        intro x hx S plan hp d hd
        refine hnamed ?_
        rcases (hmem x).mp hx with ⟨hx, _⟩ | hx
        · exact h.dels x hx S plan hp d hd
        · cases hx
          exact hdels S plan hp d hd }

/-- the store is unchanged -/
theorem Truthful.of_store (hs : w'.store = w.store)
    (hnone : w'.proc.activeRecovery = none → w.proc.activeRecovery = none)
    (hdecided : ∀ j ∈ w.store.journal, ∀ o, rowOf w j.objectId = some o →
      o.lifecycleState = .reclaimed → Decided j w → Decided j w')
    (hguarded : ¬Lost w' → ∀ j ∈ w.store.journal, j.phase.isOpen = true →
      ∀ o, rowOf w j.objectId = some o → o.lifecycleState = .reclaimed → ∀ u,
      ¬Lost w → Own u j.objectId w → (∀ S plan, j.payload = payloadOf S (some plan) →
        ∀ r ∈ plan, Pay u r.slot w) →
      Own u j.objectId w' ∧ ∀ S plan, j.payload = payloadOf S (some plan) →
        ∀ r ∈ plan, Pay u r.slot w')
    (hlost : Lost w → Lost w') : Truthful env m b w' := by
  have h := hi.truthful hm
  have hrow : ∀ X, rowOf w' X = rowOf w X := fun X => by rw [rowOf, rowOf, hs]
  have hnamed {k x} (hn : Named env m.bytes w k x) : Named env m.bytes w' k x :=
    hn.mono fun X o ho => ⟨o, by rw [hrow]; exact ho, rfl⟩
  exact
    { unique := by rw [hs]; exact h.unique
      empty := by simp only [hrow, hs]; exact h.empty
      decided := by
        simp only [hrow, hs]
        exact fun j hj ho o hr hst => hdecided j hj o hr hst (h.decided j hj ho o hr hst)
      covered := by rw [hs]; exact h.covered
      guarded := by
        simp only [hrow, hs]
        intro hb hn hl j hj hopen o ho hst
        have hl' : ¬Lost w := fun hl' => hl (hlost hl')
        obtain ⟨u, hu, hpay⟩ := h.guarded hb (hnone hn) hl' j hj hopen o ho hst
        exact ⟨u, hguarded hl j hj hopen o ho hst u hl' hu hpay⟩
      replicas := by rw [hs]; exact fun r hr => hnamed (h.replicas r hr)
      dedup := by rw [hs]; exact fun e he => hnamed (h.dedup e he)
      dels := by rw [hs]; exact fun j hj S plan hp d hd => hnamed (h.dels j hj S plan hp d hd) }

end

/-! ## steps that leave the store alone -/

theorem isCall_log (h : ∃ e, Event.isCall e = true ∧ w'.log = e :: w.log) :
    ∃ l, (∀ e ∈ l, Event.isCall e = true) ∧ w'.log = l ++ w.log := by
  obtain ⟨e, he, hl⟩ := h
  exact ⟨[e], fun x hx => by rw [List.mem_singleton.mp hx]; exact he, hl⟩

theorem Inv.of_store (hi : Inv env m b w) (hs : w'.store = w.store)
    (hlog : ∃ e, Event.isCall e = true ∧ w'.log = e :: w.log)
    (hconfig : w'.proc.config = w.proc.config) (hlost : Lost w → Lost w')
    (hown : ∀ X t u, Own t X w' → Own u X w' → u = t)
    (hpay : ∀ k t u, Pay t k w' → Pay u k w' → u = t)
    (hrec : ∀ t, Recovering t w' → w'.proc.activeObjects = [] ∧ w'.proc.activePayloads = [])
    (hopening : b = false → w'.proc.activeObjects = [] ∧ w'.proc.activePayloads = [])
    (hfree : ∀ X, Unowned X w' → Unowned X w)
    (hnone : w'.proc.activeRecovery = none → w.proc.activeRecovery = none)
    (htruth : m.honest = true → Truthful env m b w') : Inv env m b w' := by
  have hrow : ∀ X, rowOf w' X = rowOf w X := fun X => by rw [rowOf, rowOf, hs]
  have hsame : ∀ X, SameAt X w w' := fun X =>
    ⟨hrow X, fun j _ => by rw [hs], fun a _ => by rw [hs], fun r _ => by rw [hs]⟩
  exact
    { own := hown
      pay := hpay
      recovery := hrec
      opening := hopening
      rows := by simp only [hrow]; exact hi.rows
      recipe := by simp only [hrow]; exact hi.recipe
      archives := by rw [hs]; exact hi.archives
      journal := by
        rw [hs]
        intro j hj
        obtain ⟨S, plan, hr⟩ := hi.journal j hj
        obtain ⟨e, _, hl⟩ := hlog
        exact ⟨S, plan, hr.mono (fun X o ho => ⟨o, by rw [hrow]; exact ho, rfl⟩) ⟨[e], hl⟩⟩
      single := hi.single.mono (by rw [hs]; exact fun _ h _ => h)
      settled := by
        intro hb hn X hX
        rcases hi.settled hb (hnone hn) X (hfree X hX) with hl | hf
        · exact .inl (hlost hl)
        · exact .inr (hf.congr (hsame X) hconfig)
      acked := fun hm X hX => (hi.acked hm X (hfree X hX)).congr (hrow X) ((log_cons (t := 0) hlog).2 X)
      untouched := by
        rw [hs]
        exact fun hm j hj hopen => (hi.untouched hm j hj hopen).mono (isCall_log hlog)
      truthful := htruth }

/-- only payloads or blobs change -/
theorem Inv.of_external (hi : Inv env m b w) (hs : w'.store = w.store)
    (hlog : ∃ e, Event.isCall e = true ∧ w'.log = e :: w.log) (hproc : w'.proc = w.proc)
    (htruth : m.honest = true → Truthful env m b w') : Inv env m b w' := by
  refine hi.of_store hs hlog (by rw [hproc]) (by rw [Lost, Lost, hproc]; exact id)
    ?_ ?_ ?_ ?_ ?_ (by rw [hproc]; exact id) htruth
  · intro Y u v
    rw [Own, Own, hproc]
    exact hi.own Y u v
  · intro k u v
    rw [Pay, Pay, hproc]
    exact hi.pay k u v
  · simp only [Recovering, hproc]
    exact hi.recovery
  · rw [hproc]
    exact hi.opening
  · intro Y hY u hu
    refine hY u ?_
    rw [Own, hproc]
    exact hu

/-! ## one kind of step after another -/

section
variable (hi : Inv env m b w)
include hi

theorem RowJust.recipe {X : Uuid} {o' : ReclaimObject} (h : RowJust m t op w X o')
    (hm : m.recipe = true) (hd : Doomed o'.lifecycleState) : o'.Recipe := by
  cases h with
  | create _ _ hs => rcases hs with hs | hs <;> rw [Doomed, hs] at hd <;> simp at hd
  | flags _ ho himm hs => exact Recipe_congr himm (hi.recipe hm X _ ho (hs ▸ hd))
  | tier _ _ _ _ _ hs _ => rcases hs with hs | hs | hs <;> rw [Doomed, hs] at hd <;> simp at hd
  | route _ _ hj _ _ hp _ hnew _ =>
    have hr := (hi.records hj hp).recipe hm
    rcases hnew with rfl | rfl
    · exact Recipe_congr rfl hr
    · exact Recipe_congr rfl hr
  | abort _ _ _ hj _ _ _ hp hnew =>
    subst hnew
    exact (hi.records hj hp).recipe hm
  | commit _ _ _ hj _ _ hp hnew _ _ _ _ =>
    subst hnew
    exact Recipe_congr rfl ((hi.records hj hp).recipe hm)
  | rollback _ _ hj _ _ hp hnew _ =>
    subst hnew
    exact (hi.records hj hp).recipe hm
  | recommit _ _ ho hj hX _ himm _ _ _ =>
    subst hX
    obtain ⟨S, plan, hr⟩ := hi.journal _ hj
    exact Recipe_congr (himm.trans (hr.row_of ho)) (hr.recipe hm)
  | abandon _ _ _ _ hnew =>
    subst hnew
    rw [Doomed] at hd
    simp at hd

/-- recovery writes rows with the values that were acknowledged -/
theorem RowJust.acked {X : Uuid} {o' : ReclaimObject} (h : RowJust m t op w X o')
    (hm : m.wrapped = true) (hX : Unowned X w) :
    acknowledged X w.log = some o'.flags := by
  have hrow : ∀ o, rowOf w X = some o → acknowledged X w.log = some o.flags :=
    hi.acked hm X hX
  cases h with
  | create ho => exact absurd ho (hX t)
  | flags ho => exact absurd ho (hX t)
  | tier ho => exact absurd ho (hX t)
  | route ho => exact absurd ho (hX t)
  | abort ho => exact absurd ho (hX t)
  | commit _ ho => exact absurd ho (hX t)
  | rollback _ _ hj hjX hopen hp hnew _ =>
    subst hjX hnew
    exact (hi.untouched hm _ hj hopen _ _ hp).1
  | recommit _ _ ho _ _ _ _ hf _ _ => rw [hf]; exact hrow _ ho
  | abandon _ _ ho _ hnew =>
    have := hrow _ ho
    subst hnew
    exact this

theorem Inv.row {X : Uuid} {o' : ReclaimObject} (h : Still w w')
    (hfind : ∀ Y, rowOf w' Y = if Y = X then some o' else rowOf w Y)
    (hrep : w'.store.replicas = w.store.replicas) (harch : w'.store.archives = w.store.archives)
    (hded : w'.store.dedup = w.store.dedup) (hjou : w'.store.journal = w.store.journal)
    (hatt : w'.store.attempts = w.store.attempts)
    (hres : w'.store.reservations = w.store.reservations)
    (hok : o'.RowOk) (hj : RowJust m t op w X o') : Inv env m b w' := by
  have hrows : ∀ Y o, rowOf w Y = some o → ∃ o', rowOf w' Y = some o' ∧ o'.immut = o.immut := by
    intro Y o ho
    rw [hfind]
    by_cases hY : Y = X
    · subst hY
      exact ⟨o', if_pos rfl, hj.immut hi ho⟩
    · exact ⟨o, by rw [if_neg hY]; exact ho, rfl⟩
  refine hi.of_still h ?_ ?_ (by rw [harch]; exact hi.archives) ?_
    (hi.single.mono (by rw [hres]; exact fun _ hr _ => hr)) ?_ ?_ ?_ ?_
  · intro Y o ho
    rw [hfind] at ho
    by_cases hY : Y = X
    · rw [if_pos hY] at ho
      cases ho
      exact hok
    · rw [if_neg hY] at ho
      exact hi.rows Y o ho
  · intro hm Y o ho hd
    rw [hfind] at ho
    by_cases hY : Y = X
    · rw [if_pos hY] at ho
      cases ho
      exact hj.recipe hi hm hd
    · rw [if_neg hY] at ho
      exact hi.recipe hm Y o ho hd
  · rw [hjou]
    intro j hjm
    obtain ⟨S, plan, hr⟩ := hi.journal j hjm
    obtain ⟨l, _, hl⟩ := h.log
    exact ⟨S, plan, hr.mono hrows ⟨l, hl⟩⟩
  · intro hnone Y hY
    refine ⟨?_, fun j _ => by rw [hjou], fun a _ => by rw [hatt], fun r _ => by rw [hres]⟩
    rw [hfind, if_neg]
    rintro rfl
    rcases hj.holder with ho | hr
    · exact hY t ho
    · rw [Recovering, hnone] at hr
      cases hr
  · intro hm Y hY hack o ho
    rw [h.acknowledged]
    rw [hfind] at ho
    by_cases hYX : Y = X
    · subst hYX
      rw [if_pos rfl] at ho
      cases ho
      exact hj.acked hi hm hY
    · rw [if_neg hYX] at ho
      exact hack o ho
  · rw [hjou]
    exact fun hm j hjm hopen => (hi.untouched hm j hjm hopen).mono h.log
  · exact fun hm _ => .of_row hi hm h hfind hrep harch hded hjou hj

theorem Inv.reserve {j : JournalEntry} {r : Reservation} {a : Attempt} {S : Snapshot}
    (h : Still w w') (hobj : w'.store.objects = w.store.objects)
    (hrep : w'.store.replicas = w.store.replicas) (harch : w'.store.archives = w.store.archives)
    (hded : w'.store.dedup = w.store.dedup)
    (hJ : RowSwap w.store.journal w'.store.journal j.attemptId none (some j))
    (hV : RowSwap w.store.reservations w'.store.reservations r.reservationId none (some r))
    (hA : RowSwap w.store.attempts w'.store.attempts a.attemptId none (some a))
    (hlog : w'.log =
      .call t op (.store (.createReclaimReservation j r a)) (.ok ()) w.toWorld :: w.log)
    (hj : ReserveJust env m t op w j r a S) : Inv env m b w' := by
  have hrow : ∀ X, rowOf w' X = rowOf w X := fun X => by rw [rowOf, rowOf, hobj]
  have hid : S.prior.id = j.objectId := Table.key_of_find? hj.row
  have hreserves : Event.Reserves j S.prior
      (.call t op (.store (.createReclaimReservation j r a)) (.ok ()) w.toWorld) := by
    obtain ⟨req, rfl⟩ := hj.reclaim
    exact ⟨t, req, j, r, a, w.toWorld, rfl, rfl, rfl, hj.reservation.2.2.2, hj.row⟩
  refine hi.of_still h ?_ ?_ (by rw [harch]; exact hi.archives) ?_ ?_ ?_ ?_ ?_ ?_
  · simp only [hrow]
    exact hi.rows
  · simp only [hrow]
    exact hi.recipe
  · intro x hx
    rcases (hJ.2.2.2.2 x).mp hx with ⟨hx, _⟩ | hx
    · obtain ⟨S', plan, hr⟩ := hi.journal x hx
      exact ⟨S', plan, hr.mono (fun X o ho => ⟨o, by rw [hrow]; exact ho, rfl⟩) ⟨[_], hlog⟩⟩
    · cases hx
      exact ⟨S, none,
        { payload := hj.payload
          object := hid
          generation := hj.generation.symm
          prior := hj.prior
          recipe := hj.recipe
          row := ⟨S.prior, by rw [hrow]; exact hj.row, rfl⟩
          dels := fun d hd => (hj.dels d hd).1
          archs := hj.archs
          planned := by simp
          before := fun _ _ => rfl
          started := fun hph => by rw [hj.phase] at hph; cases hph
          logged := ⟨_, by rw [hlog]; exact List.mem_cons_self, hreserves⟩ }⟩
  · intro x hx y hy hxo hyo hX
    rcases (hV.2.2.2.2 x).mp hx with ⟨hx, _⟩ | hx
    · rcases (hV.2.2.2.2 y).mp hy with ⟨hy, _⟩ | hy
      · exact hi.single x hx y hy hxo hyo hX
      · cases hy
        exact absurd hxo (hj.vacant x hx (hX.trans hj.reservation.2.1))
    · cases hx
      rcases (hV.2.2.2.2 y).mp hy with ⟨hy, _⟩ | hy
      · exact absurd hyo (hj.vacant y hy (hX.symm.trans hj.reservation.2.1))
      · exact Option.some.inj hy
  · intro _ Y hY
    have hne : j.objectId ≠ Y := by
      rintro rfl
      exact hY t hj.own
    refine ⟨hrow Y, hJ.other (by simp) ?_, hA.other (by simp) ?_, hV.other (by simp) ?_⟩
    · rintro x ⟨⟩
      exact hne
    · rintro x ⟨⟩
      rw [hj.attempt.2.1]
      exact hne
    · rintro x ⟨⟩
      rw [hj.reservation.2.1]
      exact hne
  · exact fun _ Y _ ha => ha.congr (hrow Y) (h.acknowledged Y)
  · intro hm x hx hopen
    rcases (hJ.2.2.2.2 x).mp hx with ⟨hx, _⟩ | hx
    · exact (hi.untouched hm x hx hopen).mono h.log
    · cases hx
      intro S' plan hp
      obtain ⟨rfl, _⟩ := payloadOf_inj (hp.symm.trans hj.payload)
      refine ⟨by rw [h.acknowledged]; exact hj.acked hm, [], _, w.log, hlog, hreserves, ?_⟩
      exact fun e he => absurd he List.not_mem_nil
  · intro hm _
    have hopen : NoOpen j.objectId w := hj.alone hm
    refine .of_journal hi hm h hobj hrep harch hded hJ ?_ ?_ ?_ ?_
    · intro _ x hx hxo hX
      rw [hopen x hx hX] at hxo
      cases hxo
    · intro _ o ho hs
      rw [hj.row] at ho
      cases ho
      exact absurd hs hj.prior.notReclaimed
    · intro hph
      rw [hj.phase] at hph
      cases hph
    · intro S' plan hp d hd
      obtain ⟨rfl, _⟩ := payloadOf_inj (hp.symm.trans hj.payload)
      exact (hj.dels d hd).2 hm

/-- the payload of a journal row that was changed records the same snapshot -/
theorem JournalJust.records {j j' : JournalEntry} {S : Snapshot} {plan : Option (List Replica)}
    (h : JournalJust t w j j') (hid : j'.attemptId = j.attemptId) (hX : j'.objectId = j.objectId)
    (hgen : j'.generation = j.generation) (hat : j'.createdAtMs = j.createdAtMs)
    (hr : Records m j S plan w) : ∃ plan', Records m j' S plan' w := by
  have hlogged : ∃ e ∈ w.log, e.Reserves j' S.prior := by
    obtain ⟨e, he, t', req, j₀, r, a, before, rfl, h₁, h₂, h₃, h₄⟩ := hr.logged
    refine ⟨_, he, t', req, j₀, r, a, before, rfl, h₁.trans hid.symm, h₂.trans hX.symm,
      h₃.trans hat.symm, ?_⟩
    rw [hX]
    exact h₄
  have hkeep (plan' : Option (List Replica)) (hp : j'.payload = payloadOf S plan')
      (hplan : ∀ p, plan' = some p → ∀ r ∈ p, r ∈ S.dels)
      (hbefore : j'.phase.isOpen = true → j'.phase.physical = false → plan' = none)
      (hstarted : j'.phase.physical = true → plan'.isSome = true) : Records m j' S plan' w :=
    { payload := hp
      object := hr.object.trans hX.symm
      generation := hr.generation.trans hgen.symm
      prior := by rw [hat]; exact hr.prior
      recipe := hr.recipe
      row := by rw [hX]; exact hr.row
      dels := by rw [hX]; exact hr.dels
      archs := by rw [hX]; exact hr.archs
      planned := hplan
      before := hbefore
      started := hstarted
      logged := hlogged }
  cases h with
  | validate _ hph hph' hp =>
    refine ⟨plan, hkeep plan (hp.trans hr.payload) hr.planned ?_ ?_⟩
    · exact fun _ _ => hr.before (by rw [hph]; rfl) (by rw [hph]; rfl)
    · intro h
      rw [hph'] at h
      cases h
  | @start S' plan' _ hph hph' hp hp' hsub _ _ _ =>
    obtain ⟨rfl, _⟩ := payloadOf_inj (hp.symm.trans hr.payload)
    refine ⟨some plan', hkeep (some plan') hp' ?_ ?_ (fun _ => rfl)⟩
    · rintro p ⟨⟩
      exact hsub
    · intro _ h
      rw [hph'] at h
      cases h
  | done _ hph hph' hp =>
    refine ⟨plan, hkeep plan (hp.trans hr.payload) hr.planned ?_ ?_⟩
    · intro _ h
      rw [hph'] at h
      cases h
    · exact fun _ => hr.started (by rw [hph]; rfl)
  | close _ _ hph' hp =>
    refine ⟨plan, hkeep plan (hp.trans hr.payload) hr.planned ?_ ?_⟩
    · intro h
      rw [hph'] at h
      cases h
    · intro h
      rw [JournalPhase.isOpen_of_physical h] at hph'
      cases hph'

theorem Inv.journalStep {j j' : JournalEntry} (h : Still w w')
    (hobj : w'.store.objects = w.store.objects)
    (hrep : w'.store.replicas = w.store.replicas) (harch : w'.store.archives = w.store.archives)
    (hded : w'.store.dedup = w.store.dedup) (hatt : w'.store.attempts = w.store.attempts)
    (hres : w'.store.reservations = w.store.reservations)
    (hJ : RowSwap w.store.journal w'.store.journal j.attemptId (some j) (some j'))
    (hX : j'.objectId = j.objectId) (hgen : j'.generation = j.generation)
    (hat : j'.createdAtMs = j.createdAtMs) (hj : JournalJust t w j j') : Inv env m b w' := by
  have hrow : ∀ X, rowOf w' X = rowOf w X := fun X => by rw [rowOf, rowOf, hobj]
  have hjm : j ∈ w.store.journal := hJ.1 j rfl
  have hid : j'.attemptId = j.attemptId := hJ.2.2.2.1 j' rfl
  obtain ⟨S, plan, hr⟩ := hi.journal j hjm
  obtain ⟨plan', hr'⟩ := hj.records hi hid hX hgen hat hr
  obtain ⟨l, _, hl⟩ := h.log
  have hmono {x : JournalEntry} {S plan} (hx : Records m x S plan w) : Records m x S plan w' :=
    hx.mono (fun X o ho => ⟨o, by rw [hrow]; exact ho, rfl⟩) ⟨l, hl⟩
  refine hi.of_still h ?_ ?_ (by rw [harch]; exact hi.archives) ?_
    (hi.single.mono (by rw [hres]; exact fun _ hr _ => hr)) ?_ ?_ ?_ ?_
  · simp only [hrow]
    exact hi.rows
  · simp only [hrow]
    exact hi.recipe
  · intro x hx
    rcases (hJ.2.2.2.2 x).mp hx with ⟨hx, _⟩ | hx
    · obtain ⟨S', plan'', hr''⟩ := hi.journal x hx
      exact ⟨S', plan'', hmono hr''⟩
    · cases hx
      exact ⟨S, plan', hmono hr'⟩
  · intro hnone Y hY
    have hne : j.objectId ≠ Y := by
      rintro rfl
      rcases hj.holder with ho | hrec
      · exact hY t ho
      · rw [Recovering, hnone] at hrec
        cases hrec
    refine ⟨hrow Y, hJ.other ?_ ?_, fun a _ => by rw [hatt], fun r _ => by rw [hres]⟩
    · rintro x ⟨⟩
      exact hne
    · rintro x ⟨⟩
      rw [hX]
      exact hne
  · exact fun _ Y _ ha => ha.congr (hrow Y) (h.acknowledged Y)
  · intro hm x hx hopen
    rcases (hJ.2.2.2.2 x).mp hx with ⟨hx, _⟩ | hx
    · exact (hi.untouched hm x hx hopen).mono h.log
    · cases hx
      refine Untouched.mono h.log ?_
      intro S' plan'' hp
      obtain ⟨rfl, _⟩ := payloadOf_inj (hp.symm.trans hr'.payload)
      obtain ⟨hack, l₁, e, l₂, hlog, hres, hno⟩ :=
        hi.untouched hm j hjm hj.wasOpen S' plan hr.payload
      obtain ⟨t', req, j₀, r, a, before, rfl, h₁, h₂, h₃, h₄⟩ := hres
      rw [hX]
      refine ⟨hack, l₁, _, l₂, hlog, ⟨t', req, j₀, r, a, before, rfl, h₁.trans hid.symm,
        h₂.trans hX.symm, h₃.trans hat.symm, ?_⟩, hno⟩
      rw [hX]
      exact h₄
  · intro hm ht
    -- a RECLAIMED object: only the step to PHYSICAL_DONE leaves its journal open
    have hreclaimed : j'.phase.isOpen = true → ∀ o, rowOf w j'.objectId = some o →
        o.lifecycleState = .reclaimed → Decided j' w ∧ j'.payload = j.payload := by
      intro hopen o ho hs
      rw [hX] at ho
      obtain ⟨S₀, p₀, hp₀, hph₀, hempty, hgone⟩ := ht.decided j hjm hj.wasOpen o ho hs
      cases hj with
      | validate _ hph _ _ => rw [hph] at hph₀; cases hph₀
      | start _ hph _ _ _ _ _ _ _ => rw [hph] at hph₀; cases hph₀
      | done _ _ hph' hp =>
        exact ⟨⟨S₀, p₀, hp.trans hp₀, by rw [hph']; rfl, fun _ _ => hph', hgone⟩, hp⟩
      | close _ _ hph' _ => rw [hph'] at hopen; cases hopen
    refine .of_journal hi hm h hobj hrep harch hded hJ ?_ ?_ ?_ ?_
    · intro hopen x hx hxo he
      rw [ht.unique j hjm x hx hj.wasOpen hxo (he.trans hX)]
    · intro hopen o ho hs
      obtain ⟨hd, hp⟩ := hreclaimed hopen o ho hs
      exact ⟨hd, j, rfl, hj.wasOpen, hX, hp⟩
    · intro hph S' plan'' hp
      rw [hX]
      cases hj with
      | validate _ _ hph' _ => rw [hph'] at hph; cases hph
      | start _ _ _ _ hp' _ _ hrows harchs =>
        obtain ⟨rfl, _⟩ := payloadOf_inj (hp.symm.trans hp')
        exact ⟨hrows, harchs⟩
      | done _ hph' _ hp' =>
        exact ht.covered j hjm (by rw [hph']; rfl) S' plan'' (hp'.symm.trans hp)
      | close _ _ hph' _ => rw [JournalPhase.isOpen_of_physical hph] at hph'; cases hph'
    · intro S' plan'' hp d hd
      obtain ⟨rfl, _⟩ := payloadOf_inj (hp.symm.trans hr'.payload)
      exact ht.dels j hjm S' plan hr.payload d hd

/-- a guard on an object is taken -/
theorem Inv.of_acquire {X : Uuid} (hb : b = true) (hfree : Unowned X w)
    (hnone : w.proc.activeRecovery = none) (hs : w'.store = w.store)
    (hp : w'.payloads = w.payloads) (hbl : w'.blobs = w.blobs)
    (hproc : w'.proc = { w.proc with activeObjects := (X, t) :: w.proc.activeObjects })
    (hlog : ∃ e, Event.isCall e = true ∧ w'.log = e :: w.log) : Inv env m b w' := by
  refine hi.of_store hs hlog (by rw [hproc]) (by rw [Lost, Lost, hproc]; exact id)
    ?_ ?_ ?_ ?_ ?_ (by rw [hproc]; exact id) ?_
  · intro Y u v
    rw [Own, Own, hproc, List.mem_cons, List.mem_cons]
    rintro (hu | hu) (hv | hv)
    · rw [(Prod.mk.inj hu).2, (Prod.mk.inj hv).2]
    · exact absurd ((Prod.mk.inj hu).1 ▸ hv) (hfree v)
    · exact absurd ((Prod.mk.inj hv).1 ▸ hu) (hfree u)
    · exact hi.own Y u v hu hv
  · intro k u v
    rw [Pay, Pay, hproc]
    exact hi.pay k u v
  · intro u hu
    rw [Recovering, hproc] at hu
    rw [hnone] at hu
    cases hu
  · intro h
    rw [hb] at h
    cases h
  · intro Y hY u hu
    refine hY u ?_
    rw [Own, hproc]
    exact List.mem_cons_of_mem _ hu
  · intro hm
    refine .of_store hi hm hs (by rw [hproc]; exact id) ?_ ?_
      (by rw [Lost, Lost, hproc]; exact id)
    · exact fun j _ o _ _ hd => hd.congr hp hbl
    · intro _ j _ _ o _ _ u _ hu hpay
      refine ⟨?_, ?_⟩
      · rw [Own, hproc]
        exact List.mem_cons_of_mem _ hu
      · simp only [Pay, hproc]
        exact hpay

/-- guards on payloads are taken -/
theorem Inv.of_acquireKeys {ks : List (String × ContentHash)} (hb : b = true)
    (hfree : ∀ k ∈ ks, ∀ u, ¬Pay u k w) (hnone : w.proc.activeRecovery = none)
    (hs : w'.store = w.store) (hp : w'.payloads = w.payloads)
    (hbl : w'.blobs = w.blobs)
    (hproc : w'.proc = { w.proc with
      activePayloads := ks.map (fun k => (k, t)) ++ w.proc.activePayloads })
    (hlog : ∃ e, Event.isCall e = true ∧ w'.log = e :: w.log) : Inv env m b w' := by
  refine hi.of_store hs hlog (by rw [hproc]) (by rw [Lost, Lost, hproc]; exact id)
    ?_ ?_ ?_ ?_ ?_ (by rw [hproc]; exact id) ?_
  · intro Y u v
    rw [Own, Own, hproc]
    exact hi.own Y u v
  · intro k u v
    rw [Pay, Pay, hproc, List.mem_append, List.mem_append, List.mem_map, List.mem_map]
    rintro (⟨x, hx, hu⟩ | hu) (⟨y, hy, hv⟩ | hv)
    · rw [← (Prod.mk.inj hu).2, ← (Prod.mk.inj hv).2]
    · exact absurd ((Prod.mk.inj hu).1 ▸ hv) (hfree x hx v)
    · exact absurd ((Prod.mk.inj hv).1 ▸ hu) (hfree y hy u)
    · exact hi.pay k u v hu hv
  · intro u hu
    rw [Recovering, hproc] at hu
    rw [hnone] at hu
    cases hu
  · intro h
    rw [hb] at h
    cases h
  · intro Y hY u hu
    refine hY u ?_
    rw [Own, hproc]
    exact hu
  · intro hm
    refine .of_store hi hm hs (by rw [hproc]; exact id) ?_ ?_
      (by rw [Lost, Lost, hproc]; exact id)
    · exact fun j _ o _ _ hd => hd.congr hp hbl
    · intro _ j _ _ o _ _ u _ hu hpay
      refine ⟨by rw [Own, hproc]; exact hu, ?_⟩
      intro S plan hpl r hr
      rw [Pay, hproc]
      exact List.mem_append_right _ (hpay S plan hpl r hr)

/-- guards on payloads are dropped -/
theorem Inv.of_dropKeys {ks : List (String × ContentHash)}
    (hmine : ∀ k ∈ ks, ∀ u, Pay u k w → u = t)
    (hlost : m.honest = true → ∀ X, Own t X w → ∀ j ∈ w.store.journal, j.objectId = X →
      j.phase.isOpen = true → ∀ o, rowOf w X = some o → o.lifecycleState = .reclaimed → Lost w)
    (hs : w'.store = w.store) (hp : w'.payloads = w.payloads)
    (hbl : w'.blobs = w.blobs)
    (hproc : w'.proc = { w.proc with
      activePayloads := w.proc.activePayloads.filter (fun e => decide (e.1 ∉ ks)) })
    (hlog : ∃ e, Event.isCall e = true ∧ w'.log = e :: w.log) : Inv env m b w' := by
  refine hi.of_store hs hlog (by rw [hproc]) (by rw [Lost, Lost, hproc]; exact id)
    ?_ ?_ ?_ ?_ ?_ (by rw [hproc]; exact id) ?_
  · intro Y u v
    rw [Own, Own, hproc]
    exact hi.own Y u v
  · intro k u v
    rw [Pay, Pay, hproc, List.mem_filter, List.mem_filter]
    exact fun hu hv => hi.pay k u v hu.1 hv.1
  · intro u hu
    rw [Recovering, hproc] at hu
    obtain ⟨ho, hpy⟩ := hi.recovery u hu
    rw [hproc]
    exact ⟨ho, by rw [hpy]; rfl⟩
  · intro h
    obtain ⟨ho, hpy⟩ := hi.opening h
    rw [hproc]
    exact ⟨ho, by rw [hpy]; rfl⟩
  · intro Y hY u hu
    refine hY u ?_
    rw [Own, hproc]
    exact hu
  · intro hm
    refine .of_store hi hm hs (by rw [hproc]; exact id) ?_ ?_
      (by rw [Lost, Lost, hproc]; exact id)
    · exact fun j _ o _ _ hd => hd.congr hp hbl
    · intro _ j hj hopen o ho hst u hl hu hpay
      refine ⟨by rw [Own, hproc]; exact hu, ?_⟩
      intro S plan hpl r hr
      rw [Pay, hproc, List.mem_filter, decide_eq_true_iff]
      refine ⟨hpay S plan hpl r hr, ?_⟩
      intro hk
      have hut : u = t := hmine _ hk u (hpay S plan hpl r hr)
      subst hut
      exact hl (hlost hm _ hu j hj rfl hopen o ho hst)

/-- recovery begins when no guard is held -/
theorem Inv.of_acquireRecovery (hnone : w.proc.activeRecovery = none)
    (hao : w.proc.activeObjects = []) (hap : w.proc.activePayloads = [])
    (hs : w'.store = w.store) (hp : w'.payloads = w.payloads)
    (hbl : w'.blobs = w.blobs)
    (hproc : w'.proc = { w.proc with activeRecovery := some t })
    (hlog : ∃ e, Event.isCall e = true ∧ w'.log = e :: w.log) : Inv env m b w' := by
  refine hi.of_store hs hlog (by rw [hproc]) (by rw [Lost, Lost, hproc]; exact id)
    ?_ ?_ ?_ ?_ ?_ ?_ ?_
  · intro Y u v
    rw [Own, Own, hproc]
    exact hi.own Y u v
  · intro k u v
    rw [Pay, Pay, hproc]
    exact hi.pay k u v
  · intro _ _
    rw [hproc]
    exact ⟨hao, hap⟩
  · intro _
    rw [hproc]
    exact ⟨hao, hap⟩
  · intro Y hY u hu
    refine hY u ?_
    rw [Own, hproc]
    exact hu
  · exact fun _ => hnone
  · intro hm
    refine .of_store hi hm hs (fun _ => hnone) ?_ ?_ (by rw [Lost, Lost, hproc]; exact id)
    · exact fun j _ o _ _ hd => hd.congr hp hbl
    · intro _ j _ _ o _ _ u _ hu _
      rw [Own, hao] at hu
      exact absurd hu List.not_mem_nil

theorem Inv.of_archive {id : String} {old new : Option ArchiveRecord}
    {T : Table ArchiveRecord.archiveId} (hstill : Still w w')
    (hdata : w'.store.data = { w.store.data with archives := T })
    (hswap : RowSwap w.store.archives T id old new) (hj : ArchiveJust m t w old new) :
    Inv env m b w' := by
  have harch : w'.store.archives = T := congrArg Data.archives hdata
  have hatt : w'.store.attempts = w.store.attempts := congrArg Data.attempts hdata
  have hres : w'.store.reservations = w.store.reservations := congrArg Data.reservations hdata
  refine hi.of_metadata hstill (congrArg Data.objects hdata) (congrArg Data.journal hdata)
    ?_ (fun _ _ _ a _ => by rw [hatt]) (fun _ _ _ r _ => by rw [hres])
    (by rw [hres]; exact fun _ hr _ => hr) ?_
  · rw [harch]
    intro a ha
    rcases (hswap.2.2.2.2 a).mp ha with ⟨ha, _⟩ | hn
    · exact hi.archives a ha
    · cases hj with
      | add _ _ _ hk _ => cases hn; exact hk
      | delete _ => cases hn
      | putBack _ hj _ hp hmem hX _ =>
        cases hn
        rw [hX]
        exact ((hi.records hj hp).archs a hmem).2
      | recommit _ _ _ _ => cases hn
  · exact fun hm _ => .of_archive hi hm hstill (congrArg Data.objects hdata)
      (congrArg Data.replicas hdata) (congrArg Data.dedup hdata) (congrArg Data.journal hdata)
      (harch ▸ hswap) hj

theorem Inv.of_dedup {h : ContentHash} {be : String}
    {T : Table (fun e : DedupEntry => (e.contentHash, e.backend))} (hstill : Still w w')
    (hdata : w'.store.data = { w.store.data with dedup := T })
    (hother : ∀ k, k ≠ (h, be) → T.find? k = w.store.dedup.find? k)
    (hname : m.honest = true → ∀ e, T.find? (h, be) = some e → Named env m.bytes w e.key h) :
    Inv env m b w' := by
  have hded : w'.store.dedup = T := congrArg Data.dedup hdata
  have hrep : w'.store.replicas = w.store.replicas := congrArg Data.replicas hdata
  have harch : w'.store.archives = w.store.archives := congrArg Data.archives hdata
  have hatt : w'.store.attempts = w.store.attempts := congrArg Data.attempts hdata
  have hres : w'.store.reservations = w.store.reservations := congrArg Data.reservations hdata
  refine hi.of_metadata hstill (congrArg Data.objects hdata) (congrArg Data.journal hdata)
    (by rw [harch]; exact hi.archives) (fun _ _ _ a _ => by rw [hatt])
    (fun _ _ _ r _ => by rw [hres])
    (by rw [hres]; exact fun _ hr _ => hr) ?_
  intro hm ht
  refine .of_metadata hi hm hstill (congrArg Data.objects hdata) (congrArg Data.journal hdata)
    ?_ ?_ ?_ ?_
  · rw [hrep, harch]
    exact ht.empty
  · rw [hrep, harch]
    exact ht.covered
  · rw [hrep]
    exact ht.replicas
  · rw [hded]
    intro e he
    have hfind := Table.find?_of_mem he
    by_cases hk : (e.contentHash, e.backend) = (h, be)
    · rw [hk] at hfind
      rw [(Prod.mk.inj hk).1]
      exact hname hm e hfind
    · rw [hother _ hk] at hfind
      exact ht.dedup e (Table.mem_of_find? hfind)

/-- an attempt whose object is guarded -/
theorem Inv.of_attempt {a : Attempt} {status : AttemptStatus} {now : Int}
    {T : Table Attempt.attemptId} (hstill : Still w w')
    (hdata : w'.store.data = { w.store.data with attempts := T })
    (hswap : RowSwap w.store.attempts T a.attemptId (some a)
      (some { a with status := status, updatedAtMs := now }))
    (hgrd : Own t a.objectId w ∨ Recovering t w) : Inv env m b w' := by
  have hao : w'.store.attempts = T := congrArg Data.attempts hdata
  have hrep : w'.store.replicas = w.store.replicas := congrArg Data.replicas hdata
  have hded : w'.store.dedup = w.store.dedup := congrArg Data.dedup hdata
  have harch : w'.store.archives = w.store.archives := congrArg Data.archives hdata
  have hres : w'.store.reservations = w.store.reservations := congrArg Data.reservations hdata
  refine hi.of_metadata hstill (congrArg Data.objects hdata) (congrArg Data.journal hdata)
    (by rw [harch]; exact hi.archives) ?_ (fun _ _ _ r _ => by rw [hres])
    (by rw [hres]; exact fun _ hr _ => hr) ?_
  · intro hnone Y hY
    have hne : a.objectId ≠ Y := by
      rintro rfl
      rcases hgrd with ho | hrec
      · exact hY t ho
      · rw [Recovering, hnone] at hrec
        cases hrec
    rw [hao]
    exact hswap.other (by rintro x ⟨⟩; exact hne) (by rintro x ⟨⟩; exact hne)
  · exact fun hm _ => .of_others hi hm hstill (congrArg Data.objects hdata)
      (congrArg Data.journal hdata) hrep harch hded

/-- reservations of guarded objects are closed -/
theorem Inv.of_reservations {which : Reservation → Bool} {status : ReservationStatus}
    (hstill : Still w w')
    (hdata : w'.store.data = { w.store.data with
      reservations := Store.closeReservations which status w.store.reservations })
    (hgrd : ∀ r ∈ w.store.reservations, which r = true → Own t r.objectId w ∨ Recovering t w) :
    Inv env m b w' := by
  have hvo : w'.store.reservations = Store.closeReservations which status
      w.store.reservations := congrArg Data.reservations hdata
  have hrep : w'.store.replicas = w.store.replicas := congrArg Data.replicas hdata
  have hded : w'.store.dedup = w.store.dedup := congrArg Data.dedup hdata
  have harch : w'.store.archives = w.store.archives := congrArg Data.archives hdata
  have hatt : w'.store.attempts = w.store.attempts := congrArg Data.attempts hdata
  refine hi.of_metadata hstill (congrArg Data.objects hdata) (congrArg Data.journal hdata)
    (by rw [harch]; exact hi.archives) (fun _ _ _ a _ => by rw [hatt]) ?_ ?_ ?_
  · intro hnone Y hY r hr
    rw [hvo]
    refine mem_closeReservations_of_other ?_ hr
    rintro y hy hw rfl
    rcases hgrd y hy hw with ho | hrec
    · exact hY t ho
    · rw [Recovering, hnone] at hrec
      cases hrec
  · rw [hvo]
    exact fun r hr ho => mem_of_closeReservations hr ho
  · exact fun hm _ => .of_others hi hm hstill (congrArg Data.objects hdata)
      (congrArg Data.journal hdata) hrep harch hded

/-- a payload under its guard; one that is planned away is not written -/
theorem Inv.of_payload (hinj : m.honest = true → Set.InjOn env.sha256 m.bytes) {be k : String}
    {h : ContentHash} {v : Option Bytes}
    (hnamed : m.honest = true → Named env m.bytes w k h ∧ (v ≠ none → NoGhost (be, h) w))
    (hs : w'.store = w.store) (hpl : w'.payloads = (w.setPayload be k v).payloads)
    (hbl : w'.blobs = w.blobs) (hproc : w'.proc = w.proc)
    (hlog : ∃ e, Event.isCall e = true ∧ w'.log = e :: w.log) : Inv env m b w' := by
  refine hi.of_external hs hlog hproc ?_
  intro hm
  obtain ⟨hn, hghost⟩ := hnamed hm
  refine .of_store hi hm hs (by rw [hproc]; exact id) ?_ ?_
    (by rw [Lost, Lost, hproc]; exact id)
  · intro j hj o ho hst hd
    obtain ⟨S, plan, hpp, hph, hempty, hgone, hblobs⟩ := hd
    refine ⟨S, plan, hpp, hph, hempty, ?_, by rw [hbl]; exact hblobs⟩
    intro r hr
    rw [hpl]
    by_cases hat : r.location.backend = be ∧ r.location.key = k
    · -- the written key is planned, so nothing may be put there
      cases v with
      | none => exact if_pos hat
      | some d =>
        have hrd := (hi.records hj hpp).planned plan rfl r hr
        have hrn := (hi.truthful hm).dels j hj S _ hpp r hrd
        rw [hat.2] at hrn
        have hh : r.contentHash = h := hrn.functional (hinj hm) hn
        refine absurd ?_ (hghost (by simp) j hj (JournalPhase.isOpen_of_physical hph) o ho
          hst S plan hpp r hr)
        rw [Replica.slot, hat.1, hh]
    · rw [setPayload_ne hat]
      exact hgone r hr
  · intro _ j _ _ o _ _ u _ hu hpay
    refine ⟨by rw [Own, hproc]; exact hu, ?_⟩
    simp only [Pay, hproc]
    exact hpay

/-- a blob of a guarded object -/
theorem Inv.of_blob {X : Uuid} {a k : String} {v : Option Bytes} (hk : ArchiveKeyOf X k)
    (hst : m.honest = true → v ≠ none → ∀ o, rowOf w X = some o → o.lifecycleState ≠ .reclaimed)
    (hs : w'.store = w.store) (hpl : w'.payloads = w.payloads)
    (hbl : w'.blobs = (w.setBlob a k v).blobs) (hproc : w'.proc = w.proc)
    (hlog : ∃ e, Event.isCall e = true ∧ w'.log = e :: w.log) : Inv env m b w' := by
  refine hi.of_external hs hlog hproc ?_
  intro hm
  refine .of_store hi hm hs (by rw [hproc]; exact id) ?_ ?_
    (by rw [Lost, Lost, hproc]; exact id)
  · intro j hj o ho hs hd
    obtain ⟨S, plan, hpp, hph, hempty, hgone, hblobs⟩ := hd
    refine ⟨S, plan, hpp, hph, hempty, by rw [hpl]; exact hgone, ?_⟩
    intro x hx
    rw [hbl]
    by_cases hat : x.backend = a ∧ x.key = k
    · cases v with
      | none => exact if_pos hat
      | some d =>
        have hkx := ((hi.records hj hpp).archs x hx).2
        rw [hat.2] at hkx
        have hX := hkx.inj hk
        exact absurd hs (hst hm (by simp) o (hX ▸ ho))
    · rw [setBlob_ne hat]
      exact hblobs x hx
  · intro _ j _ _ o _ _ u _ hu hpay
    refine ⟨by rw [Own, hproc]; exact hu, ?_⟩
    simp only [Pay, hproc]
    exact hpay

/-! ## every step -/

/-- **Steps keep the invariant.** -/
theorem Guar.inv (hinj : m.honest = true → Set.InjOn env.sha256 m.bytes)
    (h : Guar env m b t op w w') : Inv env m b w' := by
  cases h with
  | quiet h =>
    refine hi.of_metadata h.toStill h.objects h.journal (by rw [h.archives]; exact hi.archives)
      (fun _ _ _ a _ => by rw [h.attempts]) (fun _ _ _ r _ => by rw [h.reservations])
      (by rw [h.reservations]; exact fun _ hr _ => hr) ?_
    exact fun hm _ => .of_others hi hm h.toStill h.objects h.journal h.replicas h.archives h.dedup
  | acquire hb hfree hnone hs hp hbl hproc hlog =>
    exact hi.of_acquire hb hfree hnone hs hp hbl hproc hlog
  | acquireKeys hb _ hfree hnone hs hp hbl hproc hlog =>
    exact hi.of_acquireKeys hb hfree hnone hs hp hbl hproc hlog
  | dropKeys hmine hlost hs hp hbl hproc hlog =>
    exact hi.of_dropKeys hmine hlost hs hp hbl hproc hlog
  | acquireRecovery _ hnone hao hap hs hp hbl hproc hlog =>
    exact hi.of_acquireRecovery hnone hao hap hs hp hbl hproc hlog
  | @row X o' T hstill hdata hfind _ hok hj =>
    have hobj : w'.store.objects = T := congrArg Data.objects hdata
    refine hi.row hstill ?_ (congrArg Data.replicas hdata)
      (congrArg Data.archives hdata) (congrArg Data.dedup hdata) (congrArg Data.journal hdata)
      (congrArg Data.attempts hdata) (congrArg Data.reservations hdata) hok hj
    intro Y
    rw [rowOf, hobj]
    exact hfind Y
  | @replica id old new T hstill hdata hswap hj =>
    have hrep : w'.store.replicas = T := congrArg Data.replicas hdata
    have harch : w'.store.archives = w.store.archives := congrArg Data.archives hdata
    have hatt : w'.store.attempts = w.store.attempts := congrArg Data.attempts hdata
    have hres : w'.store.reservations = w.store.reservations := congrArg Data.reservations hdata
    refine hi.of_metadata hstill (congrArg Data.objects hdata) (congrArg Data.journal hdata)
      (by rw [harch]; exact hi.archives) (fun _ _ _ a _ => by rw [hatt])
      (fun _ _ _ r _ => by rw [hres])
      (by rw [hres]; exact fun _ hr _ => hr) ?_
    exact fun hm _ => .of_replica hi hm hstill (congrArg Data.objects hdata) harch
      (congrArg Data.dedup hdata) (congrArg Data.journal hdata) (hrep ▸ hswap) hj
  | archive hstill hdata hswap hj => exact hi.of_archive hstill hdata hswap hj
  | dedup hstill hdata hother _ hname => exact hi.of_dedup hstill hdata hother hname
  | @lineage T hstill hdata _ =>
    have harch : w'.store.archives = w.store.archives := congrArg Data.archives hdata
    have hatt : w'.store.attempts = w.store.attempts := congrArg Data.attempts hdata
    have hres : w'.store.reservations = w.store.reservations := congrArg Data.reservations hdata
    refine hi.of_metadata hstill (congrArg Data.objects hdata) (congrArg Data.journal hdata)
      (by rw [harch]; exact hi.archives) (fun _ _ _ a _ => by rw [hatt])
      (fun _ _ _ r _ => by rw [hres])
      (by rw [hres]; exact fun _ hr _ => hr) ?_
    exact fun hm _ => .of_others hi hm hstill (congrArg Data.objects hdata)
      (congrArg Data.journal hdata) (congrArg Data.replicas hdata) harch (congrArg Data.dedup hdata)
  | @reserve j r a S J V A hstill hdata hJ hV hA hlog hj =>
    have hjo : w'.store.journal = J := congrArg Data.journal hdata
    have hvo : w'.store.reservations = V := congrArg Data.reservations hdata
    have hao : w'.store.attempts = A := congrArg Data.attempts hdata
    exact hi.reserve hstill (congrArg Data.objects hdata) (congrArg Data.replicas hdata)
      (congrArg Data.archives hdata) (congrArg Data.dedup hdata) (hjo ▸ hJ) (hvo ▸ hV)
      (hao ▸ hA) hlog hj
  | @journal j j' T hstill hdata hswap hX hgen hat hj =>
    have hjo : w'.store.journal = T := congrArg Data.journal hdata
    exact hi.journalStep hstill (congrArg Data.objects hdata) (congrArg Data.replicas hdata)
      (congrArg Data.archives hdata) (congrArg Data.dedup hdata) (congrArg Data.attempts hdata)
      (congrArg Data.reservations hdata) (hjo ▸ hswap) hX hgen hat hj
  | attempt hstill hdata hswap hgrd => exact hi.of_attempt hstill hdata hswap hgrd
  | reservations hstill hdata hgrd => exact hi.of_reservations hstill hdata hgrd
  | payload _ hnamed hs hpl hbl hproc hlog =>
    exact hi.of_payload hinj hnamed hs hpl hbl hproc hlog
  | blob _ hk hst hs hpl hbl hproc hlog => exact hi.of_blob hk hst hs hpl hbl hproc hlog

end

end ReclaimFabric
