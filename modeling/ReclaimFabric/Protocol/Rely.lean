import ReclaimFabric.Protocol.Invariant

/-!
# What a thread may rely on

`Keep t` is reflexive and transitive, quiet steps are in it, and a step of another thread that
is in the guarantee respects it.

* `Stable`       an assertion that `Keep` preserves; the assertions of the walks are built from these;
* `Guar.keep`    the steps of one thread are in the rely of the others.
-/

set_option linter.unusedSectionVars false

namespace ReclaimFabric

variable {env : Env} {m : Regime} {t : Tid} {w w' w₁ w₂ w₃ : Traced}

/-! ## rows that keep their identity -/

theorem immut_contentHash {o o' : ReclaimObject} (h : o'.immut = o.immut) :
    o'.contentHash = o.contentHash := by
  have := congrArg ReclaimObject.contentHash h
  exact this

theorem immut_recomputeCost {o o' : ReclaimObject} (h : o'.immut = o.immut) :
    o'.recomputeCost = o.recomputeCost := by
  have := congrArg ReclaimObject.recomputeCost h
  exact this

theorem immut_durabilityClass {o o' : ReclaimObject} (h : o'.immut = o.immut) :
    o'.durabilityClass = o.durabilityClass := by
  have := congrArg ReclaimObject.durabilityClass h
  exact this

theorem Recipe_congr {o o' : ReclaimObject} (h : o'.immut = o.immut) (hr : o.Recipe) :
    o'.Recipe := by
  unfold ReclaimObject.Recipe
  rw [immut_durabilityClass h, immut_recomputeCost h]
  exact hr

theorem Replica.slot_of_desc {r r' : Replica} (h : r'.desc = r.desc) : r'.slot = r.slot := by
  have := congrArg Replica.slot h
  exact this

theorem Replica.id_of_desc {r r' : Replica} (h : r'.desc = r.desc) :
    r'.replicaId = r.replicaId := by
  have := congrArg Replica.replicaId h
  exact this

theorem Replica.object_of_desc {r r' : Replica} (h : r'.desc = r.desc) :
    r'.objectId = r.objectId := by
  have := congrArg Replica.objectId h
  exact this

theorem NoGhost.of_row_eq {k : String × ContentHash} (h : NoGhost k w)
    (hrow : ∀ X, rowOf w' X = rowOf w X) (hj : w'.store.journal = w.store.journal) :
    NoGhost k w' := by
  intro j hm hopen o ho
  rw [hj] at hm
  rw [hrow] at ho
  exact h j hm hopen o ho

/-! ## the record -/

theorem Event.not_acks_of_isCall {X : Uuid} {e : Event} (h : Event.isCall e = true) :
    ¬e.Acks X := by
  cases e with
  | call t op c r before => exact fun h => h
  | returned t op r => cases h
  | restarted => cases h

/-- an operation acknowledges values of its own object only -/
theorem Op.effect_of_not_acks {X : Uuid} {op : Op} {r : Res op.Out} {f : Option Flags}
    (h : ¬Event.Acks X (.returned t op r)) : op.effect X r f = f := by
  cases r with
  | ok a =>
    have h : ¬op.target = some X := h
    cases op <;> simp_all [Op.effect, Op.target]
  | error e => cases op <;> rfl

theorem acknowledged_append {X : Uuid} {l l' : List Event} (h : ∀ e ∈ l, ¬e.Acks X) :
    acknowledged X (l ++ l') = acknowledged X l' := by
  induction l with
  | nil => rfl
  | cons e l ih =>
    have hl := ih fun x hx => h x (List.mem_cons_of_mem e hx)
    have he := h e List.mem_cons_self
    cases e with
    | call t op c r before => exact hl
    | returned t op r =>
      show op.effect X r (acknowledged X (l ++ l')) = _
      rw [Op.effect_of_not_acks he, hl]
    | restarted => exact hl

theorem Still.grown (h : Still w w') :
    ∃ l, w'.log = l ++ w.log ∧ ∀ X, Own t X w → ∀ e ∈ l, ¬e.Acks X := by
  obtain ⟨l, hl, he⟩ := h.log
  exact ⟨l, he, fun _ _ e hm => Event.not_acks_of_isCall (hl e hm)⟩

theorem Still.acknowledged (h : Still w w') (X : Uuid) :
    acknowledged X w'.log = acknowledged X w.log := by
  obtain ⟨l, hl, he⟩ := h.log
  rw [he, acknowledged_append fun e hm => Event.not_acks_of_isCall (hl e hm)]

theorem PastRead.mono {X : Uuid} (hj : ∀ j : JournalEntry, j.objectId = X →
      j ∈ w.store.journal → j ∈ w'.store.journal) (hlog : ∃ l, w'.log = l ++ w.log)
    (h : PastRead w X) : PastRead w' X := by
  obtain ⟨j, hm, hX, hopen, e, he, hread⟩ := h
  obtain ⟨l, hl⟩ := hlog
  exact ⟨j, hj j hX hm, hX, hopen, e, by rw [hl]; exact List.mem_append_right l he, hread⟩

/-! ## order -/

namespace Keep

theorem of_quiet (h : Quiet w w') : Keep env m t w w' where
  own := fun X => by rw [Own, Own, h.activeObjects]
  pay := fun k => by rw [Pay, Pay, h.activePayloads]
  recovering := by rw [Recovering, Recovering, h.activeRecovery]
  config := h.config
  lost := h.authorityLost
  log := h.grown
  rows := fun X o ho => ⟨o, by rw [rowOf, h.objects]; exact ho, rfl⟩
  reclaimed := fun _ Z o ho hs => ⟨o, by rw [rowOf, h.objects]; exact ho, hs⟩
  row := fun X _ => by rw [rowOf, rowOf, h.objects]
  journal := fun X _ j _ => by rw [h.journal]
  attempts := fun X _ a _ => by rw [h.attempts]
  reservations := fun X _ r _ => by rw [h.reservations]
  archives := fun X _ a _ => by rw [h.archives]
  replicas := fun X _ =>
    ⟨fun r hr _ => ⟨r, by rw [h.replicas] at hr; exact hr, rfl, id⟩,
      fun r hr _ => ⟨r, by rw [h.replicas]; exact hr, rfl⟩⟩
  slots := fun k _ r _ => by rw [h.replicas]
  dedup := fun b x _ => by rw [h.dedup]
  payloads := fun _ b x k _ _ => by rw [h.payloads]
  blobs := fun X a k _ _ => by rw [h.blobs]
  ghosts := fun _ k _ hg => hg.of_row_eq (fun X => by rw [rowOf, rowOf, h.objects]) h.journal
  downstream := fun _ X _ _ Z _ _ hd => by
    rw [Downstream, h.lineage] at hd
    exact hd
  data := fun _ => ⟨by rw [h.data]; rfl, h.payloads, h.blobs⟩

theorem refl (w : Traced) : Keep env m t w w := of_quiet (Quiet.refl w)

theorem exposed (h : Keep env m t w w') {X Z : Uuid} (hX : Own t X w) (hZ : Exposed w' Z) :
    Exposed w Z := by
  intro o ho
  obtain ⟨o', ho', himm⟩ := h.rows Z o ho
  refine ⟨?_, ?_⟩
  · intro hs
    obtain ⟨o'', ho'', hs''⟩ := h.reclaimed ⟨X, hX⟩ Z o ho hs
    exact (hZ o'' ho'').1 hs''
  · rw [← immut_recomputeCost himm]
    exact (hZ o' ho').2

theorem named (h : Keep env m t w w') {k : String} {x : ContentHash}
    (hn : Named env m.bytes w k x) : Named env m.bytes w' k x := hn.mono h.rows

theorem pastRead (h : Keep env m t w w') {X : Uuid} (hX : Own t X w) (hp : PastRead w X) :
    PastRead w' X := by
  obtain ⟨l, hl, _⟩ := h.log
  exact hp.mono (fun j hj hm => (h.journal X hX j hj).mpr hm) ⟨l, hl⟩

theorem acknowledged (h : Keep env m t w w') {X : Uuid} (hX : Own t X w) :
    ReclaimFabric.acknowledged X w'.log = ReclaimFabric.acknowledged X w.log := by
  obtain ⟨l, hl, hno⟩ := h.log
  rw [hl, acknowledged_append (hno X hX)]

theorem trans (h : Keep env m t w₁ w₂) (h' : Keep env m t w₂ w₃) : Keep env m t w₁ w₃ where
  own := fun X => (h'.own X).trans (h.own X)
  pay := fun k => (h'.pay k).trans (h.pay k)
  recovering := h'.recovering.trans h.recovering
  config := h'.config.trans h.config
  lost := fun x => h'.lost (h.lost x)
  log := by
    obtain ⟨l, hl, hno⟩ := h.log
    obtain ⟨l', hl', hno'⟩ := h'.log
    refine ⟨l' ++ l, by rw [hl', hl, List.append_assoc], ?_⟩
    intro X hX e he
    rcases List.mem_append.mp he with he | he
    · exact hno' X ((h.own X).mpr hX) e he
    · exact hno X hX e he
  rows := fun X o ho => by
    obtain ⟨o', ho', he⟩ := h.rows X o ho
    obtain ⟨o'', ho'', he'⟩ := h'.rows X o' ho'
    exact ⟨o'', ho'', he'.trans he⟩
  reclaimed := fun ⟨X, hX⟩ Z o ho hs => by
    obtain ⟨o', ho', hs'⟩ := h.reclaimed ⟨X, hX⟩ Z o ho hs
    exact h'.reclaimed ⟨X, (h.own X).mpr hX⟩ Z o' ho' hs'
  row := fun X hX => (h'.row X ((h.own X).mpr hX)).trans (h.row X hX)
  journal := fun X hX j hj => (h'.journal X ((h.own X).mpr hX) j hj).trans (h.journal X hX j hj)
  attempts := fun X hX a ha =>
    (h'.attempts X ((h.own X).mpr hX) a ha).trans (h.attempts X hX a ha)
  reservations := fun X hX r hr =>
    (h'.reservations X ((h.own X).mpr hX) r hr).trans (h.reservations X hX r hr)
  archives := fun X hX a ha =>
    (h'.archives X ((h.own X).mpr hX) a ha).trans (h.archives X hX a ha)
  replicas := fun X hX => by
    have h₁ := h.replicas X hX
    have h₂ := h'.replicas X ((h.own X).mpr hX)
    refine ⟨?_, ?_⟩
    · intro r hr hX
      obtain ⟨r₁, hr₁, hd₁, hv₁⟩ := h₂.back r hr hX
      have hX₁ : r₁.objectId = X := (Replica.object_of_desc hd₁).trans hX
      obtain ⟨r₀, hr₀, hd₀, hv₀⟩ := h₁.back r₁ hr₁ hX₁
      exact ⟨r₀, hr₀, hd₀.trans hd₁, fun hv => hv₀ (hv₁ hv)⟩
    · intro r₀ hr₀ hX
      obtain ⟨r₁, hr₁, hd₁⟩ := h₁.forth r₀ hr₀ hX
      have hX₁ : r₁.objectId = X := (Replica.object_of_desc hd₁).trans hX
      obtain ⟨r, hr, hd⟩ := h₂.forth r₁ hr₁ hX₁
      exact ⟨r, hr, hd.trans hd₁⟩
  slots := fun k hk r hr => (h'.slots k ((h.pay k).mpr hk) r hr).trans (h.slots k hk r hr)
  dedup := fun b x hk => (h'.dedup b x ((h.pay _).mpr hk)).trans (h.dedup b x hk)
  payloads := fun hm b x k hk hn =>
    (h'.payloads hm b x k ((h.pay _).mpr hk) (h.named hn)).trans (h.payloads hm b x k hk hn)
  blobs := fun X a k hX hk =>
    (h'.blobs X a k ((h.own X).mpr hX) hk).trans (h.blobs X a k hX hk)
  ghosts := fun hm k hk hg => h'.ghosts hm k ((h.pay k).mpr hk) (h.ghosts hm k hk hg)
  downstream := fun hm X hX hp Z hZ hex hd => by
    have hX' := (h.own X).mpr hX
    have hd' := h'.downstream hm X hX' (h.pastRead hX hp) Z hZ hex hd
    exact h.downstream hm X hX hp Z hZ (h'.exposed hX' hex) hd'
  data := fun hr => by
    obtain ⟨hd, hp, hb⟩ := h.data hr
    obtain ⟨hd', hp', hb'⟩ := h'.data (h.recovering.mpr hr)
    refine ⟨?_, hp'.trans hp, hb'.trans hb⟩
    have := congrArg (fun d : Data => { d with lineage := w₁.store.lineage }) hd'
    exact Eq.trans this hd

end Keep

/-! ## parts of the rely, table by table -/

/-- what `Keep` says about object rows -/
structure RowsKept (t : Tid) (w w' : Traced) : Prop where
  rows : ∀ X o, rowOf w X = some o → ∃ o', rowOf w' X = some o' ∧ o'.immut = o.immut
  reclaimed : (∃ X, Own t X w) → ∀ Z o, rowOf w Z = some o → o.lifecycleState = .reclaimed →
    ∃ o', rowOf w' Z = some o' ∧ o'.lifecycleState = .reclaimed
  row : ∀ X, Own t X w → rowOf w' X = rowOf w X

theorem RowsKept.of_eq (h : w'.store.objects = w.store.objects) : RowsKept t w w' where
  rows := fun X o ho => ⟨o, by rw [rowOf, h]; exact ho, rfl⟩
  reclaimed := fun _ Z o ho hs => ⟨o, by rw [rowOf, h]; exact ho, hs⟩
  row := fun X _ => by rw [rowOf, rowOf, h]

/-- what `Keep` says about replica rows -/
structure ReplicasKept (t : Tid) (w w' : Traced) : Prop where
  replicas : ∀ X, Own t X w → SameReplicas X w w'
  slots : ∀ k, Pay t k w → ∀ r : Replica, r.slot = k →
    (r ∈ w'.store.replicas ↔ r ∈ w.store.replicas)

theorem ReplicasKept.of_eq (h : w'.store.replicas = w.store.replicas) : ReplicasKept t w w' where
  replicas := fun X _ =>
    ⟨fun r hr _ => ⟨r, by rw [h] at hr; exact hr, rfl, id⟩,
      fun r hr _ => ⟨r, by rw [h]; exact hr, rfl⟩⟩
  slots := fun k _ r _ => by rw [h]

/-- the rows of the objects a thread holds are left alone -/
def OwnedKept {κ ρ : Type} {key : ρ → κ} (t : Tid) (w : Traced) (owner : ρ → Uuid)
    (T T' : Table key) : Prop :=
  ∀ X, Own t X w → ∀ r : ρ, owner r = X → (r ∈ T' ↔ r ∈ T)

theorem OwnedKept.of_eq {κ ρ : Type} {key : ρ → κ} {owner : ρ → Uuid} {T T' : Table key}
    (h : T' = T) : OwnedKept t w owner T T' :=
  fun X _ r _ => by rw [h]

/-- a row of one object is inserted, replaced or removed: the rows of another one are left alone -/
theorem RowSwap.other {κ ρ : Type} {key : ρ → κ} {owner : ρ → Uuid} {T T' : Table key} {k : κ}
    {old new : Option ρ} {X : Uuid} (h : RowSwap T T' k old new)
    (hold : ∀ r, old = some r → owner r ≠ X) (hnew : ∀ r, new = some r → owner r ≠ X) (r : ρ)
    (hr : owner r = X) : r ∈ T' ↔ r ∈ T := by
  obtain ⟨_, hkey, _, _, hmem⟩ := h
  rw [hmem r]
  constructor
  · rintro (⟨hr', _⟩ | hn)
    · exact hr'
    · exact absurd hr (hnew r hn)
  · intro hr'
    exact .inl ⟨hr', fun hk => hold r (hkey r hr' hk) hr⟩

theorem OwnedKept.of_swap {κ ρ : Type} {key : ρ → κ} {owner : ρ → Uuid} {T T' : Table key} {k : κ}
    {old new : Option ρ} (h : RowSwap T T' k old new)
    (hold : ∀ r, old = some r → ¬Own t (owner r) w)
    (hnew : ∀ r, new = some r → ¬Own t (owner r) w) : OwnedKept t w owner T T' := by
  intro X hX r hr
  refine h.other ?_ ?_ r hr
  · rintro x hx rfl
    exact hold x hx hX
  · rintro x hx rfl
    exact hnew x hx hX

/-- a step that changes only the store -/
theorem Keep.of_still (h : Still w w') (hrows : RowsKept t w w')
    (hrep : ReplicasKept t w w')
    (hj : OwnedKept t w JournalEntry.objectId w.store.journal w'.store.journal)
    (ha : OwnedKept t w Attempt.objectId w.store.attempts w'.store.attempts)
    (hv : OwnedKept t w Reservation.objectId w.store.reservations w'.store.reservations)
    (hx : OwnedKept t w ArchiveRecord.objectId w.store.archives w'.store.archives)
    (hdedup : ∀ b x, Pay t (b, x) w → w'.store.dedup.find? (x, b) = w.store.dedup.find? (x, b))
    (hghost : m.honest = true → ∀ k, Pay t k w → NoGhost k w → NoGhost k w')
    (hdown : m.edges = true → ∀ X, Own t X w → PastRead w X → ∀ Z, Z ≠ X → Exposed w' Z →
      Downstream w' X Z → Downstream w X Z)
    (hdata : Recovering t w → { w'.store.data with lineage := w.store.lineage } = w.store.data) :
    Keep env m t w w' where
  own := fun X => by rw [Own, Own, h.activeObjects]
  pay := fun k => by rw [Pay, Pay, h.activePayloads]
  recovering := by rw [Recovering, Recovering, h.activeRecovery]
  config := h.config
  lost := h.authorityLost
  log := h.grown
  rows := hrows.rows
  reclaimed := hrows.reclaimed
  row := hrows.row
  journal := hj
  attempts := ha
  reservations := hv
  archives := hx
  replicas := hrep.replicas
  slots := hrep.slots
  dedup := hdedup
  payloads := fun _ b x k _ _ => by rw [h.payloads]
  blobs := fun X a k _ _ => by rw [h.blobs]
  ghosts := hghost
  downstream := hdown
  data := fun hr => ⟨hdata hr, h.payloads, h.blobs⟩

/-- a step that leaves the object rows, the journal and the lineage alone -/
theorem Keep.of_metadata (h : Still w w') (hobj : w'.store.objects = w.store.objects)
    (hjou : w'.store.journal = w.store.journal) (hlin : w'.store.lineage = w.store.lineage)
    (hrep : ReplicasKept t w w')
    (ha : OwnedKept t w Attempt.objectId w.store.attempts w'.store.attempts)
    (hv : OwnedKept t w Reservation.objectId w.store.reservations w'.store.reservations)
    (hx : OwnedKept t w ArchiveRecord.objectId w.store.archives w'.store.archives)
    (hdedup : ∀ b x, Pay t (b, x) w → w'.store.dedup.find? (x, b) = w.store.dedup.find? (x, b))
    (hrec : ¬Recovering t w) : Keep env m t w w' := by
  refine .of_still h (.of_eq hobj) hrep (.of_eq hjou) ha hv hx hdedup ?_ ?_
    (fun hr => absurd hr hrec)
  · intro _ k _ hg
    exact hg.of_row_eq (fun X => by rw [rowOf, rowOf, hobj]) hjou
  · intro _ Y _ _ Z _ _ hd
    rw [Downstream, hlin] at hd
    exact hd

/-- a step that changes only guards, payloads and blobs -/
theorem Keep.of_store (hs : w'.store = w.store) (hown : ∀ X, Own t X w' ↔ Own t X w)
    (hpay : ∀ k, Pay t k w' ↔ Pay t k w) (hrec : Recovering t w' ↔ Recovering t w)
    (hconfig : w'.proc.config = w.proc.config) (hlost : Lost w → Lost w')
    (hlog : ∃ l, w'.log = l ++ w.log ∧ ∀ X, Own t X w → ∀ e ∈ l, ¬e.Acks X)
    (hpayloads : m.honest = true → ∀ b h k, Pay t (b, h) w → Named env m.bytes w k h →
      w'.payloads b k = w.payloads b k)
    (hblobs : ∀ X a k, Own t X w → ArchiveKeyOf X k → w'.blobs a k = w.blobs a k)
    (hdata : Recovering t w → w'.payloads = w.payloads ∧ w'.blobs = w.blobs) :
    Keep env m t w w' where
  own := hown
  pay := hpay
  recovering := hrec
  config := hconfig
  lost := hlost
  log := hlog
  rows := fun X o ho => ⟨o, by rw [rowOf, hs]; exact ho, rfl⟩
  reclaimed := fun _ Z o ho hst => ⟨o, by rw [rowOf, hs]; exact ho, hst⟩
  row := fun X _ => by rw [rowOf, rowOf, hs]
  journal := fun X _ j _ => by rw [hs]
  attempts := fun X _ a _ => by rw [hs]
  reservations := fun X _ r _ => by rw [hs]
  archives := fun X _ a _ => by rw [hs]
  replicas := (ReplicasKept.of_eq (by rw [hs]) : ReplicasKept t w w').replicas
  slots := fun k _ r _ => by rw [hs]
  dedup := fun b x _ => by rw [hs]
  payloads := hpayloads
  blobs := hblobs
  ghosts := fun _ k _ hg => hg.of_row_eq (fun X => by rw [rowOf, rowOf, hs]) (by rw [hs])
  downstream := fun _ X _ _ Z _ _ hd => by
    rw [Downstream, hs] at hd
    exact hd
  data := fun hr => ⟨by rw [hs]; rfl, hdata hr⟩

/-! ## the steps of one thread are in the rely of the others -/

section
variable {b : Bool} {op : Op} {u : Tid}

theorem Inv.not_own (hi : Inv env m b w) (hu : u ≠ t) {X : Uuid} (h : Own t X w) : ¬Own u X w :=
  fun h' => hu (hi.own X t u h h')

theorem Inv.not_pay (hi : Inv env m b w) (hu : u ≠ t) {k : String × ContentHash}
    (h : Pay t k w) : ¬Pay u k w :=
  fun h' => hu (hi.pay k t u h h')

theorem Inv.own_not_recovering (hi : Inv env m b w) {X : Uuid} (h : Own t X w) :
    ¬Recovering u w := by
  intro hr
  rw [Own, (hi.recovery u hr).1] at h
  exact List.not_mem_nil h

theorem Inv.pay_not_recovering (hi : Inv env m b w) {k : String × ContentHash}
    (h : Pay t k w) : ¬Recovering u w := by
  intro hr
  rw [Pay, (hi.recovery u hr).2] at h
  exact List.not_mem_nil h

/-- recovery runs alone -/
theorem Recovering.inj (h : Recovering t w) (h' : Recovering u w) : u = t := by
  rw [Recovering, h] at h'
  exact (Option.some.inj h').symm

/-- who may write for an object, as the others see it -/
theorem Inv.excluded (hi : Inv env m b w) (hu : u ≠ t) {X : Uuid}
    (h : Own t X w ∨ Recovering t w) : ¬Own u X w := by
  rcases h with h | h
  · exact hi.not_own hu h
  · exact fun h' => hi.own_not_recovering h' h

theorem Records.row_of {j : JournalEntry} {S : Snapshot} {plan : Option (List Replica)}
    {o : ReclaimObject} (h : Records m j S plan w) (ho : rowOf w j.objectId = some o) :
    o.immut = S.prior.immut := by
  obtain ⟨o', ho', himm⟩ := h.row
  rw [ho] at ho'
  cases ho'
  exact himm

theorem Inv.records (hi : Inv env m b w) {j : JournalEntry} {S : Snapshot}
    {plan : Option (List Replica)} (hj : j ∈ w.store.journal)
    (hp : j.payload = payloadOf S plan) : Records m j S plan w := by
  obtain ⟨S', plan', h⟩ := hi.journal j hj
  obtain ⟨rfl, rfl⟩ := payloadOf_inj (hp.symm.trans h.payload)
  exact h

/-- a written row has the identity of the row it replaces -/
theorem RowJust.immut {X : Uuid} {o o' : ReclaimObject} (hi : Inv env m b w)
    (h : RowJust m t op w X o') (ho : rowOf w X = some o) : o'.immut = o.immut := by
  cases h with
  | create _ hn _ => rw [hn] at ho; cases ho
  | flags _ ho' himm _ => rw [ho] at ho'; cases ho'; exact himm
  | tier _ ho' himm _ _ _ _ => rw [ho] at ho'; cases ho'; exact himm
  | route _ ho' hj hX _ hp _ hnew _ =>
    subst hX
    rw [((hi.records hj hp).row_of ho)]
    rcases hnew with rfl | rfl <;> rfl
  | abort _ _ _ hj hX _ _ hp hnew =>
    subst hX hnew
    exact ((hi.records hj hp).row_of ho).symm
  | commit _ _ _ hj hX _ hp hnew _ _ _ _ =>
    subst hX hnew
    exact ((hi.records hj hp).row_of ho).symm
  | rollback _ _ hj hX _ hp hnew _ =>
    subst hX hnew
    exact ((hi.records hj hp).row_of ho).symm
  | recommit _ _ ho' _ _ _ himm _ _ _ => rw [ho] at ho'; cases ho'; exact himm
  | abandon _ _ ho' _ hnew => rw [ho] at ho'; cases ho'; subst hnew; rfl

theorem RowJust.holder {X : Uuid} {o' : ReclaimObject} (h : RowJust m t op w X o') :
    Own t X w ∨ Recovering t w := by
  cases h with
  | create h => exact .inl h
  | flags h => exact .inl h
  | tier h => exact .inl h
  | route h => exact .inl h
  | abort h => exact .inl h
  | commit _ h => exact .inl h
  | rollback _ h => exact .inr h
  | recommit _ h => exact .inr h
  | abandon _ h => exact .inr h

/-- outside recovery nobody takes RECLAIMED back -/
theorem RowJust.reclaimed {X : Uuid} {o o' : ReclaimObject} (hi : Inv env m b w)
    (h : RowJust m t op w X o') (hr : ¬Recovering t w) (ho : rowOf w X = some o)
    (hs : o.lifecycleState = .reclaimed) : o'.lifecycleState = .reclaimed := by
  cases h with
  | create _ hn _ => rw [hn] at ho; cases ho
  | flags _ ho' _ hst => rw [ho] at ho'; cases ho'; rw [hst, hs]
  | tier _ ho' _ _ hst _ _ =>
    rw [ho] at ho'
    cases ho'
    rw [Tiered, hs] at hst
    simp at hst
  | route _ ho' hj hX _ hp hold _ _ =>
    subst hX
    rw [ho] at ho'
    cases ho'
    rcases hold with rfl | rfl
    · exact absurd hs (hi.records hj hp).prior.notReclaimed
    · cases hs
  | abort _ ho' hst _ _ _ _ _ _ => rw [ho] at ho'; cases ho'; exact absurd hs hst
  | commit _ _ _ _ _ _ _ hnew _ _ _ _ => subst hnew; rfl
  | rollback _ h => exact absurd h hr
  | recommit _ h => exact absurd h hr
  | abandon _ h => exact absurd h hr

theorem RowsKept.of_row {X : Uuid} {o' : ReclaimObject} (hi : Inv env m b w) (hu : u ≠ t)
    (hfind : ∀ Y, rowOf w' Y = if Y = X then some o' else rowOf w Y)
    (h : RowJust m t op w X o') : RowsKept u w w' where
  rows := fun Y o ho => by
    rw [hfind]
    by_cases hY : Y = X
    · subst hY
      exact ⟨o', if_pos rfl, h.immut hi ho⟩
    · exact ⟨o, by rw [if_neg hY]; exact ho, rfl⟩
  reclaimed := fun ⟨Z, hZ⟩ Y o ho hs => by
    rw [hfind]
    by_cases hY : Y = X
    · subst hY
      exact ⟨o', if_pos rfl, h.reclaimed hi (hi.own_not_recovering hZ) ho hs⟩
    · exact ⟨o, by rw [if_neg hY]; exact ho, hs⟩
  row := fun Y hY => by
    rw [hfind, if_neg]
    rintro rfl
    exact hi.excluded hu h.holder hY

/-- a row that becomes RECLAIMED outside recovery leaves the payloads of the others alone -/
theorem RowJust.noGhost {X : Uuid} {o' : ReclaimObject} {k : String × ContentHash}
    (hi : Inv env m b w) (hm : m.honest = true) (hu : u ≠ t)
    (hfind : ∀ Y, rowOf w' Y = if Y = X then some o' else rowOf w Y)
    (hj : w'.store.journal = w.store.journal) (h : RowJust m t op w X o') (hk : Pay u k w)
    (hg : NoGhost k w) : NoGhost k w' := by
  intro j hjm hopen o ho hs S plan hp r hr
  rw [hj] at hjm
  rw [hfind] at ho
  by_cases hX : j.objectId = X
  · rw [if_pos hX] at ho
    cases ho
    -- either the row was RECLAIMED before, or this is the commit of a thread that holds the plan
    by_cases hold : ∃ o₀, rowOf w X = some o₀ ∧ o₀.lifecycleState = .reclaimed
    · obtain ⟨o₀, ho₀, hs₀⟩ := hold
      exact hg j hjm hopen o₀ (hX ▸ ho₀) hs₀ S plan hp r hr
    · have hnr : ¬Recovering t w := hi.pay_not_recovering hk
      cases h with
      | create _ _ hst => rcases hst with hst | hst <;> rw [hst] at hs <;> cases hs
      | flags _ ho' _ hst => exact absurd ⟨_, ho', hst ▸ hs⟩ hold
      | tier _ _ _ _ _ hst _ => rcases hst with hst | hst | hst <;> rw [hst] at hs <;> cases hs
      | route _ _ _ _ _ _ _ hnew _ => rcases hnew with rfl | rfl <;> cases hs
      | abort _ _ _ hj' _ _ _ hp' hnew =>
        subst hnew
        exact absurd hs (hi.records hj' hp').prior.notReclaimed
      | commit _ _ _ hj' hX' hph hp' _ _ _ hpay _ =>
        have hjj := (hi.truthful hm).unique _ hj' j hjm (by rw [hph]; rfl) hopen
          (hX.trans hX'.symm)
        subst hjj
        obtain ⟨rfl, he⟩ := payloadOf_inj (hp.symm.trans hp')
        cases he
        rintro rfl
        exact hi.not_pay hu ((hpay hm).2 r hr) hk
      | rollback _ h => exact absurd h hnr
      | recommit _ h => exact absurd h hnr
      | abandon _ h => exact absurd h hnr
  · rw [if_neg hX] at ho
    exact hg j hjm hopen o ho hs S plan hp r hr

theorem ReplicasKept.of_swap {id : Uuid} {old new : Option Replica} (hi : Inv env m b w)
    (hu : u ≠ t) (hswap : RowSwap w.store.replicas w'.store.replicas id old new)
    (h : ReplicaJust env m t w old new) : ReplicasKept u w w' := by
  obtain ⟨hold, hkey, hko, hkn, hmem⟩ := hswap
  -- rows of slots or objects that `t` may not touch
  have hslot : ∀ r : Replica, Pay u r.slot w → old ≠ some r ∧ new ≠ some r := by
    intro r hr
    have hnr : ¬Recovering t w := hi.pay_not_recovering hr
    cases h with
    | add _ hp _ _ =>
      refine ⟨by simp, ?_⟩
      rintro he
      cases he
      exact hi.not_pay hu hp hr
    | delete _ hp =>
      refine ⟨?_, by simp⟩
      rintro he
      cases he
      exact hi.not_pay hu hp hr
    | @update r₀ r₁ hp hd _ =>
      have hs : r₁.slot = r₀.slot := Replica.slot_of_desc hd
      refine ⟨?_, ?_⟩
      · rintro he
        cases he
        exact hi.not_pay hu hp hr
      · rintro he
        cases he
        exact hi.not_pay hu hp (hs ▸ hr)
    | putBack hrec => exact absurd hrec hnr
    | recommit hrec => exact absurd hrec hnr
  refine ⟨?_, ?_⟩
  · intro X hX
    have hnr : ¬Recovering t w := hi.own_not_recovering hX
    refine ⟨?_, ?_⟩
    · intro r hr hrX
      rcases (hmem r).mp hr with ⟨hr, _⟩ | hn
      · exact ⟨r, hr, rfl, fun hv => hv⟩
      · cases h with
        | add ho _ _ _ => cases hn; exact absurd (hrX ▸ hX) (hi.not_own hu ho)
        | delete _ _ => cases hn
        | @update r₀ r₁ _ hd hv =>
          cases hn
          have hX₀ : r₀.objectId = X := by
            have := congrArg Replica.objectId hd
            exact Eq.trans this.symm hrX
          refine ⟨r₀, hold r₀ rfl, hd.symm, ?_⟩
          intro hval
          rcases hv with hv | hv
          · exact absurd (hX₀ ▸ hX) (hi.not_own hu hv)
          · rw [hv] at hval
            cases hval
        | putBack hrec => exact absurd hrec hnr
        | recommit hrec => exact absurd hrec hnr
    · intro r hr hrX
      by_cases hk : r.replicaId = id
      · have hro := hkey r hr hk
        cases h with
        | add _ _ _ _ => cases hro
        | delete ho _ => cases hro; exact absurd (hrX ▸ hX) (hi.not_own hu ho)
        | @update r₀ r₁ _ hd _ =>
          cases hro
          exact ⟨r₁, (hmem r₁).mpr (.inr rfl), hd⟩
        | putBack hrec => exact absurd hrec hnr
        | recommit hrec => exact absurd hrec hnr
      · exact ⟨r, (hmem r).mpr (.inl ⟨hr, hk⟩), rfl⟩
  · intro k hk r hr
    subst hr
    obtain ⟨hno, hnn⟩ := hslot r hk
    rw [hmem r]
    constructor
    · rintro (⟨hr, _⟩ | hn)
      · exact hr
      · exact absurd hn hnn
    · intro hr
      exact .inl ⟨hr, fun hk => hno (hkey r hr hk)⟩

theorem ArchiveJust.holder {old new : Option ArchiveRecord} (hi : Inv env m b w)
    (hu : u ≠ t) (h : ArchiveJust m t w old new) :
    (∀ a, old = some a → ¬Own u a.objectId w) ∧ ∀ a, new = some a → ¬Own u a.objectId w := by
  cases h with
  | add ho _ _ _ _ => exact ⟨by simp, fun a ha => by cases ha; exact hi.not_own hu ho⟩
  | delete ho => exact ⟨fun a ha => by cases ha; exact hi.not_own hu ho, by simp⟩
  | putBack hr => exact ⟨by simp, fun a _ => hi.excluded hu (.inr hr)⟩
  | recommit hr => exact ⟨fun a _ => hi.excluded hu (.inr hr), by simp⟩

theorem JournalJust.holder {j j' : JournalEntry} (h : JournalJust t w j j') :
    Own t j.objectId w ∨ Recovering t w := by
  cases h with
  | validate h => exact .inl h
  | start h => exact .inl h
  | done h => exact .inl h
  | close h => exact h

theorem JournalJust.wasOpen {j j' : JournalEntry} (h : JournalJust t w j j') :
    j.phase.isOpen = true := by
  cases h with
  | validate _ h => rw [h]; rfl
  | start _ h => rw [h]; rfl
  | done _ h => rw [h]; rfl
  | close _ h => exact h

/-- journal steps do not plan payloads for reclaimed objects -/
theorem JournalJust.noGhost {j j' : JournalEntry} {k : String × ContentHash}
    (hrow : ∀ X, rowOf w' X = rowOf w X)
    (hswap : RowSwap w.store.journal w'.store.journal j.attemptId (some j) (some j'))
    (hX : j'.objectId = j.objectId) (h : JournalJust t w j j') (hg : NoGhost k w) :
    NoGhost k w' := by
  obtain ⟨hold, _, _, _, hmem⟩ := hswap
  intro x hx hopen o ho hs S plan hp r hr
  rw [hrow] at ho
  rcases (hmem x).mp hx with ⟨hx, _⟩ | hn
  · exact hg x hx hopen o ho hs S plan hp r hr
  · cases hn
    have hjo : rowOf w j.objectId = some o := hX ▸ ho
    have hsame : j'.payload = j.payload → r.slot ≠ k := fun he =>
      hg j (hold j rfl) h.wasOpen o hjo hs S plan (he ▸ hp) r hr
    cases h with
    | validate _ _ _ he => exact hsame he
    | start _ _ _ _ _ _ hpend _ _ =>
      obtain ⟨o₁, ho₁, hs₁⟩ := hpend
      rw [hjo] at ho₁
      cases ho₁
      rw [hs] at hs₁
      cases hs₁
    | done _ _ _ he => exact hsame he
    | close _ _ _ he => exact hsame he

/-- closing reservations leaves the rows of other objects alone -/
theorem mem_closeReservations_of_other {which : Reservation → Bool} {status : ReservationStatus}
    {V : Table Reservation.reservationId} {X : Uuid} {x : Reservation}
    (hother : ∀ y ∈ V, which y = true → y.objectId ≠ X) (hx : x.objectId = X) :
    x ∈ Store.closeReservations which status V ↔ x ∈ V := by
  rw [Store.closeReservations, Table.mem_updateWhere]
  constructor
  · rintro ⟨y, hy, rfl⟩
    by_cases hw : (which y && decide (y.status = .isOpen)) = true
    · rw [if_pos hw] at hx
      exact absurd hx (hother y hy (Bool.and_eq_true_iff.mp hw).1)
    · rw [if_neg hw]
      exact hy
  · intro hm
    refine ⟨x, hm, ?_⟩
    rw [if_neg]
    intro hw
    exact hother x hm (Bool.and_eq_true_iff.mp hw).1 hx

/-- closing reservations opens none -/
theorem mem_of_closeReservations {which : Reservation → Bool} {status : ReservationStatus}
    {V : Table Reservation.reservationId} {x : Reservation}
    (hx : x ∈ Store.closeReservations which status V) (ho : x.status = .isOpen) : x ∈ V := by
  rw [Store.closeReservations, Table.mem_updateWhere] at hx
  obtain ⟨y, hy, rfl⟩ := hx
  by_cases hw : (which y && decide (y.status = .isOpen)) = true
  · rw [if_pos hw] at ho ⊢
    have hst : status = y.status :=
      Eq.trans ho (decide_eq_true_iff.mp (Bool.and_eq_true_iff.mp hw).2).symm
    rw [hst]
    exact hy
  · rw [if_neg hw]
    exact hy

theorem closeReservations_of_none {which : Reservation → Bool} {status : ReservationStatus}
    {V : Table Reservation.reservationId} (h : ∀ r ∈ V, which r = false) :
    Store.closeReservations which status V = V := by
  refine Table.ext_rows ?_
  show V.rows.map _ = V.rows
  conv_rhs => rw [← List.map_id V.rows]
  refine List.map_congr_left ?_
  intro r hr
  show (if (which r && _) = true then _ else r) = r
  rw [h r hr]
  rfl

theorem setPayload_ne {be k b' k' : String} {v : Option Bytes} (h : ¬(b' = be ∧ k' = k)) :
    (w.setPayload be k v).payloads b' k' = w.payloads b' k' := if_neg h

theorem setBlob_ne {be k b' k' : String} {v : Option Bytes} (h : ¬(b' = be ∧ k' = k)) :
    (w.setBlob be k v).blobs b' k' = w.blobs b' k' := if_neg h

/-- one more call in the record -/
theorem log_cons (h : ∃ e, Event.isCall e = true ∧ w'.log = e :: w.log) :
    (∃ l, w'.log = l ++ w.log ∧ ∀ X, Own t X w → ∀ e ∈ l, ¬e.Acks X) ∧
      ∀ X, acknowledged X w'.log = acknowledged X w.log := by
  obtain ⟨e, he, hl⟩ := h
  refine ⟨⟨[e], hl, ?_⟩, ?_⟩
  · intro X _ x hx
    rw [List.mem_singleton.mp hx]
    exact Event.not_acks_of_isCall he
  · intro X
    rw [hl, ← List.singleton_append, acknowledged_append]
    intro x hx
    rw [List.mem_singleton.mp hx]
    exact Event.not_acks_of_isCall he

/-- **The steps of one thread are in the rely of the others.** -/
theorem Guar.keep (hinj : m.honest = true → Set.InjOn env.sha256 m.bytes)
    (hi : Inv env m b w) (h : Guar env m b t op w w') (hu : u ≠ t) : Keep env m u w w' := by
  have hrec (X : Uuid) (hX : Own t X w ∨ Recovering t w) (hr : Recovering u w) : False := by
    rcases hX with hX | hX
    · exact hi.own_not_recovering hX hr
    · exact hu (hX.inj hr)
  cases h with
  | quiet h => exact .of_quiet h
  | @acquire X _ hfree hnone hs hp hb hproc hlog =>
    obtain ⟨hlog, _⟩ := log_cons hlog
    refine .of_store hs ?_ ?_ ?_ (by rw [hproc]) (by rw [Lost, Lost, hproc]; exact id) hlog
      (fun _ b h k _ _ => by rw [hp]) (fun X a k _ _ => by rw [hb])
      (fun _ => ⟨hp, hb⟩)
    · intro Y
      rw [Own, Own, hproc, List.mem_cons]
      constructor
      · rintro (he | hm)
        · exact absurd (Prod.mk.inj he).2 hu
        · exact hm
      · exact .inr
    · intro k
      rw [Pay, Pay, hproc]
    · rw [Recovering, Recovering, hproc]
  | @acquireKeys ks _ _ hfree hnone hs hp hb hproc hlog =>
    obtain ⟨hlog, _⟩ := log_cons hlog
    refine .of_store hs ?_ ?_ ?_ (by rw [hproc]) (by rw [Lost, Lost, hproc]; exact id) hlog
      (fun _ b h k _ _ => by rw [hp]) (fun X a k _ _ => by rw [hb])
      (fun _ => ⟨hp, hb⟩)
    · intro Y
      rw [Own, Own, hproc]
    · intro k
      rw [Pay, Pay, hproc, List.mem_append, List.mem_map]
      constructor
      · rintro (⟨x, _, he⟩ | hm)
        · exact absurd (Prod.mk.inj he).2.symm hu
        · exact hm
      · exact .inr
    · rw [Recovering, Recovering, hproc]
  | @dropKeys ks hmine _ hs hp hb hproc hlog =>
    obtain ⟨hlog, _⟩ := log_cons hlog
    refine .of_store hs ?_ ?_ ?_ (by rw [hproc]) (by rw [Lost, Lost, hproc]; exact id) hlog
      (fun _ b h k _ _ => by rw [hp]) (fun X a k _ _ => by rw [hb])
      (fun _ => ⟨hp, hb⟩)
    · intro Y
      rw [Own, Own, hproc]
    · intro k
      rw [Pay, Pay, hproc, List.mem_filter, decide_eq_true_iff]
      exact ⟨fun h => h.1, fun h => ⟨h, fun hk => hu (hmine k hk u h)⟩⟩
    · rw [Recovering, Recovering, hproc]
  | acquireRecovery _ hnone _ _ hs hp hb hproc hlog =>
    obtain ⟨hlog, _⟩ := log_cons hlog
    refine .of_store hs ?_ ?_ ?_ (by rw [hproc]) (by rw [Lost, Lost, hproc]; exact id) hlog
      (fun _ b h k _ _ => by rw [hp]) (fun X a k _ _ => by rw [hb])
      (fun _ => ⟨hp, hb⟩)
    · intro Y
      rw [Own, Own, hproc]
    · intro k
      rw [Pay, Pay, hproc]
    · rw [Recovering, Recovering, hproc, hnone]
      constructor
      · intro h
        exact absurd (Option.some.inj h).symm hu
      · intro h
        cases h
  | @row X o' T hstill hdata hfind _ _ hj =>
    have hobj : w'.store.objects = T := congrArg Data.objects hdata
    have hfind' : ∀ Y, rowOf w' Y = if Y = X then some o' else rowOf w Y := by
      intro Y
      rw [rowOf, hobj]
      exact hfind Y
    refine .of_still hstill (.of_row hi hu hfind' hj)
      (.of_eq (congrArg Data.replicas hdata)) (.of_eq (congrArg Data.journal hdata))
      (.of_eq (congrArg Data.attempts hdata)) (.of_eq (congrArg Data.reservations hdata))
      (.of_eq (congrArg Data.archives hdata)) (fun b x _ => ?_) ?_ ?_ ?_
    · rw [show w'.store.dedup = w.store.dedup from congrArg Data.dedup hdata]
    · intro hm k hk hg
      exact hj.noGhost hi hm hu hfind' (congrArg Data.journal hdata) hk hg
    · intro _ Y _ _ Z _ _ hd
      rw [Downstream, show w'.store.lineage = w.store.lineage from congrArg Data.lineage hdata] at hd
      exact hd
    · exact fun hr => absurd hr (hrec X hj.holder)
  | @replica id old new T hstill hdata hswap hj =>
    have hrep : w'.store.replicas = T := congrArg Data.replicas hdata
    have hded : w'.store.dedup = w.store.dedup := congrArg Data.dedup hdata
    refine .of_metadata hstill (congrArg Data.objects hdata) (congrArg Data.journal hdata)
      (congrArg Data.lineage hdata) (.of_swap hi hu (hrep ▸ hswap) hj)
      (.of_eq (congrArg Data.attempts hdata)) (.of_eq (congrArg Data.reservations hdata))
      (.of_eq (congrArg Data.archives hdata)) (fun b x _ => by rw [hded]) ?_
    cases hj with
    | add ho => exact hi.own_not_recovering ho
    | delete ho => exact hi.own_not_recovering ho
    | update hp => exact hi.pay_not_recovering hp
    | putBack hr => exact hrec id (.inr hr)
    | recommit hr => exact hrec id (.inr hr)
  | @archive id old new T hstill hdata hswap hj =>
    have harch : w'.store.archives = T := congrArg Data.archives hdata
    have hded : w'.store.dedup = w.store.dedup := congrArg Data.dedup hdata
    obtain ⟨hno, hnn⟩ := hj.holder hi hu
    refine .of_metadata hstill (congrArg Data.objects hdata) (congrArg Data.journal hdata)
      (congrArg Data.lineage hdata) (.of_eq (congrArg Data.replicas hdata))
      (.of_eq (congrArg Data.attempts hdata)) (.of_eq (congrArg Data.reservations hdata))
      (.of_swap (harch ▸ hswap) hno hnn) (fun b x _ => by rw [hded]) ?_
    cases hj with
    | add ho => exact hi.own_not_recovering ho
    | delete ho => exact hi.own_not_recovering ho
    | putBack hr => exact hrec .nil (.inr hr)
    | recommit hr => exact hrec .nil (.inr hr)
  | @dedup h be T hstill hdata hother hgrd _ =>
    have hded : w'.store.dedup = T := congrArg Data.dedup hdata
    refine .of_metadata hstill (congrArg Data.objects hdata) (congrArg Data.journal hdata)
      (congrArg Data.lineage hdata) (.of_eq (congrArg Data.replicas hdata))
      (.of_eq (congrArg Data.attempts hdata)) (.of_eq (congrArg Data.reservations hdata))
      (.of_eq (congrArg Data.archives hdata)) (fun b x hp => ?_) ?_
    · rw [hded]
      refine hother _ ?_
      intro he
      obtain ⟨rfl, rfl⟩ := Prod.mk.inj he
      rcases hgrd with hgrd | hgrd
      · exact hi.not_pay hu hgrd hp
      · exact hi.pay_not_recovering hp hgrd
    · rcases hgrd with hgrd | hgrd
      · exact hi.pay_not_recovering hgrd
      · exact hrec .nil (.inr hgrd)
  | @lineage T hstill hdata hedges =>
    have hlin : w'.store.lineage = T := congrArg Data.lineage hdata
    have hobj : ∀ X, rowOf w' X = rowOf w X := fun X => by
      rw [rowOf, show w'.store.objects = _ from congrArg Data.objects hdata]
      rfl
    refine .of_still hstill (.of_eq (congrArg Data.objects hdata))
      (.of_eq (congrArg Data.replicas hdata)) (.of_eq (congrArg Data.journal hdata))
      (.of_eq (congrArg Data.attempts hdata)) (.of_eq (congrArg Data.reservations hdata))
      (.of_eq (congrArg Data.archives hdata)) (fun b x _ => ?_) ?_ ?_ ?_
    · rw [show w'.store.dedup = w.store.dedup from congrArg Data.dedup hdata]
    · intro _ k _ hg
      exact hg.of_row_eq hobj (congrArg Data.journal hdata)
    · intro hm Y _ hp Z hZ hex hd
      rw [Downstream, hlin] at hd
      exact hedges hm Y hp Z hZ (fun o ho => hex o (by rw [hobj]; exact ho)) hd
    · intro _
      rw [hdata]
      rfl
  | @reserve j r a S J V A hstill hdata hJ hV hA _ hj =>
    have hjo : w'.store.journal = J := congrArg Data.journal hdata
    have hvo : w'.store.reservations = V := congrArg Data.reservations hdata
    have hao : w'.store.attempts = A := congrArg Data.attempts hdata
    have hno := hi.not_own hu hj.own
    refine .of_still hstill (.of_eq (congrArg Data.objects hdata))
      (.of_eq (congrArg Data.replicas hdata))
      (.of_swap (hjo ▸ hJ) (by simp) (fun x hx => by cases hx; exact hno))
      (.of_swap (hao ▸ hA) (by simp) (fun x hx => by cases hx; rw [hj.attempt.2.1]; exact hno))
      (.of_swap (hvo ▸ hV) (by simp)
        (fun x hx => by cases hx; rw [hj.reservation.2.1]; exact hno))
      (.of_eq (congrArg Data.archives hdata)) (fun b x _ => ?_) ?_ ?_ ?_
    · rw [show w'.store.dedup = w.store.dedup from congrArg Data.dedup hdata]
    · intro _ k _ hg x hx hopen o ho hs S' plan hp y hy
      have hobj : rowOf w x.objectId = some o := by
        rw [rowOf, show w'.store.objects = _ from congrArg Data.objects hdata] at ho
        exact ho
      rw [hjo] at hx
      rcases (hJ.2.2.2.2 x).mp hx with ⟨hx, _⟩ | hn
      · exact hg x hx hopen o hobj hs S' plan hp y hy
      · cases hn
        rw [hj.row] at hobj
        cases hobj
        exact absurd hs hj.prior.notReclaimed
    · intro _ Y _ _ Z _ _ hd
      rw [Downstream, show w'.store.lineage = w.store.lineage from congrArg Data.lineage hdata] at hd
      exact hd
    · exact fun hr => absurd hr (hi.own_not_recovering hj.own)
  | @journal j j' T hstill hdata hswap hX _ _ hj =>
    have hjo : w'.store.journal = T := congrArg Data.journal hdata
    have hobj : ∀ X, rowOf w' X = rowOf w X := fun X => by
      rw [rowOf, show w'.store.objects = _ from congrArg Data.objects hdata]
      rfl
    have hno := hi.excluded hu hj.holder
    refine .of_still hstill (.of_eq (congrArg Data.objects hdata))
      (.of_eq (congrArg Data.replicas hdata))
      (.of_swap (hjo ▸ hswap) (fun x hx => by cases hx; exact hno)
        (fun x hx => by cases hx; rw [hX]; exact hno))
      (.of_eq (congrArg Data.attempts hdata)) (.of_eq (congrArg Data.reservations hdata))
      (.of_eq (congrArg Data.archives hdata)) (fun b x _ => ?_) ?_ ?_ ?_
    · rw [show w'.store.dedup = w.store.dedup from congrArg Data.dedup hdata]
    · intro _ k _ hg
      exact hj.noGhost hobj (hjo ▸ hswap) hX hg
    · intro _ Y _ _ Z _ _ hd
      rw [Downstream, show w'.store.lineage = w.store.lineage from congrArg Data.lineage hdata] at hd
      exact hd
    · exact fun hr => absurd hr (hrec j.objectId hj.holder)
  | @attempt a status now T hstill hdata hswap hgrd =>
    have hao : w'.store.attempts = T := congrArg Data.attempts hdata
    have hded : w'.store.dedup = w.store.dedup := congrArg Data.dedup hdata
    have hno := hi.excluded hu hgrd
    exact .of_metadata hstill (congrArg Data.objects hdata) (congrArg Data.journal hdata)
      (congrArg Data.lineage hdata) (.of_eq (congrArg Data.replicas hdata))
      (.of_swap (hao ▸ hswap) (fun x hx => by cases hx; exact hno)
        (fun x hx => by cases hx; exact hno))
      (.of_eq (congrArg Data.reservations hdata)) (.of_eq (congrArg Data.archives hdata))
      (fun b x _ => by rw [hded]) (hrec a.objectId hgrd)
  | @reservations which status hstill hdata hgrd =>
    have hvo : w'.store.reservations = Store.closeReservations which status
        w.store.reservations := congrArg Data.reservations hdata
    have hded : w'.store.dedup = w.store.dedup := congrArg Data.dedup hdata
    by_cases hany : ∃ r ∈ w.store.reservations, which r = true
    · obtain ⟨r, hr, hw⟩ := hany
      refine .of_metadata hstill (congrArg Data.objects hdata) (congrArg Data.journal hdata)
        (congrArg Data.lineage hdata) (.of_eq (congrArg Data.replicas hdata))
        (.of_eq (congrArg Data.attempts hdata)) ?_ (.of_eq (congrArg Data.archives hdata))
        (fun b x _ => by rw [hded]) (hrec r.objectId (hgrd r hr hw))
      intro X hX x hx
      rw [hvo]
      exact mem_closeReservations_of_other
        (fun y hy hw => by rintro rfl; exact hi.excluded hu (hgrd y hy hw) hX) hx
    · have hsame : Store.closeReservations which status w.store.reservations =
          w.store.reservations := closeReservations_of_none fun r hr => by
        cases hw : which r with
        | false => rfl
        | true => exact absurd ⟨r, hr, hw⟩ hany
      rw [hsame] at hdata
      exact .of_quiet ⟨hstill, hdata⟩
  | @payload be k h v hp hnamed hs hpl hb hproc hlog =>
    obtain ⟨hlog, _⟩ := log_cons hlog
    refine .of_store hs (fun Y => by rw [Own, Own, hproc]) (fun k => by rw [Pay, Pay, hproc])
      (by rw [Recovering, Recovering, hproc]) (by rw [hproc])
      (by rw [Lost, Lost, hproc]; exact id) hlog ?_
      (fun X a k _ _ => by rw [hb]) (fun hr => absurd hr (hi.pay_not_recovering hp))
    intro hm be' h' k' hp' hn'
    rw [hpl]
    refine setPayload_ne ?_
    rintro ⟨rfl, rfl⟩
    have := (hnamed hm).1.functional (hinj hm) hn'
    subst this
    exact hi.not_pay hu hp hp'
  | @blob X a k v ho hk _ hs hpl hb hproc hlog =>
    obtain ⟨hlog, _⟩ := log_cons hlog
    refine .of_store hs (fun Y => by rw [Own, Own, hproc]) (fun k => by rw [Pay, Pay, hproc])
      (by rw [Recovering, Recovering, hproc]) (by rw [hproc])
      (by rw [Lost, Lost, hproc]; exact id) hlog
      (fun _ b h k _ _ => by rw [hpl]) ?_ (fun hr => absurd hr (hi.own_not_recovering ho))
    intro Y a' k' hY hk'
    rw [hb]
    refine setBlob_ne ?_
    rintro ⟨rfl, rfl⟩
    exact hi.not_own hu ho (hk.inj hk' ▸ hY)

end

/-! ## stable assertions -/

/-- an assertion that survives the others and quiet steps -/
def Stable (env : Env) (m : Regime) (t : Tid) (P : Traced → Prop) : Prop :=
  ∀ w w', Keep env m t w w' → P w → P w'

end ReclaimFabric
