import ReclaimFabric.Protocol.Preserve

/-!
# Returns and restarts

What the last step of an operation, together with its return, and the start of a new process do to
the invariant and to the others.
-/

set_option linter.unusedSectionVars false

namespace ReclaimFabric

variable {env : Env} {m : Regime} {t u : Tid} {b : Bool} {op : Op} {r : Res op.Out}
  {w w' : Traced}

/-! ## the record of a return -/

theorem acks_target {X : Uuid} (h : Event.Acks X (.returned t op r)) : op.target = some X := by
  cases r with
  | ok a => exact h
  | error e => cases h

theorem not_acks_of_target {X : Uuid} (h : op.target ≠ some X) :
    ¬Event.Acks X (.returned t op r) := fun ha => h (acks_target ha)

theorem acknowledged_returned (w : Traced) (X : Uuid) :
    acknowledged X (w.returned t op r).log = op.effect X r (acknowledged X w.log) := rfl

theorem Keep.of_returned (hno : ∀ X, Own u X w → ¬Event.Acks X (.returned t op r)) :
    Keep env m u w (w.returned t op r) := by
  refine .of_store rfl (fun _ => Iff.rfl) (fun _ => Iff.rfl) Iff.rfl rfl id ⟨[_], rfl, ?_⟩
    (fun _ _ _ _ _ _ => rfl) (fun _ _ _ _ _ => rfl) (fun _ => ⟨rfl, rfl⟩)
  intro X hX e he
  rw [List.mem_singleton.mp he]
  exact hno X hX

theorem Untouched.returned {j : JournalEntry} (h : Untouched j w)
    (hno : ¬Event.Acks j.objectId (.returned t op r)) : Untouched j (w.returned t op r) := by
  intro S plan hp
  obtain ⟨hack, l₁, e, l₂, hlog, hres, hn⟩ := h S plan hp
  refine ⟨by rw [acknowledged_returned, Op.effect_of_not_acks hno]; exact hack, .returned t op r :: l₁, e, l₂, ?_,
    hres, ?_⟩
  · show _ :: w.log = _
    rw [hlog]
    rfl
  · intro e' he'
    rcases List.mem_cons.mp he' with rfl | he'
    · exact hno
    · exact hn e' he'

theorem Truthful.returned (h : Truthful env m b w) : Truthful env m b (w.returned t op r) :=
  have hnamed {k x} (hn : Named env m.bytes w k x) : Named env m.bytes (w.returned t op r) k x :=
    Named.mono (w := w) (fun _ o ho => ⟨o, ho, rfl⟩) hn
  { unique := h.unique
    empty := h.empty
    decided := h.decided
    covered := h.covered
    guarded := h.guarded
    replicas := fun x hx => hnamed (h.replicas x hx)
    dedup := fun x hx => hnamed (h.dedup x hx)
    dels := fun j hj S plan hp d hd => hnamed (h.dels j hj S plan hp d hd) }

/-- a return that acknowledges nothing -/
theorem Inv.returned (hi : Inv env m b w)
    (hno : ∀ X, ¬Event.Acks X (.returned t op r)) : Inv env m b (w.returned t op r) where
  own := hi.own
  pay := hi.pay
  recovery := hi.recovery
  opening := hi.opening
  rows := hi.rows
  recipe := hi.recipe
  archives := hi.archives
  journal := fun j hj => by
    obtain ⟨S, plan, hr⟩ := hi.journal j hj
    exact ⟨S, plan, Records.mono (w := w) (fun X o ho => ⟨o, ho, rfl⟩) ⟨[_], rfl⟩ hr⟩
  single := hi.single
  settled := fun hb hn X hX => (hi.settled hb hn X hX).imp id fun hf =>
    Fine.congr (w := w) ⟨rfl, fun _ _ => Iff.rfl, fun _ _ => Iff.rfl, fun _ _ => Iff.rfl⟩ rfl hf
  acked := fun hm X hX => Acked.congr (w := w) rfl (Op.effect_of_not_acks (hno X)) (hi.acked hm X hX)
  untouched := fun hm j hj ho => (hi.untouched hm j hj ho).returned (hno _)
  truthful := fun hm => (hi.truthful hm).returned

/-! ## the last step -/

theorem Last.idle (hi : Inv env m b w) (h : Last env m b t op r w w') :
    Idle t (w'.returned t op r) := by
  cases h with
  | plain _ hidle _ _ => exact ⟨hidle.own, hidle.pay, hidle.recovering⟩
  | @release X hown honly hpay _ _ _ _ _ hproc _ _ =>
    refine ⟨?_, ?_, ?_⟩
    · intro Y hY
      have hY : (Y, t) ∈ w'.proc.activeObjects := hY
      rw [hproc, List.mem_filter, decide_eq_true_iff] at hY
      exact hY.2 (honly Y hY.1)
    · intro k hk
      have hk : (k, t) ∈ w'.proc.activePayloads := hk
      rw [hproc] at hk
      exact hpay k hk
    · intro hr
      have hr : w'.proc.activeRecovery = some t := hr
      rw [hproc] at hr
      exact hi.own_not_recovering hown hr
  | recovered _ hrec _ _ _ hproc _ _ =>
    obtain ⟨ho, hp⟩ := hi.recovery t hrec
    refine ⟨?_, ?_, ?_⟩
    · intro Y hY
      have hY : (Y, t) ∈ w'.proc.activeObjects := hY
      rw [hproc] at hY
      rw [ho] at hY
      exact List.not_mem_nil hY
    · intro k hk
      have hk : (k, t) ∈ w'.proc.activePayloads := hk
      rw [hproc] at hk
      rw [hp] at hk
      exact List.not_mem_nil hk
    · intro hr
      have hr : w'.proc.activeRecovery = some t := hr
      rw [hproc] at hr
      cases hr

theorem Last.keep (hinj : m.honest = true → Set.InjOn env.sha256 m.bytes) (hi : Inv env m b w)
    (h : Last env m b t op r w w') (hu : u ≠ t) : Keep env m u w (w'.returned t op r) := by
  cases h with
  | plain hg _ _ hno => exact (hg.keep hinj hi hu).trans (.of_returned fun X _ => hno X)
  | @release X hown honly _ htarget _ hs hp hb hproc hlog _ =>
    obtain ⟨hlog, _⟩ := log_cons hlog
    have hkeep : Keep env m u w w' := by
      refine .of_store hs ?_ (fun k => by rw [Pay, Pay, hproc])
        (by rw [Recovering, Recovering, hproc]) (by rw [hproc])
        (by rw [Lost, Lost, hproc]; exact id) hlog
        (fun _ b h k _ _ => by rw [hp]) (fun Y a k _ _ => by rw [hb]) (fun _ => ⟨hp, hb⟩)
      intro Y
      rw [Own, Own, hproc, List.mem_filter, decide_eq_true_iff]
      refine ⟨fun h => h.1, fun h => ⟨h, ?_⟩⟩
      rintro rfl
      exact hi.not_own hu hown h
    refine hkeep.trans (.of_returned fun Y hY => not_acks_of_target ?_)
    rw [htarget]
    intro he
    cases he
    exact hi.not_own hu hown ((hkeep.own X).mp hY)
  | recovered hop hrec hs hp hb hproc hlog _ =>
    obtain ⟨hlog, _⟩ := log_cons hlog
    obtain ⟨ho, hpy⟩ := hi.recovery t hrec
    have hkeep : Keep env m u w w' := by
      refine .of_store hs (fun Y => by rw [Own, Own, hproc]) (fun k => by rw [Pay, Pay, hproc])
        ?_ (by rw [hproc]) (by rw [Lost, Lost, hproc]; exact id) hlog
        (fun _ b h k _ _ => by rw [hp]) (fun Y a k _ _ => by rw [hb]) (fun _ => ⟨hp, hb⟩)
      rw [Recovering, Recovering, hproc, hrec]
      constructor
      · intro h
        cases h
      · intro h
        exact absurd (Option.some.inj h).symm hu
    refine hkeep.trans (.of_returned fun Y _ => not_acks_of_target ?_)
    subst hop
    simp [Op.target]

/-- the object is dropped; what it was left with is `Settled` -/
theorem Inv.release {X : Uuid} (hi : Inv env m b w) (hown : Own t X w)
    (htarget : op.target = some X)
    (hs : w'.store = w.store) (hp : w'.payloads = w.payloads) (hb : w'.blobs = w.blobs)
    (hproc : w'.proc = { w.proc with
      activeObjects := w.proc.activeObjects.filter (fun e => decide (e.1 ≠ X)) })
    (hlog : ∃ e, Event.isCall e = true ∧ w'.log = e :: w.log)
    (hset : Settled m X (w'.returned t op r)) : Inv env m b (w'.returned t op r) := by
  have hrow : ∀ Y, rowOf (w'.returned t op r) Y = rowOf w Y := fun Y => by
    show w'.store.objects.find? Y = _
    rw [hs]
    rfl
  have hstore : (w'.returned t op r).store = w.store := hs
  have hfilter : ∀ u Y, Own u Y (w'.returned t op r) ↔ Own u Y w ∧ Y ≠ X := by
    intro u Y
    show (Y, u) ∈ w'.proc.activeObjects ↔ _
    rw [hproc, List.mem_filter, decide_eq_true_iff]
    rfl
  have hpay : ∀ u k, Pay u k (w'.returned t op r) ↔ Pay u k w := by
    intro u k
    show (k, u) ∈ w'.proc.activePayloads ↔ _
    rw [hproc]
    rfl
  have hconfig : (w'.returned t op r).proc.config = w.proc.config := by
    show w'.proc.config = _
    rw [hproc]
  have hlost : Lost (w'.returned t op r) ↔ Lost w := by
    show w'.proc.authorityLost = true ↔ _
    rw [hproc]
    rfl
  have hrec : (w'.returned t op r).proc.activeRecovery = w.proc.activeRecovery := by
    show w'.proc.activeRecovery = _
    rw [hproc]
  have hfree : ∀ Y, Y ≠ X → Unowned Y (w'.returned t op r) → Unowned Y w := by
    intro Y hY hun u hu
    exact hun u ((hfilter u Y).mpr ⟨hu, hY⟩)
  have hno : ∀ Y, Y ≠ X → ¬Event.Acks Y (.returned t op r) := by
    intro Y hY
    refine not_acks_of_target ?_
    rw [htarget]
    exact fun he => hY (Option.some.inj he).symm
  have hackY : ∀ Y, Y ≠ X → acknowledged Y (w'.returned t op r).log = acknowledged Y w.log := by
    intro Y hY
    rw [acknowledged_returned, Op.effect_of_not_acks (hno Y hY), (log_cons (t := t) hlog).2]
  obtain ⟨l, _, hl⟩ := isCall_log hlog
  have hgrow : (w'.returned t op r).log = (.returned t op r :: l) ++ w.log := by
    show _ :: w'.log = _
    rw [hl]
    rfl
  exact
    { own := fun Y u v hu hv => hi.own Y u v ((hfilter u Y).mp hu).1 ((hfilter v Y).mp hv).1
      pay := fun k u v hu hv => hi.pay k u v ((hpay u k).mp hu) ((hpay v k).mp hv)
      recovery := fun u hu => by
        rw [Recovering, hrec] at hu
        exact absurd hu (hi.own_not_recovering hown)
      opening := fun hf => by
        obtain ⟨ho, _⟩ := hi.opening hf
        rw [Own, ho] at hown
        exact absurd hown List.not_mem_nil
      rows := by simp only [hrow]; exact hi.rows
      recipe := by simp only [hrow]; exact hi.recipe
      archives := by rw [hstore]; exact hi.archives
      journal := by
        rw [hstore]
        intro j hj
        obtain ⟨S, plan, hr⟩ := hi.journal j hj
        exact ⟨S, plan, hr.mono (fun Y o ho => ⟨o, by rw [hrow]; exact ho, rfl⟩) ⟨_, hgrow⟩⟩
      single := hi.single.mono (by rw [hstore]; exact fun _ h _ => h)
      settled := by
        intro hbt hn Y hY
        by_cases hYX : Y = X
        · subst hYX
          exact hset.fine
        · rw [hrec] at hn
          rcases hi.settled hbt hn Y (hfree Y hYX hY) with hl | hf
          · exact .inl (hlost.mpr hl)
          · refine .inr (hf.congr ⟨hrow Y, ?_, ?_, ?_⟩ hconfig)
            · intro j _
              rw [hstore]
            · intro a _
              rw [hstore]
            · intro x _
              rw [hstore]
      acked := by
        intro hm Y hY
        by_cases hYX : Y = X
        · subst hYX
          exact hset.acked hm
        · exact (hi.acked hm Y (hfree Y hYX hY)).congr (hrow Y) (hackY Y hYX)
      untouched := by
        rw [hstore]
        intro hm j hj hopen
        by_cases hjX : j.objectId = X
        · exact hset.untouched hm j (by rw [hstore]; exact hj) hjX hopen
        · exact ((hi.untouched hm j hj hopen).mono (isCall_log hlog)).returned (hno _ hjX)
      truthful := by
        intro hm
        refine .of_store hi hm hstore (by rw [hrec]; exact id) ?_ ?_ hlost.mpr
        · exact fun j _ o _ _ hd => hd.congr hp hb
        · intro hl j hj hopen o ho hst u _ hu hpy
          -- a RECLAIMED object with an open journal is only dropped when the coordinator is fenced
          have hne : j.objectId ≠ X := by
            rintro rfl
            rcases hset.fine with hf | hf
            · exact hl hf
            · obtain ⟨_, _, _, hph, _⟩ := (hi.truthful hm).decided j hj hopen o ho hst
              obtain ⟨⟨o', ho', hs'⟩, _⟩ := (hf.parked hm j (by rw [hstore]; exact hj) rfl
                hopen).physical hph
              rw [hrow, ho] at ho'
              cases ho'
              rw [hst] at hs'
              cases hs'
          exact ⟨(hfilter u _).mpr ⟨hu, hne⟩, fun S plan hp r hr =>
            (hpay u _).mpr (hpy S plan hp r hr)⟩ }

/-- recovery returns -/
theorem Inv.recovered {r : Res (Op.Out .recover)} (hi : Inv env m b w) (hrec : Recovering t w)
    (hs : w'.store = w.store) (hp : w'.payloads = w.payloads) (hb : w'.blobs = w.blobs)
    (hproc : w'.proc = { w.proc with activeRecovery := none })
    (hlog : ∃ e, Event.isCall e = true ∧ w'.log = e :: w.log)
    (hset : (b || Op.opened .recover r) = true → ∀ X, Lost w ∨ Fine m X w) :
    Inv env m (b || Op.opened .recover r) (w'.returned t .recover r) := by
  obtain ⟨hao, hap⟩ := hi.recovery t hrec
  have hstore : (w'.returned t .recover r).store = w.store := hs
  have hrow : ∀ Y, rowOf (w'.returned t .recover r) Y = rowOf w Y := fun Y => by
    rw [rowOf, hstore]
    rfl
  have hao' : (w'.returned t .recover r).proc.activeObjects = [] := by
    show w'.proc.activeObjects = []
    rw [hproc]
    exact hao
  have hap' : (w'.returned t .recover r).proc.activePayloads = [] := by
    show w'.proc.activePayloads = []
    rw [hproc]
    exact hap
  have hlost : Lost (w'.returned t .recover r) ↔ Lost w := by
    show w'.proc.authorityLost = true ↔ _
    rw [hproc]
    rfl
  have hfree : ∀ X, Unowned X w := by
    intro X u hu
    rw [Own, hao] at hu
    exact List.not_mem_nil hu
  have hack : ∀ Y, acknowledged Y (w'.returned t .recover r).log = acknowledged Y w.log :=
    (log_cons (t := t) hlog).2
  obtain ⟨l, _, hl⟩ := isCall_log hlog
  have hgrow : (w'.returned t .recover r).log = (.returned t .recover r :: l) ++ w.log := by
    show _ :: w'.log = _
    rw [hl]
    rfl
  have hfine : ∀ X, Fine m X w → Fine m X (w'.returned t .recover r) := by
    intro X hf
    refine hf.congr ⟨hrow X, ?_, ?_, ?_⟩ ?_
    · intro j _
      rw [hstore]
    · intro a _
      rw [hstore]
    · intro x _
      rw [hstore]
    · show w'.proc.config = _
      rw [hproc]
  exact
    { own := fun X u v hu _ => by rw [Own, hao'] at hu; exact absurd hu List.not_mem_nil
      pay := fun k u v hu _ => by rw [Pay, hap'] at hu; exact absurd hu List.not_mem_nil
      recovery := fun _ _ => ⟨hao', hap'⟩
      opening := fun _ => ⟨hao', hap'⟩
      rows := by simp only [hrow]; exact hi.rows
      recipe := by simp only [hrow]; exact hi.recipe
      archives := by rw [hstore]; exact hi.archives
      journal := by
        rw [hstore]
        intro j hj
        obtain ⟨S, plan, hr⟩ := hi.journal j hj
        exact ⟨S, plan, hr.mono (fun Y o ho => ⟨o, by rw [hrow]; exact ho, rfl⟩) ⟨_, hgrow⟩⟩
      single := hi.single.mono (by rw [hstore]; exact fun _ h _ => h)
      settled := fun hbt _ X _ => (hset hbt X).imp hlost.mpr (hfine X)
      acked := fun hm X _ => (hi.acked hm X (hfree X)).congr (hrow X) (hack X)
      untouched := by
        rw [hstore]
        intro hm j hj hopen
        exact ((hi.untouched hm j hj hopen).mono (isCall_log hlog)).returned
          (not_acks_of_target (by simp [Op.target]))
      truthful := by
        intro hm
        have h := hi.truthful hm
        have hnamed {k x} (hn : Named env m.bytes w k x) :
            Named env m.bytes (w'.returned t .recover r) k x :=
          hn.mono fun X o ho => ⟨o, by rw [hrow]; exact ho, rfl⟩
        exact
          { unique := by rw [hstore]; exact h.unique
            empty := by simp only [hrow, hstore]; exact h.empty
            decided := by
              simp only [hrow, hstore]
              exact fun j hj ho o hr hst => (h.decided j hj ho o hr hst).congr hp hb
            covered := by rw [hstore]; exact h.covered
            guarded := by
              simp only [hrow, hstore]
              intro hbt _ hl j hj hopen o ho hst
              obtain ⟨_, _, _, hph, _⟩ := h.decided j hj hopen o ho hst
              rcases hset hbt j.objectId with hl' | hf
              · exact absurd (hlost.mpr hl') hl
              · obtain ⟨⟨o', ho', hs'⟩, _⟩ := (hf.parked hm j hj rfl hopen).physical hph
                rw [ho] at ho'
                cases ho'
                rw [hst] at hs'
                cases hs'
            replicas := by rw [hstore]; exact fun x hx => hnamed (h.replicas x hx)
            dedup := by rw [hstore]; exact fun x hx => hnamed (h.dedup x hx)
            dels := by
              rw [hstore]
              exact fun j hj S plan hp d hd => hnamed (h.dels j hj S plan hp d hd) } }

/-- **Returns keep the invariant.** -/
theorem Last.inv (hinj : m.honest = true → Set.InjOn env.sha256 m.bytes) (hi : Inv env m b w)
    (h : Last env m b t op r w w') : Inv env m (b || op.opened r) (w'.returned t op r) := by
  cases h with
  | plain hg _ hop hno =>
    rw [hop, Bool.or_false]
    exact (hg.inv hi hinj).returned hno
  | release hown _ _ htarget hop hs hp hb hproc hlog hset =>
    rw [hop, Bool.or_false]
    exact hi.release hown htarget hs hp hb hproc hlog hset
  | recovered hop hrec hs hp hb hproc hlog hset =>
    subst hop
    exact hi.recovered hrec hs hp hb hproc hlog hset

/-! ## restarts -/

theorem Untouched.restarted {j : JournalEntry} (h : Untouched j w)
    (hlog : w'.log = .restarted :: w.log) : Untouched j w' := by
  intro S plan hp
  obtain ⟨hack, l₁, e, l₂, hl, hres, hn⟩ := h S plan hp
  refine ⟨by rw [hlog]; exact hack, .restarted :: l₁, e, l₂, by rw [hlog, hl]; rfl, hres, ?_⟩
  intro e' he'
  rcases List.mem_cons.mp he' with rfl | he'
  · exact fun h => h
  · exact hn e' he'

theorem Sys.restart_eq {s s' : Sys} {config : Config} {bootId : Uuid} {now : Int}
    (h : s.restart env config bootId now = some s') :
    s'.shared.store.data = s.shared.store.data ∧
    s'.shared.payloads = surviving env s.shared.payloads ∧ s'.shared.blobs = s.shared.blobs ∧
    (∃ epoch, s'.shared.proc = Proc.start config epoch bootId) ∧
    s'.shared.log = .restarted :: s.shared.log := by
  unfold Sys.restart at h
  split at h
  · cases h
  · split at h
    · cases h
    · next epoch store hc =>
      cases h
      refine ⟨?_, rfl, rfl, ⟨epoch, rfl⟩, rfl⟩
      unfold Store.claimCoordinator at hc
      split at hc
      · cases hc
      · split at hc
        · cases hc
        · split at hc
          · cases hc
            rfl
          · split at hc
            · split at hc
              · cases hc
                rfl
              · cases hc
            · cases hc

/-- **A new process finds the invariant.** -/
theorem Inv.restarted {s s' : Sys} {config : Config} {bootId : Uuid} {now : Int}
    (hi : Inv env m s.serving s.shared) (hquiet : m.wrapped = true → ∀ X, Unowned X s.shared)
    (h : s.restart env config bootId now = some s') : Inv env m false s'.shared := by
  obtain ⟨hdata, hpay, hblob, ⟨epoch, hproc⟩, hlog⟩ := Sys.restart_eq h
  have hobj : s'.shared.store.objects = s.shared.store.objects := congrArg Data.objects hdata
  have hrep : s'.shared.store.replicas = s.shared.store.replicas := congrArg Data.replicas hdata
  have harch : s'.shared.store.archives = s.shared.store.archives := congrArg Data.archives hdata
  have hded : s'.shared.store.dedup = s.shared.store.dedup := congrArg Data.dedup hdata
  have hjou : s'.shared.store.journal = s.shared.store.journal := congrArg Data.journal hdata
  have hrow : ∀ X, rowOf s'.shared X = rowOf s.shared X := fun X => by rw [rowOf, rowOf, hobj]
  have hao : s'.shared.proc.activeObjects = [] := by rw [hproc]; rfl
  have hap : s'.shared.proc.activePayloads = [] := by rw [hproc]; rfl
  exact
    { own := fun X u v hu _ => by rw [Own, hao] at hu; exact absurd hu List.not_mem_nil
      pay := fun k u v hu _ => by rw [Pay, hap] at hu; exact absurd hu List.not_mem_nil
      recovery := fun _ _ => ⟨hao, hap⟩
      opening := fun _ => ⟨hao, hap⟩
      rows := by simp only [hrow]; exact hi.rows
      recipe := by simp only [hrow]; exact hi.recipe
      archives := by rw [harch]; exact hi.archives
      journal := by
        rw [hjou]
        intro j hj
        obtain ⟨S, plan, hr⟩ := hi.journal j hj
        exact ⟨S, plan, hr.mono (fun Y o ho => ⟨o, by rw [hrow]; exact ho, rfl⟩) ⟨[_], hlog⟩⟩
      single := by
        refine hi.single.mono ?_
        rw [show s'.shared.store.reservations = s.shared.store.reservations from
          congrArg Data.reservations hdata]
        exact fun _ h _ => h
      settled := fun hf => by cases hf
      acked := fun hm X _ => (hi.acked hm X (hquiet hm X)).congr (hrow X) (by rw [hlog]; rfl)
      untouched := by
        rw [hjou]
        exact fun hm j hj hopen => (hi.untouched hm j hj hopen).restarted hlog
      truthful := by
        intro hm
        have h := hi.truthful hm
        have hnamed {k x} (hn : Named env m.bytes s.shared k x) :
            Named env m.bytes s'.shared k x :=
          hn.mono fun X o ho => ⟨o, by rw [hrow]; exact ho, rfl⟩
        exact
          { unique := by rw [hjou]; exact h.unique
            empty := by simp only [hrow, hrep, harch]; exact h.empty
            decided := by
              simp only [hrow, hjou]
              intro j hj ho o hr hst
              obtain ⟨S, plan, hp, hph, hempty, hgone, hblobs⟩ := h.decided j hj ho o hr hst
              refine ⟨S, plan, hp, hph, hempty, ?_, by rw [hblob]; exact hblobs⟩
              intro x hx
              rw [hpay]
              show (if _ then none else _) = none
              split
              · rfl
              · exact hgone x hx
            covered := by rw [hjou, hrep, harch]; exact h.covered
            guarded := fun hf => by cases hf
            replicas := by rw [hrep]; exact fun x hx => hnamed (h.replicas x hx)
            dedup := by rw [hded]; exact fun x hx => hnamed (h.dedup x hx)
            dels := by
              rw [hjou]
              exact fun j hj S plan hp d hd => hnamed (h.dels j hj S plan hp d hd) } }

theorem Idle.restarted {s s' : Sys} {config : Config} {bootId : Uuid} {now : Int}
    (h : s.restart env config bootId now = some s') (t : Tid) : Idle t s'.shared := by
  obtain ⟨_, _, _, ⟨epoch, hproc⟩, _⟩ := Sys.restart_eq h
  refine ⟨fun X hX => ?_, fun k hk => ?_, fun hr => ?_⟩
  · rw [Own, hproc] at hX
    exact absurd hX List.not_mem_nil
  · rw [Pay, hproc] at hk
    exact absurd hk List.not_mem_nil
  · rw [Recovering, hproc] at hr
    cases hr

/-- the empty store -/
theorem Inv.init : Inv env m false Sys.init.shared := by
  have hno {κ ρ : Type} {key : ρ → κ} {P : ρ → Prop} : ∀ r ∈ (Table.empty : Table key), P r :=
    fun r hr => absurd hr (Table.not_mem_empty r)
  exact
    { own := fun _ _ _ h => absurd h List.not_mem_nil
      pay := fun _ _ _ h => absurd h List.not_mem_nil
      recovery := fun _ _ => ⟨rfl, rfl⟩
      opening := fun _ => ⟨rfl, rfl⟩
      rows := fun _ _ h => by cases h
      recipe := fun _ _ _ h => by cases h
      archives := hno
      journal := hno
      single := hno
      settled := fun h => by cases h
      acked := fun _ _ _ _ h => by cases h
      untouched := fun _ => hno
      truthful := fun _ =>
        { unique := hno
          empty := fun _ _ h => by cases h
          decided := hno
          covered := hno
          guarded := fun h => by cases h
          replicas := hno
          dedup := hno
          dels := hno } }

end ReclaimFabric
