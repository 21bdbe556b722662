import ReclaimFabric.Protocol.Physical
import ReclaimFabric.Protocol.Schedule

/-!
# From the reservation to the physical phase

The first half of the walk through `Coordinator::reclaim`

* `transition`, `enterPending`   the metadata route to RECLAIM_PENDING;
* `checkDependencies`            what the lineage said stays true while the object is held;
* `acquireKeys`                  the payload guard, under which the plan is made;
* `safe_reclaim`                 the whole operation.
-/

set_option linter.unusedSectionVars false

namespace ReclaimFabric

open Party (Triple)

variable {env : Env} {m : Regime} {b : Bool} {t : Tid} {op : Op} {X : Uuid} {k k' : Task}
  {w w' : Traced} {l : Bool} {req : ReclaimRequest}

/-! ## the lineage as it was read -/

theorem LineageGraph.addEdge_mem {g g' : LineageGraph} {p c : Uuid} {kind : EdgeKind}
    (h : g.addEdge p c kind = .ok g') :
    (∀ e ∈ g.edges, e ∈ g'.edges) ∧ (⟨p, c, kind⟩ : LineageEdge) ∈ g'.edges := by
  unfold LineageGraph.addEdge at h
  split at h
  · cases h
  split at h
  · cases h
  split at h
  · next hany =>
    cases h
    refine ⟨fun _ he => he, ?_⟩
    obtain ⟨⟨p', c', kind'⟩, he, hck⟩ := List.any_eq_true.mp hany
    rw [LineageGraph.outEdges, List.mem_filter] at he
    have hp : p' = p := by simpa using he.2
    have hck : c' = c ∧ kind' = kind := by simpa using hck
    rw [← hp, ← hck.1, ← hck.2]
    exact he.1
  split at h
  · cases h
  · cases h
    exact ⟨fun e he => List.mem_append_left _ he, by simp⟩

theorem Store.addEdges_mem {es : List LineageEdge} {g g' : LineageGraph}
    (h : Store.addEdges es g = .ok g') :
    (∀ e ∈ g.edges, e ∈ g'.edges) ∧ ∀ e ∈ es, e ∈ g'.edges := by
  induction es generalizing g with
  | nil =>
    cases h
    exact ⟨fun _ he => he, nofun⟩
  | cons e es ih =>
    simp only [Store.addEdges] at h
    split at h
    · cases h
    · next g₁ hg₁ =>
      obtain ⟨hold, hnew⟩ := LineageGraph.addEdge_mem hg₁
      obtain ⟨hkeep, hrest⟩ := ih h
      refine ⟨fun x hx => hkeep x (hold x hx), ?_⟩
      intro x hx
      rcases List.mem_cons.mp hx with rfl | hx
      · exact hkeep x hnew
      · exact hrest x hx

/-- the graph has every stored edge -/
theorem Store.lineageGraph_mem {s s' : Store} {g : LineageGraph}
    (h : s.lineageGraph = .ok (g, s')) : ∀ e ∈ s.lineage.rows, e ∈ g.edges := by
  unfold Store.lineageGraph at h
  cases hg : Store.addEdges s.lineage.rows
      (s.objects.rows.foldl (fun g o => g.addObject o.id) LineageGraph.default) with
  | error e => simp [hg, bind, Except.bind] at h
  | ok g₁ =>
    simp only [hg, bind, Except.bind] at h
    cases h
    exact (Store.addEdges_mem hg).2

/-- the exposed objects below `X` are below it in the graph that was read -/
structure Viewed (m : Regime) (X : Uuid) (g : LineageGraph) (w : Traced) : Prop where
  read : PastRead w X
  paths : m.edges = true → ∀ Z, Z ≠ X → Exposed w Z → Downstream w X Z →
    Relation.TransGen (LineageGraph.DependsOn g.edges) X Z

theorem Viewed.keep {g : LineageGraph} (h : Viewed m X g w) (hk : Keep env m t w w')
    (hX : Own t X w) : Viewed m X g w' where
  read := hk.pastRead hX h.read
  paths := fun he Z hZ hexp hdown =>
    h.paths he Z hZ (hk.exposed hX hexp) (hk.downstream he X hX h.read Z hZ hexp hdown)

/-! ## the route to RECLAIM_PENDING -/

/-- what the preflight has checked -/
theorem preflight_ok {o : ReclaimObject} (h : Coordinator.preflight o = .ok ()) :
    (Coordinator.LiveTier o.lifecycleState = true →
      Legal o.lifecycleState .recomputable ∧ Legal .recomputable .reclaimPending) ∧
    (Coordinator.LiveTier o.lifecycleState = false → Legal o.lifecycleState .reclaimPending) := by
  unfold Coordinator.preflight at h
  cases hl : Coordinator.LiveTier o.lifecycleState with
  | true =>
    refine ⟨fun _ => ?_, nofun⟩
    simp only [hl, if_true] at h
    split at h
    · cases h
    · cases h₁ : checkTransition o.lifecycleState .recomputable with
      | error e => simp [h₁, bind, Except.bind] at h
      | ok r₁ => exact ⟨⟨r₁, h₁⟩, .allowed, by decide⟩
  | false =>
    refine ⟨nofun, fun _ => ?_⟩
    simp only [hl, Bool.false_eq_true, if_false] at h
    cases h₁ : checkTransition o.lifecycleState .reclaimPending with
    | error e => simp [h₁, bind, Except.bind] at h
    | ok r₁ => exact ⟨r₁, h₁⟩

namespace Working

/-- `apply_transition` on the object of the attempt -/
theorem transition {target : LifecycleState} {actor action : String} {policy : Option String}
    {attempt : Option Uuid} (hact : action = "RECLAIM_STEP_RECOMPUTABLE" ∨ action = "RECLAIM_RESERVED")
    (hph : k.phase = .reserved) (hplan : k.plan = none)
    (hsrc : k.state = k.snap.prior.lifecycleState ∨ k.state = .recomputable)
    (hdst : target = .recomputable ∨ target = .reclaimPending) (hlegal : Legal k.state target) :
    (party env m b t (.reclaim req)).Triple false (Working env m t X k)
      (Coordinator.applyTransition k.row target actor action policy attempt)
      (fun o w => o = { k with state := target }.row ∧ Working env m t X { k with state := target } w)
      (fun _ => Bail m t X k.keys) := by
  obtain ⟨r, hr⟩ := hlegal
  have hr' : checkTransition k.row.lifecycleState target = .ok r := hr
  refine Triple.bind (R := fun x w => x = r ∧ Working env m t X k w) ?_ fun x =>
    Triple.of_pure fun hx => ?_
  · refine Triple.settle ?_ ?_
    · intro x hx w hw
      rw [hr'] at hx
      cases hx
      exact ⟨rfl, hw⟩
    · intro e he
      rw [hr'] at he
      cases he
  subst hx
  cases x with
  | noop =>
    -- the object is in the state already
    have hst : k.state = target := by
      unfold checkTransition at hr
      split at hr
      · next h => exact h
      · split at hr <;> cases hr
    refine Triple.pure fun w hw => ?_
    subst hst
    exact ⟨rfl, hw⟩
  | allowed =>
    refine Triple.bind (R := fun _ => Working env m t X { k with state := target }) ?_ fun _ =>
      Triple.pure fun w hw => ⟨rfl, hw⟩
    refine inSection (fun _ => stable) (nowMs fun ts => ?_)
    refine Triple.post (writeRow (s := target) rfl rfl rfl ?_) (fun _ _ h => h.1) ?_
    · intro w hw _
      obtain ⟨j, hj, he⟩ := hw.bond.journal
      refine .route hw.bond.own hw.bond.row hj he.2.1 (he.2.2.1.trans hph)
        (by rw [he.2.2.2, hplan]) ?_ ?_ ⟨_, hr⟩
      · rcases hsrc with h | h
        · left
          rw [Task.row, h]
        · right
          rw [Task.row, h]
      · rcases hdst with rfl | rfl
        · exact .inl rfl
        · exact .inr rfl
    · intro _ w h
      refine h.1.bail_free (h.2 ?_)
      rcases hact with rfl | rfl <;> rfl

/-- the object reaches RECLAIM_PENDING -/
theorem enterPending {report : ReclaimReport} {actor : String}
    (hph : k.phase = .reserved) (hplan : k.plan = none)
    (hst : k.state = k.snap.prior.lifecycleState)
    (hroute : Coordinator.preflight k.snap.prior = .ok ()) :
    (party env m b t (.reclaim req)).Triple false (Working env m t X k)
      (Coordinator.enterPending report actor k.snap.prior)
      (fun o w => o = { k with state := .reclaimPending }.row ∧
        Working env m t X { k with state := .reclaimPending } w)
      (fun _ => Bail m t X k.keys) := by
  have hrow : k.snap.prior = k.row := by rw [Task.row, hst]
  unfold Coordinator.enterPending
  refine Triple.ite (fun hp => ?_) fun hp => ?_
  · refine Triple.pure fun w hw => ?_
    have hk : k = { k with state := .reclaimPending } := by
      rw [← hst] at hp
      rw [← hp]
    rw [← hk]
    exact ⟨hrow, hw⟩
  obtain ⟨hlive, hdirect⟩ := preflight_ok hroute
  refine Triple.ite (fun hl => ?_) fun hl => ?_
  · obtain ⟨h₁, h₂⟩ := hlive hl
    rw [← hst] at h₁
    refine Triple.bind (R := fun o w => o = { k with state := .recomputable }.row ∧
      Working env m t X { k with state := .recomputable } w) ?_ fun o => Triple.of_pure fun ho => ?_
    · rw [hrow]
      exact transition (.inl rfl) hph hplan (.inl hst) (.inl rfl) h₁
    · rw [ho]
      exact transition (k := { k with state := .recomputable }) (.inr rfl) hph hplan (.inr rfl)
        (.inr rfl) h₂
  · have h₁ := hdirect (by simpa using hl)
    rw [← hst] at h₁
    rw [hrow]
    exact transition (.inr rfl) hph hplan (.inl hst) (.inr rfl) h₁

/-! ## validation -/

/-- the journal row becomes VALIDATED -/
theorem validated {report : ReclaimReport} (ha : report.attemptId = k.attemptId)
    (hph : k.phase = .reserved) :
    (party env m b t (.reclaim req)).Triple false (Working env m t X k)
      (Coordinator.withInner do
        let now ← Coordinator.nowMs
        Coordinator.store (.updateJournalPhase report.attemptId .validated now))
      (fun _ => Working env m t X { k with phase := .validated }) (fun _ => Bail m t X k.keys) := by
  have hmem : k.phase ∈ [JournalPhase.reserved] := by rw [hph]; simp
  have hopen : k.phase.isOpen = true := by rw [hph]; rfl
  have hphys : JournalPhase.validated.physical = k.phase.physical := by rw [hph]; rfl
  rw [ha]
  refine inSection (fun _ => stable) (nowMs fun now => ?_)
  refine Triple.post (advanceJournal rfl hmem hopen rfl hphys ?_) (fun _ _ h => h)
    fun _ _ h => h.1.bail_free (h.2 rfl)
  exact fun w j hown hj => .validate hown (hj.trans hph) rfl rfl

theorem read {so : StoreOp} (hc : so.calm = true) :
    (party env m b t op).Triple false (Working env m t X k) (Coordinator.inner so)
      (fun _ => Working env m t X k) (fun _ => Working env m t X k) :=
  Triple.innerCalm firm hc

theorem checkSurvivability {o : ReclaimObject} {rs : List Replica} {n : Nat} :
    (party env m b t op).Triple false (Working env m t X k)
      (Coordinator.checkSurvivability o rs n) (fun _ => Working env m t X k)
      (fun _ => Working env m t X k) := by
  refine Triple.bind (R := fun _ => Working env m t X k) ?_ fun before => ?_
  · refine Triple.bind (read rfl) fun n => Triple.bind (read rfl) fun as => ?_
    exact Triple.pure fun _ h => h
  refine Triple.ite (fun _ => Triple.throw fun _ h => h) fun _ => Triple.pure fun _ h => h

/-- the lineage is read while the attempt is VALIDATED -/
theorem lineage (hph : k.phase = .validated) :
    (party env m b t op).Triple false (Working env m t X k) Coordinator.lineage
      (fun g w => Working env m t X k w ∧ Viewed m X g w) (fun _ => Working env m t X k) := by
  have hfirm (g : LineageGraph) :
      Stable env m t (fun w => Working env m t X k w ∧ Viewed m X g w) :=
    fun w w' hk h => ⟨stable w w' hk h.1, h.2.keep hk h.1.bond.own⟩
  refine Triple.section_ firm (fun g => (hfirm g).firm) ?_
  refine Triple.read firm rfl ?_ (fun _ _ h => h)
  intro w g s hw _ hrun hafter
  have hrun : w.store.lineageGraph = .ok (g, s) := hrun
  have hd : s.data = w.store.data := @StoreOp.run_calm .lineageGraph rfl _ _ _ hrun
  refine ⟨hafter, ?_, ?_⟩
  · obtain ⟨j, hj, he⟩ := hw.bond.journal
    refine ⟨j, ?_, he.2.1, by rw [he.2.2.1, hph]; rfl, _, List.mem_cons_self, ?_⟩
    · show j ∈ s.journal
      rw [show s.journal = w.store.journal from congrArg Data.journal hd]
      exact hj
    · exact ⟨hw.bond.own, j, hj, rfl, he.2.2.1.trans hph⟩
  · intro _ Z _ _ hdown
    refine Relation.TransGen.mono ?_ _ _ hdown
    intro a b hab
    have hab : (⟨a, b, .dependsOn⟩ : LineageEdge) ∈ s.lineage.rows := hab
    rw [show s.lineage = w.store.lineage from congrArg Data.lineage hd] at hab
    exact Store.lineageGraph_mem hrun _ hab

/-- the answer of the dependency check over the objects `all` -/
def dependencyAnswer (g : LineageGraph) (o : ReclaimObject) (all : List ReclaimObject) :
    Res Unit :=
  g.dependencySafe o.id
    (fun id => ((all.find? (fun x => decide (x.id = id))).map
      ReclaimObject.reconstructible).getD false)
    ((all.filter (fun x => decide (x.lifecycleState = .reclaimed))).map ReclaimObject.id)

/-- an object that passes the check is cleared -/
theorem cleared_of_answer {g : LineageGraph} {o : ReclaimObject} {all : List ReclaimObject}
    {s : Store} (hid : o.id = X) (hrun : w.store.listObjects = .ok (all, s))
    (hv : Viewed m X g w) (he : m.edges = true)
    (hok : dependencyAnswer g o all = .ok ()) : Cleared X w where
  safe := fun Z hZ hexp hdown => by
    have hrow {x : ReclaimObject} (hx : x ∈ all) : rowOf w x.id = some x :=
      Table.find?_of_mem ((Store.listObjects_ok hrun).mp hx)
    rw [← hid] at hZ
    have hpath := hv.paths he Z (hid ▸ hZ) hexp hdown
    rw [← hid] at hpath
    rcases LineageGraph.dependencySafe_sound hok hZ hpath with hdead | hrec
    · obtain ⟨x, hx, rfl⟩ := List.mem_map.mp hdead
      rw [List.mem_filter, decide_eq_true_iff] at hx
      exact (hexp x (hrow hx.1)).1 hx.2
    · cases hf : all.find? (fun x => decide (x.id = Z)) with
      | none => simp [hf] at hrec
      | some x =>
        have hxZ : x.id = Z := by simpa using List.find?_some hf
        have hx := hrow (List.mem_of_find?_eq_some hf)
        rw [hxZ] at hx
        have hnone := (hexp x hx).2
        rw [hf] at hrec
        simp [ReclaimObject.reconstructible, hnone] at hrec
  read := hv.read

theorem checkDependencies {o : ReclaimObject} (hid : o.id = X) (hph : k.phase = .validated) :
    (party env m b t op).Triple false (Working env m t X k) (Coordinator.checkDependencies o)
      (fun _ => Working env m t X { k with safe := true }) (fun _ => Working env m t X k) := by
  refine Triple.bind (lineage hph) fun g => ?_
  have hfirm : Stable env m t (fun w => Working env m t X k w ∧ Viewed m X g w) :=
    fun w w' hk h => ⟨stable w w' hk h.1, h.2.keep hk h.1.bond.own⟩
  have hdone (all : List ReclaimObject) : Stable env m t (fun w => Working env m t X k w ∧
      (m.edges = true → dependencyAnswer g o all = .ok () → Cleared X w)) :=
    fun w w' hk h => ⟨stable w w' hk h.1, fun he hok => (h.2 he hok).keep hk h.1.bond.own he⟩
  refine Triple.bind (R := fun all w => Working env m t X k w ∧
    (m.edges = true → dependencyAnswer g o all = .ok () → Cleared X w)) ?_ fun all => ?_
  · refine Triple.post (Triple.innerAnswer (R := fun _ => True) hfirm.firm (.const True)
      (fun all => (hdone all).firm) rfl (fun _ _ _ _ => trivial) ?_) (fun _ _ h => h)
      fun _ _ h => h.1
    intro w all s hw _ _ hrun
    exact ⟨hw.1, fun he hok => cleared_of_answer hid hrun hw.2 he hok⟩
  · refine Triple.settle ?_ (fun _ _ _ h => h.1)
    intro _ hok w hw
    exact ⟨{ hw.1.ok with }, { hw.1.bond with safe := fun _ he => hw.2 he hok },
      { hw.1.stock with }⟩

/-! ## the payload guard -/

/-- a failure that is neither rolled back nor stops the coordinator, before the physical phase -/
theorem bail_early (h : Working env m t X k w) (hw : m.wrapped = false) (hres : k.reserved = true)
    (hatt : k.attempted = true) (hphys : k.phase.physical = false) (hs : k.state ≠ .reclaimed) :
    Bail m t X k.keys w := by
  refine bail_parked h.bond hw hres hatt hs ?_
  intro _ hp
  rw [hphys] at hp
  cases hp

/-- the dedup rows of the scheduled replicas are there and count them -/
def Plannable (env : Env) (dels : List Replica) (w : Traced) : Prop :=
  ∀ d ∈ dels, d.contentHash ≠ Coordinator.emptyHash env →
    ∃ e, w.store.dedup.find? (d.contentHash, d.location.backend) = some e ∧
      e.key = d.location.key ∧ (Coordinator.sharing d.slot dels).length ≤ e.refCount

/-- the rows of one payload are at least the replicas that were scheduled for it -/
theorem sharing_le {d : Replica} (h : Working env m t X k w) (hreps : k.reps = k.snap.dels) :
    (Coordinator.sharing d.slot k.snap.dels).length ≤
      w.store.replicas.countWhere
        (fun x => decide (x.objectId = X) && decide (x.slot = d.slot)) := by
  have hids := h.ok.nodup
  rw [hreps] at hids
  have hsub : (Coordinator.sharing d.slot k.snap.dels).map Replica.replicaId ⊆
      (w.store.replicas.rows.filter
        (fun x => decide (x.objectId = X) && decide (x.slot = d.slot))).map Replica.replicaId := by
    intro id hid
    obtain ⟨x, hx, rfl⟩ := List.mem_map.mp hid
    rw [Coordinator.sharing, List.mem_filter, decide_eq_true_iff] at hx
    obtain ⟨r, hr, hd⟩ := h.stock.present x (by rw [hreps]; exact hx.1)
    refine List.mem_map.mpr ⟨r, ?_, Replica.id_of_desc hd⟩
    rw [List.mem_filter, Bool.and_eq_true, decide_eq_true_iff, decide_eq_true_iff]
    exact ⟨hr, (Replica.object_of_desc hd).trans (h.ok.dels x hx.1),
      (Replica.slot_of_desc hd).trans hx.2⟩
  have hnodup : ((Coordinator.sharing d.slot k.snap.dels).map Replica.replicaId).Nodup :=
    hids.sublist (List.filter_sublist.map _)
  have hlen := (List.subperm_of_subset hnodup hsub).length_le
  rw [List.length_map, List.length_map, ← List.countP_eq_length_filter] at hlen
  exact hlen

theorem plannable (h : Working env m t X k w) (hreps : k.reps = k.snap.dels)
    (hplan : PlanOk env X w.toWorld) : Plannable env k.snap.dels w := by
  intro d hd hne
  obtain ⟨r, hr, hdesc⟩ := h.stock.present d (by rw [hreps]; exact hd)
  have hslot := Replica.slot_of_desc hdesc
  obtain ⟨hbe, hhash⟩ := Prod.mk.inj hslot
  have hkey : r.location.key = d.location.key := by
    have := congrArg (fun x : Replica => x.location.key) hdesc
    exact this
  obtain ⟨e, he, hek, hcount⟩ := hplan r hr ((Replica.object_of_desc hdesc).trans (h.ok.dels d hd))
    (by rw [hhash]; exact hne)
  rw [hbe, hhash] at he
  rw [hslot] at hcount
  exact ⟨e, he, hek.trans hkey, (h.sharing_le hreps).trans hcount⟩

/-- the attempt holds the payloads of its replicas -/
structure Guarded (env : Env) (m : Regime) (t : Tid) (X : Uuid) (k : Task) (w : Traced) :
    Prop where
  working : Working env m t X k w
  plannable : m.wrapped = true → Plannable env k.snap.dels w

theorem Guarded.stable (hslots : ∀ d ∈ k.snap.dels, d.slot ∈ k.keys) :
    Stable env m t (Guarded env m t X k) := by
  intro w w' hk h
  refine ⟨Working.stable w w' hk h.working, ?_⟩
  intro hm d hd hne
  obtain ⟨e, he, hrest⟩ := h.plannable hm d hd hne
  have hpay : Pay t (d.location.backend, d.contentHash) w :=
    (h.working.bond.held.pay _).mpr (hslots d hd)
  exact ⟨e, (hk.dedup _ _ hpay).trans he, hrest⟩

theorem acquireKeys {X : Uuid} (hreq : req.objectId = X) (hk : k.keys = [])
    (hgone : k.gone = []) (hreps : k.reps = k.snap.dels) {ks : List (String × ContentHash)} :
    (party env m true t (.reclaim req)).Triple false (Working env m t X k)
      (Coordinator.beginPayloadOperations ks)
      (fun _ => Guarded env m t X { k with keys := Coordinator.sortKeys ks })
      (fun _ => Working env m t X k) := by
  refine Triple.beginPayloadOperations firm ?_
  intro w hw _ hallow hnone hfree
  obtain ⟨hguar, hheld⟩ := acquireKeys_step env m (.reclaim req) (hk ▸ hw.bond.held) hnone hfree
  have hwork : Working env m t X { k with keys := Coordinator.sortKeys ks }
      (Party.Triple.acquiredKeys (party env m true t (.reclaim req)) (Coordinator.sortKeys ks) w) := by
    refine ⟨{ hw.ok with gone := ?_ }, ?_, ?_⟩
    · show ∀ r ∈ k.gone, _
      rw [hgone]
      exact nofun
    · exact hw.bond.congr hheld rfl rfl rfl rfl rfl rfl ⟨[_], by simp [Event.isCall], rfl⟩
    · exact hw.stock.congr rfl rfl rfl rfl rfl rfl rfl rfl
  refine ⟨hguar, hwork, ?_⟩
  intro hm
  obtain ⟨i, ha⟩ := hallow
  have ha : m.Allows env (.reclaim req) _ i w := ha
  refine hwork.plannable hreps ?_
  rw [← hreq]
  exact ha.plan hm req rfl _ rfl

/-! ## the plan -/

/-- the dedup row of a group, when the plan may not fail -/
theorem getDedup {s : Coordinator.Scheduled} (hslots : ∀ d ∈ k.snap.dels, d.slot ∈ k.keys)
    (hmem : s.representative ∈ k.snap.dels) (hslot : s.representative.slot = s.slot)
    (hne : s.hash ≠ Coordinator.emptyHash env)
    (hcount : s.count ≤ (Coordinator.sharing s.slot k.snap.dels).length) :
    (party env m b t (.reclaim req)).Triple l (Guarded env m t X k)
      (Coordinator.store (.getDedup s.hash s.backend))
      (fun x w => (m.wrapped = true → ∃ e : DedupEntry, x = some e ∧
        e.key = s.representative.location.key ∧ s.count ≤ e.refCount) ∧ Guarded env m t X k w)
      (fun _ => Bail m t X k.keys) := by
  obtain ⟨hbe, hhash⟩ := Prod.mk.inj hslot
  have hstable : Stable env m t (Guarded env m t X k) := Guarded.stable hslots
  have hsure : ∀ (w : Traced) e, Guarded env m t X k w →
      (StoreOp.getDedup s.hash s.backend).run w.store ≠ .error e := by
    intro w e _ h
    cases h
  refine Triple.post (sureStore hstable ?_ hsure) (fun _ _ h => h)
    fun _ _ h => h.1.working.bail_free (h.2 rfl)
  intro w x st hw _ hrun
  have hx : x = w.store.dedup.find? (s.hash, s.backend) ∧ st = w.store := by
    cases hrun
    exact ⟨rfl, rfl⟩
  have hq : Quiet w ((party env m b t (.reclaim req)).after
      (.store (.getDedup s.hash s.backend)) (.ok x) w (w.setStore st)) := by
    rw [hx.2]
    exact Party.quiet_after (Calm.refl _)
  refine ⟨.quiet hq, ?_, hstable w _ (.of_quiet hq) hw⟩
  intro hm
  obtain ⟨e, he, hkey, hle⟩ := hw.plannable hm _ hmem (by rw [hhash]; exact hne)
  rw [hbe, hhash] at he
  rw [hslot] at hle
  exact ⟨e, hx.1.trans he, hkey, hcount.trans hle⟩

/-- the second loop of the plan, over groups whose dedup rows are as they should be -/
theorem planScheduled {ss : List Coordinator.Scheduled} {physical : List Replica}
    (hslots : ∀ d ∈ k.snap.dels, d.slot ∈ k.keys)
    (hss : ∀ s ∈ ss, s.representative ∈ k.snap.dels ∧ s.representative.slot = s.slot ∧
      s.hash ≠ Coordinator.emptyHash env ∧
      s.count ≤ (Coordinator.sharing s.slot k.snap.dels).length)
    (hres : k.reserved = true) (hatt : k.attempted = true) (hphys : k.phase.physical = false)
    (hs : k.state ≠ .reclaimed) :
    (party env m b t (.reclaim req)).Triple true (Guarded env m t X k)
      (Coordinator.planScheduled ss physical)
      (fun p w => (∃ l, l.Sublist (ss.map Coordinator.Scheduled.representative) ∧
        p = physical ++ l) ∧ Guarded env m t X k w)
      (fun _ => Bail m t X k.keys) := by
  induction ss generalizing physical with
  | nil => exact Triple.pure fun w hw => ⟨⟨[], .slnil, by simp⟩, hw⟩
  | cons s ss ih =>
    obtain ⟨hmem, hslot, hne, hcount⟩ := hss s List.mem_cons_self
    have ih' (p : List Replica) := @ih p fun x hx => hss x (List.mem_cons_of_mem _ hx)
    refine Triple.bind (getDedup hslots hmem hslot hne hcount) fun x =>
      Triple.of_pure fun hx => ?_
    have hpark (hw : m.wrapped = false) (w : Traced) (h : Guarded env m t X k w) :
        Bail m t X k.keys w :=
      h.working.bail_early hw hres hatt hphys hs
    cases x with
    | none =>
      refine Triple.throw (hpark ?_)
      by_contra hm
      obtain ⟨e, he, _⟩ := hx (by simpa using hm)
      cases he
    | some e =>
      refine Triple.refuse (fun hc => hpark ?_) fun _ => ?_
      · by_contra hm
        obtain ⟨_, ⟨⟩, hkey, _⟩ := hx (by simpa using hm)
        exact hc hkey
      refine Triple.refuse (fun hc => hpark ?_) fun _ => ?_
      · by_contra hm
        obtain ⟨_, ⟨⟩, _, hle⟩ := hx (by simpa using hm)
        omega
      refine Triple.ite (fun _ => ?_) fun _ => ?_
      · refine Triple.post (ih' _) ?_ fun _ _ h => h
        rintro _ w ⟨⟨l, hl, rfl⟩, hw⟩
        exact ⟨⟨s.representative :: l, hl.cons_cons _, by simp⟩, hw⟩
      · refine Triple.post (ih' _) ?_ fun _ _ h => h
        rintro _ w ⟨⟨l, hl, rfl⟩, hw⟩
        exact ⟨⟨l, hl.cons _, rfl⟩, hw⟩

/-- the replicas of one payload agree on its key when its dedup row does -/
theorem keysAgree {dels : List Replica} (h : Plannable env dels w) :
    Coordinator.KeysAgree (Coordinator.emptyHash env) dels := by
  intro r hr r' hr' hne hslot
  obtain ⟨hbe, hhash⟩ := Prod.mk.inj hslot
  obtain ⟨e, he, hkey, _⟩ := h r hr hne
  obtain ⟨e', he', hkey', _⟩ := h r' hr' (by rw [← hhash]; exact hne)
  rw [hbe, hhash, he'] at he
  cases he
  exact hkey.symm.trans hkey'

theorem physicalPlan (hslots : ∀ d ∈ k.snap.dels, d.slot ∈ k.keys)
    (hreps : k.reps = k.snap.dels) (hres : k.reserved = true) (hatt : k.attempted = true)
    (hphys : k.phase.physical = false) (hs : k.state ≠ .reclaimed) :
    (party env m b t (.reclaim req)).Triple false (Guarded env m t X k)
      (Coordinator.physicalPlan env k.snap.dels)
      (fun plan w => ((∀ r ∈ plan, r ∈ k.snap.dels) ∧ (plan.map Replica.replicaId).Nodup) ∧
        Working env m t X k w)
      (fun _ => Bail m t X k.keys) := by
  have hstable : Stable env m t (Guarded env m t X k) := Guarded.stable hslots
  refine Triple.withInner (R := fun _ => True) hstable.firm (.const True)
    (fun _ => (Stable.and (Stable.const _) stable).firm) (fun _ => Bail.firm)
    (fun _ _ _ _ => trivial) (fun _ w hw hl => bail_lost hw.working.bond hl) ?_
  refine Triple.pre ?_ fun w hw => hw.1
  have hg₀ : Coordinator.Grouped (Coordinator.emptyHash env) [] [] := ⟨List.nodup_nil, nofun, nofun⟩
  -- the first loop
  refine Triple.bind (R := fun p w =>
    Coordinator.scheduleAll (Coordinator.emptyHash env) k.snap.dels [] [] = .ok p ∧
      Guarded env m t X k w) ?_ fun p => Triple.of_pure fun hp => ?_
  · refine Triple.settle (fun p hp w hw => ⟨hp, hw⟩) ?_
    intro e he w hw
    refine hw.working.bail_early ?_ hres hatt hphys hs
    by_contra hm
    obtain ⟨p, hp⟩ := Coordinator.scheduleAll_total hg₀
      (keysAgree (hw.plannable (by simpa using hm)))
    rw [hp] at he
    cases he
  obtain ⟨_, hg⟩ := Coordinator.scheduleAll_ok hg₀ hp
  rw [List.nil_append] at hg
  -- the order of the hash map
  refine Triple.bind (R := fun ss w => ss.Perm p.2 ∧ Guarded env m t X k w) ?_ fun ss =>
    Triple.of_pure fun hss => ?_
  · refine Triple.bind (R := fun order w => order.Perm (List.range p.2.length) ∧
      Guarded env m t X k w) ?_ fun order => Triple.of_pure fun ho =>
        Triple.pure fun w hw => ⟨Coordinator.hashOrder_perm ho, hw⟩
    refine Triple.askLook rfl hstable.firm ?_
    intro w i order x hw _ _ he h
    simp only [exec] at he
    split at he
    · next hperm =>
      cases he
      exact ⟨List.isPerm_iff.mp hperm, h⟩
    · cases he
  -- the second loop
  refine Triple.post (planScheduled hslots ?_ hres hatt hphys hs) ?_ fun _ _ h => h
  · intro s hsm
    have hsm := hss.mem_iff.mp hsm
    obtain ⟨h₁, h₂, h₃⟩ := hg.mem s hsm
    exact ⟨h₁, h₂, h₃, hg.count s hsm⟩
  · rintro _ w ⟨⟨l, hl, rfl⟩, hw⟩
    have hids := hw.working.ok.nodup
    rw [hreps] at hids
    exact ⟨Coordinator.planned_ok hids hp hss hl, hw.working⟩

/-! ## the physical phase begins -/

/-- the plan becomes durable -/
theorem startPhysical {X : Uuid} {plan : List Replica} {now : Int} (hreq : req.objectId = X)
    (hph : k.phase = .validated) (hplan : k.plan = none) (hst : k.state = .reclaimPending)
    (hsub : ∀ r ∈ plan, r ∈ k.snap.dels) (hnodup : (plan.map Replica.replicaId).Nodup)
    (harchs : k.archs = k.snap.archs) :
    (party env m b t (.reclaim req)).Triple l (Working env m t X k)
      (Coordinator.store (.startJournalPhysical k.attemptId (payloadOf k.snap (some plan)) now))
      (fun _ => Working env m t X { k with phase := .physicalStarted, plan := some plan })
      (fun _ => Working env m t X k) := by
  refine Triple.store firm ?_ (fun _ _ _ _ _ h => h)
  intro w r st hw _ hallow hrun
  obtain ⟨i, ha⟩ := hallow
  have ha : m.Allows env (.reclaim req) _ i w := ha
  obtain ⟨j, T, hfind, _, hswap, hd⟩ := Store.startJournalPhysical_ok hrun
  obtain ⟨j₀, hj₀, he⟩ := hw.bond.journal
  obtain rfl : j = j₀ := Table.eq_of_key (Table.mem_of_find? hfind) hj₀
    ((Table.key_of_find? hfind).trans he.1.symm)
  have hopen : k.phase.isOpen = true := by rw [hph]; rfl
  constructor
  · refine .journal Party.still_store hd hswap rfl rfl rfl (.start (S := k.snap)
      ?_ (he.2.2.1.trans hph) rfl ?_ rfl hsub ?_ ?_ ?_ hnodup)
    · rw [he.2.1]
      exact hw.bond.own
    · rw [he.2.2.2, hplan]
    · rw [he.2.1]
      exact ⟨k.row, hw.bond.row, hst⟩
    · intro x hx hX
      obtain ⟨d, hd, hdesc⟩ := hw.stock.reps x hx (hX.trans he.2.1)
      exact ⟨d, hw.ok.reps d hd, hdesc⟩
    · intro a ham hX
      exact hw.ok.archs a (hw.stock.archs a ham (hX.trans he.2.1))
  · refine ⟨{ hw.ok with }, ?_, ?_⟩
    · refine hw.bond.of_journal (p := some plan) Party.still_store hd he hswap
        ⟨he.1, he.2.1, rfl, rfl⟩ rfl hopen rfl ?_
      intro _ hm a ham
      have harow := hw.stock.archived a (by rw [harchs]; exact ham)
      exact ha.archives hm req rfl _ _ _ rfl a harow (by rw [hreq]; exact (hw.ok.archKeys a ham).1)
    · exact hw.stock.congr (congrArg Data.replicas hd) (congrArg Data.archives hd) rfl rfl rfl rfl
        rfl rfl

/-- the plan goes into the payload of the journal row -/
theorem withDeletions {plan : List Replica} (hsub : ∀ r ∈ plan, r ∈ k.snap.dels)
    (hnodup : (plan.map Replica.replicaId).Nodup) :
    (party env m b t op).Triple l (Working env m t X k)
      (Prog.settle (withPhysicalDeletions (payloadOf k.snap none) plan))
      (fun p w => p = payloadOf k.snap (some plan) ∧ Working env m t X k w)
      (fun _ => Bail m t X k.keys) := by
  have hok (w : Traced) (hw : Working env m t X k w) :=
    withPhysicalDeletions_total (S := k.snap) hw.ok.row.valid hsub hnodup
  refine Triple.settle ?_ ?_
  · intro p hp w hw
    rw [hok w hw] at hp
    cases hp
    exact ⟨rfl, hw⟩
  · intro e he w hw
    rw [hok w hw] at he
    cases he

/-- the part of reclaim that holds the payload guard -/
theorem executeReclaim {X : Uuid} {report : ReclaimReport} {actor : String}
    (hreq : req.objectId = X) (ha : report.attemptId = k.attemptId)
    (hr : report.reservationId = k.reservationId) (hres : k.reserved = true)
    (hatt : k.attempted = true) (hplan : k.plan = none) (hst : k.state = .reclaimPending)
    (hph : k.phase = .validated) (hsafe : k.safe = true) (hreps : k.reps = k.snap.dels)
    (harchs : k.archs = k.snap.archs) (hslots : ∀ d ∈ k.snap.dels, d.slot ∈ k.keys) :
    (party env m b t (.reclaim req)).Triple false (Guarded env m t X k)
      (Coordinator.executeReclaim env report actor k.snap.prior k.row k.snap.dels k.snap.archs
        (payloadOf k.snap none))
      (fun _ => Resolved m t X k.keys) (fun _ => Bail m t X k.keys) := by
  have hphys : k.phase.physical = false := by rw [hph]; rfl
  have hopen : k.phase.isOpen = true := by rw [hph]; rfl
  have hs : k.state ≠ .reclaimed := by rw [hst]; simp
  refine Triple.bind (physicalPlan hslots hreps hres hatt hphys hs) fun plan =>
    Triple.of_pure fun ⟨hsub, hnodup⟩ => ?_
  refine Triple.bind (withDeletions hsub hnodup) fun p => Triple.of_pure fun hp => ?_
  subst hp
  refine Triple.bind (R := fun _ =>
    Working env m t X { k with phase := .physicalStarted, plan := some plan }) ?_ fun _ => ?_
  · refine orAbort ha hr hres hatt hopen hphys hplan hs ?_
    refine Triple.section_ firm (fun _ => firm) (nowMs fun now => ?_)
    rw [ha]
    exact startPhysical hreq hph hplan hst hsub hnodup harchs
  · refine Triple.pre (Triple.of_exists fun L => Triple.post
      (executePhysical (k := { k with phase := .physicalStarted, plan := some plan }) (L := L)
        ha hr hres hatt rfl hsub hst rfl hsafe hreps harchs hslots) (fun _ _ h => h)
      fun _ _ h => h.bail) fun w hw => ⟨w.log, hw, rfl, .inl hst, [], rfl⟩

end Working

/-! ## dropping the payload guard -/

section
variable {ks : List (String × ContentHash)}

variable (op) in
/-- a reclaim on its way out may drop its payloads -/
theorem Bail.dropKeys (h : Bail m t X ks w) (hi : Inv env m b w) :
    Guar env m b t op w (Party.Triple.dropped (party env m b t op) ks w) := by
  refine .dropKeys ?_ ?_ rfl rfl rfl rfl ⟨_, rfl, rfl⟩
  · intro k hmem u hu
    exact hi.pay k t u ((h.held.pay k).mpr hmem) hu
  · intro hm Y hY j hj hjY hopen o ho hs
    rw [(h.held.own Y).mp hY] at hjY ho
    exact h.lost hm j hj hjY hopen o ho hs

variable (op b) in
theorem Bail.dropped (h : Bail m t X ks w) :
    Bail m t X [] (Party.Triple.dropped (party env m b t op) ks w) where
  held := held_dropped h.held
  settled := by
    refine ⟨?_, fun hm => Acked.congr (w := w) rfl rfl (h.settled.acked hm), ?_⟩
    · refine h.settled.fine.imp id fun hf => Fine.congr (w := w) ?_ rfl hf
      exact ⟨rfl, fun _ _ => Iff.rfl, fun _ _ => Iff.rfl, fun _ _ => Iff.rfl⟩
    intro hm j hj hX hopen
    exact (h.settled.untouched hm j hj hX hopen).mono (isCall_log ⟨_, rfl, rfl⟩)
  lost := h.lost

variable (op b) in
theorem Resolved.dropped (h : Resolved m t X ks w) :
    Resolved m t X [] (Party.Triple.dropped (party env m b t op) ks w) where
  held := held_dropped h.held
  noOpen := h.noOpen
  acked := fun hm => Acked.congr (w := w) rfl rfl (h.acked hm)

end

/-! ## everything after the reservation -/

/-- the task as the reservation leaves it -/
def Task.fresh (attemptId reservationId : Uuid) (S : Snapshot) : Task where
  keys := []
  attemptId := attemptId
  reservationId := reservationId
  snap := S
  phase := .reserved
  plan := none
  state := S.prior.lifecycleState
  reserved := true
  attempted := true
  safe := false
  reps := S.dels
  archs := S.archs
  gone := []
  blobs := []

theorem reclaimReserved {X : Uuid} {report : ReclaimReport} {actor : String} {S : Snapshot}
    (hreq : req.objectId = X) (hid : S.prior.id = X)
    (hroute : Coordinator.preflight S.prior = .ok ()) :
    (party env m true t (.reclaim req)).Triple false
      (Working env m t X (.fresh report.attemptId report.reservationId S))
      (Coordinator.reclaimReserved env report actor S.prior S.dels S.archs (payloadOf S none))
      (fun _ => Resolved m t X []) (fun _ => Bail m t X []) := by
  refine Triple.bind (Working.enterPending rfl rfl rfl hroute) fun current =>
    Triple.of_pure fun hcurrent => ?_
  subst hcurrent
  refine Triple.bind (Working.validated rfl rfl) fun _ => ?_
  refine Triple.bind (Working.orAbort rfl rfl rfl rfl rfl rfl rfl (by simp)
    Working.checkSurvivability) fun _ => ?_
  refine Triple.bind (Working.orAbort rfl rfl rfl rfl rfl rfl rfl (by simp)
    (Working.checkDependencies hid rfl)) fun _ => ?_
  refine Triple.bind (Working.orAbort rfl rfl rfl rfl rfl rfl rfl (by simp)
    (Working.acquireKeys hreq rfl rfl rfl)) fun _ => ?_
  refine Triple.holding (fun _ => Resolved.stable.firm) (fun _ => Bail.firm)
    (Working.executeReclaim hreq rfl rfl rfl rfl rfl rfl rfl rfl rfl rfl ?_) ?_ ?_
  · intro d hd
    exact mem_sortKeys.mpr (List.mem_map_of_mem hd)
  · intro a w hw hi
    exact ⟨hw.bail.dropKeys _ hi, hw.dropped _ _⟩
  · intro e w hw hi
    exact ⟨hw.dropKeys _ hi, hw.dropped _ _⟩

end ReclaimFabric
