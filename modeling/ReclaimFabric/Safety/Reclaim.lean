import ReclaimFabric.Safety.Modes

/-!
# What a reclaim may destroy

* `nonreconstructible_kept`   an object that cannot be reconstructed is not reclaimed, unless it
                              was archived when the reclaim reserved it;
* `commit_dependency_safe`    no exposed object depends on the object when a reclaim commits,
                              unless an edge was added below it after the lineage was read.
-/

namespace ReclaimFabric

/-! ## objects without a recipe -/

/-- **An object that cannot be reconstructed is never RECLAIMED.** -/
theorem nonreconstructible_kept {env : Env} {s : Sys} {X : Uuid} {o : ReclaimObject}
    (h : Reach env recipeRun s) (ho : rowOf s.shared X = some o)
    (hclass : o.durabilityClass ≠ .ephemeral) (hcost : o.recomputeCost = none) :
    o.lifecycleState ≠ .reclaimed := by
  intro hst
  have hi := (h.mono recipeRun_mode).inv (m := .withRecipe) fun h => by cases h
  rcases hi.recipe rfl X o ho (by rw [hst]; simp [Doomed]) with he | hc
  · exact hclass he
  · rw [hcost] at hc
    cases hc

namespace Sample

/-- an object that is neither ephemeral nor reconstructible -/
def precious (n : Nat) : ReclaimObject :=
  { object n with durabilityClass := .recomputable, recomputeCost := none }

/-- a decidable check of the reservations -/
def recipes (s : Sys) : Label → Bool
  | .step t _ =>
    match s.threads t with
    | none => true
    | some th =>
      match th.rest with
      | .call (.store (.createReclaimReservation j _ _)) _ =>
        (rowOf s.shared j.objectId).all fun o => decide (o.lifecycleState ≠ .archived) ||
          decide (o.durabilityClass = .ephemeral) || o.recomputeCost.isSome
      | _ => true
  | _ => true

theorem recipes_ok (s : Sys) (l : Label) (h : recipes s l = true) : recipeRun s l := by
  cases l with
  | start t op => trivial
  | restart config bootId now => trivial
  | step t i =>
    intro th c k hth hk j r a hc o ho hst
    subst hc
    simp only [recipes, hth, hk, ho, hst, Option.all_some] at h
    simpa using h

def preciousKept : Option Sys :=
  after recipes (after recipes (opened recipes) (register (precious 10) "a") 200) (reclaim 10) 300

/-- archiving opens the way to RECLAIM_PENDING that skips the check -/
def preciousLost : Option Sys :=
  after free (after free (after free (opened free) (register (precious 10) "a") 200)
    (.archive (uuid 10) "client") 300) (reclaim 10) 400

theorem preciousKept_row : (preciousKept.bind fun s => (rowOf s.shared (uuid 10)).map fun o =>
    (o.durabilityClass, o.recomputeCost)) = some (.recomputable, none) := by
  decide +kernel

theorem preciousLost_row : (preciousLost.bind fun s => (rowOf s.shared (uuid 10)).map fun o =>
    (o.durabilityClass, o.recomputeCost, o.lifecycleState)) =
      some (.recomputable, none, .reclaimed) := by
  decide +kernel

end Sample

theorem nonreconstructible_kept_refused : ∃ s o, Reach Sample.env recipeRun s ∧
    rowOf s.shared (Sample.uuid 10) = some o ∧ o.lifecycleState ≠ .reclaimed := by
  obtain ⟨s, hs, h⟩ := Option.bind_eq_some_iff.mp Sample.preciousKept_row
  obtain ⟨o, ho, h⟩ := Option.map_eq_some_iff.mp h
  obtain ⟨hclass, hcost⟩ := Prod.mk.inj h
  have hr : Reach Sample.env recipeRun s := (((Sample.reached_opened Sample.recipes_ok trivial).after
    Sample.recipes_ok).after Sample.recipes_ok) s hs
  exact ⟨s, o, hr, ho, nonreconstructible_kept hr ho (by rw [hclass]; decide) hcost⟩

/-- the same object is RECLAIMED once it has been archived -/
theorem nonreconstructible_lost : ¬∀ (env : Env) (s : Sys) (X : Uuid) (o : ReclaimObject),
    Reach env anyRun s → rowOf s.shared X = some o → o.durabilityClass ≠ .ephemeral →
    o.recomputeCost = none → o.lifecycleState ≠ .reclaimed := by
  intro hall
  obtain ⟨s, hs, h⟩ := Option.bind_eq_some_iff.mp Sample.preciousLost_row
  obtain ⟨o, ho, h⟩ := Option.map_eq_some_iff.mp h
  obtain ⟨hclass, h⟩ := Prod.mk.inj h
  obtain ⟨hcost, hst⟩ := Prod.mk.inj h
  have hr : Reach Sample.env anyRun s := ((((Sample.reached_opened Sample.free_ok trivial).after
    Sample.free_ok).after Sample.free_ok).after Sample.free_ok) s hs
  exact hall Sample.env s (Sample.uuid 10) o hr ho (by rw [hclass]; decide) hcost hst

/-! ## dependents -/

section
variable {env : Env} {s s' : Sys} {X : Uuid} {o o' : ReclaimObject} {t : Tid} {i : Input}
  {th : Thread}

/-- the write of one object row leaves the dependents of that object as they were -/
theorem DependencySafe.write {w w' : Traced} (h : DependencySafe w X)
    (hrow : ∀ Y, Y ≠ X → rowOf w' Y = rowOf w Y)
    (hlin : w'.store.lineage = w.store.lineage) : DependencySafe w' X := by
  intro Z hZ hexp hdown
  refine h Z hZ ?_ ?_
  · intro z hz
    refine hexp z ?_
    rw [hrow Z hZ]
    exact hz
  · rw [Downstream, ← hlin]
    exact hdown

/-- a step of a reclaim that writes RECLAIMED is the commit, whose dependents are safe -/
theorem Guar.commit_safe {m : Regime} {b : Bool} {op : Op} {w w' : Traced}
    (h : Guar env m b t op w w') (hi : Inv env m b w) (hm : m.edges = true)
    (hop : op ≠ .recover) (ho : rowOf w X = some o) (hst : o.lifecycleState ≠ .reclaimed)
    (ho' : rowOf w' X = some o') (hst' : o'.lifecycleState = .reclaimed) :
    DependencySafe w' X := by
  have hsame (hr : rowOf w' X = rowOf w X) : DependencySafe w' X := by
    rw [hr, ho] at ho'
    cases ho'
    exact absurd hst' hst
  rcases h.objects with hobj | ⟨Y, y, T, hd, hrow, hj⟩
  · exact hsame (by rw [rowOf, rowOf, hobj])
  by_cases hX : X = Y
  · subst hX
    rw [hrow, if_pos rfl] at ho'
    cases ho'
    have hdep : DependencySafe w X := by
      cases hj with
      | create _ _ hc => rcases hc with hc | hc <;> rw [hc] at hst' <;> cases hst'
      | flags _ hr _ hs =>
        cases ho.symm.trans hr
        exact absurd (hs.symm.trans hst') hst
      | tier _ _ _ _ _ hc _ => rcases hc with hc | hc | hc <;> rw [hc] at hst' <;> cases hst'
      | route _ _ _ _ _ _ _ hc _ => rcases hc with rfl | rfl <;> cases hst'
      | abort _ _ _ hjm _ _ _ hp hprior =>
        subst hprior
        exact absurd hst' (hi.records hjm hp).prior.notReclaimed
      | commit _ _ _ _ _ _ _ _ _ _ _ hdep => exact hdep hm
      | rollback hrec => exact absurd hrec hop
      | recommit hrec => exact absurd hrec hop
      | abandon hrec => exact absurd hrec hop
    exact hdep.write (fun Z hZ => by rw [hrow, if_neg hZ]) (congrArg Data.lineage hd)
  · exact hsame (by rw [hrow, if_neg hX])

/-- **When an operation writes RECLAIMED, no exposed object depends on the reclaimed one.** -/
theorem commit_dependency_safe (h : Reach env edgeRun s) (hl : edgeRun s (.step t i))
    (hth : s.threads t = some th) (hop : th.op ≠ .recover)
    (hn : s.next env (.step t i) = some s') (ho : rowOf s.shared X = some o)
    (hst : o.lifecycleState ≠ .reclaimed) (ho' : rowOf s'.shared X = some o')
    (hst' : o'.lifecycleState = .reclaimed) :
    ∀ Z z, Z ≠ X → rowOf s'.shared Z = some z → z.lifecycleState ≠ .reclaimed →
      z.recomputeCost = none → ¬Downstream s'.shared X Z := by
  have hinj : Regime.withEdges.Collisionless env := fun h => by cases h
  have hreach := h.mono (@edgeRun_mode env)
  have hi := hreach.inv hinj
  have hsafe : DependencySafe s'.shared X := by
    cases hreach.moved hinj (edgeRun_mode s _ hl) hn with
    | stepped hth' hg =>
      cases hth.symm.trans hth'
      exact hg.commit_safe hi rfl hop ho hst ho' hst'
    | @finished _ _ _ r w hth' hlast hs =>
      cases hth.symm.trans hth'
      have hrow : rowOf s'.shared = rowOf w := by rw [hs]; rfl
      rw [hrow] at ho'
      have hstore : DependencySafe w X := by
        cases hlast with
        | plain hg => exact hg.commit_safe hi rfl hop ho hst ho' hst'
        | release _ _ _ _ _ hstore =>
          rw [rowOf, hstore] at ho'
          cases ho.symm.trans ho'
          exact absurd hst' hst
        | recovered hrec => exact absurd hrec hop
      rw [hs]
      exact hstore
  intro Z z hZ hz hzst hzc
  refine hsafe Z hZ ?_
  intro z' hz'
  cases hz.symm.trans hz'
  exact ⟨hzst, hzc⟩

end

namespace Sample

/-- three objects; the second depends on the first, the third has no recipe -/
def family (ok : Sys → Label → Bool) : Option Sys :=
  after ok (after ok (after ok (after ok (opened ok)
    (register (object 10) "a") 200)
    (register (object 11) "b") 300)
    (register { object 12 with recomputeCost := none } "c") 400)
    (.addLineage (uuid 10) (uuid 11) .dependsOn "client") 500

theorem reached_family {mode : Mode} {ok : Sys → Label → Bool}
    (hok : ∀ s l, ok s l = true → mode s l)
    (hm : mode Sys.init (.restart config (uuid 1) 5000)) : Reached mode (family ok) :=
  ((((reached_opened hok hm).after hok).after hok).after hok).after hok

/-- the reclaim of the first has checked its dependents -/
def checked : Option Sys := during free 1 (family free) (reclaim 10) (calm 600) 178

/-- now the third is made to depend on the second, and the reclaim is about to commit -/
def orphaning : Option Sys :=
  checked.bind fun s => (s.call? env free 2 (.addLineage (uuid 11) (uuid 12) .dependsOn "client")
    (calm 1000)).bind fun s => s.steps? env free 1 (calm 600) 63 178

theorem reached_orphaning : Reached anyRun orphaning := by
  intro s h
  obtain ⟨s₁, h₁, h⟩ := Option.bind_eq_some_iff.mp h
  obtain ⟨s₂, h₂, h⟩ := Option.bind_eq_some_iff.mp h
  have hr := (reached_family free_ok trivial).during free_ok s₁ h₁
  exact (hr.call? free_ok h₂).steps? free_ok h

/-- what the commit of the first finds -/
def orphaned (s s' : Sys) (th : Thread) : Bool :=
  (match th.op with | .reclaim _ => true | _ => false) &&
    (rowOf s.shared (uuid 10)).any (fun o => decide (o.lifecycleState ≠ .reclaimed)) &&
    (rowOf s'.shared (uuid 10)).any (fun o => decide (o.lifecycleState = .reclaimed)) &&
    (rowOf s'.shared (uuid 12)).any (fun z =>
      decide (z.lifecycleState ≠ .reclaimed) && z.recomputeCost.isNone) &&
    decide (⟨uuid 10, uuid 11, .dependsOn⟩ ∈ s'.shared.store.lineage.rows) &&
    decide (⟨uuid 11, uuid 12, .dependsOn⟩ ∈ s'.shared.store.lineage.rows)

set_option maxRecDepth 2000 in
theorem orphaning_orphaned : (orphaning.any fun s => (s.threads 1).any fun th =>
    (s.next env (.step 1 (calm 600 241))).any fun s' => orphaned s s' th) = true := by
  decide +kernel

end Sample

/-- an edge below an intermediate dependent, added after the check, is not noticed -/
theorem commit_dependency_unsafe : ¬∀ (env : Env) (s s' : Sys) (t : Tid) (i : Input) (th : Thread)
    (X : Uuid) (o o' : ReclaimObject), Reach env anyRun s → s.threads t = some th →
    th.op ≠ .recover → s.next env (.step t i) = some s' → rowOf s.shared X = some o →
    o.lifecycleState ≠ .reclaimed → rowOf s'.shared X = some o' →
    o'.lifecycleState = .reclaimed →
    ∀ Z z, Z ≠ X → rowOf s'.shared Z = some z → z.lifecycleState ≠ .reclaimed →
      z.recomputeCost = none → ¬Downstream s'.shared X Z := by
  intro hall
  obtain ⟨s, hs, h⟩ := (Option.any_eq_true _ _).mp Sample.orphaning_orphaned
  obtain ⟨th, hth, h⟩ := (Option.any_eq_true _ _).mp h
  obtain ⟨s', hn, h⟩ := (Option.any_eq_true _ _).mp h
  simp only [Sample.orphaned, Bool.and_eq_true, decide_eq_true_eq] at h
  obtain ⟨⟨⟨⟨⟨hop, ho⟩, ho'⟩, hz⟩, hxy⟩, hyz⟩ := h
  obtain ⟨o, ho, hst⟩ := (Option.any_eq_true _ _).mp ho
  obtain ⟨o', ho', hst'⟩ := (Option.any_eq_true _ _).mp ho'
  obtain ⟨z, hz, hzz⟩ := (Option.any_eq_true _ _).mp hz
  rw [Bool.and_eq_true, decide_eq_true_iff] at hzz
  have hne : th.op ≠ .recover := by
    intro he
    rw [he] at hop
    cases hop
  refine hall Sample.env s s' 1 _ th (Sample.uuid 10) o o' (Sample.reached_orphaning s hs) hth hne
    hn ho (by simpa using hst) ho' (by simpa using hst') (Sample.uuid 12) z (by decide) hz hzz.1
    (Option.isNone_iff_eq_none.mp hzz.2) ?_
  exact .tail (.single hxy) hyz

namespace Sample

/-- a decidable check: edges are added while no reclaim is unresolved -/
def quietEdges (s : Sys) : Label → Bool
  | .step t _ =>
    match s.threads t with
    | none => true
    | some th =>
      match th.rest with
      | .call (.store (.addLineageEdge _ _ _)) _ =>
        s.shared.store.journal.rows.all fun j => !j.phase.isOpen
      | _ => true
  | _ => true

theorem quietEdges_ok (s : Sys) (l : Label) (h : quietEdges s l = true) : edgeRun s l := by
  cases l with
  | start t op => trivial
  | restart config bootId now => trivial
  | step t i =>
    intro th c k hth hk p x hc X Z hpast
    subst hc
    simp only [quietEdges, hth, hk, List.all_eq_true] at h
    obtain ⟨j, hj, _, hopen, _⟩ := hpast
    have := h j hj
    rw [hopen] at this
    cases this

/-- the reclaim of the first object is about to commit -/
def committing : Option Sys := during quietEdges 1 (family quietEdges) (reclaim 10) (calm 600) 241

set_option maxRecDepth 2000 in
theorem committing_commits : (committing.any fun s => (s.threads 1).any fun th =>
    (s.next env (.step 1 (calm 600 241))).any fun s' =>
      quietEdges s (.step 1 (calm 600 241)) &&
      (match th.op with | .reclaim _ => true | _ => false) &&
      (rowOf s.shared (uuid 10)).any (fun o => decide (o.lifecycleState ≠ .reclaimed)) &&
      (rowOf s'.shared (uuid 10)).any (fun o => decide (o.lifecycleState = .reclaimed))) =
        true := by
  decide +kernel

end Sample

theorem commit_dependency_safe_family : ∃ s s' : Sys, Reach Sample.env edgeRun s ∧
    s.next Sample.env (.step 1 (Sample.calm 600 241)) = some s' ∧
    (∃ o, rowOf s'.shared (Sample.uuid 10) = some o ∧ o.lifecycleState = .reclaimed) ∧
    ∀ Z z, Z ≠ Sample.uuid 10 → rowOf s'.shared Z = some z → z.lifecycleState ≠ .reclaimed →
      z.recomputeCost = none → ¬Downstream s'.shared (Sample.uuid 10) Z := by
  obtain ⟨s, hs, h⟩ := (Option.any_eq_true _ _).mp Sample.committing_commits
  obtain ⟨th, hth, h⟩ := (Option.any_eq_true _ _).mp h
  obtain ⟨s', hn, h⟩ := (Option.any_eq_true _ _).mp h
  simp only [Bool.and_eq_true] at h
  obtain ⟨⟨⟨hq, hop⟩, ho⟩, ho'⟩ := h
  obtain ⟨o, ho, hst⟩ := (Option.any_eq_true _ _).mp ho
  obtain ⟨o', ho', hst'⟩ := (Option.any_eq_true _ _).mp ho'
  have hne : th.op ≠ .recover := by
    intro he
    rw [he] at hop
    cases hop
  have hr : Reach Sample.env edgeRun s :=
    (Sample.reached_family Sample.quietEdges_ok trivial).during Sample.quietEdges_ok s hs
  have hl := Sample.quietEdges_ok s _ hq
  exact ⟨s, s', hr, hn, ⟨o', ho', by simpa using hst'⟩, commit_dependency_safe hr hl hth hne hn ho
    (by simpa using hst) ho' (by simpa using hst')⟩

end ReclaimFabric
