import ReclaimFabric.Protocol.Registration
import ReclaimFabric.Protocol.Tiers
import ReclaimFabric.Protocol.Reconcile

/-!
# The discipline of the runs is sound

Every operation keeps to the discipline, so its invariant holds in every state of every run.

* `sound`          the discipline is sound;
* `Reach.inv`      the invariant holds in every state that is reached;
* `Reach.moved`    what one label does to the shared state;
* `Reach.row`      how the row of an object changes with one label.
-/

set_option linter.unusedSectionVars false

namespace ReclaimFabric

variable {env : Env} {m : Regime} {s s' : Sys} {l : Label}

/-- no two of the byte strings that occur have the same hash -/
def Regime.Collisionless (env : Env) (m : Regime) : Prop :=
  m.honest = true → Set.InjOn env.sha256 m.bytes

theorem safe_start {t : Tid} {w : Traced} (op : Op) (hidle : Idle t w) :
    (discipline env m).Safe true t op (op.prog env) w := by
  cases op with
  | createObject req => exact safe_createObject hidle
  | touch id actor => exact safe_touch hidle
  | pin id actor => exact safe_pin hidle
  | unpin id actor => exact safe_unpin hidle
  | setProtected id p actor => exact safe_setProtected hidle
  | addLineage p c kind actor => exact safe_addLineage hidle
  | removeLineage p c kind actor => exact safe_removeLineage hidle
  | plan id actor => exact safe_plan hidle
  | reclaim req => exact safe_reclaim hidle
  | compress id actor => exact safe_compress hidle
  | archive id actor => exact safe_archive hidle
  | restore id actor => exact safe_restore hidle
  | verify id actor => exact safe_verify hidle
  | recover => exact safe_recover hidle
  | heartbeat => exact safe_heartbeat hidle
  | requestShutdown => exact safe_requestShutdown hidle

theorem sound (hinj : m.Collisionless env) : (discipline env m).Sound where
  refl := fun _ w => Keep.refl w
  trans := fun _ _ _ _ h h' => h.trans h'
  others := fun hg hi _ hu => hg.keep hinj hi hu
  step := fun hg hi => hg.inv hi hinj
  idle := fun hk h => stable_idle _ _ hk h
  last := fun hl hi => ⟨hl.inv hinj hi, hl.idle hi, fun _ hu => hl.keep hinj hi hu⟩
  start := fun op _ hidle => safe_start op hidle
  init := by
    refine ⟨Inv.init, fun t => ⟨?_, ?_, ?_⟩⟩
    · exact fun X h => absurd h List.not_mem_nil
    · exact fun k h => absurd h List.not_mem_nil
    · exact fun h => by cases h
  opening := by
    intro s s' config bootId now hi hmay hidle h
    refine ⟨hi.restarted ?_ h, Idle.restarted h, safe_recover (Idle.restarted h _)⟩
    intro hm X t hX
    exact (hidle t (hmay hm t)).own X hX

theorem Reach.holds (hinj : m.Collisionless env) (h : Reach env (m.mode env) s) :
    (discipline env m).Holds s :=
  Discipline.holds (sound hinj) (admits env m) h

theorem Reach.inv (hinj : m.Collisionless env) (h : Reach env (m.mode env) s) :
    Inv env m s.serving s.shared := (h.holds hinj).inv

theorem Reach.moved (hinj : m.Collisionless env) (h : Reach env (m.mode env) s)
    (hm : m.mode env s l) (hn : s.next env l = some s') : (discipline env m).Moved s s' l :=
  Discipline.moved (sound hinj) (admits env m) h hm hn

/-! ## how object rows change -/

/-- a step leaves the object rows alone, or writes one of them for one of the reasons there are -/
theorem Guar.objects {b : Bool} {t : Tid} {op : Op} {w w' : Traced} (h : Guar env m b t op w w') :
    w'.store.objects = w.store.objects ∨
      ∃ X o T, w'.store.data = { w.store.data with objects := T } ∧
        (∀ Y, rowOf w' Y = if Y = X then some o else rowOf w Y) ∧ RowJust m t op w X o := by
  cases h with
  | quiet h => exact .inl h.objects
  | acquire _ _ _ hs => exact .inl (by rw [hs])
  | acquireKeys _ _ _ _ hs => exact .inl (by rw [hs])
  | dropKeys _ _ hs => exact .inl (by rw [hs])
  | acquireRecovery _ _ _ _ hs => exact .inl (by rw [hs])
  | @row X o T _ hd hfind _ _ hj =>
    refine .inr ⟨X, o, T, hd, fun Y => ?_, hj⟩
    rw [rowOf, show w'.store.objects = T from congrArg Data.objects hd]
    exact hfind Y
  | replica _ hd => exact .inl (congrArg Data.objects hd)
  | archive _ hd => exact .inl (congrArg Data.objects hd)
  | dedup _ hd => exact .inl (congrArg Data.objects hd)
  | lineage _ hd => exact .inl (congrArg Data.objects hd)
  | reserve _ hd => exact .inl (congrArg Data.objects hd)
  | journal _ hd => exact .inl (congrArg Data.objects hd)
  | attempt _ hd => exact .inl (congrArg Data.objects hd)
  | reservations _ hd => exact .inl (congrArg Data.objects hd)
  | payload _ _ hs => exact .inl (by rw [hs])
  | blob _ _ _ hs => exact .inl (by rw [hs])

theorem Guar.row_cases {b : Bool} {t : Tid} {op : Op} {w w' : Traced}
    (h : Guar env m b t op w w') (X : Uuid) : rowOf w' X = rowOf w X ∨
      ∃ o, rowOf w' X = some o ∧ RowJust m t op w X o := by
  rcases h.objects with hobj | ⟨Y, o, T, _, hrow, hj⟩
  · exact .inl (by rw [rowOf, rowOf, hobj])
  · by_cases hX : X = Y
    · subst hX
      exact .inr ⟨o, by rw [hrow, if_pos rfl], hj⟩
    · exact .inl (by rw [hrow, if_neg hX])

theorem Last.row_cases {b : Bool} {t : Tid} {op : Op} {r : Res op.Out} {w w' : Traced}
    (h : Last env m b t op r w w') (X : Uuid) : rowOf w' X = rowOf w X ∨
      ∃ o, rowOf w' X = some o ∧ RowJust m t op w X o := by
  cases h with
  | plain hg _ _ _ => exact hg.row_cases X
  | release _ _ _ _ _ hs => exact .inl (by rw [rowOf, rowOf, hs])
  | recovered _ _ hs => exact .inl (by rw [rowOf, rowOf, hs])

/-- **How the row of an object changes with one label of a run.** -/
theorem Reach.row (hinj : m.Collisionless env) (h : Reach env (m.mode env) s)
    (hm : m.mode env s l) (hn : s.next env l = some s') (X : Uuid) :
    rowOf s'.shared X = rowOf s.shared X ∨
      ∃ t i th o, l = .step t i ∧ s.threads t = some th ∧ rowOf s'.shared X = some o ∧
        RowJust m t th.op s.shared X o := by
  have hsame (hs : s'.shared.store.data = s.shared.store.data) :
      rowOf s'.shared X = rowOf s.shared X := by
    show s'.shared.store.data.objects.find? X = _
    rw [hs]
    rfl
  cases h.moved hinj hm hn with
  | started hs => exact .inl (by rw [hs])
  | refused r hl hs => exact .inl (hsame (by rw [hs]; rfl))
  | stepped hth hg =>
    exact (hg.row_cases X).imp id fun ⟨o, ho, hj⟩ => ⟨_, _, _, o, rfl, hth, ho, hj⟩
  | @finished t _ th r w hth hl hs =>
    rw [hs]
    exact (hl.row_cases X).imp id fun ⟨o, ho, hj⟩ => ⟨_, _, _, o, rfl, hth, ho, hj⟩
  | restarted hr => exact .inl (hsame (Sys.restart_eq hr).1)

end ReclaimFabric
