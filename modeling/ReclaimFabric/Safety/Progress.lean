import ReclaimFabric.Safety.Modes
import ReclaimFabric.Safety.Guards
import ReclaimFabric.Lib.Pool

/-!
# Operations complete

A thread waits only for the coordinator mutex, never while it holds it, and what an operation still
has to do is a finite tree.

* `exec_enabled`         only the commands that need the mutex free can be held up;
* `steps_or_waits`       a thread steps, or waits for a holder of the mutex that can step;
* `operations_complete`  without new operations every schedule ends, and it ends in a quiet moment.
-/

set_option linter.unusedSectionVars false

namespace ReclaimFabric

section
variable {env : Env} {mode : Mode} {s s' : Sys} {t u : Tid} {th th' : Thread} {c : Cmd}
  {w : World} {x : Uuid}

/-! ## what can be held up -/

/-- the commands that need the mutex free -/
def Cmd.waits : Cmd → Bool
  | .lock | .removeActiveObject _ | .pollPayloads _ | .removeActivePayloads _
  | .removeActiveRecovery => true
  | _ => false

theorem exec_enabled (hx : x ∉ w.issued) (hm : c.waits = true → w.proc.mutex = none) :
    ∃ i r w', exec env t c i w = some (r, w') := by
  have hfree (h : c.waits = true) : w.proc.mutex.isNone = true := by
    rw [hm h]
    rfl
  cases c with
  | lock => exact ⟨{}, _, _, if_pos (hfree rfl)⟩
  | removeActiveObject X => exact ⟨{}, _, _, if_pos (hfree rfl)⟩
  | pollPayloads ks => exact ⟨{}, _, _, if_pos (hfree rfl)⟩
  | removeActivePayloads ks => exact ⟨{}, _, _, if_pos (hfree rfl)⟩
  | removeActiveRecovery => exact ⟨{}, _, _, if_pos (hfree rfl)⟩
  | newUuid => exact ⟨{ uuid := x }, _, _, if_neg hx⟩
  | hashOrder n =>
    exact ⟨{ order := List.range n }, _, _, if_pos (List.isPerm_iff.mpr (List.Perm.refl _))⟩
  | _ => exact ⟨{}, _, _, rfl⟩

/-- who holds the mutex issues none of them -/
theorem Grip.not_waits {g : Grip} (hm : g.mutex = true) (ha : g.allows c = true) :
    c.waits = false := by
  cases c with
  | lock => simp [allows, hm] at ha
  | removeActiveObject X => simp [allows, hm] at ha
  | pollPayloads ks => simp [allows, hm] at ha
  | removeActivePayloads ks => simp [allows, hm] at ha
  | removeActiveRecovery => simp [allows, hm] at ha
  | _ => rfl

theorem Reach.any (h : Reach env mode s) : Reach env anyRun s := h.mono fun _ _ _ => trivial

theorem Reach.running (h : Reach env mode s) (ht : s.threads t = some th) :
    ∃ c k, th.rest = .call c k := by
  have hrun := ((h.any.free.holds Regime.free_collisionless).live t th ht).running
  cases hp : th.rest with
  | ret r =>
    rw [hp] at hrun
    cases hrun
  | call c k => exact ⟨c, k, rfl⟩

theorem next_of_exec {k : c.Reply → Prog Cmd Cmd.Reply (Res th.op.Out)}
    (ht : s.threads t = some th) (hk : th.rest = .call c k)
    (he : ∃ i r w', exec env t c i s.shared.toWorld = some (r, w')) :
    ∃ i s', s.next env (.step t i) = some s' := by
  obtain ⟨i, r, w', he⟩ := he
  have hexec : s.shared.exec env t th.op c i =
      some (r, ⟨w', .call t th.op c r s.shared.toWorld :: s.shared.log⟩) := by
    rw [Traced.exec, he]
    rfl
  refine ⟨i, { s with shared := ⟨w', .call t th.op c r s.shared.toWorld :: s.shared.log⟩ }.advance t
    ⟨th.op, k r⟩, ?_⟩
  simp only [Sys.next, ht]
  rw [hk]
  simp only [hexec]

/-- the thread that holds the mutex can step -/
theorem Gripped.holder_steps {grip : Tid → Grip} (hg : Gripped s grip) (h : Reach env mode s)
    (hx : x ∉ s.shared.issued) (hm : s.shared.proc.mutex = some u) :
    ∃ i s', s.next env (.step u i) = some s' := by
  have hmutex := (hg.recorded.entry u).mutex.mpr hm
  have hgo := hg.going u
  cases hu : s.threads u with
  | none =>
    rw [hu] at hgo
    obtain ⟨role, he⟩ := hgo
    rw [he] at hmutex
    cases hmutex
  | some th =>
    obtain ⟨c, k, hk⟩ := h.running hu
    rw [hu] at hgo
    obtain ⟨-, hrest⟩ := hgo
    rw [hk] at hrest
    have hno := Grip.not_waits hmutex (guard_step hrest).1
    refine next_of_exec hu hk (exec_enabled hx fun hw => ?_)
    rw [hno] at hw
    cases hw

/-- **A thread steps, or waits for a holder of the mutex that can step.** -/
theorem steps_or_waits (h : Reach env mode s) (hx : x ∉ s.shared.issued)
    (ht : s.threads t = some th) :
    (∃ i s', s.next env (.step t i) = some s') ∨
      ∃ u, s.shared.proc.mutex = some u ∧ u ≠ t ∧ ∃ i s', s.next env (.step u i) = some s' := by
  obtain ⟨grip, hg⟩ := h.gripped
  cases hm : s.shared.proc.mutex with
  | none =>
    obtain ⟨c, k, hk⟩ := h.running ht
    exact .inl (next_of_exec ht hk (exec_enabled hx fun _ => hm))
  | some u =>
    have hstep := hg.holder_steps h hx hm
    by_cases hu : u = t
    · subst hu
      exact .inl hstep
    · exact .inr ⟨u, rfl, hu, hstep⟩

/-! ## what is left -/

/-- what may be left of a thread after its next command -/
inductive Thread.Below : Thread → Thread → Prop where
  | step {th : Thread} {q : Prog Cmd Cmd.Reply (Res th.op.Out)} : Prog.Below q th.rest →
      Below ⟨th.op, q⟩ th

theorem Thread.wellFounded_below : WellFounded Thread.Below := by
  constructor
  rintro ⟨op, p⟩
  induction p using Prog.wellFounded_below.induction with
  | _ p ih =>
    refine ⟨_, fun th hth => ?_⟩
    cases hth with
    | step hq => exact ih _ hq

/-- a thread makes a step -/
def StepsTo (env : Env) (s s' : Sys) : Prop := ∃ t i, s.next env (.step t i) = some s'

theorem StepsTo.shrinks (h : StepsTo env s s') :
    Pool.Shrinks Thread.Below s'.threads s.threads := by
  obtain ⟨t, i, hn⟩ := h
  have hothers := fun u hu => Sys.step_threads (u := u) hn hu
  simp only [Sys.next] at hn
  split at hn
  · cases hn
  · next th hth =>
    split at hn
    · cases hn
    · next c k hk =>
      split at hn
      · cases hn
      · next r shared he =>
        cases hn
        have hbelow : Prog.Below (k r) th.rest := by
          rw [hk]
          exact .call c k r
        refine ⟨t, th, hth, fun th' hth' => ?_, hothers⟩
        unfold Sys.advance at hth'
        split at hth'
        · simp [Sys.finish] at hth'
        · next c' k' hk' =>
          simp only [Sys.setThread, if_true] at hth'
          cases hth'
          exact .step hbelow

/-- finitely many operations are under way -/
theorem Reach.finite (h : Reach env mode s) : ∃ F : Finset Tid, ∀ t, s.threads t ≠ none → t ∈ F := by
  induction h with
  | init => exact ⟨∅, fun t ht => absurd rfl ht⟩
  | @next s s' l _ _ hn ih =>
    obtain ⟨F, hF⟩ := ih
    have hinsert (t : Tid) (hrest : ∀ u, u ≠ t → s'.threads u = s.threads u) :
        ∀ u, s'.threads u ≠ none → u ∈ insert t F := by
      intro u hu
      by_cases hut : u = t
      · exact Finset.mem_insert.mpr (.inl hut)
      · exact Finset.mem_insert.mpr (.inr (hF u (by rwa [← hrest u hut])))
    cases l with
    | start t op => exact ⟨_, hinsert t fun u hu => Sys.start_threads hn hu⟩
    | step t i => exact ⟨_, hinsert t fun u hu => Sys.step_threads hn hu⟩
    | restart config bootId now =>
      refine ⟨{openingTid}, fun t ht => ?_⟩
      have hn : s.restart env config bootId now = some s' := hn
      unfold Sys.restart at hn
      split at hn
      · cases hn
      · split at hn
        · cases hn
        · cases hn
          by_contra hne
          exact ht (if_neg fun he => hne (Finset.mem_singleton.mpr he))

theorem Reach.steps (h : Reach env mode s) (hs : Relation.ReflTransGen (StepsTo env) s s') :
    Reach env anyRun s' := by
  induction hs with
  | refl => exact h.any
  | tail _ hstep ih =>
    obtain ⟨t, i, hn⟩ := hstep
    exact ih.next _ trivial hn

/-- **Without new operations every schedule ends, where no thread can step any more nothing is
under way, and a thread that cannot step waits for the mutex, whose holder can**, unless there is
no identifier left to draw. -/
theorem operations_complete (h : Reach env mode s) :
    Acc (fun b a => StepsTo env a b) s ∧
      (∀ s', Relation.ReflTransGen (StepsTo env) s s' → (∀ s'', ¬StepsTo env s' s'') →
        s'.Quiescent ∨ ∀ x, x ∈ s'.shared.issued) ∧
      ∀ s', Relation.ReflTransGen (StepsTo env) s s' → ∀ t, s'.threads t ≠ none →
        (∃ i s'', s'.next env (.step t i) = some s'') ∨
        (∃ u, s'.shared.proc.mutex = some u ∧ u ≠ t ∧
          ∃ i s'', s'.next env (.step u i) = some s'') ∨
        ∀ x, x ∈ s'.shared.issued := by
  refine ⟨?_, ?_, ?_⟩
  · obtain ⟨F, hF⟩ := h.finite
    have hacc := Pool.acc (f := s.threads) Thread.wellFounded_below hF
    refine Subrelation.accessible (r := InvImage (Pool.Shrinks Thread.Below) Sys.threads) ?_
      (InvImage.accessible _ hacc)
    exact fun hs => hs.shrinks
  · intro s' hs hstuck
    have hr := h.steps hs
    by_contra hno
    rw [not_or] at hno
    obtain ⟨hq, hissued⟩ := hno
    obtain ⟨x, hx⟩ := not_forall.mp hissued
    obtain ⟨t, ht⟩ := not_forall.mp hq
    obtain ⟨th, hth⟩ := Option.ne_none_iff_exists'.mp ht
    rcases steps_or_waits hr hx hth with ⟨i, s'', hn⟩ | ⟨u, -, -, i, s'', hn⟩
    · exact hstuck s'' ⟨t, i, hn⟩
    · exact hstuck s'' ⟨u, i, hn⟩
  · intro s' hs t ht
    obtain ⟨th, hth⟩ := Option.ne_none_iff_exists'.mp ht
    by_cases hissued : ∀ x, x ∈ s'.shared.issued
    · exact .inr (.inr hissued)
    · obtain ⟨x, hx⟩ := not_forall.mp hissued
      rcases steps_or_waits (h.steps hs) hx hth with hstep | hwaits
      · exact .inl hstep
      · exact .inr (.inl hwaits)

end

/-- there is an identifier left to draw -/
theorem Sample.contended_fresh :
    (Sample.contended.map fun s => decide (Sample.uuid 99 ∈ s.shared.issued)) = some false := by
  decide +kernel

/-- two threads with guards: every schedule ends, with all done, and the second thread steps or
waits for one that does -/
theorem operations_complete_contended : ∃ s, s.shared.proc.activeObjects.map Prod.snd = [2, 1] ∧
    (∃ s', Relation.ReflTransGen (StepsTo Sample.env) s s' ∧ (∀ s'', ¬StepsTo Sample.env s' s'') ∧
      (s'.Quiescent ∨ ∀ x, x ∈ s'.shared.issued)) ∧
    ∃ u i s'', (u = 2 ∨ s.shared.proc.mutex = some u) ∧
      s.next Sample.env (.step u i) = some s'' := by
  obtain ⟨s, hs, h⟩ := Option.map_eq_some_iff.mp Sample.contended_state
  simp only [Prod.mk.injEq] at h
  obtain ⟨hacc, hend, hgo⟩ := operations_complete (Sample.reached_contended s hs)
  obtain ⟨s', hto, hstuck⟩ := Pool.exists_end hacc
  refine ⟨s, h.1, ⟨s', hto, hstuck, hend s' hto hstuck⟩, ?_⟩
  have hthread : s.threads 2 ≠ none := by
    intro hnone
    have hasking := h.2.2
    rw [Sample.asking, hnone] at hasking
    cases hasking
  have hfresh := Sample.contended_fresh
  rw [hs] at hfresh
  rcases hgo s .refl 2 hthread with ⟨i, s'', hn⟩ | ⟨u, hu, -, i, s'', hn⟩ | hall
  · exact ⟨2, i, s'', .inl rfl, hn⟩
  · exact ⟨u, i, s'', .inr hu, hn⟩
  · exact absurd (hall (Sample.uuid 99)) (of_decide_eq_false (Option.some.inj hfresh))

end ReclaimFabric
