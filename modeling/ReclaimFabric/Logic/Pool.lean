import ReclaimFabric.Logic.Core

/-!
# Threads under a common discipline

A `Discipline` fixes one invariant, one rely for every thread, one guarantee for every step and a
description of the last step of an operation.  When every operation keeps to it (`start`,
`opening`), all reachable states satisfy the invariant and every step of a run is described by the
guarantee of the thread that makes it.

* `Discipline.holds`     reachable states satisfy the invariant, and the threads under way are safe;
* `Discipline.moved`     what one label of a run does to the shared state.
-/

set_option linter.unusedSectionVars false

namespace ReclaimFabric

/-- the shared state in which an operation has returned -/
def Traced.returned (w : Traced) (t : Tid) (op : Op) (r : Res op.Out) : Traced :=
  { w with log := .returned t op r :: w.log }

structure Discipline (env : Env) where
  allow : Op → Cmd → Input → Traced → Prop
  /-- the Boolean says whether the coordinator serves requests -/
  inv : Bool → Traced → Prop
  rely : Tid → Traced → Traced → Prop
  guar : Bool → Tid → Op → Traced → Traced → Prop
  /-- the last step of an operation, with its result -/
  last : Bool → (t : Tid) → (op : Op) → Res op.Out → Traced → Traced → Prop
  /-- the thread holds nothing -/
  idle : Tid → Traced → Prop
  /-- the process may stop here -/
  mayRestart : Sys → Prop
  quiet : ∀ {b t op w w'}, Quiet w w' → guar b t op w w'
  lost : ∀ t w w', rely t w w' → w.proc.authorityLost = true → w'.proc.authorityLost = true
  config : ∀ t w w', rely t w w' → w'.proc.config = w.proc.config

namespace Discipline

variable {env : Env} (D : Discipline env)

/-- a thread of the pool as a party -/
def party (b : Bool) (t : Tid) (op : Op) : Party env where
  tid := t
  op := op
  allow := D.allow op
  inv := D.inv b
  rely := D.rely t
  guar := D.guar b t op
  total := false
  quiet := D.quiet
  lost := D.lost t
  config := D.config t
  mutex := fun h => by cases h
  fresh := fun h => by cases h
  order := fun h => by cases h

/-- the thread may run the program to its end -/
def Safe (b : Bool) (t : Tid) (op : Op) (p : Prog Cmd Cmd.Reply (Res op.Out)) (w : Traced) :
    Prop :=
  wpF (D.party b t op).agent p (D.last b t op) w

/-- what the operations and the relations of a discipline have to satisfy -/
structure Sound : Prop where
  refl : ∀ t w, D.rely t w w
  trans : ∀ t a b c, D.rely t a b → D.rely t b c → D.rely t a c
  others : ∀ {b t op w w'}, D.guar b t op w w' → D.inv b w → ∀ u, u ≠ t → D.rely u w w'
  step : ∀ {b t op w w'}, D.guar b t op w w' → D.inv b w → D.inv b w'
  idle : ∀ {t w w'}, D.rely t w w' → D.idle t w → D.idle t w'
  last : ∀ {b t op r w w'}, D.last b t op r w w' → D.inv b w →
    D.inv (b || op.opened r) (w'.returned t op r) ∧ D.idle t (w'.returned t op r) ∧
      ∀ u, u ≠ t → D.rely u w (w'.returned t op r)
  start : ∀ {t w} (op : Op), D.inv true w → D.idle t w → D.Safe true t op (op.prog env) w
  init : D.inv false Sys.init.shared ∧ ∀ t, D.idle t Sys.init.shared
  opening : ∀ {s s' : Sys} {config bootId now}, D.inv s.serving s.shared → D.mayRestart s →
    (∀ t, s.threads t = none → D.idle t s.shared) →
    s.restart env config bootId now = some s' →
    D.inv false s'.shared ∧ (∀ t, D.idle t s'.shared) ∧
      D.Safe false openingTid .recover (Op.prog env .recover) s'.shared

/-- the mode lets a thread step only on inputs the discipline allows -/
structure Admits (mode : Mode) : Prop where
  step : ∀ s t i th c k, mode s (.step t i) → s.threads t = some th → th.rest = .call c k →
    D.allow th.op c i s.shared
  restart : ∀ s config bootId now, mode s (.restart config bootId now) → D.mayRestart s

/-- what a thread under way satisfies -/
structure Live (s : Sys) (t : Tid) (th : Thread) : Prop where
  running : th.rest.isRet = false
  safe : D.Safe s.serving t th.op th.rest s.shared

structure Holds (s : Sys) : Prop where
  inv : D.inv s.serving s.shared
  idle : ∀ t, s.threads t = none → D.idle t s.shared
  live : ∀ t th, s.threads t = some th → D.Live s t th
  alone : s.serving = false → ∀ t, t ≠ openingTid → s.threads t = none

/-- what one label does to the shared state -/
inductive Moved (s s' : Sys) : Label → Prop where
  | started {t op} : s'.shared = s.shared → Moved s s' (.start t op)
  | refused {t op} (r : Res op.Out) : D.last s.serving t op r s.shared s.shared →
      s'.shared = s.shared.returned t op r → Moved s s' (.start t op)
  | stepped {t i th} : s.threads t = some th → D.guar s.serving t th.op s.shared s'.shared →
      Moved s s' (.step t i)
  | finished {t i th r w} : s.threads t = some th → D.last s.serving t th.op r s.shared w →
      s'.shared = w.returned t th.op r → Moved s s' (.step t i)
  | restarted {config bootId now} : s.restart env config bootId now = some s' →
      Moved s s' (.restart config bootId now)

section
variable {D} (hD : D.Sound)
include hD

theorem Live.interfere {s s' : Sys} {t : Tid} {th : Thread} (h : D.Live s t th)
    (hr : D.rely t s.shared s'.shared) (hs : s'.serving = s.serving) : D.Live s' t th := by
  obtain ⟨hrun, hsafe⟩ := h
  refine ⟨hrun, ?_⟩
  cases hp : th.rest with
  | ret r =>
    rw [hp] at hrun
    cases hrun
  | call c k =>
    rw [hp] at hsafe
    rw [hs]
    exact wpF_interfere (hD.trans t) hsafe hr

/-- a thread goes on, and the others are told only what their rely allows -/
theorem Holds.advance {s : Sys} (s₁ : Sys) {t : Tid} {th : Thread} (h : D.Holds s)
    (hthreads : s₁.threads = s.threads) (hserving : s₁.serving = s.serving)
    (halone : s.serving = false → t = openingTid)
    (hlast : ∀ r, th.rest = .ret r → D.last s.serving t th.op r s.shared s₁.shared)
    (hgo : th.rest.isRet = false → D.inv s.serving s₁.shared ∧
      (∀ u, u ≠ t → D.rely u s.shared s₁.shared) ∧
      D.Safe s.serving t th.op th.rest s₁.shared) :
    D.Holds (s₁.advance t th) := by
  cases hp : th.rest with
  | ret r =>
    obtain ⟨hinv, hidle, hrely⟩ := hD.last (hlast r hp) h.inv
    have hadv : s₁.advance t th = s₁.finish t th.op r := by
      unfold Sys.advance
      rw [hp]
    rw [hadv]
    have hnone : ∀ u, u ≠ t → (s₁.finish t th.op r).threads u = s.threads u := by
      intro u hu
      show (if u = t then none else s₁.threads u) = _
      rw [if_neg hu, hthreads]
    have hself : (s₁.finish t th.op r).threads t = none := if_pos rfl
    refine ⟨?_, ?_, ?_, ?_⟩
    · show D.inv (s₁.serving || th.op.opened r) _
      rw [hserving]
      exact hinv
    · intro u hu
      by_cases hut : u = t
      · subst hut
        exact hidle
      · rw [hnone u hut] at hu
        exact hD.idle (hrely u hut) (h.idle u hu)
    · intro u thu hu
      by_cases hut : u = t
      · subst hut
        rw [hself] at hu
        cases hu
      · rw [hnone u hut] at hu
        have hserve : s.serving = true := by
          cases hs : s.serving with
          | true => rfl
          | false =>
            have := h.alone hs u (fun he => hut (he.trans (halone hs).symm))
            rw [this] at hu
            cases hu
        refine Live.interfere hD (h.live u thu hu) (hrely u hut) ?_
        show (s₁.serving || th.op.opened r) = s.serving
        rw [hserving, hserve, Bool.true_or]
    · intro hs u hu
      have hs' : s.serving = false := by
        have : (s₁.serving || th.op.opened r) = false := hs
        rw [Bool.or_eq_false_iff, hserving] at this
        exact this.1
      by_cases hut : u = t
      · subst hut
        exact hself
      · rw [hnone u hut]
        exact h.alone hs' u hu
  | call c k =>
    obtain ⟨hinv, hrely, hsafe⟩ := hgo (by rw [hp]; rfl)
    have hadv : s₁.advance t th = s₁.setThread t (some th) := by
      unfold Sys.advance
      rw [hp]
    rw [hadv]
    have hnone : ∀ u, u ≠ t → (s₁.setThread t (some th)).threads u = s.threads u := by
      intro u hu
      show (if u = t then some th else s₁.threads u) = _
      rw [if_neg hu, hthreads]
    have hself : (s₁.setThread t (some th)).threads t = some th := if_pos rfl
    refine ⟨?_, ?_, ?_, ?_⟩
    · show D.inv s₁.serving _
      rw [hserving]
      exact hinv
    · intro u hu
      by_cases hut : u = t
      · subst hut
        rw [hself] at hu
        cases hu
      · rw [hnone u hut] at hu
        exact hD.idle (hrely u hut) (h.idle u hu)
    · intro u thu hu
      by_cases hut : u = t
      · subst hut
        rw [hself] at hu
        cases hu
        refine ⟨by rw [hp]; rfl, ?_⟩
        show D.Safe s₁.serving u th.op th.rest s₁.shared
        rw [hserving]
        exact hsafe
      · rw [hnone u hut] at hu
        exact Live.interfere hD (h.live u thu hu) (hrely u hut) hserving
    · intro hs u hu
      have hs' : s.serving = false := hserving ▸ hs
      by_cases hut : u = t
      · subst hut
        exact absurd (halone hs') hu
      · rw [hnone u hut]
        exact h.alone hs' u hu

/-- one label: the discipline still holds, and the step is described -/
theorem Holds.next {mode : Mode} (ha : D.Admits mode) {s s' : Sys} {l : Label} (h : D.Holds s)
    (hm : mode s l) (hn : s.next env l = some s') : D.Holds s' ∧ D.Moved s s' l := by
  cases l with
  | start t op =>
    simp only [Sys.next] at hn
    split at hn
    · next hserve hnone =>
      cases hn
      have hinv : D.inv true s.shared := hserve ▸ h.inv
      have hsafe := hD.start op hinv (h.idle t hnone)
      constructor
      · refine h.advance hD s rfl rfl (fun hs => by rw [hserve] at hs; cases hs) ?_ ?_
        · intro r hr
          have hr : op.prog env = .ret r := hr
          rw [hr] at hsafe
          rw [hserve]
          exact hsafe
        · intro _
          rw [hserve]
          exact ⟨hinv, fun u _ => hD.refl u _, hsafe⟩
      · cases hp : op.prog env with
        | ret r =>
          rw [hp] at hsafe
          refine .refused r ?_ rfl
          rw [hserve]
          exact hsafe
        | call c k => exact .started rfl
    · cases hn
  | step t i =>
    simp only [Sys.next] at hn
    split at hn
    · cases hn
    · next th hth =>
      split at hn
      · cases hn
      · next c k hp =>
        split at hn
        · cases hn
        · next r shared he =>
          cases hn
          have hlive := h.live t th hth
          have hsafe : wpF (D.party s.serving t th.op).agent (.call c k) _ s.shared :=
            hp ▸ hlive.safe
          have hstep := wpF_step (hD.refl t) hsafe h.inv (ha.step s t i th c k hm hth hp) he
          have halone : s.serving = false → t = openingTid := by
            intro hs
            by_contra hne
            rw [h.alone hs t hne] at hth
            cases hth
          constructor
          · refine h.advance hD { s with shared := shared } rfl rfl halone ?_ ?_
            · exact fun r' hr => hstep.1 r' hr
            · intro hret
              obtain ⟨hg, hs⟩ := hstep.2 hret
              exact ⟨hD.step hg h.inv, hD.others hg h.inv, hs⟩
          · cases hk : k r with
            | ret a =>
              exact .finished (i := i) hth (hstep.1 a hk) rfl
            | call c' k' =>
              have hg := (hstep.2 (by rw [hk]; rfl)).1
              exact .stepped hth hg
  | restart config bootId now =>
    have hn : s.restart env config bootId now = some s' := hn
    refine ⟨?_, .restarted hn⟩
    obtain ⟨hinv, hidle, hsafe⟩ := hD.opening h.inv (ha.restart s config bootId now hm) h.idle hn
    have hshape : s'.serving = false ∧ s'.threads = fun u =>
        if u = openingTid then some ⟨.recover, Op.prog env .recover⟩ else none := by
      unfold Sys.restart at hn
      split at hn
      · cases hn
      · split at hn
        · cases hn
        · cases hn
          exact ⟨rfl, rfl⟩
    obtain ⟨hserve, hthreads⟩ := hshape
    refine ⟨?_, fun t _ => hidle t, ?_, ?_⟩
    · rw [hserve]
      exact hinv
    · intro t th hth
      rw [hthreads] at hth
      have hth : (if t = openingTid then
          some (⟨.recover, Op.prog env .recover⟩ : Thread) else none) = some th := hth
      split at hth
      · next ht =>
        cases hth
        subst ht
        refine ⟨rfl, ?_⟩
        rw [hserve]
        exact hsafe
      · cases hth
    · intro _ t ht
      rw [hthreads]
      exact if_neg ht

theorem holds {mode : Mode} (ha : D.Admits mode) {s : Sys} (h : Reach env mode s) : D.Holds s := by
  induction h with
  | init =>
    exact ⟨hD.init.1, fun t _ => hD.init.2 t, fun _ _ h => (by cases h), fun _ _ _ => rfl⟩
  | next l _ hm hn ih => exact (ih.next hD ha hm hn).1

theorem moved {mode : Mode} (ha : D.Admits mode) {s s' : Sys} {l : Label}
    (h : Reach env mode s) (hm : mode s l) (hn : s.next env l = some s') : D.Moved s s' l :=
  ((holds hD ha h).next hD ha hm hn).2

end

end Discipline

end ReclaimFabric
