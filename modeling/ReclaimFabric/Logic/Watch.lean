import ReclaimFabric.Lib.Watch
import ReclaimFabric.Logic.Alone
import ReclaimFabric.Logic.Pool

/-!
# From a step of an operation to its return

What an operation leaves behind when it returns can depend on a step it has made.  `Party.Watched`
says of a part of a program what its rest comes to from that step on, with the state right after
the step at hand; `Discipline.Heedful` says it of the operations, and `Discipline.ended` draws the
conclusion for a thread of a run that returns.

* `Event.Ends`, `Since`   a step in the record since which the thread has not returned;
* `Party.Watched`         the rules, one for each way programs are put together;
* `Discipline.begun`      the rest of an operation that has made the step;
* `Discipline.ended`      the return of an operation that has made the step.
-/

set_option linter.unusedSectionVars false

namespace ReclaimFabric

/-! ## the record -/

/-- thread `t` is not inside an operation any more -/
def Event.Ends (t : Tid) : Event → Prop
  | .returned u _ _ => u = t
  | .restarted => True
  | .call _ _ _ _ _ => False

/-- thread `t` has made this step inside `op`, after the record `l`, and has not returned since -/
def Since (t : Tid) (op : Op) (c : Cmd) (r : c.Reply) (before : World) (l log : List Event) : Prop :=
  ∃ l₁, log = l₁ ++ .call t op c r before :: l ∧ ∀ e ∈ l₁, ¬e.Ends t

theorem since_cons {t : Tid} {op : Op} {c : Cmd} {r : c.Reply} {before : World}
    {l log : List Event} {e : Event} (h : Since t op c r before l (e :: log)) :
    (e = .call t op c r before ∧ log = l) ∨ (¬e.Ends t ∧ Since t op c r before l log) := by
  obtain ⟨l₁, hl, hno⟩ := h
  cases l₁ with
  | nil =>
    obtain ⟨he, hlog⟩ := List.cons.inj hl
    exact .inl ⟨he, hlog⟩
  | cons e' l₁ =>
    obtain ⟨rfl, hlog⟩ := List.cons.inj hl
    exact .inr ⟨hno _ List.mem_cons_self, l₁, hlog, fun x hx => hno x (List.mem_cons_of_mem _ hx)⟩

/-! ## parts of programs -/

namespace Party

variable {env : Env} (A : Party env)

/-- from a step of `S` on, `x` ends in `Q` or in `E`; both may refer to the state after the step -/
def Watched {α : Type} (S : (c : Cmd) → c.Reply → Traced → Prop) (P : Traced → Prop) (x : M α)
    (Q : Traced → α → Traced → Prop) (E : Traced → ReclaimError → Traced → Prop) : Prop :=
  ∀ w, P w → watched A.agent S (fun q o => wp A.agent q (outcome (Q o) (E o)) o) x.run w

variable {A}

theorem mutex_untracked (ht : A.total = false) {l : Bool} {w : Traced} : A.Mutex l w := by
  intro h
  rw [ht] at h
  cases h

theorem Triple.run {α : Type} {l : Bool} {P : Traced → Prop} {x : M α} {Q : α → Traced → Prop}
    {E : ReclaimError → Traced → Prop} (ht : A.total = false) (h : A.Triple l P x Q E) {w : Traced}
    (hw : P w) : wp A.agent x.run (outcome Q E) w := by
  refine wp_mono (h w hw (mutex_untracked ht)) ?_
  intro r w' hr
  cases r with
  | ok a => exact hr.1
  | error e => exact hr.1

/-- what a triple of one command says of a step that is made -/
theorem Triple.step {α : Type} {l : Bool} {P : Traced → Prop} {Q : α → Traced → Prop}
    {E : ReclaimError → Traced → Prop} {c : Cmd} {k : c.Reply → Res α} {w : Traced} {i : Input}
    {r : c.Reply} {x : World} (ht : A.total = false) (hrefl : ∀ w, A.rely w w)
    (h : A.Triple l P (ExceptT.mk (.call c fun r => .ret (k r)) : M α) Q E) (hw : P w)
    (hi : A.inv w) (ha : A.allow c i w) (hx : exec env A.tid c i w.toWorld = some (r, x)) :
    outcome Q E (k r) (A.after c r w x) := by
  have hstep := h.run ht hw w (hrefl w) hi i ha
  have hexec : A.agent.exec c i w = some (r, A.after c r w x) := by
    show Option.map _ _ = _
    rw [hx]
    rfl
  rw [hexec] at hstep
  exact hstep.2

namespace Watched

variable {α β : Type} {S : (c : Cmd) → c.Reply → Traced → Prop} {P : Traced → Prop}
  {Q : Traced → α → Traced → Prop} {E : Traced → ReclaimError → Traced → Prop}

/-- no command of the program is a step of `S` -/
theorem only {x : M α} (h : Prog.Only (Unwatched S) x.run) : A.Watched S P x Q E :=
  fun _ _ => watched_only h

theorem pre {P' : Traced → Prop} {x : M α} (h : A.Watched S P' x Q E) (hP : ∀ w, P w → P' w) :
    A.Watched S P x Q E := fun w hw => h w (hP w hw)

theorem weaken {x : M α} {G : Traced → α → Traced → Prop} {H : Traced → ReclaimError → Traced → Prop}
    (h : A.Watched S P x G H) (hQ : ∀ o a w, G o a w → Q o a w)
    (hE : ∀ o e w, H o e w → E o e w) : A.Watched S P x Q E := by
  refine fun w hw => watched_mono (h w hw) fun q o hq => wp_mono hq ?_
  intro r w' hr
  cases r with
  | ok a => exact hQ o a w' hr
  | error e => exact hE o e w' hr

theorem of_pure {φ : Prop} {x : M α} (h : φ → A.Watched S P x Q E) :
    A.Watched S (fun w => φ ∧ P w) x Q E := fun w hw => h hw.1 w hw.2

theorem ite {c : Prop} [Decidable c] {x y : M α} (ht : c → A.Watched S P x Q E)
    (he : ¬c → A.Watched S P y Q E) : A.Watched S P (if c then x else y) Q E := by
  by_cases h : c
  · rw [if_pos h]
    exact ht h
  · rw [if_neg h]
    exact he h

/-- `if c { return Err(e) }` and the rest -/
theorem refuse {c : Prop} [Decidable c] {e : ReclaimError} {f : Unit → M α}
    (he : ¬c → A.Watched S P (f ()) Q E) :
    A.Watched S P (if c then (MonadExcept.throw e : M Unit) >>= f else f ()) Q E :=
  ite (fun _ => only (only_throw (α := α) (e := e))) he

/-- one command, its reply read as `k` -/
theorem call {c : Cmd} {k : c.Reply → Res α} (hP : A.Firm P)
    (h : ∀ w i r x, P w → A.inv w → A.allow c i w → exec env A.tid c i w.toWorld = some (r, x) →
      S c r w → outcome (Q (A.after c r w x)) (E (A.after c r w x)) (k r) (A.after c r w x)) :
    A.Watched S P (ExceptT.mk (.call c fun r => .ret (k r)) : M α) Q E := by
  intro w hw w₁ hr hi i ha r w₂ he
  refine ⟨fun hS => ?_, trivial⟩
  obtain ⟨⟨r', x⟩, hx, hw₂⟩ := Option.map_eq_some_iff.mp he
  cases hw₂
  exact h w₁ i _ x (hP.rely w w₁ hr hi hw) hi ha hx hS

section
variable (ht : A.total = false)
include ht

/-- a part without a step of `S`, and the rest -/
theorem skip {l : Bool} {x : M β} {f : β → M α} {R : β → Traced → Prop}
    {H : ReclaimError → Traced → Prop} (hx : Prog.Only (Unwatched S) x.run)
    (h : A.Triple l P x R H) (hf : ∀ b, A.Watched S (R b) (f b) Q E) :
    A.Watched S P (x >>= f) Q E := by
  intro w hw
  refine watched_skip hx (h.run ht hw) ?_
  intro o w' ho
  cases o with
  | ok b => exact hf b w' ho
  | error e => exact watched_only (.ret _)

/-- a part that is followed by one without a step of `S` -/
theorem within {l : Bool} {x : M β} {f : β → M α} {G : Traced → β → Traced → Prop}
    {H : Traced → ReclaimError → Traced → Prop} (h : A.Watched S P x G H)
    (hnext : ∀ o b, A.Triple l (G o b) (f b) (Q o) (E o)) (herr : ∀ o e w, H o e w → E o e w)
    (hf : ∀ b, Prog.Only (Unwatched S) (f b).run) : A.Watched S P (x >>= f) Q E := by
  intro w hw
  refine watched_within (h w hw) ?_ ?_
  · intro q o hq
    rw [wp_bind]
    refine wp_mono hq ?_
    intro r w' hr
    cases r with
    | ok b => exact (hnext o b).run ht hr
    | error e => exact herr o e w' hr
  · intro r
    cases r with
    | ok b => exact hf b
    | error e => exact .ret _

/-- an attempted part that is followed by one without a step of `S` -/
theorem attempted {l : Bool} {x : M β} {f : Res β → M α} {G : Traced → β → Traced → Prop}
    {H : Traced → ReclaimError → Traced → Prop} (h : A.Watched S P x G H)
    (hok : ∀ o b, A.Triple l (G o b) (f (.ok b)) (Q o) (E o))
    (herr : ∀ o e, A.Triple l (H o e) (f (.error e)) (Q o) (E o))
    (hf : ∀ r, Prog.Only (Unwatched S) (f r).run) :
    A.Watched S P (Prog.attempt x >>= f) Q E := by
  refine within ht (l := l) (G := fun o r w => outcome (G o) (H o) r w)
    (H := fun _ _ _ => False) ?_ ?_ (fun _ _ _ h => h.elim) hf
  · intro w hw
    refine watched_within (h w hw) ?_ (fun _ => .ret _)
    intro q o hq
    rw [wp_bind]
    exact wp_mono hq fun r w' hr => hr
  · intro o r
    cases r with
    | ok b => exact hok o b
    | error e => exact herr o e

/-- the mutex is only waited for -/
theorem skip_lock {f : Unit → M α} (hS : Unwatched S .lock) (hP : A.Firm P)
    (hf : A.Watched S P (f ()) Q E) : A.Watched S P (Coordinator.ask .lock >>= f) Q E := by
  refine skip ht (l := false) (R := fun _ => P) (H := fun _ _ => False)
    (.call hS fun _ => .ret _) ?_ fun _ => hf
  intro w hw hm
  exact wpE_mono (Triple.wpE_lock hP hw hm) (fun _ w' h => ⟨h.1, mutex_untracked ht⟩)
    fun _ _ h => h.elim

/-- a section whose body makes the step -/
theorem withInner {f : M α} (hS : ∀ c, c.restful = true → Unwatched S c) (hP : A.Firm P)
    (hQ : ∀ o a, A.Firm (Q o a)) (hE : ∀ o e, A.Firm (E o e)) (hf : A.Watched S P f Q E) :
    A.Watched S P (Coordinator.withInner f) Q E := by
  have hask {c : Cmd} (hc : c.restful = true) : Prog.Only (Unwatched S) (Coordinator.ask c).run :=
    .call (hS c hc) fun _ => .ret _
  refine skip ht (l := false) (hask rfl) (Triple.ask (E := fun _ _ => False) rfl hP) fun lost => ?_
  refine refuse fun _ => skip_lock ht (hS _ rfl) hP ?_
  refine skip ht (l := true) (hask rfl) (Triple.ask (E := fun _ _ => False) rfl hP) fun p => ?_
  refine skip ht (l := true) (hask rfl) (Triple.nowMs (E := fun _ _ => False) hP) fun now => ?_
  refine skip ht (l := true) (only_attempt (.call (hS _ rfl) fun _ => .ret _))
    (Triple.attempt (Q := fun _ => P) (E := fun _ _ => False) (Triple.storeCalm rfl hP)) fun o => ?_
  cases o with
  | error e => exact only (only_bind (hask rfl) fun _ => only_bind (hask rfl) fun _ => only_throw)
  | ok _ =>
    have hrest {o : Traced} (r : Res α) (φ : Traced → Prop) (hφ : A.Firm φ)
        (hr : ∀ w, φ w → outcome (Q o) (E o) r w) :
        A.Triple true φ (Coordinator.ask .unlock >>= fun _ => Prog.settle r) (Q o) (E o) := by
      intro w hw hm
      rw [wpE_bind]
      refine wpE_mono (Triple.wpE_unlock hφ hw hm) ?_ fun _ _ h => h.elim
      intro _ w' h'
      rw [wpE_settle]
      have h' := hr w' h'.1
      cases r with
      | ok a => exact ⟨h', mutex_untracked ht⟩
      | error e => exact ⟨h', mutex_untracked ht⟩
    refine attempted ht (l := true) hf (fun o a => ?_) (fun o e => ?_) fun r => ?_
    · exact hrest (.ok a) _ (hQ o a) fun _ h => h
    · exact hrest (.error e) _ (hE o e) fun _ h => h
    · exact only_bind (hask rfl) fun _ => only_settle

/-- a body that makes the step under a payload guard, and the drop of the guard -/
theorem holding {keys : List (String × ContentHash)} {body : M α}
    {G : Traced → α → Traced → Prop} {H : Traced → ReclaimError → Traced → Prop}
    (hS : Unwatched S (.removeActivePayloads (Coordinator.sortKeys keys)))
    (hQ : ∀ o a, A.Firm (G o a)) (hE : ∀ o e, A.Firm (H o e)) (hbody : A.Watched S P body G H)
    (hdropQ : ∀ o a w, G o a w → A.inv w →
      A.guar w (Triple.dropped A (Coordinator.sortKeys keys) w) ∧
        Q o a (Triple.dropped A (Coordinator.sortKeys keys) w))
    (hdropE : ∀ o e w, H o e w → A.inv w →
      A.guar w (Triple.dropped A (Coordinator.sortKeys keys) w) ∧
        E o e (Triple.dropped A (Coordinator.sortKeys keys) w)) :
    A.Watched S P (Coordinator.holding keys body) Q E :=
  attempted ht (l := false) hbody (fun o a => Triple.dropSettled (hQ o a) (hdropQ o a))
    (fun o e => Triple.dropSettled (hE o e) (hdropE o e))
    fun _ => only_bind (.call hS fun _ => .ret _) fun _ => only_settle

end

end Watched

end Party

/-! ## operations of a run -/

namespace Discipline

variable {env : Env} (D : Discipline env)
  (S : Tid → Op → (c : Cmd) → c.Reply → Traced → Prop)
  (F : Tid → (op : Op) → Traced → Res op.Out → Traced → Traced → Prop)

/-- from a step of `S` on, the rest of the operation ends with a last step and a result in `F` -/
def Heeds (b : Bool) (t : Tid) (op : Op) (p : Prog Cmd Cmd.Reply (Res op.Out)) (w : Traced) : Prop :=
  watched (D.party b t op).agent (S t op)
    (fun q o => wpF (D.party b t op).agent q (F t op o) o) p w

structure Heedful : Prop where
  start : ∀ {t w} (op : Op), D.inv true w → D.idle t w → D.Heeds S F true t op (op.prog env) w
  opening : ∀ {w}, D.inv false w → D.idle openingTid w →
    D.Heeds S F false openingTid .recover (Op.prog env .recover) w

/-- what is left of an operation that has made a step of `S` -/
def Begun (s : Sys) (t : Tid) (op : Op) (c : Cmd) (r : c.Reply) (before : World)
    (l : List Event) : Prop :=
  ∃ rest o, s.threads t = some ⟨op, rest⟩ ∧ o.log = .call t op c r before :: l ∧
    wpF (D.party s.serving t op).agent rest (F t op o) s.shared

structure Heeded (s : Sys) : Prop where
  heeds : ∀ t th, s.threads t = some th → D.Heeds S F s.serving t th.op th.rest s.shared
  begun : ∀ t op c r before l, Since t op c r before l s.shared.log → S t op c r ⟨before, l⟩ →
    D.Begun F s t op c r before l

variable {D S F}

/-- the others leave a thread and its operation alone -/
theorem Heeded.others (hD : D.Sound) {s s' : Sys} {t u : Tid} (h : D.Heeded S F s)
    (hl : D.Holds s) (hu : u ≠ t) (hthreads : s'.threads u = s.threads u)
    (hserve : s.serving = true → s'.serving = true) (halone : s.serving = false → t = openingTid)
    (hrely : D.rely u s.shared s'.shared) :
    (∀ th, s'.threads u = some th → D.Heeds S F s'.serving u th.op th.rest s'.shared) ∧
      ∀ op c r before l, D.Begun F s u op c r before l → D.Begun F s' u op c r before l := by
  have hsame : ∀ th, s.threads u = some th → s'.serving = s.serving ∧ th.rest.isRet = false := by
    intro th hth
    refine ⟨?_, (hl.live u th hth).running⟩
    cases hs : s.serving with
    | true => exact hserve hs
    | false =>
      rw [hl.alone hs u fun he => hu (he.trans (halone hs).symm)] at hth
      cases hth
  constructor
  · intro th hth
    rw [hthreads] at hth
    obtain ⟨hb, hrun⟩ := hsame th hth
    have hh := h.heeds u th hth
    rw [hb]
    cases hp : th.rest with
    | ret r => trivial
    | call c k =>
      rw [hp] at hh
      exact watched_interfere (hD.trans u) hh hrely
  · rintro op c r before l ⟨rest, o, hth, ho, hw⟩
    obtain ⟨hb, hrun⟩ := hsame _ hth
    refine ⟨rest, o, hthreads.trans hth, ho, ?_⟩
    rw [hb]
    cases rest with
    | ret r => cases hrun
    | call c k => exact wpF_interfere (hD.trans u) hw hrely

/-- a thread goes on, or its operation returns -/
theorem Heeded.advance (hD : D.Sound) {s s₁ : Sys} {t : Tid} {th : Thread} (h : D.Heeded S F s)
    (hl : D.Holds s) (hthreads : s₁.threads = s.threads) (hserving : s₁.serving = s.serving)
    (halone : s.serving = false → t = openingTid)
    (hrely : ∀ u, u ≠ t → D.rely u s.shared (s₁.advance t th).shared)
    (hlog : ∀ u, u ≠ t → ∀ op c r before l, Since u op c r before l s₁.shared.log →
      Since u op c r before l s.shared.log)
    (hheeds : D.Heeds S F s.serving t th.op th.rest s₁.shared)
    (hbegun : ∀ op c r before l, Since t op c r before l s₁.shared.log → S t op c r ⟨before, l⟩ →
      ∃ rest o, th = ⟨op, rest⟩ ∧ o.log = .call t op c r before :: l ∧
        (rest.isRet = false → wpF (D.party s.serving t op).agent rest (F t op o) s₁.shared)) :
    D.Heeded S F (s₁.advance t th) := by
  obtain ⟨op, rest⟩ := th
  cases rest with
  | ret r =>
    have hadv : s₁.advance t ⟨op, .ret r⟩ = s₁.finish t op r := rfl
    rw [hadv] at hrely ⊢
    have hself : (s₁.finish t op r).threads t = none := if_pos rfl
    have hother : ∀ u, u ≠ t → (s₁.finish t op r).threads u = s.threads u := by
      intro u hu
      rw [← hthreads]
      exact if_neg hu
    have hserve (hs : s.serving = true) : (s₁.finish t op r).serving = true := by
      show (s₁.serving || op.opened r) = true
      rw [hserving, hs, Bool.true_or]
    have hothers (u : Tid) (hu : u ≠ t) :=
      h.others hD hl hu (hother u hu) hserve halone (hrely u hu)
    constructor
    · intro u th hth
      by_cases hu : u = t
      · rw [hu, hself] at hth
        cases hth
      · exact (hothers u hu).1 th hth
    · intro u op' c r' before l hsince hS
      rcases since_cons hsince with ⟨he, -⟩ | ⟨hno, hsince⟩
      · cases he
      · have hu : u ≠ t := fun hu => hno hu.symm
        exact (hothers u hu).2 op' c r' before l
          (h.begun u op' c r' before l (hlog u hu op' c r' before l hsince) hS)
  | call c k =>
    have hadv : s₁.advance t ⟨op, .call c k⟩ = s₁.setThread t (some ⟨op, .call c k⟩) := rfl
    rw [hadv] at hrely ⊢
    have hself : (s₁.setThread t (some ⟨op, .call c k⟩)).threads t = some ⟨op, .call c k⟩ :=
      if_pos rfl
    have hother : ∀ u, u ≠ t →
        (s₁.setThread t (some ⟨op, .call c k⟩)).threads u = s.threads u := by
      intro u hu
      rw [← hthreads]
      exact if_neg hu
    have hserve : (s₁.setThread t (some ⟨op, .call c k⟩)).serving = s.serving := hserving
    have hothers (u : Tid) (hu : u ≠ t) :=
      h.others hD hl hu (hother u hu) (fun hs => hserve.trans hs) halone (hrely u hu)
    constructor
    · intro u th hth
      by_cases hu : u = t
      · rw [hu, hself] at hth
        cases hth
        rw [hu, hserve]
        exact hheeds
      · exact (hothers u hu).1 th hth
    · intro u op' c' r' before l hsince hS
      by_cases hu : u = t
      · subst hu
        obtain ⟨rest, o, hth, ho, hw⟩ := hbegun op' c' r' before l hsince hS
        cases hth
        exact ⟨_, o, hself, ho, hserve ▸ hw rfl⟩
      · exact (hothers u hu).2 op' c' r' before l
          (h.begun u op' c' r' before l (hlog u hu op' c' r' before l hsince) hS)

section
variable {mode : Mode} (hD : D.Sound) (ha : D.Admits mode) (hh : D.Heedful S F)
include hD ha

/-- the last step of an operation that has made a step of `S` -/
theorem Heeded.finishes {s : Sys} {t : Tid} {i : Input} {op op' : Op} {c c' : Cmd}
    {k : c.Reply → Prog Cmd Cmd.Reply (Res op.Out)} {x : c.Reply × Traced} {r : Res op.Out}
    {r' : c'.Reply} {before : World} {l : List Event} (h : D.Heeded S F s) (hl : D.Holds s)
    (hm : mode s (.step t i)) (hth : s.threads t = some ⟨op, .call c k⟩)
    (he : s.shared.exec env t op c i = some x) (hk : k x.1 = .ret r)
    (hsince : Since t op' c' r' before l x.2.log) (hS : S t op' c' r' ⟨before, l⟩) :
    ∃ hop : op = op', ∃ o w, o.log = .call t op' c' r' before :: l ∧
      F t op' o (hop ▸ r) w x.2 := by
  have hallow := ha.step s t i _ c k hm hth rfl
  have hheeds : watched _ _ _ (.call c k) s.shared := h.heeds t _ hth
  obtain ⟨⟨rep, y⟩, hy, hx⟩ := Option.map_eq_some_iff.mp he
  subst hx
  rcases since_cons hsince with ⟨hev, hlog⟩ | ⟨-, hsince⟩
  · cases hev
    subst hlog
    obtain ⟨hnow, -⟩ := watched_step (hD.refl t) hheeds hl.inv hallow he
    have hnow := hnow hS
    rw [hk] at hnow
    exact ⟨rfl, _, _, rfl, hnow⟩
  · obtain ⟨rest, o, hth', ho, hw⟩ := h.begun t op' c' r' before l hsince hS
    rw [hth] at hth'
    cases hth'
    exact ⟨rfl, o, s.shared, ho, (wpF_step (hD.refl t) hw hl.inv hallow he).1 r hk⟩

include hh

theorem Heeded.next {s s' : Sys} {l : Label} (h : D.Heeded S F s) (hl : D.Holds s)
    (hm : mode s l) (hn : s.next env l = some s') : D.Heeded S F s' := by
  obtain ⟨hl', hmoved⟩ := hl.next hD ha hm hn
  cases l with
  | start t op =>
    simp only [Sys.next] at hn
    split at hn
    · next hserve hnone =>
      cases hn
      refine h.advance hD hl rfl rfl (fun hs => ?_) ?_ (fun _ _ _ _ _ _ _ hs => hs) ?_ ?_
      · rw [hserve] at hs
        cases hs
      · intro u hu
        cases hmoved with
        | started hsame =>
          rw [hsame]
          exact hD.refl u _
        | refused r hlast hsame =>
          rw [hsame]
          exact (hD.last hlast hl.inv).2.2 u hu
      · rw [hserve]
        exact hh.start op (hserve ▸ hl.inv) (hl.idle t hnone)
      · intro op' c r before l hsince hS
        obtain ⟨rest, o, hth, -⟩ := h.begun t op' c r before l hsince hS
        rw [hnone] at hth
        cases hth
    · cases hn
  | step t i =>
    simp only [Sys.next] at hn
    split at hn
    · cases hn
    · next th hth =>
      obtain ⟨op, rest⟩ := th
      cases rest with
      | ret r => cases hn
      | call c k =>
        dsimp only at hn
        split at hn
        · cases hn
        · next r shared he =>
          cases hn
          have hallow := ha.step s t i _ c k hm hth rfl
          have hheeds : watched _ _ _ (.call c k) s.shared := h.heeds t _ hth
          obtain ⟨hnow, hlater⟩ := watched_step (hD.refl t) hheeds hl.inv hallow he
          obtain ⟨⟨rep, y⟩, hy, hx⟩ := Option.map_eq_some_iff.mp he
          cases hx
          refine h.advance hD hl rfl rfl (fun hs => ?_) ?_ ?_ hlater ?_
          · by_contra hne
            rw [hl.alone hs t hne] at hth
            cases hth
          · intro u hu
            cases hmoved with
            | stepped _ hg => exact hD.others hg hl.inv u hu
            | finished _ hlast hsame =>
              rw [hsame]
              exact (hD.last hlast hl.inv).2.2 u hu
          · intro u hu op' c' r' before l hsince
            rcases since_cons hsince with ⟨hev, -⟩ | ⟨-, hsince⟩
            · cases hev
              exact absurd rfl hu
            · exact hsince
          · intro op' c' r' before l hsince hS
            rcases since_cons hsince with ⟨hev, hlog⟩ | ⟨-, hsince⟩
            · cases hev
              subst hlog
              exact ⟨k rep, _, rfl, rfl, fun _ => hnow hS⟩
            · obtain ⟨rest, o, hth', ho, hw⟩ := h.begun t op' c' r' before l hsince hS
              rw [hth] at hth'
              cases hth'
              exact ⟨k rep, o, rfl, ho, fun hret =>
                ((wpF_step (hD.refl t) hw hl.inv hallow he).2 hret).2⟩
  | restart config bootId now =>
    have hn : s.restart env config bootId now = some s' := hn
    obtain ⟨hinv, hidle, -⟩ := hD.opening hl.inv (ha.restart s config bootId now hm) hl.idle hn
    unfold Sys.restart at hn
    split at hn
    · cases hn
    · split at hn
      · cases hn
      · cases hn
        constructor
        · intro t th hth
          by_cases ht : t = openingTid
          · subst ht
            cases hth
            exact hh.opening hinv (hidle _)
          · cases (if_neg ht).symm.trans hth
        · intro t op c r before l hsince
          rcases since_cons hsince with ⟨he, -⟩ | ⟨hno, -⟩
          · cases he
          · exact absurd trivial hno

theorem heeded {s : Sys} (h : Reach env mode s) : D.Heeded S F s := by
  induction h with
  | init =>
    refine ⟨fun _ _ hth => (by cases hth), ?_⟩
    rintro t op c r before l ⟨l₁, hl, -⟩
    cases l₁ <;> cases hl
  | next l hr hm hn ih => exact ih.next hD ha hh (holds hD ha hr) hm hn

/-- an operation that has made a step of `S` has returned -/
theorem ended {s : Sys} (h : Reach env mode s) {t : Tid} {op : Op} {r : Res op.Out} {c : Cmd}
    {rep : c.Reply} {before : World} {l log : List Event}
    (hlog : s.shared.log = .returned t op r :: log) (hsince : Since t op c rep before l log)
    (hS : S t op c rep ⟨before, l⟩) :
    ∃ o w₁ w₂, o.log = .call t op c rep before :: l ∧ F t op o r w₁ w₂ ∧
      s.shared = w₂.returned t op r := by
  induction h with
  | init => cases hlog
  | @next s s' label hr hm hn ih =>
    have hheeded := heeded hD ha hh hr
    have hl := holds hD ha hr
    cases label with
    | start t' op' =>
      simp only [Sys.next] at hn
      split at hn
      · next hserve hnone =>
        cases hn
        cases hp : op'.prog env with
        | call c' k =>
          rw [hp] at hlog
          exact ih hlog
        | ret r' =>
          rw [hp] at hlog
          obtain ⟨he, hrest⟩ := List.cons.inj hlog
          cases he
          rw [← hrest] at hsince
          obtain ⟨_, _, hth, -⟩ := hheeded.begun _ _ _ _ _ _ hsince hS
          rw [hnone] at hth
          cases hth
      · cases hn
    | step t' i =>
      simp only [Sys.next] at hn
      split at hn
      · cases hn
      · next th hth =>
        obtain ⟨op', rest⟩ := th
        cases rest with
        | ret r' => cases hn
        | call c' k =>
          dsimp only at hn
          split at hn
          · cases hn
          · next r' shared he =>
            cases hn
            cases hp : k r' with
            | call c'' k' =>
              rw [hp] at hlog
              obtain ⟨_, _, hx⟩ := Option.map_eq_some_iff.mp he
              cases hx
              cases (List.cons.inj hlog).1
            | ret a =>
              rw [hp] at hlog
              obtain ⟨hev, hrest⟩ := List.cons.inj hlog
              cases hev
              rw [← hrest] at hsince
              obtain ⟨_, o, w, ho, hF⟩ :=
                hheeded.finishes hD ha hl hm hth he hp hsince hS
              exact ⟨o, w, shared, ho, hF, rfl⟩
    | restart config bootId now =>
      have hn : s.restart env config bootId now = some s' := hn
      unfold Sys.restart at hn
      split at hn
      · cases hn
      · split at hn
        · cases hn
        · cases hn
          cases (List.cons.inj hlog).1

end

end Discipline

end ReclaimFabric
