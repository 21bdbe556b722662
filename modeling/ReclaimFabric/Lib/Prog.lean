import Mathlib.Algebra.Order.Ring.Int
import Mathlib.Data.List.Sort

/-!
# Programs over commands, and their weakest preconditions

A program is a tree: it returns, or it issues a command and goes on with the answer.  What a
command does is not part of the program; an `Agent` says it

* `exec`   one atomic step on the shared state, driven by an input (`none`: the step is blocked);
* `allow`  the inputs that may occur;
* `inv`    what holds in every state in which the agent moves;
* `rely`   what the others may do between two of the agent's steps;
* `guar`   what each step of the agent itself has to respect;
* `block`  whether a blocked step is acceptable.

`wp A p Q w` says that `p` may be started in `w`: whatever the others do and whatever the inputs
are, every step is in `guar` and `Q` holds when `p` returns.  `wpF` is the same for a whole
thread, whose last step is described together with its result.  `Ran` are the runs of a program
that is alone, `eval` computes one of them, and `wp_ran` applies `wp` to them.  Programs that fail
are programs in `ExceptT`; `wpE` has one postcondition for the value and one for the error.
-/

set_option linter.unusedSectionVars false

/-- a program over commands `c : C`, answered by `R c` -/
inductive Prog (C : Type) (R : C → Type) (α : Type) : Type where
  | ret (a : α)
  | call (c : C) (k : R c → Prog C R α)

namespace Prog

variable {C : Type} {R : C → Type} {α β γ ε : Type}

def bind : Prog C R α → (α → Prog C R β) → Prog C R β
  | .ret a, f => f a
  | .call c k, f => .call c (fun r => (k r).bind f)

instance : Monad (Prog C R) where
  pure := Prog.ret
  bind := Prog.bind

/-- run a failing program and hand its outcome on as a value -/
def attempt (x : ExceptT ε (Prog C R) α) : ExceptT ε (Prog C R) (Except ε α) :=
  ExceptT.mk (Prog.bind x.run fun r => .ret (.ok r))

/-- go on with an outcome -/
def settle (r : Except ε α) : ExceptT ε (Prog C R) α := ExceptT.mk (.ret r)

end Prog

/-! ## agents -/

/-- one party: its steps, its inputs, and what it and the others may do -/
structure Agent (C : Type) (R : C → Type) (I W : Type) where
  exec : (c : C) → I → W → Option (R c × W)
  allow : C → I → W → Prop
  inv : W → Prop
  rely : W → W → Prop
  guar : W → W → Prop
  block : Prop

section
variable {C : Type} {R : C → Type} {I W α β ε : Type}

/-- what one step of the agent has to satisfy -/
def Agent.after (A : Agent C R I W) (w : W) {ρ : Type} (o : Option (ρ × W))
    (Q : ρ → W → Prop) : Prop :=
  match o with
  | none => A.block
  | some (r, w') => A.guar w w' ∧ Q r w'

theorem Agent.after_mono {A : Agent C R I W} {w : W} {ρ : Type} {o : Option (ρ × W)}
    {Q Q' : ρ → W → Prop} (h : A.after w o Q) (hQ : ∀ r w', Q r w' → Q' r w') :
    A.after w o Q' := by
  cases o with
  | none => exact h
  | some x => exact ⟨h.1, hQ x.1 x.2 h.2⟩

def wp (A : Agent C R I W) : Prog C R α → (α → W → Prop) → W → Prop
  | .ret a, Q, w => Q a w
  | .call c k, Q, w => ∀ w₁, A.rely w w₁ → A.inv w₁ → ∀ i, A.allow c i w₁ →
      A.after w₁ (A.exec c i w₁) (fun r w₂ => wp A (k r) Q w₂)

variable {A : Agent C R I W}

theorem wp_mono {p : Prog C R α} {Q Q' : α → W → Prop} {w : W} (h : wp A p Q w)
    (hQ : ∀ a w', Q a w' → Q' a w') : wp A p Q' w := by
  induction p generalizing w with
  | ret a => exact hQ a w h
  | call c k ih =>
    intro w₁ hr hi i ha
    exact Agent.after_mono (h w₁ hr hi i ha) (fun r w₂ h₂ => ih r h₂)

/-- what every step of the agent and of the others keeps, stays true to the end -/
theorem wp_frame {p : Prog C R α} {Q : α → W → Prop} {G : W → Prop} {w : W}
    (hrely : ∀ w w', A.rely w w' → G w → G w')
    (hguar : ∀ w w', A.guar w w' → G w → G w') (h : wp A p Q w) (hG : G w) :
    wp A p (fun a w' => Q a w' ∧ G w') w := by
  induction p generalizing w with
  | ret a => exact ⟨h, hG⟩
  | call c k ih =>
    intro w₁ hr hi i ha
    have hstep := h w₁ hr hi i ha
    have hG₁ := hrely w w₁ hr hG
    cases he : A.exec c i w₁ with
    | none =>
      rw [he] at hstep
      exact hstep
    | some x =>
      rw [he] at hstep
      exact ⟨hstep.1, ih x.1 hstep.2 (hguar _ _ hstep.1 hG₁)⟩

theorem wp_bind {p : Prog C R α} {f : α → Prog C R β} {Q : β → W → Prop} {w : W} :
    wp A (p.bind f) Q w ↔ wp A p (fun a w' => wp A (f a) Q w') w := by
  induction p generalizing w with
  | ret a => exact Iff.rfl
  | call c k ih =>
    constructor
    · intro h w₁ hr hi i ha
      exact Agent.after_mono (h w₁ hr hi i ha) (fun r w₂ h₂ => (ih r).mp h₂)
    · intro h w₁ hr hi i ha
      exact Agent.after_mono (h w₁ hr hi i ha) (fun r w₂ h₂ => (ih r).mpr h₂)

/-! ## the last step

`wpF A p F w` is `wp` for a whole thread: every step but the last is in `guar`, and the last one,
together with the result, is described by `F`. -/

def Prog.isRet : Prog C R α → Bool
  | .ret _ => true
  | .call _ _ => false

def wpF (A : Agent C R I W) : Prog C R α → (α → W → W → Prop) → W → Prop
  | .ret a, F, w => F a w w
  | .call c k, F, w => ∀ w₁, A.rely w w₁ → A.inv w₁ → ∀ i, A.allow c i w₁ →
      match A.exec c i w₁ with
      | none => A.block
      | some (r, w₂) => (∀ a, k r = .ret a → F a w₁ w₂) ∧
          ((k r).isRet = false → A.guar w₁ w₂ ∧ wpF A (k r) F w₂)

theorem wpF_call {c : C} {k : R c → Prog C R α} {F : α → W → W → Prop} {w : W}
    (h : ∀ w₁, A.rely w w₁ → A.inv w₁ → ∀ i, A.allow c i w₁ →
      (A.exec c i w₁ = none → A.block) ∧ ∀ r w₂, A.exec c i w₁ = some (r, w₂) →
        (∀ a, k r = .ret a → F a w₁ w₂) ∧
          ((k r).isRet = false → A.guar w₁ w₂ ∧ wpF A (k r) F w₂)) :
    wpF A (.call c k) F w := by
  intro w₁ hr hi i ha
  obtain ⟨hnone, hsome⟩ := h w₁ hr hi i ha
  cases he : A.exec c i w₁ with
  | none => exact hnone he
  | some x => exact hsome x.1 x.2 he

theorem wpF_of_wp {p : Prog C R α} {F : α → W → W → Prop} {w : W}
    (hF : ∀ a w₁ w₂, A.guar w₁ w₂ → F a w₂ w₂ → F a w₁ w₂)
    (h : wp A p (fun a w' => F a w' w') w) : wpF A p F w := by
  induction p generalizing w with
  | ret a => exact h
  | call c k ih =>
    intro w₁ hr hi i ha
    have h' := h w₁ hr hi i ha
    cases he : A.exec c i w₁ with
    | none =>
      rw [he] at h'
      exact h'
    | some x =>
      rw [he] at h'
      obtain ⟨hg, hw⟩ := h'
      refine ⟨?_, fun _ => ⟨hg, ih x.1 hw⟩⟩
      intro a hk
      rw [hk] at hw
      exact hF a w₁ x.2 hg hw

/-- the last step of a sequence is the last step of its second part -/
theorem wpF_bind {p : Prog C R α} {f : α → Prog C R β} {F : β → W → W → Prop} {w : W}
    (hF : ∀ b w₁ w₂, A.guar w₁ w₂ → F b w₂ w₂ → F b w₁ w₂)
    (h : wp A p (fun a w' => wpF A (f a) F w') w) : wpF A (p.bind f) F w := by
  induction p generalizing w with
  | ret a => exact h
  | call c k ih =>
    intro w₁ hr hi i ha
    have h' := h w₁ hr hi i ha
    cases he : A.exec c i w₁ with
    | none =>
      rw [he] at h'
      exact h'
    | some x =>
      rw [he] at h'
      obtain ⟨hg, hw⟩ := h'
      have hrec : wpF A ((k x.1).bind f) F x.2 := ih x.1 hw
      refine ⟨?_, fun _ => ⟨hg, hrec⟩⟩
      intro b hk
      have hk : (k x.1).bind f = .ret b := hk
      rw [hk] at hrec
      exact hF b w₁ x.2 hg hrec

/-- one step of a thread that is under way -/
theorem wpF_step (hrefl : ∀ w, A.rely w w) {c : C} {k : R c → Prog C R α}
    {F : α → W → W → Prop} {w w' : W} {i : I} {r : R c} (h : wpF A (.call c k) F w)
    (hinv : A.inv w) (ha : A.allow c i w) (he : A.exec c i w = some (r, w')) :
    (∀ a, k r = .ret a → F a w w') ∧
      ((k r).isRet = false → A.guar w w' ∧ wpF A (k r) F w') := by
  have h' := h w (hrefl w) hinv i ha
  rw [he] at h'
  exact h'

/-- a step of the others does not disturb a thread that is under way -/
theorem wpF_interfere (htrans : ∀ a b c, A.rely a b → A.rely b c → A.rely a c) {c : C}
    {k : R c → Prog C R α} {F : α → W → W → Prop} {w w' : W} (h : wpF A (.call c k) F w)
    (hr : A.rely w w') : wpF A (.call c k) F w' :=
  fun w₁ hr₁ => h w₁ (htrans w w' w₁ hr hr₁)

/-! ## sequential evaluation -/

/-- run a program alone on a stream of inputs; `none` when a step is blocked -/
def Prog.eval (exec : (c : C) → I → W → Option (R c × W)) (inp : Nat → I) :
    Prog C R α → Nat → W → Option (α × W)
  | .ret a, _, w => some (a, w)
  | .call c k, n, w =>
    match exec c (inp n) w with
    | none => none
    | some (r, w') => (k r).eval exec inp (n + 1) w'

/-- some inputs take the program from `w` to the result `a` in `w'` -/
inductive Prog.Ran (exec : (c : C) → I → W → Option (R c × W)) : Prog C R α → W → α → W → Prop where
  | ret {a : α} {w : W} : Ran exec (.ret a) w a w
  | call {c : C} {k : R c → Prog C R α} {i : I} {r : R c} {a : α} {w w₁ w' : W} :
      exec c i w = some (r, w₁) → Ran exec (k r) w₁ a w' → Ran exec (.call c k) w a w'

theorem Prog.ran_of_eval {exec : (c : C) → I → W → Option (R c × W)} {inp : Nat → I}
    {p : Prog C R α} {n : Nat} {w w' : W} {a : α} (h : p.eval exec inp n w = some (a, w')) :
    p.Ran exec w a w' := by
  induction p generalizing n w with
  | ret b =>
    cases h
    exact .ret
  | call c k ih =>
    rw [Prog.eval] at h
    split at h
    · cases h
    · next r w₁ he => exact .call he (ih r h)

theorem Prog.ran_bind {exec : (c : C) → I → W → Option (R c × W)} {p : Prog C R α}
    {f : α → Prog C R β} {w w' : W} {b : β} :
    (p.bind f).Ran exec w b w' ↔ ∃ a w₁, p.Ran exec w a w₁ ∧ (f a).Ran exec w₁ b w' := by
  constructor
  · intro h
    induction p generalizing w with
    | ret a => exact ⟨a, w, .ret, h⟩
    | call c k ih =>
      cases h with
      | call he h =>
        obtain ⟨a, w₁, h₁, h₂⟩ := ih _ h
        exact ⟨a, w₁, .call he h₁, h₂⟩
  · rintro ⟨a, w₁, h₁, h₂⟩
    induction h₁ with
    | ret => exact h₂
    | call he _ ih => exact .call he (ih h₂)

/-- a run is a run wherever the same steps are made -/
theorem Prog.Ran.mono {exec exec' : (c : C) → I → W → Option (R c × W)} {p : Prog C R α} {w w' : W}
    {a : α} (hs : ∀ c i w x, exec c i w = some x → exec' c i w = some x)
    (h : p.Ran exec w a w') : p.Ran exec' w a w' := by
  induction h with
  | ret => exact .ret
  | call he _ ih => exact .call (hs _ _ _ _ he) ih

/-- what every command keeps, a run keeps -/
theorem Prog.Ran.keeps {exec : (c : C) → I → W → Option (R c × W)} {p : Prog C R α} {w w' : W}
    {a : α} {K : W → Prop} (hs : ∀ c i w r w', exec c i w = some (r, w') → K w → K w')
    (h : p.Ran exec w a w') (hw : K w) : K w' := by
  induction h with
  | ret => exact hw
  | call he _ ih => exact ih (hs _ _ _ _ _ he hw)

/-- what a precondition promises holds at the end of every run of the program alone -/
theorem wp_ran (hrefl : ∀ w, A.rely w w) (hinv : ∀ w, A.inv w) (hallow : ∀ c i w, A.allow c i w)
    {p : Prog C R α} {Q : α → W → Prop} {w w' : W} {a : α} (h : wp A p Q w)
    (hr : p.Ran A.exec w a w') : Q a w' := by
  induction hr with
  | ret => exact h
  | @call c k i r a w w₁ w' he _ ih =>
    have h' := h w (hrefl w) (hinv w) i (hallow c i w)
    rw [he] at h'
    exact ih h'.2

/-- a state some run of the program goes through -/
inductive Prog.Passed (exec : (c : C) → I → W → Option (R c × W)) : Prog C R α → W → W → Prop where
  | here {p : Prog C R α} {w : W} : Passed exec p w w
  | later {c : C} {k : R c → Prog C R α} {i : I} {r : R c} {w w₁ w' : W} :
      exec c i w = some (r, w₁) → Passed exec (k r) w₁ w' → Passed exec (.call c k) w w'

/-- the state after at most `n` steps -/
def Prog.cut (exec : (c : C) → I → W → Option (R c × W)) (inp : Nat → I) :
    Nat → Prog C R α → W → W
  | 0, _, w => w
  | _ + 1, .ret _, w => w
  | n + 1, .call c k, w =>
    match exec c (inp n) w with
    | none => w
    | some x => cut exec inp n (k x.1) x.2

theorem Prog.passed_cut (exec : (c : C) → I → W → Option (R c × W)) (inp : Nat → I) (n : Nat)
    (p : Prog C R α) (w : W) : p.Passed exec w (p.cut exec inp n w) := by
  induction n generalizing p w with
  | zero => exact .here
  | succ n ih =>
    cases p with
    | ret a => exact .here
    | call c k =>
      unfold Prog.cut
      cases he : exec c (inp n) w with
      | none => exact .here
      | some x => exact .later he (ih _ _)

/-- a run goes through the state it ends in -/
theorem Prog.Ran.passed {exec : (c : C) → I → W → Option (R c × W)} {p : Prog C R α} {w w' : W}
    {a : α} (h : p.Ran exec w a w') : p.Passed exec w w' := by
  induction h with
  | ret => exact .here
  | call he _ ih => exact .later he ih

/-! ## programs over some of the commands -/

/-- every command of the program is in `S` -/
inductive Prog.Only (S : C → Prop) : Prog C R α → Prop where
  | ret (a : α) : Only S (.ret a)
  | call {c : C} {k : R c → Prog C R α} : S c → (∀ r, Only S (k r)) → Only S (.call c k)

section
variable {S : C → Prop} {exec : (c : C) → I → W → Option (R c × W)} {p : Prog C R α}

theorem Prog.Only.bind {f : α → Prog C R β} (h : p.Only S) (hf : ∀ a, (f a).Only S) :
    (p.bind f).Only S := by
  induction h with
  | ret a => exact hf a
  | call hc _ ih => exact .call hc ih

theorem Prog.Only.mono {S' : C → Prop} (h : p.Only S) (hs : ∀ c, S c → S' c) : p.Only S' := by
  induction h with
  | ret a => exact .ret a
  | call hc _ ih => exact .call (hs _ hc) ih

/-- what every step keeps, a run keeps -/
theorem Prog.Only.ran {K : W → Prop} (h : p.Only S)
    (hs : ∀ c i w r w', S c → exec c i w = some (r, w') → K w → K w') {w w' : W} {a : α}
    (hr : p.Ran exec w a w') (hw : K w) : K w' := by
  induction hr with
  | ret => exact hw
  | call he _ ih =>
    cases h with
    | call hc hk => exact ih (hk _) (hs _ _ _ _ _ hc he hw)

/-- a run is a run of every interpretation that makes the same steps -/
theorem Prog.Only.rerun {exec' : (c : C) → I → W → Option (R c × W)} (h : p.Only S)
    (hs : ∀ c i w x, S c → exec c i w = some x → exec' c i w = some x) {w w' : W} {a : α}
    (hr : p.Ran exec w a w') : p.Ran exec' w a w' := by
  induction hr with
  | ret => exact .ret
  | call he _ ih =>
    cases h with
    | call hc hk => exact .call (hs _ _ _ _ hc he) (ih (hk _))

/-- what every step keeps, holds in every state a run goes through -/
theorem Prog.Only.passed {K : W → Prop} (h : p.Only S)
    (hs : ∀ c i w r w', S c → exec c i w = some (r, w') → K w → K w') {w w' : W}
    (hp : p.Passed exec w w') (hw : K w) : K w' := by
  induction hp with
  | here => exact hw
  | later he _ ih =>
    cases h with
    | call hc hk => exact ih (hk _) (hs _ _ _ _ _ hc he hw)

end

/-! ## programs that may fail -/

/-- the two postconditions of a failing program as one -/
def outcome (Q : α → W → Prop) (E : ε → W → Prop) : Except ε α → W → Prop
  | .ok a, w => Q a w
  | .error e, w => E e w

def wpE (A : Agent C R I W) (x : ExceptT ε (Prog C R) α) (Q : α → W → Prop)
    (E : ε → W → Prop) (w : W) : Prop :=
  wp A x.run (outcome Q E) w

variable {x : ExceptT ε (Prog C R) α} {f : α → ExceptT ε (Prog C R) β} {E : ε → W → Prop}
  {w : W}

theorem wpE_mono {Q Q' : α → W → Prop} {E' : ε → W → Prop} (h : wpE A x Q E w)
    (hQ : ∀ a w', Q a w' → Q' a w') (hE : ∀ e w', E e w' → E' e w') : wpE A x Q' E' w := by
  refine wp_mono h ?_
  intro r w' hr
  cases r with
  | ok a => exact hQ a w' hr
  | error e => exact hE e w' hr

theorem wpE_pure {a : α} {Q : α → W → Prop} :
    wpE A (pure a : ExceptT ε (Prog C R) α) Q E w ↔ Q a w := Iff.rfl

theorem wpE_throw {e : ε} {Q : α → W → Prop} :
    wpE A (throw e : ExceptT ε (Prog C R) α) Q E w ↔ E e w := Iff.rfl

theorem wpE_settle {r : Except ε α} {Q : α → W → Prop} :
    wpE A (Prog.settle r : ExceptT ε (Prog C R) α) Q E w ↔ outcome Q E r w := Iff.rfl

theorem wpE_bind {Q : β → W → Prop} :
    wpE A (x >>= f) Q E w ↔ wpE A x (fun a w' => wpE A (f a) Q E w') E w := by
  show wp A (Prog.bind x.run (ExceptT.bindCont f)) _ w ↔ wp A x.run _ w
  rw [wp_bind]
  constructor
  · intro h
    refine wp_mono h ?_
    intro r w' hr
    cases r with
    | ok a => exact hr
    | error e => exact hr
  · intro h
    refine wp_mono h ?_
    intro r w' hr
    cases r with
    | ok a => exact hr
    | error e => exact hr

theorem wpE_attempt {Q : Except ε α → W → Prop} :
    wpE A (Prog.attempt x) Q E w ↔
      wpE A x (fun a w' => Q (.ok a) w') (fun e w' => Q (.error e) w') w := by
  show wp A (Prog.bind x.run _) _ w ↔ wp A x.run _ w
  rw [wp_bind]
  constructor
  · intro h
    refine wp_mono h ?_
    intro r w' hr
    cases r with
    | ok a => exact hr
    | error e => exact hr
  · intro h
    refine wp_mono h ?_
    intro r w' hr
    cases r with
    | ok a => exact hr
    | error e => exact hr

/-! ## the commands of programs that may fail -/

section
variable {S : C → Prop}

theorem only_pure {a : α} : Prog.Only S (pure a : ExceptT ε (Prog C R) α).run := .ret _

theorem only_throw {e : ε} : Prog.Only S (throw e : ExceptT ε (Prog C R) α).run := .ret _

theorem only_settle {r : Except ε α} :
    Prog.Only S (Prog.settle r : ExceptT ε (Prog C R) α).run := .ret _

theorem only_bind (h : Prog.Only S x.run) (hf : ∀ a, Prog.Only S (f a).run) :
    Prog.Only S (x >>= f).run := by
  refine Prog.Only.bind h fun r => ?_
  cases r with
  | ok a => exact hf a
  | error e => exact .ret _

theorem only_attempt (h : Prog.Only S x.run) : Prog.Only S (Prog.attempt x).run :=
  Prog.Only.bind h fun _ => .ret _

theorem only_ite {c : Prop} [Decidable c] {y : ExceptT ε (Prog C R) α} (hx : Prog.Only S x.run)
    (hy : Prog.Only S y.run) : Prog.Only S (if c then x else y).run := by
  split
  · exact hx
  · exact hy

end

/-! ## runs of programs that may fail -/

section
variable {exec : (c : C) → I → W → Option (R c × W)} {w' : W}

theorem ran_pure {a : α} {r : Except ε α} :
    Prog.Ran exec (pure a : ExceptT ε (Prog C R) α).run w r w' ↔ r = .ok a ∧ w' = w := by
  constructor
  · intro h
    cases h
    exact ⟨rfl, rfl⟩
  · rintro ⟨rfl, rfl⟩
    exact .ret

theorem ran_settle {o r : Except ε α} :
    Prog.Ran exec (Prog.settle o : ExceptT ε (Prog C R) α).run w r w' ↔ r = o ∧ w' = w := by
  constructor
  · intro h
    cases h
    exact ⟨rfl, rfl⟩
  · rintro ⟨rfl, rfl⟩
    exact .ret

theorem ran_seq {r : Except ε β} :
    Prog.Ran exec (x >>= f).run w r w' ↔
      (∃ e, r = .error e ∧ Prog.Ran exec x.run w (.error e) w') ∨
        ∃ a w₁, Prog.Ran exec x.run w (.ok a) w₁ ∧ Prog.Ran exec (f a).run w₁ r w' := by
  show Prog.Ran exec (Prog.bind x.run (ExceptT.bindCont f)) w r w' ↔ _
  rw [Prog.ran_bind]
  constructor
  · rintro ⟨o, w₁, h₁, h₂⟩
    cases o with
    | ok a => exact .inr ⟨a, w₁, h₁, h₂⟩
    | error e =>
      cases h₂
      exact .inl ⟨e, rfl, h₁⟩
  · rintro (⟨e, rfl, h⟩ | ⟨a, w₁, h₁, h₂⟩)
    · exact ⟨.error e, w', h, .ret⟩
    · exact ⟨.ok a, w₁, h₁, h₂⟩

theorem ran_seq_ok {b : β} (h : Prog.Ran exec (x >>= f).run w (.ok b) w') :
    ∃ a w₁, Prog.Ran exec x.run w (.ok a) w₁ ∧ Prog.Ran exec (f a).run w₁ (.ok b) w' := by
  rcases ran_seq.mp h with ⟨e, he, -⟩ | h
  · cases he
  · exact h

theorem passed_seq {w₁ : W} (h : Prog.Passed exec (x >>= f).run w w₁) :
    Prog.Passed exec x.run w w₁ ∨
      ∃ a w₂, Prog.Ran exec x.run w (.ok a) w₂ ∧ Prog.Passed exec (f a).run w₂ w₁ := by
  have hgen : ∀ (p : Prog C R (Except ε α)) (w : W),
      Prog.Passed exec (p.bind (ExceptT.bindCont f)) w w₁ → Prog.Passed exec p w w₁ ∨
        ∃ a w₂, Prog.Ran exec p w (.ok a) w₂ ∧ Prog.Passed exec (f a).run w₂ w₁ := by
    intro p
    induction p with
    | ret o =>
      intro w h
      cases o with
      | ok a => exact .inr ⟨a, w, .ret, h⟩
      | error e =>
        cases h
        exact .inl .here
    | call c k ih =>
      intro w h
      cases h with
      | here => exact .inl .here
      | later he h =>
        rcases ih _ _ h with h | ⟨a, w₂, hr, h⟩
        · exact .inl (.later he h)
        · exact .inr ⟨a, w₂, .call he hr, h⟩
  exact hgen x.run w h

theorem passed_attempt {w₁ : W} (h : Prog.Passed exec (Prog.attempt x).run w w₁) :
    Prog.Passed exec x.run w w₁ := by
  have hgen : ∀ (p : Prog C R (Except ε α)) (w : W),
      Prog.Passed exec (p.bind fun r => .ret (.ok r) : Prog C R (Except ε (Except ε α))) w w₁ →
        Prog.Passed exec p w w₁ := by
    intro p
    induction p with
    | ret o =>
      intro w h
      cases h
      exact .here
    | call c k ih =>
      intro w h
      cases h with
      | here => exact .here
      | later he h => exact .later he (ih _ _ h)
  exact hgen x.run w h

theorem ran_attempt {r : Except ε (Except ε α)} :
    Prog.Ran exec (Prog.attempt x).run w r w' ↔ ∃ o, r = .ok o ∧ Prog.Ran exec x.run w o w' := by
  show Prog.Ran exec (Prog.bind x.run _) w r w' ↔ _
  rw [Prog.ran_bind]
  constructor
  · rintro ⟨o, w₁, h₁, h₂⟩
    cases h₂
    exact ⟨o, rfl, h₁⟩
  · rintro ⟨o, rfl, h⟩
    exact ⟨o, w', h, .ret⟩

end

end
