import ReclaimFabric.Lib.Prog

/-!
# Programs from a step on

A claim about what follows a particular step of a program needs the program that is left after the
step.  `watched A S K p w` says that, however `p` runs from `w` among the other agents, what is
left of it satisfies `K` whenever it has made a step of `S`.

* `watched_only`, `watched_none`   programs without such a step;
* `watched_skip`      a sequence whose first part has none;
* `watched_within`    a sequence whose second part has none;
* `watched_step`, `watched_interfere`   one step of the agent, and of the others.
-/

set_option linter.unusedSectionVars false

section
variable {C : Type} {R : C → Type} {I W α β ε : Type}

/-- whenever a step of the program is one of `S`, what is left of it satisfies `K` -/
def watched (A : Agent C R I W) (S : (c : C) → R c → W → Prop) (K : Prog C R α → W → Prop) :
    Prog C R α → W → Prop
  | .ret _, _ => True
  | .call c k, w => ∀ w₁, A.rely w w₁ → A.inv w₁ → ∀ i, A.allow c i w₁ → ∀ r w₂,
      A.exec c i w₁ = some (r, w₂) → (S c r w₁ → K (k r) w₂) ∧ watched A S K (k r) w₂

variable {A : Agent C R I W} {S : (c : C) → R c → W → Prop} {K : Prog C R α → W → Prop}
  {K' : Prog C R β → W → Prop} {p : Prog C R α} {w w' : W}

/-- the commands that are never a step of `S` -/
def Unwatched (S : (c : C) → R c → W → Prop) (c : C) : Prop := ∀ r w, ¬S c r w

theorem watched_only (h : p.Only (Unwatched S)) : watched A S K p w := by
  induction h generalizing w with
  | ret a => trivial
  | call hc _ ih => exact fun w₁ _ _ i _ r w₂ _ => ⟨fun hS => absurd hS (hc r w₁), ih r⟩

theorem watched_none (h : ∀ c, Unwatched S c) : watched A S K p w := by
  induction p generalizing w with
  | ret a => trivial
  | call c k ih => exact fun w₁ _ _ i _ r w₂ _ => ⟨fun hS => absurd hS (h c r w₁), ih r⟩

theorem watched_mono {L : Prog C R α → W → Prop} (h : watched A S K p w)
    (hK : ∀ q w, K q w → L q w) : watched A S L p w := by
  induction p generalizing w with
  | ret a => trivial
  | call c k ih =>
    intro w₁ hr hi i ha r w₂ he
    obtain ⟨hnow, hlater⟩ := h w₁ hr hi i ha r w₂ he
    exact ⟨fun hS => hK _ _ (hnow hS), ih r hlater⟩

/-- a part without a step of `S`, and the rest -/
theorem watched_skip {f : α → Prog C R β} {Q : α → W → Prop} (hp : p.Only (Unwatched S))
    (h : wp A p Q w) (hf : ∀ a w', Q a w' → watched A S K' (f a) w') :
    watched A S K' (p.bind f) w := by
  induction hp generalizing w with
  | ret a => exact hf a w h
  | @call c k hc _ ih =>
    intro w₁ hr hi i ha r w₂ he
    have hstep := h w₁ hr hi i ha
    rw [he] at hstep
    exact ⟨fun hS => absurd hS (hc r w₁), ih r hstep.2⟩

/-- a part that is followed by one without a step of `S` -/
theorem watched_within {f : α → Prog C R β} (h : watched A S K p w)
    (hK : ∀ q w', K q w' → K' (q.bind f) w') (hf : ∀ a, (f a).Only (Unwatched S)) :
    watched A S K' (p.bind f) w := by
  induction p generalizing w with
  | ret a => exact watched_only (hf a)
  | call c k ih =>
    intro w₁ hr hi i ha r w₂ he
    obtain ⟨hnow, hlater⟩ := h w₁ hr hi i ha r w₂ he
    exact ⟨fun hS => hK _ _ (hnow hS), ih r hlater⟩

/-- one step of a program that is under way -/
theorem watched_step (hrefl : ∀ w, A.rely w w) {c : C} {k : R c → Prog C R α} {i : I} {r : R c}
    (h : watched A S K (.call c k) w) (hinv : A.inv w) (ha : A.allow c i w)
    (he : A.exec c i w = some (r, w')) : (S c r w → K (k r) w') ∧ watched A S K (k r) w' :=
  h w (hrefl w) hinv i ha r w' he

/-- a step of the others does not disturb a program that is under way -/
theorem watched_interfere (htrans : ∀ a b c, A.rely a b → A.rely b c → A.rely a c) {c : C}
    {k : R c → Prog C R α} (h : watched A S K (.call c k) w) (hr : A.rely w w') :
    watched A S K (.call c k) w' :=
  fun w₁ hr₁ => h w₁ (htrans w w' w₁ hr hr₁)

end
