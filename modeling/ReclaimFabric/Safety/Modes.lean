import ReclaimFabric.Protocol.Script

/-!
# Kinds of runs

What a group of results assumes about the runs, step by step: which inputs a thread may get for
the command it is about to execute.

* `truthfulRun`   no store call fails, backends answer truthfully, the bytes they deliver are known;
* `recipeRun`     no reclaim reserves an archived object that cannot be reconstructed;
* `edgeRun`       no edge puts an exposed object below one whose reclaim has read the lineage;
* `rolledBackRun` the failures of a reclaim that it does not roll back do not occur.

Each of them is the mode of a regime, so the invariant of the runs holds.
-/

namespace ReclaimFabric

section
variable {env : Env} {B : Set Bytes} {s s' : Sys}

/-- the runs whose steps satisfy `p`: the operation, its command, the input and the shared state -/
def stepwise (p : Op → Cmd → Input → Traced → Prop) : Mode
  | s, .step t i => ∀ th c k, s.threads t = some th → th.rest = .call c k →
      p th.op c i s.shared
  | _, _ => True

theorem Reach.mono {mode mode' : Mode} (hm : ∀ s l, mode s l → mode' s l)
    (h : Reach env mode s) : Reach env mode' s := by
  induction h with
  | init => exact .init
  | next l _ hl hn ih => exact .next l ih (hm _ l hl) hn

/-- the states that can follow `s` -/
inductive Later (env : Env) (mode : Mode) (s : Sys) : Sys → Prop where
  | refl : Later env mode s s
  | next {s₁ s₂ : Sys} (l : Label) : Later env mode s s₁ → mode s₁ l → s₁.next env l = some s₂ →
      Later env mode s s₂

theorem Reach.later {mode : Mode} (h : Reach env mode s) (hl : Later env mode s s') :
    Reach env mode s' := by
  induction hl with
  | refl => exact h
  | next l _ hm hn ih => exact .next l ih hm hn

/-! ## truthful backends -/

/-- no store call fails, presence queries and nodes answer truthfully, and what a read delivers
is in `B` -/
structure TruthfulStep (env : Env) (B : Set Bytes) (c : Cmd) (i : Input) (w : Traced) : Prop where
  store : ∀ so, c = .store so → i.fault = none
  answer : i.answer = none
  node : i.nodeReply = none
  bytes : ∀ t r x d, exec env t c i w.toWorld = some (r, x) → c.delivers r = some d → d ∈ B

def truthfulRun (env : Env) (B : Set Bytes) : Mode :=
  stepwise fun _ c i w => TruthfulStep env B c i w

def Regime.truthful (B : Set Bytes) : Regime := ⟨false, false, false, true, B⟩

theorem truthfulRun_mode (s : Sys) (l : Label) (h : truthfulRun env B s l) :
    (Regime.truthful B).mode env s l := by
  cases l with
  | start t op => trivial
  | restart config bootId now => exact fun h => by cases h
  | step t i =>
    intro th c k hth hk
    have hs := h th c k hth hk
    exact ⟨nofun, nofun, nofun, nofun, nofun, fun _ => hs.store, fun _ => ⟨hs.answer, hs.node⟩,
      fun _ => hs.bytes⟩

/-- a decidable check: no fault at all, and reads deliver one of the listed byte strings -/
def Sample.truthful (known : List Bytes) (s : Sys) : Label → Bool
  | .step t i =>
    match s.threads t with
    | none => true
    | some th =>
      match th.rest with
      | .ret _ => true
      | .call c _ => i.fault.isNone && i.answer.isNone && i.nodeReply.isNone &&
          (exec Sample.env t c i s.shared.toWorld).all fun x =>
            (c.delivers x.1).all fun d => decide (d ∈ known)
  | _ => true

theorem exec_delivers {t u : Tid} {c : Cmd} {i : Input} {w x : World} {r : c.Reply} {d : Bytes}
    (h : exec env t c i w = some (r, x)) (hd : c.delivers r = some d) :
    exec env u c i w = some (r, x) := by
  cases c with
  | get b k => exact h
  | node n b k op => exact h
  | _ => cases hd

theorem Sample.truthful_ok {known : List Bytes} (s : Sys) (l : Label)
    (h : Sample.truthful known s l = true) :
    truthfulRun Sample.env { d | d ∈ known } s l := by
  cases l with
  | start t op => trivial
  | restart config bootId now => trivial
  | step t i =>
    intro th c k hth hk
    simp only [Sample.truthful, hth, hk, Bool.and_eq_true, Option.isNone_iff_eq_none] at h
    obtain ⟨⟨⟨hf, ha⟩, hn⟩, hb⟩ := h
    refine ⟨fun _ _ => hf, ha, hn, ?_⟩
    intro u r x d he hd
    rw [exec_delivers (u := t) he hd] at hb
    simpa [hd] using hb

/-! ## recipes -/

/-- the reclaim that is being reserved is not that of an archived object that cannot be
reconstructed -/
def RecipeStep (c : Cmd) (w : Traced) : Prop :=
  ∀ j r a, c = .store (.createReclaimReservation j r a) →
    ∀ o, rowOf w j.objectId = some o → o.lifecycleState = .archived →
      o.durabilityClass = .ephemeral ∨ o.recomputeCost.isSome = true

def recipeRun : Mode := stepwise fun _ c _ w => RecipeStep c w

def Regime.withRecipe : Regime := ⟨true, false, false, false, ∅⟩

theorem recipeRun_mode (s : Sys) (l : Label) (h : recipeRun s l) :
    Regime.withRecipe.mode env s l := by
  cases l with
  | start t op => trivial
  | restart config bootId now => exact fun h => by cases h
  | step t i =>
    intro th c k hth hk
    have hs := h th c k hth hk
    exact ⟨fun _ => hs, nofun, nofun, nofun, nofun, nofun, nofun, nofun⟩

/-! ## edges -/

def EdgeStep (c : Cmd) (w : Traced) : Prop :=
  ∀ p x, c = .store (.addLineageEdge p x .dependsOn) → EdgeOk p x w

def edgeRun : Mode := stepwise fun _ c _ w => EdgeStep c w

def Regime.withEdges : Regime := ⟨false, true, false, false, ∅⟩

theorem edgeRun_mode (s : Sys) (l : Label) (h : edgeRun s l) :
    Regime.withEdges.mode env s l := by
  cases l with
  | start t op => trivial
  | restart config bootId now => exact fun h => by cases h
  | step t i =>
    intro th c k hth hk
    have hs := h th c k hth hk
    exact ⟨nofun, fun _ => hs, nofun, nofun, nofun, nofun, nofun, nofun⟩

/-! ## failures that a reclaim rolls back -/

/-- the failures of a reclaim that it does not roll back do not occur -/
structure RolledBackStep (env : Env) (op : Op) (c : Cmd) (i : Input) (w : Traced) : Prop where
  bare : ∀ req, op = .reclaim req → c.bare = true → i.fault = none
  plan : ∀ req, op = .reclaim req → ∀ ks, c = .pollPayloads ks → PlanOk env req.objectId w.toWorld
  archives : ∀ req, op = .reclaim req → ∀ id p n, c = .store (.startJournalPhysical id p n) →
    ∀ a ∈ w.store.archives, a.objectId = req.objectId →
      (w.proc.config.archive a.backend).isSome = true

/-- the process stops only when nothing is under way -/
def rolledBackRun (env : Env) : Mode
  | s, .restart _ _ _ => s.Quiescent
  | s, l => stepwise (RolledBackStep env) s l

def Regime.rolledBack : Regime := ⟨false, false, true, false, ∅⟩

theorem rolledBackRun_mode (s : Sys) (l : Label) (h : rolledBackRun env s l) :
    Regime.rolledBack.mode env s l := by
  cases l with
  | start t op => trivial
  | restart config bootId now => exact fun _ => h
  | step t i =>
    intro th c k hth hk
    have hs : RolledBackStep env th.op c i s.shared := h th c k hth hk
    exact ⟨nofun, nofun, fun _ => hs.bare, fun _ => hs.plan, fun _ => hs.archives, nofun, nofun,
      nofun⟩

end

end ReclaimFabric
