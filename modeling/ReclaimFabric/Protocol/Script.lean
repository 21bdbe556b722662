import ReclaimFabric.Protocol.Sound

/-!
# Runs given by a script

A run is determined by its labels, so the states that particular inputs lead to can be computed.

* `anyRun`        every label is admitted;
* `Sys.label?`    one label, if a check accepts it;
* `Sys.finish?`   let one thread step until its operation returns;
* `Sys.call?`     start an operation and let it return;
* `Reach.free`    a run of every mode is one of the regime that excludes nothing.

`Sample` is a small deployment: one payload backend, one archive backend, an injective hash.
-/

namespace ReclaimFabric

/-- the runs without any restriction -/
def anyRun : Mode := fun _ _ => True

/-- the regime that excludes nothing -/
def Regime.free : Regime := ⟨false, false, false, false, ∅⟩

section
variable {env : Env} {s s' : Sys}

theorem Regime.free_mode (l : Label) : Regime.free.mode env s l := by
  cases l with
  | start t op => trivial
  | restart config bootId now => exact fun h => by cases h
  | step t i =>
    intro th c k _ _
    exact ⟨nofun, nofun, nofun, nofun, nofun, nofun, nofun, nofun⟩

theorem Regime.free_collisionless : Regime.free.Collisionless env := fun h => by cases h

theorem Reach.free (h : Reach env anyRun s) : Reach env (Regime.free.mode env) s := by
  induction h with
  | init => exact .init
  | next l _ _ hn ih => exact .next l ih (Regime.free_mode l) hn

end

/-! ## scripts -/

namespace Sys

variable (env : Env) (ok : Sys → Label → Bool)

/-- a label that the check accepts -/
def label? (l : Label) (s : Sys) : Option Sys := if ok s l then s.next env l else none

/-- thread `t` makes `n` steps, the `k`-th of them on the input `f k` -/
def steps? (t : Tid) (f : Nat → Input) : Nat → Nat → Sys → Option Sys
  | 0, _, s => some s
  | n + 1, k, s => (s.label? env ok (.step t (f k))).bind (steps? t f n (k + 1))

/-- thread `t` goes on until it returns -/
def finish? (t : Tid) (f : Nat → Input) : Nat → Nat → Sys → Option Sys
  | 0, _, _ => none
  | n + 1, k, s =>
    match s.threads t with
    | none => some s
    | some _ => (s.label? env ok (.step t (f k))).bind (finish? t f n (k + 1))

/-- the operation runs alone until it returns -/
def call? (t : Tid) (op : Op) (f : Nat → Input) (s : Sys) : Option Sys :=
  (s.label? env ok (.start t op)).bind (finish? env ok t f 500 0)

/-- a process opens the store and recovers -/
def open? (config : Config) (bootId : Uuid) (now : Int) (f : Nat → Input) (s : Sys) : Option Sys :=
  (s.next env (.restart config bootId now)).bind (finish? env ok openingTid f 500 0)

end Sys

theorem Sys.label?_eq_some {env : Env} {ok : Sys → Label → Bool} {s s' : Sys} {l : Label} :
    s.label? env ok l = some s' ↔ ok s l = true ∧ s.next env l = some s' := by
  unfold Sys.label?
  split
  · next hl => exact ⟨fun h => ⟨hl, h⟩, And.right⟩
  · next hl => exact ⟨nofun, fun h => absurd h.1 hl⟩

section
variable {env : Env} {mode : Mode} {ok : Sys → Label → Bool} {s s' : Sys}
  (hok : ∀ s l, ok s l = true → mode s l)
include hok

theorem Reach.label? {l : Label} (h : Reach env mode s) (hs : s.label? env ok l = some s') :
    Reach env mode s' := by
  obtain ⟨hl, hn⟩ := Sys.label?_eq_some.mp hs
  exact .next l h (hok s l hl) hn

theorem Reach.steps? {t : Tid} {f : Nat → Input} {n k : Nat} (h : Reach env mode s)
    (hs : s.steps? env ok t f n k = some s') : Reach env mode s' := by
  induction n generalizing k s with
  | zero =>
    cases hs
    exact h
  | succ n ih =>
    obtain ⟨s₁, hn, hs⟩ := Option.bind_eq_some_iff.mp hs
    exact ih (h.label? hok hn) hs

theorem Reach.finish? {t : Tid} {f : Nat → Input} {n k : Nat} (h : Reach env mode s)
    (hs : s.finish? env ok t f n k = some s') : Reach env mode s' := by
  induction n generalizing k s with
  | zero => cases hs
  | succ n ih =>
    unfold Sys.finish? at hs
    split at hs
    · cases hs
      exact h
    · obtain ⟨s₁, hn, hs⟩ := Option.bind_eq_some_iff.mp hs
      exact ih (h.label? hok hn) hs

theorem Reach.call? {t : Tid} {op : Op} {f : Nat → Input} (h : Reach env mode s)
    (hs : s.call? env ok t op f = some s') : Reach env mode s' := by
  obtain ⟨s₁, hn, hs⟩ := Option.bind_eq_some_iff.mp hs
  exact (h.label? hok hn).finish? hok hs

theorem Reach.open? {config : Config} {bootId : Uuid} {now : Int} {f : Nat → Input}
    (h : Reach env mode s) (hm : mode s (.restart config bootId now))
    (hs : s.open? env ok config bootId now f = some s') : Reach env mode s' := by
  obtain ⟨s₁, hn, hs⟩ := Option.bind_eq_some_iff.mp hs
  exact (Reach.next _ h hm hn).finish? hok hs

end

/-! ## quiet moments -/

namespace Sys

variable {env : Env} {ok : Sys → Label → Bool} {s s' : Sys} {t : Tid}

theorem advance_threads {th : Thread} {u : Tid} (hu : u ≠ t) :
    (s.advance t th).threads u = s.threads u := by
  unfold advance
  split
  · exact if_neg hu
  · exact if_neg hu

theorem step_threads {i : Input} {u : Tid} (h : s.next env (.step t i) = some s') (hu : u ≠ t) :
    s'.threads u = s.threads u := by
  simp only [next] at h
  split at h
  · cases h
  · split at h
    · cases h
    · split at h
      · cases h
      · cases h
        exact advance_threads hu

theorem finish?_quiescent {f : Nat → Input} {n k : Nat} (hq : ∀ u, u ≠ t → s.threads u = none)
    (h : s.finish? env ok t f n k = some s') : s'.Quiescent := by
  induction n generalizing k s with
  | zero => cases h
  | succ n ih =>
    unfold finish? at h
    split at h
    · next hnone =>
      cases h
      intro u
      by_cases hu : u = t
      · rw [hu]
        exact hnone
      · exact hq u hu
    · obtain ⟨s₁, hn, h⟩ := Option.bind_eq_some_iff.mp h
      unfold label? at hn
      split at hn
      · exact ih (fun u hu => (step_threads hn hu).trans (hq u hu)) h
      · cases hn

theorem start_threads {op : Op} {u : Tid} (h : s.next env (.start t op) = some s') (hu : u ≠ t) :
    s'.threads u = s.threads u := by
  simp only [next] at h
  split at h
  · cases h
    exact advance_threads hu
  · cases h

theorem call?_quiescent {op : Op} {f : Nat → Input} (hq : s.Quiescent)
    (h : s.call? env ok t op f = some s') : s'.Quiescent := by
  obtain ⟨s₁, hn, h⟩ := Option.bind_eq_some_iff.mp h
  unfold label? at hn
  split at hn
  · exact finish?_quiescent (fun u hu => (start_threads hn hu).trans (hq u)) h
  · cases hn

theorem open?_quiescent {config : Config} {bootId : Uuid} {now : Int} {f : Nat → Input}
    (h : s.open? env ok config bootId now f = some s') : s'.Quiescent := by
  obtain ⟨s₁, hn, h⟩ := Option.bind_eq_some_iff.mp h
  refine finish?_quiescent (fun u hu => ?_) h
  have hn : s.restart env config bootId now = some s₁ := hn
  unfold restart at hn
  split at hn
  · cases hn
  · split at hn
    · cases hn
    · cases hn
      exact if_neg hu

end Sys

/-! ## a small deployment -/

namespace Sample

/-- the bytes as digits: no two payloads have the same value as long as they are short -/
def env : Env where
  sha256 := fun d => ⟨Fin.ofNat _ (d.foldl (fun n b => n * 257 + b.toNat + 1) 0)⟩
  zstdEncode := fun d => .ok (0x28 :: d)
  zstdDecode := fun d => .ok (d.drop 1)
  decodeBase64 := fun s => .ok (s.toList.map fun c => UInt8.ofNat c.toNat)
  volatile := fun _ => false

def config : Config where
  processId := "p"
  reservationTtlMs := 60000
  nodeHeartbeatTimeoutMs := 10000
  backends := [("disk", ⟨"disk", fun _ => .ok ()⟩)]
  archives := [⟨"vault", fun _ => .ok ()⟩]
  nodes := []

def uuid (n : Nat) : Uuid := ⟨Fin.ofNat _ n⟩

/-- the policy asks for a reclaim -/
def verdict : PolicyDecision :=
  ⟨⟨.nil, 1, .reclaim, .dec 1 0, .dec 0 0, "default", "1", 1⟩, .null⟩

/-- nothing fails; the `k`-th step draws the identifier `n + k` -/
def calm (n : Nat) (k : Nat) : Input :=
  { time := 1000, uuid := uuid (n + k), order := [0], decision := .ok verdict }

/-- the `j`-th step fails -/
def failing (j : Nat) (n : Nat) (k : Nat) : Input :=
  if k = j then { calm n k with fault := some (.persistence "disk full") } else calm n k

/-- an ephemeral object with a recomputation recipe -/
def object (n : Nat) : ReclaimObject :=
  { ReclaimObject.new (uuid n) 1 "kv" 1 0 with
    durabilityClass := .ephemeral, recomputeCost := some (.dec 1 0) }

def register (o : ReclaimObject) (payload : String) : Op :=
  .createObject ⟨o, some payload, some "disk", []⟩

def reclaim (n : Nat) : Op := .reclaim ⟨uuid n, "client", false⟩

section
variable (ok : Sys → Label → Bool)

/-- the store has been opened -/
def opened : Option Sys := Sys.init.open? env ok config (uuid 1) 5000 (calm 100)

/-- the next operation of a client, fault-free -/
def after (x : Option Sys) (op : Op) (n : Nat) : Option Sys :=
  x.bind fun s => s.call? env ok 1 op (calm n)

/-- thread `t` has started the operation and made `k` steps -/
def during (t : Tid) (x : Option Sys) (op : Op) (f : Nat → Input) (k : Nat) : Option Sys :=
  x.bind fun s => (s.label? env ok (.start t op)).bind fun s => s.steps? env ok t f k 0

end

/-- the states of a script are reached -/
def Reached (mode : Mode) (x : Option Sys) : Prop := ∀ s, x = some s → Reach env mode s

section
variable {mode : Mode} {ok : Sys → Label → Bool} (hok : ∀ s l, ok s l = true → mode s l)
include hok

theorem reached_opened (hm : mode Sys.init (.restart config (uuid 1) 5000)) :
    Reached mode (opened ok) := fun _ h => Reach.init.open? hok hm h

theorem Reached.after {x : Option Sys} {op : Op} {n : Nat} (hx : Reached mode x) :
    Reached mode (after ok x op n) := by
  intro s h
  obtain ⟨s₁, h₁, h⟩ := Option.bind_eq_some_iff.mp h
  exact (hx s₁ h₁).call? hok h

theorem Reached.during {x : Option Sys} {t : Tid} {op : Op} {f : Nat → Input} {k : Nat}
    (hx : Reached mode x) : Reached mode (during ok t x op f k) := by
  intro s h
  obtain ⟨s₁, h₁, h⟩ := Option.bind_eq_some_iff.mp h
  obtain ⟨s₂, hn, h⟩ := Option.bind_eq_some_iff.mp h
  exact ((hx s₁ h₁).label? hok hn).steps? hok h

end

/-- no check -/
def free : Sys → Label → Bool := fun _ _ => true

theorem free_ok (s : Sys) (l : Label) (_ : free s l = true) : anyRun s l := trivial

end Sample

end ReclaimFabric
