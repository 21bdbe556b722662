import ReclaimFabric.Protocol.Guards
import ReclaimFabric.Protocol.Script

/-!
# Guards exclude each other

The process memory records what the threads hold (`Recorded`), whatever the interleaving, the
answers of the environment and the faults.

* `Recorded.exec`   a command that a thread may issue keeps the record;
* `Gripped`         every thread goes on as its grip allows, and the memory records the grips;
* `Reach.gripped`   so it is in every state of every run;
* `Excluded`        what the guards promise about one label of a run.
-/

set_option linter.unusedSectionVars false

namespace ReclaimFabric

/-! ## the record -/

/-- the process memory agrees with what one thread holds -/
structure Entry (p : Proc) (t : Tid) (g : Grip) : Prop where
  mutex : g.mutex = true ↔ p.mutex = some t
  object : ∀ X, (X, t) ∈ p.activeObjects ↔ g.object = some X
  keys : ∀ k, (k, t) ∈ p.activePayloads ↔ k ∈ g.keys
  recovering : g.recovering = true ↔ p.activeRecovery = some t
  cleared : ∀ a b, g.cleared = some (a, b) → g.mutex = true ∧ p.activeRecovery = none ∧
    ∀ u, (a, u) ∉ p.activeObjects ∧ (b, u) ∉ p.activeObjects

/-- the process memory agrees with what the threads hold, and nothing is held twice -/
structure Recorded (p : Proc) (grip : Tid → Grip) : Prop where
  entry : ∀ t, Entry p t (grip t)
  single : (p.activeObjects.map Prod.fst).Nodup
  disjoint : (p.activePayloads.map Prod.fst).Nodup
  alone : p.activeRecovery.isSome = true → p.activeObjects = [] ∧ p.activePayloads = []

section
variable {env : Env} {t : Tid} {c : Cmd} {i : Input} {w w' : World} {r : c.Reply}
  {p p' : Proc} {grip : Tid → Grip} {g : Grip}

theorem Entry.congr (h : Entry p t g) (hg : p'.guards = p.guards) (hm : p'.mutex = p.mutex) :
    Entry p' t g := by
  have ho : p'.activeObjects = p.activeObjects := congrArg Guards.activeObjects hg
  have hp : p'.activePayloads = p.activePayloads := congrArg Guards.activePayloads hg
  have hr : p'.activeRecovery = p.activeRecovery := congrArg Guards.activeRecovery hg
  constructor
  · rw [hm]
    exact h.mutex
  · rw [ho]
    exact h.object
  · rw [hp]
    exact h.keys
  · rw [hr]
    exact h.recovering
  · rw [hr, ho]
    exact h.cleared

theorem Recorded.congr (h : Recorded p grip) (hg : p'.guards = p.guards)
    (hm : p'.mutex = p.mutex) : Recorded p' grip := by
  have ho : p'.activeObjects = p.activeObjects := congrArg Guards.activeObjects hg
  have hp : p'.activePayloads = p.activePayloads := congrArg Guards.activePayloads hg
  have hr : p'.activeRecovery = p.activeRecovery := congrArg Guards.activeRecovery hg
  constructor
  · exact fun t => (h.entry t).congr hg hm
  · rw [ho]
    exact h.single
  · rw [hp]
    exact h.disjoint
  · rw [hr, ho, hp]
    exact h.alone

/-- one thread changes its entry -/
theorem Recorded.update (hmine : Entry p t g) (hothers : ∀ u, u ≠ t → Entry p u (grip u))
    (hsingle : (p.activeObjects.map Prod.fst).Nodup)
    (hdisjoint : (p.activePayloads.map Prod.fst).Nodup)
    (halone : p.activeRecovery.isSome = true → p.activeObjects = [] ∧ p.activePayloads = []) :
    Recorded p (Function.update grip t g) := by
  refine ⟨?_, hsingle, hdisjoint, halone⟩
  intro u
  by_cases hu : u = t
  · subst hu
    rw [Function.update_self]
    exact hmine
  · rw [Function.update_of_ne hu]
    exact hothers u hu

/-- which row a thread wrote last is not recorded -/
theorem Recorded.note {n : Option (Uuid × LifecycleState)} (h : Recorded p grip) :
    Recorded p (Function.update grip t { grip t with noted := n }) := by
  have ht := h.entry t
  apply Recorded.update
  · exact ⟨ht.mutex, ht.object, ht.keys, ht.recovering, ht.cleared⟩
  · exact fun u _ => h.entry u
  · exact h.single
  · exact h.disjoint
  · exact h.alone

theorem Recorded.same_object (h : Recorded p grip) {X : Uuid} {u v : Tid}
    (hu : (X, u) ∈ p.activeObjects) (hv : (X, v) ∈ p.activeObjects) : u = v :=
  congrArg Prod.snd (List.inj_on_of_nodup_map h.single hu hv rfl)

theorem Recorded.same_key (h : Recorded p grip) {k : String × ContentHash} {u v : Tid}
    (hu : (k, u) ∈ p.activePayloads) (hv : (k, v) ∈ p.activePayloads) : u = v :=
  congrArg Prod.snd (List.inj_on_of_nodup_map h.disjoint hu hv rfl)

/-- who does not hold the mutex has found no endpoints idle -/
theorem Entry.uncleared (h : Entry p t g) (hm : p.mutex ≠ some t) : g.cleared = none := by
  cases hc : g.cleared with
  | none => rfl
  | some e => exact absurd (h.mutex.mp (h.cleared e.1 e.2 hc).1) hm

/-! ## commands that concern no guard -/

/-- the commands that concern neither the mutex nor a guard nor an edge -/
def Cmd.apart : Cmd → Bool
  | .lock | .unlock | .insertActiveObject _ | .removeActiveObject _ | .pollPayloads _
  | .removeActivePayloads _ | .insertActiveRecovery | .removeActiveRecovery | .lineageBusy _ _
  | .store (.addLineageEdge _ _ _) | .store (.removeLineageEdge _ _ _) => false
  | _ => true

/-- they change nothing of what a thread holds but the row it wrote last -/
theorem after_apart (hc : c.apart = true) (g : Grip) : ∃ n, g.after c r = { g with noted := n } := by
  cases c with
  | loadAuthorityLost => exact ⟨none, rfl⟩
  | store so =>
    cases so with
    | updateObject o =>
      cases r with
      | ok u => exact ⟨_, rfl⟩
      | error e => exact ⟨g.noted, rfl⟩
    | createObject o =>
      cases r with
      | ok u => exact ⟨_, rfl⟩
      | error e => exact ⟨g.noted, rfl⟩
    | addLineageEdge p q k => cases hc
    | removeLineageEdge p q k => cases hc
    | _ => exact ⟨g.noted, rfl⟩
  | _ => first | exact ⟨g.noted, rfl⟩ | cases hc

/-- the store methods other than the two on edges leave the edges alone -/
theorem StoreOp.run_lineage {so : StoreOp} (hc : (Cmd.store so).apart = true) {x x' : Store}
    {a : so.Out} (h : so.run x = .ok (a, x')) : x'.lineage = x.lineage := by
  by_cases hcalm : so.calm = true
  · exact congrArg Data.lineage (StoreOp.run_calm hcalm h)
  by_cases hm : so.mild = true
  · exact (StoreOp.run_mild hm h).2.1
  · cases so with
    | createObject o =>
      obtain ⟨_, _, T, _, hd⟩ := Store.createObject_ok h
      exact congrArg Data.lineage hd
    | createObjectWithAudits o as =>
      obtain ⟨_, _, T, _, hd⟩ := Store.createObjectWithAudits_ok h
      exact congrArg Data.lineage hd
    | updateObject o =>
      obtain ⟨_, _, _, hd⟩ := Store.updateObject_ok h
      exact congrArg Data.lineage hd
    | updateObjectWithAudit o a =>
      obtain ⟨_, _, _, hd⟩ := Store.updateObjectWithAudit_ok h
      exact congrArg Data.lineage hd
    | appendAudit a => exact absurd rfl hcalm
    | createReclaimReservation j v a =>
      obtain ⟨J, V, A, _, _, _, hd⟩ := Store.createReclaimReservation_ok h
      exact congrArg Data.lineage hd
    | updateJournalPhase id phase now =>
      obtain ⟨_, _, T, _, _, _, _, hd⟩ := Store.updateJournalPhase_ok h
      exact congrArg Data.lineage hd
    | startJournalPhysical id payload now =>
      obtain ⟨_, T, _, _, _, hd⟩ := Store.startJournalPhysical_ok h
      exact congrArg Data.lineage hd
    | addLineageEdge p c k => cases hc
    | removeLineageEdge p c k => cases hc
    | _ => exact absurd rfl hm

/-- a store call leaves the process memory alone, and fails or runs -/
theorem exec_store {so : StoreOp} {a : Res so.Out}
    (h : exec env t (.store so) i w = some (a, w')) :
    w'.proc = w.proc ∧ ((∃ e, a = .error e ∧ w'.store = w.store) ∨
      ∃ b, a = .ok b ∧ so.run w.store = .ok (b, w'.store)) := by
  simp only [exec, Option.some.injEq] at h
  unfold execStore at h
  split at h
  · cases h
    exact ⟨rfl, .inl ⟨_, rfl, rfl⟩⟩
  · split at h
    · cases h
      exact ⟨rfl, .inl ⟨_, rfl, rfl⟩⟩
    · next b x hrun =>
      cases h
      exact ⟨rfl, .inr ⟨b, rfl, hrun⟩⟩

/-- what a command that is about neither a guard nor an edge leaves alone -/
structure Aside (w w' : World) : Prop where
  guards : w'.proc.guards = w.proc.guards
  mutex : w'.proc.mutex = w.proc.mutex
  lineage : w'.store.lineage = w.store.lineage

theorem exec_apart (hc : c.apart = true) (h : exec env t c i w = some (r, w')) : Aside w w' := by
  have hpayload {b k : String} (hk : w' = w ∨ ∃ v, w' = w.setPayload b k v) : Aside w w' := by
    rcases hk with rfl | ⟨v, rfl⟩
    · exact ⟨rfl, rfl, rfl⟩
    · exact ⟨rfl, rfl, rfl⟩
  have hblob {b k : String} (hk : w' = w ∨ ∃ v, w' = w.setBlob b k v) : Aside w w' := by
    rcases hk with rfl | ⟨v, rfl⟩
    · exact ⟨rfl, rfl, rfl⟩
    · exact ⟨rfl, rfl, rfl⟩
  by_cases hcalm : c.calm = true
  · have hk := exec_calm hcalm h
    exact ⟨hk.guards, hk.mutex, congrArg Data.lineage hk.data⟩
  · cases c with
    | store so =>
      obtain ⟨hp, hs⟩ := exec_store h
      refine ⟨congrArg Proc.guards hp, congrArg Proc.mutex hp, ?_⟩
      rcases hs with ⟨_, -, hs⟩ | ⟨b, -, hrun⟩
      · rw [hs]
      · exact StoreOp.run_lineage hc hrun
    | put b k d => exact @hpayload b k (exec_onPayload (by exact decide_eq_true ⟨rfl, rfl⟩) h)
    | delete b k => exact @hpayload b k (exec_onPayload (by exact decide_eq_true ⟨rfl, rfl⟩) h)
    | node n b k op => exact @hpayload b k (exec_onPayload (by exact decide_eq_true ⟨rfl, rfl⟩) h)
    | archiveWrite a k d x => exact @hblob a k (exec_onBlob (by exact decide_eq_true ⟨rfl, rfl⟩) h)
    | archiveDelete a k => exact @hblob a k (exec_onBlob (by exact decide_eq_true ⟨rfl, rfl⟩) h)
    | _ => first | exact absurd rfl hcalm | cases hc

/-! ## commands on guards -/

section
variable (h : Recorded w.proc grip)
include h

theorem Recorded.lock (he : exec env t .lock i w = some ((), w')) :
    Recorded w'.proc (Function.update grip t ((grip t).after .lock ())) := by
  simp only [exec] at he
  split at he
  · next hfree =>
    cases he
    have hnone : w.proc.mutex = none := Option.isNone_iff_eq_none.mp hfree
    have hno : ∀ u, (grip u).cleared = none := by
      intro u
      apply (h.entry u).uncleared
      rw [hnone]
      exact fun hu => by cases hu
    apply Recorded.update
    · have hm := h.entry t
      refine ⟨⟨fun _ => rfl, fun _ => rfl⟩, hm.object, hm.keys, hm.recovering, ?_⟩
      intro a b hc
      exact absurd ((hno t).symm.trans hc) (by simp)
    · intro u hu
      have hm := h.entry u
      refine ⟨?_, hm.object, hm.keys, hm.recovering, ?_⟩
      · rw [hm.mutex, hnone]
        exact ⟨fun hx => (by cases hx), fun hx => absurd (Option.some.inj hx).symm hu⟩
      · intro a b hc
        exact absurd ((hno u).symm.trans hc) (by simp)
    · exact h.single
    · exact h.disjoint
    · exact h.alone
  · cases he

theorem Recorded.unlock (ha : (grip t).allows .unlock = true)
    (he : exec env t .unlock i w = some ((), w')) :
    Recorded w'.proc (Function.update grip t ((grip t).after .unlock ())) := by
  cases he
  have hmine : w.proc.mutex = some t := (h.entry t).mutex.mp ha
  apply Recorded.update
  · have hm := h.entry t
    refine ⟨⟨fun hx => (by cases hx), fun hx => (by cases hx)⟩, hm.object, hm.keys, hm.recovering, ?_⟩
    intro a b hc
    cases hc
  · intro u hu
    have hm := h.entry u
    have hne : w.proc.mutex ≠ some u := by
      rw [hmine]
      exact fun hx => hu (Option.some.inj hx).symm
    refine ⟨?_, hm.object, hm.keys, hm.recovering, ?_⟩
    · exact ⟨fun hx => absurd (hm.mutex.mp hx) hne, fun hx => (by cases hx)⟩
    · intro a b hc
      exact absurd ((hm.uncleared hne).symm.trans hc) (by simp)
  · exact h.single
  · exact h.disjoint
  · exact h.alone

theorem Recorded.insertActiveObject {id : Uuid} {a : Res Unit}
    (ha : (grip t).allows (.insertActiveObject id) = true)
    (he : exec env t (.insertActiveObject id) i w = some (a, w')) :
    Recorded w'.proc (Function.update grip t ((grip t).after (.insertActiveObject id) a)) := by
  have hself : Function.update grip t (grip t) = grip := Function.update_eq_self t grip
  simp only [Grip.allows, Bool.and_eq_true, decide_eq_true_eq, Option.isNone_iff_eq_none] at ha
  obtain ⟨⟨⟨hmutex, -⟩, hobject⟩, hcleared⟩ := ha
  have hmine : w.proc.mutex = some t := (h.entry t).mutex.mp hmutex
  have hout : ∀ X, (X, t) ∉ w.proc.activeObjects := by
    intro X hX
    rw [(h.entry t).object, hobject] at hX
    cases hX
  simp only [exec, execInsertActiveObject, Option.some.injEq] at he
  split at he
  · cases he
    rw [show (grip t).after (.insertActiveObject id) (.error _) = grip t from rfl, hself]
    exact h
  · next hrec =>
    have hrec : w.proc.activeRecovery = none := by simpa using hrec
    split at he
    · cases he
      rw [show (grip t).after (.insertActiveObject id) (.error _) = grip t from rfl, hself]
      exact h
    · next hfree =>
      cases he
      have hno : ∀ u, (id, u) ∉ w.proc.activeObjects := by
        intro u hu
        apply hfree
        exact List.any_eq_true.mpr ⟨_, hu, decide_eq_true rfl⟩
      apply Recorded.update
      · have hm := h.entry t
        refine ⟨hm.mutex, ?_, hm.keys, hm.recovering, ?_⟩
        · intro X
          show (X, t) ∈ (id, t) :: w.proc.activeObjects ↔ some id = some X
          rw [List.mem_cons]
          constructor
          · rintro (hx | hx)
            · rw [(Prod.mk.inj hx).1]
            · exact absurd hx (hout X)
          · intro hx
            rw [Option.some.inj hx]
            exact .inl rfl
        · intro a b hc
          exact absurd (hcleared.symm.trans hc) (by simp)
      · intro u hu
        have hm := h.entry u
        have hne : w.proc.mutex ≠ some u := by
          rw [hmine]
          exact fun hx => hu (Option.some.inj hx).symm
        refine ⟨hm.mutex, ?_, hm.keys, hm.recovering, ?_⟩
        · intro X
          show (X, u) ∈ (id, t) :: w.proc.activeObjects ↔ _
          rw [List.mem_cons, ← hm.object]
          constructor
          · rintro (hx | hx)
            · exact absurd (Prod.mk.inj hx).2 hu
            · exact hx
          · exact .inr
        · intro a b hc
          exact absurd ((hm.uncleared hne).symm.trans hc) (by simp)
      · show ((id :: w.proc.activeObjects.map Prod.fst)).Nodup
        apply List.nodup_cons.mpr
        refine ⟨?_, h.single⟩
        intro hx
        obtain ⟨e, he, hid⟩ := List.mem_map.mp hx
        subst hid
        exact hno e.2 he
      · exact h.disjoint
      · intro hsome
        rw [show _ = w.proc.activeRecovery from rfl, hrec] at hsome
        cases hsome

theorem Recorded.removeActiveObject {id : Uuid} {a : Unit}
    (ha : (grip t).allows (.removeActiveObject id) = true)
    (he : exec env t (.removeActiveObject id) i w = some (a, w')) :
    Recorded w'.proc (Function.update grip t ((grip t).after (.removeActiveObject id) a)) := by
  have hmine : (id, t) ∈ w.proc.activeObjects :=
    ((h.entry t).object id).mpr (of_decide_eq_true (Bool.and_eq_true_iff.mp ha).2)
  have hin : ∀ e, e ∈ w.proc.activeObjects.filter (fun e => decide (e.1 ≠ id)) ↔
      e ∈ w.proc.activeObjects ∧ e.1 ≠ id := by
    intro e
    rw [List.mem_filter, decide_eq_true_iff]
  simp only [exec] at he
  split at he
  · cases he
    apply Recorded.update
    · have hm := h.entry t
      refine ⟨hm.mutex, ?_, hm.keys, hm.recovering, ?_⟩
      · intro X
        show (X, t) ∈ w.proc.activeObjects.filter _ ↔ none = some X
        rw [hin]
        constructor
        · rintro ⟨hx, hne⟩
          have := ((hm.object X).mp hx).symm.trans ((hm.object id).mp hmine)
          exact absurd (Option.some.inj this) hne
        · intro hx
          cases hx
      · intro a b hc
        obtain ⟨h₁, h₂, h₃⟩ := hm.cleared a b hc
        refine ⟨h₁, h₂, fun u => ⟨fun hx => (h₃ u).1 ?_, fun hx => (h₃ u).2 ?_⟩⟩
        · exact ((hin _).mp hx).1
        · exact ((hin _).mp hx).1
    · intro u hu
      have hm := h.entry u
      refine ⟨hm.mutex, ?_, hm.keys, hm.recovering, ?_⟩
      · intro X
        show (X, u) ∈ w.proc.activeObjects.filter _ ↔ _
        rw [hin, ← hm.object]
        refine ⟨fun hx => hx.1, fun hx => ⟨hx, ?_⟩⟩
        rintro rfl
        exact hu (h.same_object hx hmine)
      · intro a b hc
        obtain ⟨h₁, h₂, h₃⟩ := hm.cleared a b hc
        refine ⟨h₁, h₂, fun u => ⟨fun hx => (h₃ u).1 ?_, fun hx => (h₃ u).2 ?_⟩⟩
        · exact ((hin _).mp hx).1
        · exact ((hin _).mp hx).1
    · exact h.single.sublist (List.filter_sublist.map _)
    · exact h.disjoint
    · intro hsome
      obtain ⟨ho, hp⟩ := h.alone hsome
      refine ⟨?_, hp⟩
      show w.proc.activeObjects.filter _ = []
      rw [ho]
      rfl
  · cases he

theorem Recorded.pollPayloads {ks : List (String × ContentHash)} {a : Bool}
    (ha : (grip t).allows (.pollPayloads ks) = true)
    (he : exec env t (.pollPayloads ks) i w = some (a, w')) :
    Recorded w'.proc (Function.update grip t ((grip t).after (.pollPayloads ks) a)) := by
  have hself : Function.update grip t (grip t) = grip := Function.update_eq_self t grip
  simp only [Grip.allows, Bool.and_eq_true, decide_eq_true_eq] at ha
  obtain ⟨⟨-, hkeys⟩, hnodup⟩ := ha
  have hout : ∀ k, (k, t) ∉ w.proc.activePayloads := by
    intro k hk
    rw [(h.entry t).keys, hkeys] at hk
    exact absurd hk List.not_mem_nil
  have hin : ∀ (k : String × ContentHash) (u : Tid),
      (k, u) ∈ ks.map (fun k => (k, t)) ++ w.proc.activePayloads ↔
        (k ∈ ks ∧ u = t) ∨ (k, u) ∈ w.proc.activePayloads := by
    intro k u
    rw [List.mem_append, List.mem_map]
    constructor
    · rintro (⟨x, hx, he⟩ | hx)
      · cases he
        exact .inl ⟨hx, rfl⟩
      · exact .inr hx
    · rintro (⟨hx, rfl⟩ | hx)
      · exact .inl ⟨k, hx, rfl⟩
      · exact .inr hx
  simp only [exec] at he
  split at he
  · simp only [execPollPayloads, Option.some.injEq] at he
    split at he
    · next hfree =>
      cases he
      have hrec : w.proc.activeRecovery = none := by simpa using hfree.1
      apply Recorded.update
      · have hm := h.entry t
        refine ⟨hm.mutex, hm.object, ?_, hm.recovering, hm.cleared⟩
        intro k
        show (k, t) ∈ ks.map _ ++ w.proc.activePayloads ↔ k ∈ ks
        rw [hin]
        constructor
        · rintro (hx | hx)
          · exact hx.1
          · exact absurd hx (hout k)
        · exact fun hx => .inl ⟨hx, rfl⟩
      · intro u hu
        have hm := h.entry u
        refine ⟨hm.mutex, hm.object, ?_, hm.recovering, hm.cleared⟩
        intro k
        show (k, u) ∈ ks.map _ ++ w.proc.activePayloads ↔ _
        rw [hin, ← hm.keys]
        constructor
        · rintro (hx | hx)
          · exact absurd hx.2 hu
          · exact hx
        · exact .inr
      · exact h.single
      · show ((ks.map (fun k => (k, t)) ++ w.proc.activePayloads).map Prod.fst).Nodup
        rw [List.map_append, List.map_map]
        show (ks.map id ++ _).Nodup
        rw [List.map_id, List.nodup_append]
        refine ⟨hnodup, h.disjoint, ?_⟩
        intro k hk k' hk' heq
        subst heq
        obtain ⟨e, he, hek⟩ := List.mem_map.mp hk'
        exact absurd hek (of_decide_eq_true (List.all_eq_true.mp (hfree.2 k hk) e he))
      · intro hsome
        rw [show _ = w.proc.activeRecovery from rfl, hrec] at hsome
        cases hsome
    · cases he
      rw [show (grip t).after (.pollPayloads ks) false = grip t from rfl, hself]
      exact h
  · cases he

theorem Recorded.removeActivePayloads {ks : List (String × ContentHash)} {a : Unit}
    (ha : (grip t).allows (.removeActivePayloads ks) = true)
    (he : exec env t (.removeActivePayloads ks) i w = some (a, w')) :
    Recorded w'.proc (Function.update grip t ((grip t).after (.removeActivePayloads ks) a)) := by
  have hkeys : (grip t).keys = ks := of_decide_eq_true (Bool.and_eq_true_iff.mp ha).2
  have hin : ∀ e, e ∈ w.proc.activePayloads.filter (fun e => decide (e.1 ∉ ks)) ↔
      e ∈ w.proc.activePayloads ∧ e.1 ∉ ks := by
    intro e
    rw [List.mem_filter, decide_eq_true_iff]
  simp only [exec] at he
  split at he
  · cases he
    apply Recorded.update
    · have hm := h.entry t
      refine ⟨hm.mutex, hm.object, ?_, hm.recovering, hm.cleared⟩
      intro k
      show (k, t) ∈ w.proc.activePayloads.filter _ ↔ k ∈ []
      rw [hin, hm.keys, hkeys]
      exact ⟨fun hx => absurd hx.1 hx.2, fun hx => absurd hx List.not_mem_nil⟩
    · intro u hu
      have hm := h.entry u
      refine ⟨hm.mutex, hm.object, ?_, hm.recovering, hm.cleared⟩
      intro k
      show (k, u) ∈ w.proc.activePayloads.filter _ ↔ _
      rw [hin, ← hm.keys]
      refine ⟨fun hx => hx.1, fun hx => ⟨hx, ?_⟩⟩
      intro hk
      rw [← hkeys, ← (h.entry t).keys] at hk
      exact hu (h.same_key hx hk)
    · exact h.single
    · exact h.disjoint.sublist (List.filter_sublist.map _)
    · intro hsome
      obtain ⟨ho, hp⟩ := h.alone hsome
      refine ⟨ho, ?_⟩
      show w.proc.activePayloads.filter _ = []
      rw [hp]
      rfl
  · cases he

theorem Recorded.insertActiveRecovery {a : Res Unit}
    (ha : (grip t).allows .insertActiveRecovery = true)
    (he : exec env t .insertActiveRecovery i w = some (a, w')) :
    Recorded w'.proc (Function.update grip t ((grip t).after .insertActiveRecovery a)) := by
  have hself : Function.update grip t (grip t) = grip := Function.update_eq_self t grip
  simp only [Grip.allows, Bool.and_eq_true, decide_eq_true_eq, Option.isNone_iff_eq_none] at ha
  obtain ⟨⟨⟨hmutex, -⟩, -⟩, hcleared⟩ := ha
  have hmine : w.proc.mutex = some t := (h.entry t).mutex.mp hmutex
  simp only [exec, execInsertActiveRecovery, Option.some.injEq] at he
  split at he
  · cases he
    rw [show (grip t).after .insertActiveRecovery (.error _) = grip t from rfl, hself]
    exact h
  · next hfree =>
    cases he
    simp only [not_or, not_not] at hfree
    obtain ⟨hrec, hobjects, hpayloads⟩ := hfree
    have hrec : w.proc.activeRecovery = none := by simpa using hrec
    apply Recorded.update
    · have hm := h.entry t
      refine ⟨hm.mutex, hm.object, hm.keys, ⟨fun _ => rfl, fun _ => rfl⟩, ?_⟩
      intro a b hc
      exact absurd (hcleared.symm.trans hc) (by simp)
    · intro u hu
      have hm := h.entry u
      have hne : w.proc.mutex ≠ some u := by
        rw [hmine]
        exact fun hx => hu (Option.some.inj hx).symm
      refine ⟨hm.mutex, hm.object, hm.keys, ?_, ?_⟩
      · rw [hm.recovering, hrec]
        exact ⟨fun hx => (by cases hx), fun hx => absurd (Option.some.inj hx).symm hu⟩
      · intro a b hc
        exact absurd ((hm.uncleared hne).symm.trans hc) (by simp)
    · exact h.single
    · exact h.disjoint
    · exact fun _ => ⟨hobjects, hpayloads⟩

theorem Recorded.removeActiveRecovery {a : Unit}
    (ha : (grip t).allows .removeActiveRecovery = true)
    (he : exec env t .removeActiveRecovery i w = some (a, w')) :
    Recorded w'.proc (Function.update grip t ((grip t).after .removeActiveRecovery a)) := by
  have hmine : w.proc.activeRecovery = some t :=
    (h.entry t).recovering.mp (Bool.and_eq_true_iff.mp ha).2
  have hno : ∀ u a b, (grip u).cleared ≠ some (a, b) := by
    intro u a b hc
    have := ((h.entry u).cleared a b hc).2.1
    rw [hmine] at this
    cases this
  simp only [exec] at he
  split at he
  · cases he
    apply Recorded.update
    · have hm := h.entry t
      refine ⟨hm.mutex, hm.object, hm.keys, ?_, fun a b hc => absurd hc (hno t a b)⟩
      exact ⟨fun hx => (by cases hx), fun hx => (by cases hx)⟩
    · intro u hu
      have hm := h.entry u
      refine ⟨hm.mutex, hm.object, hm.keys, ?_, fun a b hc => absurd hc (hno u a b)⟩
      rw [hm.recovering, hmine]
      exact ⟨fun hx => absurd (Option.some.inj hx).symm hu, fun hx => (by cases hx)⟩
    · exact h.single
    · exact h.disjoint
    · exact fun hx => (by cases hx)
  · cases he

theorem Recorded.lineageBusy {x y : Uuid} {a : Bool}
    (ha : (grip t).allows (.lineageBusy x y) = true)
    (he : exec env t (.lineageBusy x y) i w = some (a, w')) :
    Recorded w'.proc (Function.update grip t ((grip t).after (.lineageBusy x y) a)) := by
  simp only [exec, Option.some.injEq, Prod.mk.injEq] at he
  obtain ⟨hbusy, rfl⟩ := he
  have hm := h.entry t
  apply Recorded.update
  · refine ⟨hm.mutex, hm.object, hm.keys, hm.recovering, ?_⟩
    intro x' y' hc
    cases a with
    | true => cases hc
    | false =>
      cases hc
      simp only [Bool.or_eq_false_iff, Option.isSome_eq_false_iff, List.any_eq_false,
        decide_eq_true_eq] at hbusy
      obtain ⟨⟨hrec, hx⟩, hy⟩ := hbusy
      exact ⟨ha, Option.isNone_iff_eq_none.mp hrec, fun u => ⟨fun hu => hx _ hu rfl, fun hu => hy _ hu rfl⟩⟩
  · exact fun u _ => h.entry u
  · exact h.single
  · exact h.disjoint
  · exact h.alone

/-- **A command that a thread may issue keeps the record.** -/
theorem Recorded.exec (ha : (grip t).allows c = true)
    (he : ReclaimFabric.exec env t c i w = some (r, w')) :
    Recorded w'.proc (Function.update grip t ((grip t).after c r)) := by
  by_cases hc : c.apart = true
  · have hk := exec_apart hc he
    obtain ⟨n, hn⟩ := after_apart (r := r) hc (grip t)
    rw [hn]
    exact (h.congr hk.guards hk.mutex).note
  · cases c with
    | lock => exact h.lock he
    | unlock => exact h.unlock ha he
    | insertActiveObject id => exact h.insertActiveObject ha he
    | removeActiveObject id => exact h.removeActiveObject ha he
    | pollPayloads ks => exact h.pollPayloads ha he
    | removeActivePayloads ks => exact h.removeActivePayloads ha he
    | insertActiveRecovery => exact h.insertActiveRecovery ha he
    | removeActiveRecovery => exact h.removeActiveRecovery ha he
    | lineageBusy x y => exact h.lineageBusy ha he
    | store so =>
      have hp := (exec_store he).1
      have hafter : (grip t).after (.store so) r = grip t := by
        cases so <;> first | rfl | exact absurd rfl hc
      rw [hafter, Function.update_eq_self]
      exact h.congr (congrArg Proc.guards hp) (congrArg Proc.mutex hp)
    | _ => exact absurd rfl hc

end

end

/-! ## runs -/

/-- every command has a sane reply -/
theorem Cmd.sane_reply (c : Cmd) : ∃ r, c.Sane r := by
  cases c with
  | readProc => exact ⟨(⟨"", 0, 0, [], [], []⟩, 0, .nil), trivial⟩
  | now => exact ⟨(0 : Int), trivial⟩
  | newUuid => exact ⟨Uuid.nil, trivial⟩
  | pollBudget => exact ⟨(0 : Nat), trivial⟩
  | hashOrder n => exact ⟨([] : List Nat), trivial⟩
  | store so => exact ⟨.error (.internal ""), by cases so <;> trivial⟩
  | _ => first | exact ⟨(), trivial⟩ | exact ⟨false, trivial⟩ | exact ⟨.error (.internal ""), trivial⟩

/-- a thread that goes on as its grip allows, whatever the reply -/
theorem guard_step {α : Type} {c : Cmd} {k : c.Reply → Prog Cmd Cmd.Reply α}
    {Q : α → Grip → Prop} {g : Grip} (h : wp guardAgent (.call c k) Q g) :
    g.allows c = true ∧ ∀ r, c.Sane r → wp guardAgent (k r) Q (g.after c r) := by
  classical
  have hall : ∀ r : c.Reply, c.Sane r →
      g.allows c = true ∧ wp guardAgent (k r) Q (g.after c r) := by
    intro r hr
    let inputs := Function.update (fun c => (Cmd.sane_reply c).choose) c r
    have hreply : inputs c = r := Function.update_self c r _
    have hi := h g rfl trivial inputs (show c.Sane (inputs c) by rw [hreply]; exact hr)
    change Agent.after _ _ (if g.allows c then _ else _) _ at hi
    by_cases hc : g.allows c = true
    · rw [if_pos hc, hreply] at hi
      exact ⟨hc, hi.2⟩
    · rw [if_neg hc] at hi
      exact absurd hi id
  obtain ⟨r, hr⟩ := Cmd.sane_reply c
  exact ⟨(hall r hr).1, fun r hr => (hall r hr).2⟩

/-- an object is found under the id that was asked for -/
theorem exec_sane {env : Env} {t : Tid} {c : Cmd} {i : Input} {w w' : World} {r : c.Reply}
    (he : exec env t c i w = some (r, w')) : c.Sane r := by
  cases c with
  | store so =>
    simp only [exec, Option.some.injEq] at he
    unfold execStore at he
    split at he
    · cases he
      cases so <;> trivial
    · split at he
      · cases he
        cases so <;> trivial
      · next b s hrun =>
        cases he
        cases so with
        | requireObject id =>
          simp only [StoreOp.run, Store.requireObject] at hrun
          cases hf : w.store.objects.find? id with
          | none =>
            rw [hf] at hrun
            cases hrun
          | some o =>
            rw [hf] at hrun
            cases hrun
            exact Table.key_of_find? hf
        | getObject id =>
          cases hrun
          cases hf : w.store.objects.find? id with
          | none => trivial
          | some o => exact Table.key_of_find? hf
        | _ => trivial
  | _ => trivial

/-- what a thread still has to do with what it holds -/
def Going (g : Grip) : Option Thread → Prop
  | none => ∃ role, g = Grip.start role
  | some th => g.role = th.op.role ∧
      wp guardAgent th.rest (fun _ g => g = Grip.start th.op.role) g

/-- every thread goes on as its grip allows, and the process memory records the grips -/
structure Gripped (s : Sys) (grip : Tid → Grip) : Prop where
  recorded : Recorded s.shared.proc grip
  going : ∀ t, Going (grip t) (s.threads t)

section
variable {env : Env} {mode : Mode} {s s' : Sys} {grip : Tid → Grip} {t : Tid} {l : Label}

theorem start_entry {config : Config} {epoch : Nat} {bootId : Uuid} {role : Role} :
    Entry (Proc.start config epoch bootId) t (Grip.start role) where
  mutex := ⟨fun h => (by cases h), fun h => (by cases h)⟩
  object := fun _ => ⟨fun h => absurd h List.not_mem_nil, fun h => (by cases h)⟩
  keys := fun _ => ⟨fun h => absurd h List.not_mem_nil, fun h => absurd h List.not_mem_nil⟩
  recovering := ⟨fun h => (by cases h), fun h => (by cases h)⟩
  cleared := fun _ _ h => (by cases h)

theorem start_recorded {config : Config} {epoch : Nat} {bootId : Uuid} {role : Role} :
    Recorded (Proc.start config epoch bootId) (fun _ => Grip.start role) where
  entry := fun _ => start_entry
  single := List.nodup_nil
  disjoint := List.nodup_nil
  alone := fun h => (by cases h)

/-- who holds nothing may take any role -/
theorem Recorded.restart {p : Proc} {role role' : Role} (h : Recorded p grip)
    (hg : grip t = Grip.start role) : Recorded p (Function.update grip t (Grip.start role')) := by
  have ht := h.entry t
  rw [hg] at ht
  apply Recorded.update
  · exact ⟨ht.mutex, ht.object, ht.keys, ht.recovering, ht.cleared⟩
  · exact fun u _ => h.entry u
  · exact h.single
  · exact h.disjoint
  · exact h.alone

/-- an operation that starts -/
theorem ends_going (op : Op) : Going (Grip.start op.role) (some ⟨op, op.prog env⟩) := by
  refine ⟨rfl, wp_mono (ends_prog op) ?_⟩
  intro r g hr
  cases r with
  | ok a => exact hr
  | error e => exact hr

/-- a thread goes on from the state `s₁` with the grip `g` -/
theorem Gripped.advance (h : Gripped s grip) {s₁ : Sys} {th : Thread} {g : Grip}
    (hthreads : s₁.threads = s.threads)
    (hrec : Recorded s₁.shared.proc (Function.update grip t g)) (hgo : Going g (some th)) :
    Gripped (s₁.advance t th) (Function.update grip t g) := by
  have hothers : ∀ (x : Option Thread) (u : Tid), Going g x →
      Going (Function.update grip t g u) (if u = t then x else s₁.threads u) := by
    intro x u hx
    by_cases hu : u = t
    · rw [if_pos hu, hu, Function.update_self]
      exact hx
    · rw [if_neg hu, Function.update_of_ne hu, hthreads]
      exact h.going u
  obtain ⟨op, rest⟩ := th
  cases rest with
  | ret r => exact ⟨hrec, fun u => hothers none u ⟨_, hgo.2⟩⟩
  | call c k => exact ⟨hrec, fun u => hothers (some ⟨op, .call c k⟩) u hgo⟩

theorem advance_world {th : Thread} : (s.advance t th).shared.toWorld = s.shared.toWorld := by
  obtain ⟨op, rest⟩ := th
  cases rest with
  | ret r => rfl
  | call c k => rfl

/-- an operation starts and takes its role -/
theorem Gripped.start {op : Op} (h : Gripped s grip) (hn : s.next env (.start t op) = some s') :
    Gripped s' (Function.update grip t (Grip.start op.role)) := by
  simp only [Sys.next] at hn
  split at hn
  · next _ hnone =>
    cases hn
    have hidle := h.going t
    rw [hnone] at hidle
    obtain ⟨role, hg⟩ := hidle
    exact h.advance rfl (h.recorded.restart hg) (ends_going op)
  · cases hn

/-- a thread executes a command that its grip allows -/
theorem Gripped.step {i : Input} (h : Gripped s grip) (hn : s.next env (.step t i) = some s') :
    ∃ (th : Thread) (c : Cmd) (k : c.Reply → Prog Cmd Cmd.Reply (Res th.op.Out)) (r : c.Reply),
      s.threads t = some th ∧ th.rest = .call c k ∧
      exec env t c i s.shared.toWorld = some (r, s'.shared.toWorld) ∧
      (grip t).allows c = true ∧ Gripped s' (Function.update grip t ((grip t).after c r)) := by
  simp only [Sys.next] at hn
  split at hn
  · cases hn
  · next th hth =>
    split at hn
    · cases hn
    · next c k hp =>
      split at hn
      · cases hn
      · next r shared he =>
        cases hn
        have hgo := h.going t
        rw [hth] at hgo
        obtain ⟨hrole, hrest⟩ := hgo
        rw [hp] at hrest
        obtain ⟨hallow, hnext⟩ := guard_step hrest
        obtain ⟨x, hx, hshared⟩ := Option.map_eq_some_iff.mp he
        cases hshared
        have hrec := h.recorded.exec hallow hx
        refine ⟨th, c, k, x.1, hth, hp, ?_, hallow, ?_⟩
        · rw [advance_world]
          exact hx
        · refine h.advance rfl hrec ⟨?_, hnext _ (exec_sane hx)⟩
          rw [after_role]
          exact hrole

/-- after a restart nobody holds anything -/
theorem Gripped.restart {config : Config} {bootId : Uuid} {now : Int}
    (hn : s.next env (.restart config bootId now) = some s') :
    Gripped s' (fun _ => Grip.start .recovery) := by
  have hn : s.restart env config bootId now = some s' := hn
  obtain ⟨_, _, _, ⟨epoch, hproc⟩, _⟩ := Sys.restart_eq hn
  constructor
  · rw [hproc]
    exact start_recorded
  · intro u
    have hthreads : s'.threads u = if u = openingTid then
        some ⟨.recover, Op.prog env .recover⟩ else none := by
      unfold Sys.restart at hn
      split at hn
      · cases hn
      · split at hn
        · cases hn
        · cases hn
          rfl
    rw [hthreads]
    by_cases hu : u = openingTid
    · rw [if_pos hu]
      exact ends_going .recover
    · rw [if_neg hu]
      exact ⟨_, rfl⟩

theorem Gripped.next (h : Gripped s grip) (hn : s.next env l = some s') :
    ∃ grip', Gripped s' grip' := by
  cases l with
  | start t op => exact ⟨_, h.start hn⟩
  | step t i =>
    obtain ⟨_, _, _, _, _, _, _, _, hg⟩ := h.step hn
    exact ⟨_, hg⟩
  | restart config bootId now => exact ⟨_, Gripped.restart hn⟩

/-- **In every state of every run the process memory records what the threads hold.** -/
theorem Reach.gripped (h : Reach env mode s) : ∃ grip, Gripped s grip := by
  induction h with
  | init => exact ⟨fun _ => Grip.start .free, start_recorded, fun _ => ⟨_, rfl⟩⟩
  | next l _ _ hn ih =>
    obtain ⟨grip, hg⟩ := ih
    exact hg.next hn

/-! ## one label -/

/-- what one label does to the shared state -/
inductive Went (env : Env) (s s' : Sys) : Label → Prop where
  | started {t : Tid} {op : Op} : s'.shared.toWorld = s.shared.toWorld →
      Went env s s' (.start t op)
  | stepped {t : Tid} {i : Input} {th : Thread} {c : Cmd}
      {k : c.Reply → Prog Cmd Cmd.Reply (Res th.op.Out)} {r : c.Reply} :
      s.threads t = some th → th.rest = .call c k →
      exec env t c i s.shared.toWorld = some (r, s'.shared.toWorld) → Went env s s' (.step t i)
  | restarted {config : Config} {bootId : Uuid} {now : Int} {epoch : Nat} :
      s'.shared.proc = Proc.start config epoch bootId →
      s'.shared.store.lineage = s.shared.store.lineage → Went env s s' (.restart config bootId now)

theorem Sys.went (hn : s.next env l = some s') : Went env s s' l := by
  cases l with
  | start t op =>
    simp only [Sys.next] at hn
    split at hn
    · cases hn
      exact .started advance_world
    · cases hn
  | step t i =>
    simp only [Sys.next] at hn
    split at hn
    · cases hn
    · next th hth =>
      split at hn
      · cases hn
      · next c k hp =>
        split at hn
        · cases hn
        · next r shared he =>
          cases hn
          obtain ⟨x, hx, hshared⟩ := Option.map_eq_some_iff.mp he
          cases hshared
          refine Went.stepped (r := x.1) hth hp ?_
          rw [advance_world]
          exact hx
  | restart config bootId now =>
    have hn : s.restart env config bootId now = some s' := hn
    obtain ⟨hdata, _, _, ⟨epoch, hproc⟩, _⟩ := Sys.restart_eq hn
    exact .restarted hproc (congrArg Data.lineage hdata)

/-- a recovery refuses every other guard -/
theorem exec_recovering {c : Cmd} {i : Input} {r : c.Reply} {w w' : World}
    (he : exec env t c i w = some (r, w')) (hrec : w.proc.activeRecovery.isSome = true) :
    (∀ e ∈ w'.proc.activeObjects, e ∈ w.proc.activeObjects) ∧
      ∀ e ∈ w'.proc.activePayloads, e ∈ w.proc.activePayloads := by
  by_cases hc : c.apart = true
  · have hk := (exec_apart hc he).guards
    rw [show w'.proc.activeObjects = _ from congrArg Guards.activeObjects hk,
      show w'.proc.activePayloads = _ from congrArg Guards.activePayloads hk]
    exact ⟨fun _ h => h, fun _ h => h⟩
  · cases c with
    | insertActiveObject id =>
      simp only [exec, execInsertActiveObject, if_pos hrec, Option.some.injEq] at he
      cases he
      exact ⟨fun _ h => h, fun _ h => h⟩
    | pollPayloads ks =>
      have hno : ¬(w.proc.activeRecovery.isNone = true) := by
        rw [Option.isNone_iff_eq_none]
        exact fun h => by rw [h] at hrec; cases hrec
      simp only [exec] at he
      split at he
      · simp only [execPollPayloads, Option.some.injEq] at he
        split at he
        · next hfree => exact absurd hfree.1 hno
        · cases he
          exact ⟨fun _ h => h, fun _ h => h⟩
      · cases he
    | removeActiveObject id =>
      simp only [exec] at he
      split at he
      · cases he
        exact ⟨fun _ h => List.mem_of_mem_filter h, fun _ h => h⟩
      · cases he
    | removeActivePayloads ks =>
      simp only [exec] at he
      split at he
      · cases he
        exact ⟨fun _ h => h, fun _ h => List.mem_of_mem_filter h⟩
      · cases he
    | store so =>
      rw [(exec_store he).1]
      exact ⟨fun _ h => h, fun _ h => h⟩
    | lock =>
      simp only [exec] at he
      split at he
      · cases he
        exact ⟨fun _ h => h, fun _ h => h⟩
      · cases he
    | unlock =>
      cases he
      exact ⟨fun _ h => h, fun _ h => h⟩
    | insertActiveRecovery =>
      simp only [exec, execInsertActiveRecovery, if_pos (Or.inl hrec), Option.some.injEq] at he
      cases he
      exact ⟨fun _ h => h, fun _ h => h⟩
    | removeActiveRecovery =>
      simp only [exec] at he
      split at he
      · cases he
        exact ⟨fun _ h => h, fun _ h => h⟩
      · cases he
    | lineageBusy x y =>
      cases he
      exact ⟨fun _ h => h, fun _ h => h⟩
    | _ => exact absurd rfl hc

/-- a recovery starts when nothing is held -/
theorem exec_begins {c : Cmd} {i : Input} {r : c.Reply} {w w' : World}
    (he : exec env t c i w = some (r, w')) (hnone : w.proc.activeRecovery = none)
    (hsome : w'.proc.activeRecovery.isSome = true) :
    w.proc.activeObjects = [] ∧ w.proc.activePayloads = [] := by
  have hsame {x : World} (hx : x.proc.activeRecovery = w.proc.activeRecovery)
      (hs : x.proc.activeRecovery.isSome = true) : False := by
    rw [hx, hnone] at hs
    cases hs
  by_cases hc : c.apart = true
  · exact (hsame (congrArg Guards.activeRecovery (exec_apart hc he).guards) hsome).elim
  · cases c with
    | insertActiveRecovery =>
      simp only [exec, execInsertActiveRecovery, Option.some.injEq] at he
      split at he
      · cases he
        exact (hsame rfl hsome).elim
      · next hfree =>
        simp only [not_or, not_not] at hfree
        exact hfree.2
    | insertActiveObject id =>
      simp only [exec, execInsertActiveObject, Option.some.injEq] at he
      split at he
      · cases he
        exact (hsame rfl hsome).elim
      · split at he
        · cases he
          exact (hsame rfl hsome).elim
        · cases he
          exact (hsame rfl hsome).elim
    | pollPayloads ks =>
      simp only [exec] at he
      split at he
      · simp only [execPollPayloads, Option.some.injEq] at he
        split at he
        · cases he
          exact (hsame rfl hsome).elim
        · cases he
          exact (hsame rfl hsome).elim
      · cases he
    | store so =>
      rw [(exec_store he).1] at hsome
      exact (hsame rfl hsome).elim
    | removeActiveRecovery =>
      simp only [exec] at he
      split at he
      · cases he
        cases hsome
      · cases he
    | lineageBusy x y =>
      cases he
      exact (hsame rfl hsome).elim
    | unlock =>
      cases he
      exact (hsame rfl hsome).elim
    | _ =>
      first
        | exact absurd rfl hc
        | (simp only [exec] at he
           split at he
           · cases he
             exact (hsame rfl hsome).elim
           · cases he)

/-- a command on the guards leaves the store alone -/
theorem exec_guard {c : Cmd} {i : Input} {r : c.Reply} {w w' : World} (hc : ¬c.apart = true)
    (hno : ∀ so, c ≠ .store so) (he : exec env t c i w = some (r, w')) : w'.store = w.store := by
  cases c with
  | store so => exact absurd rfl (hno so)
  | unlock =>
    cases he
    rfl
  | lineageBusy x y =>
    cases he
    rfl
  | insertActiveObject id =>
    simp only [exec, execInsertActiveObject, Option.some.injEq] at he
    split at he
    · cases he
      rfl
    · split at he
      · cases he
        rfl
      · cases he
        rfl
  | insertActiveRecovery =>
    simp only [exec, execInsertActiveRecovery, Option.some.injEq] at he
    split at he
    · cases he
      rfl
    · cases he
      rfl
  | pollPayloads ks =>
    simp only [exec] at he
    split at he
    · simp only [execPollPayloads, Option.some.injEq] at he
      split at he
      · cases he
        rfl
      · cases he
        rfl
    · cases he
  | _ =>
    first
      | exact absurd rfl hc
      | (simp only [exec] at he
         split at he
         · cases he
           rfl
         · cases he)

/-- an edge changes only in a section that found its endpoints idle -/
theorem exec_edge {c : Cmd} {i : Input} {r : c.Reply} {w w' : World} {g : Grip}
    (he : exec env t c i w = some (r, w')) (ha : g.allows c = true) {e : LineageEdge}
    (hne : ¬(e ∈ w'.store.lineage ↔ e ∈ w.store.lineage)) :
    g.cleared = some (e.parent, e.child) := by
  by_cases hc : c.apart = true
  · rw [(exec_apart hc he).lineage] at hne
    exact absurd Iff.rfl hne
  · cases c with
    | store so =>
      rcases (exec_store he).2 with ⟨_, -, hs⟩ | ⟨b, -, hrun⟩
      · rw [hs] at hne
        exact absurd Iff.rfl hne
      · cases so with
        | addLineageEdge p q k =>
          simp only [Grip.allows, Bool.and_eq_true, decide_eq_true_eq] at ha
          obtain ⟨T, hd, hT⟩ := Store.addLineageEdge_ok hrun
          rw [show w'.store.lineage = T from congrArg Data.lineage hd, hT] at hne
          have heq : e = ⟨p, q, k⟩ := by
            by_contra hx
            exact hne ⟨fun h => h.resolve_right hx, .inl⟩
          rw [heq]
          exact ha.2
        | removeLineageEdge p q k =>
          simp only [Grip.allows, Bool.and_eq_true, decide_eq_true_eq] at ha
          have hd := congrArg Data.lineage (Store.removeLineageEdge_ok hrun)
          rw [show w'.store.lineage = _ from hd, Table.mem_erase] at hne
          have heq : e = ⟨p, q, k⟩ := by
            by_contra hx
            exact hne ⟨fun h => h.1, fun h => ⟨h, hx⟩⟩
          rw [heq]
          exact ha.2
        | _ => exact absurd rfl hc
    | _ =>
      rw [exec_guard hc (fun _ h => (by cases h)) he] at hne
      exact absurd Iff.rfl hne

/-! ## what the guards promise -/

/-- the commands an operation does its work with -/
def Cmd.work : Cmd → Bool
  | .store (.coordinatorHeartbeat _ _ _ _) => false
  | .store _ => true
  | .put _ _ _ | .get _ _ | .delete _ _ | .exists_ _ _ | .node _ _ _ _ => true
  | .archiveWrite _ _ _ _ | .archiveRead _ _ | .archiveDelete _ _ | .archiveExists _ _ => true
  | .pollPayloads _ => true
  | _ => false

/-- nobody holds an object or a payload -/
def NoneHeld (w : Traced) : Prop := ∀ t, (∀ X, ¬Own t X w) ∧ ∀ k, ¬Pay t k w

/-- the label is a step of the thread, or stops the process -/
def Label.isBy (t : Tid) : Label → Prop
  | .start _ _ => False
  | .step u _ => u = t
  | .restart _ _ _ => True

/-- what the guards promise in every state -/
structure Undisputed (s : Sys) : Prop where
  objects : ∀ X t u, Own t X s.shared → Own u X s.shared → t = u
  payloads : ∀ k t u, Pay t k s.shared → Pay u k s.shared → t = u
  /-- an operation works only while it holds its guard -/
  under : ∀ t th c k, s.threads t = some th → th.rest = .call c k → c.work = true →
    (∀ X, th.op.role = .object X → Own t X s.shared) ∧
      (th.op.role = .recovery → Recovering t s.shared)
  /-- an operation that has returned, with a value or an error, holds nothing -/
  returned : ∀ t, s.threads t = none →
    (∀ X, ¬Own t X s.shared) ∧ (∀ k, ¬Pay t k s.shared) ∧ ¬Recovering t s.shared
  alone : ∀ t, Recovering t s.shared → NoneHeld s.shared
  /-- who asks for payloads has none, and does not hold the mutex -/
  requests : ∀ t th ks k, s.threads t = some th → th.rest = .call (.pollPayloads ks) k →
    (∀ x, ¬Pay t x s.shared) ∧ s.shared.proc.mutex ≠ some t

/-- what the guards promise about a label that leads from `s` to `s'` -/
structure Excluded (s s' : Sys) (l : Label) : Prop where
  refused : ∀ t, Recovering t s.shared → NoneHeld s'.shared
  begins : ∀ t, ¬Recovering t s.shared → Recovering t s'.shared → NoneHeld s.shared
  edges : ∀ e, ¬(e ∈ s'.shared.store.lineage ↔ e ∈ s.shared.store.lineage) →
    ∀ t, ¬Recovering t s.shared ∧ ¬Own t e.parent s.shared ∧ ¬Own t e.child s.shared
  /-- a guard is dropped by the thread that acquired it -/
  released : ∀ t, (∀ X, Own t X s.shared → ¬Own t X s'.shared → l.isBy t) ∧
    (∀ k, Pay t k s.shared → ¬Pay t k s'.shared → l.isBy t) ∧
    (Recovering t s.shared → ¬Recovering t s'.shared → l.isBy t)

theorem noneHeld_of_nil {w : Traced} (ho : w.proc.activeObjects = [])
    (hp : w.proc.activePayloads = []) : NoneHeld w := by
  intro t
  refine ⟨fun X hX => ?_, fun k hk => ?_⟩
  · rw [Own, ho] at hX
    exact absurd hX List.not_mem_nil
  · rw [Pay, hp] at hk
    exact absurd hk List.not_mem_nil

theorem Recorded.noneHeld {w : Traced} (h : Recorded w.proc grip) (hr : Recovering t w) :
    NoneHeld w := by
  have hsome : w.proc.activeRecovery.isSome = true := by
    rw [show w.proc.activeRecovery = some t from hr]
    rfl
  exact noneHeld_of_nil (h.alone hsome).1 (h.alone hsome).2

/-- the work of an operation is done under its guard -/
theorem armed_of_work {c : Cmd} {g : Grip} (hc : c.work = true) (ha : g.allows c = true) :
    g.armed = true := by
  cases c with
  | store so =>
    cases so with
    | coordinatorHeartbeat p b e n => cases hc
    | addLineageEdge p q k => exact (Bool.and_eq_true_iff.mp ha).1
    | removeLineageEdge p q k => exact (Bool.and_eq_true_iff.mp ha).1
    | updateObject o => exact (Bool.and_eq_true_iff.mp ha).1
    | createObject o => exact (Bool.and_eq_true_iff.mp ha).1
    | updateObjectWithAudit o a =>
      simp only [Grip.allows, Bool.and_eq_true] at ha
      exact ha.1.1
    | createObjectWithAudits o as =>
      simp only [Grip.allows, Bool.and_eq_true] at ha
      exact ha.1.1
    | appendAudit a => exact (Bool.and_eq_true_iff.mp ha).1
    | _ => exact ha
  | pollPayloads ks =>
    simp only [Grip.allows, Bool.and_eq_true] at ha
    exact ha.1.1.1
  | _ => first | exact ha | cases hc

theorem Gripped.undisputed (h : Gripped s grip) : Undisputed s where
  objects := fun _ _ _ ht hu => h.recorded.same_object ht hu
  payloads := fun _ _ _ ht hu => h.recorded.same_key ht hu
  under := by
    intro t th c k hth hk hc
    have hgo := h.going t
    rw [hth] at hgo
    obtain ⟨hrole, hrest⟩ := hgo
    rw [hk] at hrest
    have harmed := armed_of_work hc (guard_step hrest).1
    have hentry := h.recorded.entry t
    unfold Grip.armed at harmed
    rw [hrole] at harmed
    constructor
    · intro X hX
      rw [hX] at harmed
      exact (hentry.object X).mpr (of_decide_eq_true harmed)
    · intro hr
      rw [hr] at harmed
      exact hentry.recovering.mp harmed
  returned := by
    intro t ht
    have hgo := h.going t
    rw [ht] at hgo
    obtain ⟨role, hg⟩ := hgo
    have hentry := h.recorded.entry t
    rw [hg] at hentry
    refine ⟨fun X hX => ?_, fun k hk => ?_, fun hr => ?_⟩
    · cases (hentry.object X).mp hX
    · exact absurd ((hentry.keys k).mp hk) List.not_mem_nil
    · cases hentry.recovering.mpr hr
  alone := fun _ hr => h.recorded.noneHeld hr
  requests := by
    intro t th ks k hth hk
    have hgo := h.going t
    rw [hth] at hgo
    have hrest := hgo.2
    rw [hk] at hrest
    have hallow := (guard_step hrest).1
    simp only [Grip.allows, Bool.and_eq_true, decide_eq_true_eq, Bool.not_eq_true'] at hallow
    obtain ⟨⟨⟨-, hmutex⟩, hkeys⟩, -⟩ := hallow
    have hentry := h.recorded.entry t
    constructor
    · intro x hx
      have := (hentry.keys x).mp hx
      rw [hkeys] at this
      exact absurd this List.not_mem_nil
    · intro hm
      rw [hentry.mutex.mpr hm] at hmutex
      cases hmutex

/-- what a step of one thread leaves to the others -/
theorem Recorded.others {p p' : Proc} {g : Grip} {u : Tid} (h : Recorded p grip)
    (h' : Recorded p' (Function.update grip t g)) (hu : u ≠ t) :
    (∀ X, (X, u) ∈ p.activeObjects ↔ (X, u) ∈ p'.activeObjects) ∧
      (∀ k, (k, u) ∈ p.activePayloads ↔ (k, u) ∈ p'.activePayloads) ∧
      (p.activeRecovery = some u ↔ p'.activeRecovery = some u) := by
  have ho := h.entry u
  have hn := h'.entry u
  rw [Function.update_of_ne hu] at hn
  refine ⟨fun X => ?_, fun k => ?_, ?_⟩
  · rw [ho.object, hn.object]
  · rw [ho.keys, hn.keys]
  · rw [← ho.recovering, ← hn.recovering]

theorem Gripped.excluded (h : Gripped s grip) (hn : s.next env l = some s') :
    Excluded s s' l := by
  have hrecorded := h.recorded
  cases Sys.went hn with
  | started hw =>
    have hown : ∀ u X, Own u X s'.shared ↔ Own u X s.shared := by
      intro u X
      rw [Own, Own, hw]
    have hpay : ∀ u k, Pay u k s'.shared ↔ Pay u k s.shared := by
      intro u k
      rw [Pay, Pay, hw]
    have hrec : ∀ u, Recovering u s'.shared ↔ Recovering u s.shared := by
      intro u
      rw [Recovering, Recovering, hw]
    constructor
    · intro u hu v
      have := hrecorded.noneHeld hu v
      exact ⟨fun X hX => this.1 X ((hown v X).mp hX), fun k hk => this.2 k ((hpay v k).mp hk)⟩
    · exact fun u hno hu => absurd ((hrec u).mp hu) hno
    · intro e hne
      rw [hw] at hne
      exact absurd Iff.rfl hne
    · exact fun u => ⟨fun X hX hno => absurd ((hown u X).mpr hX) hno,
        fun k hk hno => absurd ((hpay u k).mpr hk) hno,
        fun hr hno => absurd ((hrec u).mpr hr) hno⟩
  | @stepped t i th c k r hth hk he =>
    have hgo := h.going t
    rw [hth] at hgo
    have hrest := hgo.2
    rw [hk] at hrest
    have hallow := (guard_step hrest).1
    have hrecorded' := hrecorded.exec hallow he
    constructor
    · intro u hu
      have hsome : s.shared.proc.activeRecovery.isSome = true := by
        rw [show s.shared.proc.activeRecovery = some u from hu]
        rfl
      obtain ⟨ho, hp⟩ := exec_recovering he hsome
      have hnone := hrecorded.noneHeld hu
      exact fun v => ⟨fun X hX => (hnone v).1 X (ho _ hX), fun k hk => (hnone v).2 k (hp _ hk)⟩
    · intro u hno hu
      cases hwas : s.shared.proc.activeRecovery with
      | none =>
        have hsome : s'.shared.proc.activeRecovery.isSome = true := by
          rw [show s'.shared.proc.activeRecovery = some u from hu]
          rfl
        obtain ⟨ho, hp⟩ := exec_begins he hwas hsome
        exact noneHeld_of_nil ho hp
      | some v => exact hrecorded.noneHeld hwas
    · intro e hne u
      obtain ⟨-, hrec, hidle⟩ := (hrecorded.entry t).cleared _ _ (exec_edge he hallow hne)
      refine ⟨?_, (hidle u).1, (hidle u).2⟩
      intro hu
      rw [Recovering, hrec] at hu
      cases hu
    · intro u
      by_cases hut : t = u
      · exact ⟨fun _ _ _ => hut, fun _ _ _ => hut, fun _ _ => hut⟩
      · obtain ⟨ho, hp, hr⟩ := hrecorded.others hrecorded' (Ne.symm hut)
        exact ⟨fun X hX hno => absurd ((ho X).mp hX) hno,
          fun k hk hno => absurd ((hp k).mp hk) hno, fun hx hno => absurd (hr.mp hx) hno⟩
  | restarted hproc hlin =>
    constructor
    · intro u _
      apply noneHeld_of_nil
      · rw [hproc]
        rfl
      · rw [hproc]
        rfl
    · intro u _ hu
      rw [Recovering, hproc] at hu
      cases hu
    · intro e hne
      rw [hlin] at hne
      exact absurd Iff.rfl hne
    · exact fun u => ⟨fun _ _ _ => trivial, fun _ _ _ => trivial, fun _ _ => trivial⟩

/-- **Guards exclude each other**, in every state of every run and at every label that follows. -/
theorem guards_exclude (h : Reach env mode s) :
    Undisputed s ∧ ∀ l s', s.next env l = some s' → Excluded s s' l := by
  obtain ⟨grip, hg⟩ := h.gripped
  exact ⟨hg.undisputed, fun _ _ hn => hg.excluded hn⟩

end

namespace Sample

/-- two registrations of one payload: the first holds it, the second is about to ask for it -/
def contended : Option Sys :=
  during free 2 (during free 1 (opened free) (register (object 10) "a") (calm 200) 20)
    (register (object 11) "a") (calm 400) 19

theorem reached_contended : Reached anyRun contended :=
  ((reached_opened free_ok trivial).during free_ok).during free_ok

/-- the thread is about to ask for payloads -/
def asking (s : Sys) (t : Tid) : Bool :=
  match s.threads t with
  | some th =>
    match th.rest with
    | .call (.pollPayloads _) _ => true
    | _ => false
  | none => false

theorem contended_state : (contended.map fun s => (s.shared.proc.activeObjects.map Prod.snd,
    s.shared.proc.activePayloads.map Prod.snd, asking s 2)) = some ([2, 1], [1], true) := by
  decide +kernel

end Sample

theorem guards_exclude_contended : ∃ s, Reach Sample.env anyRun s ∧
    s.shared.proc.activeObjects.map Prod.snd = [2, 1] ∧
    s.shared.proc.activePayloads.map Prod.snd = [1] ∧ Sample.asking s 2 = true ∧
    Undisputed s ∧ ∀ l s', s.next Sample.env l = some s' → Excluded s s' l := by
  obtain ⟨s, hs, h⟩ := Option.map_eq_some_iff.mp Sample.contended_state
  simp only [Prod.mk.injEq] at h
  have hr := Sample.reached_contended s hs
  exact ⟨s, hr, h.1, h.2.1, h.2.2, guards_exclude hr⟩

end ReclaimFabric
