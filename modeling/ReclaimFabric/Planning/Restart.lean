import ReclaimFabric.Planning.Policy
import ReclaimFabric.Lib.Prog
import ReclaimFabric.Lib.Table

/-!
# Policies across restarts

`Coordinator::open` loads the policy table, seeds it when it is empty, and keeps the registry it
built; `Coordinator::add_policy` persists a policy and then replaces the registry.  Both are
programs over the policy table; a process may stop between any two of their steps.

* `openPolicies`, `addPolicy`   the programs;
* `openPolicies_ran`            what a successful open finds and returns;
* `openPolicies_stop`           what a stopped open leaves behind;
* `Reach`                       opens, additions and stops in any order.

A row is the text of a document; reading it back returns the document, each number as the reader
of numbers reads it (`readPolicy`).

`policies_survive_restarts` : as long as no open stops between its two seed writes, every successful
open holds the built-in policies and every policy that was added, and nothing that was not
submitted.  `half_seeded_restart` : an open that stops there is followed by one without the
emergency policy.
-/

namespace ReclaimFabric

namespace PolicyStore

/-- rows of `policies`, one for each id and version -/
abbrev Rows := Table (fun p : Policy => (p.id, p.version))

structure World where
  rows : Rows
  /-- the registry of the running process -/
  policies : PolicyRegistry

/-! ## steps -/

inductive Cmd where
  | listPolicies
  | claimCoordinator
  | releaseCoordinator
  | upsertPolicy (p : Policy)
  | setPolicies (r : PolicyRegistry)
  | readPolicies
  | recover
  | startHeartbeat
  | coordinatorHeartbeat
  | appendAudit (action policy kind : String)

abbrev Cmd.Out : Cmd → Type
  | .listPolicies => List Policy
  | .readPolicies => PolicyRegistry
  | .recover => List String
  | _ => Unit

abbrev Reply (c : Cmd) : Type := Res c.Out

/-- what the environment contributes: a failure, and the errors of the recovery report -/
structure Input where
  fault : Option ReclaimError
  unresolved : List String

/-- INSERT … ON CONFLICT DO UPDATE -/
def upsert (p : Policy) (T : Rows) : Rows :=
  match T.insert? p with
  | some T' => T'
  | none => T.replace p

section
variable (number : F64 → Res F64)

/-- the weights of a document that is read back -/
def readWeights (w : Economics.CostWeights) : Res Economics.CostWeights := do
  pure
    { weightReuseValue := ← number w.weightReuseValue
      weightReconstructionAvoidance := ← number w.weightReconstructionAvoidance
      weightDependencyValue := ← number w.weightDependencyValue
      weightSurvivabilityValue := ← number w.weightSurvivabilityValue
      weightMemory := ← number w.weightMemory
      weightStorage := ← number w.weightStorage
      weightReplication := ← number w.weightReplication
      weightPressure := ← number w.weightPressure
      weightTransfer := ← number w.weightTransfer
      weightMigration := ← number w.weightMigration }

/-- `serde_json::from_str` of the text of a document -/
def readPolicy (p : Policy) : Res Policy := do
  let threshold ← number p.reclaimThreshold
  let reuse ← number p.minReuseProbability
  let weights ← readWeights number p.weights
  pure { p with reclaimThreshold := threshold, minReuseProbability := reuse, weights := weights }

/-- ORDER BY id, version -/
def sortedRows (T : Rows) : List Policy :=
  T.rows.insertionSort (fun x y => x.id < y.id ∨ x.id = y.id ∧ x.version ≤ y.version)

def run (c : Cmd) (i : Input) (w : World) : Reply c × World :=
  match c, i.fault with
  | .setPolicies r, _ => (.ok (), { w with policies := r })
  | .readPolicies, _ => (.ok w.policies, w)
  | _, some e => (.error e, w)
  | .listPolicies, none => ((sortedRows w.rows).mapM (readPolicy number), w)
  | .upsertPolicy p, none => (.ok (), { w with rows := upsert p w.rows })
  | .recover, none => (.ok i.unresolved, w)
  | .claimCoordinator, none => (.ok (), w)
  | .releaseCoordinator, none => (.ok (), w)
  | .startHeartbeat, none => (.ok (), w)
  | .coordinatorHeartbeat, none => (.ok (), w)
  | .appendAudit _ _ _, none => (.ok (), w)

def exec (c : Cmd) (i : Input) (w : World) : Option (Reply c × World) := some (run number c i w)

end

abbrev M := ExceptT ReclaimError (Prog Cmd Reply)

def perform (c : Cmd) : M c.Out := ExceptT.mk (.call c .ret)

/-! ## the programs -/

/-- registration of the persisted rows -/
def registerAll : List Policy → PolicyRegistry → Res PolicyRegistry
  | [], r => .ok r
  | p :: ps, r => do registerAll ps (← r.add p)

/-- the built-in policies for an empty table, else the rows -/
def startRegistry (persisted : List Policy) : Res PolicyRegistry :=
  if persisted = [] then .ok .withDefaults else registerAll persisted .default

/-- the registry `open` starts from -/
def loadRegistry (persisted : List Policy) : Res PolicyRegistry := do
  let policies ← startRegistry persisted
  policies.validateComplete
  pure policies

/-- `seed_result` -/
def seed : M Unit := do
  perform (.upsertPolicy Policy.default)
  perform (.upsertPolicy Policy.emergencyPolicy)

/-- recovery and the heartbeat thread -/
def finishOpen : M Unit := do
  let errors ← perform .recover
  if errors ≠ [] then
    throw (.recovery ("recovery left unresolved journal state: " ++
      String.intercalate "; " errors))
  perform .startHeartbeat

/-- a failed seed gives up the claim -/
def seedOrRelease : M Unit := do
  match ← Prog.attempt seed with
  | .ok () => pure ()
  | .error e =>
    let _ ← Prog.attempt (perform .releaseCoordinator)
    throw e

/-- only an empty table is seeded -/
def seedEmpty (persisted : List Policy) : M Unit :=
  if persisted = [] then seedOrRelease else pure ()

/-- the policy side of `Coordinator::open` -/
def openPolicies : M PolicyRegistry := do
  let persisted ← perform .listPolicies
  let policies ← Prog.settle (loadRegistry persisted)
  perform .claimCoordinator
  seedEmpty persisted
  perform (.setPolicies policies)
  finishOpen
  pure policies

/-- the registry with the policy in it, if it may be added -/
def prospective (p : Policy) : M PolicyRegistry := do
  Prog.settle (validatePolicy p)
  perform .coordinatorHeartbeat
  let policies ← perform .readPolicies
  let next ← Prog.settle (policies.add p)
  Prog.settle next.validateComplete
  pure next

/-- `Coordinator::add_policy` -/
def addPolicy (p : Policy) : M Unit := do
  let next ← prospective p
  perform (.upsertPolicy p)
  perform (.setPolicies next)
  perform (.appendAudit "POLICY_ADDED" p.fullId p.kind.debug)

theorem add_ok {r r' : PolicyRegistry} {p : Policy} (h : r.add p = .ok r') :
    r'.policies = r.policies ++ [p] := by
  obtain ⟨_, -, h⟩ := Result.bind_ok.mp h
  split at h
  · cases h
  · cases h
    rfl

/-! ## steps of the programs -/

section
variable {number : F64 → Res F64} {w w' : World}

theorem ran_perform {c : Cmd} {r : Res c.Out}
    (h : Prog.Ran (exec number) (perform c).run w r w') : ∃ i, run number c i w = (r, w') := by
  cases h with
  | call he hr =>
    cases hr
    exact ⟨_, Option.some.inj he⟩

theorem passed_perform {c : Cmd} (h : Prog.Passed (exec number) (perform c).run w w') :
    w' = w ∨ ∃ i, (run number c i w).2 = w' := by
  cases h with
  | here => exact .inl rfl
  | later he hr =>
    cases hr
    exact .inr ⟨_, congrArg Prod.snd (Option.some.inj he)⟩

/-- the step writes no policy row -/
def Quiet (c : Cmd) : Prop := ∀ p, c ≠ .upsertPolicy p

/-- the step writes neither a row nor the registry -/
def Silent (c : Cmd) : Prop := Quiet c ∧ ∀ r, c ≠ .setPolicies r

theorem run_quiet {c : Cmd} {i : Input} (hc : Quiet c) : (run number c i w).2.rows = w.rows := by
  rcases i with ⟨_ | e, u⟩ <;> cases c
  all_goals first | rfl | exact absurd rfl (hc _)

theorem run_silent {c : Cmd} {i : Input} (hc : Silent c) : (run number c i w).2 = w := by
  rcases i with ⟨_ | e, u⟩ <;> cases c
  all_goals first | rfl | exact absurd rfl (hc.1 _) | exact absurd rfl (hc.2 _)

theorem only_perform {S : Cmd → Prop} {c : Cmd} (h : S c) : Prog.Only S (perform c).run :=
  .call h fun _ => .ret _

theorem finishOpen_silent : Prog.Only Silent finishOpen.run := by
  refine only_bind (only_perform ⟨fun p => by simp, fun r => by simp⟩) fun errors => ?_
  split
  · exact only_throw
  · exact only_perform ⟨fun p => by simp, fun r => by simp⟩

theorem silent_ran {α : Type} {x : M α} {r : Res α} (hx : Prog.Only Silent x.run)
    (h : Prog.Ran (exec number) x.run w r w') : w' = w := by
  refine Prog.Only.ran (K := fun v => v = w) hx ?_ h rfl
  intro c i v r v' hc he hv
  have hstep : (run number c i v).2 = v' := congrArg Prod.snd (Option.some.inj he)
  rw [← hstep, run_silent hc, hv]

theorem silent_passed {α : Type} {x : M α} (hx : Prog.Only Silent x.run)
    (h : Prog.Passed (exec number) x.run w w') : w' = w := by
  refine Prog.Only.passed (K := fun v => v = w) hx ?_ h rfl
  intro c i v r v' hc he hv
  have hstep : (run number c i v).2 = v' := congrArg Prod.snd (Option.some.inj he)
  rw [← hstep, run_silent hc, hv]

/-! ## writes -/

theorem upsert_new {p : Policy} {T : Rows} (h : T.find? (p.id, p.version) = none) :
    (upsert p T).rows = T.rows ++ [p] := by
  obtain ⟨T', hT'⟩ := Table.insert?_of_none (r := p) h
  unfold upsert
  rw [hT']
  exact (Table.insert?_eq_some hT').2

/-- a write either lands or fails without effect -/
theorem upsert_cases (number : F64 → Res F64) (p : Policy) (i : Input) (w : World) :
    run number (.upsertPolicy p) i w = (.ok (), { w with rows := upsert p w.rows }) ∨
      ∃ e, run number (.upsertPolicy p) i w = (.error e, w) := by
  rcases i with ⟨_ | e, u⟩
  · exact .inl rfl
  · exact .inr ⟨e, rfl⟩

theorem passed_upsert {p : Policy}
    (h : Prog.Passed (exec number) (perform (.upsertPolicy p)).run w w') :
    w' = w ∨ w' = { w with rows := upsert p w.rows } := by
  rcases passed_perform h with h | ⟨i, h⟩
  · exact .inl h
  · rcases upsert_cases number p i w with hc | ⟨e, hc⟩
    · rw [hc] at h
      exact .inr h.symm
    · rw [hc] at h
      exact .inl h.symm

theorem ran_upsert {p : Policy}
    (h : Prog.Ran (exec number) (perform (.upsertPolicy p)).run w (.ok ()) w') :
    w' = { w with rows := upsert p w.rows } := by
  obtain ⟨i, hi⟩ := ran_perform h
  rcases upsert_cases number p i w with hc | ⟨e, hc⟩
  · rw [hc] at hi
    exact (congrArg Prod.snd hi).symm
  · rw [hc] at hi
    cases congrArg Prod.fst hi

/-! ## seeding -/

/-- how far a seed of an empty table got -/
def Seeding (T : Rows) : Prop :=
  T.rows = [] ∨ T.rows = [Policy.default] ∨ T.rows = [Policy.default, Policy.emergencyPolicy]

theorem default_seeded {T : Rows} (h : T.rows = []) :
    (upsert Policy.default T).rows = [Policy.default] := by
  rw [upsert_new, h]
  · rfl
  · show T.rows.find? _ = none
    rw [h]
    rfl

theorem emergency_seeded {T : Rows} (h : T.rows = [Policy.default]) :
    (upsert Policy.emergencyPolicy T).rows = [Policy.default, Policy.emergencyPolicy] := by
  rw [upsert_new, h]
  · rfl
  · show T.rows.find? _ = none
    rw [h]
    decide

theorem seed_passed (hw : w.rows.rows = []) (h : Prog.Passed (exec number) seed.run w w') :
    Seeding w'.rows := by
  rcases passed_seq h with h | ⟨a, w₁, h₁, h⟩
  · rcases passed_upsert h with rfl | rfl
    · exact .inl hw
    · exact .inr (.inl (default_seeded hw))
  · have hw₁ := ran_upsert h₁
    have hd : w₁.rows.rows = [Policy.default] := by
      rw [hw₁]
      exact default_seeded hw
    rcases passed_upsert h with rfl | rfl
    · exact .inr (.inl hd)
    · exact .inr (.inr (emergency_seeded hd))

theorem seed_ran (hw : w.rows.rows = []) (h : Prog.Ran (exec number) seed.run w (.ok ()) w') :
    w'.rows.rows = [Policy.default, Policy.emergencyPolicy] := by
  rcases ran_seq.mp h with ⟨e, he, -⟩ | ⟨a, w₁, h₁, h₂⟩
  · cases he
  · rw [ran_upsert h₂]
    apply emergency_seeded
    rw [ran_upsert h₁]
    exact default_seeded hw

theorem release_silent :
    Prog.Only Silent (Prog.attempt (perform .releaseCoordinator)).run :=
  only_attempt (only_perform ⟨fun p => by simp, fun r => by simp⟩)

theorem seedOrRelease_passed (hw : w.rows.rows = [])
    (h : Prog.Passed (exec number) seedOrRelease.run w w') : Seeding w'.rows := by
  rcases passed_seq h with h | ⟨o, w₁, h₁, h⟩
  · exact seed_passed hw (passed_attempt h)
  · obtain ⟨o', -, hs⟩ := ran_attempt.mp h₁
    have hseed := seed_passed hw hs.passed
    cases o with
    | ok _ =>
      cases h
      exact hseed
    | error e =>
      have hsilent : w' = w₁ := silent_passed (only_bind release_silent fun _ => only_throw) h
      rw [hsilent]
      exact hseed

theorem seedOrRelease_ran (hw : w.rows.rows = [])
    (h : Prog.Ran (exec number) seedOrRelease.run w (.ok ()) w') :
    w'.rows.rows = [Policy.default, Policy.emergencyPolicy] := by
  rcases ran_seq.mp h with ⟨e, he, -⟩ | ⟨o, w₁, h₁, h₂⟩
  · cases he
  · obtain ⟨o', ho, hs⟩ := ran_attempt.mp h₁
    cases ho
    cases o with
    | ok _ =>
      obtain ⟨-, rfl⟩ := ran_pure.mp h₂
      exact seed_ran hw hs
    | error e =>
      rcases ran_seq.mp h₂ with ⟨e', he, -⟩ | ⟨o', w₂, -, h₃⟩
      · cases he
      · cases h₃

/-! ## loading -/

theorem registerAll_ok {ps : List Policy} {r r' : PolicyRegistry}
    (h : registerAll ps r = .ok r') : r'.policies = r.policies ++ ps := by
  induction ps generalizing r with
  | nil =>
    cases h
    rw [List.append_nil]
  | cons p ps ih =>
    obtain ⟨r₁, hadd, h⟩ := Result.bind_ok.mp h
    rw [ih h, add_ok hadd, List.append_assoc]
    rfl

/-- the registry of a table that is not empty is the table -/
theorem loadRegistry_ok {ps : List Policy} {r : PolicyRegistry} (h : loadRegistry ps = .ok r) :
    r.validateComplete = .ok () ∧
      (ps = [] ∧ r = .withDefaults ∨ ps ≠ [] ∧ r.policies = ps) := by
  obtain ⟨r₁, hload, h⟩ := Result.bind_ok.mp h
  obtain ⟨_, hcomplete, h⟩ := Result.bind_ok.mp h
  cases h
  refine ⟨hcomplete, ?_⟩
  unfold startRegistry at hload
  by_cases hps : ps = []
  · rw [if_pos hps] at hload
    cases hload
    exact .inl ⟨hps, rfl⟩
  · rw [if_neg hps] at hload
    exact .inr ⟨hps, registerAll_ok hload⟩

/-- the policies are what the rows read back as -/
structure ReadsAs (number : F64 → Res F64) (T : Rows) (ps : List Policy) : Prop where
  reads : ∀ p ∈ T, ∃ q ∈ ps, readPolicy number p = .ok q
  only : ∀ q ∈ ps, ∃ p ∈ T, readPolicy number p = .ok q

theorem readsAs_of_list {T : Rows} {ps : List Policy}
    (h : (sortedRows T).mapM (readPolicy number) = .ok ps) : ReadsAs number T ps := by
  obtain ⟨hto, hfrom⟩ := Result.mem_of_mapM h
  have hmem : ∀ p, p ∈ sortedRows T ↔ p ∈ T := fun p => List.mem_insertionSort _
  constructor
  · intro p hp
    exact hto p ((hmem p).mpr hp)
  · intro q hq
    obtain ⟨p, hp, hf⟩ := hfrom q hq
    exact ⟨p, (hmem p).mp hp, hf⟩

/-- an empty answer comes from an empty table, any other from its rows -/
theorem ran_listPolicies {ps : List Policy}
    (h : Prog.Ran (exec number) (perform .listPolicies).run w (.ok ps) w') :
    w' = w ∧ ReadsAs number w.rows ps ∧ (ps = [] → w.rows.rows = []) := by
  obtain ⟨i, hi⟩ := ran_perform h
  rcases i with ⟨_ | e, u⟩
  · have hread : (sortedRows w.rows).mapM (readPolicy number) = .ok ps := congrArg Prod.fst hi
    have hreads := readsAs_of_list hread
    refine ⟨(congrArg Prod.snd hi).symm, hreads, ?_⟩
    rintro rfl
    apply List.eq_nil_iff_forall_not_mem.mpr
    intro p hp
    obtain ⟨q, hq, -⟩ := hreads.reads p hp
    exact List.not_mem_nil hq
  · cases congrArg Prod.fst hi

theorem silent_list : Silent .listPolicies := ⟨fun p => by simp, fun r => by simp⟩
theorem silent_claim : Silent .claimCoordinator := ⟨fun p => by simp, fun r => by simp⟩

theorem silent_beat : Silent .coordinatorHeartbeat := ⟨fun p => by simp, fun r => by simp⟩
theorem silent_audit {x y z : String} : Silent (.appendAudit x y z) :=
  ⟨fun p => by simp, fun r => by simp⟩
theorem silent_read : Silent .readPolicies := ⟨fun p => by simp, fun r => by simp⟩

/-! ## opening -/

theorem seedEmpty_passed {ps : List Policy} (hps : ps = [] → w.rows.rows = [])
    (h : Prog.Passed (exec number) (seedEmpty ps).run w w') :
    w'.rows = w.rows ∨ w.rows.rows = [] ∧ Seeding w'.rows := by
  unfold seedEmpty at h
  by_cases hnil : ps = []
  · rw [if_pos hnil] at h
    exact .inr ⟨hps hnil, seedOrRelease_passed (hps hnil) h⟩
  · rw [if_neg hnil] at h
    cases h
    exact .inl rfl

theorem seedEmpty_ran {ps : List Policy} (hps : ps = [] → w.rows.rows = [])
    (h : Prog.Ran (exec number) (seedEmpty ps).run w (.ok ()) w') :
    ps = [] ∧ w'.rows.rows = [Policy.default, Policy.emergencyPolicy] ∨
      ps ≠ [] ∧ w'.rows = w.rows := by
  unfold seedEmpty at h
  by_cases hnil : ps = []
  · rw [if_pos hnil] at h
    exact .inl ⟨hnil, seedOrRelease_ran (hps hnil) h⟩
  · rw [if_neg hnil] at h
    cases h
    exact .inr ⟨hnil, rfl⟩

/-- keeping the registry and what follows write no row -/
theorem openTail_quiet (policies : PolicyRegistry) :
    Prog.Only Quiet (do
      perform (.setPolicies policies)
      finishOpen
      pure policies : M PolicyRegistry).run := by
  apply only_bind (only_perform fun p => by simp)
  intro _
  apply only_bind (finishOpen_silent.mono fun c hc => hc.1)
  intro _
  exact only_pure

theorem quiet_passed {α : Type} {x : M α} (hx : Prog.Only Quiet x.run)
    (h : Prog.Passed (exec number) x.run w w') : w'.rows = w.rows := by
  refine Prog.Only.passed (K := fun v => v.rows = w.rows) hx ?_ h rfl
  intro c i v r v' hc he hv
  have hstep : (run number c i v).2 = v' := congrArg Prod.snd (Option.some.inj he)
  rw [← hstep, run_quiet hc, hv]

/-- what a stopped open leaves: the table it found, or a seed that got some way -/
theorem openPolicies_passed (h : Prog.Passed (exec number) openPolicies.run w w') :
    w'.rows = w.rows ∨ w.rows.rows = [] ∧ Seeding w'.rows := by
  rcases passed_seq h with h | ⟨ps, w₁, hlist, h₁⟩
  · rw [silent_passed (only_perform silent_list) h]
    exact .inl rfl
  obtain ⟨hw₁, -, hempty⟩ := ran_listPolicies hlist
  rw [hw₁] at h₁
  rcases passed_seq h₁ with h₁ | ⟨policies, w₂, hload, h₂⟩
  · cases h₁
    exact .inl rfl
  obtain ⟨-, hw₂⟩ := ran_settle.mp hload
  rw [hw₂] at h₂
  rcases passed_seq h₂ with h₂ | ⟨_, w₃, hclaim, h₃⟩
  · rw [silent_passed (only_perform silent_claim) h₂]
    exact .inl rfl
  rw [silent_ran (only_perform silent_claim) hclaim] at h₃
  rcases passed_seq h₃ with h₃ | ⟨_, w₄, hseed, h₄⟩
  · exact seedEmpty_passed hempty h₃
  · rw [quiet_passed (openTail_quiet policies) h₄]
    exact seedEmpty_passed hempty hseed.passed

/-- what a successful open returns: the built-in policies after seeding an empty table, or what the
rows read back as -/
theorem openPolicies_ran {r : PolicyRegistry}
    (h : Prog.Ran (exec number) openPolicies.run w (.ok r) w') :
    r.validateComplete = .ok () ∧ w'.policies = r ∧
      (w.rows.rows = [] ∧ r = .withDefaults ∧
          w'.rows.rows = [Policy.default, Policy.emergencyPolicy] ∨
        w.rows.rows ≠ [] ∧ ReadsAs number w.rows r.policies ∧ w'.rows = w.rows) := by
  obtain ⟨ps, w₁, hlist, h⟩ := ran_seq_ok h
  obtain ⟨hw₁, hreads, hempty⟩ := ran_listPolicies hlist
  rw [hw₁] at h
  obtain ⟨policies, w₂, hload, h⟩ := ran_seq_ok h
  obtain ⟨hload, hw₂⟩ := ran_settle.mp hload
  rw [hw₂] at h
  obtain ⟨_, w₃, hclaim, h⟩ := ran_seq_ok h
  rw [silent_ran (only_perform silent_claim) hclaim] at h
  obtain ⟨_, w₄, hseed, h⟩ := ran_seq_ok h
  obtain ⟨_, w₅, hset, h⟩ := ran_seq_ok h
  obtain ⟨_, w₆, hfinish, h⟩ := ran_seq_ok h
  obtain ⟨hr, hw'⟩ := ran_pure.mp h
  cases hr
  obtain ⟨i, hi⟩ := ran_perform hset
  have hw₅ : w₅ = { w₄ with policies := r } := (congrArg Prod.snd hi).symm
  have hw : w' = { w₄ with policies := r } := by
    rw [hw', silent_ran finishOpen_silent hfinish, hw₅]
  obtain ⟨hcomplete, hregistry⟩ := loadRegistry_ok hload.symm
  refine ⟨hcomplete, by rw [hw], ?_⟩
  rcases hregistry with ⟨hps, hr⟩ | ⟨hps, hr⟩
  · rcases seedEmpty_ran hempty hseed with ⟨-, hrows⟩ | ⟨hne, -⟩
    · refine .inl ⟨hempty hps, hr, ?_⟩
      rw [hw]
      exact hrows
    · exact absurd hps hne
  · rcases seedEmpty_ran hempty hseed with ⟨hnil, -⟩ | ⟨-, hrows⟩
    · exact absurd hnil hps
    · rw [hr]
      refine .inr ⟨?_, hreads, ?_⟩
      · intro hnil
        obtain ⟨q, hq⟩ := List.exists_mem_of_ne_nil ps hps
        obtain ⟨p, hp, -⟩ := hreads.only q hq
        rw [← Table.mem_rows, hnil] at hp
        exact List.not_mem_nil hp
      · rw [hw]
        exact hrows

/-! ## adding -/

theorem prospective_silent (p : Policy) : Prog.Only Silent (prospective p).run := by
  apply only_bind only_settle
  intro _
  apply only_bind (only_perform silent_beat)
  intro _
  apply only_bind (only_perform silent_read)
  intro policies
  apply only_bind only_settle
  intro next
  exact only_bind only_settle fun _ => only_pure

theorem prospective_ran {p : Policy} {next : PolicyRegistry}
    (h : Prog.Ran (exec number) (prospective p).run w (.ok next) w') :
    w.policies.add p = .ok next ∧ next.validateComplete = .ok () := by
  obtain ⟨_, w₁, hvalid, h⟩ := ran_seq_ok h
  rw [(ran_settle.mp hvalid).2] at h
  obtain ⟨_, w₂, hbeat, h⟩ := ran_seq_ok h
  rw [silent_ran (only_perform silent_beat) hbeat] at h
  obtain ⟨policies, w₃, hread, h⟩ := ran_seq_ok h
  obtain ⟨i, hi⟩ := ran_perform hread
  have hpol : policies = w.policies := (Except.ok.inj (congrArg Prod.fst hi)).symm
  obtain ⟨added, w₄, hadd, h⟩ := ran_seq_ok h
  obtain ⟨_, w₅, hcomplete, h⟩ := ran_seq_ok h
  cases (ran_pure.mp h).1
  rw [← hpol]
  exact ⟨(ran_settle.mp hadd).1.symm, (ran_settle.mp hcomplete).1.symm⟩

/-- a stopped addition has written its row or not -/
theorem addPolicy_passed {p : Policy} (h : Prog.Passed (exec number) (addPolicy p).run w w') :
    w'.rows = w.rows ∨ w'.rows = upsert p w.rows ∧ ∃ next, w.policies.add p = .ok next := by
  rcases passed_seq h with h | ⟨next, w₁, hnext, h₁⟩
  · rw [silent_passed (prospective_silent p) h]
    exact .inl rfl
  obtain ⟨hadd, -⟩ := prospective_ran hnext
  rw [silent_ran (prospective_silent p) hnext] at h₁
  rcases passed_seq h₁ with h₁ | ⟨_, w₂, hwrite, h₂⟩
  · rcases passed_upsert h₁ with rfl | rfl
    · exact .inl rfl
    · exact .inr ⟨rfl, next, hadd⟩
  · have hquiet : Prog.Only Quiet (do
        perform (.setPolicies next)
        perform (.appendAudit "POLICY_ADDED" p.fullId p.kind.debug) : M Unit).run :=
      only_bind (only_perform fun p => by simp) fun _ => only_perform fun p => by simp
    rw [quiet_passed hquiet h₂, ran_upsert hwrite]
    exact .inr ⟨rfl, next, hadd⟩

/-- an addition that returned has done nothing, or has written the row and replaced the registry;
when it returned `Ok`, the latter -/
theorem addPolicy_ran {p : Policy} {r : Res Unit}
    (h : Prog.Ran (exec number) (addPolicy p).run w r w') :
    w' = w ∧ r ≠ .ok () ∨
      ∃ next, w.policies.add p = .ok next ∧ next.validateComplete = .ok () ∧
        w' = ⟨upsert p w.rows, next⟩ := by
  rcases ran_seq.mp h with ⟨e, rfl, h'⟩ | ⟨next, w₁, hnext, h₁⟩
  · exact .inl ⟨silent_ran (prospective_silent p) h', fun he => by cases he⟩
  obtain ⟨hadd, hcomplete⟩ := prospective_ran hnext
  rw [silent_ran (prospective_silent p) hnext] at h₁
  rcases ran_seq.mp h₁ with ⟨e, rfl, h'⟩ | ⟨_, w₂, hwrite, h₂⟩
  · obtain ⟨i, hi⟩ := ran_perform h'
    rcases upsert_cases number p i w with hc | ⟨e', hc⟩
    · rw [hc] at hi
      cases congrArg Prod.fst hi
    · rw [hc] at hi
      exact .inl ⟨(congrArg Prod.snd hi).symm, fun he => by cases he⟩
  · rw [ran_upsert hwrite] at h₂
    refine .inr ⟨next, hadd, hcomplete, ?_⟩
    rcases ran_seq.mp h₂ with ⟨e, -, h'⟩ | ⟨_, w₃, hset, h₃⟩
    · obtain ⟨i, hi⟩ := ran_perform h'
      cases congrArg Prod.fst hi
    · obtain ⟨i, hi⟩ := ran_perform hset
      rw [silent_ran (only_perform silent_audit) h₃]
      exact (congrArg Prod.snd hi).symm

end

/-! ## runs -/

/-- a store with its history: is a process serving, which additions returned `Ok`, and which were
submitted -/
structure History where
  world : World
  up : Bool
  added : List Policy
  submitted : List Policy

def fresh : History := ⟨⟨.empty, .default⟩, false, [], []⟩

/-- opens, additions, failures, crashes and shutdowns in any order; a process may stop in any state
an open goes through that `mayStop` admits -/
inductive Reach (number : F64 → Res F64) (mayStop : World → Prop) : History → Prop where
  | start : Reach number mayStop fresh
  | opened {w w' : World} {A S : List Policy} {r : PolicyRegistry} :
      Reach number mayStop ⟨w, false, A, S⟩ →
      Prog.Ran (exec number) openPolicies.run w (.ok r) w' →
      Reach number mayStop ⟨w', true, A, S⟩
  | openStopped {w w' : World} {A S : List Policy} :
      Reach number mayStop ⟨w, false, A, S⟩ → Prog.Passed (exec number) openPolicies.run w w' →
      mayStop w' → Reach number mayStop ⟨w', false, A, S⟩
  | added {w w' : World} {A S : List Policy} {p : Policy} :
      Reach number mayStop ⟨w, true, A, S⟩ →
      Prog.Ran (exec number) (addPolicy p).run w (.ok ()) w' →
      Reach number mayStop ⟨w', true, p :: A, p :: S⟩
  | refused {w w' : World} {A S : List Policy} {p : Policy} {e : ReclaimError} :
      Reach number mayStop ⟨w, true, A, S⟩ →
      Prog.Ran (exec number) (addPolicy p).run w (.error e) w' →
      Reach number mayStop ⟨w', true, A, p :: S⟩
  | addStopped {w w' : World} {A S : List Policy} {p : Policy} :
      Reach number mayStop ⟨w, true, A, S⟩ → Prog.Passed (exec number) (addPolicy p).run w w' →
      Reach number mayStop ⟨w', false, A, p :: S⟩
  | stopped {w : World} {A S : List Policy} :
      Reach number mayStop ⟨w, true, A, S⟩ → Reach number mayStop ⟨w, false, A, S⟩

def builtIn : List Policy := [Policy.default, Policy.emergencyPolicy]

/-- the default policy has been written and the emergency policy has not -/
def HalfSeeded (w : World) : Prop :=
  Policy.default ∈ w.rows ∧ Policy.emergencyPolicy ∉ w.rows

/-! ## what the table keeps -/

/-- every row was built in or submitted; a table that is not empty has the built-in policies and
every policy that was added; the registry of a serving process has every row -/
structure Kept (h : History) : Prop where
  origin : ∀ p ∈ h.world.rows, p ∈ builtIn ++ h.submitted
  seeded : h.world.rows.rows = [] ∧ h.added = [] ∧ h.up = false ∨
    ∀ p ∈ builtIn ++ h.added, p ∈ h.world.rows
  mirrored : h.up = true → ∀ p ∈ h.world.rows, ∃ q ∈ h.world.policies.policies,
    q.id = p.id ∧ q.version = p.version

section
variable {number : F64 → Res F64} {w w' : World} {A S : List Policy} {p : Policy}

theorem readPolicy_key {q : Policy} (h : readPolicy number p = .ok q) :
    q.id = p.id ∧ q.version = p.version := by
  obtain ⟨_, -, h⟩ := Result.bind_ok.mp h
  obtain ⟨_, -, h⟩ := Result.bind_ok.mp h
  obtain ⟨_, -, h⟩ := Result.bind_ok.mp h
  cases h
  exact ⟨rfl, rfl⟩

theorem mem_seeded {T : Rows} (h : T.rows = builtIn) (q : Policy) : q ∈ T ↔ q ∈ builtIn := by
  rw [← Table.mem_rows, h]

/-- a registry that mirrors the table refuses a second policy of one id and version -/
theorem add_new {next : PolicyRegistry} (hadd : w.policies.add p = .ok next)
    (hm : ∀ p ∈ w.rows, ∃ q ∈ w.policies.policies, q.id = p.id ∧ q.version = p.version) :
    w.rows.find? (p.id, p.version) = none := by
  cases hf : w.rows.find? (p.id, p.version) with
  | none => rfl
  | some row =>
    obtain ⟨q, hq, hid, hver⟩ := hm row (Table.mem_of_find? hf)
    have hkey := Table.key_of_find? hf
    obtain ⟨_, -, hadd⟩ := Result.bind_ok.mp hadd
    rw [if_pos] at hadd
    · cases hadd
    · apply List.any_eq_true.mpr
      refine ⟨q, hq, ?_⟩
      have h₁ : q.id = p.id := hid.trans (congrArg Prod.fst hkey)
      have h₂ : q.version = p.version := hver.trans (congrArg Prod.snd hkey)
      simp [h₁, h₂]

/-- one more row -/
theorem mem_upsert (h : w.rows.find? (p.id, p.version) = none) (q : Policy) :
    q ∈ upsert p w.rows ↔ q ∈ w.rows ∨ q = p := by
  rw [← Table.mem_rows, upsert_new h, List.mem_append, List.mem_singleton, Table.mem_rows]

/-- a written addition keeps what the table keeps -/
theorem Kept.write (h : Kept ⟨w, true, A, S⟩) {next : PolicyRegistry}
    (hadd : w.policies.add p = .ok next) :
    Kept ⟨⟨upsert p w.rows, next⟩, true, p :: A, p :: S⟩ := by
  have hnew := add_new hadd (h.mirrored rfl)
  constructor
  · intro q hq
    rcases (mem_upsert hnew q).mp hq with hq | rfl
    · have := h.origin q hq
      simp only [List.mem_append, List.mem_cons] at this ⊢
      tauto
    · simp
  · refine .inr fun q hq => (mem_upsert hnew q).mpr ?_
    rcases h.seeded with ⟨-, -, hup⟩ | hseed
    · cases hup
    · have hq' : q ∈ builtIn ++ A ∨ q = p := by
        simp only [List.mem_append, List.mem_cons] at hq ⊢
        tauto
      rcases hq' with hq' | rfl
      · exact .inl (hseed q hq')
      · exact .inr rfl
  · intro _ q hq
    rw [add_ok hadd]
    rcases (mem_upsert hnew q).mp hq with hq | rfl
    · obtain ⟨x, hx, hkey⟩ := h.mirrored rfl q hq
      exact ⟨x, List.mem_append_left _ hx, hkey⟩
    · exact ⟨q, by simp, rfl, rfl⟩

/-- fewer additions and more submissions -/
theorem Kept.weaken {u u' : Bool} {A' S' : List Policy} (h : Kept ⟨w, u, A, S⟩)
    (hA : ∀ q ∈ A', q ∈ A) (hS : ∀ q ∈ S, q ∈ S') (hrows : w'.rows = w.rows)
    (hu : u' = true → u = true ∧ w'.policies = w.policies) : Kept ⟨w', u', A', S'⟩ := by
  constructor
  · intro q hq
    rw [hrows] at hq
    rcases List.mem_append.mp (h.origin q hq) with hb | hs
    · exact List.mem_append_left _ hb
    · exact List.mem_append_right _ (hS q hs)
  · rcases h.seeded with ⟨hnil, hadded, hup⟩ | hseed
    · refine .inl ⟨?_, ?_, ?_⟩
      · show w'.rows.rows = []
        rw [hrows]
        exact hnil
      · apply List.eq_nil_iff_forall_not_mem.mpr
        intro q hq
        have hmem := hA q hq
        rw [show A = [] from hadded] at hmem
        exact List.not_mem_nil hmem
      · cases hu' : u' with
        | false => rfl
        | true => exact absurd (hu hu').1 (by rw [show u = false from hup]; simp)
    · refine .inr fun q hq => ?_
      show q ∈ w'.rows
      rw [hrows]
      rcases List.mem_append.mp hq with hb | ha
      · exact hseed q (List.mem_append_left _ hb)
      · exact hseed q (List.mem_append_right _ (hA q ha))
  · intro hup q hq
    obtain ⟨hu', hpol⟩ := hu hup
    show ∃ x ∈ w'.policies.policies, _
    rw [hpol]
    rw [hrows] at hq
    exact h.mirrored hu' q hq

/-- a table that holds exactly the built-in policies, with nothing added -/
theorem kept_seeded {u : Bool} (hA : A = []) (hrows : w'.rows.rows = builtIn)
    (hu : u = true → w'.policies = .withDefaults) : Kept ⟨w', u, A, S⟩ := by
  constructor
  · intro q hq
    exact List.mem_append_left _ ((mem_seeded hrows q).mp hq)
  · refine .inr fun q hq => ?_
    rw [hA, List.append_nil] at hq
    exact (mem_seeded hrows q).mpr hq
  · intro hup q hq
    refine ⟨q, ?_, rfl, rfl⟩
    show q ∈ w'.policies.policies
    rw [hu hup]
    exact (mem_seeded hrows q).mp hq

theorem Kept.added_nil (h : Kept ⟨w, false, A, S⟩) (hw : w.rows.rows = []) : A = [] := by
  rcases h.seeded with ⟨-, hA, -⟩ | hseed
  · exact hA
  · have hmem : Policy.default ∈ w.rows := hseed Policy.default (by simp [builtIn])
    rw [← Table.mem_rows, hw] at hmem
    exact absurd hmem List.not_mem_nil

theorem Kept.opened (h : Kept ⟨w, false, A, S⟩) {r : PolicyRegistry}
    (hr : Prog.Ran (exec number) openPolicies.run w (.ok r) w') : Kept ⟨w', true, A, S⟩ := by
  obtain ⟨-, hpol, ⟨hnil, hdef, hrows⟩ | ⟨hne, hreads, hrows⟩⟩ := openPolicies_ran hr
  · exact kept_seeded (h.added_nil hnil) hrows fun _ => hpol.trans hdef
  · constructor
    · intro q hq
      rw [hrows] at hq
      exact h.origin q hq
    · rcases h.seeded with ⟨hnil, -, -⟩ | hseed
      · exact absurd hnil hne
      · refine .inr fun q hq => ?_
        show q ∈ w'.rows
        rw [hrows]
        exact hseed q hq
    · intro _ q hq
      rw [hrows] at hq
      obtain ⟨x, hx, hread⟩ := hreads.reads q hq
      refine ⟨x, ?_, readPolicy_key hread⟩
      show x ∈ w'.policies.policies
      rw [hpol]
      exact hx

/-- an open that stops outside the two seed writes keeps what the table keeps -/
theorem Kept.openStopped (h : Kept ⟨w, false, A, S⟩)
    (hp : Prog.Passed (exec number) openPolicies.run w w') (hw' : ¬HalfSeeded w') :
    Kept ⟨w', false, A, S⟩ := by
  rcases openPolicies_passed hp with hrows | ⟨hnil, hnil' | hhalf | hboth⟩
  · exact h.weaken (fun _ hq => hq) (fun _ hq => hq) hrows fun hu => by cases hu
  · refine h.weaken (fun _ hq => hq) (fun _ hq => hq) ?_ fun hu => by cases hu
    exact Table.ext_rows (hnil'.trans hnil.symm)
  · refine absurd ⟨?_, ?_⟩ hw'
    · rw [← Table.mem_rows, hhalf]
      exact List.mem_singleton_self _
    · rw [← Table.mem_rows, hhalf]
      decide
  · exact kept_seeded (h.added_nil hnil) hboth fun hu => by cases hu

theorem Reach.kept {h : History} (hr : Reach number (fun v => ¬HalfSeeded v) h) : Kept h := by
  induction hr with
  | start =>
    refine ⟨fun q hq => absurd hq (Table.not_mem_empty q), .inl ⟨rfl, rfl, rfl⟩, ?_⟩
    intro hup
    cases hup
  | opened _ hrun ih => exact ih.opened hrun
  | openStopped _ hp hw' ih => exact ih.openStopped hp hw'
  | added _ hrun ih =>
    rcases addPolicy_ran hrun with ⟨-, hne⟩ | ⟨next, hadd, -, rfl⟩
    · exact absurd rfl hne
    · exact ih.write hadd
  | refused _ hrun ih =>
    rcases addPolicy_ran hrun with ⟨rfl, -⟩ | ⟨next, hadd, -, rfl⟩
    · exact ih.weaken (fun _ hq => hq) (fun _ hq => List.mem_cons_of_mem _ hq) rfl
        fun hu => ⟨hu, rfl⟩
    · exact (ih.write hadd).weaken (fun _ hq => List.mem_cons_of_mem _ hq) (fun _ hq => hq) rfl
        fun hu => ⟨hu, rfl⟩
  | addStopped _ hp ih =>
    rcases addPolicy_passed hp with hrows | ⟨hrows, next, hadd⟩
    · exact ih.weaken (fun _ hq => hq) (fun _ hq => List.mem_cons_of_mem _ hq) hrows
        fun hu => by cases hu
    · exact (ih.write hadd).weaken (fun _ hq => List.mem_cons_of_mem _ hq) (fun _ hq => hq) hrows
        fun hu => by cases hu
  | stopped _ ih =>
    exact ih.weaken (fun _ hq => hq) (fun _ hq => hq) rfl fun hu => by cases hu

/-- the document, or the document as its row reads back -/
def Same (number : F64 → Res F64) (p q : Policy) : Prop := q = p ∨ readPolicy number p = .ok q

/-- as long as no open stops between its two seed writes, every successful open holds the built-in
policies and every policy that was added, holds nothing else than what was submitted, and is
complete -/
theorem policies_survive_restarts (number : F64 → Res F64) {w w' : World} {A S : List Policy}
    {r : PolicyRegistry} (h : Reach number (fun v => ¬HalfSeeded v) ⟨w, false, A, S⟩)
    (hr : Prog.Ran (exec number) openPolicies.run w (.ok r) w') :
    (∀ p ∈ builtIn ++ A, ∃ q ∈ r.policies, Same number p q) ∧
      (∀ q ∈ r.policies, ∃ p ∈ builtIn ++ S, Same number p q) ∧
      r.validateComplete = .ok () := by
  have hk := h.kept
  obtain ⟨hcomplete, -, ⟨hnil, rfl, -⟩ | ⟨hne, hreads, -⟩⟩ := openPolicies_ran hr
  · refine ⟨?_, ?_, hcomplete⟩
    · intro p hp
      rw [hk.added_nil hnil, List.append_nil] at hp
      exact ⟨p, hp, .inl rfl⟩
    · intro q hq
      exact ⟨q, List.mem_append_left _ hq, .inl rfl⟩
  · refine ⟨?_, ?_, hcomplete⟩
    · intro p hp
      rcases hk.seeded with ⟨hnil, -, -⟩ | hseed
      · exact absurd hnil hne
      · obtain ⟨q, hq, hread⟩ := hreads.reads p (hseed p hp)
        exact ⟨q, hq, .inr hread⟩
    · intro q hq
      obtain ⟨p, hp, hread⟩ := hreads.only q hq
      exact ⟨p, hk.origin p hp, .inr hread⟩

end

/-! ## a seed cut in half -/

namespace Sample

/-- every number reads back as itself -/
def exact : F64 → Res F64 := Except.ok

def calm : Nat → Input := fun _ => ⟨none, []⟩

/-- the world and the answer of an open without failures -/
def reopened (w : World) : Option (PolicyRegistry × World) :=
  match openPolicies.run.eval (PolicyStore.exec exact) calm 0 w with
  | some (.ok r, w') => some (r, w')
  | _ => none

theorem reopened_ran {w w' : World} {r : PolicyRegistry} (h : reopened w = some (r, w')) :
    Prog.Ran (PolicyStore.exec exact) openPolicies.run w (.ok r) w' := by
  unfold reopened at h
  split at h
  · next hev =>
    cases h
    exact Prog.ran_of_eval hev
  · cases h

/-- a fresh store whose first open stopped after three steps -/
def half : World := openPolicies.run.cut (PolicyStore.exec exact) calm 3 fresh.world

theorem reached_half : Reach exact (fun _ => True) ⟨half, false, [], []⟩ :=
  .openStopped .start (Prog.passed_cut _ _ _ _ _) trivial

/-- a policy for the objects of one owner -/
def owned : Policy :=
  { Policy.default with
    id := "keep-training"
    kind := .owner
    matchOwner := some "training"
    description := "" }

/-- the world of an addition that returned `Ok` -/
def addedTo (w : World) : Option World :=
  match (addPolicy owned).run.eval (PolicyStore.exec exact) calm 0 w with
  | some (.ok (), w') => some w'
  | _ => none

theorem addedTo_ran {w w' : World} (h : addedTo w = some w') :
    Prog.Ran (PolicyStore.exec exact) (addPolicy owned).run w (.ok ()) w' := by
  unfold addedTo at h
  split at h
  · next hev =>
    cases h
    exact Prog.ran_of_eval hev
  · cases h

/-- open, add, stop, open -/
def again : Option (PolicyRegistry × World) := do
  let x ← reopened fresh.world
  let w ← addedTo x.2
  reopened w

end Sample

theorem half_seeded_restart :
    ∃ (w w' : World) (r : PolicyRegistry),
      Reach Sample.exact (fun _ => True) ⟨w, false, [], []⟩ ∧
        Prog.Ran (exec Sample.exact) openPolicies.run w (.ok r) w' ∧
        ¬∃ q ∈ r.policies, Same Sample.exact Policy.emergencyPolicy q := by
  have hopen : (Sample.reopened Sample.half).map (fun x => x.1.policies) =
      some [Policy.default] := by decide +kernel
  obtain ⟨⟨r, w'⟩, hx, hr⟩ := Option.map_eq_some_iff.mp hopen
  refine ⟨Sample.half, w', r, Sample.reached_half, Sample.reopened_ran hx, ?_⟩
  rintro ⟨q, hq, hsame⟩
  have hq' : q = Policy.default := by
    rw [show r.policies = [Policy.default] from hr] at hq
    exact List.mem_singleton.mp hq
  rcases hsame with h | h
  · exact absurd (hq'.symm.trans h) (by decide)
  · have hread : readPolicy Sample.exact Policy.emergencyPolicy = .ok Policy.emergencyPolicy := rfl
    rw [hread] at h
    exact absurd (hq'.symm.trans (Except.ok.inj h).symm) (by decide)

theorem policies_survive_restarts_added :
    ∃ (w w' : World) (r : PolicyRegistry),
      Reach Sample.exact (fun v => ¬HalfSeeded v) ⟨w, false, [Sample.owned], [Sample.owned]⟩ ∧
        Prog.Ran (exec Sample.exact) openPolicies.run w (.ok r) w' ∧
        ∃ q ∈ r.policies, Same Sample.exact Sample.owned q := by
  have hsome : Sample.again.isSome = true := by decide +kernel
  obtain ⟨⟨r, w'⟩, hagain⟩ := Option.isSome_iff_exists.mp hsome
  unfold Sample.again at hagain
  obtain ⟨⟨r₁, w₁⟩, h₁, hagain⟩ := Option.bind_eq_some_iff.mp hagain
  obtain ⟨w₂, h₂, h₃⟩ := Option.bind_eq_some_iff.mp hagain
  have hopened : Reach Sample.exact (fun v => ¬HalfSeeded v) ⟨w₁, true, [], []⟩ :=
    .opened .start (Sample.reopened_ran h₁)
  have hreach := (hopened.added (Sample.addedTo_ran h₂)).stopped
  have hran := Sample.reopened_ran h₃
  refine ⟨w₂, w', r, hreach, hran, ?_⟩
  exact (policies_survive_restarts Sample.exact hreach hran).1 Sample.owned (by simp)

end PolicyStore

end ReclaimFabric
