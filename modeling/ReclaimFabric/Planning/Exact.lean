import Mathlib.Algebra.Order.Field.Basic
import Mathlib.Algebra.Order.Field.Rat
import Mathlib.Data.Rat.Cast.Order
import Mathlib.Tactic.Linarith
import ReclaimFabric.Planning.Policy

/-!
# The decision engine over exact rationals

`economics.rs` and `policy.rs` once more, with rational numbers for the doubles: a field of an
object or of a policy is read as the number it stands for, and nothing is rounded.

* `derive`, `evaluate`, `decide`   the functions of the source;
* `decide_valid`                   a valid object gets a decision;
* `Arith.Exact`, `decide_refines`  an exact machine arithmetic decides the same;
* `decide_monotone`                more pressure never saves an object.
-/

namespace ReclaimFabric

/-! ## doubles as numbers -/

namespace F64

theorem value_dec (m e : Int) (h : e < 0) : value (.dec m e) = (m : ℚ) / (10 ^ (-e).toNat : ℕ) := by
  show (if 0 ≤ e then _ else mkRat m (10 ^ (-e).toNat)) = _
  rw [if_neg (not_le.mpr h), Rat.mkRat_eq_div]

theorem value_nonneg {x : F64} (h : x.isNegative = false) : 0 ≤ x.value := by
  cases x with
  | dec m e =>
    have hm : 0 ≤ m := not_lt.mp (of_decide_eq_false h)
    by_cases he : 0 ≤ e
    · show 0 ≤ if 0 ≤ e then ((m * 10 ^ e.toNat : Int) : ℚ) else _
      rw [if_pos he]
      exact_mod_cast mul_nonneg hm (by positivity)
    · rw [value_dec m e (not_le.mp he)]
      exact div_nonneg (by exact_mod_cast hm) (Nat.cast_nonneg _)
  | inf n => exact le_refl _
  | nan => exact le_refl _

theorem value_unit {x : F64} (h : x.inUnit = true) : 0 ≤ x.value ∧ x.value ≤ 1 := by
  cases x with
  | dec m e =>
    have hb : 0 ≤ m ∧ m * 10 ^ e.toNat ≤ 10 ^ (-e).toNat := by
      simpa [inUnit] using h
    refine ⟨value_nonneg (by simpa [isNegative] using hb.1), ?_⟩
    by_cases he : 0 ≤ e
    · have hz : (-e).toNat = 0 := by omega
      have h1 : m * 10 ^ e.toNat ≤ 1 := by simpa [hz] using hb.2
      show (if 0 ≤ e then ((m * 10 ^ e.toNat : Int) : ℚ) else _) ≤ 1
      rw [if_pos he]
      exact_mod_cast h1
    · have hz : e.toNat = 0 := by omega
      have h1 : m ≤ 10 ^ (-e).toNat := by simpa [hz] using hb.2
      rw [value_dec m e (not_le.mp he), div_le_one (by positivity)]
      exact_mod_cast h1
  | inf n => exact absurd h (by simp [inUnit])
  | nan => exact absurd h (by simp [inUnit])

end F64

/-- a finite double and the number it stands for -/
def F64.Reads (x : F64) (v : ℚ) : Prop := x.isFinite = true ∧ x.value = v

theorem F64.Reads.le_iff {x y : F64} {u v : ℚ} (hx : x.Reads u) (hy : y.Reads v) :
    x.le y = true ↔ u ≤ v := by
  obtain ⟨hx, rfl⟩ := hx
  obtain ⟨hy, rfl⟩ := hy
  rw [F64.le, F64.partialCmp_finite hx hy]
  cases hc : compare x.value y.value with
  | lt => simpa using (compare_lt_iff_lt.mp hc).le
  | eq => simpa using (compare_eq_iff_eq.mp hc).le
  | gt => simpa using compare_gt_iff_gt.mp hc

/-- an arithmetic that rounds nothing; a quotient need not be a double -/
structure Arith.Exact (a : Arith) : Prop where
  add : ∀ {x y : F64} {u v : ℚ}, x.Reads u → y.Reads v → (a.add x y).Reads (u + v)
  sub : ∀ {x y : F64} {u v : ℚ}, x.Reads u → y.Reads v → (a.sub x y).Reads (u - v)
  mul : ∀ {x y : F64} {u v : ℚ}, x.Reads u → y.Reads v → (a.mul x y).Reads (u * v)
  max : ∀ {x y : F64} {u v : ℚ}, x.Reads u → y.Reads v → (a.max x y).Reads (Max.max u v)
  ofNat : ∀ n : ℕ, (a.ofNat n).Reads n

/-- the costs of the object are finite doubles -/
structure ReclaimObject.Finite (o : ReclaimObject) : Prop where
  reuse : o.reuseProbability.isFinite = true
  recompute : ∀ y ∈ o.recomputeCost, y.isFinite = true
  transfer : ∀ y ∈ o.transferCost, y.isFinite = true
  migration : ∀ y ∈ o.migrationCost, y.isFinite = true
  storage : o.storageCostPerByteSec.isFinite = true
  memory : o.memoryCostPerByteSec.isFinite = true

/-- the weights are finite doubles -/
structure Economics.CostWeights.Finite (w : CostWeights) : Prop where
  reuse : w.weightReuseValue.isFinite = true
  avoidance : w.weightReconstructionAvoidance.isFinite = true
  dependency : w.weightDependencyValue.isFinite = true
  survivability : w.weightSurvivabilityValue.isFinite = true
  memory : w.weightMemory.isFinite = true
  storage : w.weightStorage.isFinite = true
  replication : w.weightReplication.isFinite = true
  pressure : w.weightPressure.isFinite = true
  transfer : w.weightTransfer.isFinite = true
  migration : w.weightMigration.isFinite = true

/-- the order of the levels -/
def PressureLevel.rank : PressureLevel → Nat
  | .normal => 0
  | .elevated => 1
  | .high => 2
  | .critical => 3

instance : LE PressureLevel := ⟨fun p q => p.rank ≤ q.rank⟩

instance (p q : PressureLevel) : Decidable (p ≤ q) := inferInstanceAs (Decidable (_ ≤ _))

namespace Planning

namespace Exact

open Economics (baselineReuseDecaySecs baselineCompressionCostFraction
  baselineArchiveCostFraction baselineFailureRecoveryValueFraction)

/-! ## inputs -/

structure CostInputs where
  retainCost : ℚ
  reconstructionCost : ℚ
  expectedReuseValue : ℚ
  transferCost : ℚ
  migrationCost : ℚ
  storageCost : ℚ
  memoryCost : ℚ
  memoryPressureCost : ℚ
  replicationCost : ℚ
  compressionCost : ℚ
  archiveCost : ℚ
  failureRecoveryValue : ℚ
  dependencyValue : ℚ
  survivabilityValue : ℚ
  reconstructionAvoidanceFraction : ℚ

structure DecisionComponents where
  expectedKeepValue : ℚ
  expectedKeepCost : ℚ
  reclaimScore : ℚ
  retentionBenefit : ℚ
  components : List (String × ℚ)

/-- `unwrap_or(0.0)` -/
def orZero (x : Option F64) : ℚ := (x.map F64.value).getD 0

/-- reuse far in the future is worth less -/
def reuseDecay : Option Nat → ℚ
  | none => 1
  | some h => 1 / (1 + (h : ℚ) / baselineReuseDecaySecs.value)

/-- `CostInputs::derive` -/
def CostInputs.derive (o : ReclaimObject) (pressureMultiplier : ℚ) : CostInputs :=
  let size : ℚ := (Nat.max o.physicalSize o.logicalSize : ℕ)
  let storageCost := size * o.storageCostPerByteSec.value
  let memoryCost := size * o.memoryCostPerByteSec.value
  let replicationCost := memoryCost * max ((o.replicationCount : ℚ) - 1) 0
  let memoryPressureCost := memoryCost * max (pressureMultiplier - 1) 0
  let reconstructionCost := orZero o.recomputeCost
  let expectedReuseValue :=
    o.reuseProbability.value * reconstructionCost * reuseDecay o.reuseHorizonSecs
  { retainCost := memoryCost + storageCost + replicationCost + memoryPressureCost
    reconstructionCost := reconstructionCost
    expectedReuseValue := expectedReuseValue
    transferCost := orZero o.transferCost
    migrationCost := orZero o.migrationCost
    storageCost := storageCost
    memoryCost := memoryCost
    memoryPressureCost := memoryPressureCost
    replicationCost := replicationCost
    compressionCost := orZero o.recomputeCost * baselineCompressionCostFraction.value
    archiveCost := orZero o.transferCost * baselineArchiveCostFraction.value
    failureRecoveryValue := reconstructionCost * baselineFailureRecoveryValueFraction.value
    dependencyValue := 0
    survivabilityValue := 0
    reconstructionAvoidanceFraction := o.reuseProbability.value }

/-! ## the decision surface -/

def evaluate (i : CostInputs) (w : Economics.CostWeights)
    (dependencyValue survivabilityValue : ℚ) : DecisionComponents :=
  let reconstructionAvoidanceValue := i.reconstructionCost * i.reconstructionAvoidanceFraction
  let expectedKeepValue :=
    w.weightReuseValue.value * i.expectedReuseValue +
      w.weightReconstructionAvoidance.value * reconstructionAvoidanceValue +
      w.weightDependencyValue.value * dependencyValue +
      w.weightSurvivabilityValue.value * survivabilityValue
  let memoryCost := w.weightMemory.value * i.memoryCost
  let storageCost := w.weightStorage.value * i.storageCost
  let replicationCost := w.weightReplication.value * i.replicationCost
  let pressureCost := w.weightPressure.value * i.memoryPressureCost
  let transferCost := w.weightTransfer.value * i.transferCost
  let migrationCost := w.weightMigration.value * i.migrationCost
  let expectedKeepCost :=
    memoryCost + storageCost + replicationCost + pressureCost + transferCost + migrationCost
  let retainBenefit := expectedKeepValue - i.retainCost
  let reclaimScore := expectedKeepCost - expectedKeepValue
  { expectedKeepValue := expectedKeepValue
    expectedKeepCost := expectedKeepCost
    reclaimScore := reclaimScore
    retentionBenefit := retainBenefit
    components :=
      [("expected_reuse_value", i.expectedReuseValue),
        ("reconstruction_cost", i.reconstructionCost),
        ("reconstruction_avoidance_value", reconstructionAvoidanceValue),
        ("dependency_value", dependencyValue),
        ("survivability_value", survivabilityValue),
        ("retain_cost", i.retainCost),
        ("storage_cost", i.storageCost),
        ("memory_cost", i.memoryCost),
        ("memory_pressure_cost", i.memoryPressureCost),
        ("replication_cost", i.replicationCost),
        ("transfer_cost", i.transferCost),
        ("migration_cost", i.migrationCost),
        ("compression_cost", i.compressionCost),
        ("archive_cost", i.archiveCost),
        ("failure_recovery_value", i.failureRecoveryValue),
        ("expected_keep_value", expectedKeepValue),
        ("expected_keep_cost", expectedKeepCost),
        ("reclaim_score", reclaimScore),
        ("retention_benefit", retainBenefit)] }

/-- the first offender of `value < 0.0` -/
def checkNonNegative (what : String) (l : List (String × ℚ)) : Res Unit :=
  match l.find? (fun x => Decidable.decide (x.2 < 0)) with
  | some x => .error (.invalidArgument
      s!"{what} {x.1} must be finite and non-negative, got {x.2}")
  | none => .ok ()

/-- `validate_finite` -/
def validateFinite (i : CostInputs) : Res Unit := do
  checkNonNegative "cost input"
    [("retain_cost", i.retainCost), ("reconstruction_cost", i.reconstructionCost),
      ("expected_reuse_value", i.expectedReuseValue), ("transfer_cost", i.transferCost),
      ("migration_cost", i.migrationCost), ("storage_cost", i.storageCost),
      ("memory_cost", i.memoryCost), ("memory_pressure_cost", i.memoryPressureCost),
      ("replication_cost", i.replicationCost), ("compression_cost", i.compressionCost),
      ("archive_cost", i.archiveCost), ("failure_recovery_value", i.failureRecoveryValue),
      ("dependency_value", i.dependencyValue), ("survivability_value", i.survivabilityValue),
      ("reconstruction_avoidance_fraction", i.reconstructionAvoidanceFraction)]
  if ¬ (0 ≤ i.reconstructionAvoidanceFraction ∧ i.reconstructionAvoidanceFraction ≤ 1) then
    throw (.invalidArgument "reconstruction_avoidance_fraction must be in [0,1]")

/-! ## the engine -/

structure DecisionContext where
  dependencyValue : ℚ
  survivabilityValue : ℚ

structure Decision where
  objectId : Uuid
  generation : Nat
  verdict : ReclaimVerdict
  score : ℚ
  threshold : ℚ
  policyId : String
  policyVersion : String
  epoch : Nat
  components : DecisionComponents

def verdictOf (o : ReclaimObject) (p : Policy) (score : ℚ) : ReclaimVerdict :=
  if o.pinned || o.isProtected then .retain
  else if p.reclaimThreshold.value ≤ score ∧
      o.reuseProbability.value ≤ p.minReuseProbability.value then .reclaim
  else .retain

def decisionOf (o : ReclaimObject) (p : Policy) (epoch : Nat) (out : DecisionComponents) :
    Decision where
  objectId := o.id
  generation := o.generation
  verdict := verdictOf o p out.reclaimScore
  score := out.reclaimScore
  threshold := p.reclaimThreshold.value
  policyId := p.id
  policyVersion := p.version
  epoch := epoch
  components := out

/-- `policy::decide`; every rational is finite, so `validate_components` has nothing to refuse -/
def decide (registry : PolicyRegistry) (o : ReclaimObject) (pressure : PressureLevel)
    (epoch : Nat) (_now : Int) (context : DecisionContext) : Res Decision := do
  o.validate
  let p ← registry.resolve o pressure
  validatePolicy p
  checkNonNegative "decision context"
    [("dependency_value", context.dependencyValue),
      ("survivability_value", context.survivabilityValue)]
  let inputs := CostInputs.derive o pressure.multiplier.value
  validateFinite inputs
  let out := evaluate inputs p.weights context.dependencyValue context.survivabilityValue
  pure (decisionOf o p epoch out)

/-! ## valid objects -/

theorem checkNonNegative_ok {what : String} {l : List (String × ℚ)} (h : ∀ x ∈ l, 0 ≤ x.2) :
    checkNonNegative what l = .ok () := by
  have hnone : l.find? (fun x => Decidable.decide (x.2 < 0)) = none := by
    rw [List.find?_eq_none]
    intro x hx hlt
    exact absurd (h x hx) (not_le.mpr (of_decide_eq_true hlt))
  rw [checkNonNegative, hnone]

theorem checkCost_ok {name : String} {x : Option F64}
    (h : ReclaimObject.checkCost name x = .ok ()) :
    ∀ y ∈ x, y.isFinite = true ∧ y.isNegative = false := by
  intro y hy
  obtain rfl : x = some y := hy
  rw [ReclaimObject.checkCost] at h
  split at h
  · cases h
  · next hx => simpa using hx

theorem orZero_nonneg {x : Option F64} (h : ∀ y ∈ x, y.isFinite = true ∧ y.isNegative = false) :
    0 ≤ orZero x := by
  cases x with
  | none => exact le_refl _
  | some x => exact F64.value_nonneg (h x rfl).2

/-- what `validate` has checked of the numbers of an object -/
theorem validate_costs {o : ReclaimObject} (h : o.validate = .ok ()) :
    o.reuseProbability.isFinite = true ∧ o.reuseProbability.inUnit = true ∧
    ∀ x ∈ [o.recomputeCost, o.transferCost, o.migrationCost, some o.storageCostPerByteSec,
      some o.memoryCostPerByteSec], ∀ y ∈ x, y.isFinite = true ∧ y.isNegative = false := by
  unfold ReclaimObject.validate at h
  by_cases hr : (!o.reuseProbability.isFinite || !o.reuseProbability.inUnit) = true
  · rw [if_pos hr] at h
    cases h
  rw [if_neg hr] at h
  change (ReclaimObject.checkCost "recompute_cost" o.recomputeCost >>= fun _ => _) = _ at h
  obtain ⟨_, hrec, h⟩ := Result.bind_ok.mp h
  obtain ⟨-, -, h⟩ := Result.bind_ok.mp h
  obtain ⟨_, htra, h⟩ := Result.bind_ok.mp h
  obtain ⟨_, hmig, h⟩ := Result.bind_ok.mp h
  obtain ⟨_, hsto, h⟩ := Result.bind_ok.mp h
  obtain ⟨_, hmem, -⟩ := Result.bind_ok.mp h
  simp only [Bool.or_eq_true, not_or, Bool.not_eq_true, Bool.not_eq_false'] at hr
  refine ⟨hr.1, hr.2, ?_⟩
  simp only [List.forall_mem_cons]
  exact ⟨checkCost_ok hrec, checkCost_ok htra, checkCost_ok hmig, checkCost_ok hsto,
    checkCost_ok hmem, fun x hx => absurd hx List.not_mem_nil⟩

/-- the numbers of a valid object -/
structure Valid (o : ReclaimObject) : Prop where
  reuse : 0 ≤ o.reuseProbability.value ∧ o.reuseProbability.value ≤ 1
  recompute : 0 ≤ orZero o.recomputeCost
  transfer : 0 ≤ orZero o.transferCost
  migration : 0 ≤ orZero o.migrationCost
  storage : 0 ≤ o.storageCostPerByteSec.value
  memory : 0 ≤ o.memoryCostPerByteSec.value

theorem valid_of_validate {o : ReclaimObject} (h : o.validate = .ok ()) : Valid o := by
  obtain ⟨-, hu, hc⟩ := validate_costs h
  simp only [List.forall_mem_cons] at hc
  obtain ⟨hrec, htra, hmig, hsto, hmem, -⟩ := hc
  exact ⟨F64.value_unit hu, orZero_nonneg hrec, orZero_nonneg htra, orZero_nonneg hmig,
    orZero_nonneg hsto, orZero_nonneg hmem⟩

theorem finite_of_validate {o : ReclaimObject} (h : o.validate = .ok ()) : o.Finite := by
  obtain ⟨hf, -, hc⟩ := validate_costs h
  simp only [List.forall_mem_cons] at hc
  obtain ⟨hrec, htra, hmig, hsto, hmem, -⟩ := hc
  exact ⟨hf, fun y hy => (hrec y hy).1, fun y hy => (htra y hy).1, fun y hy => (hmig y hy).1,
    (hsto _ rfl).1, (hmem _ rfl).1⟩

theorem reuseDecay_nonneg (h : Option Nat) : 0 ≤ reuseDecay h := by
  cases h with
  | none => exact zero_le_one
  | some h =>
    have hb : (0 : ℚ) ≤ baselineReuseDecaySecs.value := F64.value_nonneg rfl
    show (0 : ℚ) ≤ 1 / (1 + (h : ℚ) / baselineReuseDecaySecs.value)
    positivity

/-- the inputs of a valid object pass the check -/
theorem validateFinite_derive {o : ReclaimObject} (V : Valid o) (m : ℚ) :
    validateFinite (.derive o m) = .ok () := by
  obtain ⟨hr, hrec, htra, hmig, hsto, hmem⟩ := V
  have hsize : (0 : ℚ) ≤ (Nat.max o.physicalSize o.logicalSize : ℕ) := Nat.cast_nonneg _
  have hM := mul_nonneg hsize hmem
  have hS := mul_nonneg hsize hsto
  have hR := mul_nonneg hM (le_max_right ((o.replicationCount : ℚ) - 1) 0)
  have hP := mul_nonneg hM (le_max_right (m - 1) 0)
  have hV := mul_nonneg (mul_nonneg hr.1 hrec) (reuseDecay_nonneg o.reuseHorizonSecs)
  have hb1 : (0 : ℚ) ≤ baselineCompressionCostFraction.value := F64.value_nonneg rfl
  have hb2 : (0 : ℚ) ≤ baselineArchiveCostFraction.value := F64.value_nonneg rfl
  have hb3 : (0 : ℚ) ≤ baselineFailureRecoveryValueFraction.value := F64.value_nonneg rfl
  have hcheck : ∀ l : List (String × ℚ), (∀ x ∈ l, 0 ≤ x.2) →
      checkNonNegative "cost input" l = .ok () := fun l => checkNonNegative_ok
  unfold validateFinite
  rw [hcheck]
  · show (if ¬ (0 ≤ o.reuseProbability.value ∧ o.reuseProbability.value ≤ 1) then _ else _) = _
    rw [if_neg (not_not.mpr hr)]
    rfl
  · simp only [List.forall_mem_cons, CostInputs.derive]
    refine ⟨?_, hrec, hV, htra, hmig, hS, hM, hP, hR, mul_nonneg hrec hb1, mul_nonneg htra hb2,
      mul_nonneg hrec hb3, le_refl _, le_refl _, hr.1, fun x hx => absurd hx List.not_mem_nil⟩
    exact add_nonneg (add_nonneg (add_nonneg hM hS) hR) hP

/-- the score of an object under a policy -/
def score (o : ReclaimObject) (p : Policy) (pressure : PressureLevel) (c : DecisionContext) : ℚ :=
  (evaluate (.derive o pressure.multiplier.value) p.weights c.dependencyValue
    c.survivabilityValue).reclaimScore

/-- a valid object gets a decision under every policy that resolves -/
theorem decide_valid {registry : PolicyRegistry} {o : ReclaimObject} {pressure : PressureLevel}
    {p : Policy} {c : DecisionContext} (epoch : Nat) (now : Int) (hv : o.validate = .ok ())
    (hp : registry.resolve o pressure = .ok p) (hpol : validatePolicy p = .ok ())
    (hd : 0 ≤ c.dependencyValue) (hs : 0 ≤ c.survivabilityValue) :
    ∃ out, out.reclaimScore = score o p pressure c ∧
      decide registry o pressure epoch now c = .ok (decisionOf o p epoch out) := by
  refine ⟨evaluate (.derive o pressure.multiplier.value) p.weights c.dependencyValue
    c.survivabilityValue, rfl, ?_⟩
  have hctx : checkNonNegative "decision context"
      [("dependency_value", c.dependencyValue),
        ("survivability_value", c.survivabilityValue)] = .ok () := by
    refine checkNonNegative_ok ?_
    simp only [List.forall_mem_cons]
    exact ⟨hd, hs, fun x hx => absurd hx List.not_mem_nil⟩
  have hfin := validateFinite_derive (valid_of_validate hv) pressure.multiplier.value
  simp only [decide, hv, hp, hpol, hctx, hfin, bind, Except.bind]
  rfl

/-! ## the built-in policies -/

/-- the built-in policy of a level -/
def builtIn : PressureLevel → Policy
  | .critical => Policy.emergencyPolicy
  | _ => Policy.default

theorem resolve_withDefaults (o : ReclaimObject) (pressure : PressureLevel) :
    PolicyRegistry.withDefaults.resolve o pressure = .ok (builtIn pressure) := by
  cases pressure <;> rfl

theorem validate_builtIn (pressure : PressureLevel) :
    validatePolicy (builtIn pressure) = .ok () := by
  cases pressure <;> rfl

theorem weights_builtIn (pressure : PressureLevel) :
    (builtIn pressure).weights = Economics.CostWeights.default := by
  cases pressure <;> rfl

theorem value_one : Economics.one.value = 1 := rfl

theorem threshold_builtIn (pressure : PressureLevel) :
    (builtIn pressure).reclaimThreshold.value = 0 := by
  cases pressure <;> rfl

theorem multiplier_mono {p q : PressureLevel} (h : p ≤ q) :
    p.multiplier.value ≤ q.multiplier.value := by
  revert h
  cases p <;> cases q <;> decide

/-- the emergency policy reclaims objects the default policy keeps for their reuse -/
theorem minReuse_mono {p q : PressureLevel} (h : p ≤ q) :
    (builtIn p).minReuseProbability.value ≤ (builtIn q).minReuseProbability.value := by
  revert h
  cases p <;> cases q <;> decide

/-- only the surcharge on memory depends on the pressure -/
theorem score_mono {o : ReclaimObject} (V : Valid o) (c : DecisionContext) {p q : PressureLevel}
    (h : p ≤ q) : score o (builtIn p) p c ≤ score o (builtIn q) q c := by
  have hM : (0 : ℚ) ≤ (Nat.max o.physicalSize o.logicalSize : ℕ) * o.memoryCostPerByteSec.value :=
    mul_nonneg (Nat.cast_nonneg _) V.memory
  have hmul : max (p.multiplier.value - 1) 0 ≤ max (q.multiplier.value - 1) 0 :=
    max_le_max (sub_le_sub_right (multiplier_mono h) 1) (le_refl 0)
  have hP := mul_le_mul_of_nonneg_left hmul hM
  rw [score, score, weights_builtIn, weights_builtIn]
  simp only [evaluate, CostInputs.derive, Economics.CostWeights.default, value_one, one_mul]
  linarith

/-! ## exact machine arithmetic -/

theorem reads_orZero {x : Option F64} (h : ∀ y ∈ x, y.isFinite = true) :
    (x.getD Economics.zero).Reads (orZero x) := by
  cases x with
  | none => exact ⟨rfl, rfl⟩
  | some x => exact ⟨h x rfl, rfl⟩

theorem economics_checkNonNegative_ok {what : String} {l : List (String × F64)}
    (h : Economics.checkNonNegative what l = .ok ()) :
    ∀ x ∈ l, x.2.isFinite = true ∧ x.2.isNegative = false := by
  intro x hx
  rw [Economics.checkNonNegative] at h
  split at h
  · cases h
  · next hnone => simpa using List.find?_eq_none.mp hnone x hx

theorem validatePolicy_numbers {p : Policy} (h : validatePolicy p = .ok ()) :
    p.minReuseProbability.inUnit = true ∧ Economics.validateWeights p.weights = .ok () := by
  unfold validatePolicy at h
  by_cases hb : (blank p.id || blank p.version) = true
  · rw [if_pos hb] at h
    cases h
  rw [if_neg hb] at h
  by_cases ht : (!p.reclaimThreshold.isFinite) = true
  · rw [if_pos ht] at h
    cases h
  rw [if_neg ht] at h
  by_cases hm : (!p.minReuseProbability.inUnit) = true
  · rw [if_pos hm] at h
    cases h
  rw [if_neg hm] at h
  change (asPolicyError (Economics.validateWeights p.weights) >>= fun _ => _) = _ at h
  obtain ⟨_, hw, -⟩ := Result.bind_ok.mp h
  refine ⟨by simpa using hm, ?_⟩
  cases hval : Economics.validateWeights p.weights with
  | ok u => rfl
  | error e =>
    rw [hval] at hw
    cases hw

theorem validatePolicy_weights {p : Policy} (h : validatePolicy p = .ok ()) :
    p.weights.Finite := by
  have hc := economics_checkNonNegative_ok (validatePolicy_numbers h).2
  simp only [List.forall_mem_cons] at hc
  obtain ⟨h1, h2, h3, h4, h5, h6, h7, h8, h9, h10, -⟩ := hc
  exact ⟨h1.1, h2.1, h3.1, h4.1, h5.1, h6.1, h7.1, h8.1, h9.1, h10.1⟩

theorem validatePolicy_minReuse {p : Policy} (h : validatePolicy p = .ok ()) :
    p.minReuseProbability.isFinite = true := by
  have hu := (validatePolicy_numbers h).1
  cases hx : p.minReuseProbability with
  | dec m e => rfl
  | inf n =>
    rw [hx] at hu
    cases hu
  | nan =>
    rw [hx] at hu
    cases hu

/-- the fields of two inputs that the score is made of -/
structure SameInputs (i : Economics.CostInputs) (j : CostInputs) : Prop where
  reconstruction : i.reconstructionCost.Reads j.reconstructionCost
  reuse : i.expectedReuseValue.Reads j.expectedReuseValue
  transfer : i.transferCost.Reads j.transferCost
  migration : i.migrationCost.Reads j.migrationCost
  storage : i.storageCost.Reads j.storageCost
  memory : i.memoryCost.Reads j.memoryCost
  pressure : i.memoryPressureCost.Reads j.memoryPressureCost
  replication : i.replicationCost.Reads j.replicationCost
  fraction :
    i.reconstructionAvoidanceFraction.Reads j.reconstructionAvoidanceFraction

section
variable {a : Arith} (E : a.Exact)
include E

theorem sameInputs_derive {o : ReclaimObject} (hf : o.Finite)
    (hdecay : (Economics.reuseDecay a o.reuseHorizonSecs).Reads (reuseDecay o.reuseHorizonSecs))
    {m : F64} (hm : m.isFinite = true) :
    SameInputs (Economics.CostInputs.derive a o m) (.derive o m.value) := by
  have hone : Economics.one.Reads 1 := ⟨rfl, rfl⟩
  have hzero : Economics.zero.Reads 0 := ⟨rfl, rfl⟩
  have hrec := reads_orZero hf.recompute
  have hM := E.mul (E.ofNat (Nat.max o.physicalSize o.logicalSize)) ⟨hf.memory, rfl⟩
  exact
    { reconstruction := hrec
      reuse := E.mul (E.mul ⟨hf.reuse, rfl⟩ hrec) hdecay
      transfer := reads_orZero hf.transfer
      migration := reads_orZero hf.migration
      storage := E.mul (E.ofNat _) ⟨hf.storage, rfl⟩
      memory := hM
      pressure := E.mul hM (E.max (E.sub ⟨hm, rfl⟩ hone) hzero)
      replication := E.mul hM (E.max (E.sub (E.ofNat _) hone) hzero)
      fraction := ⟨hf.reuse, rfl⟩ }

theorem score_reads {i : Economics.CostInputs} {j : CostInputs} (S : SameInputs i j)
    {w : Economics.CostWeights} (hw : w.Finite) {x y : F64} (hx : x.isFinite = true)
    (hy : y.isFinite = true) :
    (Economics.evaluate a i w x y).reclaimScore.Reads
      (evaluate j w x.value y.value).reclaimScore := by
  have hkeep := E.add (E.add (E.add (E.mul ⟨hw.reuse, rfl⟩ S.reuse)
    (E.mul ⟨hw.avoidance, rfl⟩ (E.mul S.reconstruction S.fraction)))
    (E.mul ⟨hw.dependency, rfl⟩ ⟨hx, rfl⟩)) (E.mul ⟨hw.survivability, rfl⟩ ⟨hy, rfl⟩)
  have hcost := E.add (E.add (E.add (E.add (E.add (E.mul ⟨hw.memory, rfl⟩ S.memory)
    (E.mul ⟨hw.storage, rfl⟩ S.storage)) (E.mul ⟨hw.replication, rfl⟩ S.replication))
    (E.mul ⟨hw.pressure, rfl⟩ S.pressure)) (E.mul ⟨hw.transfer, rfl⟩ S.transfer))
    (E.mul ⟨hw.migration, rfl⟩ S.migration)
  exact E.sub hcost hkeep

/-- with an arithmetic that rounds nothing the engine decides as the exact one does -/
theorem decide_refines {registry : PolicyRegistry} {o : ReclaimObject}
    (hdecay : (Economics.reuseDecay a o.reuseHorizonSecs).Reads (reuseDecay o.reuseHorizonSecs))
    {pressure : PressureLevel} {epoch : Nat} {now : Int} {c : Planning.DecisionContext}
    {d : PolicyDecision} (h : Planning.decide a registry o pressure epoch now c = .ok d) :
    ∃ e, decide registry o pressure epoch now
        ⟨c.dependencyValue.value, c.survivabilityValue.value⟩ = .ok e ∧
      d.decision.score.Reads e.score ∧ d.decision.threshold.Reads e.threshold ∧
      e.verdict = d.decision.verdict := by
  obtain ⟨_, hv, h⟩ := Result.bind_ok.mp h
  obtain ⟨p, hp, h⟩ := Result.bind_ok.mp h
  obtain ⟨_, hpol, h⟩ := Result.bind_ok.mp h
  obtain ⟨_, hctx, h⟩ := Result.bind_ok.mp h
  obtain ⟨-, -, h⟩ := Result.bind_ok.mp h
  obtain ⟨-, -, h⟩ := Result.bind_ok.mp h
  cases h
  have hc := economics_checkNonNegative_ok hctx
  simp only [List.forall_mem_cons] at hc
  obtain ⟨⟨hdf, hdn⟩, ⟨hsf, hsn⟩, -⟩ := hc
  obtain ⟨out, hout, hok⟩ := decide_valid (c := ⟨c.dependencyValue.value, _⟩) epoch now hv hp hpol
    (F64.value_nonneg hdn) (F64.value_nonneg hsn)
  have hfin := finite_of_validate hv
  have hm : pressure.multiplier.isFinite = true := by cases pressure <;> rfl
  have hscore := score_reads E (sameInputs_derive E hfin hdecay hm)
    (validatePolicy_weights hpol) hdf hsf
  have hthr : p.reclaimThreshold.Reads p.reclaimThreshold.value :=
    ⟨validatePolicy_threshold hpol, rfl⟩
  refine ⟨_, hok, ?_, hthr, ?_⟩
  · show F64.Reads _ out.reclaimScore
    rw [hout]
    exact hscore
  · show verdictOf o p out.reclaimScore = Planning.verdictOf o p _
    rw [hout, verdictOf, Planning.verdictOf]
    have hle := hthr.le_iff hscore
    have hreuse : o.reuseProbability.Reads o.reuseProbability.value := ⟨hfin.reuse, rfl⟩
    have hmin : p.minReuseProbability.Reads p.minReuseProbability.value :=
      ⟨validatePolicy_minReuse hpol, rfl⟩
    have hle' := hreuse.le_iff hmin
    refine if_congr Iff.rfl rfl (if_congr ?_ rfl rfl)
    show _ ↔ (_ && _) = true
    rw [Bool.and_eq_true]
    exact and_congr hle.symm hle'.symm

end

/-- **More pressure never saves an object.**  With the built-in registry, for a valid object that
is not pinned or protected and a context of non-negative values: every level decides, the score
grows with the level, and an object that is reclaimed at a level is reclaimed at every level
above it. -/
theorem decide_monotone (o : ReclaimObject) (hv : o.validate = .ok ()) (hpin : o.pinned = false)
    (hprot : o.isProtected = false) (c : DecisionContext) (hd : 0 ≤ c.dependencyValue)
    (hs : 0 ≤ c.survivabilityValue) (p q : PressureLevel) (hpq : p ≤ q) (epoch epoch' : Nat)
    (now now' : Int) :
    ∃ d e, decide .withDefaults o p epoch now c = .ok d ∧
      decide .withDefaults o q epoch' now' c = .ok e ∧ d.score ≤ e.score ∧
      (d.verdict = .reclaim → e.verdict = .reclaim) := by
  obtain ⟨out, hout, hok⟩ := decide_valid epoch now hv (resolve_withDefaults o p)
    (validate_builtIn p) hd hs
  obtain ⟨out', hout', hok'⟩ := decide_valid epoch' now' hv (resolve_withDefaults o q)
    (validate_builtIn q) hd hs
  have hscore : out.reclaimScore ≤ out'.reclaimScore := by
    rw [hout, hout']
    exact score_mono (valid_of_validate hv) c hpq
  refine ⟨_, _, hok, hok', hscore, ?_⟩
  show verdictOf o (builtIn p) out.reclaimScore = .reclaim →
    verdictOf o (builtIn q) out'.reclaimScore = .reclaim
  have hopen : ¬ ((o.pinned || o.isProtected) = true) := by rw [hpin, hprot]; decide
  rw [verdictOf, verdictOf, if_neg hopen, if_neg hopen, threshold_builtIn, threshold_builtIn]
  intro hd
  split at hd
  · next hc => exact if_pos ⟨hc.1.trans hscore, hc.2.trans (minReuse_mono hpq)⟩
  · cases hd

/-- ten bytes in memory that are never used again -/
def idle : ReclaimObject :=
  { ReclaimObject.new Uuid.nil 1 "kv" 10 0 with memoryCostPerByteSec := .dec 1 0 }

theorem decide_monotone_idle :
    ∃ d e, decide .withDefaults idle .normal 1 0 ⟨1, 1⟩ = .ok d ∧
      decide .withDefaults idle .critical 1 0 ⟨1, 1⟩ = .ok e ∧ d.score ≤ e.score ∧
      (d.verdict = .reclaim → e.verdict = .reclaim) :=
  decide_monotone idle rfl rfl rfl ⟨1, 1⟩ zero_le_one zero_le_one .normal .critical (by decide)
    1 1 0 0

end Exact

end Planning

end ReclaimFabric
