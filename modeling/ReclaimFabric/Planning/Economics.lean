import Mathlib.Algebra.Order.Ring.Rat
import ReclaimFabric.Model.Store

/-!
# Reclamation economics

`economics.rs`: what keeping an object costs and is worth, component by component.  Doubles are
compared by value (`F64.le`, `F64.lt`, `F64.partialCmp`); the rounded arithmetic of the machine and
the fixed-point printing are one parameter, `Arith`.

* `CostInputs.derive`      the inputs read off an object;
* `evaluate`               the weighted components and the score;
* `validateComponents_ok`  a decision surface that passes has a finite score, and finite scores are
                           linearly ordered by `F64.value`.
-/

namespace ReclaimFabric

/-! ## comparisons of doubles -/

namespace F64

/-- the number a finite double stands for -/
def value : F64 → Rat
  | .dec m e => if 0 ≤ e then ((m * 10 ^ e.toNat : Int) : Rat) else mkRat m (10 ^ (-e).toNat)
  | _ => 0

/-- `f64::partial_cmp` -/
def partialCmp : F64 → F64 → Option Ordering
  | .nan, _ => none
  | _, .nan => none
  | .inf a, .inf b => some (if a = b then .eq else if a then .lt else .gt)
  | .inf a, .dec _ _ => some (if a then .lt else .gt)
  | .dec _ _, .inf b => some (if b then .gt else .lt)
  | .dec m e, .dec m' e' => some (compare (value (.dec m e)) (value (.dec m' e')))

/-- `x <= y` -/
def le (x y : F64) : Bool := x.partialCmp y == some .lt || x.partialCmp y == some .eq

theorem partialCmp_finite {x y : F64} (hx : x.isFinite = true) (hy : y.isFinite = true) :
    x.partialCmp y = some (compare x.value y.value) := by
  cases x with
  | dec m e =>
    cases y with
    | dec m' e' => rfl
    | inf b => exact absurd hy (by simp [isFinite])
    | nan => exact absurd hy (by simp [isFinite])
  | inf a => exact absurd hx (by simp [isFinite])
  | nan => exact absurd hx (by simp [isFinite])

end F64

/-- the rounded operations on doubles and `{:.n}` -/
structure Arith where
  add : F64 → F64 → F64
  sub : F64 → F64 → F64
  mul : F64 → F64 → F64
  div : F64 → F64 → F64
  /-- `f64::max` -/
  max : F64 → F64 → F64
  /-- `as f64` of an unsigned integer -/
  ofNat : Nat → F64
  fixed : Nat → F64 → String

/-- `serde_json::Map::insert` (a sorted map) -/
def Json.insertKey (l : List (String × Json)) (k : String) (v : Json) : List (String × Json) :=
  l.filter (fun e => decide (e.1 < k)) ++ [(k, v)] ++ l.filter (fun e => decide (k < e.1))

/-- an optional number, `null` when absent -/
def Json.ofOption {α : Type} (f : α → Json) : Option α → Json
  | none => .null
  | some a => f a

/-- the serialised name of a verdict -/
def ReclaimVerdict.asStr : ReclaimVerdict → String
  | .retain => "RETAIN"
  | .reclaim => "RECLAIM"
  | .demote => "DEMOTE"
  | .compress => "COMPRESS"
  | .deduplicate => "DEDUPLICATE"
  | .archive => "ARCHIVE"
  | .markRecomputable => "MARK_RECOMPUTABLE"

namespace Economics

def baselineReuseDecaySecs : F64 := .dec 864 2
def baselineCompressionCostFraction : F64 := .dec 1 (-2)
def baselineArchiveCostFraction : F64 := .dec 5 (-1)
def baselineFailureRecoveryValueFraction : F64 := .dec 5 (-1)

def zero : F64 := .dec 0 0
def one : F64 := .dec 1 0

/-! ## inputs and weights -/

structure CostInputs where
  retainCost : F64
  reconstructionCost : F64
  expectedReuseValue : F64
  transferCost : F64
  migrationCost : F64
  storageCost : F64
  memoryCost : F64
  memoryPressureCost : F64
  replicationCost : F64
  compressionCost : F64
  archiveCost : F64
  failureRecoveryValue : F64
  dependencyValue : F64
  survivabilityValue : F64
  reconstructionAvoidanceFraction : F64

structure CostWeights where
  weightReuseValue : F64
  weightReconstructionAvoidance : F64
  weightDependencyValue : F64
  weightSurvivabilityValue : F64
  weightMemory : F64
  weightStorage : F64
  weightReplication : F64
  weightPressure : F64
  weightTransfer : F64
  weightMigration : F64
deriving DecidableEq

def CostWeights.default : CostWeights where
  weightReuseValue := one
  weightReconstructionAvoidance := one
  weightDependencyValue := one
  weightSurvivabilityValue := one
  weightMemory := one
  weightStorage := one
  weightReplication := one
  weightPressure := one
  weightTransfer := one
  weightMigration := one

structure DecisionComponents where
  expectedKeepValue : F64
  expectedKeepCost : F64
  reclaimScore : F64
  retentionBenefit : F64
  components : List (String × F64)

section
variable (a : Arith)

/-- reuse far in the future is worth less -/
def reuseDecay : Option Nat → F64
  | none => one
  | some h => a.div one (a.add one (a.div (a.ofNat h) baselineReuseDecaySecs))

/-- `CostInputs::derive` -/
def CostInputs.derive (o : ReclaimObject) (pressureMultiplier : F64) : CostInputs :=
  let size := a.ofNat (Nat.max o.physicalSize o.logicalSize)
  let storageCost := a.mul size o.storageCostPerByteSec
  let memoryCost := a.mul size o.memoryCostPerByteSec
  let replicationCost :=
    a.mul memoryCost (a.max (a.sub (a.ofNat o.replicationCount) one) zero)
  let memoryPressureCost := a.mul memoryCost (a.max (a.sub pressureMultiplier one) zero)
  let reconstructionCost := o.recomputeCost.getD zero
  let expectedReuseValue :=
    a.mul (a.mul o.reuseProbability reconstructionCost) (reuseDecay a o.reuseHorizonSecs)
  { retainCost :=
      a.add (a.add (a.add memoryCost storageCost) replicationCost) memoryPressureCost
    reconstructionCost := reconstructionCost
    expectedReuseValue := expectedReuseValue
    transferCost := o.transferCost.getD zero
    migrationCost := o.migrationCost.getD zero
    storageCost := storageCost
    memoryCost := memoryCost
    memoryPressureCost := memoryPressureCost
    replicationCost := replicationCost
    compressionCost := a.mul (o.recomputeCost.getD zero) baselineCompressionCostFraction
    archiveCost := a.mul (o.transferCost.getD zero) baselineArchiveCostFraction
    failureRecoveryValue := a.mul reconstructionCost baselineFailureRecoveryValueFraction
    dependencyValue := zero
    survivabilityValue := zero
    reconstructionAvoidanceFraction := o.reuseProbability }

/-! ## the decision surface -/

def evaluate (i : CostInputs) (w : CostWeights) (dependencyValue survivabilityValue : F64) :
    DecisionComponents :=
  let reconstructionAvoidanceValue :=
    a.mul i.reconstructionCost i.reconstructionAvoidanceFraction
  let expectedKeepValue :=
    a.add (a.add (a.add (a.mul w.weightReuseValue i.expectedReuseValue)
      (a.mul w.weightReconstructionAvoidance reconstructionAvoidanceValue))
      (a.mul w.weightDependencyValue dependencyValue))
      (a.mul w.weightSurvivabilityValue survivabilityValue)
  let memoryCost := a.mul w.weightMemory i.memoryCost
  let storageCost := a.mul w.weightStorage i.storageCost
  let replicationCost := a.mul w.weightReplication i.replicationCost
  let pressureCost := a.mul w.weightPressure i.memoryPressureCost
  let transferCost := a.mul w.weightTransfer i.transferCost
  let migrationCost := a.mul w.weightMigration i.migrationCost
  let expectedKeepCost :=
    a.add (a.add (a.add (a.add (a.add memoryCost storageCost) replicationCost) pressureCost)
      transferCost) migrationCost
  let retainBenefit := a.sub expectedKeepValue i.retainCost
  let reclaimScore := a.sub expectedKeepCost expectedKeepValue
  { expectedKeepValue := expectedKeepValue
    expectedKeepCost := expectedKeepCost
    reclaimScore := reclaimScore
    retentionBenefit := retainBenefit
    components :=
      [("expected_reuse_value", i.expectedReuseValue),
        ("reconstruction_cost", i.reconstructionCost),
        ("reconstruction_avoidance_value", reconstructionAvoidanceValue),
        ("dependency_value", dependencyValue),
        ("survivability_value", survivabilityValue),
        ("retain_cost", i.retainCost),
        ("storage_cost", i.storageCost),
        ("memory_cost", i.memoryCost),
        ("memory_pressure_cost", i.memoryPressureCost),
        ("replication_cost", i.replicationCost),
        ("transfer_cost", i.transferCost),
        ("migration_cost", i.migrationCost),
        ("compression_cost", i.compressionCost),
        ("archive_cost", i.archiveCost),
        ("failure_recovery_value", i.failureRecoveryValue),
        ("expected_keep_value", expectedKeepValue),
        ("expected_keep_cost", expectedKeepCost),
        ("reclaim_score", reclaimScore),
        ("retention_benefit", retainBenefit)] }

end

/-! ## checks -/

/-- `!value.is_finite() || value < 0.0` of the first offender -/
def checkNonNegative (what : String) (l : List (String × F64)) : Res Unit :=
  match l.find? (fun x => !x.2.isFinite || x.2.isNegative) with
  | some x => .error (.invalidArgument
      s!"{what} {x.1} must be finite and non-negative, got {x.2.text}")
  | none => .ok ()

/-- `validate_finite` -/
def validateFinite (i : CostInputs) : Res Unit := do
  checkNonNegative "cost input"
    [("retain_cost", i.retainCost), ("reconstruction_cost", i.reconstructionCost),
      ("expected_reuse_value", i.expectedReuseValue), ("transfer_cost", i.transferCost),
      ("migration_cost", i.migrationCost), ("storage_cost", i.storageCost),
      ("memory_cost", i.memoryCost), ("memory_pressure_cost", i.memoryPressureCost),
      ("replication_cost", i.replicationCost), ("compression_cost", i.compressionCost),
      ("archive_cost", i.archiveCost), ("failure_recovery_value", i.failureRecoveryValue),
      ("dependency_value", i.dependencyValue), ("survivability_value", i.survivabilityValue),
      ("reconstruction_avoidance_fraction", i.reconstructionAvoidanceFraction)]
  if !i.reconstructionAvoidanceFraction.inUnit then
    throw (.invalidArgument "reconstruction_avoidance_fraction must be in [0,1]")

/-- `validate_weights` -/
def validateWeights (w : CostWeights) : Res Unit :=
  checkNonNegative "cost weight"
    [("weight_reuse_value", w.weightReuseValue),
      ("weight_reconstruction_avoidance", w.weightReconstructionAvoidance),
      ("weight_dependency_value", w.weightDependencyValue),
      ("weight_survivability_value", w.weightSurvivabilityValue),
      ("weight_memory", w.weightMemory), ("weight_storage", w.weightStorage),
      ("weight_replication", w.weightReplication), ("weight_pressure", w.weightPressure),
      ("weight_transfer", w.weightTransfer), ("weight_migration", w.weightMigration)]

/-- `validate_components` -/
def validateComponents (c : DecisionComponents) : Res Unit :=
  match ([("expected_keep_value", c.expectedKeepValue),
      ("expected_keep_cost", c.expectedKeepCost), ("reclaim_score", c.reclaimScore),
      ("retention_benefit", c.retentionBenefit)] ++ c.components).find?
      (fun x => !x.2.isFinite) with
  | some x => .error (.invalidArgument
      s!"decision component {x.1} must be finite, got {x.2.text}")
  | none => .ok ()

theorem validateComponents_ok {c : DecisionComponents} (h : validateComponents c = .ok ()) :
    c.reclaimScore.isFinite = true := by
  unfold validateComponents at h
  split at h
  · cases h
  · rename_i hnone
    have hall := List.find?_eq_none.mp hnone ("reclaim_score", c.reclaimScore) (by simp)
    simpa using hall

/-! ## decisions -/

/-- a row of `decisions` with the surface and the reasons behind it -/
structure Decision extends ReclaimFabric.Decision where
  components : DecisionComponents
  reasons : List String

/-- `build_explanation` -/
def buildExplanation (d : Decision) (o : ReclaimObject) (pressure : String) : Json :=
  .obj (d.components.components.foldl
    (fun l c => Json.insertKey l ("component_" ++ c.1) (.float c.2))
    ([("decision", Json.str d.verdict.asStr), ("score", .float d.score),
      ("threshold", .float d.threshold), ("policy", .str (d.policyId ++ "-" ++ d.policyVersion)),
      ("reuse_probability", .float o.reuseProbability),
      ("expected_reuse_horizon_secs", .ofOption .nat o.reuseHorizonSecs),
      ("logical_size", .nat o.logicalSize),
      ("recompute_cost", .ofOption .float o.recomputeCost),
      ("recomputation_latency_secs", .ofOption .float o.recomputeLatencySecs),
      ("pressure", .str pressure), ("epoch", .nat d.epoch)].foldl
      (fun l c => Json.insertKey l c.1 c.2) []))

end Economics

end ReclaimFabric
