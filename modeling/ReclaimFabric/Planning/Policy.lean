import ReclaimFabric.Lib.Result
import ReclaimFabric.Planning.Economics

/-!
# Policies

`policy.rs`: versioned policy documents, the registry and the decision engine.

* `validatePolicy`                    a document before registration;
* `PolicyRegistry.validateComplete`   one default policy, no two policies with one selector;
* `PolicyRegistry.resolve`            the most specific policy that applies;
* `decide`                            the verdict on one object, with its reasons.

`decide_ok` says what a decision keeps of its inputs; the planner needs no more of the engine.
-/

namespace ReclaimFabric

/-! ## vocabulary -/

inductive PressureLevel where
  | normal
  | elevated
  | high
  | critical
deriving DecidableEq

namespace PressureLevel

def asStr : PressureLevel → String
  | .normal => "NORMAL"
  | .elevated => "ELEVATED"
  | .high => "HIGH"
  | .critical => "CRITICAL"

def multiplier : PressureLevel → F64
  | .normal => .dec 1 0
  | .elevated => .dec 2 0
  | .high => .dec 4 0
  | .critical => .dec 8 0

end PressureLevel

/-- `{:?}` -/
def SurvivabilityClass.debug : SurvivabilityClass → String
  | .ephemeral => "Ephemeral"
  | .recomputable => "Recomputable"
  | .durable => "Durable"
  | .critical => "Critical"

inductive PolicyKind where
  | default
  | objectClass
  | owner
  | pressure
  | durability
  | survivability
  | age
  | reuse
  | recomposition
  | dependency
  | emergency
deriving DecidableEq

/-- `{:?}` -/
def PolicyKind.debug : PolicyKind → String
  | .default => "Default"
  | .objectClass => "ObjectClass"
  | .owner => "Owner"
  | .pressure => "Pressure"
  | .durability => "Durability"
  | .survivability => "Survivability"
  | .age => "Age"
  | .reuse => "Reuse"
  | .recomposition => "Recomposition"
  | .dependency => "Dependency"
  | .emergency => "Emergency"

structure Policy where
  id : String
  version : String
  kind : PolicyKind
  reclaimThreshold : F64
  minReuseProbability : F64
  weights : Economics.CostWeights
  matchClass : Option String
  matchOwner : Option String
  matchPressure : Option PressureLevel
  matchDurability : Option DurabilityClass
  matchSurvivability : Option SurvivabilityClass
  emergency : Bool
  description : String
deriving DecidableEq

namespace Policy

def fullId (p : Policy) : String := p.id ++ "-" ++ p.version

/-- `default_policy` -/
def default : Policy where
  id := "reclaim-default"
  version := "v1"
  kind := .default
  reclaimThreshold := .dec 0 0
  minReuseProbability := .dec 5 (-2)
  weights := .default
  matchClass := none
  matchOwner := none
  matchPressure := none
  matchDurability := none
  matchSurvivability := none
  emergency := false
  description :=
    "Baseline policy: reclaim when expected keep cost exceeds expected keep value."

/-- `emergency_policy` -/
def emergencyPolicy : Policy :=
  { default with
    id := "reclaim-emergency"
    kind := .emergency
    emergency := true
    matchPressure := some .critical
    minReuseProbability := .dec 5 (-1)
    description := "Emergency policy: aggressive reclamation under CRITICAL pressure. Pins, " ++
      "protection, and survivability invariants still apply." }

/-! ## validation -/

def noSelectors (p : Policy) : Bool :=
  p.matchClass.isNone && p.matchOwner.isNone && p.matchPressure.isNone &&
    p.matchDurability.isNone && p.matchSurvivability.isNone

def onlyClass (p : Policy) : Bool :=
  p.matchClass.any (fun v => !blank v) && p.matchOwner.isNone && p.matchPressure.isNone &&
    p.matchDurability.isNone && p.matchSurvivability.isNone

def onlyOwner (p : Policy) : Bool :=
  p.matchOwner.any (fun v => !blank v) && p.matchClass.isNone && p.matchPressure.isNone &&
    p.matchDurability.isNone && p.matchSurvivability.isNone

def onlyPressure (p : Policy) : Bool :=
  p.matchPressure.isSome && p.matchClass.isNone && p.matchOwner.isNone &&
    p.matchDurability.isNone && p.matchSurvivability.isNone

def onlyDurability (p : Policy) : Bool :=
  p.matchDurability.isSome && p.matchClass.isNone && p.matchOwner.isNone &&
    p.matchPressure.isNone && p.matchSurvivability.isNone

def onlySurvivability (p : Policy) : Bool :=
  p.matchSurvivability.isSome && p.matchClass.isNone && p.matchOwner.isNone &&
    p.matchPressure.isNone && p.matchDurability.isNone

/-- do the selectors fit the kind; the resolver has no matcher for the kinds without an answer -/
def selectorValid (p : Policy) : Option Bool :=
  match p.kind with
  | .default => some (p.noSelectors && !p.emergency)
  | .objectClass => some (p.onlyClass && !p.emergency)
  | .owner => some (p.onlyOwner && !p.emergency)
  | .pressure => some (p.onlyPressure && !p.emergency)
  | .durability => some (p.onlyDurability && !p.emergency)
  | .survivability => some (p.onlySurvivability && !p.emergency)
  | .emergency =>
    some (p.onlyPressure && p.emergency && decide (p.matchPressure = some .critical))
  | .age | .reuse | .recomposition | .dependency => none

end Policy

/-- an inner error under the name of the policy engine -/
def asPolicyError : Res Unit → Res Unit
  | .ok () => .ok ()
  | .error e => .error (.policy e.text)

/-- `validate_policy` -/
def validatePolicy (p : Policy) : Res Unit := do
  if blank p.id || blank p.version then
    throw (.policy "policy id and version must not be empty")
  if !p.reclaimThreshold.isFinite then
    throw (.policy "reclaim_threshold must be finite")
  if !p.minReuseProbability.inUnit then
    throw (.policy "min_reuse_probability must be in [0,1]")
  asPolicyError (Economics.validateWeights p.weights)
  match p.selectorValid with
  | none => throw (.policy
      s!"policy kind {p.kind.debug} is not supported by the current resolver")
  | some valid =>
    if !valid then
      throw (.policy
        s!"policy kind {p.kind.debug} has inconsistent match selectors or emergency flag")
    else pure ()

theorem validatePolicy_threshold {p : Policy} (h : validatePolicy p = .ok ()) :
    p.reclaimThreshold.isFinite = true := by
  by_cases hf : p.reclaimThreshold.isFinite = true
  · exact hf
  · have hf' : p.reclaimThreshold.isFinite = false := by simpa using hf
    unfold validatePolicy at h
    by_cases hb : (blank p.id || blank p.version) = true
    · simp [hb, throw, throwThe, MonadExceptOf.throw, bind, Except.bind] at h
    · simp [hb, hf', throw, throwThe, MonadExceptOf.throw, bind, Except.bind] at h

/-! ## the registry -/

/-- `policy_selector_key` -/
def policySelectorKey (p : Policy) : String :=
  match p.kind with
  | .default => "DEFAULT"
  | .objectClass => "OBJECT_CLASS:" ++ p.matchClass.getD ""
  | .owner => "OWNER:" ++ p.matchOwner.getD ""
  | .pressure => "PRESSURE:" ++ (p.matchPressure.map PressureLevel.asStr).getD ""
  | .durability => "DURABILITY:" ++ Store.showOption (p.matchDurability.map DurabilityClass.debug)
  | .survivability =>
    "SURVIVABILITY:" ++ Store.showOption (p.matchSurvivability.map SurvivabilityClass.debug)
  | .emergency => "EMERGENCY:" ++ (p.matchPressure.map PressureLevel.asStr).getD ""
  | k@.age | k@.reuse | k@.recomposition | k@.dependency => "UNSUPPORTED:" ++ k.debug

structure PolicyRegistry where
  policies : List Policy

/-- sorted and joined full ids -/
def joinIds (l : List Policy) : String :=
  String.intercalate ", " ((l.map Policy.fullId).insertionSort (fun x y => x ≤ y))

/-- `unique_policy` -/
def uniquePolicy (l : List Policy) (specificity : String) : Res (Option Policy) :=
  let ids := joinIds l
  if l.length > 1 then
    .error (.policy s!"ambiguous {specificity} policies: {ids}")
  else .ok l.getLast?

namespace PolicyRegistry

def default : PolicyRegistry := ⟨[]⟩

/-- `PolicyRegistry::with_defaults` -/
def withDefaults : PolicyRegistry := ⟨[Policy.default, Policy.emergencyPolicy]⟩

def add (r : PolicyRegistry) (p : Policy) : Res PolicyRegistry := do
  validatePolicy p
  if r.policies.any (fun q => decide (q.id = p.id) && decide (q.version = p.version)) then
    throw (.policy s!"policy {p.id}-{p.version} already registered")
  else pure ⟨r.policies ++ [p]⟩

/-- the smallest selector key that two policies share -/
def ambiguous (r : PolicyRegistry) : Option String :=
  ((r.policies.map policySelectorKey).insertionSort (fun x y => x ≤ y)).find?
    fun k => decide (1 < (r.policies.filter fun p => decide (policySelectorKey p = k)).length)

/-- `PolicyRegistry::validate_complete` -/
def validateComplete (r : PolicyRegistry) : Res Unit := do
  r.policies.forM validatePolicy
  let defaultCount := (r.policies.filter fun p => decide (p.kind = .default)).length
  if defaultCount ≠ 1 then
    throw (.policy
      s!"policy registry must contain exactly one default policy, found {defaultCount}")
  match r.ambiguous with
  | some k =>
    let ids := joinIds (r.policies.filter fun p => decide (policySelectorKey p = k))
    throw (.policy s!"ambiguous policy selector {k}: {ids}")
  | none => pure ()

/-- `PolicyRegistry::resolve` -/
def resolve (r : PolicyRegistry) (o : ReclaimObject) (pressure : PressureLevel) : Res Policy := do
  let byEmergency ← uniquePolicy (r.policies.filter fun p =>
    decide (p.kind = .emergency) && p.emergency && decide (p.matchPressure = some pressure))
    "emergency"
  if let some p := byEmergency then
    return p
  let byPressure ← uniquePolicy (r.policies.filter fun p =>
    decide (p.kind = .pressure) && !p.emergency && decide (p.matchPressure = some pressure))
    "pressure"
  if let some p := byPressure then
    return p
  let byClass ← uniquePolicy (r.policies.filter fun p =>
    decide (p.kind = .objectClass) && decide (p.matchClass = some o.className)) "object-class"
  if let some p := byClass then
    return p
  let byOwner ← uniquePolicy (r.policies.filter fun p =>
    decide (p.kind = .owner) && decide (p.matchOwner = some o.owner)) "owner"
  if let some p := byOwner then
    return p
  let byDurability ← uniquePolicy (r.policies.filter fun p =>
    decide (p.kind = .durability) && decide (p.matchDurability = some o.durabilityClass))
    "durability"
  if let some p := byDurability then
    return p
  let bySurvivability ← uniquePolicy (r.policies.filter fun p =>
    decide (p.kind = .survivability) &&
      decide (p.matchSurvivability = some o.survivabilityClass)) "survivability"
  if let some p := bySurvivability then
    return p
  match ← uniquePolicy (r.policies.filter fun p => decide (p.kind = .default)) "default" with
  | some p => pure p
  | none => throw (.policy "no default policy registered")

end PolicyRegistry

/-! ## the engine -/

namespace Planning

open Economics

/-- `PolicyDecision` with everything it carries -/
structure PolicyDecision where
  decision : Economics.Decision
  objectSnapshot : ReclaimObject
  pressure : PressureLevel
  explanation : Json

structure DecisionContext where
  dependencyValue : F64
  survivabilityValue : F64

section
variable (a : Arith)

/-- pins and protection are hard invariants -/
def retainReasons (o : ReclaimObject) : List String :=
  (if o.pinned then ["object_is_pinned"] else []) ++
    (if o.isProtected then ["object_is_protected"] else []) ++
    ["hard_invariant_policy_cannot_recommend_reclaim"]

def scoreReasons (o : ReclaimObject) (p : Policy) (pressure : PressureLevel) (score : F64) :
    List String :=
  ["reuse_probability=" ++ a.fixed 6 o.reuseProbability] ++
    (match o.reuseHorizonSecs with
      | some h => [s!"expected_reuse_horizon={h}s"]
      | none => []) ++
    [s!"logical_size={o.logicalSize}", "recompute_cost=" ++ (o.recomputeCost.getD zero).text,
      "score=" ++ a.fixed 4 score, "threshold=" ++ a.fixed 4 p.reclaimThreshold,
      "pressure=" ++ pressure.asStr, "policy=" ++ p.fullId]

def verdictOf (o : ReclaimObject) (p : Policy) (score : F64) : ReclaimVerdict :=
  if o.pinned || o.isProtected then .retain
  else if p.reclaimThreshold.le score && o.reuseProbability.le p.minReuseProbability then .reclaim
  else .retain

/-- the decision on an object whose surface has been computed -/
def decisionOf (o : ReclaimObject) (p : Policy) (pressure : PressureLevel) (epoch : Nat)
    (out : DecisionComponents) : Economics.Decision where
  objectId := o.id
  generation := o.generation
  verdict := verdictOf o p out.reclaimScore
  score := out.reclaimScore
  threshold := p.reclaimThreshold
  policyId := p.id
  policyVersion := p.version
  epoch := epoch
  components := out
  reasons :=
    if o.pinned || o.isProtected then retainReasons o
    else scoreReasons a o p pressure out.reclaimScore

/-- `policy::decide`; the clock is read by nothing in it -/
def decide (registry : PolicyRegistry) (o : ReclaimObject) (pressure : PressureLevel)
    (epoch : Nat) (_now : Int) (context : DecisionContext) : Res PolicyDecision := do
  o.validate
  let p ← registry.resolve o pressure
  validatePolicy p
  checkNonNegative "decision context"
    [("dependency_value", context.dependencyValue),
      ("survivability_value", context.survivabilityValue)]
  let inputs := CostInputs.derive a o pressure.multiplier
  validateFinite inputs
  let out := evaluate a inputs p.weights context.dependencyValue context.survivabilityValue
  validateComponents out
  let d := decisionOf a o p pressure epoch out
  pure ⟨d, o, pressure, buildExplanation d o pressure.asStr⟩

theorem decide_ok {registry : PolicyRegistry} {o : ReclaimObject} {pressure : PressureLevel}
    {epoch : Nat} {now : Int} {context : DecisionContext} {d : PolicyDecision}
    (h : decide a registry o pressure epoch now context = .ok d) :
    d.decision.objectId = o.id ∧ d.decision.generation = o.generation ∧
      d.decision.epoch = epoch ∧ d.decision.score.isFinite = true ∧
      d.decision.threshold.isFinite = true := by
  obtain ⟨-, -, h⟩ := Result.bind_ok.mp h
  obtain ⟨p, -, h⟩ := Result.bind_ok.mp h
  obtain ⟨_, hp, h⟩ := Result.bind_ok.mp h
  obtain ⟨-, -, h⟩ := Result.bind_ok.mp h
  obtain ⟨-, -, h⟩ := Result.bind_ok.mp h
  obtain ⟨_, hout, h⟩ := Result.bind_ok.mp h
  cases h
  exact ⟨rfl, rfl, rfl, validateComponents_ok hout, validatePolicy_threshold hp⟩

end

end Planning

end ReclaimFabric
