import ReclaimFabric.Planning.Restart

/-!
# Resolution

`PolicyRegistry::resolve` tries seven tiers of policies, the most specific one first.  Ambiguity is
excluded beforehand, on text: two policies with one selector key are refused by `validateComplete`.

* `Tier`                 a tier, and which policies of it apply to an object;
* `Tier.applies_key`     policies of one tier that apply to one object have one selector key;
* `descend_of_tier`      the first tier with a policy that applies decides;
* `Additions`            calls of `addPolicy`, one after the other;
* `policy_resolution`    a registry that passes `validateComplete` resolves every object to one
                         policy, whatever the order of its policies; and every registry that grows
                         out of the built-in one passes.
-/

namespace ReclaimFabric

/-! ## tiers -/

/-- the tiers of `resolve` -/
inductive Tier where
  | emergency
  | pressure
  | objectClass
  | owner
  | durability
  | survivability
  | default
deriving DecidableEq

namespace Tier

/-- the most specific tier first -/
def order : List Tier :=
  [.emergency, .pressure, .objectClass, .owner, .durability, .survivability, .default]

/-- how the tier is named in an error -/
def specificity : Tier → String
  | .emergency => "emergency"
  | .pressure => "pressure"
  | .objectClass => "object-class"
  | .owner => "owner"
  | .durability => "durability"
  | .survivability => "survivability"
  | .default => "default"

section
variable (o : ReclaimObject) (pressure : PressureLevel)

/-- the policies a tier looks for -/
def applies (p : Policy) : Tier → Bool
  | .emergency =>
    decide (p.kind = .emergency) && p.emergency && decide (p.matchPressure = some pressure)
  | .pressure =>
    decide (p.kind = .pressure) && !p.emergency && decide (p.matchPressure = some pressure)
  | .objectClass => decide (p.kind = .objectClass) && decide (p.matchClass = some o.className)
  | .owner => decide (p.kind = .owner) && decide (p.matchOwner = some o.owner)
  | .durability =>
    decide (p.kind = .durability) && decide (p.matchDurability = some o.durabilityClass)
  | .survivability =>
    decide (p.kind = .survivability) && decide (p.matchSurvivability = some o.survivabilityClass)
  | .default => decide (p.kind = .default)

/-- the selector key of such a policy -/
def key : Tier → String
  | .emergency => "EMERGENCY:" ++ pressure.asStr
  | .pressure => "PRESSURE:" ++ pressure.asStr
  | .objectClass => "OBJECT_CLASS:" ++ o.className
  | .owner => "OWNER:" ++ o.owner
  | .durability => "DURABILITY:" ++ Store.showOption (some o.durabilityClass.debug)
  | .survivability => "SURVIVABILITY:" ++ Store.showOption (some o.survivabilityClass.debug)
  | .default => "DEFAULT"

/-- the policies of a list that a tier finds -/
def found (policies : List Policy) (t : Tier) : List Policy :=
  policies.filter fun p => t.applies o pressure p

end

section
variable {o : ReclaimObject} {pressure : PressureLevel} {p : Policy} {t : Tier}

/-- **A match determines the selector key**, whatever the class and the owner are called. -/
theorem applies_key (h : t.applies o pressure p = true) : policySelectorKey p = t.key o pressure := by
  cases t with
  | emergency =>
    simp only [applies, Bool.and_eq_true, decide_eq_true_eq] at h
    simp only [policySelectorKey, h.1.1, h.2, key, Option.map_some, Option.getD_some]
  | pressure =>
    simp only [applies, Bool.and_eq_true, decide_eq_true_eq] at h
    simp only [policySelectorKey, h.1.1, h.2, key, Option.map_some, Option.getD_some]
  | objectClass =>
    simp only [applies, Bool.and_eq_true, decide_eq_true_eq] at h
    simp only [policySelectorKey, h.1, h.2, key, Option.getD_some]
  | owner =>
    simp only [applies, Bool.and_eq_true, decide_eq_true_eq] at h
    simp only [policySelectorKey, h.1, h.2, key, Option.getD_some]
  | durability =>
    simp only [applies, Bool.and_eq_true, decide_eq_true_eq] at h
    simp only [policySelectorKey, h.1, h.2, key, Option.map_some]
  | survivability =>
    simp only [applies, Bool.and_eq_true, decide_eq_true_eq] at h
    simp only [policySelectorKey, h.1, h.2, key, Option.map_some]
  | default =>
    simp only [applies, decide_eq_true_eq] at h
    simp only [policySelectorKey, h, key]

end

end Tier

namespace PolicyRegistry

variable {r : PolicyRegistry} {o : ReclaimObject} {pressure : PressureLevel} {p : Policy}

/-! ## what validation establishes -/

theorem validateComplete_ok (h : r.validateComplete = .ok ()) :
    (r.policies.filter fun p => decide (p.kind = .default)).length = 1 ∧ r.ambiguous = none := by
  obtain ⟨_, -, h⟩ := Result.bind_ok.mp h
  dsimp only at h
  by_cases hd : (r.policies.filter fun p => decide (p.kind = .default)).length = 1
  · refine ⟨hd, ?_⟩
    rw [if_neg (not_not.mpr hd)] at h
    cases ha : r.ambiguous with
    | none => rfl
    | some k =>
      rw [ha] at h
      cases h
  · rw [if_pos hd] at h
    cases h

/-- no two policies have one selector key -/
theorem key_unique (h : r.ambiguous = none) (k : String) :
    (r.policies.filter fun p => decide (policySelectorKey p = k)).length ≤ 1 := by
  by_contra hlen
  have hlong : 1 < (r.policies.filter fun p => decide (policySelectorKey p = k)).length := by omega
  obtain ⟨p, hp⟩ := List.exists_mem_of_length_pos (Nat.lt_of_lt_of_le Nat.zero_lt_one hlong.le)
  obtain ⟨hmem, hk⟩ := List.mem_filter.mp hp
  have hkey : k ∈ (r.policies.map policySelectorKey).insertionSort (fun x y => x ≤ y) :=
    (List.mem_insertionSort _).mpr (List.mem_map.mpr ⟨p, hmem, of_decide_eq_true hk⟩)
  have hnone := List.find?_eq_none.mp h k hkey
  exact hnone (decide_eq_true hlong)

theorem found_unique (h : r.ambiguous = none) (t : Tier) :
    (Tier.found o pressure r.policies t).length ≤ 1 := by
  have hsub : (Tier.found o pressure r.policies t).Sublist
      (r.policies.filter fun p => decide (policySelectorKey p = t.key o pressure)) :=
    List.monotone_filter_right _ fun p hp => decide_eq_true (Tier.applies_key hp)
  exact hsub.length_le.trans (key_unique h _)

/-! ## the tiers in turn -/

/-- the first of the tiers with a policy that applies -/
def descend (r : PolicyRegistry) (o : ReclaimObject) (pressure : PressureLevel) :
    List Tier → Res Policy
  | [] => .error (.policy "no default policy registered")
  | t :: ts => do
    match ← uniquePolicy (Tier.found o pressure r.policies t) t.specificity with
    | some p => pure p
    | none => descend r o pressure ts

theorem tier_congr {x : Res (Option Policy)} {f g : Option Policy → Res Policy}
    (hsome : ∀ p, f (some p) = g (some p)) (hnone : f none = g none) : (x >>= f) = (x >>= g) := by
  refine congrArg (x >>= ·) (funext fun found => ?_)
  cases found with
  | some p => exact hsome p
  | none => exact hnone

/-- `resolve` goes through the tiers in order -/
theorem resolve_eq : r.resolve o pressure = r.descend o pressure Tier.order := by
  refine tier_congr (fun _ => rfl) ?_
  refine tier_congr (fun _ => rfl) ?_
  refine tier_congr (fun _ => rfl) ?_
  refine tier_congr (fun _ => rfl) ?_
  refine tier_congr (fun _ => rfl) ?_
  refine tier_congr (fun _ => rfl) ?_
  exact tier_congr (fun _ => rfl) rfl

theorem descend_found {ts : List Tier} {t : Tier}
    (h : Tier.found o pressure r.policies t = [p]) : r.descend o pressure (t :: ts) = .ok p := by
  rw [descend, h]
  rfl

theorem descend_empty {ts : List Tier} {t : Tier}
    (h : Tier.found o pressure r.policies t = []) :
    r.descend o pressure (t :: ts) = r.descend o pressure ts := by
  rw [descend, h]
  rfl

/-- a tier with one policy that applies decides when the tiers before it have none -/
theorem descend_of_tier {before after : List Tier} {t : Tier}
    (hbefore : ∀ t' ∈ before, Tier.found o pressure r.policies t' = [])
    (ht : Tier.found o pressure r.policies t = [p]) :
    r.descend o pressure (before ++ t :: after) = .ok p := by
  induction before with
  | nil => exact descend_found ht
  | cons t' before ih =>
    rw [List.cons_append, descend_empty (hbefore t' List.mem_cons_self)]
    exact ih fun t'' h => hbefore t'' (List.mem_cons_of_mem _ h)

/-- the first tier of a list in which something applies -/
theorem first_tier (hle : ∀ t, (Tier.found o pressure r.policies t).length ≤ 1) {ts : List Tier}
    {last : Tier} (hlast : last ∈ ts) (hne : Tier.found o pressure r.policies last ≠ []) :
    ∃ before t after p, ts = before ++ t :: after ∧
      (∀ t' ∈ before, Tier.found o pressure r.policies t' = []) ∧
      Tier.found o pressure r.policies t = [p] := by
  induction ts with
  | nil => exact absurd hlast List.not_mem_nil
  | cons t ts ih =>
    cases hf : Tier.found o pressure r.policies t with
    | cons p ps =>
      have hps : ps = [] := by
        have hlen := hle t
        rw [hf, List.length_cons] at hlen
        exact List.eq_nil_of_length_eq_zero (by omega)
      rw [hps] at hf
      exact ⟨[], t, ts, p, rfl, by simp, hf⟩
    | nil =>
      have hmem : last ∈ ts := by
        rcases List.mem_cons.mp hlast with rfl | hmem
        · exact absurd hf hne
        · exact hmem
      obtain ⟨before, t', after, p, rfl, hbefore, ht'⟩ := ih hmem
      refine ⟨t :: before, t', after, p, rfl, ?_, ht'⟩
      intro t'' h
      rcases List.mem_cons.mp h with rfl | h
      · exact hf
      · exact hbefore t'' h

/-- `p` is what `resolve` should return: it applies, as the only policy of its tier, no more specific
tier has a policy that applies, and the order of the policies does not matter -/
structure Resolves (r : PolicyRegistry) (o : ReclaimObject) (pressure : PressureLevel)
    (p : Policy) : Prop where
  ok : r.resolve o pressure = .ok p
  mem : p ∈ r.policies
  tier : ∃ before t after, Tier.order = before ++ t :: after ∧ t.applies o pressure p = true ∧
    (∀ t' ∈ before, ∀ q ∈ r.policies, t'.applies o pressure q = false) ∧
    Tier.found o pressure r.policies t = [p]
  perm : ∀ policies : List Policy, policies.Perm r.policies →
    (PolicyRegistry.mk policies).resolve o pressure = .ok p

theorem found_nil {policies : List Policy} {t : Tier} :
    Tier.found o pressure policies t = [] ↔ ∀ q ∈ policies, t.applies o pressure q = false := by
  simp [Tier.found, List.filter_eq_nil_iff]

/-- a registry without ambiguity resolves every object -/
theorem resolves_of_complete (h : r.validateComplete = .ok ()) (o : ReclaimObject)
    (pressure : PressureLevel) : ∃ p, r.Resolves o pressure p := by
  obtain ⟨hdefault, hkeys⟩ := validateComplete_ok h
  have hne : Tier.found o pressure r.policies .default ≠ [] := by
    intro hnil
    have hlen : (Tier.found o pressure r.policies .default).length = 1 := hdefault
    rw [hnil] at hlen
    cases hlen
  have hlast : Tier.default ∈ Tier.order := by decide
  obtain ⟨before, t, after, p, horder, hbefore, ht⟩ := first_tier (found_unique hkeys) hlast hne
  have hp : p ∈ Tier.found o pressure r.policies t := by
    rw [ht]
    exact List.mem_singleton_self p
  obtain ⟨hmem, happlies⟩ := List.mem_filter.mp hp
  have hperm (policies : List Policy) (hl : policies.Perm r.policies) :
      (PolicyRegistry.mk policies).resolve o pressure = .ok p := by
    have hfound (t' : Tier) : (Tier.found o pressure policies t').Perm
        (Tier.found o pressure r.policies t') := hl.filter _
    rw [resolve_eq, horder]
    refine descend_of_tier (fun t' h' => ?_) ?_
    · have hnil := hfound t'
      rw [hbefore t' h'] at hnil
      exact hnil.eq_nil
    · have hone := hfound t
      rw [ht] at hone
      exact List.perm_singleton.mp hone
  exact ⟨p, hperm r.policies (.refl _), hmem, ⟨before, t, after, horder, happlies,
    fun t' h' => found_nil.mp (hbefore t' h'), ht⟩, hperm⟩

theorem withDefaults_complete : withDefaults.validateComplete = .ok () := by
  decide +kernel

end PolicyRegistry

/-! ## growing a registry -/

namespace PolicyStore

/-- any number of calls of `addPolicy`, accepted, refused or failed half-way -/
inductive Additions (number : F64 → Res F64) (w : World) : World → Prop where
  | none : Additions number w w
  | call {w₁ w₂ : World} {p : Policy} {r : Res Unit} (h : Additions number w w₁)
      (hrun : Prog.Ran (exec number) (addPolicy p).run w₁ r w₂) : Additions number w w₂

theorem Additions.complete {number : F64 → Res F64} {w w' : World} (h : Additions number w w')
    (hw : w.policies.validateComplete = .ok ()) : w'.policies.validateComplete = .ok () := by
  induction h with
  | none => exact hw
  | call _ hrun ih =>
    rcases addPolicy_ran hrun with ⟨rfl, -⟩ | ⟨next, -, hcomplete, rfl⟩
    · exact ih
    · exact hcomplete

end PolicyStore

/-- **Resolution is total and unambiguous.**  A registry that passes `validateComplete` resolves
every object under every pressure to one policy: the only one that applies in its tier, with none in
a more specific tier, whatever the order of the policies.  And every registry that grows out of the
built-in policies passes. -/
theorem policy_resolution :
    (∀ r : PolicyRegistry, r.validateComplete = .ok () →
      ∀ o pressure, ∃ p, r.Resolves o pressure p) ∧
    ∀ (number : F64 → Res F64) (w w' : PolicyStore.World), w.policies = .withDefaults →
      PolicyStore.Additions number w w' → w'.policies.validateComplete = .ok () := by
  refine ⟨fun r h o pressure => PolicyRegistry.resolves_of_complete h o pressure, ?_⟩
  intro number w w' hw h
  refine h.complete ?_
  rw [hw]
  exact PolicyRegistry.withDefaults_complete

end ReclaimFabric
