import ReclaimFabric.Protocol.State

/-!
# The physical plan

What the two loops of the plan compute: `schedule` groups the replicas of a reclaim by payload,
and of each group that holds every reference the representative is deleted.

* `Grouped`              the groups are disjoint and count at most what they were made of;
* `scheduleAll_ok`       the loop keeps them so;
* `scheduleAll_total`    it fails only when two replicas of one payload disagree on its key;
* `withPhysicalDeletions_ok`, `withPhysicalDeletions_total`
                         a plan is accepted when it is a subset of the scheduled replicas.
-/

set_option linter.unusedSectionVars false

namespace ReclaimFabric

namespace Coordinator

/-- the payload of a group -/
def Scheduled.slot (s : Scheduled) : String × ContentHash := (s.backend, s.hash)

/-- the replicas of one payload -/
def sharing (k : String × ContentHash) (rs : List Replica) : List Replica :=
  rs.filter (fun r => decide (r.slot = k))

/-- disjoint groups of the replicas `done` -/
structure Grouped (empty : ContentHash) (done : List Replica) (ss : List Scheduled) : Prop where
  nodup : (ss.map Scheduled.slot).Nodup
  mem : ∀ s ∈ ss, s.representative ∈ done ∧ s.representative.slot = s.slot ∧ s.hash ≠ empty
  count : ∀ s ∈ ss, s.count ≤ (sharing s.slot done).length

variable {empty : ContentHash} {r : Replica} {rs done physical : List Replica}
  {ss ss' : List Scheduled}

theorem slot_eq_iff {s : Scheduled} :
    (s.hash = r.contentHash ∧ s.backend = r.location.backend) ↔ s.slot = r.slot := by
  rw [Scheduled.slot, Replica.slot, Prod.mk.injEq]
  exact and_comm

/-- a replica joins the group of its payload, or starts one -/
theorem schedule_ok (h : schedule r ss = .ok ss') :
    (∃ l₁ s l₂, ss = l₁ ++ s :: l₂ ∧ ss' = l₁ ++ { s with count := s.count + 1 } :: l₂ ∧
      s.slot = r.slot) ∨
    (r.slot ∉ ss.map Scheduled.slot ∧ ss' = ss ++ [⟨r.contentHash, r.location.backend, 1, r⟩]) := by
  induction ss generalizing ss' with
  | nil =>
    cases h
    exact .inr ⟨by simp, rfl⟩
  | cons s ss ih =>
    simp only [schedule] at h
    split at h
    · next hs =>
      split at h
      · cases h
      · cases h
        exact .inl ⟨[], s, ss, rfl, rfl, slot_eq_iff.mp hs⟩
    · next hs =>
      cases hrec : schedule r ss with
      | error e => rw [hrec] at h; cases h
      | ok ss₁ =>
        rw [hrec] at h
        cases h
        rcases ih hrec with ⟨l₁, x, l₂, rfl, rfl, hx⟩ | ⟨hno, rfl⟩
        · exact .inl ⟨s :: l₁, x, l₂, rfl, rfl, hx⟩
        · refine .inr ⟨?_, rfl⟩
          rw [List.map_cons, List.mem_cons]
          rintro (he | hm)
          · exact hs (slot_eq_iff.mpr he.symm)
          · exact hno hm

theorem sharing_append (k : String × ContentHash) (xs ys : List Replica) :
    (sharing k (xs ++ ys)).length = (sharing k xs).length + (sharing k ys).length := by
  rw [sharing, List.filter_append, List.length_append]
  rfl

theorem Grouped.mono (h : Grouped empty done ss) (xs : List Replica) :
    Grouped empty (done ++ xs) ss where
  nodup := h.nodup
  mem := fun s hs => by
    obtain ⟨h₁, h₂⟩ := h.mem s hs
    exact ⟨List.mem_append_left _ h₁, h₂⟩
  count := fun s hs => by
    rw [sharing_append]
    have := h.count s hs
    omega

theorem Grouped.schedule (hg : Grouped empty done ss) (hne : r.contentHash ≠ empty)
    (h : schedule r ss = .ok ss') : Grouped empty (done ++ [r]) ss' := by
  have hone : (sharing r.slot [r]).length = 1 := by simp [sharing]
  have hmono := hg.mono [r]
  rcases schedule_ok h with ⟨l₁, s, l₂, rfl, rfl, hs⟩ | ⟨hno, rfl⟩
  · -- the group of the payload grows by one
    have hsm : s ∈ l₁ ++ s :: l₂ := by simp
    constructor
    · have hn := hg.nodup
      simp only [List.map_append, List.map_cons] at hn ⊢
      exact hn
    · intro x hx
      rw [List.mem_append, List.mem_cons] at hx
      rcases hx with hx | rfl | hx
      · exact hmono.mem x (List.mem_append_left _ hx)
      · exact hmono.mem s hsm
      · exact hmono.mem x (by simp [hx])
    · intro x hx
      rw [List.mem_append, List.mem_cons] at hx
      rcases hx with hx | rfl | hx
      · exact hmono.count x (List.mem_append_left _ hx)
      · show s.count + 1 ≤ (sharing s.slot (done ++ [r])).length
        have hc := hg.count s hsm
        rw [sharing_append, hs, hone]
        rw [hs] at hc
        omega
      · exact hmono.count x (by simp [hx])
  · -- the first of its payload
    constructor
    · rw [List.map_append, List.nodup_append]
      refine ⟨hg.nodup, by simp, ?_⟩
      intro a ha b hb
      have hb : b = r.slot := by simpa [Scheduled.slot, Replica.slot] using hb
      rintro rfl
      exact hno (hb ▸ ha)
    · intro x hx
      rcases List.mem_append.mp hx with hx | hx
      · exact hmono.mem x hx
      · rw [List.mem_singleton.mp hx]
        exact ⟨by simp, rfl, hne⟩
    · intro x hx
      rcases List.mem_append.mp hx with hx | hx
      · exact hmono.count x hx
      · rw [List.mem_singleton.mp hx]
        show 1 ≤ (sharing r.slot (done ++ [r])).length
        rw [sharing_append, hone]
        omega

theorem scheduleAll_ok {p : List Replica × List Scheduled} (hg : Grouped empty done ss)
    (h : scheduleAll empty rs physical ss = .ok p) :
    p.1 = physical ++ rs.filter (fun r => decide (r.contentHash = empty)) ∧
      Grouped empty (done ++ rs) p.2 := by
  induction rs generalizing done physical ss with
  | nil =>
    cases h
    simp [hg]
  | cons r rs ih =>
    simp only [scheduleAll] at h
    split at h
    · next he =>
      obtain ⟨h₁, h₂⟩ := ih (hg.mono [r]) h
      simp only [List.append_assoc, List.cons_append, List.nil_append] at h₁ h₂
      refine ⟨?_, h₂⟩
      rw [h₁, List.filter_cons_of_pos (by simpa using he)]
    · next hne =>
      cases hs : schedule r ss with
      | error e => rw [hs] at h; cases h
      | ok ss₁ =>
        rw [hs] at h
        obtain ⟨h₁, h₂⟩ := ih (hg.schedule hne hs) h
        simp only [List.append_assoc, List.cons_append, List.nil_append] at h₂
        refine ⟨?_, h₂⟩
        rw [h₁, List.filter_cons_of_neg (by simpa using hne)]

/-- replicas of one payload agree on its key -/
def KeysAgree (empty : ContentHash) (rs : List Replica) : Prop :=
  ∀ r ∈ rs, ∀ r' ∈ rs, r.contentHash ≠ empty → r.slot = r'.slot → r.location.key = r'.location.key

theorem schedule_total (hkeys : ∀ s ∈ ss, s.slot = r.slot →
    s.representative.location.key = r.location.key) : ∃ ss', schedule r ss = .ok ss' := by
  induction ss with
  | nil => exact ⟨_, rfl⟩
  | cons s ss ih =>
    simp only [schedule]
    split
    · next hs =>
      rw [if_neg (not_not.mpr (hkeys s List.mem_cons_self (slot_eq_iff.mp hs)))]
      exact ⟨_, rfl⟩
    · obtain ⟨ss₁, h₁⟩ := ih fun x hx => hkeys x (List.mem_cons_of_mem _ hx)
      rw [h₁]
      exact ⟨_, rfl⟩

theorem scheduleAll_total (hg : Grouped empty done ss) (hkeys : KeysAgree empty (done ++ rs)) :
    ∃ p, scheduleAll empty rs physical ss = .ok p := by
  induction rs generalizing done physical ss with
  | nil => exact ⟨_, rfl⟩
  | cons r rs ih =>
    have hkeys' : KeysAgree empty ((done ++ [r]) ++ rs) := by
      simpa using hkeys
    simp only [scheduleAll]
    split
    · exact ih (hg.mono [r]) hkeys'
    · next hne =>
      obtain ⟨ss₁, h₁⟩ : ∃ ss₁, schedule r ss = .ok ss₁ := by
        refine schedule_total fun s hs hslot => ?_
        obtain ⟨hmem, hrep, hsne⟩ := hg.mem s hs
        have hh : s.representative.contentHash ≠ empty := by
          rw [show s.representative.contentHash = s.hash from (Prod.mk.inj hrep).2]
          exact hsne
        exact hkeys _ (List.mem_append_left _ hmem) r (by simp) hh (hrep.trans hslot)
      rw [h₁]
      exact ih (hg.schedule hne h₁) hkeys'

theorem filterMap_range {α : Type} (l : List α) :
    (List.range l.length).filterMap (fun i => l[i]?) = l := by
  induction l with
  | nil => rfl
  | cons a l ih =>
    rw [List.length_cons, List.range_succ_eq_map, List.filterMap_cons, List.filterMap_map]
    simpa [Function.comp_def] using ih

/-- a hash map is iterated over all its entries -/
theorem hashOrder_perm {α : Type} {l : List α} {order : List Nat}
    (h : order.Perm (List.range l.length)) : (order.filterMap (fun i => l[i]?)).Perm l := by
  have hp := h.filterMap (fun i => l[i]?)
  rw [filterMap_range] at hp
  exact hp

/-- the payloads of the empty content and some of the representatives: distinct rows of the
reclaim -/
theorem planned_ok {p : List Replica × List Scheduled} {ordered : List Scheduled}
    {l : List Replica} (hids : (rs.map Replica.replicaId).Nodup)
    (h : scheduleAll empty rs [] [] = .ok p) (hperm : ordered.Perm p.2)
    (hl : l.Sublist (ordered.map Scheduled.representative)) :
    (∀ r ∈ p.1 ++ l, r ∈ rs) ∧ ((p.1 ++ l).map Replica.replicaId).Nodup := by
  have hg₀ : Grouped empty [] [] := ⟨List.nodup_nil, nofun, nofun⟩
  obtain ⟨h₁, hg⟩ := scheduleAll_ok hg₀ h
  rw [List.nil_append] at h₁ hg
  have hrep : ∀ r ∈ l, ∃ s ∈ p.2, s.representative = r := by
    intro r hr
    obtain ⟨s, hs, rfl⟩ := List.mem_map.mp (hl.subset hr)
    exact ⟨s, hperm.mem_iff.mp hs, rfl⟩
  have hsub : ∀ r ∈ p.1 ++ l, r ∈ rs := by
    intro r hr
    rcases List.mem_append.mp hr with hr | hr
    · rw [h₁] at hr
      exact List.mem_of_mem_filter hr
    · obtain ⟨s, hs, rfl⟩ := hrep r hr
      exact (hg.mem s hs).1
  refine ⟨hsub, ?_⟩
  -- distinct rows of the reclaim have distinct ids
  refine List.Nodup.map_on ?_ ?_
  · intro x hx y hy he
    exact List.inj_on_of_nodup_map hids (hsub x hx) (hsub y hy) he
  · rw [List.nodup_append]
    refine ⟨?_, ?_, ?_⟩
    · rw [h₁]
      exact (List.Nodup.of_map _ hids).filter _
    · refine hl.nodup (List.Nodup.of_map Replica.slot ?_)
      have hslots : (ordered.map Scheduled.representative).map Replica.slot =
          ordered.map Scheduled.slot := by
        rw [List.map_map]
        refine List.map_congr_left fun s hs => ?_
        exact (hg.mem s (hperm.mem_iff.mp hs)).2.1
      rw [hslots]
      exact (hperm.map _).nodup_iff.mpr hg.nodup
    · rintro r hr _ hr' rfl
      rw [h₁, List.mem_filter, decide_eq_true_iff] at hr
      obtain ⟨s, hs, rfl⟩ := hrep r hr'
      obtain ⟨_, hslot, hne⟩ := hg.mem s hs
      exact hne ((Prod.mk.inj hslot).2 ▸ hr.2)

end Coordinator

/-! ## the journal payload with a plan -/

theorem validatePhysicalSubset_ok {scheduled plan : List Replica} {seen : List Uuid}
    (h : validatePhysicalSubset scheduled plan seen = .ok ()) : ∀ r ∈ plan, r ∈ scheduled := by
  induction plan generalizing seen with
  | nil => exact nofun
  | cons r rs ih =>
    simp only [validatePhysicalSubset] at h
    split at h
    · cases h
    · split at h
      · cases h
      · next hmem =>
        intro x hx
        rcases List.mem_cons.mp hx with rfl | hx
        · exact not_not.mp hmem
        · exact ih h x hx

theorem validatePhysicalSubset_total {scheduled plan : List Replica} {seen : List Uuid}
    (hsub : ∀ r ∈ plan, r ∈ scheduled) (hnodup : (plan.map Replica.replicaId).Nodup)
    (hseen : ∀ r ∈ plan, r.replicaId ∉ seen) :
    validatePhysicalSubset scheduled plan seen = .ok () := by
  induction plan generalizing seen with
  | nil => rfl
  | cons r rs ih =>
    rw [List.map_cons, List.nodup_cons] at hnodup
    rw [validatePhysicalSubset, if_neg (hseen r List.mem_cons_self),
      if_neg (not_not.mpr (hsub r List.mem_cons_self))]
    refine ih (fun x hx => hsub x (List.mem_cons_of_mem _ hx)) hnodup.2 ?_
    intro x hx hmem
    rcases List.mem_cons.mp hmem with he | hmem
    · exact hnodup.1 (he ▸ List.mem_map_of_mem hx)
    · exact hseen x (List.mem_cons_of_mem _ hx) hmem

theorem parseJournalPayload_payloadOf {S : Snapshot} {plan : Option (List Replica)}
    (hv : S.prior.validate = .ok ()) :
    parseJournalPayload (payloadOf S plan) = .ok ⟨S.prior, S.dels, plan, S.archs⟩ := by
  simp only [payloadOf, parseJournalPayload, requireField, bind, Except.bind, hv]
  rfl

/-- an accepted plan consists of scheduled replicas -/
theorem withPhysicalDeletions_ok {S : Snapshot} {plan : List Replica} {p : JournalPayload}
    (hv : S.prior.validate = .ok ())
    (h : withPhysicalDeletions (payloadOf S none) plan = .ok p) :
    p = payloadOf S (some plan) ∧ ∀ r ∈ plan, r ∈ S.dels := by
  simp only [withPhysicalDeletions, parseJournalPayload_payloadOf hv, bind, Except.bind,
    Option.isSome_none] at h
  cases hsub : validatePhysicalSubset S.dels plan [] with
  | error e => rw [hsub] at h; cases h
  | ok u =>
    rw [hsub] at h
    cases h
    exact ⟨rfl, validatePhysicalSubset_ok hsub⟩

theorem withPhysicalDeletions_total {S : Snapshot} {plan : List Replica}
    (hv : S.prior.validate = .ok ()) (hsub : ∀ r ∈ plan, r ∈ S.dels)
    (hnodup : (plan.map Replica.replicaId).Nodup) :
    withPhysicalDeletions (payloadOf S none) plan = .ok (payloadOf S (some plan)) := by
  have hvalid : validatePhysicalSubset S.dels plan [] = .ok () :=
    validatePhysicalSubset_total hsub hnodup fun _ _ => List.not_mem_nil
  simp only [withPhysicalDeletions, parseJournalPayload_payloadOf hv, bind, Except.bind,
    Option.isSome_none, Bool.false_eq_true, if_false, hvalid]
  rfl

end ReclaimFabric
