import ReclaimFabric.Safety.Store
import ReclaimFabric.Lib.Result
import Mathlib.Data.List.Sort

/-!
# Replaying the audit log

The audit table only grows, whatever the calls are, and a replay reads it from the newest row on.

* `replayAudit`        `Store::replay_audit`;
* `verifyAppendOnly`   `audit::verify_append_only`;
* `Grown`              rows are appended under the next row ids;
* `replayAudit_eq`     the replay of a log whose ids are the row numbers;
* `replay_grows`       what two replays along a run have in common.
-/

namespace ReclaimFabric

/-! ## queries -/

def maxQueryLimit : Nat := 100000

/-- the filters of a replay -/
structure AuditFilter where
  objectId : Option Uuid
  action : Option String

/-- the WHERE clause -/
def AuditFilter.clause (q : AuditFilter) (a : AuditEntry) : Bool :=
  (q.objectId.all fun id => a.objectId = some id) && q.action.all fun act => a.action = act

namespace Store

def sqlLimit (limit : Nat) : Res Nat := do
  if limit > maxQueryLimit then
    throw (.invalidArgument s!"query limit {limit} exceeds maximum {maxQueryLimit}")
  sqlU64 "query limit" limit
  pure limit

/-- `ORDER BY id DESC LIMIT ?` -/
def replayAudit (q : AuditFilter) (limit : Nat) (s : Store) : Res (List AuditEntry) := do
  let n ← sqlLimit limit
  pure (((s.audit.filter q.clause).mergeSort fun a b => b.id ≤ a.id).take n)

end Store

/-- every following id is strictly lower than the previous one -/
def verifyAppendOnly : List AuditEntry → Bool
  | a :: b :: l => if b.id ≥ a.id then false else verifyAppendOnly (b :: l)
  | _ => true

section
variable {env : Env} {mode : Mode} {s s' : Sys} {x y : Store} {q : AuditFilter} {n : Nat}
  {a : AuditEntry} {as l : List AuditEntry}

theorem verifyAppendOnly_of (h : l.Pairwise fun a b => b.id < a.id) :
    verifyAppendOnly l = true := by
  induction l with
  | nil => rfl
  | cons a l ih =>
    cases l with
    | nil => rfl
    | cons b l =>
      obtain ⟨ha, hl⟩ := List.pairwise_cons.mp h
      have hlt : ¬b.id ≥ a.id := Nat.not_le.mpr (ha b List.mem_cons_self)
      rw [verifyAppendOnly, if_neg hlt]
      exact ih hl

theorem Store.sqlLimit_ok (h : n ≤ maxQueryLimit) : Store.sqlLimit n = .ok n := by
  have hsql : Store.sqlU64 "query limit" n = .ok () := by
    refine if_pos ?_
    exact h.trans (by decide)
  rw [Store.sqlLimit, if_neg (Nat.not_lt.mpr h), hsql]
  rfl

/-! ## numbers -/

/-- the rows that have been appended carry the next row ids -/
def Grown (x y : Store) : Prop :=
  ∃ bs, y.audit = x.audit ++ bs ∧ bs.map AuditEntry.id = List.range' (x.audit.length + 1) bs.length

theorem Grown.of_eq (h : y.audit = x.audit) : Grown x y := ⟨[], by rw [h, List.append_nil], rfl⟩

theorem Grown.trans {z : Store} (h : Grown x y) (h' : Grown y z) : Grown x z := by
  obtain ⟨bs, hb, hid⟩ := h
  obtain ⟨cs, hc, hid'⟩ := h'
  refine ⟨bs ++ cs, by rw [hc, hb, List.append_assoc], ?_⟩
  have hnext : y.audit.length + 1 = x.audit.length + 1 + bs.length := by
    rw [hb, List.length_append]
    omega
  rw [List.map_append, hid, hid', List.length_append, hnext]
  exact List.range'_append_1

namespace Store

theorem insertAuditRow_grown (h : insertAuditRow a x = .ok y) : Grown x y :=
  ⟨_, (insertAuditRow_audit h).2, rfl⟩

theorem insertAuditRows_grown (h : insertAuditRows as x = .ok y) : Grown x y := by
  induction as generalizing x with
  | nil =>
    cases h
    exact .of_eq rfl
  | cons a as ih =>
    obtain ⟨x₁, hx, h⟩ := Result.bind_ok.mp h
    exact (insertAuditRow_grown hx).trans (ih h)

end Store

/-- **One call of a store method, whatever its arguments.** -/
theorem StoreOp.run_grown {so : StoreOp} {b : so.Out} (h : so.run x = .ok (b, y)) : Grown x y := by
  by_cases hc : so.rowless = true
  · exact .of_eq (StoreOp.run_rowless hc b y h).2
  cases so with
  | createObject o =>
    obtain ⟨_, -, h⟩ := Result.bind_ok.mp h
    obtain ⟨x₁, hx, h⟩ := Result.bind_ok.mp h
    cases h
    exact .of_eq (Store.insertObjectRow_audit hx)
  | createObjectWithAudits o as =>
    simp only [StoreOp.run, Store.createObjectWithAudits] at h
    obtain ⟨_, -, h⟩ := Result.bind_ok.mp h
    split at h
    · cases h
    · obtain ⟨_, -, h⟩ := Result.bind_ok.mp h
      obtain ⟨x₁, hx, h⟩ := Result.bind_ok.mp h
      obtain ⟨x₂, hx', h⟩ := Result.bind_ok.mp h
      cases h
      exact (Grown.of_eq (Store.insertObjectRow_audit hx)).trans (Store.insertAuditRows_grown hx')
  | updateObject o =>
    obtain ⟨_, -, h⟩ := Result.bind_ok.mp h
    obtain ⟨x₁, hx, h⟩ := Result.bind_ok.mp h
    cases h
    exact .of_eq (Store.updateObjectRow_audit hx)
  | updateObjectWithAudit o a =>
    obtain ⟨_, -, h⟩ := Result.bind_ok.mp h
    obtain ⟨_, -, h⟩ := Result.bind_ok.mp h
    obtain ⟨x₁, hx, h⟩ := Result.bind_ok.mp h
    obtain ⟨x₂, hx', h⟩ := Result.bind_ok.mp h
    cases h
    exact (Grown.of_eq (Store.updateObjectRow_audit hx)).trans (Store.insertAuditRow_grown hx')
  | appendAudit a =>
    obtain ⟨x₁, hx, h⟩ := Result.bind_ok.mp h
    cases h
    exact Store.insertAuditRow_grown hx
  | _ => exact absurd rfl hc

theorem grown_stores (h : Relation.ReflTransGen StoreStep x y) : Grown x y := by
  induction h with
  | refl => exact .of_eq rfl
  | tail _ hs ih =>
    refine ih.trans ?_
    cases hs with
    | method hrun => exact StoreOp.run_grown hrun
    | claim _ ha => exact .of_eq ha

theorem Reach.from_init (h : Reach env mode s) : Later env mode .init s := by
  induction h with
  | init => exact .refl
  | next l _ hm hn ih => exact ih.next l hm hn

/-- the row ids are the row numbers -/
def Numbered (x : Store) : Prop := x.audit.map AuditEntry.id = List.range' 1 x.audit.length

theorem Reach.numbered (h : Reach env mode s) : Numbered s.shared.store := by
  obtain ⟨bs, hb, hid⟩ := grown_stores h.from_init.stores
  have hb : s.shared.store.audit = bs := hb
  rw [Numbered, hb]
  exact hid

/-! ## replays -/

theorem Numbered.ascending (h : Numbered x) : x.audit.Pairwise fun a b => a.id < b.id := by
  have hids : (x.audit.map AuditEntry.id).Pairwise (· < ·) := by
    rw [h]
    exact List.pairwise_lt_range'
  exact List.pairwise_map.mp hids

theorem Numbered.descending (h : Numbered x) :
    (x.audit.filter q.clause).reverse.Pairwise fun a b => b.id < a.id :=
  List.pairwise_reverse.mpr (h.ascending.sublist List.filter_sublist)

theorem replayAudit_eq (h : Numbered x) (hn : n ≤ maxQueryLimit) :
    x.replayAudit q n = .ok ((x.audit.filter q.clause).reverse.take n) := by
  have hinj : ∀ a ∈ x.audit, ∀ b ∈ x.audit, a.id = b.id → a = b := by
    have hnodup : (x.audit.map AuditEntry.id).Nodup := h ▸ List.nodup_range'
    exact fun a ha b hb hab => List.inj_on_of_nodup_map hnodup ha hb hab
  have hrev : (x.audit.filter q.clause).reverse.Pairwise fun a b => b.id ≤ a.id :=
    h.descending.imp Nat.le_of_lt
  have hsorted : ((x.audit.filter q.clause).mergeSort fun a b => b.id ≤ a.id).Pairwise
      fun a b => b.id ≤ a.id := by
    refine (List.pairwise_mergeSort ?_ ?_ _).imp of_decide_eq_true
    · intro a b c hab hbc
      simp only [decide_eq_true_eq] at hab hbc ⊢
      exact hbc.trans hab
    · intro a b
      simp only [Bool.or_eq_true, decide_eq_true_eq]
      exact Nat.le_total b.id a.id
  have hsort : ((x.audit.filter q.clause).mergeSort fun a b => b.id ≤ a.id) =
      (x.audit.filter q.clause).reverse := by
    refine List.Perm.eq_of_pairwise ?_ hsorted hrev
      ((List.mergeSort_perm _ _).trans (List.reverse_perm _).symm)
    intro a b ha hb hab hba
    have ha := (List.mem_filter.mp ((List.mergeSort_perm _ _).mem_iff.mp ha)).1
    have hb := (List.mem_filter.mp (List.mem_reverse.mp hb)).1
    exact hinj a ha b hb (Nat.le_antisymm hba hab)
  rw [Store.replayAudit, Store.sqlLimit_ok hn, ← hsort]
  rfl

theorem take_append_take {α : Type} (l r : List α) : (l ++ r.take n).take n = (l ++ r).take n := by
  rw [List.take_append, List.take_append, List.take_take, Nat.min_eq_left (Nat.sub_le _ _)]

/-- **Replays along a run.**  A later replay has new rows in front, with higher ids, and is
otherwise the earlier one. -/
theorem replay_grows (h : Reach env mode s) (hl : Later env mode s s') (hn : n ≤ maxQueryLimit) :
    ∃ old now fresh, s.shared.store.replayAudit q n = .ok old ∧
      s'.shared.store.replayAudit q n = .ok now ∧ now = (fresh ++ old).take n ∧
      (∀ a ∈ fresh, ∀ b ∈ s.shared.store.audit, b.id < a.id) ∧ verifyAppendOnly now = true := by
  have hnum := h.numbered
  have hnum' := (h.later hl).numbered
  obtain ⟨bs, hb, hid⟩ := grown_stores hl.stores
  refine ⟨_, _, (bs.filter q.clause).reverse, replayAudit_eq hnum hn, replayAudit_eq hnum' hn, ?_,
    ?_, ?_⟩
  · rw [take_append_take, hb, List.filter_append, List.reverse_append]
  · intro a ha b hb'
    have ha : a.id ∈ List.range' (s.shared.store.audit.length + 1) bs.length :=
      hid ▸ List.mem_map_of_mem (List.mem_filter.mp (List.mem_reverse.mp ha)).1
    have hb' : b.id ∈ List.range' 1 s.shared.store.audit.length := hnum ▸ List.mem_map_of_mem hb'
    have hlow := List.mem_range'_1.mp ha
    have hhigh := List.mem_range'_1.mp hb'
    omega
  · exact verifyAppendOnly_of ((hnum'.descending).sublist (List.take_sublist _ _))

end

namespace Sample

def logLength (s : Sys) : Nat := s.shared.store.audit.length

theorem rowCommitted_eq : (validatedReclaim.bind fun s => (rowCommitted s).map fun s' =>
    (logLength s, logLength s')) = some (6, 7) := by
  decide +kernel

end Sample

/-- the row of the commit stands in front -/
theorem replay_grows_committed : ∃ s s' old now fresh,
    Sample.logLength s = 6 ∧ Sample.logLength s' = 7 ∧
      s.shared.store.replayAudit ⟨some (Sample.uuid 10), none⟩ 3 = .ok old ∧
      s'.shared.store.replayAudit ⟨some (Sample.uuid 10), none⟩ 3 = .ok now ∧
      now = (fresh ++ old).take 3 ∧ verifyAppendOnly now = true := by
  obtain ⟨s, hs, h⟩ := Option.bind_eq_some_iff.mp Sample.rowCommitted_eq
  obtain ⟨s', hs', hids⟩ := Option.map_eq_some_iff.mp h
  obtain ⟨hold, hnow⟩ := Prod.mk.inj hids
  have hlater : Later Sample.env anyRun s s' := Later.steps? Sample.free_ok .refl hs'
  obtain ⟨old, now, fresh, ho, hn, heq, -, hv⟩ := replay_grows (n := 3)
    (q := ⟨some (Sample.uuid 10), none⟩) (Sample.reached_validatedReclaim s hs) hlater (by decide)
  exact ⟨s, s', old, now, fresh, hold, hnow, ho, hn, heq, hv⟩

end ReclaimFabric
