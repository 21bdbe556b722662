import Mathlib.Algebra.Order.Ring.Int
import Mathlib.Data.List.Sort
import Mathlib.Data.List.Nodup
import Mathlib.Data.List.Count

/-!
# Keyed tables

A table is a list of rows in which no two rows have the same primary key; the uniqueness is a
field, so a table with a duplicate key cannot be built.  The operations are those of a small
relational store:

* `find?`        the row of a key;
* `insert?`      INSERT, which fails when the key is taken;
* `updateWhere`  UPDATE … WHERE with an assignment that keeps the key;
* `replace`      UPDATE of a whole row by its key;
* `deleteWhere`  DELETE … WHERE.

Every operation is described by what it does to MEMBERSHIP (`mem_…`) and to a lookup
(`find?_…`).
-/

set_option linter.unusedSectionVars false

/-- rows in which no two rows have the same key -/
structure Table {κ ρ : Type} (key : ρ → κ) where
  rows : List ρ
  nodup : (rows.map key).Nodup

namespace Table

variable {κ ρ : Type} {key : ρ → κ}

instance : Membership ρ (Table key) := ⟨fun T r => r ∈ T.rows⟩

theorem mem_rows {T : Table key} {r : ρ} : r ∈ T.rows ↔ r ∈ T := Iff.rfl

def empty : Table key := ⟨[], List.nodup_nil⟩

@[simp] theorem not_mem_empty (r : ρ) : r ∉ (empty : Table key) := List.not_mem_nil

/-- two rows of one key are one row -/
theorem eq_of_key {T : Table key} {r s : ρ} (hr : r ∈ T) (hs : s ∈ T) (h : key r = key s) :
    r = s :=
  List.inj_on_of_nodup_map T.nodup hr hs h

theorem ext_rows {S T : Table key} (h : S.rows = T.rows) : S = T := by
  cases S
  cases T
  cases h
  rfl

/-! ## lookup -/

section
variable [DecidableEq κ]

def find? (T : Table key) (k : κ) : Option ρ := T.rows.find? (fun r => decide (key r = k))

theorem find?_eq_some {T : Table key} {k : κ} {r : ρ} :
    T.find? k = some r ↔ r ∈ T ∧ key r = k := by
  constructor
  · intro h
    refine ⟨List.mem_of_find?_eq_some h, ?_⟩
    simpa using List.find?_some h
  · rintro ⟨hr, hk⟩
    cases hf : T.find? k with
    | none =>
      have := List.find?_eq_none.mp hf r hr
      simp [hk] at this
    | some s =>
      have hs : s ∈ T := List.mem_of_find?_eq_some hf
      have hsk : key s = k := by simpa using List.find?_some hf
      rw [eq_of_key hs hr (hsk.trans hk.symm)]

theorem find?_eq_none {T : Table key} {k : κ} : T.find? k = none ↔ ∀ r ∈ T, key r ≠ k := by
  simp only [find?, List.find?_eq_none, decide_eq_true_eq]
  rfl

theorem find?_of_mem {T : Table key} {r : ρ} (h : r ∈ T) : T.find? (key r) = some r :=
  find?_eq_some.mpr ⟨h, rfl⟩

theorem mem_of_find? {T : Table key} {k : κ} {r : ρ} (h : T.find? k = some r) : r ∈ T :=
  (find?_eq_some.mp h).1

theorem key_of_find? {T : Table key} {k : κ} {r : ρ} (h : T.find? k = some r) : key r = k :=
  (find?_eq_some.mp h).2

/-- a lookup is determined by the rows that have the key -/
theorem find?_congr {S T : Table key} {k : κ} (h : ∀ r, key r = k → (r ∈ S ↔ r ∈ T)) :
    S.find? k = T.find? k := by
  cases hT : T.find? k with
  | none =>
    rw [find?_eq_none] at hT ⊢
    intro r hr hk
    exact hT r ((h r hk).mp hr) hk
  | some r =>
    rw [find?_eq_some] at hT ⊢
    exact ⟨(h r hT.2).mpr hT.1, hT.2⟩

end

/-! ## insert -/

section
variable [DecidableEq κ]

theorem nodup_snoc {T : Table key} {r : ρ} (h : T.find? (key r) = none) :
    ((T.rows ++ [r]).map key).Nodup := by
  rw [List.map_append, List.nodup_append]
  refine ⟨T.nodup, List.nodup_singleton _, ?_⟩
  intro a ha b hb hab
  rw [List.map_singleton, List.mem_singleton] at hb
  obtain ⟨s, hs, rfl⟩ := List.mem_map.mp ha
  exact find?_eq_none.mp h s hs (hab.trans hb)

/-- INSERT: refused when the key is taken -/
def insert? (T : Table key) (r : ρ) : Option (Table key) :=
  if h : T.find? (key r) = none then some ⟨T.rows ++ [r], nodup_snoc h⟩ else none

theorem insert?_eq_some {T T' : Table key} {r : ρ} (h : T.insert? r = some T') :
    T.find? (key r) = none ∧ T'.rows = T.rows ++ [r] := by
  unfold insert? at h
  split at h
  · next hn =>
    cases h
    exact ⟨hn, rfl⟩
  · cases h

theorem insert?_of_none {T : Table key} {r : ρ} (h : T.find? (key r) = none) :
    ∃ T', T.insert? r = some T' := by
  unfold insert?
  rw [dif_pos h]
  exact ⟨_, rfl⟩

theorem insert?_eq_none {T : Table key} {r : ρ} (h : T.insert? r = none) :
    T.find? (key r) ≠ none := by
  intro hn
  obtain ⟨T', hT'⟩ := insert?_of_none hn
  rw [h] at hT'
  cases hT'

theorem mem_insert? {T T' : Table key} {r s : ρ} (h : T.insert? r = some T') :
    s ∈ T' ↔ s ∈ T ∨ s = r := by
  show s ∈ T'.rows ↔ _
  rw [(insert?_eq_some h).2, List.mem_append, List.mem_singleton]
  rfl

theorem find?_insert? {T T' : Table key} {r : ρ} {k : κ} (h : T.insert? r = some T') :
    T'.find? k = if key r = k then some r else T.find? k := by
  by_cases hk : key r = k
  · rw [if_pos hk, find?_eq_some]
    exact ⟨(mem_insert? h).mpr (Or.inr rfl), hk⟩
  · rw [if_neg hk]
    refine find?_congr ?_
    intro s hs
    rw [mem_insert? h]
    constructor
    · rintro (h' | rfl)
      · exact h'
      · exact absurd hs hk
    · exact Or.inl

end

/-! ## update and delete -/

/-- UPDATE … WHERE, with an assignment that keeps the key -/
def updateWhere (T : Table key) (p : ρ → Bool) (f : ρ → ρ) (hf : ∀ r, key (f r) = key r) :
    Table key :=
  ⟨T.rows.map (fun r => if p r then f r else r), by
    have : (key ∘ fun r => if p r then f r else r) = key := by
      funext r
      show key (if p r then f r else r) = key r
      split
      · exact hf r
      · rfl
    rw [List.map_map, this]
    exact T.nodup⟩

theorem mem_updateWhere {T : Table key} {p : ρ → Bool} {f : ρ → ρ} {hf} {s : ρ} :
    s ∈ T.updateWhere p f hf ↔ ∃ r ∈ T, s = if p r then f r else r := by
  show s ∈ T.rows.map _ ↔ _
  rw [List.mem_map]
  constructor
  · rintro ⟨r, hr, rfl⟩
    exact ⟨r, hr, rfl⟩
  · rintro ⟨r, hr, rfl⟩
    exact ⟨r, hr, rfl⟩

theorem find?_updateWhere [DecidableEq κ] {T : Table key} {p : ρ → Bool} {f : ρ → ρ} {hf}
    {k : κ} :
    (T.updateWhere p f hf).find? k = (T.find? k).map (fun r => if p r then f r else r) := by
  have hkey : ∀ r, key (if p r then f r else r) = key r := by
    intro r
    split
    · exact hf r
    · rfl
  cases hT : T.find? k with
  | none =>
    rw [Option.map_none, find?_eq_none]
    intro s hs
    obtain ⟨r, hr, rfl⟩ := mem_updateWhere.mp hs
    rw [hkey]
    exact find?_eq_none.mp hT r hr
  | some r =>
    rw [Option.map_some, find?_eq_some]
    obtain ⟨hr, hk⟩ := find?_eq_some.mp hT
    exact ⟨mem_updateWhere.mpr ⟨r, hr, rfl⟩, (hkey r).trans hk⟩

/-- how many rows an UPDATE … WHERE or a COUNT … WHERE touches -/
def countWhere (T : Table key) (p : ρ → Bool) : Nat := T.rows.countP p

def deleteWhere (T : Table key) (p : ρ → Bool) : Table key :=
  ⟨T.rows.filter (fun r => !p r), T.nodup.sublist (List.filter_sublist.map key)⟩

theorem mem_deleteWhere {T : Table key} {p : ρ → Bool} {s : ρ} :
    s ∈ T.deleteWhere p ↔ s ∈ T ∧ p s = false := by
  show s ∈ T.rows.filter _ ↔ _
  rw [List.mem_filter, Bool.not_eq_true']
  rfl

section
variable [DecidableEq κ]

/-- UPDATE of the whole row that has the key of `r` -/
def replace (T : Table key) (r : ρ) : Table key :=
  ⟨T.rows.map (fun s => if key s = key r then r else s), by
    have : (key ∘ fun s => if key s = key r then r else s) = key := by
      funext s
      show key (if key s = key r then r else s) = key s
      split
      · next h => exact h.symm
      · rfl
    rw [List.map_map, this]
    exact T.nodup⟩

theorem mem_replace {T : Table key} {r s : ρ} :
    s ∈ T.replace r ↔ (s ∈ T ∧ key s ≠ key r) ∨ (s = r ∧ ∃ r' ∈ T, key r' = key r) := by
  show s ∈ T.rows.map _ ↔ _
  rw [List.mem_map]
  constructor
  · rintro ⟨x, hx, rfl⟩
    by_cases h : key x = key r
    · rw [if_pos h]
      exact Or.inr ⟨rfl, x, hx, h⟩
    · rw [if_neg h]
      exact Or.inl ⟨hx, h⟩
  · rintro (⟨hs, h⟩ | ⟨rfl, x, hx, h⟩)
    · exact ⟨s, hs, if_neg h⟩
    · exact ⟨x, hx, if_pos h⟩

theorem find?_replace {T : Table key} {r : ρ} {k : κ} :
    (T.replace r).find? k =
      if key r = k then (T.find? k).map (fun _ => r) else T.find? k := by
  by_cases hk : key r = k
  · rw [if_pos hk]
    cases hT : T.find? k with
    | none =>
      rw [Option.map_none, find?_eq_none]
      intro s hs
      rcases mem_replace.mp hs with ⟨hs, _⟩ | ⟨rfl, x, hx, hxk⟩
      · exact find?_eq_none.mp hT s hs
      · exact absurd (hxk.trans hk) (find?_eq_none.mp hT x hx)
    | some x =>
      obtain ⟨hx, hxk⟩ := find?_eq_some.mp hT
      rw [Option.map_some, find?_eq_some]
      exact ⟨mem_replace.mpr (Or.inr ⟨rfl, x, hx, hxk.trans hk.symm⟩), hk⟩
  · rw [if_neg hk]
    refine find?_congr ?_
    intro s hs
    rw [mem_replace]
    constructor
    · rintro (⟨h, _⟩ | ⟨rfl, _⟩)
      · exact h
      · exact absurd hs hk
    · intro h
      exact Or.inl ⟨h, fun h' => hk (h'.symm.trans hs)⟩

/-- DELETE of the row of a key -/
def erase (T : Table key) (k : κ) : Table key := T.deleteWhere (fun r => decide (key r = k))

theorem mem_erase {T : Table key} {k : κ} {s : ρ} : s ∈ T.erase k ↔ s ∈ T ∧ key s ≠ k := by
  rw [erase, mem_deleteWhere, decide_eq_false_iff_not]

theorem find?_erase {T : Table key} {k k' : κ} :
    (T.erase k).find? k' = if k = k' then none else T.find? k' := by
  by_cases h : k = k'
  · rw [if_pos h, find?_eq_none]
    intro s hs hk
    exact (mem_erase.mp hs).2 (hk.trans h.symm)
  · rw [if_neg h]
    refine find?_congr ?_
    intro s hs
    rw [mem_erase]
    exact ⟨And.left, fun hm => ⟨hm, fun h' => h (h'.symm.trans hs)⟩⟩

theorem erase_of_none {T : Table key} {k : κ} (h : T.find? k = none) : T.erase k = T := by
  refine ext_rows ?_
  show T.rows.filter _ = _
  rw [List.filter_eq_self]
  intro r hr
  simpa using find?_eq_none.mp h r hr

end

/-- what a sorted query returns has no two rows of one key -/
theorem nodup_query (T : Table key) (p : ρ → Bool) (le : ρ → ρ → Prop) [DecidableRel le] :
    (((T.rows.filter p).insertionSort le).map key).Nodup := by
  rw [((List.perm_insertionSort le _).map key).nodup_iff]
  exact T.nodup.sublist (List.filter_sublist.map key)

/-! ## counting -/

/-- a key has one row or none -/
theorem countWhere_key [DecidableEq κ] {T : Table key} {k : κ} :
    T.countWhere (fun r => decide (key r = k)) = if T.find? k = none then 0 else 1 := by
  have hcount : T.countWhere (fun r => decide (key r = k)) = (T.rows.map key).count k := by
    rw [List.count, List.countP_map]
    rfl
  rw [hcount]
  split
  · next h =>
    rw [List.count_eq_zero, List.mem_map]
    rintro ⟨r, hr, hk⟩
    exact find?_eq_none.mp h r hr hk
  · next h =>
    obtain ⟨r, hr⟩ := Option.ne_none_iff_exists'.mp h
    obtain ⟨hr, hk⟩ := find?_eq_some.mp hr
    exact List.count_eq_one_of_mem T.nodup (List.mem_map.mpr ⟨r, hr, hk⟩)

end Table
