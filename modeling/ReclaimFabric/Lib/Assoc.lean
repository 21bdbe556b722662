import ReclaimFabric.Lib.Table

/-!
# Finite maps

A finite map is a table of pairs keyed by the first component.  The operations are those of a
hash map:

* `get`    the value of a key;
* `put`    an insertion that overwrites;
* `del`    the removal of a key;
* `keys`   the keys, each once.

A map is known by its lookups: `get_put`, `get_del` and `mem_keys` are all that is used of it.
-/

/-- pairs in which no key occurs twice -/
abbrev Assoc (κ ν : Type) := Table (Prod.fst : κ × ν → κ)

namespace Assoc

variable {κ ν : Type}

def empty : Assoc κ ν := Table.empty

def keys (m : Assoc κ ν) : List κ := m.rows.map Prod.fst

section
variable [DecidableEq κ]

def get (m : Assoc κ ν) (k : κ) : Option ν := (m.find? k).map Prod.snd

def put (m : Assoc κ ν) (k : κ) (v : ν) : Assoc κ ν :=
  match m.insert? (k, v) with
  | some m' => m'
  | none => m.replace (k, v)

def del (m : Assoc κ ν) (k : κ) : Assoc κ ν := m.erase k

theorem get_eq_some {m : Assoc κ ν} {k : κ} {v : ν} : m.get k = some v ↔ (k, v) ∈ m := by
  rw [get, Option.map_eq_some_iff]
  constructor
  · intro h
    obtain ⟨x, hx, hv⟩ := h
    obtain ⟨hm, hk⟩ := Table.find?_eq_some.mp hx
    have e : x = (k, v) := Prod.ext hk hv
    exact e ▸ hm
  · intro h
    exact ⟨(k, v), Table.find?_eq_some.mpr ⟨h, rfl⟩, rfl⟩

theorem get_put (m : Assoc κ ν) (k k' : κ) (v : ν) :
    (m.put k v).get k' = if k = k' then some v else m.get k' := by
  rw [get, put]
  cases hm : m.insert? (k, v) with
  | some m' =>
    show (m'.find? k').map Prod.snd = _
    rw [Table.find?_insert? hm]
    show (if k = k' then some (k, v) else m.find? k').map Prod.snd = _
    by_cases h : k = k'
    · rw [if_pos h, if_pos h]
      rfl
    · rw [if_neg h, if_neg h]
      rfl
  | none =>
    show ((m.replace (k, v)).find? k').map Prod.snd = _
    rw [Table.find?_replace]
    show (if k = k' then (m.find? k').map (fun _ => (k, v)) else m.find? k').map Prod.snd = _
    by_cases h : k = k'
    · -- the key was taken, so the lookup answers a row
      rw [if_pos h, if_pos h, ← h]
      cases hf : m.find? k with
      | none => exact absurd hf (Table.insert?_eq_none hm)
      | some x => rfl
    · rw [if_neg h, if_neg h]
      rfl

theorem get_del (m : Assoc κ ν) (k k' : κ) :
    (m.del k).get k' = if k = k' then none else m.get k' := by
  rw [get, del, Table.find?_erase]
  by_cases h : k = k'
  · rw [if_pos h, if_pos h]
    rfl
  · rw [if_neg h, if_neg h]
    rfl

theorem mem_keys {m : Assoc κ ν} {k : κ} : k ∈ m.keys ↔ ∃ v, m.get k = some v := by
  rw [keys, List.mem_map]
  constructor
  · intro h
    obtain ⟨x, hx, rfl⟩ := h
    exact ⟨x.2, get_eq_some.mpr hx⟩
  · intro h
    obtain ⟨v, hv⟩ := h
    exact ⟨(k, v), get_eq_some.mp hv, rfl⟩

end

end Assoc
