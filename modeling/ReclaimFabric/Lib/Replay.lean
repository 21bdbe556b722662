import ReclaimFabric.Lib.Table

/-!
# Replaying changes of a table

Two loops over a keyed table that may be stopped anywhere and started again.

* `restore`   rows are put back: one that is there has to agree with the expected one, one that is
              missing is inserted unless it clashes;
* `dropKeys`  the rows of some keys are removed;
* `query`     the rows that satisfy a condition, sorted.

`restore_again` and `dropKeys_again`: from a state in which a first part has been done, the whole
leads where it leads from the beginning.  `query_without`: when one row stops to satisfy the
condition, the query loses just that row.
-/

set_option linter.unusedSectionVars false

namespace Table

variable {κ ρ : Type} {key : ρ → κ} [DecidableEq κ]

/-! ## putting rows back -/

section
variable (ok clash : ρ → ρ → Bool) (valid : ρ → Bool)

/-- put the rows `xs` back; `none` when one of them cannot be -/
def restore : List ρ → Table key → Option (Table key)
  | [], T => some T
  | x :: xs, T =>
    match T.find? (key x) with
    | some y => if ok y x then restore xs T else none
    | none =>
      if T.rows.any (fun y => clash y x) || !valid x then none
      else (T.insert? x).bind (restore xs)

variable {ok clash valid} {xs ys : List ρ} {T T₁ T' : Table key}

theorem restore_found {x y : ρ} (h : T.find? (key x) = some y) :
    restore ok clash valid (x :: xs) T = if ok y x then restore ok clash valid xs T else none := by
  simp only [restore, h]

theorem restore_missing {x : ρ} (h : T.find? (key x) = none) :
    restore ok clash valid (x :: xs) T =
      if T.rows.any (fun y => clash y x) || !valid x then none
      else (T.insert? x).bind (restore ok clash valid xs) := by
  simp only [restore, h]

theorem restore_append :
    restore ok clash valid (xs ++ ys) T =
      (restore ok clash valid xs T).bind (restore ok clash valid ys) := by
  induction xs generalizing T with
  | nil => rfl
  | cons x xs ih =>
    simp only [List.cons_append, restore]
    split
    · split
      · exact ih
      · rfl
    · split
      · rfl
      · cases T.insert? x with
        | none => rfl
        | some T₁ => exact ih

/-- no row is lost -/
theorem restore_find? (h : restore ok clash valid xs T = some T') {k : κ} {y : ρ}
    (hy : T.find? k = some y) : T'.find? k = some y := by
  induction xs generalizing T with
  | nil =>
    cases h
    exact hy
  | cons x xs ih =>
    simp only [restore] at h
    split at h
    · split at h
      · exact ih h hy
      · cases h
    · next hnone =>
      split at h
      · cases h
      · obtain ⟨T₁, hT₁, h⟩ := Option.bind_eq_some_iff.mp h
        refine ih h ?_
        rw [find?_insert? hT₁, if_neg]
        · exact hy
        · rintro rfl
          rw [hnone] at hy
          cases hy

/-- afterwards every expected row is there -/
theorem restore_present (hrefl : ∀ x, ok x x = true) (h : restore ok clash valid xs T = some T') :
    ∀ x ∈ xs, ∃ y, T'.find? (key x) = some y ∧ ok y x = true := by
  induction xs generalizing T with
  | nil => exact nofun
  | cons x xs ih =>
    simp only [restore] at h
    intro z hz
    split at h
    · next y hy =>
      split at h
      · next hok =>
        rcases List.mem_cons.mp hz with rfl | hz
        · exact ⟨y, restore_find? h hy, hok⟩
        · exact ih h z hz
      · cases h
    · split at h
      · cases h
      · obtain ⟨T₁, hT₁, hrest⟩ := Option.bind_eq_some_iff.mp h
        rcases List.mem_cons.mp hz with rfl | hz
        · refine ⟨z, restore_find? hrest ?_, hrefl z⟩
          rw [find?_insert? hT₁, if_pos rfl]
        · exact ih hrest z hz

/-- when every expected row is there, nothing is done -/
theorem restore_of_present (h : ∀ x ∈ xs, ∃ y, T.find? (key x) = some y ∧ ok y x = true) :
    restore ok clash valid xs T = some T := by
  induction xs with
  | nil => rfl
  | cons x xs ih =>
    obtain ⟨y, hy, hok⟩ := h x List.mem_cons_self
    simp only [restore, hy]
    rw [if_pos hok]
    exact ih fun z hz => h z (List.mem_cons_of_mem _ hz)

/-- from a state in which a first part has been restored, the whole leads to the same table -/
theorem restore_again (hrefl : ∀ x, ok x x = true)
    (h : restore ok clash valid (xs ++ ys) T = some T')
    (h₁ : restore ok clash valid xs T = some T₁) :
    restore ok clash valid (xs ++ ys) T₁ = some T' := by
  rw [restore_append, h₁] at h
  rw [restore_append, restore_of_present (restore_present hrefl h₁)]
  exact h

end

/-! ## removing rows -/

/-- DELETE of the rows of some keys -/
def dropKeys (ks : List κ) (T : Table key) : Table key :=
  T.deleteWhere (fun r => decide (key r ∈ ks))

section
variable {ks ks₁ : List κ} {T : Table key} {k : κ}

theorem mem_dropKeys {r : ρ} : r ∈ T.dropKeys ks ↔ r ∈ T ∧ key r ∉ ks := by
  rw [dropKeys, mem_deleteWhere, decide_eq_false_iff_not]

theorem dropKeys_nil : T.dropKeys [] = T := by
  refine ext_rows ?_
  show T.rows.filter _ = _
  rw [List.filter_eq_self]
  intro r _
  simp

theorem dropKeys_cons : (T.erase k).dropKeys ks = T.dropKeys (k :: ks) := by
  refine ext_rows ?_
  show (T.rows.filter _).filter _ = T.rows.filter _
  rw [List.filter_filter]
  refine List.filter_congr ?_
  intro r _
  simp [Bool.and_comm]

/-- what holds of the rows that are found holds of those that are left -/
theorem all_dropKeys {same : ρ → ρ → Bool} {xs : List ρ}
    (h : xs.all (fun x => (T.find? (key x)).all (fun y => same y x)) = true) :
    xs.all (fun x => ((T.dropKeys ks).find? (key x)).all (fun y => same y x)) = true := by
  rw [List.all_eq_true] at h ⊢
  intro x hx
  have hsame := h x hx
  rw [Option.all_eq_true] at hsame ⊢
  intro y hy
  obtain ⟨hym, hk⟩ := find?_eq_some.mp hy
  exact hsame y (find?_eq_some.mpr ⟨(mem_dropKeys.mp hym).1, hk⟩)

/-- from a state in which some keys have been dropped, the whole leads to the same table -/
theorem dropKeys_again (h : ∀ k ∈ ks₁, k ∈ ks) : (T.dropKeys ks₁).dropKeys ks = T.dropKeys ks := by
  refine ext_rows ?_
  show (T.rows.filter _).filter _ = T.rows.filter _
  rw [List.filter_filter]
  refine List.filter_congr ?_
  intro r _
  by_cases hk : key r ∈ ks
  · simp [hk]
  · have : key r ∉ ks₁ := fun h₁ => hk (h _ h₁)
    simp [hk, this]

end

/-! ## sorted queries -/

section
variable (p : ρ → Bool) (le : ρ → ρ → Bool)

/-- SELECT … WHERE … ORDER BY -/
def query (T : Table key) : List ρ := (T.rows.filter p).insertionSort (fun a b => le a b = true)

variable {p le}

theorem mem_query {T : Table key} {r : ρ} : r ∈ T.query p le ↔ r ∈ T ∧ p r = true := by
  rw [query, List.mem_insertionSort, List.mem_filter]
  rfl

/-- a listing of the rows finds what the table finds -/
theorem find?_of_perm {T : Table key} {l : List ρ} (h : l.Perm T.rows) (k : κ) :
    l.find? (fun r => decide (key r = k)) = T.find? k := by
  have hl : (l.map key).Nodup := (h.map key).nodup_iff.mpr T.nodup
  exact find?_congr (S := ⟨l, hl⟩) fun r _ => h.mem_iff

theorem query_keys_nodup (T : Table key) : ((T.query p le).map key).Nodup :=
  T.nodup_query p (fun a b => le a b = true)

/-- when one row stops to satisfy the condition, the query loses just that row -/
theorem query_without (htotal : ∀ a b, le a b = true ∨ le b a = true)
    (htrans : ∀ a b c, le a b = true → le b c = true → le a c = true)
    (hanti : ∀ a b, le a b = true → le b a = true → key a = key b) {T T' : Table key} {k : κ}
    (h : ∀ r, (r ∈ T' ∧ p r = true) ↔ (r ∈ T ∧ p r = true) ∧ key r ≠ k) :
    T'.query p le = (T.query p le).filter (fun r => decide (key r ≠ k)) := by
  have : Std.Total (fun a b => le a b = true) := ⟨htotal⟩
  have : IsTrans ρ (fun a b => le a b = true) := ⟨htrans⟩
  refine @List.Perm.eq_of_pairwise _ (fun a b => le a b = true) _ _ ?_
    (List.pairwise_insertionSort _ _) ((List.pairwise_insertionSort _ _).filter _) ?_
  · intro a b ha hb hab hba
    have hb := (mem_query.mp (List.mem_of_mem_filter hb)).1
    have ha := (((h a).mp (mem_query.mp ha)).1).1
    exact eq_of_key ha hb (hanti a b hab hba)
  · refine (List.perm_ext_iff_of_nodup ?_ ?_).mpr ?_
    · exact List.Nodup.of_map key (query_keys_nodup T')
    · exact (List.Nodup.of_map key (query_keys_nodup T)).filter _
    · intro r
      rw [mem_query, List.mem_filter, mem_query, h, decide_eq_true_eq]

/-- the rows of a query after one of them has stopped to satisfy the condition -/
theorem query_drop (htotal : ∀ a b, le a b = true ∨ le b a = true)
    (htrans : ∀ a b c, le a b = true → le b c = true → le a c = true)
    (hanti : ∀ a b, le a b = true → le b a = true → key a = key b) {T T' : Table key} {x : ρ}
    {xs ys : List ρ} (hq : T.query p le = xs ++ x :: ys)
    (h : ∀ r, (r ∈ T' ∧ p r = true) ↔ (r ∈ T ∧ p r = true) ∧ key r ≠ key x) :
    T'.query p le = xs ++ ys := by
  have hnd : ((xs ++ x :: ys).map key).Nodup := by
    rw [← hq]
    exact query_keys_nodup T
  rw [List.map_append, List.map_cons, List.nodup_middle, List.nodup_cons, List.mem_append] at hnd
  rw [query_without htotal htrans hanti h, hq, List.filter_append, List.filter_cons,
    if_neg (by simp)]
  refine congrArg₂ (· ++ ·) (List.filter_eq_self.mpr ?_) (List.filter_eq_self.mpr ?_)
  · intro r hr
    rw [decide_eq_true_eq]
    intro hk
    exact hnd.1 (.inl (hk ▸ List.mem_map_of_mem hr))
  · intro r hr
    rw [decide_eq_true_eq]
    intro hk
    exact hnd.1 (.inr (hk ▸ List.mem_map_of_mem hr))

end

/-! ## tables that agree up to a function of their rows -/

/-- the rows agree up to `f` -/
def Alike (f : ρ → ρ) (S T : Table key) : Prop := S.rows.map f = T.rows.map f

namespace Alike

variable {f g g' : ρ → ρ} {S T : Table key} {p : ρ → Bool}

theorem refl : Alike f T T := rfl

theorem trans {U : Table key} (h : Alike f S T) (h' : Alike f T U) : Alike f S U := Eq.trans h h'

theorem find? (hf : ∀ r, key (f r) = key r) (h : Alike f S T) (k : κ) :
    (S.find? k).map f = (T.find? k).map f := by
  have hmap (U : Table key) : (U.find? k).map f =
      (U.rows.map f).find? (fun r => decide (key r = k)) := by
    rw [List.find?_map]
    refine congrArg (Option.map f) (congrArg (fun q => U.rows.find? q) ?_)
    funext r
    exact congrArg (fun x => decide (x = k)) (hf r).symm
  rw [hmap, hmap, h]

/-- a row that `f` leaves alone, and that no other row becomes -/
theorem find?_eq {k : κ} {r : ρ} (hf : ∀ r, key (f r) = key r)
    (hfix : ∀ x, f x = f r → x = r) (h : Alike f S T) (hr : S.find? k = some r) :
    T.find? k = some r := by
  have hk := h.find? hf k
  rw [hr] at hk
  obtain ⟨x, hx, hfx⟩ := Option.map_eq_some_iff.mp hk.symm
  rw [hx, hfix x hfx]

theorem replace (hf : ∀ r, key (f r) = key r) {r r' : ρ} (hr : f r = f r') (h : Alike f S T) :
    Alike f (S.replace r) (T.replace r') := by
  have hkey : key r = key r' := by rw [← hf r, hr, hf]
  have hmap (U : Table key) (x : ρ) : (U.replace x).rows.map f =
      (U.rows.map f).map fun y => if key y = key x then f x else y := by
    show (U.rows.map _).map f = _
    rw [List.map_map, List.map_map]
    refine List.map_congr_left ?_
    intro y _
    simp only [Function.comp, hf]
    split
    · rfl
    · rfl
  show (S.replace r).rows.map f = (T.replace r').rows.map f
  rw [hmap, hmap, h, hr, hkey]

/-- a query for rows that `f` leaves alone -/
theorem query {le : ρ → ρ → Bool} (hp : ∀ r, p (f r) = p r) (hfix : ∀ r, p r = true → f r = r)
    (h : Alike f S T) : S.query p le = T.query p le := by
  have hmap (U : Table key) : U.rows.filter p = (U.rows.map f).filter p := by
    rw [List.filter_map]
    have hpf : p ∘ f = p := funext hp
    rw [hpf]
    refine (List.map_id _).symm.trans (List.map_congr_left ?_)
    intro r hr
    exact (hfix r (List.mem_filter.mp hr).2).symm
  rw [Table.query, Table.query, hmap, hmap, h]

end Alike

end Table
