import Mathlib.Algebra.Order.Ring.Int
import Mathlib.Data.List.Sort
import Mathlib.Data.List.Dedup
import Mathlib.Logic.Relation

/-!
# Breadth-first search with a stop condition

`search succ bad n q seen` pops the queue `q`, marks and enqueues the successors that are not
marked yet, and stops with the first one that is `bad`.  The number `n` bounds the pops.

`search_ok` : a search that ends without a bad node, started with enough pops, has marked a set
that is closed under `succ` and holds no bad node outside the starting one; so nothing bad is
reachable (`search_ok_reach`).
`search_error` : the node it stops with is bad and reachable.
`search?` : the same search, telling when the pops run out; with enough of them it is `search`.
`walk` : the search that looks at a node when it is popped, not when it is marked.
`transGen_insert` : what one more edge adds to the reachable pairs.

"Enough pops" is `q.length + unseen`, where `unseen` counts the nodes of a finite universe
that are not marked; every pop gives up one of the two.
-/

namespace Search

variable {α : Type} [DecidableEq α]

/-- mark and enqueue the successors of one node, stopping at a bad one -/
def visit (bad : α → Bool) : List α → List α → List α → Except α (List α × List α)
  | [], q, seen => .ok (q, seen)
  | x :: xs, q, seen =>
    if x ∈ seen then visit bad xs q seen
    else if bad x then .error x
    else visit bad xs (q ++ [x]) (x :: seen)

def search (succ : α → List α) (bad : α → Bool) : Nat → List α → List α → Except α (List α)
  | 0, _, seen => .ok seen
  | _ + 1, [], seen => .ok seen
  | n + 1, x :: q, seen =>
    match visit bad (succ x) q seen with
    | .error y => .error y
    | .ok (q', seen') => search succ bad n q' seen'

/-- the nodes of the universe that are not marked -/
def unseen (U seen : List α) : Nat := (U.dedup.filter (fun x => decide (x ∉ seen))).length

theorem unseen_cons {U seen : List α} {x : α} (hx : x ∈ U) (hn : x ∉ seen) :
    unseen U (x :: seen) + 1 = unseen U seen := by
  have hd : (U.dedup.filter (fun y => decide (y ∉ seen))).Nodup := (List.nodup_dedup U).filter _
  have hmem : x ∈ U.dedup.filter (fun y => decide (y ∉ seen)) := by
    rw [List.mem_filter, List.mem_dedup]
    exact ⟨hx, by simp [hn]⟩
  have hfil : U.dedup.filter (fun y => decide (y ∉ x :: seen)) =
      (U.dedup.filter (fun y => decide (y ∉ seen))).erase x := by
    rw [hd.erase_eq_filter, List.filter_filter]
    congr 1
    funext y
    by_cases h : y = x <;> simp [h]
  rw [unseen, hfil, List.length_erase_of_mem hmem, unseen]
  have := List.length_pos_of_mem hmem
  omega

/-! ## one node -/

/-- what a visit that does not stop leaves behind -/
structure Visited (bad : α → Bool) (xs q seen q' seen' : List α) (U : List α) : Prop where
  mono : ∀ x ∈ seen, x ∈ seen'
  all : ∀ x ∈ xs, x ∈ seen'
  queue : ∀ x ∈ q, x ∈ q'
  fresh : ∀ x ∈ seen', x ∈ seen ∨ (x ∈ q' ∧ x ∈ xs ∧ bad x = false)
  bound : q'.length + unseen U seen' = q.length + unseen U seen

theorem visit_ok {bad : α → Bool} {U : List α} (xs : List α) {q seen q' seen' : List α}
    (hU : ∀ x ∈ xs, x ∈ U) (h : visit bad xs q seen = .ok (q', seen')) :
    Visited bad xs q seen q' seen' U := by
  induction xs generalizing q seen with
  | nil =>
    cases h
    exact ⟨fun _ h => h, fun _ h => absurd h List.not_mem_nil, fun _ h => h,
      fun _ h => Or.inl h, rfl⟩
  | cons x xs ih =>
    have hU' : ∀ y ∈ xs, y ∈ U := fun y hy => hU y (List.mem_cons_of_mem _ hy)
    unfold visit at h
    split at h
    · next hs =>
      have V := ih hU' h
      refine ⟨V.mono, ?_, V.queue, ?_, V.bound⟩
      · intro y hy
        rcases List.mem_cons.mp hy with rfl | hy
        · exact V.mono _ hs
        · exact V.all y hy
      · intro y hy
        rcases V.fresh y hy with h | ⟨h₁, h₂, h₃⟩
        · exact Or.inl h
        · exact Or.inr ⟨h₁, List.mem_cons_of_mem _ h₂, h₃⟩
    · next hs =>
      split at h
      · cases h
      · next hb =>
        have V := ih hU' h
        refine ⟨?_, ?_, ?_, ?_, ?_⟩
        · intro y hy
          exact V.mono y (List.mem_cons_of_mem _ hy)
        · intro y hy
          rcases List.mem_cons.mp hy with rfl | hy
          · exact V.mono _ List.mem_cons_self
          · exact V.all y hy
        · intro y hy
          exact V.queue y (List.mem_append_left _ hy)
        · intro y hy
          rcases V.fresh y hy with h | ⟨h₁, h₂, h₃⟩
          · rcases List.mem_cons.mp h with rfl | h
            · refine Or.inr ⟨V.queue _ ?_, List.mem_cons_self, by simpa using hb⟩
              exact List.mem_append_right _ (List.mem_singleton_self _)
            · exact Or.inl h
          · exact Or.inr ⟨h₁, List.mem_cons_of_mem _ h₂, h₃⟩
        · have hu := unseen_cons (hU x List.mem_cons_self) hs
          have hb' := V.bound
          rw [List.length_append, List.length_singleton] at hb'
          omega

theorem visit_error {bad : α → Bool} (xs : List α) {q seen : List α} {y : α}
    (h : visit bad xs q seen = .error y) : bad y = true ∧ y ∈ xs ∧ y ∉ seen := by
  induction xs generalizing q seen with
  | nil => cases h
  | cons x xs ih =>
    unfold visit at h
    split at h
    · obtain ⟨h₁, h₂, h₃⟩ := ih h
      exact ⟨h₁, List.mem_cons_of_mem _ h₂, h₃⟩
    · next hs =>
      split at h
      · next hb =>
        cases h
        exact ⟨hb, List.mem_cons_self, hs⟩
      · obtain ⟨h₁, h₂, h₃⟩ := ih h
        exact ⟨h₁, List.mem_cons_of_mem _ h₂, fun hy => h₃ (List.mem_cons_of_mem _ hy)⟩

theorem visit_queue {bad : α → Bool} (xs : List α) {q seen q' seen' : List α}
    (h : visit bad xs q seen = .ok (q', seen')) : ∀ u ∈ q', u ∈ q ∨ u ∈ xs := by
  induction xs generalizing q seen with
  | nil =>
    cases h
    exact fun _ h => Or.inl h
  | cons x xs ih =>
    intro u hu
    unfold visit at h
    split at h
    · exact (ih h u hu).imp id (List.mem_cons_of_mem _)
    · split at h
      · cases h
      · rcases ih h u hu with hq | hx
        · rcases List.mem_append.mp hq with hq | hq
          · exact Or.inl hq
          · exact Or.inr (List.mem_singleton.mp hq ▸ List.mem_cons_self)
        · exact Or.inr (List.mem_cons_of_mem _ hx)

/-! ## the whole search -/

theorem search_ok {succ : α → List α} {bad : α → Bool} {U : List α}
    (hU : ∀ x, ∀ y ∈ succ x, y ∈ U) (n : Nat) {q seen s : List α}
    (hn : q.length + unseen U seen ≤ n)
    (hinv : ∀ x ∈ seen, x ∈ q ∨ ∀ y ∈ succ x, y ∈ seen)
    (h : search succ bad n q seen = .ok s) :
    (∀ x ∈ seen, x ∈ s) ∧ (∀ x ∈ s, ∀ y ∈ succ x, y ∈ s) ∧
      (∀ x ∈ s, x ∈ seen ∨ bad x = false) := by
  induction n generalizing q seen with
  | zero =>
    -- no pop left: the bound says that the queue is empty
    have hq : q = [] := List.eq_nil_of_length_eq_zero (by omega)
    subst hq
    cases h
    refine ⟨fun _ h => h, ?_, fun _ h => Or.inl h⟩
    intro x hx
    exact (hinv x hx).resolve_left List.not_mem_nil
  | succ n ih =>
    cases q with
    | nil =>
      cases h
      refine ⟨fun _ h => h, ?_, fun _ h => Or.inl h⟩
      intro x hx
      exact (hinv x hx).resolve_left List.not_mem_nil
    | cons x q =>
      rw [search] at h
      cases hv : visit bad (succ x) q seen with
      | error y =>
        rw [hv] at h
        cases h
      | ok p =>
        obtain ⟨q', seen'⟩ := p
        rw [hv] at h
        have V := visit_ok (U := U) (succ x) (fun y hy => hU x y hy) hv
        have hn' : q'.length + unseen U seen' ≤ n := by
          have := V.bound
          rw [List.length_cons] at hn
          omega
        have hinv' : ∀ z ∈ seen', z ∈ q' ∨ ∀ y ∈ succ z, y ∈ seen' := by
          intro z hz
          rcases V.fresh z hz with hz | ⟨hz, _, _⟩
          · rcases hinv z hz with hz | hz
            · rcases List.mem_cons.mp hz with rfl | hz
              · exact Or.inr V.all
              · exact Or.inl (V.queue z hz)
            · exact Or.inr fun y hy => V.mono y (hz y hy)
          · exact Or.inl hz
        obtain ⟨h₁, h₂, h₃⟩ := ih hn' hinv' h
        refine ⟨fun z hz => h₁ z (V.mono z hz), h₂, ?_⟩
        intro z hz
        rcases h₃ z hz with hz | hz
        · rcases V.fresh z hz with hz | ⟨_, _, hb⟩
          · exact Or.inl hz
          · exact Or.inr hb
        · exact Or.inr hz

/-- a search from `x` that finds nothing: nothing bad can be reached -/
theorem search_ok_reach {succ : α → List α} {bad : α → Bool} {U : List α}
    (hU : ∀ x, ∀ y ∈ succ x, y ∈ U) {n : Nat} {x : α} {s : List α}
    (hn : 1 + unseen U [x] ≤ n) (h : search succ bad n [x] [x] = .ok s) {y : α}
    (hy : Relation.ReflTransGen (fun a b => b ∈ succ a) x y) : y = x ∨ bad y = false := by
  have hinv : ∀ z ∈ [x], z ∈ [x] ∨ ∀ y ∈ succ z, y ∈ [x] := fun z hz => Or.inl hz
  obtain ⟨h₁, h₂, h₃⟩ := search_ok hU n (by simpa using hn) hinv h
  have hmem : y ∈ s := by
    induction hy with
    | refl => exact h₁ x (List.mem_singleton_self x)
    | tail _ hstep ih => exact h₂ _ ih _ hstep
  rcases h₃ y hmem with h | h
  · exact Or.inl (List.mem_singleton.mp h)
  · exact Or.inr h

theorem search_error {succ : α → List α} {bad : α → Bool} (n : Nat) {x : α}
    {q seen : List α} {y : α}
    (hreach : ∀ z ∈ q, Relation.ReflTransGen (fun a b => b ∈ succ a) x z)
    (h : search succ bad n q seen = .error y) :
    bad y = true ∧ y ∉ seen ∧ Relation.TransGen (fun a b => b ∈ succ a) x y := by
  induction n generalizing q seen with
  | zero => cases h
  | succ n ih =>
    cases q with
    | nil => cases h
    | cons z q =>
      rw [search] at h
      have hz : Relation.ReflTransGen (fun a b => b ∈ succ a) x z := hreach z List.mem_cons_self
      cases hv : visit bad (succ z) q seen with
      | error y' =>
        rw [hv] at h
        cases h
        obtain ⟨h₁, h₂, h₃⟩ := visit_error (succ z) hv
        exact ⟨h₁, h₃, Relation.TransGen.tail' hz h₂⟩
      | ok p =>
        obtain ⟨q', seen'⟩ := p
        rw [hv] at h
        have V := visit_ok (U := succ z) (succ z) (fun _ hy => hy) hv
        have hq' : ∀ u ∈ q', u ∈ q ∨ u ∈ succ z := visit_queue (succ z) hv
        obtain ⟨h₁, h₂, h₃⟩ := ih (fun u hu => by
          rcases hq' u hu with hu | hu
          · exact hreach u (List.mem_cons_of_mem _ hu)
          · exact hz.tail hu) h
        exact ⟨h₁, fun hy => h₂ (V.mono y hy), h₃⟩

/-- the search that tells when the pops run out -/
def search? (succ : α → List α) (bad : α → Bool) :
    Nat → List α → List α → Option (Except α (List α))
  | _, [], seen => some (.ok seen)
  | 0, _ :: _, _ => none
  | n + 1, x :: q, seen =>
    match visit bad (succ x) q seen with
    | .error y => some (.error y)
    | .ok (q', seen') => search? succ bad n q' seen'

/-- with enough pops the search ends -/
theorem search?_eq {succ : α → List α} {bad : α → Bool} {U : List α}
    (hU : ∀ x, ∀ y ∈ succ x, y ∈ U) (n : Nat) {q seen : List α}
    (hn : q.length + unseen U seen ≤ n) :
    search? succ bad n q seen = some (search succ bad n q seen) := by
  induction n generalizing q seen with
  | zero =>
    have hq : q = [] := List.eq_nil_of_length_eq_zero (by omega)
    subst hq
    rfl
  | succ n ih =>
    cases q with
    | nil => rfl
    | cons x q =>
      rw [search?, search]
      cases hv : visit bad (succ x) q seen with
      | error y => rfl
      | ok p =>
        obtain ⟨q', seen'⟩ := p
        have V := visit_ok (U := U) (succ x) (fun y hy => hU x y hy) hv
        have hb := V.bound
        rw [List.length_cons] at hn
        exact ih (by omega)

/-- a search that has ended gives the same answer with more pops -/
theorem search?_mono {succ : α → List α} {bad : α → Bool} {n m : Nat} {q seen : List α}
    {r : Except α (List α)} (h : search? succ bad n q seen = some r) (hm : n ≤ m) :
    search? succ bad m q seen = some r := by
  induction n generalizing m q seen with
  | zero =>
    cases q with
    | nil =>
      cases m with
      | zero => exact h
      | succ m => exact h
    | cons x q => cases h
  | succ n ih =>
    cases m with
    | zero => exact absurd hm (Nat.not_succ_le_zero n)
    | succ m =>
      cases q with
      | nil => exact h
      | cons x q =>
        rw [search?] at h ⊢
        cases hv : visit bad (succ x) q seen with
        | error y =>
          rw [hv] at h
          exact h
        | ok p =>
          rw [hv] at h
          exact ih h (Nat.le_of_succ_le_succ hm)

/-! ## looking at a node when it is popped -/

/-- mark and enqueue the successors of one node -/
def mark : List α → List α → List α → List α × List α
  | [], q, seen => (q, seen)
  | x :: xs, q, seen => if x ∈ seen then mark xs q seen else mark xs (q ++ [x]) (x :: seen)

theorem visit_mark (xs : List α) (q seen : List α) :
    visit (fun _ => false) xs q seen = .ok (mark xs q seen) := by
  induction xs generalizing q seen with
  | nil => rfl
  | cons x xs ih =>
    rw [visit, mark]
    split
    · exact ih q seen
    · exact ih (q ++ [x]) (x :: seen)

/-- is a goal popped; `none` when the pops run out -/
def walk (succ : α → List α) (goal : α → Bool) : Nat → List α → List α → Option Bool
  | _, [], _ => some false
  | 0, _ :: _, _ => none
  | n + 1, x :: q, seen =>
    if goal x then some true
    else
      let s := mark (succ x) q seen
      walk succ goal n s.1 s.2

/-- a walk with enough pops ends, and it finds the goals its queue leads to -/
theorem walk_queue {succ : α → List α} {goal : α → Bool} {U : List α}
    (hU : ∀ x, ∀ y ∈ succ x, y ∈ U) (n : Nat) {q seen : List α}
    (hn : q.length + unseen U seen ≤ n) (hq : ∀ x ∈ q, x ∈ seen)
    (hinv : ∀ x ∈ seen, x ∈ q ∨ goal x = false ∧ ∀ y ∈ succ x, y ∈ seen) :
    ∃ b, walk succ goal n q seen = some b ∧ (b = true ↔ ∃ x ∈ q, ∃ y, goal y = true ∧
      Relation.ReflTransGen (fun a b => b ∈ succ a) x y) := by
  induction n generalizing q seen with
  | zero =>
    have hnil : q = [] := List.eq_nil_of_length_eq_zero (by omega)
    subst hnil
    exact ⟨false, rfl, by simp⟩
  | succ n ih =>
    cases q with
    | nil => exact ⟨false, rfl, by simp⟩
    | cons x q =>
      rw [walk]
      by_cases hg : goal x = true
      · rw [if_pos hg]
        exact ⟨true, rfl, by simpa using .inl ⟨x, hg, .refl⟩⟩
      · rw [if_neg hg]
        have hg' : goal x = false := by simpa using hg
        have hv := visit_mark (succ x) q seen
        show ∃ b, walk succ goal n (mark (succ x) q seen).1 (mark (succ x) q seen).2 = some b ∧ _
        generalize mark (succ x) q seen = s at hv ⊢
        obtain ⟨q', seen'⟩ := s
        have V := visit_ok (U := U) (succ x) (fun y hy => hU x y hy) hv
        have hn' : q'.length + unseen U seen' ≤ n := by
          have := V.bound
          rw [List.length_cons] at hn
          omega
        have hq' : ∀ z ∈ q', z ∈ seen' := by
          intro z hz
          rcases visit_queue (succ x) hv z hz with hz | hz
          · exact V.mono z (hq z (List.mem_cons_of_mem _ hz))
          · exact V.all z hz
        have hinv' : ∀ z ∈ seen', z ∈ q' ∨ goal z = false ∧ ∀ y ∈ succ z, y ∈ seen' := by
          intro z hz
          rcases V.fresh z hz with hz | ⟨hz, _, _⟩
          · rcases hinv z hz with hz | ⟨hz, hs⟩
            · rcases List.mem_cons.mp hz with rfl | hz
              · exact .inr ⟨hg', V.all⟩
              · exact .inl (V.queue z hz)
            · exact .inr ⟨hz, fun y hy => V.mono y (hs y hy)⟩
          · exact .inl hz
        obtain ⟨b, hb, hiff⟩ := ih hn' hq' hinv'
        refine ⟨b, hb, hiff.trans ⟨?_, ?_⟩⟩
        · rintro ⟨z, hz, y, hy, hzy⟩
          rcases visit_queue (succ x) hv z hz with hz | hz
          · exact ⟨z, List.mem_cons_of_mem _ hz, y, hy, hzy⟩
          · exact ⟨x, List.mem_cons_self, y, hy, hzy.head hz⟩
        · rintro ⟨z, hz, y, hy, hzy⟩
          -- the marked nodes that are not queued have only marked successors and are no goals,
          -- so the path has to pass through the new queue
          have hpass : ∀ a, Relation.ReflTransGen (fun a b => b ∈ succ a) a y → a ∈ seen' →
              ∃ z ∈ q', Relation.ReflTransGen (fun a b => b ∈ succ a) z y := by
            intro a ha
            induction ha using Relation.ReflTransGen.head_induction_on with
            | refl =>
              intro hs
              rcases hinv' y hs with hs | ⟨hno, _⟩
              · exact ⟨y, hs, .refl⟩
              · rw [hy] at hno
                cases hno
            | @head a c hac hcy ih' =>
              intro hs
              rcases hinv' a hs with hs | ⟨_, hs⟩
              · exact ⟨a, hs, .head hac hcy⟩
              · exact ih' (hs c hac)
          obtain ⟨u, hu, huy⟩ := hpass z hzy (V.mono z (hq z hz))
          exact ⟨u, hu, y, hy, huy⟩

/-- **A walk with enough pops decides reachability.** -/
theorem walk_reach {succ : α → List α} {goal : α → Bool} {U : List α}
    (hU : ∀ x, ∀ y ∈ succ x, y ∈ U) {n : Nat} {x : α} (hn : 1 + unseen U [x] ≤ n) :
    ∃ b, walk succ goal n [x] [x] = some b ∧ (b = true ↔ ∃ y, goal y = true ∧
      Relation.ReflTransGen (fun a b => b ∈ succ a) x y) := by
  have hn' : [x].length + unseen U [x] ≤ n := hn
  have hinv : ∀ z ∈ [x], z ∈ [x] ∨ goal z = false ∧ ∀ y ∈ succ z, y ∈ [x] :=
    fun z hz => .inl hz
  obtain ⟨b, hb, hiff⟩ := walk_queue hU n hn' (fun _ h => h) hinv
  refine ⟨b, hb, hiff.trans ⟨?_, ?_⟩⟩
  · rintro ⟨z, hz, h⟩
    rw [List.mem_singleton.mp hz] at h
    exact h
  · exact fun h => ⟨x, List.mem_singleton_self x, h⟩

/-! ## paths of a relation with one more edge -/

/-- a path that uses a new edge reaches its source and leaves from its target -/
theorem transGen_insert {α : Type} {R R' : α → α → Prop} {p c x z : α}
    (hR : ∀ a b, R' a b → R a b ∨ (a = p ∧ b = c)) (h : Relation.TransGen R' x z) :
    Relation.TransGen R x z ∨
      (x = p ∨ Relation.TransGen R x p) ∧ (c = z ∨ Relation.TransGen R c z) := by
  induction h with
  | single h =>
    rcases hR _ _ h with h | ⟨rfl, rfl⟩
    · exact .inl (.single h)
    · exact .inr ⟨.inl rfl, .inl rfl⟩
  | tail _ h ih =>
    rcases ih with ih | ⟨hp, hc⟩
    · rcases hR _ _ h with h | ⟨rfl, rfl⟩
      · exact .inl (ih.tail h)
      · exact .inr ⟨.inr ih, .inl rfl⟩
    · refine .inr ⟨hp, ?_⟩
      rcases hR _ _ h with h | ⟨rfl, rfl⟩
      · rcases hc with rfl | hc
        · exact .inr (.single h)
        · exact .inr (hc.tail h)
      · exact .inl rfl

end Search
