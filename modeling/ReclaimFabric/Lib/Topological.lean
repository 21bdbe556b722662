import Mathlib.Algebra.Order.Ring.Int
import Mathlib.Data.Fintype.Card
import Mathlib.Data.Set.Finite.Basic
import Mathlib.Logic.Relation
import Mathlib.Order.WellFounded
import ReclaimFabric.Lib.Search

/-!
# Kahn's algorithm

A graph is a list of nodes and a list of successors for every node, with repetitions: several
edges may join the same two nodes.  `run` pops a queue, counts the node, and gives up the edges
that leave it; a node is queued when its last incoming edge is given up.

* `Acyclic`   no node is reached from itself; what one more edge may close (`insert_iff`);
* `Halt`      how a loop ends: with a value, with a panic, or not within the pops it was given;
* `drop`      the edges of one node; a missing or exhausted counter is a panic;
* `Counted`   the counters are the numbers of edges not given up yet, and the nodes that are done
              or queued are those whose counter is zero;
* `run_halts` a run that starts counted neither panics nor runs out of pops, and it visits every
              node if and only if the graph has no cycle.
-/

/-- how a loop with a bounded number of rounds ends -/
inductive Halt (α : Type) where
  | done (a : α)
  | panicked
  | unfinished

namespace Kahn

/-- no node is reached from itself -/
def Acyclic {α : Type} (R : α → α → Prop) : Prop := ∀ x, ¬Relation.TransGen R x x

theorem Acyclic.mono {α : Type} {R R' : α → α → Prop} (h : Acyclic R)
    (hR : ∀ a b, R' a b → R a b) : Acyclic R' :=
  fun x hx => h x (Relation.TransGen.mono hR x x hx)

/-- in a finite set without a cycle some element has no predecessor in the set -/
theorem Acyclic.exists_source {α : Type} {R : α → α → Prop} (h : Acyclic R) {l : List α}
    (hne : l ≠ []) : ∃ x ∈ l, ∀ y ∈ l, ¬R y x := by
  have hirr : Std.Irrefl fun a b : { x // x ∈ l } => Relation.TransGen R a.1 b.1 :=
    ⟨fun a => h a.1⟩
  have htrans : IsTrans { x // x ∈ l } fun a b => Relation.TransGen R a.1 b.1 :=
    ⟨fun _ _ _ hab hbc => hab.trans hbc⟩
  have hfin : Finite { x // x ∈ l } := (List.finite_toSet l).to_subtype
  have hwf := Finite.wellFounded_of_trans_of_irrefl
    fun a b : { x // x ∈ l } => Relation.TransGen R a.1 b.1
  obtain ⟨y, hy⟩ := List.exists_mem_of_ne_nil l hne
  obtain ⟨x, -, hx⟩ := hwf.has_min Set.univ ⟨⟨y, hy⟩, trivial⟩
  exact ⟨x.1, x.2, fun z hz hzx => hx ⟨z, hz⟩ trivial (.single hzx)⟩

/-- one more edge closes a cycle exactly when its target reaches its source -/
theorem Acyclic.insert_iff {α : Type} {R R' : α → α → Prop} {p c : α} (h : Acyclic R)
    (hR : ∀ a b, R' a b ↔ R a b ∨ (a = p ∧ b = c)) :
    Acyclic R' ↔ ¬Relation.ReflTransGen R c p := by
  have hsub : ∀ a b, R a b → R' a b := fun a b hab => (hR a b).mpr (.inl hab)
  constructor
  · intro h' hcp
    refine h' p (.head' ((hR p c).mpr (.inr ⟨rfl, rfl⟩)) ?_)
    exact Relation.ReflTransGen.mono hsub c p hcp
  · intro hno x hx
    rcases Search.transGen_insert (fun a b => (hR a b).mp) hx with hx | ⟨hxp, hcx⟩
    · exact h x hx
    · have hcx : Relation.ReflTransGen R c x :=
        hcx.elim (fun e => e ▸ .refl) fun hcx => hcx.to_reflTransGen
      have hxp : Relation.ReflTransGen R x p :=
        hxp.elim (fun e => e ▸ .refl) fun hxp => hxp.to_reflTransGen
      exact hno (hcx.trans hxp)

variable {α : Type} [DecidableEq α]

/-- give up the edges to the listed nodes, queueing a node with its last one -/
def drop : List α → (α → Option Nat) → List α → Option ((α → Option Nat) × List α)
  | [], deg, q => some (deg, q)
  | y :: ys, deg, q =>
    match deg y with
    | none => none
    | some 0 => none
    | some (d + 1) =>
      drop ys (fun z => if z = y then some d else deg z) (if d = 0 then q ++ [y] else q)

/-- how many nodes a topological order visits, within a number of pops -/
def run (succ : α → List α) : Nat → (α → Option Nat) → List α → Nat → Halt Nat
  | _, _, [], visited => .done visited
  | 0, _, _ :: _, _ => .unfinished
  | n + 1, deg, x :: q, visited =>
    match drop (succ x) deg q with
    | none => .panicked
    | some (deg', q') => run succ n deg' q' (visited + 1)

/-- a run that has ended gives the same answer with more pops -/
theorem run_mono {succ : α → List α} {n m k visited : Nat} {deg : α → Option Nat} {q : List α}
    (h : run succ n deg q visited = .done k) (hm : n ≤ m) : run succ m deg q visited = .done k := by
  induction n generalizing m deg q visited with
  | zero =>
    cases q with
    | nil =>
      cases m with
      | zero => exact h
      | succ m => exact h
    | cons x q => cases h
  | succ n ih =>
    cases m with
    | zero => exact absurd hm (Nat.not_succ_le_zero n)
    | succ m =>
      cases q with
      | nil => exact h
      | cons x q =>
        rw [run] at h ⊢
        cases hd : drop (succ x) deg q with
        | none =>
          rw [hd] at h
          cases h
        | some s =>
          rw [hd] at h
          exact ih h (Nat.le_of_succ_le_succ hm)

/-! ## the invariant -/

/-- `pending` are the targets of the edges that have not been given up -/
structure Counted (nodes : List α) (deg : α → Option Nat) (done q pending : List α) : Prop where
  deg : ∀ y ∈ nodes, deg y = some (pending.count y)
  inside : ∀ y ∈ pending, y ∈ nodes
  nodup : (done ++ q).Nodup
  free : ∀ y, y ∈ done ++ q ↔ y ∈ nodes ∧ y ∉ pending

section
variable {nodes : List α} {deg deg' : α → Option Nat} {done q q' pending pending' : List α}

theorem Counted.perm (h : Counted nodes deg done q pending) (hp : pending.Perm pending') :
    Counted nodes deg done q pending' where
  deg := fun y hy => (h.deg y hy).trans (by rw [hp.count_eq])
  inside := fun y hy => h.inside y (hp.mem_iff.mpr hy)
  nodup := h.nodup
  free := fun y => by rw [h.free y, hp.mem_iff]

/-- the edges of one node are given up without a panic -/
theorem Counted.drop {ys : List α} (h : Counted nodes deg done q (ys ++ pending)) :
    ∃ deg' q', Kahn.drop ys deg q = some (deg', q') ∧ Counted nodes deg' done q' pending := by
  induction ys generalizing deg q with
  | nil => exact ⟨deg, q, rfl, h⟩
  | cons y ys ih =>
    have hy : y ∈ nodes := h.inside y List.mem_cons_self
    have hd : deg y = some ((ys ++ pending).count y + 1) := by
      rw [h.deg y hy, List.cons_append, List.count_cons_self]
    have hnew : y ∉ done ++ q := fun hm => ((h.free y).mp hm).2 List.mem_cons_self
    rw [Kahn.drop, hd]
    refine ih ⟨?_, fun z hz => h.inside z (List.mem_cons_of_mem _ hz), ?_, ?_⟩
    · intro z hz
      by_cases hzy : z = y
      · rw [if_pos hzy, hzy]
      · rw [if_neg hzy, h.deg z hz, List.cons_append, List.count_cons_of_ne (Ne.symm hzy)]
    · -- a node is queued once: it was neither done nor queued while an edge was left
      split
      · rw [← List.append_assoc, List.nodup_append]
        refine ⟨h.nodup, List.nodup_singleton y, ?_⟩
        intro a ha b hb hab
        rw [List.mem_singleton.mp hb] at hab
        exact hnew (hab ▸ ha)
      · exact h.nodup
    · intro z
      have hz := h.free z
      rw [List.cons_append, List.mem_cons, not_or] at hz
      split
      · next hzero =>
        rw [← List.append_assoc, List.mem_append, List.mem_singleton, hz]
        constructor
        · rintro (⟨hn, -, hp⟩ | rfl)
          · exact ⟨hn, hp⟩
          · exact ⟨hy, List.count_eq_zero.mp hzero⟩
        · rintro ⟨hn, hp⟩
          by_cases hzy : z = y
          · exact .inr hzy
          · exact .inl ⟨hn, hzy, hp⟩
      · next hleft =>
        rw [hz]
        constructor
        · exact fun ⟨hn, _, hp⟩ => ⟨hn, hp⟩
        · rintro ⟨hn, hp⟩
          refine ⟨hn, ?_, hp⟩
          rintro rfl
          exact hp (List.count_pos_iff.mp (Nat.pos_of_ne_zero hleft))

end

/-! ## the whole run -/

section
variable {α : Type} {succ : α → List α} {done : List α}

/-- what the nodes that are done look like: no edge enters them from outside, and none of them is
on a cycle -/
structure Peeled (succ : α → List α) (done : List α) : Prop where
  closed : ∀ y ∈ done, ∀ x, y ∈ succ x → x ∈ done
  acyclic : ∀ y ∈ done, ¬Relation.TransGen (fun a b => b ∈ succ a) y y

theorem Peeled.ancestor (h : Peeled succ done) {x y : α} (hy : y ∈ done)
    (hp : Relation.ReflTransGen (fun a b => b ∈ succ a) x y) : x ∈ done := by
  induction hp using Relation.ReflTransGen.head_induction_on with
  | refl => exact hy
  | head hab _ ih => exact h.closed _ ih _ hab

/-- a node all of whose incoming edges come from nodes that are done -/
theorem Peeled.snoc (h : Peeled succ done) {x : α} (hx : x ∉ done)
    (hin : ∀ y, x ∈ succ y → y ∈ done) : Peeled succ (done ++ [x]) where
  closed := by
    intro y hy z hz
    rw [List.mem_append, List.mem_singleton] at hy
    rcases hy with hy | rfl
    · exact List.mem_append_left _ (h.closed y hy z hz)
    · exact List.mem_append_left _ (hin z hz)
  acyclic := by
    intro y hy hcycle
    rw [List.mem_append, List.mem_singleton] at hy
    rcases hy with hy | rfl
    · exact h.acyclic y hy hcycle
    · -- the last edge of the cycle leaves a node that is done, and the cycle leads there
      obtain ⟨z, hyz, hzy⟩ := Relation.TransGen.tail'_iff.mp hcycle
      exact hx (h.ancestor (hin z hzy) hyz)

end

section
variable {succ : α → List α} {nodes : List α} {deg : α → Option Nat} {done q rest : List α}

theorem run_counted (hsucc : ∀ x, x ∉ nodes → succ x = []) (n visited : Nat)
    (hc : Counted nodes deg done q (rest.flatMap succ)) (hp : Peeled succ done)
    (hperm : nodes.Perm (done ++ rest)) (hnodup : nodes.Nodup) (hn : rest.length ≤ n) :
    ∃ m final left, run succ n deg q visited = .done (visited + m) ∧
      done.length + m = final.length ∧ nodes.Perm (final ++ left) ∧ Peeled succ final ∧
      ∀ y ∈ left, ∃ x ∈ left, y ∈ succ x := by
  induction n generalizing deg done q rest visited with
  | zero =>
    have hrest : rest = [] := List.eq_nil_of_length_eq_zero (by omega)
    subst hrest
    have hq : q = [] := by
      rw [List.eq_nil_iff_forall_not_mem]
      intro x hx
      have hmem : x ∈ done := by
        have := ((hc.free x).mp (List.mem_append_right _ hx)).1
        simpa using hperm.mem_iff.mp this
      exact (List.nodup_append.mp hc.nodup).2.2 x hmem x hx rfl
    subst hq
    exact ⟨0, done, [], by simp [run], by simp, hperm, hp, by simp⟩
  | succ n ih =>
    cases q with
    | nil =>
      refine ⟨0, done, rest, by simp [run], by simp, hperm, hp, ?_⟩
      -- a node that is left has an incoming edge, and all edges that are left leave such nodes
      intro y hy
      have hnode : y ∈ nodes := hperm.mem_iff.mpr (List.mem_append_right _ hy)
      have hnot : y ∉ done ++ [] := by
        rw [List.append_nil]
        intro hd
        have hdis := (List.nodup_append.mp (hperm.nodup_iff.mp hnodup)).2.2
        exact hdis y hd y hy rfl
      rw [hc.free y] at hnot
      have hpend : y ∈ rest.flatMap succ := by
        by_contra hno
        exact hnot ⟨hnode, hno⟩
      exact List.mem_flatMap.mp hpend
    | cons x q =>
      have hfree := (hc.free x).mp (List.mem_append_right _ List.mem_cons_self)
      have hndone : x ∉ done := fun hd =>
        (List.nodup_append.mp hc.nodup).2.2 x hd x List.mem_cons_self rfl
      have hxrest : x ∈ rest :=
        (List.mem_append.mp (hperm.mem_iff.mp hfree.1)).resolve_left hndone
      have hsplit : rest.Perm (x :: rest.erase x) := List.perm_cons_erase hxrest
      have hedges : (rest.flatMap succ).Perm (succ x ++ (rest.erase x).flatMap succ) := by
        have := hsplit.flatMap_right succ
        rwa [List.flatMap_cons] at this
      have hc' : Counted nodes deg (done ++ [x]) q (succ x ++ (rest.erase x).flatMap succ) := by
        have := hc.perm hedges
        exact ⟨this.deg, this.inside, by simpa using this.nodup, fun y => by
          simpa using this.free y⟩
      obtain ⟨deg', q', hdrop, hcounted⟩ := hc'.drop
      have hpeel : Peeled succ (done ++ [x]) := by
        refine hp.snoc hndone fun y hy => ?_
        have hynode : y ∈ nodes := by
          by_contra hno
          rw [hsucc y hno] at hy
          exact absurd hy List.not_mem_nil
        refine (List.mem_append.mp (hperm.mem_iff.mp hynode)).resolve_right fun hyrest => ?_
        exact hfree.2 (List.mem_flatMap.mpr ⟨y, hyrest, hy⟩)
      have hperm' : nodes.Perm ((done ++ [x]) ++ rest.erase x) := by
        rw [List.append_assoc]
        exact hperm.trans (hsplit.append_left done)
      have hlen : (rest.erase x).length ≤ n := by
        rw [List.length_erase_of_mem hxrest]
        omega
      obtain ⟨m, final, left, hrun, hm, hfinal, hpf, hleft⟩ :=
        ih (visited + 1) hcounted hpeel hperm' hlen
      refine ⟨m + 1, final, left, ?_, ?_, hfinal, hpf, hleft⟩
      · rw [run, hdrop]
        show run succ n deg' q' (visited + 1) = _
        rw [hrun, Nat.add_assoc, Nat.add_comm 1 m]
      · rw [List.length_append, List.length_singleton] at hm
        omega

/-- **Kahn's algorithm halts and finds every cycle.** -/
theorem run_halts (hsucc : ∀ x, x ∉ nodes → succ x = [])
    (hin : ∀ x ∈ nodes, ∀ y ∈ succ x, y ∈ nodes) (hnodup : nodes.Nodup)
    (hdeg : ∀ y ∈ nodes, deg y = some ((nodes.flatMap succ).count y))
    (hq : q.Perm (nodes.filter fun y => decide (deg y = some 0))) {n : Nat}
    (hn : nodes.length ≤ n) :
    ∃ m, run succ n deg q 0 = .done m ∧
      (m = nodes.length ↔ Acyclic fun a b => b ∈ succ a) := by
  have hc : Counted nodes deg [] q (nodes.flatMap succ) := by
    refine ⟨hdeg, ?_, ?_, ?_⟩
    · intro y hy
      obtain ⟨x, hx, hxy⟩ := List.mem_flatMap.mp hy
      exact hin x hx y hxy
    · rw [List.nil_append, hq.nodup_iff]
      exact hnodup.filter _
    · intro y
      rw [List.nil_append, hq.mem_iff, List.mem_filter, decide_eq_true_eq]
      constructor
      · rintro ⟨hy, hd⟩
        rw [hdeg y hy] at hd
        exact ⟨hy, List.count_eq_zero.mp (Option.some.inj hd)⟩
      · rintro ⟨hy, hno⟩
        rw [hdeg y hy, List.count_eq_zero.mpr hno]
        exact ⟨hy, rfl⟩
  have hp : Peeled succ ([] : List α) :=
    ⟨fun _ h => absurd h List.not_mem_nil, fun _ h => absurd h List.not_mem_nil⟩
  have hall : nodes.Perm ([] ++ nodes) := List.Perm.refl nodes
  obtain ⟨m, final, left, hrun, hm, hperm, hpeel, hleft⟩ :=
    run_counted hsucc n 0 hc hp hall hnodup hn
  refine ⟨m, by rw [hrun, Nat.zero_add], ?_⟩
  have hlen : nodes.length = final.length + left.length := by
    rw [hperm.length_eq, List.length_append]
  rw [List.length_nil, Nat.zero_add] at hm
  constructor
  · -- everything was peeled off
    intro hall x hx
    have hnil : left = [] := List.eq_nil_of_length_eq_zero (by omega)
    rw [hnil, List.append_nil] at hperm
    by_cases hmem : x ∈ nodes
    · exact hpeel.acyclic x (hperm.mem_iff.mp hmem) hx
    · obtain ⟨y, hxy, -⟩ := Relation.TransGen.head'_iff.mp hx
      rw [hsucc x hmem] at hxy
      exact absurd hxy List.not_mem_nil
  · -- every node that is left has a predecessor that is left
    intro hacyc
    by_cases hnil : left = []
    · rw [hnil, List.length_nil] at hlen
      omega
    · obtain ⟨x, hx, hsrc⟩ := hacyc.exists_source hnil
      obtain ⟨y, hy, hyx⟩ := hleft x hx
      exact absurd hyx (hsrc y hy)

end

end Kahn
