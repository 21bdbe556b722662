import Mathlib.Logic.Hydra
import Mathlib.Data.Set.Finite.Basic
import ReclaimFabric.Lib.Prog

/-!
# Pools of programs terminate

A program is a well-founded tree, and a step of a pool replaces one of finitely many programs by
one below it or takes it out.  So the pool makes finitely many steps, whatever the schedule.

* `Prog.Below`    what may be left of a program after its first command;
* `Pool.Shrinks`  one entry of a pool goes down, or goes;
* `Pool.acc`      a pool with finitely many entries does so finitely often.
-/

namespace Prog

variable {C : Type} {R : C → Type} {α : Type}

/-- what may be left of a program after its first command -/
inductive Below : Prog C R α → Prog C R α → Prop where
  | call (c : C) (k : R c → Prog C R α) (r : R c) : Below (k r) (.call c k)

theorem wellFounded_below : WellFounded (@Below C R α) := by
  constructor
  intro p
  induction p with
  | ret a =>
    refine ⟨_, fun q hq => ?_⟩
    cases hq
  | call c k ih =>
    refine ⟨_, fun q hq => ?_⟩
    cases hq with
    | call _ _ r => exact ih r

end Prog

namespace Pool

variable {ι β : Type} {r : β → β → Prop} {f g : ι → Option β}

/-- one entry goes down, or goes -/
def Shrinks (r : β → β → Prop) (g f : ι → Option β) : Prop :=
  ∃ i b, f i = some b ∧ (∀ c, g i = some c → r c b) ∧ ∀ j, j ≠ i → g j = f j

/-- the entries at the places in `F` -/
def entries (F : Finset ι) (f : ι → Option β) : Multiset β := F.val.filterMap f

theorem filterMap_eq {m : Multiset ι} (h : ∀ i ∈ m, g i = f i) : m.filterMap g = m.filterMap f := by
  induction m using Multiset.induction with
  | empty => rfl
  | cons i m ih =>
    have hm := ih fun j hj => h j (Multiset.mem_cons_of_mem hj)
    have hi := h i (Multiset.mem_cons_self i m)
    cases hf : f i with
    | none =>
      rw [Multiset.filterMap_cons_none i m hf, Multiset.filterMap_cons_none i m (hi.trans hf), hm]
    | some b =>
      rw [Multiset.filterMap_cons_some f i m hf, Multiset.filterMap_cons_some g i m (hi.trans hf),
        hm]

theorem cutExpand_entries [DecidableEq ι] {F : Finset ι} (hF : ∀ i, f i ≠ none → i ∈ F)
    (h : Shrinks r g f) : Relation.CutExpand r (entries F g) (entries F f) := by
  obtain ⟨i, b, hi, hdown, hrest⟩ := h
  have hmem : i ∈ F := hF i (by rw [hi]; exact Option.some_ne_none b)
  have hval : F.val = i ::ₘ (F.erase i).val := by
    rw [Finset.erase_val, Multiset.cons_erase (Finset.mem_def.mp hmem)]
  have hsame : (F.erase i).val.filterMap g = (F.erase i).val.filterMap f :=
    filterMap_eq fun j hj => hrest j (Finset.ne_of_mem_erase (Finset.mem_def.mpr hj))
  have hf : entries F f = b ::ₘ (F.erase i).val.filterMap f := by
    rw [entries, hval, Multiset.filterMap_cons_some f i _ hi]
  cases hg : g i with
  | none =>
    refine ⟨0, b, fun c hc => absurd hc (Multiset.notMem_zero c), ?_⟩
    rw [hf, entries, hval, Multiset.filterMap_cons_none i _ hg, hsame, add_zero, add_comm,
      Multiset.singleton_add]
  | some c =>
    refine ⟨{c}, b, fun d hd => ?_, ?_⟩
    · rw [Multiset.mem_singleton.mp hd]
      exact hdown c hg
    · rw [hf, entries, hval, Multiset.filterMap_cons_some g i _ hg, hsame,
        ← Multiset.singleton_add, ← Multiset.singleton_add, add_right_comm,
        add_comm ({c} : Multiset β), add_right_comm]

/-- **A pool with finitely many entries shrinks finitely often.** -/
theorem acc [DecidableEq ι] (hr : WellFounded r) {F : Finset ι}
    (hF : ∀ i, f i ≠ none → i ∈ F) : Acc (Shrinks r) f := by
  have hwf : WellFounded (InvImage (Relation.CutExpand r) (entries F)) :=
    InvImage.wf _ hr.cutExpand
  induction f using hwf.induction with
  | _ f ih =>
    refine ⟨_, fun g hg => ih g (cutExpand_entries hF hg) fun j hj => ?_⟩
    obtain ⟨i, b, hi, -, hrest⟩ := hg
    by_cases hji : j = i
    · subst hji
      exact hF j (by rw [hi]; exact Option.some_ne_none b)
    · exact hF j (by rw [← hrest j hji]; exact hj)

/-- where every schedule ends, there is an end to reach -/
theorem exists_end {σ : Type} {S : σ → σ → Prop} {a : σ} (h : Acc (fun b a => S a b) a) :
    ∃ b, Relation.ReflTransGen S a b ∧ ∀ c, ¬S b c := by
  induction h with
  | intro a _ ih =>
    by_cases hstep : ∃ b, S a b
    · obtain ⟨b, hb⟩ := hstep
      obtain ⟨c, hc, hend⟩ := ih b hb
      exact ⟨c, .head hb hc, hend⟩
    · exact ⟨a, .refl, fun c hc => hstep ⟨c, hc⟩⟩

end Pool
