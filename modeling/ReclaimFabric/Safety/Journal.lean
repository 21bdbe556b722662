import ReclaimFabric.Protocol.Journal
import ReclaimFabric.Safety.Modes

/-!
# Reading the journal back

Recovery parses the payload of every open entry and refuses one whose replicas do not carry the
generation of the entry.

* `namedRun`         every start configures archives that have an identifier;
* `Reach.journaled`  what such runs write into the journal;
* `journal_readable` recovery can read an entry exactly when, at its reservation, all replica rows
                     of the object carried the generation of the object row.
-/

set_option linter.unusedSectionVars false

namespace ReclaimFabric

section
variable {env : Env} {s s' : Sys} {j : JournalEntry}

/-- the coordinator does not open with an archive without identifier -/
def namedRun : Mode
  | _, .restart config _ _ => ∀ a ∈ config.archives, a.id ≠ ""
  | _, _ => True

theorem Journaled.init : Journaled Sys.init.shared where
  config := fun _ ha => absurd ha List.not_mem_nil
  replicas := fun r hr => absurd hr (Table.not_mem_empty r)
  archives := fun a ha => absurd ha (Table.not_mem_empty a)
  journal := fun j hj => absurd hj (Table.not_mem_empty j)

theorem Journaled.restarted {config : Config} {bootId : Uuid} {now : Int}
    (h : Journaled s.shared) (hc : ∀ a ∈ config.archives, a.id ≠ "")
    (hr : s.restart env config bootId now = some s') : Journaled s'.shared := by
  obtain ⟨hdata, -, -, ⟨epoch, hproc⟩, hlog⟩ := Sys.restart_eq hr
  refine h.of_data ?_ ⟨[.restarted], hlog⟩ hdata
  rw [hproc]
  exact hc

/-- what such a run has written -/
theorem Reach.journaled (h : Reach env namedRun s) : Journaled s.shared := by
  induction h with
  | init => exact .init
  | @next s s' l hr hm hn ih =>
    have hfree := (Reach.mono (fun _ _ _ => trivial) hr : Reach env anyRun s).free
    have hi := hfree.inv Regime.free_collisionless
    cases hfree.moved Regime.free_collisionless (Regime.free_mode l) hn with
    | started hs => rwa [hs]
    | refused r _ hs =>
      rw [hs]
      exact ih.returned
    | stepped _ hg => exact hg.journaled hi ih
    | finished _ hl hs =>
      rw [hs]
      exact (hl.journaled hi ih).returned
    | restarted hres => exact ih.restarted hm hres

/-- **Which journal entries recovery can read.** -/
theorem journal_readable (h : Reach env namedRun s) (hj : j ∈ s.shared.store.journal) :
    ∃ e ∈ s.shared.log, ∃ before, e.Reserved j before ∧
      ((∃ p, Coordinator.entryPayload j = .ok p) ↔ Uniform j.objectId before) := by
  have hinv := (Reach.mono (fun _ _ _ => trivial) h : Reach env anyRun s).free.inv
    Regime.free_collisionless
  obtain ⟨S, plan, hd⟩ := h.journaled.journal j hj
  obtain ⟨e, he, before, hres, hiff⟩ := hd.reserved
  exact ⟨e, he, before, hres, (hd.readable_iff (hinv.records hj hd.payload)).trans hiff⟩

end

/-! ## a registration that leaves a replica behind -/

namespace Sample

/-- no restart at all, or one whose archives have an identifier -/
def named (_ : Sys) : Label → Bool
  | .restart config _ _ => config.archives.all fun a => a.id ≠ ""
  | _ => true

theorem named_ok (s : Sys) (l : Label) (h : named s l = true) : namedRun s l := by
  cases l with
  | start t op => trivial
  | step t i => trivial
  | restart config bootId now =>
    intro a ha
    exact of_decide_eq_true (List.all_eq_true.mp h a ha)

/-- the object row and then the removal of the replica row fail -/
def leftover (n : Nat) (k : Nat) : Input :=
  if k = 65 ∨ k = 76 then { calm n k with fault := some (.persistence "disk full") } else calm n k

/-- the object is registered again with the next generation and its reclaim is under way -/
def regenerated : Option Sys :=
  during named 1
    (after named
      ((opened named).bind fun s => s.call? env named 1 (register (object 10) "a") (leftover 200))
      (register { object 10 with generation := 2 } "ab") 300)
    (reclaim 10) (calm 400) 140

def readable (j : JournalEntry) : Bool := (Coordinator.entryPayload j).toOption.isSome

theorem regenerated_eq :
    (regenerated.bind fun s => s.shared.store.journal.rows.head?.map readable) = some false := by
  decide +kernel

theorem reached_regenerated : Reached namedRun regenerated := by
  refine Reached.during named_ok (Reached.after named_ok ?_)
  intro s h
  obtain ⟨s₀, h₀, h⟩ := Option.bind_eq_some_iff.mp h
  exact (reached_opened named_ok (named_ok _ _ (by decide)) s₀ h₀).call? named_ok h

end Sample

/-- the replica row of the first generation is still there, and the entry cannot be read -/
theorem journal_readable_leftover : ∃ s j, Reach Sample.env namedRun s ∧
    j ∈ s.shared.store.journal ∧ (¬∃ p, Coordinator.entryPayload j = .ok p) ∧
    ∃ e ∈ s.shared.log, ∃ before, e.Reserved j before ∧ ¬Uniform j.objectId before := by
  obtain ⟨s, hs, h⟩ := Option.bind_eq_some_iff.mp Sample.regenerated_eq
  obtain ⟨j, hj, hread⟩ := Option.map_eq_some_iff.mp h
  have hreach := Sample.reached_regenerated s hs
  have hmem : j ∈ s.shared.store.journal := List.mem_of_mem_head? hj
  have hno : ¬∃ p, Coordinator.entryPayload j = .ok p := by
    rintro ⟨p, hp⟩
    rw [Sample.readable, hp] at hread
    cases hread
  obtain ⟨e, he, before, hres, hiff⟩ := journal_readable hreach hmem
  exact ⟨s, j, hreach, hmem, hno, e, he, before, hres, fun hu => hno (hiff.mpr hu)⟩

end ReclaimFabric
