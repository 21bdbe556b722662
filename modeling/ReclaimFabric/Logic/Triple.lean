import ReclaimFabric.Model.System

/-!
# Triples for coordinator programs

A `Party` is one thread inside one operation, with what it may rely on and what it has to
guarantee.  `Triple l P x Q E` says that `x` can be run from `P`: every step is in the guarantee,
`Q` holds when it returns a value and `E` when it fails.  The Boolean `l` says whether the thread
holds the coordinator mutex, which matters only for a party that must not be blocked (`total`).

Assertions that are alive across a step have to be `Firm`: neither the others nor a step that
changes nothing of substance (`Quiet`) can falsify them.  The rules for single commands are the
only place where `exec` is looked at.
-/

set_option linter.unusedSectionVars false

namespace ReclaimFabric

/-! ## quiet steps -/

/-- the tables that operations decide on -/
structure Data where
  objects : Table ReclaimObject.id
  replicas : Table Replica.replicaId
  lineage : Table (id : LineageEdge → LineageEdge)
  dedup : Table (fun e : DedupEntry => (e.contentHash, e.backend))
  attempts : Table Attempt.attemptId
  reservations : Table Reservation.reservationId
  archives : Table ArchiveRecord.archiveId
  journal : Table JournalEntry.attemptId

def Store.data (s : Store) : Data :=
  ⟨s.objects, s.replicas, s.lineage, s.dedup, s.attempts, s.reservations, s.archives, s.journal⟩

/-- what the process memory fixes or guards -/
structure Guards where
  config : Config
  epoch : Nat
  bootId : Uuid
  activeObjects : List (Uuid × Tid)
  activePayloads : List ((String × ContentHash) × Tid)
  activeRecovery : Option Tid

def Proc.guards (p : Proc) : Guards :=
  ⟨p.config, p.epoch, p.bootId, p.activeObjects, p.activePayloads, p.activeRecovery⟩

/-- a record that grows twice has grown -/
theorem grown_trans {l₁ l₂ l₃ : List Event} (h : ∃ l, l₂ = l ++ l₁) (h' : ∃ l, l₃ = l ++ l₂) :
    ∃ l, l₃ = l ++ l₁ := by
  obtain ⟨l, hl⟩ := h
  obtain ⟨l', hl'⟩ := h'
  exact ⟨l' ++ l, by rw [hl', hl, List.append_assoc]⟩

/-- the event is a step of a thread -/
def Event.isCall : Event → Bool
  | .call _ _ _ _ _ => true
  | _ => false

/-- only the store may have changed; flags are only raised, the record only grows -/
structure Still (w w' : Traced) : Prop where
  payloads : w'.payloads = w.payloads
  blobs : w'.blobs = w.blobs
  guards : w'.proc.guards = w.proc.guards
  authorityLost : w.proc.authorityLost = true → w'.proc.authorityLost = true
  shutdown : w.proc.shutdown = true → w'.proc.shutdown = true
  issued : ∀ u, u ∈ w.issued → u ∈ w'.issued
  log : ∃ l, (∀ e ∈ l, Event.isCall e = true) ∧ w'.log = l ++ w.log

/-- nothing an operation decides on changes -/
structure Quiet (w w' : Traced) : Prop extends Still w w' where
  data : w'.store.data = w.store.data

namespace Still

theorem refl (w : Traced) : Still w w :=
  ⟨rfl, rfl, rfl, id, id, fun _ => id, [], fun _ h => absurd h List.not_mem_nil, rfl⟩

variable {w w' : Traced} (h : Still w w')
include h

theorem config : w'.proc.config = w.proc.config := congrArg Guards.config h.guards
theorem activeObjects : w'.proc.activeObjects = w.proc.activeObjects :=
  congrArg Guards.activeObjects h.guards
theorem activePayloads : w'.proc.activePayloads = w.proc.activePayloads :=
  congrArg Guards.activePayloads h.guards
theorem activeRecovery : w'.proc.activeRecovery = w.proc.activeRecovery :=
  congrArg Guards.activeRecovery h.guards

end Still

namespace Quiet

theorem refl (w : Traced) : Quiet w w := ⟨Still.refl w, rfl⟩

variable {w w' : Traced} (h : Quiet w w')
include h

theorem objects : w'.store.objects = w.store.objects := congrArg Data.objects h.data
theorem replicas : w'.store.replicas = w.store.replicas := congrArg Data.replicas h.data
theorem lineage : w'.store.lineage = w.store.lineage := congrArg Data.lineage h.data
theorem dedup : w'.store.dedup = w.store.dedup := congrArg Data.dedup h.data
theorem attempts : w'.store.attempts = w.store.attempts := congrArg Data.attempts h.data
theorem reservations : w'.store.reservations = w.store.reservations :=
  congrArg Data.reservations h.data
theorem archives : w'.store.archives = w.store.archives := congrArg Data.archives h.data
theorem journal : w'.store.journal = w.store.journal := congrArg Data.journal h.data

end Quiet

/-! ## parties -/

/-- one thread inside one operation -/
structure Party (env : Env) where
  tid : Tid
  op : Op
  allow : Cmd → Input → Traced → Prop
  inv : Traced → Prop
  rely : Traced → Traced → Prop
  guar : Traced → Traced → Prop
  total : Bool
  quiet : ∀ {w w'}, Quiet w w' → guar w w'
  lost : ∀ w w', rely w w' → w.proc.authorityLost = true → w'.proc.authorityLost = true
  config : ∀ w w', rely w w' → w'.proc.config = w.proc.config
  mutex : total = true → ∀ w w', rely w w' → w'.proc.mutex = w.proc.mutex
  fresh : total = true → ∀ i w, allow .newUuid i w → i.uuid ∉ w.issued
  order : total = true → ∀ n i w, allow (.hashOrder n) i w → i.order.isPerm (List.range n) = true

namespace Party

variable {env : Env}

def agent (A : Party env) : Agent Cmd Cmd.Reply Input Traced where
  exec := Traced.exec env A.tid A.op
  allow := A.allow
  inv := A.inv
  rely := A.rely
  guar := A.guar
  block := A.total = false

variable (A : Party env)

/-- who has the coordinator mutex, when that matters -/
def Mutex (l : Bool) (w : Traced) : Prop :=
  A.total = true → w.proc.mutex = if l then some A.tid else none

/-- the state after a step of this thread -/
def after (c : Cmd) (r : c.Reply) (w : Traced) (x : World) : Traced :=
  ⟨x, .call A.tid A.op c r w.toWorld :: w.log⟩

/-- an assertion that survives the others and the thread's own quiet steps -/
structure Firm (P : Traced → Prop) : Prop where
  rely : ∀ w w', A.rely w w' → A.inv w' → P w → P w'
  quiet : ∀ w w', Quiet w w' → P w → P w'

def Triple {α : Type} (l : Bool) (P : Traced → Prop) (x : M α) (Q : α → Traced → Prop)
    (E : ReclaimError → Traced → Prop) : Prop :=
  ∀ w, P w → A.Mutex l w →
    wpE A.agent x (fun a w' => Q a w' ∧ A.Mutex l w') (fun e w' => E e w' ∧ A.Mutex l w') w

/-! ## firm assertions -/

section
variable {A} {P Q : Traced → Prop}

theorem Firm.and (hP : A.Firm P) (hQ : A.Firm Q) : A.Firm (fun w => P w ∧ Q w) where
  rely := fun w w' hr hi h => ⟨hP.rely w w' hr hi h.1, hQ.rely w w' hr hi h.2⟩
  quiet := fun w w' hq h => ⟨hP.quiet w w' hq h.1, hQ.quiet w w' hq h.2⟩

theorem Firm.const (φ : Prop) : A.Firm (fun _ => φ) where
  rely := fun _ _ _ _ h => h
  quiet := fun _ _ _ h => h

theorem Firm.forall {ι : Type} {R : ι → Traced → Prop} (h : ∀ i, A.Firm (R i)) :
    A.Firm (fun w => ∀ i, R i w) where
  rely := fun w w' hr hi hR i => (h i).rely w w' hr hi (hR i)
  quiet := fun w w' hq hR i => (h i).quiet w w' hq (hR i)

theorem Firm.imp_const {φ : Prop} (h : φ → A.Firm P) : A.Firm (fun w => φ → P w) where
  rely := fun w w' hr hi hP hφ => (h hφ).rely w w' hr hi (hP hφ)
  quiet := fun w w' hq hP hφ => (h hφ).quiet w w' hq (hP hφ)

end

theorem firm_lost : A.Firm (fun w => w.proc.authorityLost = true) where
  rely := fun w w' hr _ h => A.lost w w' hr h
  quiet := fun _ _ hq h => hq.authorityLost h

theorem firm_config (c : Config) : A.Firm (fun w => w.proc.config = c) where
  rely := fun w w' hr _ h => (A.config w w' hr).trans h
  quiet := fun _ _ hq h => hq.config.trans h

/-! ## structural rules -/

namespace Triple

open Prog (attempt settle)

variable {A} {α β : Type} {l : Bool} {P P' : Traced → Prop} {Q Q' : α → Traced → Prop}
  {R : β → Traced → Prop} {E E' : ReclaimError → Traced → Prop}

theorem pre {x : M α} (h : A.Triple l P' x Q E) (hP : ∀ w, P w → P' w) : A.Triple l P x Q E :=
  fun w hw hm => h w (hP w hw) hm

theorem post {x : M α} (h : A.Triple l P x Q' E') (hQ : ∀ a w, Q' a w → Q a w)
    (hE : ∀ e w, E' e w → E e w) : A.Triple l P x Q E :=
  fun w hw hm => wpE_mono (h w hw hm) (fun a w' h' => ⟨hQ a w' h'.1, h'.2⟩)
    (fun e w' h' => ⟨hE e w' h'.1, h'.2⟩)

/-- what no step takes back, stays true to the end -/
theorem frame {G : Traced → Prop} {x : M α} (hrely : ∀ w w', A.rely w w' → G w → G w')
    (hguar : ∀ w w', A.guar w w' → G w → G w') (h : A.Triple l P x Q E) :
    A.Triple l (fun w => P w ∧ G w) x (fun a w => Q a w ∧ G w) (fun e w => E e w ∧ G w) := by
  intro w hw hm
  refine wp_mono (wp_frame (G := G) hrely hguar (h w hw.1 hm) hw.2) ?_
  intro r w' hr
  cases r with
  | ok a => exact ⟨⟨hr.1.1, hr.2⟩, hr.1.2⟩
  | error e => exact ⟨⟨hr.1.1, hr.2⟩, hr.1.2⟩

theorem pure {a : α} (h : ∀ w, P w → Q a w) : A.Triple l P (Pure.pure a : M α) Q E :=
  fun w hw hm => wpE_pure.mpr ⟨h w hw, hm⟩

theorem throw {e : ReclaimError} (h : ∀ w, P w → E e w) :
    A.Triple l P (MonadExcept.throw e : M α) Q E :=
  fun w hw hm => wpE_throw.mpr ⟨h w hw, hm⟩

theorem settle {r : Res α} (hok : ∀ a, r = .ok a → ∀ w, P w → Q a w)
    (herr : ∀ e, r = .error e → ∀ w, P w → E e w) : A.Triple l P (settle r : M α) Q E := by
  intro w hw hm
  rw [wpE_settle]
  cases r with
  | ok a => exact ⟨hok a rfl w hw, hm⟩
  | error e => exact ⟨herr e rfl w hw, hm⟩

theorem bind {x : M β} {f : β → M α} (h : A.Triple l P x R E)
    (hf : ∀ b, A.Triple l (R b) (f b) Q E) : A.Triple l P (x >>= f) Q E := by
  intro w hw hm
  rw [wpE_bind]
  exact wpE_mono (h w hw hm) (fun b w' h' => hf b w' h'.1 h'.2) (fun _ _ h' => h')

theorem attempt {x : M β} {Q : Res β → Traced → Prop}
    (h : A.Triple l P x (fun b => Q (.ok b)) (fun e => Q (.error e))) :
    A.Triple l P (Prog.attempt x : M (Res β)) Q E := by
  intro w hw hm
  rw [wpE_attempt]
  exact h w hw hm

/-- the alternatives of a call that was attempted -/
theorem attemptBind {x : M β} {f : Res β → M α} {S : ReclaimError → Traced → Prop}
    (h : A.Triple l P x R S) (hok : ∀ b, A.Triple l (R b) (f (.ok b)) Q E)
    (herr : ∀ e, A.Triple l (S e) (f (.error e)) Q E) :
    A.Triple l P (Prog.attempt x >>= f) Q E := by
  refine bind (R := fun r w => outcome R S r w) (attempt h) ?_
  intro r
  cases r with
  | ok b => exact hok b
  | error e => exact herr e

theorem ite {c : Prop} [Decidable c] {x y : M α} (ht : c → A.Triple l P x Q E)
    (he : ¬c → A.Triple l P y Q E) : A.Triple l P (if c then x else y) Q E := by
  by_cases h : c
  · rw [if_pos h]
    exact ht h
  · rw [if_neg h]
    exact he h

/-- `if c { return Err(e) }` and the rest -/
theorem refuse {c : Prop} [Decidable c] {e : ReclaimError} {f : Unit → M α}
    (ht : c → ∀ w, P w → E e w) (he : ¬c → A.Triple l P (f ()) Q E) :
    A.Triple l P (if c then (MonadExcept.throw e : M Unit) >>= f else f ()) Q E :=
  ite (fun h => bind (R := fun _ _ => False) (throw (ht h)) (fun _ _ h => h.elim)) he

/-- `if c { x }` and the rest -/
theorem guarded {c : Prop} [Decidable c] {x : M Unit} {f : Unit → M α} {S : Traced → Prop}
    (ht : c → A.Triple l P x (fun _ => S) E) (he : ¬c → ∀ w, P w → S w)
    (hf : A.Triple l S (f ()) Q E) : A.Triple l P (if c then x >>= f else f ()) Q E :=
  ite (fun h => bind (ht h) fun _ => hf) fun h => hf.pre (he h)

theorem of_exists {ι : Type} {R : ι → Traced → Prop} {x : M α}
    (h : ∀ i, A.Triple l (R i) x Q E) : A.Triple l (fun w => ∃ i, R i w) x Q E :=
  fun w ⟨i, hw⟩ hm => h i w hw hm

theorem of_pure {φ : Prop} {x : M α} (h : φ → A.Triple l P x Q E) :
    A.Triple l (fun w => φ ∧ P w) x Q E :=
  fun w hw hm => h hw.1 w hw.2 hm

/-! ## single commands -/

/-- the rule all others come from: one command, its reply read as `k` -/
theorem call {c : Cmd} {k : c.Reply → Res α} (l' : Bool) (hP : A.Firm P)
    (h : ∀ w i r x, P w → A.inv w → A.Mutex l w → A.allow c i w →
      exec env A.tid c i w.toWorld = some (r, x) →
      A.guar w (A.after c r w x) ∧ A.Mutex l' (A.after c r w x) ∧
        outcome Q E (k r) (A.after c r w x))
    (hb : A.total = true → ∀ w i, P w → A.Mutex l w → A.allow c i w →
      exec env A.tid c i w.toWorld ≠ none) (w : Traced) (hw : P w) (hm : A.Mutex l w) :
    wpE A.agent (ExceptT.mk (.call c fun r => .ret (k r)) : M α)
      (fun a w' => Q a w' ∧ A.Mutex l' w') (fun e w' => E e w' ∧ A.Mutex l' w') w := by
  intro w₁ hr hi i ha
  have hw₁ : P w₁ := hP.rely w w₁ hr hi hw
  have hm₁ : A.Mutex l w₁ := fun ht => (A.mutex ht w w₁ hr).trans (hm ht)
  show Agent.after A.agent w₁ (Traced.exec env A.tid A.op c i w₁) _
  cases he : exec env A.tid c i w₁.toWorld with
  | none =>
    rw [Traced.exec, he]
    show A.total = false
    cases ht : A.total with
    | false => rfl
    | true => exact absurd he (hb ht w₁ i hw₁ hm₁ ha)
  | some x =>
    rw [Traced.exec, he]
    obtain ⟨hg, hm', ho⟩ := h w₁ i x.1 x.2 hw₁ hi hm₁ ha he
    refine ⟨hg, ?_⟩
    show outcome _ _ (k x.1) (A.after c x.1 w₁ x.2)
    cases hk : k x.1 with
    | ok a =>
      rw [hk] at ho
      exact ⟨ho, hm'⟩
    | error e =>
      rw [hk] at ho
      exact ⟨ho, hm'⟩

end Triple

end Party

end ReclaimFabric
