import ReclaimFabric.Protocol.Guarantee
import ReclaimFabric.Protocol.Names

/-!
# The invariant of the runs

`Inv m b w` holds in every state of a run of regime `m`; `b` says whether the coordinator serves.

* `Records`      a journal row records a snapshot that passed the checks before a reservation;
* `Truthful`     what holds when no store call fails and backends answer truthfully;
* `Inv`          guards, rows, journals, settled objects, and the two conditional parts.

`Last` describes the step with which an operation returns.
-/

set_option linter.unusedSectionVars false

namespace ReclaimFabric

theorem payloadOf_inj {S S' : Snapshot} {p p' : Option (List Replica)}
    (h : payloadOf S p = payloadOf S' p') : S = S' ∧ p = p' := by
  cases S
  cases S'
  cases h
  exact ⟨rfl, rfl⟩

/-- the states that only an object with a recipe may reach -/
def Doomed (s : LifecycleState) : Prop :=
  s = .deduped ∨ s = .recomputable ∨ s = .reclaimPending ∨ s = .reclaimed

section
variable (env : Env) (m : Regime)

/-! ## journal rows -/

/-- the journal row records snapshot `S`, and `plan` once there is one -/
structure Records (j : JournalEntry) (S : Snapshot) (plan : Option (List Replica))
    (w : Traced) : Prop where
  payload : j.payload = payloadOf S plan
  object : S.prior.id = j.objectId
  generation : S.prior.generation = j.generation
  prior : PriorOk S.prior j.createdAtMs
  recipe : m.recipe = true → S.prior.Recipe
  row : ∃ o, rowOf w j.objectId = some o ∧ o.immut = S.prior.immut
  dels : ∀ d ∈ S.dels, d.objectId = j.objectId
  archs : ∀ a ∈ S.archs, a.objectId = j.objectId ∧ ArchiveKeyOf j.objectId a.key
  planned : ∀ p, plan = some p → ∀ r ∈ p, r ∈ S.dels
  before : j.phase.isOpen = true → j.phase.physical = false → plan = none
  started : j.phase.physical = true → plan.isSome = true
  logged : ∃ e ∈ w.log, e.Reserves j S.prior

/-! ## truthful backends -/

/-- what holds when no store call fails and backends answer truthfully -/
structure Truthful (b : Bool) (w : Traced) : Prop where
  unique : ∀ j ∈ w.store.journal, ∀ j' ∈ w.store.journal, j.phase.isOpen = true →
    j'.phase.isOpen = true → j'.objectId = j.objectId → j' = j
  empty : ∀ X o, rowOf w X = some o → o.lifecycleState = .reclaimed →
    (∀ r ∈ w.store.replicas, r.objectId ≠ X) ∧ ∀ a ∈ w.store.archives, a.objectId ≠ X
  decided : ∀ j ∈ w.store.journal, j.phase.isOpen = true → ∀ o, rowOf w j.objectId = some o →
    o.lifecycleState = .reclaimed → Decided j w
  covered : ∀ j ∈ w.store.journal, j.phase.physical = true →
    ∀ S plan, j.payload = payloadOf S plan →
    (∀ r ∈ w.store.replicas, r.objectId = j.objectId → ∃ d ∈ S.dels, d.desc = r.desc) ∧
      ∀ a ∈ w.store.archives, a.objectId = j.objectId → a ∈ S.archs
  guarded : b = true → w.proc.activeRecovery = none → ¬Lost w → ∀ j ∈ w.store.journal,
    j.phase.isOpen = true → ∀ o, rowOf w j.objectId = some o → o.lifecycleState = .reclaimed →
    ∃ t, Own t j.objectId w ∧ ∀ S plan, j.payload = payloadOf S (some plan) →
      ∀ r ∈ plan, Pay t r.slot w
  replicas : ∀ r ∈ w.store.replicas, Named env m.bytes w r.location.key r.contentHash
  dedup : ∀ e ∈ w.store.dedup, Named env m.bytes w e.key e.contentHash
  dels : ∀ j ∈ w.store.journal, ∀ S plan, j.payload = payloadOf S plan →
    ∀ d ∈ S.dels, Named env m.bytes w d.location.key d.contentHash

/-! ## the invariant -/

/-- an object has at most one open reservation -/
def SingleReservation (w : Traced) : Prop :=
  ∀ r ∈ w.store.reservations, ∀ r' ∈ w.store.reservations, r.status = .isOpen →
    r'.status = .isOpen → r.objectId = r'.objectId → r = r'

theorem SingleReservation.mono {w w' : Traced} (h : SingleReservation w)
    (hsub : ∀ r ∈ w'.store.reservations, r.status = .isOpen → r ∈ w.store.reservations) :
    SingleReservation w' :=
  fun r hr r' hr' ho ho' => h r (hsub r hr ho) r' (hsub r' hr' ho') ho ho'

structure Inv (b : Bool) (w : Traced) : Prop where
  own : ∀ X t u, Own t X w → Own u X w → u = t
  pay : ∀ k t u, Pay t k w → Pay u k w → u = t
  recovery : ∀ t, Recovering t w → w.proc.activeObjects = [] ∧ w.proc.activePayloads = []
  opening : b = false → w.proc.activeObjects = [] ∧ w.proc.activePayloads = []
  rows : ∀ X o, rowOf w X = some o → o.RowOk
  recipe : m.recipe = true → ∀ X o, rowOf w X = some o → Doomed o.lifecycleState → o.Recipe
  archives : ∀ a ∈ w.store.archives, ArchiveKeyOf a.objectId a.key
  journal : ∀ j ∈ w.store.journal, ∃ S plan, Records m j S plan w
  single : SingleReservation w
  settled : b = true → w.proc.activeRecovery = none → ∀ X, Unowned X w → Lost w ∨ Fine m X w
  acked : m.wrapped = true → ∀ X, Unowned X w → Acked X w
  untouched : m.wrapped = true → ∀ j ∈ w.store.journal, j.phase.isOpen = true → Untouched j w
  truthful : m.honest = true → Truthful env m b w

/-- the thread holds no guard -/
structure Idle (t : Tid) (w : Traced) : Prop where
  own : ∀ X, ¬Own t X w
  pay : ∀ k, ¬Pay t k w
  recovering : ¬Recovering t w

/-! ## the last step of an operation -/

/-- the step with which `op` returns `r`; the return itself is not yet in the record of `w'` -/
inductive Last (b : Bool) (t : Tid) (op : Op) (r : Res op.Out) (w w' : Traced) : Prop where
  | plain : Guar env m b t op w w' → Idle t w' → op.opened r = false →
      (∀ X, ¬Event.Acks X (.returned t op r)) →
      Last b t op r w w'
  | release {X : Uuid} : Own t X w → (∀ Y, Own t Y w → Y = X) → (∀ k, ¬Pay t k w) →
      op.target = some X → op.opened r = false →
      w'.store = w.store → w'.payloads = w.payloads → w'.blobs = w.blobs →
      w'.proc = { w.proc with
        activeObjects := w.proc.activeObjects.filter (fun e => decide (e.1 ≠ X)) } →
      (∃ e, Event.isCall e = true ∧ w'.log = e :: w.log) →
      Settled m X (w'.returned t op r) → Last b t op r w w'
  | recovered : op = .recover → Recovering t w → w'.store = w.store →
      w'.payloads = w.payloads → w'.blobs = w.blobs →
      w'.proc = { w.proc with activeRecovery := none } →
      (∃ e, Event.isCall e = true ∧ w'.log = e :: w.log) →
      ((b || op.opened r) = true → ∀ X, Lost w ∨ Fine m X w) → Last b t op r w w'

end

end ReclaimFabric
