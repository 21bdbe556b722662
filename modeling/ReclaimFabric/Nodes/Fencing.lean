import ReclaimFabric.Nodes.Registry
import ReclaimFabric.Authority.Lease
import ReclaimFabric.Model.World

/-!
# Epoch fencing at a node

A node and any number of coordinators that have claimed the store.  What a coordinator sends stays
in flight and may be delivered late, again, or never.

* `handle`                   the node's request handler (`build_handler`);
* `onRegister`, `onHeartbeat`   what the heartbeat cycle does with a reply;
* `Net`, `Net.next`          claims, messages in flight and the node;
* `Inv`                      every epoch in flight, and the node's own, was granted to someone;
* `node_epoch_fencing`       the node's epoch never falls back, and a request of an older epoch is
                             refused before any backend is reached.
-/

namespace ReclaimFabric

namespace Fencing

/-! ## the node -/

inductive OpKind where
  | store
  | read
  | delete
  | exists_
  | verify

def opKind (method : String) : Option OpKind :=
  match method with
  | "node.execute.store" => some .store
  | "node.execute.read" => some .read
  | "node.execute.delete" => some .delete
  | "node.execute.reclaim" => some .delete
  | "node.execute.exists" => some .exists_
  | "node.execute.verify" => some .verify
  | _ => none

/-- the fields of `NodeOperationRequest` a node reads -/
structure NodeOperationRequest where
  coordinatorEpoch : Nat
  backend : String
  key : String
  payload : Option Bytes
  expectedHash : Option ContentHash

structure NodeState where
  nodeId : String
  backends : List (String × BackendInfo)
  coordinatorEpoch : Nat
  registered : Bool

section
variable (env : Env) (info : BackendInfo) (op : NodeOperationRequest) (i : Input)

/-- put, size check and read back of a store request -/
def storeResult (data : Bytes) (w : World) : Res (Nat × ContentHash) × World :=
  match op.expectedHash with
  | none => (.error (.protocol "store without expected hash"), w)
  | some expected =>
    match env.verifySha256 data expected with
    | .error e => (.error e, w)
    | .ok () =>
      match execPut (.ok info) op.backend op.key data i w with
      | (.error e, w₁) => (.error e, w₁)
      | (.ok size, w₁) =>
        if size ≠ data.length then
          (.error (.backend s!"backend reported storing {size} bytes, expected {data.length}"), w₁)
        else
          match execGet (.ok info) op.backend op.key i w₁ with
          | (.error e, w₂) => (.error e, w₂)
          | (.ok stored, w₂) =>
            match env.verifySha256 stored expected with
            | .error e => (.error e, w₂)
            | .ok () => (.ok (size, expected), w₂)

/-- `execute_operation` on a backend the node has -/
def executeOn (w : World) : OpKind → NodeReply × World
  | .store =>
    match op.payload with
    | none => (.failed (.protocol "store without payload"), w)
    | some data =>
      match storeResult env info op i data w with
      | (.ok (size, hash), w₁) => (⟨true, some size, some hash, none, false, none⟩, w₁)
      | (.error e, w₁) =>
        match execDelete (.ok info) op.backend op.key i w₁ with
        | (.ok (), w₂) => (.failed e, w₂)
        | (.error c, w₂) =>
          (.failed (.internal s!"node store failed ({e}); cleanup also failed ({c})"), w₂)
  | .read =>
    match execGet (.ok info) op.backend op.key i w with
    | (.error e, w₁) => (.failed e, w₁)
    | (.ok d, w₁) => (⟨true, some d.length, none, some d, true, none⟩, w₁)
  | .delete =>
    match execDelete (.ok info) op.backend op.key i w with
    | (.error e, w₁) => (.failed e, w₁)
    | (.ok (), w₁) => (⟨true, none, none, none, false, none⟩, w₁)
  | .exists_ =>
    match execExists (.ok info) op.backend op.key i w with
    | (.error e, w₁) => (.failed e, w₁)
    | (.ok x, w₁) => (⟨true, none, none, none, x, none⟩, w₁)
  | .verify =>
    match op.expectedHash with
    | none => (⟨false, none, none, none, true, some (.protocol "verify without expected hash")⟩, w)
    | some expected =>
      match execGet (.ok info) op.backend op.key i w with
      | (.error e, w₁) => (⟨false, none, none, none, true, some e⟩, w₁)
      | (.ok d, w₁) =>
        match env.verifySha256 d expected with
        | .error e => (⟨false, none, none, none, true, some e⟩, w₁)
        | .ok () => (⟨true, none, none, none, true, none⟩, w₁)

end

section
variable (env : Env)

def execute (n : NodeState) (op : NodeOperationRequest) (kind : OpKind) (i : Input) (w : World) :
    NodeReply × World :=
  match n.backends.find? (fun e => decide (e.1 = op.backend)) with
  | none => (.failed (.backend ("unknown backend " ++ op.backend)), w)
  | some e => executeOn env e.2 op i w kind

/-- the request handler of a node -/
def handle (n : NodeState) (method : String) (op : NodeOperationRequest) (i : Input) (w : World) :
    Res NodeReply × World :=
  if op.coordinatorEpoch ≠ n.coordinatorEpoch then
    (.error (.staleEpoch n.coordinatorEpoch op.coordinatorEpoch), w)
  else
    match opKind method with
    | none => (.error (.protocol s!"unknown node operation {method}"), w)
    | some kind => (.ok (execute env n op kind i w).1, (execute env n op kind i w).2)

end

/-- an error of the heartbeat cycle makes the node register again -/
def NodeState.failed (n : NodeState) : NodeState := { n with registered := false }

/-- the reply to a registration of the heartbeat cycle -/
def onRegister (n : NodeState) : Res Registry.NodeRegisterReply → Res Unit × NodeState
  | .error e => (.error e, n.failed)
  | .ok reg =>
    if reg.nodeId ≠ n.nodeId then
      (.error (.protocol
        s!"coordinator assigned node id {reg.nodeId} but expected {n.nodeId}"), n.failed)
    else if reg.coordinatorEpoch < n.coordinatorEpoch then
      (.error (.staleEpoch n.coordinatorEpoch reg.coordinatorEpoch), n.failed)
    else (.ok (), { n with coordinatorEpoch := reg.coordinatorEpoch, registered := true })

/-- the reply to a heartbeat; `none` is a reply without an epoch -/
def onHeartbeat (n : NodeState) : Res (Option Nat) → Res Unit × NodeState
  | .error e => (.error e, n.failed)
  | .ok none => (.error (.protocol "heartbeat reply did not contain a coordinator epoch"), n.failed)
  | .ok (some e) =>
    if e < n.coordinatorEpoch then (.error (.staleEpoch n.coordinatorEpoch e), n.failed)
    else (.ok (), { n with coordinatorEpoch := e })

/-! ## the network -/

inductive Message where
  | registered (reply : Registry.NodeRegisterReply)
  | heartbeat (epoch : Nat)
  | operation (method : String) (op : NodeOperationRequest)

/-- the epoch of the coordinator that sent the message -/
def Message.epoch : Message → Nat
  | .registered r => r.coordinatorEpoch
  | .heartbeat e => e
  | .operation _ op => op.coordinatorEpoch

structure Net where
  world : World
  /-- the epochs of successful claims -/
  granted : List Nat
  /-- everything that was ever sent -/
  sent : List Message
  node : Option NodeState

inductive Label where
  /-- a call on the coordinator row, by any process -/
  | authority (c : AuthorityCall)
  /-- a coordinator with a granted epoch sends a message -/
  | send (m : Message)
  /-- the node starts with the registration reply at this place -/
  | start (nodeId : String) (backends : List (String × BackendInfo)) (k : Nat)
  /-- the message at this place reaches the node -/
  | deliver (k : Nat) (i : Input)
  /-- a call of the node to the coordinator fails -/
  | lost (e : ReclaimError)

def receive (env : Env) (s : Net) (n : NodeState) (i : Input) : Message → Net
  | .registered r => if n.registered then s else { s with node := some (onRegister n (.ok r)).2 }
  | .heartbeat e =>
    if n.registered then { s with node := some (onHeartbeat n (.ok (some e))).2 } else s
  | .operation method op => { s with world := (handle env n method op i s.world).2 }

def Net.next (env : Env) : Label → Net → Option Net
  | .authority c, s => some { s with
      world := s.world.setStore (c.step s.world.store).2
      granted := (Answered.epoch (c, (c.step s.world.store).1)).toList ++ s.granted }
  | .send m, s => if m.epoch ∈ s.granted then some { s with sent := m :: s.sent } else none
  | .start nodeId backends k, s =>
    match s.node, s.sent[k]? with
    | none, some (.registered r) =>
      if r.nodeId = nodeId then
        some { s with node := some ⟨nodeId, backends, r.coordinatorEpoch, true⟩ }
      else none
    | _, _ => none
  | .deliver k i, s =>
    match s.node, s.sent[k]? with
    | some n, some m => some (receive env s n i m)
    | _, _ => none
  | .lost e, s =>
    match s.node with
    | some n => some { s with node := some (onHeartbeat n (.error e)).2 }
    | none => none

/-- no coordinator, no message, no node -/
def Net.init (w : World) : Net := ⟨w.setStore .new, [], [], none⟩

/-- the states of runs from `s` -/
inductive Runs (env : Env) (s : Net) : Net → Prop where
  | refl : Runs env s s
  | step {s₁ s₂ : Net} (l : Label) (h : Runs env s s₁) (hn : s₁.next env l = some s₂) : Runs env s s₂

/-! ## what a step does to the node -/

/-- every epoch in flight, and the one of the node, was granted -/
structure Inv (s : Net) : Prop where
  sent : ∀ m ∈ s.sent, m.epoch ∈ s.granted
  node : ∀ n, s.node = some n → n.coordinatorEpoch ∈ s.granted

section
variable {env : Env} {s s' : Net} {n : NodeState}

theorem onRegister_epoch (n : NodeState) (r : Registry.NodeRegisterReply) :
    (onRegister n (.ok r)).2.coordinatorEpoch = n.coordinatorEpoch ∨
      n.coordinatorEpoch ≤ r.coordinatorEpoch ∧
        (onRegister n (.ok r)).2.coordinatorEpoch = r.coordinatorEpoch := by
  simp only [onRegister]
  split_ifs with hid hold
  · exact .inl rfl
  · exact .inl rfl
  · exact .inr ⟨Nat.le_of_not_lt hold, rfl⟩

theorem onHeartbeat_epoch (n : NodeState) (e : Nat) :
    (onHeartbeat n (.ok (some e))).2.coordinatorEpoch = n.coordinatorEpoch ∨
      n.coordinatorEpoch ≤ e ∧ (onHeartbeat n (.ok (some e))).2.coordinatorEpoch = e := by
  simp only [onHeartbeat]
  split_ifs with hold
  · exact .inl rfl
  · exact .inr ⟨Nat.le_of_not_lt hold, rfl⟩

/-- a message reaches the node: its epoch stays, or becomes the newer one of the message -/
theorem receive_node (env : Env) (s : Net) (n : NodeState) (hn : s.node = some n) (i : Input)
    (m : Message) : ∃ n', (receive env s n i m).node = some n' ∧
      (n'.coordinatorEpoch = n.coordinatorEpoch ∨
        n.coordinatorEpoch ≤ m.epoch ∧ n'.coordinatorEpoch = m.epoch) := by
  cases m with
  | registered r =>
    simp only [receive]
    split_ifs with hreg
    · exact ⟨n, hn, .inl rfl⟩
    · exact ⟨_, rfl, onRegister_epoch n r⟩
  | heartbeat e =>
    simp only [receive]
    split_ifs with hreg
    · exact ⟨_, rfl, onHeartbeat_epoch n e⟩
    · exact ⟨n, hn, .inl rfl⟩
  | operation method op => exact ⟨n, hn, .inl rfl⟩

theorem receive_rest (env : Env) (s : Net) (n : NodeState) (i : Input) (m : Message) :
    (receive env s n i m).sent = s.sent ∧ (receive env s n i m).granted = s.granted := by
  cases m with
  | registered r =>
    simp only [receive]
    split_ifs
    · exact ⟨rfl, rfl⟩
    · exact ⟨rfl, rfl⟩
  | heartbeat e =>
    simp only [receive]
    split_ifs
    · exact ⟨rfl, rfl⟩
    · exact ⟨rfl, rfl⟩
  | operation method op => exact ⟨rfl, rfl⟩

/-- one step keeps the invariant, and a node that runs does not fall back -/
theorem Inv.next {l : Label} (h : Inv s) (hn : s.next env l = some s') :
    Inv s' ∧ ∀ n, s.node = some n →
      ∃ n', s'.node = some n' ∧ n.coordinatorEpoch ≤ n'.coordinatorEpoch := by
  cases l with
  | authority c =>
    cases hn
    refine ⟨⟨?_, ?_⟩, fun n hn => ⟨n, hn, le_rfl⟩⟩
    · intro m hm
      exact List.mem_append_right _ (h.sent m hm)
    · intro n hn
      exact List.mem_append_right _ (h.node n hn)
  | send m =>
    simp only [Net.next] at hn
    split_ifs at hn with hg
    cases hn
    refine ⟨⟨?_, h.node⟩, fun n hn => ⟨n, hn, le_rfl⟩⟩
    intro m' hm'
    rcases List.mem_cons.mp hm' with rfl | hm'
    · exact hg
    · exact h.sent m' hm'
  | start nodeId backends k =>
    simp only [Net.next] at hn
    split at hn
    · next r hnone hr =>
      split_ifs at hn
      cases hn
      refine ⟨⟨h.sent, ?_⟩, ?_⟩
      · intro n hn
        cases hn
        exact h.sent (.registered r) (List.mem_of_getElem? hr)
      · intro n hn
        rw [hnone] at hn
        cases hn
    · cases hn
  | deliver k i =>
    simp only [Net.next] at hn
    split at hn
    · next n m hnode hm =>
      cases hn
      obtain ⟨n', hn', he⟩ := receive_node env s n hnode i m
      obtain ⟨hsent, hgranted⟩ := receive_rest env s n i m
      have hm := h.sent m (List.mem_of_getElem? hm)
      refine ⟨⟨?_, ?_⟩, ?_⟩
      · rw [hsent, hgranted]
        exact h.sent
      · intro x hx
        rw [hn'] at hx
        cases hx
        rw [hgranted]
        rcases he with he | ⟨_, he⟩
        · rw [he]
          exact h.node n hnode
        · rw [he]
          exact hm
      · intro x hx
        rw [hnode] at hx
        cases hx
        refine ⟨n', hn', ?_⟩
        rcases he with he | ⟨hle, he⟩
        · exact he.ge
        · rw [he]
          exact hle
    · cases hn
  | lost e =>
    simp only [Net.next] at hn
    split at hn
    · next n hnode =>
      cases hn
      refine ⟨⟨h.sent, ?_⟩, ?_⟩
      · intro x hx
        cases hx
        exact h.node n hnode
      · intro x hx
        rw [hnode] at hx
        cases hx
        exact ⟨_, rfl, le_rfl⟩
    · cases hn

theorem Runs.inv (h : Runs env s s') (hi : Inv s) : Inv s' := by
  induction h with
  | refl => exact hi
  | step l _ hn ih => exact (ih.next hn).1

theorem Runs.node (h : Runs env s s') (hi : Inv s) (hn : s.node = some n) :
    ∃ n', s'.node = some n' ∧ n.coordinatorEpoch ≤ n'.coordinatorEpoch := by
  induction h with
  | refl => exact ⟨n, hn, le_rfl⟩
  | step l h hnext ih =>
    obtain ⟨n₁, hn₁, hle₁⟩ := ih
    obtain ⟨n₂, hn₂, hle₂⟩ := ((h.inv hi).next hnext).2 n₁ hn₁
    exact ⟨n₂, hn₂, hle₁.trans hle₂⟩

theorem init_inv (w : World) : Inv (.init w) :=
  ⟨fun _ h => absurd h List.not_mem_nil, fun _ h => by cases h⟩

/-- Fencing over every run: from a state in which the node has accepted an epoch, its epoch never
falls back and is always one that was granted to a coordinator; a request with an epoch below the
accepted one is answered with a stale epoch and changes nothing; and a stale reply is refused and
leaves the epoch as it is. -/
theorem node_epoch_fencing (w : World) (h₀ : Runs env (.init w) s) (hn : s.node = some n)
    (h : Runs env s s') :
    ∃ n', s'.node = some n' ∧ n.coordinatorEpoch ≤ n'.coordinatorEpoch ∧
      n'.coordinatorEpoch ∈ s'.granted ∧
      (∀ (method : String) (op : NodeOperationRequest) (i : Input),
        op.coordinatorEpoch < n.coordinatorEpoch →
        handle env n' method op i s'.world =
          (.error (.staleEpoch n'.coordinatorEpoch op.coordinatorEpoch), s'.world)) ∧
      (∀ r : Registry.NodeRegisterReply, r.coordinatorEpoch < n'.coordinatorEpoch →
        ∃ e, (onRegister n' (.ok r)).1 = .error e ∧
          (onRegister n' (.ok r)).2.coordinatorEpoch = n'.coordinatorEpoch) ∧
      (∀ e : Nat, e < n'.coordinatorEpoch →
        (onHeartbeat n' (.ok (some e))).1 = .error (.staleEpoch n'.coordinatorEpoch e) ∧
          (onHeartbeat n' (.ok (some e))).2.coordinatorEpoch = n'.coordinatorEpoch) := by
  have hi := h₀.inv (init_inv w)
  obtain ⟨n', hn', hle⟩ := h.node hi hn
  refine ⟨n', hn', hle, (h.inv hi).node n' hn', ?_, ?_, ?_⟩
  · intro method op i hop
    have hne : op.coordinatorEpoch ≠ n'.coordinatorEpoch := by omega
    rw [handle, if_pos hne]
  · intro r hr
    simp only [onRegister]
    split_ifs
    · exact ⟨_, rfl, rfl⟩
    · exact ⟨_, rfl, rfl⟩
  · intro e he
    rw [onHeartbeat, if_pos he]
    exact ⟨rfl, rfl⟩

/-! ## a take-over -/

def Net.after (env : Env) : List Label → Net → Option Net
  | [], s => some s
  | l :: ls, s => (s.next env l).bind (Net.after env ls)

theorem Runs.trans {s₁ s₂ : Net} (h : Runs env s s₁) (h' : Runs env s₁ s₂) : Runs env s s₂ := by
  induction h' with
  | refl => exact h
  | step l _ hn ih => exact .step l ih hn

theorem Runs.of_after {ls : List Label} (h : s.after env ls = some s') : Runs env s s' := by
  induction ls generalizing s with
  | nil =>
    cases h
    exact .refl
  | cons l ls ih =>
    obtain ⟨s₁, h₁, h₂⟩ := Option.bind_eq_some_iff.mp h
    exact (Runs.step l .refl h₁).trans (ih h₂)

end

namespace Sample

def env : Env := ⟨fun _ => ⟨0⟩, .ok, .ok, fun _ => .ok [], fun _ => false⟩

/-- a payload on the disk of the node -/
def world : World where
  store := .new
  payloads := fun b k => if b = "n/disk" ∧ k = "key" then some [1, 2, 3] else none
  blobs := fun _ _ => none
  proc := .start ⟨"p", 0, 0, [], [], []⟩ 0 .nil
  issued := []

def disk : String × BackendInfo := ("n/disk", ⟨"memory", fun _ => .ok ()⟩)

/-- the node starts under a first coordinator; a second one takes over, and the node hears of it -/
def takenOver : List Label :=
  [.authority (.claim "a" .nil 1000 10000), .send (.registered ⟨"n@p@0", 1, 5000, 10000⟩),
    .start "n@p@0" [disk] 0, .authority (.claim "b" .nil 20000 10000), .send (.heartbeat 2),
    .deliver 0 {}]

/-- the deletion of that payload, ordered in an epoch -/
def deletion (epoch : Nat) : NodeOperationRequest := ⟨epoch, "n/disk", "key", none, none⟩

/-- the second coordinator would have the payload deleted -/
theorem takenOver_obeys : ((Net.init world).after env takenOver).any (fun s => s.node.any fun n =>
    decide (n.coordinatorEpoch = 2) && decide (s.world.payloads "n/disk" "key" = some [1, 2, 3]) &&
      decide ((handle env n "node.execute.delete" (deletion 2) {} s.world).2.payloads "n/disk"
        "key" = none)) = true := by
  decide

end Sample

/-- after a take-over the node refuses a deletion of the first coordinator, and the payload stays -/
theorem node_epoch_fencing_takeover :
    ∃ s n, (Net.init Sample.world).after Sample.env Sample.takenOver = some s ∧
      s.node = some n ∧ n.coordinatorEpoch = 2 ∧
      s.world.payloads "n/disk" "key" = some [1, 2, 3] ∧
      handle Sample.env n "node.execute.delete" (Sample.deletion 1) {} s.world =
        (.error (.staleEpoch 2 1), s.world) ∧
      (handle Sample.env n "node.execute.delete" (Sample.deletion 2) {} s.world).2.payloads
        "n/disk" "key" = none := by
  obtain ⟨s, hs, h⟩ := (Option.any_eq_true _ _).mp Sample.takenOver_obeys
  obtain ⟨n, hn, h⟩ := (Option.any_eq_true _ _).mp h
  rw [Bool.and_eq_true, Bool.and_eq_true, decide_eq_true_iff, decide_eq_true_iff,
    decide_eq_true_iff] at h
  obtain ⟨⟨he, hpayload⟩, hnew⟩ := h
  obtain ⟨n', hn', _, _, hstale, _⟩ :=
    node_epoch_fencing Sample.world (Runs.of_after hs) hn .refl
  rw [hn] at hn'
  cases hn'
  have hold : (Sample.deletion 1).coordinatorEpoch < n.coordinatorEpoch := by
    rw [he]
    decide
  have hrefused := hstale "node.execute.delete" (Sample.deletion 1) {} hold
  rw [he] at hrefused
  exact ⟨s, n, hs, hn, he, hpayload, hrefused, hnew⟩

end Fencing

end ReclaimFabric
