import ReclaimFabric.Model.Coordinator.Core
import ReclaimFabric.Nodes.Fencing
import ReclaimFabric.Persistence.Decode
import ReclaimFabric.Wire.Session

/-!
# A payload operation on a node

The coordinator has its payload operations on a node's backends done over a connection of their
own (`node_operation`); the node checks the caller's epoch and answers with a reply record.

* `NodeOperationRequest`, `NodeOperationReply`   the records, payloads and hashes in their texts;
* `executeOperation`, `buildHandler`   the node, on the records;
* `nodeOperationResult`     the end of `Coordinator::node_operation`;
* `storeAnswer`, `readAnswer`, `deleteAnswer`, `existsAnswer`   what the coordinator makes of it;
* `executeOperation_decoded`   the records carry the operation of `Fencing`, and that one is the
                            operation of the coordinator's model (`execute_default`);
* `node_operation_refines`  over every run of a connection, the call is a step of the command
                            `Cmd.node` of that model.
-/

namespace ReclaimFabric

namespace Operation

open Fencing (OpKind NodeState opKind)

structure NodeOperationRequest where
  objectId : Uuid
  generation : Nat
  replicaId : Uuid
  attemptId : Option Uuid
  coordinatorEpoch : Nat
  backend : String
  key : String
  payloadB64 : Option String
  expectedHash : Option String
  codec : Option String

structure NodeOperationReply where
  ok : Bool
  size : Option Nat
  /-- base64: the hash of a payload that was stored, or a payload that was read -/
  resultHash : Option String
  existed : Bool
  error : Option WireError

/-- the JSON of the records, and base64, of which a text is read back as the bytes it was made of -/
structure Codec where
  requestValue : NodeOperationRequest → Except String Json
  readRequest : Json → Except String NodeOperationRequest
  replyValue : NodeOperationReply → Except String Json
  readReply : Json → Except String NodeOperationReply
  encode : Bytes → String
  decode : String → Except String Bytes
  decode_encode : ∀ l, decode (encode l) = .ok l

theorem Codec.encode_inj {codec : Codec} {l l' : Bytes} (h : codec.encode l = codec.encode l') :
    l = l' := by
  have hl := codec.decode_encode l
  rw [h, codec.decode_encode l'] at hl
  exact (Except.ok.inj hl).symm

/-- the bytes of a hash -/
def hashBytes (h : ContentHash) : Bytes := toBe 32 h.bits

section
variable (codec : Codec)

/-- `decode_b64` of the node, `decode_base64` of the coordinator -/
def decodeB64 (s : String) : Res Bytes :=
  match codec.decode s with
  | .ok d => .ok d
  | .error text => .error (.protocol s!"bad base64: {text}")

/-! ## the node -/

def NodeOperationReply.failed (e : ReclaimError) : NodeOperationReply :=
  ⟨false, none, none, false, some (.ofError e)⟩

section
variable (env : Env) (info : BackendInfo) (op : NodeOperationRequest) (i : Input)

/-- the closure `store_result` -/
def storeResult (data : Bytes) (w : World) : Res (Nat × String) × World :=
  match op.expectedHash with
  | none => (.error (.protocol "store without expected hash"), w)
  | some text =>
    match ContentHash.fromHex text with
    | .error e => (.error e, w)
    | .ok expected =>
      match env.verifySha256 data expected with
      | .error e => (.error e, w)
      | .ok () =>
        match execPut (.ok info) op.backend op.key data i w with
        | (.error e, w₁) => (.error e, w₁)
        | (.ok size, w₁) =>
          if size ≠ data.length then
            (.error (.backend
              s!"backend reported storing {size} bytes, expected {data.length}"), w₁)
          else
            match execGet (.ok info) op.backend op.key i w₁ with
            | (.error e, w₂) => (.error e, w₂)
            | (.ok stored, w₂) =>
              match env.verifySha256 stored expected with
              | .error e => (.error e, w₂)
              | .ok () => (.ok (size, codec.encode (hashBytes expected)), w₂)

/-- `execute_operation` on a backend the node has -/
def executeOn (w : World) : OpKind → NodeOperationReply × World
  | .store =>
    match op.payloadB64.map (decodeB64 codec) with
    | some (.error e) => (.failed e, w)
    | none => (.failed (.protocol "store without payload"), w)
    | some (.ok data) =>
      match storeResult codec env info op i data w with
      | (.ok (size, hash), w₁) => (⟨true, some size, some hash, false, none⟩, w₁)
      | (.error e, w₁) =>
        match execDelete (.ok info) op.backend op.key i w₁ with
        | (.ok (), w₂) => (.failed e, w₂)
        | (.error c, w₂) =>
          (.failed (.internal s!"node store failed ({e}); cleanup also failed ({c})"), w₂)
  | .read =>
    match execGet (.ok info) op.backend op.key i w with
    | (.error e, w₁) => (.failed e, w₁)
    | (.ok d, w₁) => (⟨true, some d.length, some (codec.encode d), true, none⟩, w₁)
  | .delete =>
    match execDelete (.ok info) op.backend op.key i w with
    | (.error e, w₁) => (.failed e, w₁)
    | (.ok (), w₁) => (⟨true, none, none, false, none⟩, w₁)
  | .exists_ =>
    match execExists (.ok info) op.backend op.key i w with
    | (.error e, w₁) => (.failed e, w₁)
    | (.ok x, w₁) => (⟨true, none, none, x, none⟩, w₁)
  | .verify =>
    match op.expectedHash.bind fun h => (ContentHash.fromHex h).toOption with
    | none => (⟨false, none, none, true,
        some (.ofError (.protocol "verify without expected hash"))⟩, w)
    | some expected =>
      match execGet (.ok info) op.backend op.key i w with
      | (.error e, w₁) => (⟨false, none, none, true, some (.ofError e)⟩, w₁)
      | (.ok d, w₁) =>
        match env.verifySha256 d expected with
        | .error e => (⟨false, none, none, true, some (.ofError e)⟩, w₁)
        | .ok () => (⟨true, none, none, true, none⟩, w₁)

def executeOperation (n : NodeState) (kind : OpKind) (w : World) : NodeOperationReply × World :=
  match n.backends.find? (fun e => decide (e.1 = op.backend)) with
  | none => (.failed (.backend ("unknown backend " ++ op.backend)), w)
  | some e => executeOn codec env e.2 op i w kind

end

/-- the node's request handler -/
def buildHandler (env : Env) (n : NodeState) (q : Request) (i : Input) (w : World) :
    Reply × World :=
  match codec.readRequest q.payload with
  | .error text => (.err q.id (.protocol s!"bad node operation: {text}"), w)
  | .ok op =>
    if op.coordinatorEpoch ≠ n.coordinatorEpoch then
      (.err q.id (.staleEpoch n.coordinatorEpoch op.coordinatorEpoch), w)
    else
      match opKind q.method with
      | none => (.err q.id (.protocol s!"unknown node operation {q.method}"), w)
      | some kind =>
        let r := executeOperation codec env op i n kind w
        match codec.replyValue r.1 with
        | .ok value => (.success q.id value, r.2)
        | .error text =>
          (.err q.id (.internal s!"failed to serialize node operation reply: {text}"), r.2)

/-! ## the coordinator -/

/-- the request of `write_payload_to`, `read_payload`, `delete_payload` and `payload_exists` -/
def request (epoch : Nat) (b k : String) (op : NodeOp) : NodeOperationRequest where
  objectId := .nil
  generation := 0
  replicaId := .nil
  attemptId := none
  coordinatorEpoch := epoch
  backend := b
  key := k
  payloadB64 :=
    match op with
    | .store data _ => some (codec.encode data)
    | _ => none
  expectedHash :=
    match op with
    | .store _ expected => some expected.text
    | _ => none
  codec := none

def method : NodeOp → String
  | .store _ _ => "node.execute.store"
  | .read => "node.execute.read"
  | .delete => "node.execute.delete"
  | .exists_ => "node.execute.exists"

/-- `node_operation`, from the reply that `Client::call` returned -/
def nodeOperationResult (r : Reply) : Res NodeOperationReply :=
  match r.intoResult r.id with
  | .error e => .error e
  | .ok value =>
    match codec.readReply value with
    | .error text => .error (.internal s!"json: {text}")
    | .ok reply => .ok reply

/-- the error of a reply that is not ok -/
def replyError (r : NodeOperationReply) (message : String) : ReclaimError :=
  (r.error.map WireError.toError).getD (.backend message)

/-- the checks of `write_payload_to` -/
def storeAnswer (data : Bytes) (expected : ContentHash) (r : NodeOperationReply) : Res Unit :=
  if !r.ok then .error (replyError r "node store failed")
  else if r.size ≠ some data.length then
    .error (.protocol ("node store returned size " ++ Store.showOption r.size ++
      ", expected " ++ toString data.length))
  else if r.resultHash ≠ some (codec.encode (hashBytes expected)) then
    .error (.protocol "node store returned a mismatched content hash")
  else .ok ()

def readAnswer (r : NodeOperationReply) : Res Bytes :=
  if !r.ok then .error (replyError r "node read failed")
  else
    match r.resultHash with
    | none => .error (.protocol "node read returned no payload")
    | some b64 => decodeB64 codec b64

def deleteAnswer (r : NodeOperationReply) : Res Unit :=
  if !r.ok then .error (replyError r "node delete failed") else .ok ()

def existsAnswer (r : NodeOperationReply) : Res Bool :=
  if !r.ok then .error (replyError r "node exists failed") else .ok r.existed

end

/-! ## the records and what they carry -/

/-- the texts of a request carry the fields that the node model reads -/
structure Carries (codec : Codec) (op : NodeOperationRequest) (f : Fencing.NodeOperationRequest) :
    Prop where
  epoch : op.coordinatorEpoch = f.coordinatorEpoch
  backend : op.backend = f.backend
  key : op.key = f.key
  payload : op.payloadB64 = f.payload.map codec.encode
  expectedHash : op.expectedHash = f.expectedHash.map ContentHash.text

/-- the reply of the model in its texts -/
def encodeReply (codec : Codec) (r : NodeReply) : NodeOperationReply where
  ok := r.ok
  size := r.size
  resultHash :=
    (r.resultHash.map fun h => codec.encode (hashBytes h)).or (r.payload.map codec.encode)
  existed := r.existed
  error := r.error.map .ofError

theorem hashBytes_inj {g h : ContentHash} (e : hashBytes g = hashBytes h) : g = h := by
  have hlt : ∀ c : ContentHash, (c.bits : Nat) < 256 ^ 32 := fun c =>
    lt_of_lt_of_eq c.bits.isLt (Nat.pow_mul 2 8 32)
  have hbits := congrArg ofBe e
  rw [hashBytes, hashBytes, ofBe_toBe (hlt g), ofBe_toBe (hlt h)] at hbits
  exact congrArg ContentHash.mk (Fin.ext hbits)

section
variable {codec : Codec} {env : Env} {op : NodeOperationRequest} {f : Fencing.NodeOperationRequest}
  {i : Input}

theorem decodeB64_encode (l : Bytes) : decodeB64 codec (codec.encode l) = .ok l := by
  rw [decodeB64, codec.decode_encode]

theorem storeResult_carried (h : Carries codec op f) (info : BackendInfo) (data : Bytes) (w : World) :
    storeResult codec env info op i data w =
      ((Fencing.storeResult env info f i data w).1.map fun p =>
          (p.1, codec.encode (hashBytes p.2)),
        (Fencing.storeResult env info f i data w).2) := by
  unfold storeResult Fencing.storeResult
  rw [h.expectedHash, h.backend, h.key]
  cases f.expectedHash with
  | none => rfl
  | some expected =>
    simp only [Option.map_some, ContentHash.fromHex_text]
    cases env.verifySha256 data expected with
    | error e => rfl
    | ok u =>
      dsimp only
      rcases execPut (.ok info) f.backend f.key data i w with ⟨e | size, w₁⟩
      · rfl
      by_cases hsize : size ≠ data.length
      · simp only [if_pos hsize]
        rfl
      simp only [if_neg hsize]
      rcases execGet (.ok info) f.backend f.key i w₁ with ⟨e | stored, w₂⟩
      · rfl
      dsimp only
      cases env.verifySha256 stored expected with
      | error e => rfl
      | ok u => rfl

/-- the texts are read back: the node does what the model of the node does -/
theorem executeOperation_carried (h : Carries codec op f) (n : NodeState) (kind : OpKind) (w : World) :
    executeOperation codec env op i n kind w =
      (encodeReply codec (Fencing.execute env n f kind i w).1,
        (Fencing.execute env n f kind i w).2) := by
  unfold executeOperation Fencing.execute
  rw [h.backend]
  cases n.backends.find? (fun e => decide (e.1 = f.backend)) with
  | none => rfl
  | some e =>
    dsimp only
    cases kind with
    | store =>
      simp only [executeOn, Fencing.executeOn, h.payload]
      cases f.payload with
      | none => rfl
      | some data =>
        simp only [Option.map_some, decodeB64_encode, storeResult_carried h, h.backend, h.key]
        rcases Fencing.storeResult env e.2 f i data w with ⟨x | ⟨size, hash⟩, w₁⟩
        · dsimp only [Except.map]
          rcases execDelete (.ok e.2) f.backend f.key i w₁ with ⟨c | _, w₂⟩
          · rfl
          · rfl
        · rfl
    | read =>
      simp only [executeOn, Fencing.executeOn, h.backend, h.key]
      rcases execGet (.ok e.2) f.backend f.key i w with ⟨x | d, w₁⟩
      · rfl
      · rfl
    | delete =>
      simp only [executeOn, Fencing.executeOn, h.backend, h.key]
      rcases execDelete (.ok e.2) f.backend f.key i w with ⟨x | _, w₁⟩
      · rfl
      · rfl
    | exists_ =>
      simp only [executeOn, Fencing.executeOn, h.backend, h.key]
      rcases execExists (.ok e.2) f.backend f.key i w with ⟨x | x, w₁⟩
      · rfl
      · rfl
    | verify =>
      simp only [executeOn, Fencing.executeOn, h.backend, h.key, h.expectedHash]
      cases f.expectedHash with
      | none => rfl
      | some expected =>
        simp only [Option.map_some, Option.bind_some, ContentHash.fromHex_text,
          Except.toOption]
        rcases execGet (.ok e.2) f.backend f.key i w with ⟨x | d, w₁⟩
        · rfl
        dsimp only
        cases env.verifySha256 d expected with
        | error x => rfl
        | ok u => rfl

end

/-! ## the operation of the coordinator's model -/

/-- the fields of `request` that a node reads -/
def fields (epoch : Nat) (b k : String) (op : NodeOp) : Fencing.NodeOperationRequest where
  coordinatorEpoch := epoch
  backend := b
  key := k
  payload :=
    match op with
    | .store data _ => some data
    | _ => none
  expectedHash :=
    match op with
    | .store _ expected => some expected
    | _ => none

def kind : NodeOp → OpKind
  | .store _ _ => .store
  | .read => .read
  | .delete => .delete
  | .exists_ => .exists_

theorem carries_request (codec : Codec) (epoch : Nat) (b k : String) (op : NodeOp) :
    Carries codec (request codec epoch b k op) (fields epoch b k op) := by
  cases op <;> exact ⟨rfl, rfl, rfl, rfl, rfl⟩

theorem opKind_method (op : NodeOp) : opKind (method op) = some (kind op) := by
  cases op <;> rfl

section
variable {env : Env} {n : NodeState} {info : NodeInfo} {nid b k : String} {op : NodeOp}
  {w : World} {epoch : Nat}

theorem onBackend_accepted {α : Type} {inf : BackendInfo} (hk : inf.accepts k = .ok ())
    (f : Res α × World) : onBackend (.ok inf) k w f = f := by
  rw [onBackend, hk]

/-- on a backend that works and takes the key, put, checks and clean-up come to one step -/
theorem executeOn_default {inf : BackendInfo} (hk : inf.accepts k = .ok ()) :
    Fencing.executeOn env inf (fields epoch b k op) {} w (kind op) =
      ReclaimFabric.executeOperation env (.ok inf) b k w op := by
  cases op with
  | read => rfl
  | delete => rfl
  | exists_ => rfl
  | store data expected =>
    have hput : execPut (.ok inf) b k data {} w = (.ok data.length, w.setPayload b k (some data)) :=
      onBackend_accepted hk _
    have hget : execGet (.ok inf) b k {} (w.setPayload b k (some data)) =
        (.ok data, w.setPayload b k (some data)) := by
      rw [execGet, onBackend_accepted hk]
      simp [World.setPayload]
    have hdel : execDelete (.ok inf) b k {} w = (.ok (), w.setPayload b k none) :=
      onBackend_accepted hk _
    simp only [Fencing.executeOn, fields, kind, Fencing.storeResult,
      ReclaimFabric.executeOperation, hk]
    cases hsum : env.verifySha256 data expected with
    | error e => simp only [hdel]
    | ok u => simp [hput, hget, hsum]

theorem nodeBackend_none (hn : w.proc.config.nodes.find? (fun m => decide (m.nodeId = nid)) =
      some info) (hb : n.backends = info.backends)
    (hf : n.backends.find? (fun e => decide (e.1 = b)) = none) :
    w.proc.config.nodeBackend nid b = .error (.backend ("unknown backend " ++ b)) := by
  simp only [Config.nodeBackend, hn, ← hb, hf]

theorem nodeBackend_some {e : String × BackendInfo}
    (hn : w.proc.config.nodes.find? (fun m => decide (m.nodeId = nid)) = some info)
    (hb : n.backends = info.backends)
    (hf : n.backends.find? (fun e => decide (e.1 = b)) = some e) :
    w.proc.config.nodeBackend nid b = .ok e.2 := by
  simp only [Config.nodeBackend, hn, ← hb, hf]

theorem execute_default (hn : w.proc.config.nodes.find? (fun m => decide (m.nodeId = nid)) =
      some info) (hb : n.backends = info.backends)
    (hk : ∀ e ∈ n.backends, e.1 = b → e.2.accepts k = .ok ()) :
    Fencing.execute env n (fields epoch b k op) (kind op) {} w =
      ReclaimFabric.executeOperation env (w.proc.config.nodeBackend nid b) b k w op := by
  cases hf : n.backends.find? (fun e => decide (e.1 = b)) with
  | none =>
    have hfind : n.backends.find? (fun e => decide (e.1 = (fields epoch b k op).backend)) = none :=
      hf
    rw [nodeBackend_none hn hb hf, Fencing.execute, hfind]
    cases op <;> rfl
  | some e =>
    have hfind : n.backends.find? (fun e => decide (e.1 = (fields epoch b k op).backend)) = some e :=
      hf
    have hkey : decide (e.1 = b) = true := by simpa using List.find?_some hf
    rw [nodeBackend_some hn hb hf, Fencing.execute, hfind]
    exact executeOn_default (hk e (List.mem_of_find?_eq_some hf) (of_decide_eq_true hkey))

end

/-! ## what the coordinator's model makes of a reply -/

def modelStore (data : Bytes) (expected : ContentHash) (r : NodeReply) : Res Unit :=
  if !r.ok then .error (Coordinator.replyError r "node store failed")
  else if r.size ≠ some data.length then
    .error (.protocol ("node store returned size " ++ Store.showOption r.size ++
      ", expected " ++ toString data.length))
  else if r.resultHash ≠ some expected then
    .error (.protocol "node store returned a mismatched content hash")
  else .ok ()

def modelRead (r : NodeReply) : Res Bytes :=
  if !r.ok then .error (Coordinator.replyError r "node read failed")
  else
    match r.payload with
    | none => .error (.protocol "node read returned no payload")
    | some d => .ok d

def modelDelete (r : NodeReply) : Res Unit :=
  if !r.ok then .error (Coordinator.replyError r "node delete failed") else .ok ()

def modelExists (r : NodeReply) : Res Bool :=
  if !r.ok then .error (Coordinator.replyError r "node exists failed") else .ok r.existed

section
open Prog (settle)
open Coordinator (nodeForBackend lookupBackend nodeOperation)

/-- the coordinator's model, with its answers named -/
theorem readPayload_eq (b k : String) : Coordinator.readPayload b k = (do
    match ← nodeForBackend b with
    | none => do
      let _ ← lookupBackend b
      Coordinator.get b k
    | some nid => do
      let reply ← nodeOperation nid b k .read
      settle (modelRead reply)) := by
  unfold Coordinator.readPayload
  congr
  funext x
  cases x with
  | none => rfl
  | some nid =>
    dsimp only
    congr
    funext reply
    unfold modelRead
    cases hok : reply.ok with
    | false => rfl
    | true =>
      cases hp : reply.payload with
      | none => rfl
      | some d => rfl

theorem deletePayload_eq (b k : String) : Coordinator.deletePayload b k = (do
    match ← nodeForBackend b with
    | none => do
      let _ ← lookupBackend b
      Coordinator.delete b k
    | some nid => do
      let reply ← nodeOperation nid b k .delete
      settle (modelDelete reply)) := by
  unfold Coordinator.deletePayload
  congr
  funext x
  cases x with
  | none => rfl
  | some nid =>
    dsimp only
    congr
    funext reply
    unfold modelDelete
    cases hok : reply.ok with
    | false => rfl
    | true => rfl

theorem payloadExists_eq (b k : String) : Coordinator.payloadExists b k = (do
    match ← nodeForBackend b with
    | none => do
      let _ ← lookupBackend b
      Coordinator.exists_ b k
    | some nid => do
      let reply ← nodeOperation nid b k .exists_
      settle (modelExists reply)) := by
  unfold Coordinator.payloadExists
  congr
  funext x
  cases x with
  | none => rfl
  | some nid =>
    dsimp only
    congr
    funext reply
    unfold modelExists
    cases hok : reply.ok with
    | false => rfl
    | true => rfl

theorem writeResult_eq (env : Env) (b k : String) (data : Bytes) :
    Coordinator.writeResult env b k data = (do
      match ← nodeForBackend b with
      | none => do
        let _ ← lookupBackend b
        let size ← Coordinator.put b k data
        if size ≠ data.length then
          pure (.error (.backend
            s!"backend {b} reported storing {size} bytes, expected {data.length}"))
        else
          let stored ← Coordinator.get b k
          pure (env.verifySha256 stored (env.sha256 data))
      | some nid => do
        let reply ← nodeOperation nid b k (.store data (env.sha256 data))
        pure (modelStore data (env.sha256 data) reply)) := by
  unfold Coordinator.writeResult
  dsimp only
  congr
  funext x
  cases x with
  | none => rfl
  | some nid =>
    dsimp only
    congr
    funext reply
    unfold modelStore
    cases hok : reply.ok with
    | false => rfl
    | true =>
      by_cases hsize : reply.size ≠ some data.length
      · simp [hsize]
      · by_cases hhash : reply.resultHash ≠ some (env.sha256 data)
        · simp [hsize, hhash]
        · simp [hsize, hhash]

end

/-- the answers to a reply record and to the reply it encodes -/
def Agrees (codec : Codec) (x : NodeOperationReply) (y : NodeReply) : NodeOp → Prop
  | .store data expected => storeAnswer codec data expected x = modelStore data expected y
  | .read => readAnswer codec x = modelRead y
  | .delete => deleteAnswer x = modelDelete y
  | .exists_ => existsAnswer x = modelExists y

/-- the replies of the model's node: a hash for a store, a payload for a read, and errors that
cross the wire -/
structure Proper (y : NodeReply) (op : NodeOp) : Prop where
  payload : (∃ data expected, op = .store data expected) → y.payload = none
  hash : op = .read → y.resultHash = none
  error : ∀ e, y.error = some e → Wireable e

section
variable {codec : Codec} {env : Env} {y : NodeReply} {op : NodeOp}

theorem replyError_encode (h : ∀ e, y.error = some e → Wireable e) (message : String) :
    replyError (encodeReply codec y) message = Coordinator.replyError y message := by
  unfold replyError Coordinator.replyError encodeReply
  cases he : y.error with
  | none => rfl
  | some e => exact hop_eq (h e he)

theorem Proper.agrees (h : Proper y op) : Agrees codec (encodeReply codec y) y op := by
  have hfail := @replyError_encode codec y h.error
  cases op with
  | store data expected =>
    show storeAnswer codec data expected (encodeReply codec y) = modelStore data expected y
    have hp := h.payload ⟨data, expected, rfl⟩
    have hhash : (encodeReply codec y).resultHash = y.resultHash.map fun g =>
        codec.encode (hashBytes g) := by
      show (y.resultHash.map _).or (y.payload.map _) = _
      rw [hp, Option.map_none, Option.or_none]
    have hiff : (encodeReply codec y).resultHash ≠ some (codec.encode (hashBytes expected)) ↔
        y.resultHash ≠ some expected := by
      rw [hhash, not_iff_not]
      cases y.resultHash with
      | none => simp
      | some g =>
        constructor
        · intro hg
          exact congrArg some (hashBytes_inj (codec.encode_inj (Option.some.inj hg)))
        · intro hg
          rw [Option.some.inj hg, Option.map_some]
    unfold storeAnswer modelStore
    rw [hfail]
    simp only [hiff]
    rfl
  | read =>
    show readAnswer codec (encodeReply codec y) = modelRead y
    have hhash : (encodeReply codec y).resultHash = y.payload.map codec.encode := by
      show (y.resultHash.map _).or (y.payload.map _) = _
      rw [h.hash rfl, Option.map_none, Option.none_or]
    unfold readAnswer modelRead
    rw [hfail, hhash]
    cases y.payload with
    | none => rfl
    | some d =>
      rw [Option.map_some]
      dsimp only
      rw [decodeB64_encode]
      rfl
  | delete =>
    show deleteAnswer (encodeReply codec y) = modelDelete y
    unfold deleteAnswer modelDelete
    rw [hfail]
    rfl
  | exists_ =>
    show existsAnswer (encodeReply codec y) = modelExists y
    unfold existsAnswer modelExists
    rw [hfail]
    rfl

theorem proper_failed {e : ReclaimError} (h : Wireable e) : Proper (.failed e) op :=
  ⟨fun _ => rfl, fun _ => rfl, fun e' he => by cases he; exact h⟩

end

/-! ## one call -/

/-- a call of `node_operation` for `op` in the world `w`: the node is the registered one, its
backend takes the key, and the JSON of the two records is read back -/
structure Called (codec : Codec) (env : Env) (n : NodeState) (nid b k : String) (op : NodeOp)
    (w : World) (v : Json) : Prop where
  node : ∃ info, w.proc.config.nodes.find? (fun m => decide (m.nodeId = nid)) = some info ∧
    n.backends = info.backends
  accepts : ∀ e ∈ n.backends, e.1 = b → e.2.accepts k = .ok ()
  epochs : n.coordinatorEpoch < 2 ^ 64 ∧ w.proc.epoch < 2 ^ 64
  value : codec.requestValue (request codec w.proc.epoch b k op) = .ok v
  request_read : codec.readRequest v = .ok (request codec w.proc.epoch b k op)
  reply_read : ∀ u r, codec.replyValue r = .ok u →
    r = encodeReply codec
      (ReclaimFabric.executeOperation env (w.proc.config.nodeBackend nid b) b k w op).1 →
    codec.readReply u = .ok r

/-- the result of the command and the result of the call -/
def Same (codec : Codec) (op : NodeOp) : Res NodeReply → Res NodeOperationReply → Prop
  | .ok y, .ok x => x = encodeReply codec y ∧ Agrees codec x y op
  | .error e, .error e' => e = e'
  | _, _ => False

/-- the handler of the node, as the other end of the connection sees it -/
def answers (codec : Codec) (env : Env) (n : NodeState) (w : World) (q : Request) (r : Reply) :
    Prop := r = (buildHandler codec env n q {} w).1

/-- the world when the connection is done with -/
def worldAfter (codec : Codec) (env : Env) (n : NodeState) (w : World) (s : Session) : World :=
  match s.handled with
  | [] => w
  | p :: _ => (buildHandler codec env n p.1 {} w).2

section
variable {codec : Codec} {env : Env} {n : NodeState} {nid b k : String} {op : NodeOp} {w : World}
  {v : Json} {q : Request}

theorem Called.proper (h : Called codec env n nid b k op w v) :
    Proper (ReclaimFabric.executeOperation env (w.proc.config.nodeBackend nid b) b k w op).1
      op := by
  obtain ⟨info, hn, hb⟩ := h.node
  cases hf : n.backends.find? (fun e => decide (e.1 = b)) with
  | none =>
    rw [nodeBackend_none hn hb hf]
    cases op <;> exact proper_failed trivial
  | some e =>
    rw [nodeBackend_some hn hb hf]
    have hkey : decide (e.1 = b) = true := by simpa using List.find?_some hf
    have hk := h.accepts e (List.mem_of_find?_eq_some hf) (of_decide_eq_true hkey)
    cases op with
    | store data expected =>
      simp only [ReclaimFabric.executeOperation, hk, Env.verifySha256]
      by_cases hsum : env.sha256 data = expected
      · rw [if_pos hsum]
        exact ⟨fun _ => rfl, (fun hc => by cases hc), fun _ he => by cases he⟩
      · rw [if_neg hsum]
        exact proper_failed trivial
    | read =>
      simp only [ReclaimFabric.executeOperation, execGet, onBackend_accepted hk]
      cases w.payloads b k with
      | none => exact proper_failed trivial
      | some d =>
        refine ⟨?_, fun _ => rfl, fun _ he => by cases he⟩
        rintro ⟨data, expected, hc⟩
        cases hc
    | delete =>
      simp only [ReclaimFabric.executeOperation, execDelete, onBackend_accepted hk]
      exact ⟨fun _ => rfl, fun _ => rfl, fun _ he => by cases he⟩
    | exists_ =>
      simp only [ReclaimFabric.executeOperation, execExists, onBackend_accepted hk]
      exact ⟨fun _ => rfl, fun _ => rfl, fun _ he => by cases he⟩

/-- what the node's handler does with the request of the call -/
theorem Called.handler (h : Called codec env n nid b k op w v) (hm : q.method = method op)
    (hv : q.payload = v) :
    buildHandler codec env n q {} w =
      if w.proc.epoch ≠ n.coordinatorEpoch then
        (.err q.id (.staleEpoch n.coordinatorEpoch w.proc.epoch), w)
      else
        let r := ReclaimFabric.executeOperation env (w.proc.config.nodeBackend nid b) b k w op
        match codec.replyValue (encodeReply codec r.1) with
        | .ok value => (.success q.id value, r.2)
        | .error text =>
          (.err q.id (.internal s!"failed to serialize node operation reply: {text}"), r.2) := by
  obtain ⟨info, hn, hb⟩ := h.node
  have hexec := @executeOperation_carried codec env _ _ {} (carries_request codec w.proc.epoch b k op)
    n (kind op) w
  rw [execute_default hn hb h.accepts] at hexec
  unfold buildHandler
  rw [hv, h.request_read]
  dsimp only
  by_cases he : w.proc.epoch ≠ n.coordinatorEpoch
  · rw [if_pos he]
    exact if_pos he
  · rw [if_neg he, hm, opKind_method]
    refine (if_neg he).trans ?_
    dsimp only
    rw [hexec]

/-- the call fails: the command fails, before or after its effect -/
theorem Called.fails (h : Called codec env n nid b k op w v) (hm : q.method = method op)
    (hv : q.payload = v) (e : ReclaimError) : ∃ i : Input, i.nodeReply = none ∧
      execNode env nid b k op i w = (.error e, (buildHandler codec env n q {} w).2) := by
  rw [h.handler hm hv]
  by_cases he : w.proc.epoch ≠ n.coordinatorEpoch
  · rw [if_pos he]
    exact ⟨{ fault := some e }, rfl, rfl⟩
  · rw [if_neg he]
    refine ⟨{ fault := some e, applied := true }, rfl, ?_⟩
    dsimp only
    split <;> rfl

/-- the reply of the handler is taken: it is the reply of the command, or the command failed -/
theorem Called.answered (h : Called codec env n nid b k op w v) (hm : q.method = method op)
    (hv : q.payload = v) : ∃ i : Input, i.nodeReply = none ∧ ∃ y,
      execNode env nid b k op i w = (y, (buildHandler codec env n q {} w).2) ∧
        Same codec op y (nodeOperationResult codec (buildHandler codec env n q {} w).1) := by
  have hfails := h.fails hm hv
  rw [h.handler hm hv] at hfails ⊢
  by_cases he : w.proc.epoch ≠ n.coordinatorEpoch
  · rw [if_pos he] at hfails ⊢
    obtain ⟨i, hi, hexec⟩ := hfails (.staleEpoch n.coordinatorEpoch w.proc.epoch)
    refine ⟨i, hi, _, hexec, ?_⟩
    dsimp only
    have herr : (Reply.err q.id (.staleEpoch n.coordinatorEpoch w.proc.epoch)).intoResult q.id =
        .error (.staleEpoch n.coordinatorEpoch w.proc.epoch) := Reply.intoResult_err h.epochs
    unfold nodeOperationResult
    rw [show (Reply.err q.id (.staleEpoch n.coordinatorEpoch w.proc.epoch)).id = q.id from rfl,
      herr]
    rfl
  · rw [if_neg he] at hfails ⊢
    dsimp only at hfails ⊢
    cases hu : codec.replyValue (encodeReply codec (ReclaimFabric.executeOperation env
        (w.proc.config.nodeBackend nid b) b k w op).1) with
    | error text =>
      rw [hu] at hfails
      obtain ⟨i, hi, hexec⟩ := hfails
        (.internal s!"failed to serialize node operation reply: {text}")
      refine ⟨i, hi, _, hexec, ?_⟩
      have herr : (Reply.err q.id (.internal
          s!"failed to serialize node operation reply: {text}")).intoResult q.id =
          .error (.internal s!"failed to serialize node operation reply: {text}") :=
        Reply.intoResult_err trivial
      unfold nodeOperationResult
      dsimp only
      rw [show (Reply.err q.id (.internal
        s!"failed to serialize node operation reply: {text}")).id = q.id from rfl, herr]
      rfl
    | ok u =>
      refine ⟨{}, rfl, _, rfl, ?_⟩
      unfold nodeOperationResult
      dsimp only
      rw [show (Reply.success q.id u).id = q.id from rfl, Reply.intoResult_success]
      dsimp only
      rw [h.reply_read u _ hu rfl]
      exact ⟨rfl, h.proper.agrees⟩

end

/-! ## over a connection -/

section
variable {wire : Wire} {codec : Codec} {env : Env} {n : NodeState} {nid b k : String}
  {op : NodeOp} {w : World} {v : Json} {s : Session}

/-- a reply that does not fit into a frame comes back as a refusal -/
theorem received_cases (r : Reply) : wire.received r = r ∨
    wire.received r = .err r.id (.protocol "reply payload too large") := by
  unfold Wire.received
  cases ho : wire.outgoing r with
  | error e => exact .inl rfl
  | ok o =>
    cases o with
    | none => exact .inl rfl
    | some p =>
      obtain ⟨r', c⟩ := p
      unfold Wire.outgoing at ho
      cases hb : wire.replyBytes r with
      | error text =>
        rw [hb] at ho
        cases ho
      | ok bytes =>
        rw [hb] at ho
        dsimp only at ho
        split at ho
        · split at ho
          · cases ho
          · cases ho
            exact .inr rfl
        · cases ho
          exact .inl rfl

theorem result_refused (codec : Codec) (r : Reply) :
    nodeOperationResult codec (.err r.id (.protocol "reply payload too large")) =
      .error (.protocol "reply payload too large") := by
  have herr : (Reply.err r.id (.protocol "reply payload too large")).intoResult r.id =
      .error (.protocol "reply payload too large") := Reply.intoResult_err trivial
  unfold nodeOperationResult
  rw [show (Reply.err r.id (.protocol "reply payload too large")).id = r.id from rfl, herr]

theorem issued_le (h : Session.Reach wire (answers codec env n w) s) :
    s.issued.length ≤ s.calls := by
  induction h with
  | refl => exact le_refl 0
  | tail _ hs ih =>
    cases hs with
    | callRefused => exact Nat.le_succ_of_le ih
    | call | callFails =>
      rw [List.length_append]
      exact Nat.succ_le_succ ih
    | hear _ _ _ _ hs =>
      obtain ⟨h₁, h₂, -⟩ := hs.frame
      rw [h₁, h₂]
      exact ih
    | serve _ _ _ _ hs =>
      obtain ⟨h₁, h₂, -⟩ := hs.frame
      rw [h₁, h₂]
      exact ih
    | drop | stop => exact ih

/-- **A remote payload operation is one step of the coordinator's model**: over every run of the
connection of one `node_operation`, the node's world changes as the command `Cmd.node` has it, once
or not at all; a reply that is taken is the command's reply, and the coordinator's answer to it the
model's answer; without one, the call fails as the command can fail; and a node of another epoch is
not touched.  The command is carried out in the world `w`, whenever the node comes to handle the
request, also when the caller has given the connection up by then. -/
theorem node_operation_refines (h : Session.Reach wire (answers codec env n w) s)
    (hl : Session.Lawful wire s) (hone : s.calls ≤ 1) (hc : Called codec env n nid b k op w v)
    (hq : ∀ q ∈ s.issued, q.method = method op ∧ q.payload = v) :
    (∀ p ∈ s.answered, ∃ i : Input, i.nodeReply = none ∧ ∃ y,
      execNode env nid b k op i w = (y, worldAfter codec env n w s) ∧
        Same codec op y (nodeOperationResult codec p.2)) ∧
      (s.answered = [] → ∀ e, ∃ i : Input, i.nodeReply = none ∧
        execNode env nid b k op i w = (.error e, worldAfter codec env n w s)) ∧
      (w.proc.epoch ≠ n.coordinatorEpoch → worldAfter codec env n w s = w) := by
  obtain ⟨hfirst, happroved, hanswered, -, -, -⟩ := Session.session_exchange wire
    (answers codec env n w) h hl (lt_of_le_of_lt hone (by decide))
  have hlen : s.handled.length ≤ 1 := by
    have hle := hfirst.length_le
    rw [List.length_map] at hle
    exact hle.trans ((issued_le h).trans hone)
  unfold worldAfter
  cases hhandled : s.handled with
  | nil =>
    have hnone : s.answered = [] := by
      rw [hhandled] at hanswered
      exact List.prefix_nil.mp hanswered
    refine ⟨fun p hp => ?_, fun _ e => ⟨{ fault := some e }, rfl, rfl⟩, fun _ => rfl⟩
    rw [hnone] at hp
    cases hp
  | cons p rest =>
    have hrest : rest = [] := by
      rw [hhandled, List.length_cons] at hlen
      exact List.length_eq_zero_iff.mp (by omega)
    subst hrest
    have hissued : p.1 ∈ s.issued := hfirst.subset (by rw [hhandled]; simp)
    obtain ⟨hm, hv⟩ := hq p.1 hissued
    have hreply : p.2 = (buildHandler codec env n p.1 {} w).1 :=
      happroved p (by rw [hhandled]; simp)
    refine ⟨fun a ha => ?_, fun _ e => hc.fails hm hv e, fun he => ?_⟩
    · have hmem := hanswered.subset ha
      rw [hhandled, List.map_cons, List.map_nil, List.mem_singleton] at hmem
      subst hmem
      dsimp only
      rcases @received_cases wire p.2 with hr | hr
      · rw [hr, hreply]
        exact hc.answered hm hv
      · obtain ⟨i, hi, hexec⟩ := hc.fails hm hv (.protocol "reply payload too large")
        refine ⟨i, hi, _, hexec, ?_⟩
        rw [hr, result_refused]
        rfl
    · dsimp only
      rw [hc.handler hm hv, if_pos he]

end

namespace Sample

open ReclaimFabric.Sample (ascii crcAppend)

def diskInfo : BackendInfo := ⟨"memory", fun _ => .ok ()⟩

def diskNode : NodeState := ⟨"n@p@0", [("n@p@0/disk", diskInfo)], 1, true⟩

/-- a payload on the disk of a registered node -/
def keptWorld : World where
  store := .new
  payloads := fun b k => if b = "n@p@0/disk" ∧ k = "key" then some [1, 2, 3] else none
  blobs := fun _ _ => none
  proc := .start ⟨"p", 0, 0, [], [], [⟨"n@p@0", [("n@p@0/disk", diskInfo)]⟩]⟩ 1 .nil
  issued := []

def deleteOperation : NodeOperationRequest :=
  ⟨.nil, 0, .nil, none, 1, "n@p@0/disk", "key", none, none, none⟩

def deleteValue : Json := .obj [("attempt_id", .null), ("backend", .str "n@p@0/disk"),
  ("codec", .null), ("coordinator_epoch", .nat 1), ("expected_hash", .null), ("generation", .nat 0),
  ("key", .str "key"), ("object_id", .str Uuid.nil.text), ("payload_b64", .null),
  ("replica_id", .str Uuid.nil.text)]

def deletedReply : NodeOperationReply := ⟨true, none, none, false, none⟩

def deletedValue : Json := .obj [("error", .null), ("existed", .bool false), ("ok", .bool true),
  ("result_hash", .null), ("size", .null)]

theorem byte_of_char (b : UInt8) : UInt8.ofNat (Char.ofNat b.toNat).toNat = b := by
  have hvalid : b.toNat.isValidChar := .inl (Nat.lt_trans b.toNat_lt (by decide))
  have hc : (Char.ofNat b.toNat).toNat = b.toNat := by
    rw [Char.ofNat, dif_pos hvalid]
    rfl
  rw [hc, UInt8.ofNat_toNat]

/-- the JSON of the two records of one exchange, in which no payload is sent -/
def deleteCodec : Codec where
  requestValue := fun _ => .ok deleteValue
  readRequest := fun _ => .ok deleteOperation
  replyValue := fun r => if r.ok then .ok deletedValue else .error "not this reply"
  readReply := fun _ => .ok deletedReply
  encode := fun l => String.ofList (l.map fun b => Char.ofNat b.toNat)
  decode := fun t => .ok (t.toList.map fun c => UInt8.ofNat c.toNat)
  decode_encode := by
    intro l
    rw [String.toList_ofList, List.map_map]
    refine congrArg Except.ok ((List.map_congr_left fun b _ => ?_).trans (List.map_id l))
    exact byte_of_char b

def deleteText : Bytes :=
  ascii "\x7b\"id\":1,\"method\":\"node.execute.delete\",\"payload\":" ++
    ascii "\x7b\"attempt_id\":null,\"backend\":\"n@p@0/disk\",\"codec\":null," ++
    ascii "\"coordinator_epoch\":1,\"expected_hash\":null,\"generation\":0,\"key\":\"key\"," ++
    ascii "\"object_id\":\"00000000-0000-0000-0000-000000000000\",\"payload_b64\":null," ++
    ascii "\"replica_id\":\"00000000-0000-0000-0000-000000000000\"\x7d\x7d"

def deletedText : Bytes :=
  ascii "\x7b\"id\":1,\"ok\":true,\"error\":null,\"payload\":\x7b\"error\":null," ++
    ascii "\"existed\":false,\"ok\":true,\"result_hash\":null,\"size\":null\x7d\x7d"

def deleteRequest : Request := ⟨1, "node.execute.delete", deleteValue⟩

def deletedEnvelope : Reply := .success 1 deletedValue

/-- the texts of the two envelopes -/
def deleteWire (ask told : Bytes) : Wire where
  crc32c := crcAppend 0
  crc32cAppend := crcAppend
  requestBytes := fun q =>
    if q.method = "node.execute.delete" then .ok ask else .error "not this method"
  readRequest := fun b =>
    if b = ask then .ok deleteRequest else .error "expected value at line 1 column 1"
  replyBytes := fun r => if r.ok then .ok told else .error "not this reply"
  readReply := fun b =>
    if b = told then .ok deletedEnvelope else .error "expected value at line 1 column 1"

theorem called_delete : Called deleteCodec Fencing.Sample.env diskNode "n@p@0" "n@p@0/disk" "key"
    .delete keptWorld deleteValue where
  node := ⟨⟨"n@p@0", [("n@p@0/disk", diskInfo)]⟩, rfl, rfl⟩
  accepts := by
    intro e he _
    obtain rfl := List.mem_singleton.mp he
    rfl
  epochs := by decide
  value := rfl
  request_read := rfl
  reply_read := by
    rintro u r - rfl
    rfl

theorem answers_delete :
    answers deleteCodec Fencing.Sample.env diskNode keptWorld deleteRequest deletedEnvelope := by
  unfold answers
  rw [called_delete.handler rfl rfl]
  rfl

section
variable (ask told : Bytes)

/-- the request is on its way -/
def deleting : Session where
  calls := 1
  waiting := some deleteRequest
  dropped := false
  serving := true
  toServer := (deleteWire ask told).frame ⟨.request, ask⟩
  toClient := []
  issued := [deleteRequest]
  handled := []
  sent := []
  answered := []

/-- the request is handled, its reply on its way -/
def served (rest : Bytes) : Session :=
  { deleting ask told with
    toServer := rest
    handled := [(deleteRequest, deletedEnvelope)]
    toClient := (deleteWire ask told).frame ⟨.reply, told⟩
    sent := [deletedEnvelope] }

def finished (rest back : Bytes) : Session :=
  { served ask told rest with
    toClient := back
    waiting := none
    answered := [(deleteRequest, deletedEnvelope)] }

end

section
variable {ask told : Bytes}

theorem readRequest_delete : (deleteWire ask told).readRequest ask = .ok deleteRequest := by
  simp only [deleteWire, if_true]

theorem readReply_deleted : (deleteWire ask told).readReply told = .ok deletedEnvelope := by
  simp only [deleteWire, if_true]

/-- the request is sent, handled and answered -/
theorem reach_finished (ha : ask.length ≤ maxFrameSize) (ht : told.length ≤ maxFrameSize) :
    ∃ rest back, Session.Reach (deleteWire ask told)
      (answers deleteCodec Fencing.Sample.env diskNode keptWorld)
      (finished ask told rest back) := by
  obtain ⟨r₁, r₁', hr₁, hg₁, hd₁, -⟩ :=
    @Session.decode_frame (deleteWire ask told) ⟨.request, ask⟩ ha
  obtain ⟨r₂, r₂', hr₂, -, hd₂, -⟩ :=
    @Session.decode_frame (deleteWire ask told) ⟨.reply, told⟩ ht
  have hsend : (deleteWire ask told).sendRequest deleteRequest =
      .ok ((deleteWire ask told).frame ⟨.request, ask⟩) := by
    have hbytes : (deleteWire ask told).requestBytes deleteRequest = .ok ask := rfl
    simp only [Wire.sendRequest, hbytes, if_neg (Nat.not_lt.mpr ha), Wire.sendRaw]
  have hout : (deleteWire ask told).outgoing deletedEnvelope =
      .ok (some (deletedEnvelope, told)) := by
    have hbytes : (deleteWire ask told).replyBytes deletedEnvelope = .ok told := rfl
    simp only [Wire.outgoing, hbytes, if_neg (Nat.not_lt.mpr ht)]
  have hreact : (deleteWire ask told).react false (.ok (some ⟨.request, ask⟩)) =
      .handle deleteRequest := by
    simp only [Wire.react, readRequest_delete]
  have hhear : (deleteWire ask told).hear 1 (.ok (some ⟨.reply, told⟩)) =
      .answered deletedEnvelope := by
    simp only [Wire.hear, readReply_deleted]
    rfl
  have hs₀ : Session.Step (deleteWire ask told)
      (answers deleteCodec Fencing.Sample.env diskNode keptWorld) .start (deleting ask told) :=
    .call rfl rfl hsend
  have hs₁ : Session.Step (deleteWire ask told)
      (answers deleteCodec Fencing.Sample.env diskNode keptWorld) (deleting ask told)
      (served ask told r₁'.bytes) := by
    refine @Session.Step.serve _ _ _ _ _ _ false _ rfl hr₁ hg₁ hd₁ ?_
    rw [hreact]
    exact .reply answers_delete hout
  have hs₂ : Session.Step (deleteWire ask told)
      (answers deleteCodec Fencing.Sample.env diskNode keptWorld) (served ask told r₁'.bytes)
      (finished ask told r₁'.bytes r₂'.bytes) := by
    refine .hear rfl rfl hr₂ hd₂ ?_
    show Session.Hears _ deleteRequest ((deleteWire ask told).hear 1 _) _
    rw [hhear]
    exact .answered
  exact ⟨_, _, ((Relation.ReflTransGen.single hs₀).tail hs₁).tail hs₂⟩

theorem lawful_finished (rest back : Bytes) :
    Session.Lawful (deleteWire ask told) (finished ask told rest back) where
  request_read := by
    intro q hq c hc
    obtain rfl := List.mem_singleton.mp hq
    cases hc
    exact readRequest_delete
  reply_read := by
    intro r hr c hc
    obtain rfl := List.mem_singleton.mp hr
    cases hc
    exact readReply_deleted
  refusal_fits := by
    intro r hr hok
    obtain rfl := List.mem_singleton.mp hr
    cases hok

end

theorem deleteText_small : deleteText.length ≤ maxFrameSize := by
  simp only [deleteText, ascii, List.length_append, List.length_map]
  simp [maxFrameSize]

theorem deletedText_small : deletedText.length ≤ maxFrameSize := by
  simp only [deletedText, ascii, List.length_append, List.length_map]
  simp [maxFrameSize]

end Sample

/-- a payload is deleted on a node, and the coordinator told so -/
theorem node_operation_refines_delete : ∃ i : Input, i.nodeReply = none ∧ ∃ y w',
    execNode Fencing.Sample.env "n@p@0" "n@p@0/disk" "key" .delete i Sample.keptWorld = (y, w') ∧
      w'.payloads "n@p@0/disk" "key" = none ∧
      Same Sample.deleteCodec .delete y
        (nodeOperationResult Sample.deleteCodec Sample.deletedEnvelope) := by
  obtain ⟨rest, back, hreach⟩ :=
    Sample.reach_finished Sample.deleteText_small Sample.deletedText_small
  obtain ⟨hanswered, -, -⟩ := node_operation_refines hreach (Sample.lawful_finished rest back)
    (le_refl 1) Sample.called_delete (by
      intro q hq
      obtain rfl := List.mem_singleton.mp hq
      exact ⟨rfl, rfl⟩)
  obtain ⟨i, hi, y, hexec, hsame⟩ := hanswered _ (List.mem_singleton_self _)
  refine ⟨i, hi, y, _, hexec, ?_, hsame⟩
  show (buildHandler Sample.deleteCodec Fencing.Sample.env Sample.diskNode Sample.deleteRequest {}
    Sample.keptWorld).2.payloads _ _ = none
  rw [Sample.called_delete.handler rfl rfl]
  rfl

end Operation

end ReclaimFabric
