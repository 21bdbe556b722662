import Mathlib.Logic.Relation
import ReclaimFabric.Wire.Error
import ReclaimFabric.Wire.Frame

/-!
# One connection

`transport.rs`: a client makes its calls one at a time and gives the connection up at the first
error; the server reads frames and answers requests until the stream ends or breaks.

* `Request`, `Reply`      the envelopes, and what a caller makes of a reply;
* `Wire`                  the texts of the envelopes (`serde_json`) and the checksum;
* `Wire.hear`             one turn of the loop of `Client::call`;
* `Wire.react`            one turn of the loop of `handle_connection`;
* `Session.Step`          the two ends and the bytes between them: reads in any pieces, writes that
                          break off anywhere, timeouts, a server that stops;
* `session_exchange`      a request is handled at most once, in the order of the calls, and a call
                          that succeeds returns what the handler answered to that very request.
-/

namespace ReclaimFabric

structure Request where
  id : Nat
  method : String
  payload : Json

structure Reply where
  id : Nat
  ok : Bool
  error : Option WireError
  payload : Json

namespace Reply

/-- `Reply::ok` -/
def success (id : Nat) (payload : Json) : Reply := ⟨id, true, none, payload⟩

def err (id : Nat) (e : ReclaimError) : Reply := ⟨id, false, some (.ofError e), .null⟩

def intoResult (r : Reply) (expectedId : Nat) : Res Json :=
  if r.id ≠ expectedId then
    .error (.protocol s!"reply id mismatch: expected {expectedId}, got {r.id}")
  else if r.ok then .ok r.payload
  else
    match r.error with
    | some e => .error e.toError
    | none => .error (.protocol "error reply without error details")

@[simp] theorem intoResult_success (id : Nat) (payload : Json) :
    (success id payload).intoResult id = .ok payload := by
  simp [intoResult, success]

/-- the error of the handler is the error of the caller -/
theorem intoResult_err {id : Nat} {e : ReclaimError} (h : Wireable e) :
    (err id e).intoResult id = .error e := by
  have hhop : (WireError.ofError e).toError = e := hop_eq h
  simp [intoResult, err, hhop]

end Reply

namespace WireMessage

def heartbeat : WireMessage := ⟨.heartbeat, []⟩
def heartbeatAck : WireMessage := ⟨.heartbeatAck, []⟩

end WireMessage

/-- the JSON texts of the envelopes and the checksum of a frame -/
structure Wire where
  crc32c : Bytes → UInt32
  crc32cAppend : UInt32 → Bytes → UInt32
  requestBytes : Request → Except String Bytes
  readRequest : Bytes → Except String Request
  replyBytes : Reply → Except String Bytes
  readReply : Bytes → Except String Reply

namespace Wire

section
variable (wire : Wire)

def frame (m : WireMessage) : Bytes := m.encode wire.crc32c wire.crc32cAppend
def frames (ms : List WireMessage) : Bytes := WireMessage.frames wire.crc32c wire.crc32cAppend ms
def decode (r : Reader) : Res (Option WireMessage) × Reader :=
  WireMessage.decode wire.crc32c wire.crc32cAppend r

/-! ## the client -/

/-- `Client::send_raw`, up to the write -/
def sendRaw (m : WireMessage) : Res Bytes :=
  if m.payload.length > maxFrameSize then
    .error (.protocol s!"frame payload exceeds maximum {maxFrameSize}")
  else .ok (wire.frame m)

/-- `Client::send_request`, up to the write -/
def sendRequest (q : Request) : Res Bytes :=
  match wire.requestBytes q with
  | .error text => .error (.internal s!"json: {text}")
  | .ok b =>
    if b.length > maxFrameSize then .error (.protocol "request payload too large")
    else wire.sendRaw ⟨.request, b⟩

/-- what the client does with a frame while it waits -/
inductive Heard where
  | wait
  | ack (b : Bytes)
  | answered (r : Reply)
  | failed (e : ReclaimError)

def hear (id : Nat) : Res (Option WireMessage) → Heard
  | .error e => .failed e
  | .ok none => .failed (.transport "connection closed by peer")
  | .ok (some m) =>
    match m.msgType with
    | .heartbeat =>
      if m.payload ≠ [] then .failed (.protocol "heartbeat frame carried a payload")
      else
        match wire.sendRaw WireMessage.heartbeatAck with
        | .ok b => .ack b
        | .error e => .failed e
    | .heartbeatAck =>
      if m.payload ≠ [] then
        .failed (.protocol "heartbeat acknowledgement carried a payload")
      else .wait
    | .reply =>
      match wire.readReply m.payload with
      | .error text => .failed (.protocol s!"bad reply json: {text}")
      | .ok r =>
        if r.id ≠ id then
          .failed (.protocol s!"reply id mismatch: expected {id}, got {r.id}")
        else .answered r
    | .request => .failed (.protocol "server sent unsolicited request")

/-! ## the server -/

/-- what the server does with a frame; a refusal is a reply of its own, with the id 0 -/
inductive Reaction where
  | again
  | close
  | refuse (r : Reply) (goesOn : Bool)
  | handle (q : Request)
  | ack

def react (expired : Bool) : Res (Option WireMessage) → Reaction
  | .ok none => .close
  | .error (.transport text) =>
    if text = WireMessage.idleText then
      -- socket timeouts are polling intervals; only the idle timeout ends the connection
      if expired then .close else .again
    else .refuse (.err 0 (.transport text)) false
  | .error e => .refuse (.err 0 e) false
  | .ok (some m) =>
    match m.msgType with
    | .request =>
      match wire.readRequest m.payload with
      | .error text => .refuse (.err 0 (.protocol s!"bad request json: {text}")) true
      | .ok q => .handle q
    | .heartbeat => if m.payload ≠ [] then .close else .ack
    | .heartbeatAck => .close
    | .reply => .close

/-- the text of the handler's reply; one that does not fit into a frame is replaced -/
def outgoing (r : Reply) : Res (Option (Reply × Bytes)) :=
  match wire.replyBytes r with
  | .error _ => .ok none
  | .ok b =>
    if b.length > maxFrameSize then
      let refusal := Reply.err r.id (.protocol "reply payload too large")
      match wire.replyBytes refusal with
      | .error text => .error (.internal s!"serialize oversized-reply error: {text}")
      | .ok b' => .ok (some (refusal, b'))
    else .ok (some (r, b))

/-- the reply that a client gets for the handler's reply -/
def received (r : Reply) : Reply :=
  match wire.outgoing r with
  | .ok (some p) => p.1
  | _ => r

end

end Wire

/-! ## the connection -/

structure Session where
  /-- `next_request_id` is one more -/
  calls : Nat
  waiting : Option Request
  /-- the client has given the connection up -/
  dropped : Bool
  serving : Bool
  toServer : Bytes
  toClient : Bytes
  issued : List Request
  handled : List (Request × Reply)
  /-- the replies the server began to write -/
  sent : List Reply
  answered : List (Request × Reply)

namespace Session

def start : Session := ⟨0, none, false, true, [], [], [], [], [], []⟩

/-- `fetch_add` on the counter of 64 bits -/
def nextId (s : Session) : Nat := (1 + s.calls) % 2 ^ 64

section
variable (wire : Wire) (handler : Request → Reply → Prop)

/-- the server has read a frame, what it reads from now on being in `s` already -/
inductive Served (s : Session) : Wire.Reaction → Session → Prop
  | again : Served s .again s
  | close : Served s .close { s with serving := false }
  /-- failures of this write are ignored -/
  | refuse {r : Reply} {goesOn : Bool} {b cut : Bytes} (hb : wire.replyBytes r = .ok b)
      (hcut : cut <+: wire.frame ⟨.reply, b⟩) :
      Served s (.refuse r goesOn)
        { s with toClient := s.toClient ++ cut, sent := s.sent ++ [r], serving := goesOn }
  | silent {r : Reply} {goesOn : Bool} {text : String} (hb : wire.replyBytes r = .error text) :
      Served s (.refuse r goesOn) { s with serving := goesOn }
  | skip {q : Request} {r : Reply} (hr : handler q r) (ho : wire.outgoing r = .ok none) :
      Served s (.handle q) { s with handled := s.handled ++ [(q, r)] }
  | breaks {q : Request} {r : Reply} {e : ReclaimError} (hr : handler q r)
      (ho : wire.outgoing r = .error e) :
      Served s (.handle q) { s with handled := s.handled ++ [(q, r)], serving := false }
  | reply {q : Request} {r r' : Reply} {b : Bytes} (hr : handler q r)
      (ho : wire.outgoing r = .ok (some (r', b))) :
      Served s (.handle q)
        { s with
          handled := s.handled ++ [(q, r)]
          toClient := s.toClient ++ wire.frame ⟨.reply, b⟩
          sent := s.sent ++ [r'] }
  | replyFails {q : Request} {r r' : Reply} {b cut : Bytes} (hr : handler q r)
      (ho : wire.outgoing r = .ok (some (r', b))) (hcut : cut <+: wire.frame ⟨.reply, b⟩) :
      Served s (.handle q)
        { s with
          handled := s.handled ++ [(q, r)]
          toClient := s.toClient ++ cut
          sent := s.sent ++ [r']
          serving := false }
  | ack {cut : Bytes} (hcut : cut <+: wire.frame WireMessage.heartbeatAck) :
      Served s .ack { s with toClient := s.toClient ++ cut }

/-- the client has read a frame while it waited for the answer to `q` -/
inductive Hears (s : Session) (q : Request) : Wire.Heard → Session → Prop
  | wait : Hears s q .wait s
  | ack {b : Bytes} : Hears s q (.ack b) { s with toServer := s.toServer ++ b }
  | ackFails {b cut : Bytes} (hcut : cut <+: b) :
      Hears s q (.ack b) { s with toServer := s.toServer ++ cut, dropped := true }
  | answered {r : Reply} :
      Hears s q (.answered r) { s with waiting := none, answered := s.answered ++ [(q, r)] }
  | failed {e : ReclaimError} : Hears s q (.failed e) { s with dropped := true }

/-- neither end starts a heartbeat: they only answer one -/
inductive Step (s : Session) : Session → Prop
  /-- a request with no text, or one that does not fit into a frame -/
  | callRefused {method : String} {payload : Json} {e : ReclaimError} (hw : s.waiting = none)
      (hd : s.dropped = false)
      (hb : wire.sendRequest ⟨s.nextId, method, payload⟩ = .error e) :
      Step s { s with calls := s.calls + 1, dropped := true }
  | call {method : String} {payload : Json} {b : Bytes} (hw : s.waiting = none)
      (hd : s.dropped = false) (hb : wire.sendRequest ⟨s.nextId, method, payload⟩ = .ok b) :
      Step s
        { s with
          calls := s.calls + 1
          waiting := some ⟨s.nextId, method, payload⟩
          toServer := s.toServer ++ b
          issued := s.issued ++ [⟨s.nextId, method, payload⟩] }
  | callFails {method : String} {payload : Json} {b cut : Bytes} (hw : s.waiting = none)
      (hd : s.dropped = false) (hb : wire.sendRequest ⟨s.nextId, method, payload⟩ = .ok b)
      (hcut : cut <+: b) :
      Step s
        { s with
          calls := s.calls + 1
          dropped := true
          toServer := s.toServer ++ cut
          issued := s.issued ++ [⟨s.nextId, method, payload⟩] }
  | hear {q : Request} {r r' : Reader} {out : Res (Option WireMessage)} {s' : Session}
      (hw : s.waiting = some q) (hd : s.dropped = false) (hr : r.bytes = s.toClient)
      (hout : wire.decode r = (out, r'))
      (hs : Hears { s with toClient := r'.bytes } q (wire.hear q.id out) s') : Step s s'
  /-- the deadline of the call, or the end of the client -/
  | drop : Step s { s with dropped := true }
  | serve {r r' : Reader} {out : Res (Option WireMessage)} {expired : Bool} {s' : Session}
      (hv : s.serving = true) (hr : r.bytes = s.toServer) (hg : WireMessage.Genuine r)
      (hout : wire.decode r = (out, r'))
      (hs : Served wire handler { s with toServer := r'.bytes } (wire.react expired out) s') :
      Step s s'
  /-- the shutdown flag -/
  | stop : Step s { s with serving := false }

def Reach (s : Session) : Prop := Relation.ReflTransGen (Step wire handler) start s

/-- what `serde_json` promises about the texts of this connection: they are read back, and the
text of a refusal fits into a frame -/
structure Lawful (s : Session) : Prop where
  request_read : ∀ q ∈ s.issued, ∀ b, wire.requestBytes q = .ok b → wire.readRequest b = .ok q
  reply_read : ∀ r ∈ s.sent, ∀ b, wire.replyBytes r = .ok b → wire.readReply b = .ok r
  refusal_fits : ∀ r ∈ s.sent, r.ok = false → ∀ b, wire.replyBytes r = .ok b →
    b.length ≤ maxFrameSize

end

/-! ## what is under way -/

def requests (asks : List (Request × Bytes)) : List WireMessage :=
  asks.map fun p => ⟨.request, p.2⟩

def replies (out : List (Reply × Bytes)) : List WireMessage :=
  out.map fun p => ⟨.reply, p.2⟩

section
variable (wire : Wire) (handler : Request → Reply → Prop)

/-- a client that has not given up: it waits for the one request under way, and nothing but the
reply to it, or refusals, is on its way back -/
structure Live (s : Session) (asks : List (Request × Bytes)) (due : List (Request × Reply))
    (out : List (Reply × Bytes)) : Prop where
  turn : asks.map Prod.fst ++ due.map Prod.fst = s.waiting.toList
  whole : s.serving = true → s.toServer = wire.frames (requests asks)
  toClient : s.toClient <+: wire.frames (replies out)
  back : ∃ refusals, (∀ r ∈ refusals, r.id = 0) ∧
    (out.map Prod.fst = refusals ∨ out.map Prod.fst = due.map Prod.snd ++ refusals) ∧
    (s.serving = true → refusals = [] ∧ s.toClient = wire.frames (replies out))

/-- `asks` was written but not handled, `due` was handled but its reply not taken, `out` is what
the server wrote and the client has not read -/
structure Inv (s : Session) (asks : List (Request × Bytes)) (due : List (Request × Reply))
    (out : List (Reply × Bytes)) : Prop where
  issued : s.issued = s.handled.map Prod.fst ++ asks.map Prod.fst
  handled : s.handled.map (fun p => (p.1, wire.received p.2)) = s.answered ++ due
  one : asks.length + due.length ≤ 1
  approved : ∀ p ∈ s.handled, handler p.1 p.2
  ids : ∀ q ∈ s.issued, q.id ≠ 0
  matched : ∀ p ∈ s.answered, p.2.id = p.1.id
  asked : ∀ p ∈ asks, wire.requestBytes p.1 = .ok p.2 ∧ p.2.length ≤ maxFrameSize
  given : ∀ p ∈ out, p.1 ∈ s.sent ∧ wire.replyBytes p.1 = .ok p.2 ∧ p.2.length ≤ maxFrameSize
  toServer : s.serving = true → s.toServer <+: wire.frames (requests asks)
  live : s.dropped = false → Live wire s asks due out

end

section
variable {wire : Wire} {handler : Request → Reply → Prop} {s s' : Session}
  {asks : List (Request × Bytes)} {due : List (Request × Reply)} {out : List (Reply × Bytes)}

theorem frames_append (ms ms' : List WireMessage) :
    wire.frames (ms ++ ms') = wire.frames ms ++ wire.frames ms' := List.flatMap_append

theorem frames_one (m : WireMessage) : wire.frames [m] = wire.frame m := List.flatMap_singleton _ _

theorem sendRequest_ok {q : Request} {b : Bytes} (h : wire.sendRequest q = .ok b) :
    ∃ text, wire.requestBytes q = .ok text ∧ text.length ≤ maxFrameSize ∧
      b = wire.frame ⟨.request, text⟩ := by
  unfold Wire.sendRequest at h
  split at h
  · cases h
  · next text htext =>
    split at h
    · cases h
    · next hlen =>
      rw [Wire.sendRaw, if_neg hlen] at h
      cases h
      exact ⟨text, htext, Nat.not_lt.mp hlen, rfl⟩

theorem outgoing_ok {r r' : Reply} {b : Bytes} (h : wire.outgoing r = .ok (some (r', b))) :
    wire.received r = r' ∧ wire.replyBytes r' = .ok b ∧
      (r'.ok = false ∨ b.length ≤ maxFrameSize) := by
  refine ⟨by rw [Wire.received, h], ?_⟩
  unfold Wire.outgoing at h
  split at h
  · cases h
  · next text htext =>
    split at h
    · dsimp only at h
      split at h
      · cases h
      · next b' hb' =>
        cases h
        exact ⟨hb', .inl rfl⟩
    · next hlen =>
      cases h
      exact ⟨htext, .inr (Nat.not_lt.mp hlen)⟩

/-- the client gives up, whatever it wrote last -/
theorem Inv.give_up (h : Inv wire handler s asks due out) (hd : s'.dropped = true)
    (hissued : s'.issued = s.issued) (hhandled : s'.handled = s.handled)
    (hanswered : s'.answered = s.answered) (hsent : s'.sent = s.sent)
    (hto : s'.serving = true → s.serving = true ∧ s'.toServer = s.toServer) :
    Inv wire handler s' asks due out where
  issued := by rw [hissued, hhandled]; exact h.issued
  handled := by rw [hhandled, hanswered]; exact h.handled
  one := h.one
  approved := by rw [hhandled]; exact h.approved
  ids := by rw [hissued]; exact h.ids
  matched := by rw [hanswered]; exact h.matched
  asked := h.asked
  given := by rw [hsent]; exact h.given
  toServer := by
    intro hv
    obtain ⟨hv', ht⟩ := hto hv
    rw [ht]
    exact h.toServer hv'
  live := by
    intro hlive
    rw [hd] at hlive
    cases hlive

/-! ## one turn of either loop -/

theorem small_requests (h : ∀ p ∈ asks, wire.requestBytes p.1 = .ok p.2 ∧
    p.2.length ≤ maxFrameSize) : ∀ m ∈ requests asks, m.payload.length ≤ maxFrameSize := by
  intro m hm
  obtain ⟨p, hp, rfl⟩ := List.mem_map.mp hm
  exact (h p hp).2

theorem small_replies (h : ∀ p ∈ out, p.1 ∈ s.sent ∧ wire.replyBytes p.1 = .ok p.2 ∧
    p.2.length ≤ maxFrameSize) : ∀ m ∈ replies out, m.payload.length ≤ maxFrameSize := by
  intro m hm
  obtain ⟨p, hp, rfl⟩ := List.mem_map.mp hm
  exact (h p hp).2.2

/-- the client takes the first reply on its way, or gives up -/
theorem Inv.hear {q : Request} {r r' : Reader} {o : Res (Option WireMessage)}
    (h : Inv wire handler s asks due out) (hl : Lawful wire s) (hr : r.bytes = s.toClient)
    (hto : s.toClient <+: wire.frames (replies out)) (ho : wire.decode r = (o, r')) :
    (∃ e, wire.hear q.id o = .failed e) ∨
      ∃ p out', out = p :: out' ∧ wire.hear q.id o = .answered p.1 ∧ p.1.id = q.id ∧
        r'.bytes <+: wire.frames (replies out') ∧
        (s.toClient = wire.frames (replies out) → r'.bytes = wire.frames (replies out')) := by
  rcases o with e | m | m
  · exact .inl ⟨e, rfl⟩
  · exact .inl ⟨_, rfl⟩
  rw [← hr] at hto
  obtain ⟨ms, hms, hfront, hwhole⟩ := WireMessage.decode_front (small_replies h.given) hto ho
  cases out with
  | nil => cases hms
  | cons p out' =>
    obtain ⟨rfl, rfl⟩ := List.cons.inj hms
    obtain ⟨hsent, hbytes, -⟩ := h.given p List.mem_cons_self
    have hread := hl.reply_read p.1 hsent p.2 hbytes
    by_cases hid : p.1.id = q.id
    · refine .inr ⟨p, out', rfl, ?_, hid, hfront, fun heq => hwhole (hr.trans heq)⟩
      simp [Wire.hear, hread, hid]
    · refine .inl ⟨.protocol s!"reply id mismatch: expected {q.id}, got {p.1.id}", ?_⟩
      simp [Wire.hear, hread, hid]

/-- the server reads the request under way, refuses what broke off, or stops; an idle turn takes
nothing from the stream -/
theorem Inv.react {r r' : Reader} {o : Res (Option WireMessage)} (expired : Bool)
    (h : Inv wire handler s asks due out) (hl : Lawful wire s) (hv : s.serving = true)
    (hr : r.bytes = s.toServer) (hg : WireMessage.Genuine r) (ho : wire.decode r = (o, r')) :
    (wire.react expired o = .again ∧ r'.bytes = s.toServer) ∨ wire.react expired o = .close ∨
      (∃ e, wire.react expired o = .refuse (.err 0 e) false) ∨
      ∃ p asks', asks = p :: asks' ∧ wire.react expired o = .handle p.1 ∧
        r'.bytes <+: wire.frames (requests asks') ∧
        (s.toServer = wire.frames (requests asks) → r'.bytes = wire.frames (requests asks')) := by
  rcases o with e | m | m
  · by_cases hidle : e = .transport WireMessage.idleText
    · subst hidle
      cases expired with
      | true => exact .inr (.inl (by simp [Wire.react]))
      | false => exact .inl ⟨by simp [Wire.react], (WireMessage.decode_idle hg ho).trans hr⟩
    · refine .inr (.inr (.inl ⟨e, ?_⟩))
      cases e with
      | transport text =>
        have htext : text ≠ WireMessage.idleText := fun heq => hidle (by rw [heq])
        exact if_neg htext
      | _ => rfl
  · exact .inr (.inl rfl)
  have hto := h.toServer hv
  rw [← hr] at hto
  obtain ⟨ms, hms, hfront, hwhole⟩ := WireMessage.decode_front (small_requests h.asked) hto ho
  cases asks with
  | nil => cases hms
  | cons p asks' =>
    obtain ⟨rfl, rfl⟩ := List.cons.inj hms
    have hissued : p.1 ∈ s.issued := by
      rw [h.issued]
      simp
    have hread := hl.request_read p.1 hissued p.2 (h.asked p List.mem_cons_self).1
    refine .inr (.inr (.inr ⟨p, asks', rfl, ?_, hfront, fun heq => hwhole (hr.trans heq)⟩))
    simp [Wire.react, hread]

/-! ## one step -/

theorem Inv.start : Inv wire handler start [] [] [] where
  issued := rfl
  handled := rfl
  one := Nat.zero_le 1
  approved := fun _ hp => nomatch hp
  ids := fun _ hq => nomatch hq
  matched := fun _ hp => nomatch hp
  asked := fun _ hp => nomatch hp
  given := fun _ hp => nomatch hp
  toServer := fun _ => List.prefix_rfl
  live := fun _ =>
    { turn := rfl
      whole := fun _ => rfl
      toClient := List.prefix_rfl
      back := ⟨[], (fun _ hr => nomatch hr), .inl rfl, fun _ => ⟨rfl, rfl⟩⟩ }

theorem Inv.idle (h : Inv wire handler s asks due out) (hd : s.dropped = false)
    (hw : s.waiting = none) : asks = [] ∧ due = [] := by
  have hturn := (h.live hd).turn
  rw [hw] at hturn
  simpa using hturn

/-- a request is written, all of it or the front of it -/
theorem Inv.call {q : Request} {b cut : Bytes} {calls : Nat} {waiting : Option Request}
    {dropped : Bool} (h : Inv wire handler s asks due out) (hd : s.dropped = false)
    (hw : s.waiting = none) (hq : q.id ≠ 0) (hb : wire.sendRequest q = .ok b) (hcut : cut <+: b)
    (hlive : dropped = false → cut = b ∧ waiting = some q) :
    ∃ text, Inv wire handler
      { s with
        calls := calls, waiting := waiting, dropped := dropped
        toServer := s.toServer ++ cut, issued := s.issued ++ [q] }
      [(q, text)] [] out := by
  obtain ⟨rfl, rfl⟩ := h.idle hd hw
  obtain ⟨text, htext, hlen, rfl⟩ := sendRequest_ok hb
  have hL := h.live hd
  have hone : wire.frames (requests [(q, text)]) = wire.frame ⟨.request, text⟩ := frames_one _
  refine ⟨text, ?_⟩
  exact
    { issued := by
        show s.issued ++ [q] = _
        rw [h.issued]
        simp
      handled := h.handled
      one := le_refl 1
      approved := h.approved
      ids := by
        intro q' hq'
        rcases List.mem_append.mp hq' with hq' | hq'
        · exact h.ids q' hq'
        · obtain rfl := List.mem_singleton.mp hq'
          exact hq
      matched := h.matched
      asked := by
        intro p hp
        obtain rfl := List.mem_singleton.mp hp
        exact ⟨htext, hlen⟩
      given := h.given
      toServer := by
        intro hv
        show s.toServer ++ cut <+: _
        rw [hL.whole hv, hone]
        exact hcut
      live := by
        intro hd'
        obtain ⟨rfl, rfl⟩ := hlive hd'
        exact
          { turn := rfl
            whole := by
              intro hv
              show s.toServer ++ _ = _
              rw [hL.whole hv, hone]
              rfl
            toClient := hL.toClient
            back := hL.back } }

/-- what the client does with what it read -/
theorem Inv.hears {q : Request} {r r' : Reader} {o : Res (Option WireMessage)}
    (h : Inv wire handler s asks due out) (hl : Lawful wire s) (hw : s.waiting = some q)
    (hd : s.dropped = false) (hr : r.bytes = s.toClient) (ho : wire.decode r = (o, r'))
    (hs : Hears { s with toClient := r'.bytes } q (wire.hear q.id o) s') :
    ∃ asks' due' out', Inv wire handler s' asks' due' out' := by
  have hL := h.live hd
  have hq : q ∈ s.issued := by
    have hturn : q ∈ asks.map Prod.fst ++ due.map Prod.fst := by
      rw [hL.turn, hw]
      exact List.mem_singleton_self q
    rw [h.issued]
    rcases List.mem_append.mp hturn with hq | hq
    · exact List.mem_append_right _ hq
    · obtain ⟨p, hp, rfl⟩ := List.mem_map.mp hq
      have hmem : p ∈ s.handled.map (fun p => (p.1, wire.received p.2)) := by
        rw [h.handled]
        exact List.mem_append_right _ hp
      obtain ⟨p', hp', rfl⟩ := List.mem_map.mp hmem
      exact List.mem_append_left _ (List.mem_map.mpr ⟨p', hp', rfl⟩)
  rcases h.hear (q := q) hl hr hL.toClient ho with ⟨e, he⟩ | ⟨p, out', rfl, hp, hid, hfront, hwhole⟩
  · rw [he] at hs
    cases hs
    exact ⟨asks, due, out, h.give_up rfl rfl rfl rfl rfl fun hv => ⟨hv, rfl⟩⟩
  rw [hp] at hs
  cases hs
  obtain ⟨refusals, hzero, hback, hserving⟩ := hL.back
  -- a refusal has the id 0, so this is the reply that is due
  obtain ⟨d, rfl, hd', hout⟩ : ∃ d, due = [d] ∧ d.2 = p.1 ∧ out'.map Prod.fst = refusals := by
    rcases hback with hback | hback
    · have hp0 : p.1 ∈ refusals := by
        rw [← hback]
        exact List.mem_cons_self
      exact absurd (hid.symm.trans (hzero _ hp0)) (h.ids q hq)
    · have hone := h.one
      match due, hone, hback with
      | [], _, hback =>
        have hp0 : p.1 ∈ refusals := by
          rw [← show _ = refusals from hback]
          exact List.mem_cons_self
        exact absurd (hid.symm.trans (hzero _ hp0)) (h.ids q hq)
      | [d], _, hback =>
        obtain ⟨h₁, h₂⟩ := List.cons.inj hback
        exact ⟨d, rfl, h₁.symm, h₂⟩
      | d :: d' :: due', hone, _ =>
        simp only [List.length_cons] at hone
        omega
  obtain rfl : asks = [] := by
    have := h.one
    simp only [List.length_singleton] at this
    exact List.eq_nil_of_length_eq_zero (by omega)
  have hdq : d = (q, p.1) := by
    have hturn : [d.1] = [q] := by
      have := hL.turn
      rw [hw] at this
      exact this
    rw [← hd', ← List.cons.inj hturn |>.1]
  subst hdq
  refine ⟨[], [], out', ?_⟩
  exact
    { issued := h.issued
      handled := by
        show s.handled.map _ = (s.answered ++ [(q, p.1)]) ++ []
        rw [List.append_nil]
        exact h.handled
      one := Nat.zero_le 1
      approved := h.approved
      ids := h.ids
      matched := by
        intro p' hp'
        rcases List.mem_append.mp hp' with hp' | hp'
        · exact h.matched p' hp'
        · obtain rfl := List.mem_singleton.mp hp'
          exact hid
      asked := fun _ hp' => nomatch hp'
      given := fun p' hp' => h.given p' (List.mem_cons_of_mem _ hp')
      toServer := h.toServer
      live := fun _ =>
        { turn := rfl
          whole := hL.whole
          toClient := hfront
          back := by
            refine ⟨refusals, hzero, .inl hout, fun hv => ?_⟩
            obtain ⟨hnil, heq⟩ := hserving hv
            exact ⟨hnil, hwhole heq⟩ } }

/-- the server reads no more -/
theorem Inv.stop (h : Inv wire handler s asks due out) (rest : Bytes) :
    Inv wire handler { s with toServer := rest, serving := false } asks due out where
  issued := h.issued
  handled := h.handled
  one := h.one
  approved := h.approved
  ids := h.ids
  matched := h.matched
  asked := h.asked
  given := h.given
  toServer := fun hv => nomatch hv
  live := fun hd =>
    { turn := (h.live hd).turn
      whole := fun hv => nomatch hv
      toClient := (h.live hd).toClient
      back := by
        obtain ⟨refusals, hzero, hback, -⟩ := (h.live hd).back
        exact ⟨refusals, hzero, hback, fun hv => nomatch hv⟩ }

/-- before a request is handled nothing is on its way to a client that waits -/
theorem Inv.quiet (h : Inv wire handler s asks [] out) (hd : s.dropped = false)
    (hv : s.serving = true) : s.toClient = [] := by
  obtain ⟨refusals, -, hback, hserving⟩ := (h.live hd).back
  obtain ⟨rfl, heq⟩ := hserving hv
  have hnil : out.map Prod.fst = [] := by
    rcases hback with hback | hback
    · exact hback
    · exact hback
  rw [List.map_eq_nil_iff] at hnil
  subst hnil
  exact heq

/-- the server refuses what it cannot read, and stops -/
theorem Inv.refuse {e : ReclaimError} {b cut rest : Bytes}
    (h : Inv wire handler s asks due out) (hv : s.serving = true)
    (hb : wire.replyBytes (.err 0 e) = .ok b) (hlen : b.length ≤ maxFrameSize)
    (hcut : cut <+: wire.frame ⟨.reply, b⟩) :
    Inv wire handler
      { s with
        toServer := rest, toClient := s.toClient ++ cut, sent := s.sent ++ [.err 0 e]
        serving := false }
      asks due (out ++ [(.err 0 e, b)]) where
  issued := h.issued
  handled := h.handled
  one := h.one
  approved := h.approved
  ids := h.ids
  matched := h.matched
  asked := h.asked
  given := by
    intro p hp
    rcases List.mem_append.mp hp with hp | hp
    · obtain ⟨h₁, h₂⟩ := h.given p hp
      exact ⟨List.mem_append_left _ h₁, h₂⟩
    · obtain rfl := List.mem_singleton.mp hp
      exact ⟨List.mem_append_right _ (List.mem_singleton_self _), hb, hlen⟩
  toServer := fun hv' => nomatch hv'
  live := fun hd => by
    have hL := h.live hd
    obtain ⟨refusals, hzero, hback, hserving⟩ := hL.back
    obtain ⟨rfl, heq⟩ := hserving hv
    have hout : wire.frames (replies (out ++ [(.err 0 e, b)])) =
        s.toClient ++ wire.frame ⟨.reply, b⟩ := by
      rw [replies, List.map_append, frames_append, heq]
      exact congrArg _ (frames_one _)
    exact
      { turn := hL.turn
        whole := fun hv' => nomatch hv'
        toClient := by
          rw [hout]
          exact (List.prefix_append_right_inj _).mpr hcut
        back := by
          refine ⟨[.err 0 e], ?_, ?_, fun hv' => nomatch hv'⟩
          · intro r hr
            obtain rfl := List.mem_singleton.mp hr
            rfl
          · rw [List.map_append]
            rcases hback with hback | hback
            · exact .inl (by rw [hback]; rfl)
            · exact .inr (by rw [hback, List.append_nil]; rfl) }

/-- the server handles the request under way; it may write the reply or the front of it -/
theorem Inv.handle {p : Request × Bytes} {r : Reply} {rest toClient : Bytes} {sent : List Reply}
    {serving : Bool} {out' : List (Reply × Bytes)}
    (h : Inv wire handler s (p :: asks) due out) (hr : handler p.1 r)
    (hrest : serving = true → rest <+: wire.frames (requests asks) ∧
      (s.dropped = false → rest = wire.frames (requests asks)))
    (hgiven : ∀ x ∈ out', x.1 ∈ sent ∧ wire.replyBytes x.1 = .ok x.2 ∧
      x.2.length ≤ maxFrameSize)
    (hback : out'.map Prod.fst = [] ∨ out'.map Prod.fst = [wire.received r])
    (hto : s.dropped = false → toClient <+: wire.frames (replies out') ∧
      (serving = true → toClient = wire.frames (replies out'))) :
    Inv wire handler
      { s with
        toServer := rest, toClient := toClient, handled := s.handled ++ [(p.1, r)], sent := sent
        serving := serving }
      [] [(p.1, wire.received r)] out' := by
  have hone := h.one
  rw [List.length_cons] at hone
  obtain rfl : asks = [] := List.eq_nil_of_length_eq_zero (by omega)
  obtain rfl : due = [] := List.eq_nil_of_length_eq_zero (by omega)
  exact
    { issued := by
        show s.issued = _
        rw [h.issued]
        simp
      handled := by
        show (s.handled ++ [(p.1, r)]).map _ = _
        rw [List.map_append, h.handled, List.append_nil]
        rfl
      one := le_refl 1
      approved := by
        intro x hx
        rcases List.mem_append.mp hx with hx | hx
        · exact h.approved x hx
        · obtain rfl := List.mem_singleton.mp hx
          exact hr
      ids := h.ids
      matched := h.matched
      asked := fun _ hx => nomatch hx
      given := hgiven
      toServer := fun hv => (hrest hv).1
      live := fun hd =>
        { turn := (h.live hd).turn
          whole := fun hv => (hrest hv).2 hd
          toClient := (hto hd).1
          back := by
            refine ⟨[], (fun _ hx => nomatch hx), hback, fun hv => ⟨rfl, (hto hd).2 hv⟩⟩ } }

/-- the text of a reply that was written fits into a frame -/
theorem given_one {sent : List Reply} {r : Reply} {b : Bytes}
    (hl : ∀ x ∈ sent ++ [r], x.ok = false → ∀ b, wire.replyBytes x = .ok b →
      b.length ≤ maxFrameSize)
    (hb : wire.replyBytes r = .ok b) (hfits : r.ok = false ∨ b.length ≤ maxFrameSize) :
    ∀ x ∈ [(r, b)], x.1 ∈ sent ++ [r] ∧ wire.replyBytes x.1 = .ok x.2 ∧
      x.2.length ≤ maxFrameSize := by
  intro x hx
  obtain rfl := List.mem_singleton.mp hx
  have hmem : r ∈ sent ++ [r] := List.mem_append_right _ (List.mem_singleton_self r)
  rcases hfits with hfits | hfits
  · exact ⟨hmem, hb, hl r hmem hfits b hb⟩
  · exact ⟨hmem, hb, hfits⟩

/-- what the server does with what it read -/
theorem Inv.served {r r' : Reader} {o : Res (Option WireMessage)} {expired : Bool}
    (h : Inv wire handler s asks due out) (hl : Lawful wire s) (hl' : Lawful wire s')
    (hv : s.serving = true) (hr : r.bytes = s.toServer) (hg : WireMessage.Genuine r)
    (ho : wire.decode r = (o, r'))
    (hs : Served wire handler { s with toServer := r'.bytes } (wire.react expired o) s') :
    ∃ asks' due' out', Inv wire handler s' asks' due' out' := by
  rcases h.react expired hl hv hr hg ho with
    ⟨hreact, hrest⟩ | hreact | ⟨e, hreact⟩ | ⟨p, asks', rfl, hreact, hfront, hwhole⟩
  · rw [hreact, hrest] at hs
    cases hs
    exact ⟨asks, due, out, h⟩
  · rw [hreact] at hs
    cases hs
    exact ⟨asks, due, out, h.stop _⟩
  · rw [hreact] at hs
    cases hs with
    | refuse hb hcut =>
      have hlen := hl'.refusal_fits _ (List.mem_append_right _ (List.mem_singleton_self _)) rfl _ hb
      exact ⟨asks, due, _, h.refuse hv hb hlen hcut⟩
    | silent hb => exact ⟨asks, due, out, h.stop _⟩
  rw [hreact] at hs
  have hrest : r'.bytes <+: wire.frames (requests asks') ∧
      (s.dropped = false → r'.bytes = wire.frames (requests asks')) :=
    ⟨hfront, fun hd => hwhole ((h.live hd).whole hv)⟩
  have hone := h.one
  rw [List.length_cons] at hone
  obtain rfl : due = [] := List.eq_nil_of_length_eq_zero (by omega)
  cases hs with
  | @skip _ a ha hout =>
    refine ⟨[], _, [], h.handle ha (fun _ => hrest) (fun _ hx => nomatch hx) (.inl rfl) ?_⟩
    intro hd
    show s.toClient <+: [] ∧ (_ → s.toClient = [])
    rw [h.quiet hd hv]
    exact ⟨List.prefix_rfl, fun _ => rfl⟩
  | @breaks _ a e ha hout =>
    refine ⟨[], _, [], h.handle ha (fun hv' => nomatch hv') (fun _ hx => nomatch hx) (.inl rfl) ?_⟩
    intro hd
    show s.toClient <+: [] ∧ (_ → s.toClient = [])
    rw [h.quiet hd hv]
    exact ⟨List.prefix_rfl, fun _ => rfl⟩
  | @reply _ a a' b ha hout =>
    obtain ⟨rfl, hb, hfits⟩ := outgoing_ok hout
    refine ⟨[], _, [(wire.received a, b)], h.handle ha (fun _ => hrest) ?_ (.inr rfl) ?_⟩
    · exact given_one hl'.refusal_fits hb hfits
    · intro hd
      show s.toClient ++ _ <+: _ ∧ (_ → s.toClient ++ _ = _)
      rw [h.quiet hd hv, List.nil_append, replies, List.map_singleton, frames_one]
      exact ⟨List.prefix_rfl, fun _ => rfl⟩
  | @replyFails _ a a' b cut ha hout hcut =>
    obtain ⟨rfl, hb, hfits⟩ := outgoing_ok hout
    refine ⟨[], _, [(wire.received a, b)], h.handle ha (fun hv' => nomatch hv') ?_ (.inr rfl) ?_⟩
    · exact given_one hl'.refusal_fits hb hfits
    · intro hd
      show s.toClient ++ _ <+: _ ∧ (_ → s.toClient ++ _ = _)
      rw [h.quiet hd hv, List.nil_append, replies, List.map_singleton, frames_one]
      exact ⟨hcut, fun hv' => nomatch hv'⟩

theorem Hears.frame {q : Request} {x : Wire.Heard} (h : Hears s q x s') :
    s'.calls = s.calls ∧ s'.issued = s.issued ∧ s'.sent = s.sent := by
  cases h <;> exact ⟨rfl, rfl, rfl⟩

theorem Served.frame {x : Wire.Reaction} (h : Served wire handler s x s') :
    s'.calls = s.calls ∧ s'.issued = s.issued ∧ s.sent ⊆ s'.sent := by
  cases h with
  | refuse | reply | replyFails => exact ⟨rfl, rfl, List.subset_append_left _ _⟩
  | again | close | silent | skip | breaks | ack => exact ⟨rfl, rfl, List.Subset.refl _⟩

/-- what was done stays on record -/
theorem Step.grows (h : Step wire handler s s') :
    s.calls ≤ s'.calls ∧ s.issued ⊆ s'.issued ∧ s.sent ⊆ s'.sent := by
  cases h with
  | callRefused => exact ⟨Nat.le_succ _, List.Subset.refl _, List.Subset.refl _⟩
  | call | callFails => exact ⟨Nat.le_succ _, List.subset_append_left _ _, List.Subset.refl _⟩
  | hear _ _ _ _ hs =>
    obtain ⟨h₁, h₂, h₃⟩ := hs.frame
    rw [h₁, h₂, h₃]
    exact ⟨le_refl _, List.Subset.refl _, List.Subset.refl _⟩
  | serve _ _ _ _ hs =>
    obtain ⟨h₁, h₂, h₃⟩ := hs.frame
    rw [h₁, h₂]
    exact ⟨le_refl _, List.Subset.refl _, h₃⟩
  | drop | stop => exact ⟨le_refl _, List.Subset.refl _, List.Subset.refl _⟩

theorem Step.lawful (h : Step wire handler s s') (hl : Lawful wire s') : Lawful wire s where
  request_read := fun q hq => hl.request_read q (h.grows.2.1 hq)
  reply_read := fun r hr => hl.reply_read r (h.grows.2.2 hr)
  refusal_fits := fun r hr => hl.refusal_fits r (h.grows.2.2 hr)

theorem nextId_ne_zero (h : s.calls + 1 < 2 ^ 64) : s.nextId ≠ 0 := by
  unfold nextId
  omega

theorem Inv.step (h : Inv wire handler s asks due out) (hl : Lawful wire s')
    (hn : s'.calls < 2 ^ 64) (hs : Step wire handler s s') :
    ∃ asks' due' out', Inv wire handler s' asks' due' out' := by
  have hl₀ := hs.lawful hl
  cases hs with
  | callRefused hw hd hb =>
    exact ⟨asks, due, out, h.give_up rfl rfl rfl rfl rfl fun hv => ⟨hv, rfl⟩⟩
  | call hw hd hb =>
    obtain ⟨text, h'⟩ := h.call hd hw (nextId_ne_zero hn) hb List.prefix_rfl
      (fun _ => ⟨rfl, rfl⟩)
    exact ⟨_, _, _, h'⟩
  | callFails hw hd hb hcut =>
    obtain ⟨text, h'⟩ := @Inv.call _ _ _ _ _ _ _ _ _ (s.calls + 1) s.waiting true h hd hw
      (nextId_ne_zero hn) hb hcut (fun hd' => nomatch hd')
    exact ⟨_, _, _, h'⟩
  | hear hw hd hr hout hs => exact h.hears hl₀ hw hd hr hout hs
  | drop => exact ⟨asks, due, out, h.give_up rfl rfl rfl rfl rfl fun hv => ⟨hv, rfl⟩⟩
  | serve hv hr hg hout hs => exact h.served hl₀ hl hv hr hg hout hs
  | stop => exact ⟨asks, due, out, h.stop _⟩

theorem Reach.inv (h : Reach wire handler s) (hl : Lawful wire s) (hn : s.calls < 2 ^ 64) :
    ∃ asks due out, Inv wire handler s asks due out := by
  induction h with
  | refl => exact ⟨[], [], [], Inv.start⟩
  | tail _ hs ih =>
    obtain ⟨asks, due, out, h⟩ := ih (hs.lawful hl) (hs.grows.1.trans_lt hn)
    exact h.step hl hn hs

/-! ## a call that goes through -/

variable (wire handler) in
/-- the handler has an answer that can be written and read back -/
def Answerable (q : Request) : Prop :=
  ∃ r r' b, handler q r ∧ wire.outgoing r = .ok (some (r', b)) ∧ r'.id = q.id ∧
    b.length ≤ maxFrameSize ∧ wire.readReply b = .ok r'

variable (wire) in
/-- all of one frame is there -/
theorem decode_frame {m : WireMessage} (hm : m.payload.length ≤ maxFrameSize) :
    ∃ r r', r.bytes = wire.frame m ∧ WireMessage.Genuine r ∧
      wire.decode r = (.ok (some m), r') ∧ r'.bytes = [] := by
  have hclean := Reader.ofBytes_clean (l := wire.frame m) Reader.clean_nil
  have hbytes : (Reader.ofBytes (wire.frame m) []).bytes = wire.frame m ++ [] :=
    Reader.ofBytes_bytes _ []
  obtain ⟨r', h₁, -, h₂⟩ := WireMessage.decode_encode hm hclean hbytes
  exact ⟨_, r', by rw [hbytes, List.append_nil], fun e he => absurd he (hclean e), h₁, h₂⟩

/-- a request under way is handled and its reply taken, when no end fails -/
theorem Inv.completes {q : Request} (h : Inv wire handler s asks due out) (hl : Lawful wire s)
    (hw : s.waiting = some q) (hd : s.dropped = false) (hv : s.serving = true)
    (hopen : s.handled.length < s.issued.length) (ha : Answerable wire handler q) :
    ∃ r s', handler q r ∧ Relation.ReflTransGen (Step wire handler) s s' ∧
      s'.answered = s.answered ++ [(q, wire.received r)] ∧ s'.waiting = none := by
  have hL := h.live hd
  obtain ⟨p, rfl⟩ : ∃ p, asks = [p] := by
    have hlen := congrArg List.length h.issued
    rw [List.length_append, List.length_map, List.length_map] at hlen
    have hone := h.one
    exact List.length_eq_one_iff.mp (by omega)
  obtain rfl : due = [] := by
    have hone := h.one
    rw [List.length_singleton] at hone
    exact List.eq_nil_of_length_eq_zero (by omega)
  obtain rfl : p.1 = q := by
    have hturn := hL.turn
    rw [hw] at hturn
    exact (List.cons.inj hturn).1
  obtain ⟨hbytes, hsmall⟩ := h.asked p (List.mem_singleton_self p)
  have hissued : p.1 ∈ s.issued := by
    rw [h.issued]
    simp
  have hread := hl.request_read p.1 hissued p.2 hbytes
  obtain ⟨a, a', b, happroved, hout, hid, hb, hback⟩ := ha
  -- the server reads the request and writes the reply
  obtain ⟨r₁, r₁', hr₁, hg₁, hd₁, -⟩ := decode_frame wire (m := ⟨.request, p.2⟩) hsmall
  have hto : r₁.bytes = s.toServer := by
    rw [hr₁, hL.whole hv]
    exact (frames_one _).symm
  have hreact : wire.react false (.ok (some ⟨.request, p.2⟩)) = .handle p.1 := by
    simp [Wire.react, hread]
  have hserved := Served.reply (s := { s with toServer := r₁'.bytes }) happroved hout
  rw [← hreact] at hserved
  have hs₁ := Step.serve hv hto hg₁ hd₁ hserved
  -- the client reads it
  obtain ⟨r₂, r₂', hr₂, -, hd₂, -⟩ := decode_frame wire (m := ⟨.reply, b⟩) hb
  have hhear : wire.hear p.1.id (.ok (some ⟨.reply, b⟩)) = .answered a' := by
    simp [Wire.hear, hback, hid]
  have hfrom : r₂.bytes = s.toClient ++ wire.frame ⟨.reply, b⟩ := by
    rw [hr₂, h.quiet hd hv]
    rfl
  refine ⟨a, _, happroved, (Relation.ReflTransGen.single hs₁).tail
    (.hear hw hd hfrom hd₂ (by rw [hhear]; exact .answered)), ?_, rfl⟩
  rw [(outgoing_ok hout).1]

/-- a reply that is on its way can be taken -/
theorem Inv.takes {q : Request} (h : Inv wire handler s asks due out) (hl : Lawful wire s)
    (hw : s.waiting = some q) (hd : s.dropped = false) (hv : s.serving = true)
    (hflight : s.toClient ≠ [])
    (hid : ∀ r, (q, r) ∈ s.handled → (wire.received r).id = q.id) :
    ∃ r s', (q, r) ∈ s.handled ∧ Step wire handler s s' ∧
      s'.answered = s.answered ++ [(q, wire.received r)] ∧ s'.waiting = none := by
  have hL := h.live hd
  have hone := h.one
  obtain ⟨d, rfl⟩ : ∃ d, due = [d] := by
    cases due with
    | nil => exact absurd (h.quiet hd hv) hflight
    | cons d due' =>
      rw [List.length_cons] at hone
      exact ⟨d, by rw [List.eq_nil_of_length_eq_zero (l := due') (by omega)]⟩
  rw [List.length_singleton] at hone
  obtain rfl : asks = [] := List.eq_nil_of_length_eq_zero (by omega)
  obtain ⟨p, hp, rfl⟩ : ∃ p ∈ s.handled, (p.1, wire.received p.2) = d := by
    have hmem : d ∈ s.handled.map (fun p => (p.1, wire.received p.2)) := by
      rw [h.handled]
      exact List.mem_append_right _ (List.mem_singleton_self d)
    exact List.mem_map.mp hmem
  obtain rfl : p.1 = q := by
    have hturn := hL.turn
    rw [hw] at hturn
    exact (List.cons.inj hturn).1
  -- the whole reply, and nothing else, is in the stream
  obtain ⟨refusals, -, hback, hserving⟩ := hL.back
  obtain ⟨rfl, heq⟩ := hserving hv
  obtain ⟨x, rfl, hx⟩ : ∃ x, out = [x] ∧ x.1 = wire.received p.2 := by
    rcases hback with hback | hback
    · rw [List.map_eq_nil_iff.mp hback] at heq
      exact absurd heq hflight
    · obtain ⟨x, hout, hx⟩ := List.map_eq_singleton_iff.mp hback
      exact ⟨x, hout, hx⟩
  obtain ⟨hsent, hbytes, hlen⟩ := h.given x (List.mem_singleton_self x)
  have hread := hl.reply_read x.1 hsent x.2 hbytes
  have hsame : x.1.id = p.1.id := hx ▸ hid p.2 hp
  obtain ⟨r, r', hr, -, hdecode, -⟩ := decode_frame wire (m := ⟨.reply, x.2⟩) hlen
  have hhear : wire.hear p.1.id (.ok (some ⟨.reply, x.2⟩)) = .answered x.1 := by
    simp [Wire.hear, hread, hsame]
  have hfrom : r.bytes = s.toClient := by
    rw [hr, heq]
    exact (frames_one _).symm
  refine ⟨p.2, _, hp, .hear hw hd hfrom hdecode (by rw [hhear]; exact .answered), ?_, rfl⟩
  rw [hx]

/-- **What a connection promises**, whatever pieces the bytes arrive in and wherever a write
breaks off: requests are handled in the order of the calls, none of them twice; a call that
succeeds returns what the handler answered to that very request; only the last call can be left
open; and a call that is open to a server at work can go through, be its request still to be handled
or its reply on the way. -/
theorem session_exchange (wire : Wire) (handler : Request → Reply → Prop) {s : Session}
    (h : Reach wire handler s) (hl : Lawful wire s) (hn : s.calls < 2 ^ 64) :
    s.handled.map Prod.fst <+: s.issued ∧ (∀ p ∈ s.handled, handler p.1 p.2) ∧
      s.answered <+: s.handled.map (fun p => (p.1, wire.received p.2)) ∧
      (∀ p ∈ s.answered, p.2.id = p.1.id) ∧ s.issued.length ≤ s.answered.length + 1 ∧
      ∀ q, s.waiting = some q → s.dropped = false → s.serving = true →
        (s.handled.length < s.issued.length → Answerable wire handler q →
          ∃ r s', handler q r ∧ Relation.ReflTransGen (Step wire handler) s s' ∧
            s'.answered = s.answered ++ [(q, wire.received r)] ∧ s'.waiting = none) ∧
        (s.toClient ≠ [] → (∀ r, (q, r) ∈ s.handled → (wire.received r).id = q.id) →
          ∃ r s', (q, r) ∈ s.handled ∧ Step wire handler s s' ∧
            s'.answered = s.answered ++ [(q, wire.received r)] ∧ s'.waiting = none) := by
  obtain ⟨asks, due, out, hinv⟩ := h.inv hl hn
  refine ⟨⟨_, hinv.issued.symm⟩, hinv.approved, ⟨_, hinv.handled.symm⟩, hinv.matched, ?_, ?_⟩
  · have hissued := congrArg List.length hinv.issued
    have hhandled := congrArg List.length hinv.handled
    have hone := hinv.one
    simp only [List.length_append, List.length_map] at hissued hhandled
    omega
  · intro q hw hd hv
    exact ⟨hinv.completes hl hw hd hv, hinv.takes hl hw hd hv⟩

end

end Session

namespace Sample

/-- CRC-32C, one bit at a time -/
def crcBits : Nat → UInt32 → UInt32
  | 0, c => c
  | n + 1, c => crcBits n (if c &&& 1 = 1 then (c >>> 1) ^^^ 0x82F63B78 else c >>> 1)

def crcAppend (c : UInt32) (l : Bytes) : UInt32 :=
  ~~~(l.foldl (fun c b => crcBits 8 (c ^^^ b.toUInt32)) (~~~c))

def ascii (s : String) : Bytes := s.toList.map fun c => UInt8.ofNat c.toNat

def statsText : Bytes :=
  ascii "\x7b\"id\":1,\"method\":\"stats\",\"payload\":null\x7d"

def statsReplyText : Bytes :=
  ascii "\x7b\"id\":1,\"ok\":true,\"error\":null,\"payload\":null\x7d"

def statsRequest : Request := ⟨1, "stats", .null⟩

def statsReply : Reply := .success 1 .null

/-- the texts of one exchange -/
def statsWire : Wire where
  crc32c := crcAppend 0
  crc32cAppend := crcAppend
  requestBytes := fun q => if q.method = "stats" then .ok statsText else .error "not this method"
  readRequest := fun b =>
    if b = statsText then .ok statsRequest else .error "expected value at line 1 column 1"
  replyBytes := fun r => if r.ok then .ok statsReplyText else .error "not this reply"
  readReply := fun b =>
    if b = statsReplyText then .ok statsReply else .error "expected value at line 1 column 1"

def statsHandler (q : Request) (r : Reply) : Prop := r = .success q.id .null

def asked : Session where
  calls := 1
  waiting := some statsRequest
  dropped := false
  serving := true
  toServer := statsWire.frame ⟨.request, statsText⟩
  toClient := []
  issued := [statsRequest]
  handled := []
  sent := []
  answered := []

example : crcAppend 0 (ascii "123456789") = 0xE3069283 := by decide +kernel

theorem statsText_small : statsText.length ≤ maxFrameSize := by decide

theorem statsReplyText_small : statsReplyText.length ≤ maxFrameSize := by decide

theorem readRequest_stats : statsWire.readRequest statsText = .ok statsRequest := by
  simp only [statsWire, if_true]

theorem readReply_stats : statsWire.readReply statsReplyText = .ok statsReply := by
  simp only [statsWire, if_true]

theorem sendRequest_stats :
    statsWire.sendRequest statsRequest = .ok (statsWire.frame ⟨.request, statsText⟩) := by
  have hlen := Nat.not_lt.mpr statsText_small
  have hbytes : statsWire.requestBytes statsRequest = .ok statsText := rfl
  simp only [Wire.sendRequest, hbytes, if_neg hlen, Wire.sendRaw]

theorem reach_asked : Session.Reach statsWire statsHandler asked :=
  .single (.call (s := Session.start) rfl rfl sendRequest_stats)

/-- the reply is on its way -/
def replied : Session :=
  { asked with
    toServer := []
    toClient := statsWire.frame ⟨.reply, statsReplyText⟩
    handled := [(statsRequest, statsReply)]
    sent := [statsReply] }

theorem outgoing_stats : statsWire.outgoing statsReply = .ok (some (statsReply, statsReplyText)) := by
  have hlen := Nat.not_lt.mpr statsReplyText_small
  have hbytes : statsWire.replyBytes statsReply = .ok statsReplyText := rfl
  simp only [Wire.outgoing, hbytes, if_neg hlen]

theorem reach_replied : Session.Reach statsWire statsHandler replied := by
  obtain ⟨r, r', hr, hg, hd, hrest⟩ :=
    Session.decode_frame statsWire (m := ⟨.request, statsText⟩) statsText_small
  have hreact : statsWire.react false (.ok (some ⟨.request, statsText⟩)) = .handle statsRequest := by
    simp [Wire.react, readRequest_stats]
  have hserved : Session.Served statsWire statsHandler { asked with toServer := r'.bytes }
      (statsWire.react false (.ok (some ⟨.request, statsText⟩))) replied := by
    rw [hreact, hrest]
    exact .reply rfl outgoing_stats
  exact reach_asked.tail (.serve rfl hr hg hd hserved)

theorem lawful_asked : Session.Lawful statsWire asked where
  request_read := by
    intro q hq b hb
    obtain rfl := List.mem_singleton.mp hq
    cases hb
    exact readRequest_stats
  reply_read := fun _ hr => nomatch hr
  refusal_fits := fun _ hr => nomatch hr

theorem lawful_replied : Session.Lawful statsWire replied where
  request_read := lawful_asked.request_read
  reply_read := by
    intro r hr b hb
    obtain rfl := List.mem_singleton.mp hr
    cases hb
    exact readReply_stats
  refusal_fits := by
    intro r hr hno
    obtain rfl := List.mem_singleton.mp hr
    cases hno

theorem answerable_stats : Session.Answerable statsWire statsHandler statsRequest :=
  ⟨statsReply, statsReply, statsReplyText, rfl, outgoing_stats, rfl, statsReplyText_small,
    readReply_stats⟩

end Sample

namespace Session

/-- a call under way comes back with the reply of its request, before it is handled and after -/
theorem session_exchange_stats :
    (∃ r s', Sample.statsHandler Sample.statsRequest r ∧
      Relation.ReflTransGen (Step Sample.statsWire Sample.statsHandler) Sample.asked s' ∧
      s'.answered = [(Sample.statsRequest, Sample.statsWire.received r)] ∧ s'.waiting = none) ∧
    ∃ r s', (Sample.statsRequest, r) ∈ Sample.replied.handled ∧
      Step Sample.statsWire Sample.statsHandler Sample.replied s' ∧
      s'.answered = [(Sample.statsRequest, Sample.statsWire.received r)] ∧ s'.waiting = none := by
  obtain ⟨-, -, -, -, -, hgo⟩ := session_exchange Sample.statsWire Sample.statsHandler
    Sample.reach_asked Sample.lawful_asked (by decide)
  obtain ⟨-, -, -, -, -, hgo'⟩ := session_exchange Sample.statsWire Sample.statsHandler
    Sample.reach_replied Sample.lawful_replied (by decide)
  refine ⟨(hgo Sample.statsRequest rfl rfl rfl).1 (by decide) Sample.answerable_stats,
    (hgo' Sample.statsRequest rfl rfl rfl).2 ?_ ?_⟩
  · exact List.cons_ne_nil _ _
  · intro r hr
    obtain ⟨-, rfl⟩ := Prod.mk.inj (List.mem_singleton.mp hr)
    rw [Wire.received, Sample.outgoing_stats]
    rfl

end Session

end ReclaimFabric
