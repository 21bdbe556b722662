import ReclaimFabric.Model.Basic
import ReclaimFabric.Lib.Stream

/-!
# The framed wire format

`transport.rs`: a frame is a header of twelve bytes, a checksum of header and payload, and the
payload.

* `WireMessage.encode`   the bytes of a frame;
* `WireMessage.decode`   reads one frame from a connection, whatever pieces it arrives in;
* `Delivers`             the messages a connection gives until it ends at a frame boundary;
* `wire_frame_codec`     the two are inverse to each other, and a frame that was cut off is an
                         error.

The checksum is a parameter: `crc32c` of some bytes and its continuation `crc32cAppend`.
-/

namespace ReclaimFabric

def magic : Nat := 0x52463100
def protocolVersion : Nat := 1
def maxFrameSize : Nat := 16 * 1024 * 1024
def headerLen : Nat := 12

inductive MessageType where
  | request
  | reply
  | heartbeat
  | heartbeatAck
deriving DecidableEq

namespace MessageType

/-- `self as u8` -/
def toU8 : MessageType → UInt8
  | .request => 1
  | .reply => 2
  | .heartbeat => 3
  | .heartbeatAck => 4

def fromU8 (v : UInt8) : Res MessageType :=
  if v = 1 then .ok .request
  else if v = 2 then .ok .reply
  else if v = 3 then .ok .heartbeat
  else if v = 4 then .ok .heartbeatAck
  else .error (.protocol s!"unknown message type {v.toNat}")

theorem fromU8_toU8 (t : MessageType) : fromU8 t.toU8 = .ok t := by
  cases t <;> rfl

theorem toU8_fromU8 {v : UInt8} {t : MessageType} (h : fromU8 v = .ok t) : t.toU8 = v := by
  unfold fromU8 at h
  split at h
  · cases h; simp_all [toU8]
  · split at h
    · cases h; simp_all [toU8]
    · split at h
      · cases h; simp_all [toU8]
      · split at h
        · cases h; simp_all [toU8]
        · cases h

theorem fromU8_cases (v : UInt8) :
    (∃ text, fromU8 v = .error (.protocol text)) ∨ ∃ t, fromU8 v = .ok t := by
  unfold fromU8
  split
  · exact .inr ⟨_, rfl⟩
  · split
    · exact .inr ⟨_, rfl⟩
    · split
      · exact .inr ⟨_, rfl⟩
      · split
        · exact .inr ⟨_, rfl⟩
        · exact .inl ⟨_, rfl⟩

end MessageType

structure WireMessage where
  msgType : MessageType
  payload : Bytes
deriving DecidableEq

def isTimeout (e : IoError) : Bool :=
  decide (e.kind = .timedOut) || decide (e.kind = .wouldBlock)

def ioErr (e : IoError) : ReclaimError := .transport e.text

namespace WireMessage

section
variable (crc32c : Bytes → UInt32) (crc32cAppend : UInt32 → Bytes → UInt32)

/-! ## encode -/

/-- everything before the checksum -/
def header (m : WireMessage) : Bytes :=
  toBe 4 magic ++ toBe 2 protocolVersion ++ [m.msgType.toU8, 0] ++
    toBe 4 (m.payload.length % 2 ^ 32)

def encode (m : WireMessage) : Bytes :=
  let crc := crc32cAppend (crc32c m.header) m.payload
  m.header ++ toBe 4 crc.toNat ++ m.payload

/-! ## decode -/

/-- a failed read in the header, when `filled` bytes of it have arrived -/
def headerError (filled : Nat) (e : IoError) : ReclaimError :=
  if isTimeout e && decide (0 < filled) then
    .protocol s!"timeout in frame header after {filled} of {headerLen} bytes"
  else if isTimeout e then .transport "idle read timed out"
  else ioErr e

/-- the loop that fills the header; nothing at all is a clean end of the stream -/
def readHeader (filled : Bytes) (r : Reader) : Res (Option Bytes) × Reader :=
  if filled.length < headerLen then
    match r.read (headerLen - filled.length) with
    | (.error e, r') => (.error (headerError filled.length e), r')
    | (.ok [], r') =>
      if filled.length = 0 then (.ok none, r')
      else (.error (.protocol "EOF in the middle of a frame header"), r')
    | (.ok (b :: bs), r') => readHeader (filled ++ b :: bs) r'
  else (.ok (some filled), r)
termination_by headerLen - filled.length
decreasing_by
  simp only [List.length_append, List.length_cons]
  omega

/-- the checks of a header: the type of the message and the length of its payload -/
def parseHeader (h : Bytes) : Res (MessageType × Nat) := do
  if ofBe (h.take 4) ≠ magic then
    throw (.protocol
      s!"bad magic 0x{String.ofList (hexDigits 8 (ofBe (h.take 4)))}; not a reclaim-fabric peer")
  let version := ofBe ((h.drop 4).take 2)
  if version ≠ protocolVersion then
    throw (.protocol s!"protocol version mismatch: got {version}, expected {protocolVersion}")
  let msgType ← MessageType.fromU8 (h.getD 6 0)
  if h.getD 7 0 ≠ 0 then
    throw (.protocol
      s!"unsupported frame flags 0x{String.ofList (hexDigits 2 (h.getD 7 0).toNat)}")
  let payloadLen := ofBe ((h.drop 8).take 4)
  if payloadLen > maxFrameSize then
    throw (.protocol s!"frame size {payloadLen} exceeds maximum {maxFrameSize}")
  pure (msgType, payloadLen)

def checksumError (e : IoError) : ReclaimError :=
  if e.kind = .unexpectedEof then .protocol "EOF in frame checksum"
  else if isTimeout e then .protocol "timeout in frame checksum"
  else ioErr e

def payloadError (payloadLen : Nat) (e : IoError) : ReclaimError :=
  if e.kind = .unexpectedEof then
    .protocol s!"truncated frame: expected {payloadLen} payload bytes"
  else if isTimeout e then
    .protocol s!"timeout in frame payload: expected {payloadLen} bytes"
  else ioErr e

/-- checksum and payload, when the header has been read -/
def readBody (h : Bytes) (msgType : MessageType) (payloadLen : Nat) (r : Reader) :
    Res (Option WireMessage) × Reader :=
  match r.readExact 4 [] with
  | (.error e, r₁) => (.error (checksumError e), r₁)
  | (.ok crcBuf, r₁) =>
    match r₁.readExact payloadLen [] with
    | (.error e, r₂) => (.error (payloadError payloadLen e), r₂)
    | (.ok payload, r₂) =>
      let frameCrc := ofBe crcBuf
      let computed := crc32cAppend (crc32c h) payload
      if computed.toNat ≠ frameCrc then
        (.error (.protocol s!"frame checksum mismatch: got {String.ofList (hexDigits 8 frameCrc)}, computed {String.ofList (hexDigits 8 computed.toNat)}"), r₂)
      else (.ok (some ⟨msgType, payload⟩), r₂)

def decode (r : Reader) : Res (Option WireMessage) × Reader :=
  match readHeader [] r with
  | (.error e, r₁) => (.error e, r₁)
  | (.ok none, r₁) => (.ok none, r₁)
  | (.ok (some h), r₁) =>
    match parseHeader h with
    | .error e => (.error e, r₁)
    | .ok (msgType, payloadLen) => readBody crc32c crc32cAppend h msgType payloadLen r₁

/-! ## the header -/

/-- the fields of a header, put together again -/
theorem fields_split : ∀ h : Bytes, h.length = headerLen →
    h.take 4 ++ (h.drop 4).take 2 ++ [h.getD 6 0, h.getD 7 0] ++ (h.drop 8).take 4 = h
  | [_, _, _, _, _, _, _, _, _, _, _, _], _ => rfl

theorem header_length (m : WireMessage) : m.header.length = headerLen := by
  simp [header, toBe_length, headerLen]

/-- a header that passes the checks is the header of every message with its type and length -/
theorem parseHeader_ok {h : Bytes} {t : MessageType} {n : Nat} (hl : h.length = headerLen)
    (hp : parseHeader h = .ok (t, n)) (payload : Bytes) (hn : payload.length = n) :
    header ⟨t, payload⟩ = h := by
  unfold parseHeader at hp
  by_cases hmagic : ofBe (h.take 4) = magic
  swap
  · rw [if_pos hmagic] at hp
    cases hp
  by_cases hversion : ofBe ((h.drop 4).take 2) = protocolVersion
  swap
  · rw [if_neg (not_not.mpr hmagic)] at hp
    simp only [if_pos hversion] at hp
    cases hp
  simp only [hmagic, hversion, ne_eq, not_true_eq_false, if_false] at hp
  cases htype : MessageType.fromU8 (h.getD 6 0) with
  | error e =>
    rw [htype] at hp
    cases hp
  | ok t' =>
    rw [htype] at hp
    by_cases hflags : h.getD 7 0 = 0
    swap
    · simp only [if_pos hflags] at hp
      cases hp
    by_cases hlen : ofBe ((h.drop 8).take 4) > maxFrameSize
    · simp only [hflags, hlen, not_true_eq_false, if_false, if_true] at hp
      cases hp
    simp only [hflags, hlen, not_true_eq_false, if_false] at hp
    cases hp
    have hfield (l : Bytes) (w : Nat) (hw : l.length = w) : toBe w (ofBe l) = l := by
      rw [← hw]
      exact toBe_ofBe l
    have h4 : (h.take 4).length = 4 := by simp [hl, headerLen]
    have h2 : ((h.drop 4).take 2).length = 2 := by simp [hl, headerLen]
    have h8 : ((h.drop 8).take 4).length = 4 := by simp [hl, headerLen]
    have hsize : payload.length % 2 ^ 32 = ofBe ((h.drop 8).take 4) := by
      rw [hn]
      unfold maxFrameSize at hlen
      omega
    show toBe 4 magic ++ toBe 2 protocolVersion ++ [t.toU8, 0] ++
      toBe 4 (payload.length % 2 ^ 32) = h
    have hfields := fields_split h hl
    rw [hflags] at hfields
    rw [← hmagic, ← hversion, hsize, MessageType.toU8_fromU8 htype, hfield _ _ h4, hfield _ _ h2,
      hfield _ _ h8]
    exact hfields

theorem parseHeader_header {m : WireMessage} (hm : m.payload.length ≤ maxFrameSize) :
    parseHeader m.header = .ok (m.msgType, m.payload.length) := by
  have hsmall : m.payload.length % 2 ^ 32 = m.payload.length := by
    unfold maxFrameSize at hm
    omega
  have hlen : ofBe ((m.header.drop 8).take 4) = m.payload.length := by
    have hbytes : (m.header.drop 8).take 4 = toBe 4 (m.payload.length % 2 ^ 32) :=
      List.take_of_length_le (toBe_length 4 _).le
    rw [hbytes, hsmall, ofBe_toBe]
    unfold maxFrameSize at hm
    omega
  have htype : MessageType.fromU8 (m.header.getD 6 0) = .ok m.msgType :=
    MessageType.fromU8_toU8 m.msgType
  have hmagic : ofBe (m.header.take 4) = magic := rfl
  have hversion : ofBe ((m.header.drop 4).take 2) = protocolVersion := rfl
  have hflags : m.header.getD 7 0 = 0 := rfl
  simp only [parseHeader, hmagic, hversion, htype, hflags, hlen, Nat.not_lt.mpr hm, ne_eq,
    not_true_eq_false, if_false]
  rfl

/-! ## the loop over the header -/

theorem readHeader_split {filled h : Bytes} {r r' : Reader} (hf : filled.length ≤ headerLen)
    (hr : readHeader filled r = (.ok (some h), r')) :
    h.length = headerLen ∧ ∃ new, h = filled ++ new ∧ r.bytes = new ++ r'.bytes := by
  fun_induction readHeader filled r with
  | case1 => cases hr
  | case2 => cases hr
  | case3 => cases hr
  | case4 filled r hlt b bs r₁ hread ih =>
    obtain ⟨hb, hle⟩ := Reader.read_ok hread
    have hlen : (filled ++ b :: bs).length ≤ headerLen := by
      rw [List.length_append]
      omega
    obtain ⟨hl, new, hnew, hbytes⟩ := ih hlen hr
    refine ⟨hl, b :: bs ++ new, ?_, ?_⟩
    · rw [hnew, List.append_assoc]
    · rw [hb, hbytes, List.append_assoc]
  | case5 filled r hge =>
    cases hr
    refine ⟨by omega, [], ?_, rfl⟩
    rw [List.append_nil]

/-- without failures the header is read in full when it is there -/
theorem readHeader_clean {filled l rest : Bytes} {r : Reader} (hr : r.Clean)
    (hb : r.bytes = l ++ rest) (hn : filled.length + l.length = headerLen) :
    ∃ r', readHeader filled r = (.ok (some (filled ++ l)), r') ∧ r'.Clean ∧ r'.bytes = rest := by
  fun_induction readHeader filled r generalizing l with
  | case1 filled r hlt e r₁ hread =>
    obtain ⟨l', r', hl', _⟩ := Reader.read_clean (by omega : 0 < headerLen - filled.length) hr
    rw [hl'] at hread
    cases hread
  | case2 filled r hlt r₁ hread hz =>
    obtain ⟨l', r', hl', _, hend⟩ :=
      Reader.read_clean (by omega : 0 < headerLen - filled.length) hr
    rw [hread] at hl'
    cases hl'
    rw [hend rfl] at hb
    have := congrArg List.length hb
    simp only [Reader.bytes, List.length_nil, List.length_append] at this
    omega
  | case3 filled r hlt r₁ hread hz =>
    obtain ⟨l', r', hl', _, hend⟩ :=
      Reader.read_clean (by omega : 0 < headerLen - filled.length) hr
    rw [hread] at hl'
    cases hl'
    rw [hend rfl] at hb
    have := congrArg List.length hb
    simp only [Reader.bytes, List.length_nil, List.length_append] at this
    omega
  | case4 filled r hlt b bs r₁ hread ih =>
    obtain ⟨l', r', hl', hclean, _⟩ :=
      Reader.read_clean (by omega : 0 < headerLen - filled.length) hr
    rw [hread] at hl'
    cases hl'
    obtain ⟨hsplit, hle⟩ := Reader.read_ok hread
    have hlen : (b :: bs).length ≤ l.length := by omega
    obtain ⟨l₁, rfl⟩ : ∃ l₁, l = b :: bs ++ l₁ :=
      (List.prefix_of_prefix_length_le ⟨_, hsplit.symm⟩ ⟨_, hb.symm⟩ hlen).imp fun _ h => h.symm
    rw [hsplit, List.append_assoc] at hb
    rw [List.length_append] at hn
    obtain ⟨r', h₁, h₂, h₃⟩ := ih hclean (List.append_cancel_left hb)
      (by rw [List.length_append]; omega)
    refine ⟨r', ?_, h₂, h₃⟩
    rw [h₁, List.append_assoc]
  | case5 filled r hge =>
    obtain rfl : l = [] := List.eq_nil_of_length_eq_zero (by omega)
    exact ⟨r, by rw [List.append_nil], hr, hb⟩

/-- a header that breaks off is an error -/
theorem readHeader_short {filled : Bytes} {r : Reader} (hr : r.Clean)
    (hn : filled.length + r.bytes.length < headerLen) (hne : 0 < filled.length + r.bytes.length) :
    ∃ e r', readHeader filled r = (.error e, r') := by
  fun_induction readHeader filled r with
  | case1 filled r hlt e r₁ hread => exact ⟨_, _, rfl⟩
  | case2 filled r hlt r₁ hread hz =>
    obtain ⟨l', r', hl', _, hend⟩ :=
      Reader.read_clean (by omega : 0 < headerLen - filled.length) hr
    rw [hread] at hl'
    cases hl'
    rw [hend rfl, hz] at hne
    exact absurd hne (lt_irrefl 0)
  | case3 filled r hlt r₁ hread hz => exact ⟨_, _, rfl⟩
  | case4 filled r hlt b bs r₁ hread ih =>
    obtain ⟨l', r', hl', hclean, _⟩ :=
      Reader.read_clean (by omega : 0 < headerLen - filled.length) hr
    rw [hread] at hl'
    cases hl'
    obtain ⟨hsplit, _⟩ := Reader.read_ok hread
    have hlen := congrArg List.length hsplit
    rw [List.length_append] at hlen
    rw [List.length_append] at ih
    exact ih hclean (by omega) (by omega)
  | case5 filled r hge => omega

/-! ## a whole frame -/

variable {crc32c : Bytes → UInt32} {crc32cAppend : UInt32 → Bytes → UInt32}

theorem toBe_crc (c : UInt32) : ofBe (toBe 4 c.toNat) = c.toNat :=
  ofBe_toBe (by have := c.toNat_lt; omega)

/-- the message of a frame is read back, and nothing more -/
theorem decode_encode {m : WireMessage} {rest : Bytes} {r : Reader}
    (hm : m.payload.length ≤ maxFrameSize) (hr : r.Clean)
    (hb : r.bytes = m.encode crc32c crc32cAppend ++ rest) :
    ∃ r', decode crc32c crc32cAppend r = (.ok (some m), r') ∧ r'.Clean ∧ r'.bytes = rest := by
  simp only [encode, List.append_assoc] at hb
  obtain ⟨r₁, h₁, hr₁, hb₁⟩ := @readHeader_clean [] _ _ _ hr hb (by simp [header_length])
  obtain ⟨r₂, h₂, hr₂, hb₂⟩ := @Reader.readExact_clean 4 [] _ _ _ hr₁ hb₁ (by simp [toBe_length])
  obtain ⟨r₃, h₃, hr₃, hb₃⟩ :=
    @Reader.readExact_clean m.payload.length [] _ _ _ hr₂ hb₂ (by simp)
  refine ⟨r₃, ?_, hr₃, hb₃⟩
  simp only [decode, h₁, List.nil_append, parseHeader_header hm, readBody, h₂, h₃, toBe_crc, ne_eq,
    not_true_eq_false, if_false]

/-- what was consumed for a message is its frame -/
theorem decode_consumed {m : WireMessage} {r r' : Reader}
    (h : decode crc32c crc32cAppend r = (.ok (some m), r')) :
    r.bytes = m.encode crc32c crc32cAppend ++ r'.bytes := by
  unfold decode at h
  split at h
  · cases h
  · cases h
  · next h₀ r₁ hread =>
    obtain ⟨hlen, new, hnew, hbytes⟩ := readHeader_split (Nat.zero_le _) hread
    rw [List.nil_append] at hnew
    subst hnew
    split at h
    · cases h
    · next t n hparse =>
      unfold readBody at h
      split at h
      · cases h
      · next crcBuf r₂ hcrc =>
        obtain ⟨hcl, new₁, hnew₁, hbytes₁⟩ := Reader.readExact_split (Nat.zero_le _) hcrc
        rw [List.nil_append] at hnew₁
        subst hnew₁
        split at h
        · cases h
        · next payload r₃ hpay =>
          obtain ⟨hpl, new₂, hnew₂, hbytes₂⟩ := Reader.readExact_split (Nat.zero_le _) hpay
          rw [List.nil_append] at hnew₂
          subst hnew₂
          by_cases hsum : (crc32cAppend (crc32c h₀) payload).toNat = ofBe crcBuf
          swap
          · simp only [hsum, ne_eq, not_false_eq_true, if_true] at h
            cases h
          · simp only [hsum, ne_eq, not_true_eq_false, if_false] at h
            cases h
            have hheader := parseHeader_ok hlen hparse _ hpl
            have hcrc' := toBe_ofBe crcBuf
            rw [hcl, ← hsum] at hcrc'
            rw [encode]
            simp only [hheader, hcrc']
            rw [hbytes, hbytes₁, hbytes₂, List.append_assoc, List.append_assoc]

/-- nothing left: a clean end -/
theorem decode_end {r : Reader} (hr : r.Clean) (hb : r.bytes = []) :
    ∃ r', decode crc32c crc32cAppend r = (.ok none, r') := by
  cases r with
  | nil =>
    refine ⟨[], ?_⟩
    simp [decode, readHeader, headerLen, Reader.read]
  | cons p r =>
    cases p with
    | data b bs => cases hb
    | fail e => exact absurd List.mem_cons_self (hr e)

/-- a frame that is cut off is an error -/
theorem decode_cut {m : WireMessage} {cut : Bytes} {r : Reader}
    (hm : m.payload.length ≤ maxFrameSize) (hr : r.Clean) (hb : r.bytes = cut) (hne : cut ≠ [])
    (hpre : cut <+: m.encode crc32c crc32cAppend) (hproper : cut ≠ m.encode crc32c crc32cAppend) :
    ∃ e r', decode crc32c crc32cAppend r = (.error e, r') := by
  obtain ⟨tail, htail⟩ := hpre
  have htl : 0 < tail.length := by
    apply List.length_pos_of_ne_nil
    rintro rfl
    rw [List.append_nil] at htail
    exact hproper htail
  have hcut : 0 < cut.length := List.length_pos_of_ne_nil hne
  simp only [encode, List.append_assoc] at htail
  -- the header
  by_cases hshort : cut.length < headerLen
  · obtain ⟨e, r', he⟩ := @readHeader_short [] r hr (by rw [hb]; simpa using hshort)
      (by rw [hb]; simpa using hcut)
    exact ⟨e, r', by rw [decode, he]⟩
  obtain ⟨c, rfl⟩ : ∃ c, cut = m.header ++ c :=
    (List.prefix_of_prefix_length_le ⟨_, rfl⟩ ⟨_, htail⟩
      (by rw [header_length]; omega)).imp fun _ h => h.symm
  rw [List.append_assoc] at htail
  have htail := List.append_cancel_left htail
  obtain ⟨r₁, h₁, hr₁, hb₁⟩ := @readHeader_clean [] _ _ _ hr hb (by simp [header_length])
  rw [List.nil_append] at h₁
  -- the checksum
  by_cases hcrc : c.length < 4
  · obtain ⟨e, r₂, h₂, _⟩ := @Reader.readExact_short 4 [] r₁ hr₁ (by rw [hb₁]; simpa using hcrc)
    refine ⟨checksumError e, r₂, ?_⟩
    simp only [decode, h₁, parseHeader_header hm, readBody, h₂]
  obtain ⟨p, rfl⟩ : ∃ p, c = toBe 4 _ ++ p :=
    (List.prefix_of_prefix_length_le ⟨_, rfl⟩ ⟨_, htail⟩
      (by rw [toBe_length]; omega)).imp fun _ h => h.symm
  rw [List.append_assoc] at htail
  have htail := List.append_cancel_left htail
  obtain ⟨r₂, h₂, hr₂, hb₂⟩ := @Reader.readExact_clean 4 [] _ _ _ hr₁ hb₁ (by simp [toBe_length])
  -- the payload
  have hlen := congrArg List.length htail
  rw [List.length_append] at hlen
  obtain ⟨e, r₃, h₃, _⟩ := @Reader.readExact_short m.payload.length [] r₂ hr₂
    (by rw [hb₂, List.length_nil]; omega)
  refine ⟨payloadError m.payload.length e, r₃, ?_⟩
  simp only [decode, h₁, parseHeader_header hm, readBody, h₂, h₃]

variable (crc32c crc32cAppend) in
/-- the messages a connection gives until it ends at a frame boundary -/
inductive Delivers : Reader → List WireMessage → Prop where
  | done {r r' : Reader} (h : decode crc32c crc32cAppend r = (.ok none, r')) : Delivers r []
  | more {r r' : Reader} {m : WireMessage} {ms : List WireMessage}
      (h : decode crc32c crc32cAppend r = (.ok (some m), r')) (hms : Delivers r' ms) :
      Delivers r (m :: ms)

/-- frames one after the other are read one after the other -/
theorem delivers {ms : List WireMessage} {r : Reader}
    (hms : ∀ m ∈ ms, m.payload.length ≤ maxFrameSize) (hr : r.Clean)
    (hb : r.bytes = ms.flatMap (encode crc32c crc32cAppend)) :
    Delivers crc32c crc32cAppend r ms := by
  induction ms generalizing r with
  | nil =>
    obtain ⟨r', h⟩ := decode_end hr hb
    exact .done h
  | cons m ms ih =>
    rw [List.flatMap_cons] at hb
    obtain ⟨r', h, hr', hb'⟩ := decode_encode (hms m List.mem_cons_self) hr hb
    exact .more h (ih (fun x hx => hms x (List.mem_cons_of_mem _ hx)) hr' hb')

/-! ## a stream of frames -/

/-- a header is refused with a protocol error, or the payload it announces is bounded -/
theorem parseHeader_cases (h : Bytes) :
    (∃ text, parseHeader h = .error (.protocol text)) ∨
      ∃ t n, parseHeader h = .ok (t, n) ∧ n ≤ maxFrameSize := by
  unfold parseHeader
  by_cases hmagic : ofBe (h.take 4) = magic
  swap
  · rw [if_pos hmagic]
    exact .inl ⟨_, rfl⟩
  by_cases hversion : ofBe ((h.drop 4).take 2) = protocolVersion
  swap
  · rw [if_neg (not_not.mpr hmagic)]
    simp only [if_pos hversion]
    exact .inl ⟨_, rfl⟩
  simp only [hmagic, hversion, ne_eq, not_true_eq_false, if_false]
  rcases MessageType.fromU8_cases (h.getD 6 0) with ⟨text, htype⟩ | ⟨t, htype⟩
  · rw [htype]
    exact .inl ⟨_, rfl⟩
  rw [htype]
  by_cases hflags : h.getD 7 0 = 0
  swap
  · simp only [if_pos hflags]
    exact .inl ⟨_, rfl⟩
  by_cases hlen : ofBe ((h.drop 8).take 4) > maxFrameSize
  · simp only [hflags, hlen, not_true_eq_false, if_false, if_true]
    exact .inl ⟨_, rfl⟩
  simp only [hflags, hlen, not_true_eq_false, if_false]
  exact .inr ⟨_, _, rfl, Nat.not_lt.mp hlen⟩

/-- no longer payload than the bound is ever read -/
theorem decode_small {m : WireMessage} {r r' : Reader}
    (h : decode crc32c crc32cAppend r = (.ok (some m), r')) :
    m.payload.length ≤ maxFrameSize := by
  unfold decode at h
  split at h
  · cases h
  · cases h
  · next h₀ r₁ hread =>
    split at h
    · cases h
    · next t n hparse =>
      unfold readBody at h
      split at h
      · cases h
      · next crcBuf r₂ hcrc =>
        split at h
        · cases h
        · next payload r₃ hpay =>
          obtain ⟨hpl, -⟩ := Reader.readExact_split (Nat.zero_le _) hpay
          by_cases hsum : (crc32cAppend (crc32c h₀) payload).toNat = ofBe crcBuf
          swap
          · simp only [hsum, ne_eq, not_false_eq_true, if_true] at h
            cases h
          · simp only [hsum, ne_eq, not_true_eq_false, if_false] at h
            cases h
            rw [hpl]
            rcases parseHeader_cases h₀ with ⟨text, he⟩ | ⟨t', n', hok, hn⟩
            · rw [he] at hparse
              cases hparse
            · rw [hok] at hparse
              cases hparse
              exact hn

/-- where one frame ends is in the frame -/
theorem encode_cancel {m m' : WireMessage} {x y : Bytes}
    (hm : m.payload.length ≤ maxFrameSize) (hm' : m'.payload.length ≤ maxFrameSize)
    (h : m.encode crc32c crc32cAppend ++ x = m'.encode crc32c crc32cAppend ++ y) :
    m = m' ∧ x = y := by
  have hclean := Reader.ofBytes_clean (l := m.encode crc32c crc32cAppend ++ x) Reader.clean_nil
  have hbytes := Reader.ofBytes_bytes (m.encode crc32c crc32cAppend ++ x) []
  rw [show Reader.bytes [] = [] from rfl, List.append_nil] at hbytes
  obtain ⟨r₁, h₁, -, hx⟩ := decode_encode hm hclean hbytes
  obtain ⟨r₂, h₂, -, hy⟩ := decode_encode hm' hclean (hbytes.trans h)
  rw [h₁] at h₂
  cases h₂
  exact ⟨rfl, hx.symm.trans hy⟩

variable (crc32c crc32cAppend) in
/-- the bytes of messages, one after the other -/
def frames (ms : List WireMessage) : Bytes := ms.flatMap (encode crc32c crc32cAppend)

/-- of the front of a stream of frames only the first message is ever read, and what is left is
the front of the others -/
theorem decode_front {ms : List WireMessage} {m : WireMessage} {r r' : Reader}
    (hms : ∀ x ∈ ms, x.payload.length ≤ maxFrameSize)
    (hb : r.bytes <+: frames crc32c crc32cAppend ms)
    (h : decode crc32c crc32cAppend r = (.ok (some m), r')) :
    ∃ ms', ms = m :: ms' ∧ r'.bytes <+: frames crc32c crc32cAppend ms' ∧
      (r.bytes = frames crc32c crc32cAppend ms → r'.bytes = frames crc32c crc32cAppend ms') := by
  have hsplit := decode_consumed h
  obtain ⟨rest, hrest⟩ := hb
  rw [hsplit, List.append_assoc] at hrest
  cases ms with
  | nil =>
    have hlen := congrArg List.length hrest
    simp [frames, encode, header_length, headerLen] at hlen
  | cons m' ms' =>
    rw [frames, List.flatMap_cons] at hrest
    obtain ⟨rfl, hms'⟩ := encode_cancel (decode_small h) (hms _ List.mem_cons_self) hrest
    refine ⟨ms', rfl, ⟨rest, hms'⟩, ?_⟩
    intro heq
    rw [hsplit, frames, List.flatMap_cons] at heq
    exact List.append_cancel_left heq

/-! ## an idle connection -/

def idleText : String := "idle read timed out"

/-- no failure of the system has the text of an idle connection -/
def Genuine (r : Reader) : Prop := ∀ e, Piece.fail e ∈ r → e.text ≠ idleText

theorem Genuine.read {n : Nat} {r r' : Reader} {out : Except IoError Bytes} (hg : Genuine r)
    (h : r.read n = (out, r')) : Genuine r' ∧ ∀ e, out = .error e → e.text ≠ idleText := by
  cases r with
  | nil =>
    cases h
    exact ⟨hg, fun e he => by cases he⟩
  | cons p r =>
    cases p with
    | data b bs =>
      cases h
      refine ⟨fun e he => ?_, fun e he => by cases he⟩
      apply hg e
      rw [Reader.ofBytes.eq_def] at he
      split at he
      · exact List.mem_cons_of_mem _ he
      · rcases List.mem_cons.mp he with he | he
        · cases he
        · exact List.mem_cons_of_mem _ he
    | fail e =>
      cases h
      refine ⟨fun e' he => hg e' (List.mem_cons_of_mem _ he), ?_⟩
      intro e' he'
      cases he'
      exact hg e List.mem_cons_self

theorem Genuine.readExact {n : Nat} {got : Bytes} {r r' : Reader} {out : Except IoError Bytes}
    (hg : Genuine r) (h : r.readExact n got = (out, r')) :
    Genuine r' ∧ ∀ e, out = .error e → e.text ≠ idleText := by
  fun_induction Reader.readExact n got r with
  | case1 got r hlt e r₁ hread hint ih => exact ih (hg.read hread).1 h
  | case2 got r hlt e r₁ hread hint =>
    cases h
    obtain ⟨hg₁, he⟩ := hg.read hread
    exact ⟨hg₁, fun e' he' => by cases he'; exact he e rfl⟩
  | case3 got r hlt r₁ hread =>
    cases h
    refine ⟨(hg.read hread).1, fun e he => ?_⟩
    cases he
    show "failed to fill whole buffer" ≠ "idle read timed out"
    decide
  | case4 got r hlt b bs r₁ hread ih => exact ih (hg.read hread).1 h
  | case5 got r hge =>
    cases h
    exact ⟨hg, fun e he => by cases he⟩

/-- a header that begins is not idle -/
theorem readHeader_idle {filled : Bytes} {r r' : Reader} {out : Res (Option Bytes)}
    (hg : Genuine r) (h : readHeader filled r = (out, r')) :
    Genuine r' ∧ (out = .error (.transport idleText) → filled = [] ∧ r'.bytes = r.bytes) := by
  fun_induction readHeader filled r with
  | case1 filled r hlt e r₁ hread =>
    obtain ⟨hout, rfl⟩ := Prod.mk.inj h
    obtain ⟨hg₁, he⟩ := hg.read hread
    refine ⟨hg₁, fun heq => ⟨?_, (Reader.read_error hread).1⟩⟩
    have hidle : headerError filled.length e = .transport idleText :=
      Except.error.inj (hout.trans heq)
    unfold headerError at hidle
    split at hidle
    · cases hidle
    · next hfilled =>
      split at hidle
      · next htimeout =>
        simp only [htimeout, Bool.true_and, decide_eq_true_eq, Nat.pos_iff_ne_zero,
          List.length_eq_zero_iff, not_not, ne_eq] at hfilled
        exact hfilled
      · exact absurd (ReclaimError.transport.inj hidle) (he e rfl)
  | case2 filled r hlt r₁ hread hz =>
    cases h
    exact ⟨(hg.read hread).1, fun heq => by cases heq⟩
  | case3 filled r hlt r₁ hread hz =>
    cases h
    exact ⟨(hg.read hread).1, fun heq => by cases heq⟩
  | case4 filled r hlt b bs r₁ hread ih =>
    obtain ⟨hg', hidle⟩ := ih (hg.read hread).1 h
    refine ⟨hg', fun heq => ?_⟩
    have hnil := (hidle heq).1
    exact absurd hnil (by simp)
  | case5 filled r hge =>
    cases h
    exact ⟨hg, fun heq => by cases heq⟩

theorem checksumError_idle {e : IoError} (he : e.text ≠ idleText) :
    checksumError e ≠ .transport idleText := by
  unfold checksumError
  split
  · exact fun h => by cases h
  · split
    · exact fun h => by cases h
    · exact fun h => he (ReclaimError.transport.inj h)

theorem payloadError_idle {n : Nat} {e : IoError} (he : e.text ≠ idleText) :
    payloadError n e ≠ .transport idleText := by
  unfold payloadError
  split
  · exact fun h => by cases h
  · split
    · exact fun h => by cases h
    · exact fun h => he (ReclaimError.transport.inj h)

/-- nothing was read from a connection that is reported idle -/
theorem decode_idle {r r' : Reader} (hg : Genuine r)
    (h : decode crc32c crc32cAppend r = (.error (.transport idleText), r')) :
    r'.bytes = r.bytes := by
  unfold decode at h
  split at h
  · next e r₁ hread =>
    cases h
    exact ((readHeader_idle hg hread).2 rfl).2
  · cases h
  · next h₀ r₁ hread =>
    obtain ⟨hg₁, -⟩ := readHeader_idle hg hread
    split at h
    · next e hparse =>
      rcases parseHeader_cases h₀ with ⟨text, he⟩ | ⟨t, n, hok, -⟩
      · rw [he] at hparse
        cases hparse
        cases h
      · rw [hok] at hparse
        cases hparse
    · next t n hparse =>
      unfold readBody at h
      split at h
      · next e r₂ hcrc =>
        obtain ⟨he, -⟩ := Prod.mk.inj h
        exact absurd (Except.error.inj he) (checksumError_idle ((hg₁.readExact hcrc).2 e rfl))
      · next crcBuf r₂ hcrc =>
        obtain ⟨hg₂, -⟩ := hg₁.readExact hcrc
        split at h
        · next e r₃ hpay =>
          obtain ⟨he, -⟩ := Prod.mk.inj h
          exact absurd (Except.error.inj he) (payloadError_idle ((hg₂.readExact hpay).2 e rfl))
        · next payload r₃ hpay =>
          by_cases hsum : (crc32cAppend (crc32c h₀) payload).toNat = ofBe crcBuf
          swap
          · simp only [hsum, ne_eq, not_false_eq_true, if_true] at h
            cases h
          · simp only [hsum, ne_eq, not_true_eq_false, if_false] at h
            cases h

end

/-- The codec of frames: a frame is read back whatever pieces it arrives in, and nothing after it
is touched; only the frame of a message is accepted as that message; a sequence of frames gives
the messages and then a clean end; a frame that was cut off is an error. -/
theorem wire_frame_codec (crc32c : Bytes → UInt32) (crc32cAppend : UInt32 → Bytes → UInt32) :
    (∀ (m : WireMessage) (rest : Bytes) (r : Reader), m.payload.length ≤ maxFrameSize → r.Clean →
        r.bytes = m.encode crc32c crc32cAppend ++ rest →
        ∃ r', decode crc32c crc32cAppend r = (.ok (some m), r') ∧ r'.Clean ∧ r'.bytes = rest) ∧
      (∀ (r r' : Reader) (m : WireMessage),
        decode crc32c crc32cAppend r = (.ok (some m), r') →
        r.bytes = m.encode crc32c crc32cAppend ++ r'.bytes) ∧
      (∀ (ms : List WireMessage) (r : Reader), (∀ m ∈ ms, m.payload.length ≤ maxFrameSize) →
        r.Clean → r.bytes = ms.flatMap (encode crc32c crc32cAppend) →
        Delivers crc32c crc32cAppend r ms) ∧
      (∀ (m : WireMessage) (cut : Bytes) (r : Reader), m.payload.length ≤ maxFrameSize → r.Clean →
        r.bytes = cut → cut ≠ [] → cut <+: m.encode crc32c crc32cAppend →
        cut ≠ m.encode crc32c crc32cAppend →
        ∃ e r', decode crc32c crc32cAppend r = (.error e, r')) := by
  refine ⟨?_, ?_, ?_, ?_⟩
  · intro m rest r hm hr hb
    exact decode_encode hm hr hb
  · intro r r' m h
    exact decode_consumed h
  · intro ms r hms hr hb
    exact delivers hms hr hb
  · intro m cut r hm hr hb hne hpre hproper
    exact decode_cut hm hr hb hne hpre hproper

end WireMessage

end ReclaimFabric
