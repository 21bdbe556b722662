import ReclaimFabric.Lib.Scan
import ReclaimFabric.Model.Object
import ReclaimFabric.Model.Text

/-!
# Errors on the wire

`errors.rs`: an error crosses a process boundary as its class and its display text.

* `ReclaimError.cls`     the class name of a variant;
* `WireError.ofError`    the encoding, `WireError.toError` the decoding;
* `Wireable`             the errors the runtime builds: lifecycle names, 64 bit epochs and the
                         text of an attempt in the structured variants, any text in the others;
* `Leg`, `travel`        hops over the wire, and wrapping of the text in another error;
* `hop_eq`               one hop gives a wireable error back;
* `travel_eq_wraps`      the hops of a journey leave no trace.
-/

namespace ReclaimFabric

/-- `ReclaimError::class` -/
def ReclaimError.cls : ReclaimError → String
  | .invalidTransition _ _ => "invalid_transition"
  | .staleEpoch _ _ => "stale_epoch"
  | .staleAttempt _ _ => "stale_attempt"
  | .reservationConflict _ => "reservation_conflict"
  | .dependencyViolation _ => "dependency_violation"
  | .survivabilityViolation _ => "survivability_violation"
  | .pinnedObject _ => "pinned_object"
  | .protectedObject _ => "protected_object"
  | .integrityFailure _ => "integrity_failure"
  | .archiveFailure _ => "archive_failure"
  | .compressionFailure _ => "compression_failure"
  | .decompressionFailure _ => "decompression_failure"
  | .transport _ => "transport"
  | .protocol _ => "protocol"
  | .persistence _ => "persistence"
  | .recovery _ => "recovery"
  | .policy _ => "policy"
  | .backend _ => "backend"
  | .pressure _ => "pressure"
  | .notFound _ => "not_found"
  | .generationMismatch _ => "generation_mismatch"
  | .invalidArgument _ => "invalid_argument"
  | .io _ => "io"
  | .dedup _ => "dedup"
  | .internal _ => "internal"

/-! ## text -/

/-- `str::strip_prefix` -/
def stripPrefix (s p : String) : Option String :=
  (s.toList.dropPrefix? p.toList).map String.ofList

/-- `str::split_once` -/
def splitOnce (s sep : String) : Option (String × String) :=
  (Scan.splitOnce sep.toList s.toList).map (fun p => (String.ofList p.1, String.ofList p.2))

/-- `str::parse::<u64>` -/
def parseU64 (s : String) : Option Nat := Scan.parseNat (2 ^ 64) s.toList

theorem stripPrefix_append (p s : String) : stripPrefix (p ++ s) p = some s := by
  rw [stripPrefix, String.toList_append, Scan.dropPrefix_append]
  exact congrArg some String.ofList_toList

theorem splitOnce_append (sep : String) (c : Char) (l : List Char) (a b : String)
    (hsep : sep.toList = c :: l) (hc : c ∉ a.toList) :
    splitOnce (a ++ sep ++ b) sep = some (a, b) := by
  rw [splitOnce, String.toList_append, String.toList_append, hsep, List.append_assoc,
    Scan.splitOnce_append c l _ _ hc, Option.map_some, String.ofList_toList,
    String.ofList_toList]

theorem toList_toString (n : Nat) : (toString n).toList = Nat.toDigits 10 n := by
  rw [Nat.toString_eq_ofList_toDigits, String.toList_ofList]

theorem parseU64_toString {n : Nat} (h : n < 2 ^ 64) : parseU64 (toString n) = some n := by
  rw [parseU64, toList_toString]
  exact Scan.parseNat_toDigits h

/-! ## encoding and decoding -/

structure WireError where
  /-- the field `class` -/
  cls : String
  message : String
deriving DecidableEq

namespace WireError

/-- `From<ReclaimError> for WireError` -/
def ofError (e : ReclaimError) : WireError := ⟨e.cls, e.text⟩

/-- the text behind a display prefix, or all of it when the prefix is not there -/
def payload (message p : String) : String := (stripPrefix message p).getD message

/-- `From<WireError> for ReclaimError` -/
def toError (w : WireError) : ReclaimError :=
  match w.cls with
  | "invalid_transition" =>
    match (stripPrefix w.message "invalid lifecycle transition: ").bind (splitOnce · " -> ") with
    | some (source, target) => .invalidTransition source target
    | none => .internal w.message
  | "stale_epoch" =>
    match ((stripPrefix w.message "stale coordinator epoch: expected ").bind
        (splitOnce · ", got ")).bind (fun p =>
          (parseU64 p.1).bind fun expected => (parseU64 p.2).map fun got => (expected, got)) with
    | some (expected, got) => .staleEpoch expected got
    | none => .internal w.message
  | "stale_attempt" =>
    match (stripPrefix w.message "stale attempt: ").bind
        (splitOnce · " is no longer current for object ") with
    | some (attempt, object) => .staleAttempt attempt object
    | none => .internal w.message
  | "reservation_conflict" => .reservationConflict (payload w.message "reservation conflict: ")
  | "dependency_violation" => .dependencyViolation (payload w.message "dependency violation: ")
  | "survivability_violation" =>
    .survivabilityViolation (payload w.message "survivability violation: ")
  | "pinned_object" =>
    .pinnedObject (payload w.message "object is pinned and cannot be reclaimed: ")
  | "protected_object" =>
    .protectedObject (payload w.message "object is protected and cannot be reclaimed: ")
  | "integrity_failure" => .integrityFailure (payload w.message "integrity failure: ")
  | "archive_failure" => .archiveFailure (payload w.message "archive failure: ")
  | "compression_failure" => .compressionFailure (payload w.message "compression failure: ")
  | "decompression_failure" => .decompressionFailure (payload w.message "decompression failure: ")
  | "transport" => .transport (payload w.message "transport error: ")
  | "protocol" => .protocol (payload w.message "protocol error: ")
  | "persistence" => .persistence (payload w.message "persistence error: ")
  | "recovery" => .recovery (payload w.message "recovery error: ")
  | "policy" => .policy (payload w.message "policy error: ")
  | "backend" => .backend (payload w.message "backend error: ")
  | "pressure" => .pressure (payload w.message "capacity/pressure error: ")
  | "not_found" => .notFound (payload w.message "object not found: ")
  | "generation_mismatch" => .generationMismatch (payload w.message "generation mismatch: ")
  | "invalid_argument" => .invalidArgument (payload w.message "invalid argument: ")
  | "io" => .io (payload w.message "io error: ")
  | "dedup" => .dedup (payload w.message "dedup violation: ")
  | "internal" => .internal (payload w.message "internal error: ")
  | _ => .internal w.message

theorem payload_append (p s : String) : payload (p ++ s) p = s := by
  rw [payload, stripPrefix_append]
  rfl

end WireError

/-- an error over the wire and back -/
def hop (e : ReclaimError) : ReclaimError := (WireError.ofError e).toError

/-! ## one hop -/

/-- the structured variants as the runtime fills them; the other variants carry any text -/
def Wireable : ReclaimError → Prop
  | .invalidTransition source target =>
    (∃ s : LifecycleState, source = s.asStr) ∧ ∃ s : LifecycleState, target = s.asStr
  | .staleEpoch expected got => expected < 2 ^ 64 ∧ got < 2 ^ 64
  | .staleAttempt attempt _ => ∃ u : Uuid, attempt = u.text
  | _ => True

theorem LifecycleState.no_space (s : LifecycleState) : ' ' ∉ s.asStr.toList := by
  cases s <;> decide

theorem Uuid.no_space (u : Uuid) : ' ' ∉ u.text.toList := by
  rw [Uuid.toList_text]
  intro h
  rcases u.chars_hex ' ' h with h | h
  · exact absurd h (by decide)
  · exact absurd h (by decide)

theorem comma_not_mem_toString (n : Nat) : ',' ∉ (toString n).toList := by
  rw [toList_toString]
  intro h
  exact absurd (Nat.isDigit_of_mem_toDigits (by decide) (by decide) h) (by decide)

theorem hop_invalidTransition (source target : String) (h : ' ' ∉ source.toList) :
    hop (.invalidTransition source target) = .invalidTransition source target := by
  have hp : stripPrefix ("invalid lifecycle transition: " ++ source ++ " -> " ++ target)
      "invalid lifecycle transition: " = some (source ++ " -> " ++ target) := by
    rw [String.append_assoc, String.append_assoc, stripPrefix_append, String.append_assoc]
  have hs := splitOnce_append " -> " ' ' ['-', '>', ' '] source target rfl h
  show (match (stripPrefix ("invalid lifecycle transition: " ++ source ++ " -> " ++ target)
      "invalid lifecycle transition: ").bind (splitOnce · " -> ") with
    | some (s, t) => ReclaimError.invalidTransition s t
    | none => _) = _
  rw [hp, Option.bind_some, hs]

theorem hop_staleAttempt (attempt object : String) (h : ' ' ∉ attempt.toList) :
    hop (.staleAttempt attempt object) = .staleAttempt attempt object := by
  have hp : stripPrefix ("stale attempt: " ++ attempt ++ " is no longer current for object " ++
      object) "stale attempt: " =
      some (attempt ++ " is no longer current for object " ++ object) := by
    rw [String.append_assoc, String.append_assoc, stripPrefix_append, String.append_assoc]
  have hs := splitOnce_append " is no longer current for object " ' '
    "is no longer current for object ".toList attempt object rfl h
  show (match (stripPrefix ("stale attempt: " ++ attempt ++
      " is no longer current for object " ++ object) "stale attempt: ").bind
      (splitOnce · " is no longer current for object ") with
    | some (a, o) => ReclaimError.staleAttempt a o
    | none => _) = _
  rw [hp, Option.bind_some, hs]

theorem hop_staleEpoch (expected got : Nat) (he : expected < 2 ^ 64) (hg : got < 2 ^ 64) :
    hop (.staleEpoch expected got) = .staleEpoch expected got := by
  have htext : (ReclaimError.staleEpoch expected got).text =
      "stale coordinator epoch: expected " ++ (toString expected ++ ", got " ++ toString got) := by
    show "stale coordinator epoch: expected " ++ toString expected ++ ", got " ++ toString got = _
    rw [String.append_assoc, String.append_assoc, String.append_assoc]
  have hs := splitOnce_append ", got " ',' [' ', 'g', 'o', 't', ' '] (toString expected)
    (toString got) rfl (comma_not_mem_toString expected)
  show (match ((stripPrefix (ReclaimError.staleEpoch expected got).text
      "stale coordinator epoch: expected ").bind
        (splitOnce · ", got ")).bind (fun p =>
          (parseU64 p.1).bind fun expected => (parseU64 p.2).map fun got => (expected, got)) with
    | some (e, g) => ReclaimError.staleEpoch e g
    | none => _) = _
  rw [htext, stripPrefix_append, Option.bind_some, hs, Option.bind_some]
  show (match (parseU64 (toString expected)).bind fun e =>
      (parseU64 (toString got)).map fun g => (e, g) with
    | some (e, g) => ReclaimError.staleEpoch e g
    | none => _) = _
  rw [parseU64_toString he, parseU64_toString hg]
  rfl

/-- one hop gives an error back: the prefix of the display text is the one the decoder strips,
and the separators of the structured variants are not in their first field -/
theorem hop_eq {e : ReclaimError} (h : Wireable e) : hop e = e := by
  cases e with
  | invalidTransition source target =>
    obtain ⟨⟨s, rfl⟩, -⟩ := h
    exact hop_invalidTransition _ _ s.no_space
  | staleEpoch expected got => exact hop_staleEpoch expected got h.1 h.2
  | staleAttempt attempt object =>
    obtain ⟨u, rfl⟩ := h
    exact hop_staleAttempt _ _ u.no_space
  | _ => exact congrArg _ (WireError.payload_append _ _)

/-! ## journeys -/

/-- a variant that carries one text -/
def messageVariants : List (String → ReclaimError) :=
  [.reservationConflict, .dependencyViolation, .survivabilityViolation, .pinnedObject,
    .protectedObject, .integrityFailure, .archiveFailure, .compressionFailure,
    .decompressionFailure, .transport, .protocol, .persistence, .recovery, .policy, .backend,
    .pressure, .notFound, .generationMismatch, .invalidArgument, .io, .dedup, .internal]

theorem wireable_of_variant {v : String → ReclaimError} (hv : v ∈ messageVariants) (s : String) :
    Wireable (v s) := by
  simp only [messageVariants, List.mem_cons, List.not_mem_nil, or_false] at hv
  rcases hv with rfl | rfl | rfl | rfl | rfl | rfl | rfl | rfl | rfl | rfl | rfl | rfl | rfl |
    rfl | rfl | rfl | rfl | rfl | rfl | rfl | rfl | rfl <;> exact trivial

/-- what happens to an error on its way through the processes -/
inductive Leg where
  /-- it crosses the wire -/
  | hop
  /-- its text becomes the text of another error -/
  | wrap (v : {v : String → ReclaimError // v ∈ messageVariants})

def Leg.run : Leg → ReclaimError → ReclaimError
  | .hop, e => ReclaimFabric.hop e
  | .wrap v, e => v.val e.text

def travel (legs : List Leg) (e : ReclaimError) : ReclaimError :=
  legs.foldl (fun e leg => leg.run e) e

/-- the legs that are not hops -/
def Leg.isWrap : Leg → Bool
  | .hop => false
  | .wrap _ => true

/-- a journey ends where it would have ended without its hops -/
theorem travel_eq_wraps (legs : List Leg) (e : ReclaimError) (h : Wireable e) :
    travel legs e = travel (legs.filter Leg.isWrap) e := by
  induction legs generalizing e with
  | nil => rfl
  | cons leg legs ih =>
    cases leg with
    | hop =>
      show travel legs (ReclaimFabric.hop e) = travel (legs.filter Leg.isWrap) e
      rw [hop_eq h]
      exact ih e h
    | wrap v => exact ih (v.val e.text) (wireable_of_variant v.property _)

/-- **A typed error survives the wire**: one hop gives it back, so does any number of hops, and
hops leave no trace on a journey on which its text is wrapped in other errors. -/
theorem typed_errors_survive_the_wire (e : ReclaimError) (h : Wireable e) :
    (WireError.ofError e).toError = e ∧ (∀ n, hop^[n] e = e) ∧
      ∀ legs, travel legs e = travel (legs.filter Leg.isWrap) e :=
  ⟨hop_eq h, fun n => Function.iterate_fixed (hop_eq h) n, fun legs => travel_eq_wraps legs e h⟩

theorem typed_errors_survive_the_wire_stale :
    (WireError.ofError (.staleAttempt Uuid.nil.text "stale attempt: x")).toError =
      .staleAttempt Uuid.nil.text "stale attempt: x" :=
  (typed_errors_survive_the_wire (.staleAttempt Uuid.nil.text "stale attempt: x")
    ⟨Uuid.nil, rfl⟩).1

end ReclaimFabric
