import Mathlib.Algebra.Order.Ring.Int
import Mathlib.Data.Fin.Basic
import Mathlib.Data.List.Sort
import Mathlib.Data.List.Infix
import Mathlib.Data.Set.Function

/-!
# Identities, numbers, metadata values and errors

The scalar vocabulary of the runtime, under the source's names:

* `Uuid`, `ContentHash`   128 and 256 bit identities with their canonical lower-case text, which
                          is also what the store sorts by;
* `F64`                   a double, given by the shortest decimal that reads back as it (the
                          text the runtime prints) or by one of the non-finite values;
* `Json`                  the values of application metadata and of audit details;
* `ReclaimError`          `errors.rs` with the display text of every variant.

`Bytes` are payloads.  An unsigned 64 bit field is a `Nat`; where the source checks a range
(`sql_u64`, `checked_add`) the model checks it too.
-/

namespace ReclaimFabric

abbrev Bytes := List UInt8

/-! ## text -/

def hexDigit (n : Nat) : Char := ("0123456789abcdef".toList).getD n '0'

/-- the last `w` hexadecimal digits of `n`, most significant first -/
def hexDigits : Nat → Nat → List Char
  | 0, _ => []
  | w + 1, n => hexDigits w (n / 16) ++ [hexDigit (n % 16)]

/-- the characters `str::trim` removes -/
def isWhitespace (c : Char) : Bool :=
  (9 ≤ c.toNat && c.toNat ≤ 13) || c.toNat == 0x20 || c.toNat == 0x85 || c.toNat == 0xa0 ||
    c.toNat == 0x1680 || (0x2000 ≤ c.toNat && c.toNat ≤ 0x200a) || c.toNat == 0x2028 ||
    c.toNat == 0x2029 || c.toNat == 0x202f || c.toNat == 0x205f || c.toNat == 0x3000

/-- `s.trim().is_empty()` -/
def blank (s : String) : Bool := s.toList.all isWhitespace

/-- `s.trim() == s` -/
def trimmed (s : String) : Bool :=
  !(s.toList.head?.any isWhitespace) && !(s.toList.getLast?.any isWhitespace)

/-- `char::escape_debug`, for all but the unprintable characters beyond Latin-1 -/
def escaped (c : Char) : List Char :=
  if c = '"' ∨ c = '\\' then ['\\', c]
  else if c = '\t' then "\\t".toList
  else if c = '\n' then "\\n".toList
  else if c = '\r' then "\\r".toList
  else if c.toNat = 0 then "\\0".toList
  else if c.toNat < 0x20 ∨ 0x7f ≤ c.toNat ∧ c.toNat < 0xa0 ∨ c.toNat = 0xad then
    "\\u\x7b".toList ++ hexDigits (if c.toNat < 16 then 1 else 2) c.toNat ++ "\x7d".toList
  else [c]

/-- `{s:?}` -/
def quoted (s : String) : String := "\"" ++ String.ofList (s.toList.flatMap escaped) ++ "\""

/-! ## identities -/

instance uuidRange : NeZero (2 ^ 128) := ⟨by decide⟩

instance hashRange : NeZero (2 ^ 256) := ⟨by decide⟩

structure Uuid where
  bits : Fin (2 ^ 128)
deriving DecidableEq

namespace Uuid

def nil : Uuid := ⟨0⟩

/-- the 36 characters of the canonical form -/
def chars (u : Uuid) : List Char :=
  let h := hexDigits 32 u.bits
  h.take 8 ++ ['-'] ++ (h.drop 8).take 4 ++ ['-'] ++ (h.drop 12).take 4 ++ ['-'] ++
    (h.drop 16).take 4 ++ ['-'] ++ h.drop 20

def text (u : Uuid) : String := String.ofList u.chars

instance : ToString Uuid := ⟨text⟩

/-- the order of the text column -/
def le (u v : Uuid) : Bool := decide (u.bits ≤ v.bits)

end Uuid

/-- a SHA-256 value -/
structure ContentHash where
  bits : Fin (2 ^ 256)
deriving DecidableEq

namespace ContentHash

def text (h : ContentHash) : String := String.ofList (hexDigits 64 h.bits)

instance : ToString ContentHash := ⟨text⟩

def le (g h : ContentHash) : Bool := decide (g.bits ≤ h.bits)

end ContentHash

/-! ## doubles -/

/-- `dec m e` is the double whose shortest decimal is `m · 10 ^ e` -/
inductive F64 where
  | dec (mant exp : Int)
  | inf (negative : Bool)
  | nan
deriving DecidableEq

namespace F64

def isFinite : F64 → Bool
  | .dec _ _ => true
  | _ => false

/-- `x < 0.0` -/
def isNegative : F64 → Bool
  | .dec m _ => decide (m < 0)
  | .inf n => n
  | .nan => false

/-- `(0.0..=1.0).contains(&x)` -/
def inUnit : F64 → Bool
  | .dec m e => decide (0 ≤ m) && decide (m * 10 ^ e.toNat ≤ 10 ^ (-e).toNat)
  | _ => false

/-- `{x}`: no exponent is ever printed -/
def text : F64 → String
  | .dec m e =>
    let sign := if m < 0 then "-" else ""
    if 0 ≤ e then sign ++ toString (m.natAbs * 10 ^ e.toNat)
    else
      let d := (-e).toNat
      let frac := toString (m.natAbs % 10 ^ d)
      sign ++ toString (m.natAbs / 10 ^ d) ++ "." ++
        String.ofList (List.replicate (d - frac.length) '0') ++ frac
  | .inf n => if n then "-inf" else "inf"
  | .nan => "NaN"

end F64

/-! ## metadata values -/

inductive Json where
  | null
  | bool (b : Bool)
  | nat (n : Nat)
  | int (z : Int)
  | float (x : F64)
  | str (s : String)
  | arr (l : List Json)
  | obj (l : List (String × Json))

namespace Json

/-- `Value::as_u64` -/
def asU64 : Json → Option Nat
  | .nat n => if n < 2 ^ 64 then some n else none
  | _ => none

end Json

/-! ## errors -/

inductive ReclaimError where
  | invalidTransition (source target : String)
  | staleEpoch (expected got : Nat)
  | staleAttempt (attempt object : String)
  | reservationConflict (message : String)
  | dependencyViolation (message : String)
  | survivabilityViolation (message : String)
  | pinnedObject (message : String)
  | protectedObject (message : String)
  | integrityFailure (message : String)
  | archiveFailure (message : String)
  | compressionFailure (message : String)
  | decompressionFailure (message : String)
  | transport (message : String)
  | protocol (message : String)
  | persistence (message : String)
  | recovery (message : String)
  | policy (message : String)
  | backend (message : String)
  | pressure (message : String)
  | notFound (message : String)
  | generationMismatch (message : String)
  | invalidArgument (message : String)
  | io (message : String)
  | dedup (message : String)
  | internal (message : String)
deriving DecidableEq

def ReclaimError.text : ReclaimError → String
  | .invalidTransition a b => "invalid lifecycle transition: " ++ a ++ " -> " ++ b
  | .staleEpoch e g => s!"stale coordinator epoch: expected {e}, got {g}"
  | .staleAttempt a o =>
    "stale attempt: " ++ a ++ " is no longer current for object " ++ o
  | .reservationConflict m => "reservation conflict: " ++ m
  | .dependencyViolation m => "dependency violation: " ++ m
  | .survivabilityViolation m => "survivability violation: " ++ m
  | .pinnedObject m => "object is pinned and cannot be reclaimed: " ++ m
  | .protectedObject m => "object is protected and cannot be reclaimed: " ++ m
  | .integrityFailure m => "integrity failure: " ++ m
  | .archiveFailure m => "archive failure: " ++ m
  | .compressionFailure m => "compression failure: " ++ m
  | .decompressionFailure m => "decompression failure: " ++ m
  | .transport m => "transport error: " ++ m
  | .protocol m => "protocol error: " ++ m
  | .persistence m => "persistence error: " ++ m
  | .recovery m => "recovery error: " ++ m
  | .policy m => "policy error: " ++ m
  | .backend m => "backend error: " ++ m
  | .pressure m => "capacity/pressure error: " ++ m
  | .notFound m => "object not found: " ++ m
  | .generationMismatch m => "generation mismatch: " ++ m
  | .invalidArgument m => "invalid argument: " ++ m
  | .io m => "io error: " ++ m
  | .dedup m => "dedup violation: " ++ m
  | .internal m => "internal error: " ++ m

instance : ToString ReclaimError := ⟨ReclaimError.text⟩

/-- `errors::Result` -/
abbrev Res := Except ReclaimError

/-- `i64::MAX`, the largest value of an SQLite INTEGER -/
def i64Max : Nat := 2 ^ 63 - 1

end ReclaimFabric
