import ReclaimFabric.Lib.Result
import ReclaimFabric.Lib.Sql
import ReclaimFabric.Model.Store
import ReclaimFabric.Model.Text

/-!
# The decoders of a stored value

`persistence.rs` reads a column as an INTEGER or a TEXT and decodes what it got.  Every decoder
has one lemma, of the form `decode v = .ok a ↔ v is what a is written as`:

* `decodeU64`, `decodeU32`, `decodeBool`    integers in the range of the field;
* `decodeUuid`, `decodeHash`                the canonical text of an identity;
* `decodeDurability`, `decodeSurvivability`, `decodeKind`, `decodeState`   the names of an
  enumeration.

The parsers of `uuid` and `serde_json`, the conversion of an INTEGER to a double and the display
of `rusqlite::Error` are parameters (`Crates`).  `ContentHash::from_hex` is not: `fromHex_text`
says that it reads every hash back from its text.
-/

namespace ReclaimFabric

open Sql (Value getInteger getText getReal optional ofOption)

/-- `BTreeMap<String, serde_json::Value>` -/
abbrev AppMetadata := List (String × Json)

/-- what the store uses of other crates -/
structure Crates where
  /-- `Uuid::parse_str` -/
  parseUuid : String → Except String Uuid
  /-- `serde_json::to_string` -/
  metadataText : AppMetadata → String
  /-- `serde_json::from_str` -/
  parseMetadata : String → Except String AppMetadata
  /-- an INTEGER read as a double -/
  ofInt : Int → F64
  /-- `rusqlite::Error::to_string` -/
  sqlText (κ : Type) : Sql.Error κ → String

/-! ## content hashes -/

namespace ContentHash

def nibble (byte : UInt8) : Option Nat :=
  if 48 ≤ byte ∧ byte ≤ 57 then some (byte.toNat - 48)
  else if 97 ≤ byte ∧ byte ≤ 102 then some (byte.toNat - 97 + 10)
  else if 65 ≤ byte ∧ byte ≤ 70 then some (byte.toNat - 65 + 10)
  else none

/-- the loop of `from_hex`: `out` is the number of the bytes so far, most significant first -/
def hexPairs (out : Nat) : List UInt8 → Option Nat
  | high :: low :: rest => do
    hexPairs (256 * out + (16 * (← nibble high) + (← nibble low))) rest
  | _ => some out

/-- the bytes of a text -/
def utf8 (l : List Char) : List UInt8 := l.flatMap String.utf8EncodeChar

def fromHex (s : String) : Res ContentHash :=
  if (utf8 s.toList).length ≠ 64 then
    .error (.invalidArgument "content hash must be 64 hex chars")
  else
    match hexPairs 0 (utf8 s.toList) with
    | some n => .ok ⟨Fin.ofNat _ n⟩
    | none => .error (.invalidArgument "invalid content hash hex")

theorem nibble_hexDigit : ∀ n < 16, ∃ b, String.utf8EncodeChar (hexDigit n) = [b] ∧
    nibble b = some n := by
  intro n hn
  refine ⟨(String.utf8EncodeChar (hexDigit n)).headD 0, ?_, ?_⟩
  · revert n
    decide
  · revert n
    decide

theorem hexPairs_append {out n : Nat} {l r : List UInt8} (h : hexPairs out l = some n)
    (heven : l.length % 2 = 0) : hexPairs out (l ++ r) = hexPairs n r := by
  induction l using List.twoStepInduction generalizing out with
  | nil =>
    cases h
    rfl
  | singleton b => cases heven
  | cons_cons high low rest ih _ =>
    rw [List.cons_append, List.cons_append]
    cases hh : nibble high with
    | none =>
      rw [hexPairs, hh] at h
      cases h
    | some x =>
      cases hl : nibble low with
      | none =>
        rw [hexPairs, hh, hl] at h
        cases h
      | some y =>
        rw [hexPairs, hh, hl] at h ⊢
        refine ih h ?_
        rw [List.length_cons, List.length_cons] at heven
        omega

theorem utf8_append (l r : List Char) : utf8 (l ++ r) = utf8 l ++ utf8 r := List.flatMap_append

theorem utf8_hexDigits_length (w n : Nat) : (utf8 (hexDigits w n)).length = w := by
  induction w generalizing n with
  | zero => rfl
  | succ w ih =>
    obtain ⟨b, hb, -⟩ := nibble_hexDigit (n % 16) (Nat.mod_lt _ (by decide))
    have hlast : utf8 [hexDigit (n % 16)] = [b] := by
      rw [utf8, List.flatMap_cons, hb]
      rfl
    rw [hexDigits, utf8_append, List.length_append, ih, hlast, List.length_singleton]

/-- two digits are one byte -/
theorem hexPairs_hexDigits (w : Nat) : ∀ n < 256 ^ w,
    hexPairs 0 (utf8 (hexDigits (2 * w) n)) = some n := by
  induction w with
  | zero =>
    intro n hn
    have h0 : n = 0 := by
      rw [Nat.pow_zero] at hn
      omega
    rw [h0]
    rfl
  | succ w ih =>
    intro n hn
    have hq : n / 16 / 16 < 256 ^ w := by
      rw [Nat.pow_succ] at hn
      rw [Nat.div_div_eq_div_mul]
      omega
    have hsplit : hexDigits (2 * (w + 1)) n =
        hexDigits (2 * w) (n / 16 / 16) ++ [hexDigit (n / 16 % 16), hexDigit (n % 16)] := by
      show hexDigits (2 * w + 1) (n / 16) ++ _ = _
      rw [hexDigits, List.append_assoc]
      rfl
    obtain ⟨high, hhigh, hx⟩ := nibble_hexDigit (n / 16 % 16) (Nat.mod_lt _ (by decide))
    obtain ⟨low, hlow, hy⟩ := nibble_hexDigit (n % 16) (Nat.mod_lt _ (by decide))
    have hlast : utf8 [hexDigit (n / 16 % 16), hexDigit (n % 16)] = [high, low] := by
      rw [utf8, List.flatMap_cons, List.flatMap_cons, hhigh, hlow]
      rfl
    have heven : (utf8 (hexDigits (2 * w) (n / 16 / 16))).length % 2 = 0 := by
      rw [utf8_hexDigits_length]
      omega
    rw [hsplit, utf8_append, hexPairs_append (ih _ hq) heven, hlast, hexPairs, hx, hy]
    show some (256 * (n / 16 / 16) + (16 * (n / 16 % 16) + n % 16)) = some n
    congr 1
    omega

theorem fromHex_text (h : ContentHash) : fromHex h.text = .ok h := by
  have hlen : (utf8 h.text.toList).length = 64 := by
    rw [toList_text, utf8_hexDigits_length]
  have hlt : (h.bits : Nat) < 256 ^ 32 := lt_of_lt_of_eq h.bits.isLt (Nat.pow_mul 2 8 32)
  rw [fromHex, if_neg (not_not_intro hlen), toList_text, hexPairs_hexDigits 32 _ hlt]
  show Except.ok (ContentHash.mk (Fin.ofNat _ h.bits)) = _
  rw [Fin.ofNat_val_eq_self]

end ContentHash

/-! ## names -/

def duraStr : DurabilityClass → String
  | .ephemeral => "EPHEMERAL"
  | .recomputable => "RECOMPUTABLE"
  | .durable => "DURABLE"
  | .critical => "CRITICAL"

def survStr : SurvivabilityClass → String
  | .ephemeral => "EPHEMERAL"
  | .recomputable => "RECOMPUTABLE"
  | .durable => "DURABLE"
  | .critical => "CRITICAL"

def PhysicalKind.asStr : PhysicalKind → String
  | .hot => "HOT"
  | .durable => "DURABLE"
  | .archived => "ARCHIVED"

/-! ## decoders -/

section
variable {κ : Type}

/-- `rusqlite::Error::InvalidParameterName(format!("corrupt {field}: {message}"))` -/
def corrupt (field message : String) : Sql.Error κ :=
  .invalidParameterName ("corrupt " ++ field ++ ": " ++ message)

def decodeU64 (value : Int) (field : String) : Except (Sql.Error κ) Nat :=
  if 0 ≤ value then .ok value.toNat
  else .error (corrupt field ("expected non-negative INTEGER, got " ++ toString value))

def decodeOptionalU64 (value : Option Int) (field : String) : Except (Sql.Error κ) (Option Nat) :=
  match value with
  | none => .ok none
  | some v => (decodeU64 v field).map some

def decodeU32 (value : Int) (field : String) : Except (Sql.Error κ) Nat :=
  if 0 ≤ value ∧ value < 2 ^ 32 then .ok value.toNat
  else .error (corrupt field ("expected an unsigned 32-bit INTEGER, got " ++ toString value))

def decodeBool (value : Int) (field : String) : Except (Sql.Error κ) Bool :=
  match value with
  | 0 => .ok false
  | 1 => .ok true
  | _ => .error (corrupt field ("expected 0 or 1, got " ++ toString value))

def decodeUuid (c : Crates) (value field : String) : Except (Sql.Error κ) Uuid :=
  match c.parseUuid value with
  | .error e => .error (corrupt field e)
  | .ok parsed =>
    if parsed.text ≠ value then .error (corrupt field "UUID is not in canonical form")
    else .ok parsed

def decodeHash (value field : String) : Except (Sql.Error κ) ContentHash :=
  match ContentHash.fromHex value with
  | .error e => .error (corrupt field e.text)
  | .ok parsed =>
    if parsed.text ≠ value then
      .error (corrupt field "content hash is not canonical lowercase hex")
    else .ok parsed

def decodeOptionalHash (value : Option String) (field : String) :
    Except (Sql.Error κ) (Option ContentHash) :=
  match value with
  | none => .ok none
  | some v => (decodeHash v field).map some

def decodeDurability (durability : String) : Except (Sql.Error κ) DurabilityClass :=
  match durability with
  | "EPHEMERAL" => .ok .ephemeral
  | "RECOMPUTABLE" => .ok .recomputable
  | "DURABLE" => .ok .durable
  | "CRITICAL" => .ok .critical
  | _ => .error (.invalidParameterName ("bad durability " ++ durability))

def decodeSurvivability (survivability : String) : Except (Sql.Error κ) SurvivabilityClass :=
  match survivability with
  | "EPHEMERAL" => .ok .ephemeral
  | "RECOMPUTABLE" => .ok .recomputable
  | "DURABLE" => .ok .durable
  | "CRITICAL" => .ok .critical
  | _ => .error (.invalidParameterName ("bad survivability " ++ survivability))

def decodeKind (kind : String) : Except (Sql.Error κ) PhysicalKind :=
  match kind with
  | "HOT" => .ok .hot
  | "DURABLE" => .ok .durable
  | "ARCHIVED" => .ok .archived
  | _ => .error (.invalidParameterName ("bad kind " ++ kind))

def decodeState (state : String) : Except (Sql.Error κ) LifecycleState :=
  match LifecycleState.parse state with
  | .error e => .error (.invalidParameterName e.text)
  | .ok s => .ok s

def decodeMetadata (c : Crates) (text : String) : Except (Sql.Error κ) AppMetadata :=
  match c.parseMetadata text with
  | .error e => .error (.invalidParameterName e)
  | .ok m => .ok m

end

/-- `b as i64` -/
def boolInt (b : Bool) : Int := if b then 1 else 0

/-! ## what a decoder accepts -/

section
variable {κ : Type} {field : String}

theorem decodeU64_ok {z : Int} {n : Nat} :
    (decodeU64 z field : Except (Sql.Error κ) Nat) = .ok n ↔ z = n := by
  unfold decodeU64
  split
  · next h =>
    rw [Except.ok.injEq]
    omega
  · next h =>
    constructor
    · nofun
    · intro e
      omega

theorem decodeOptionalU64_ok {z : Option Int} {n : Option Nat} :
    (decodeOptionalU64 z field : Except (Sql.Error κ) (Option Nat)) = .ok n ↔
      z = n.map Int.ofNat := by
  cases z with
  | none => cases n <;> simp [decodeOptionalU64]
  | some z =>
    cases n with
    | none => cases h : (decodeU64 z field : Except (Sql.Error κ) Nat) <;>
        simp [decodeOptionalU64, h, Except.map]
    | some n =>
      rw [Option.map_some, Option.some.injEq]
      refine Iff.trans ?_ (@decodeU64_ok κ field z n)
      cases h : (decodeU64 z field : Except (Sql.Error κ) Nat) <;>
        simp [decodeOptionalU64, h, Except.map]

theorem decodeU32_ok {z : Int} {n : Nat} :
    (decodeU32 z field : Except (Sql.Error κ) Nat) = .ok n ↔ z = n ∧ n < 2 ^ 32 := by
  unfold decodeU32
  split
  · next h =>
    rw [Except.ok.injEq]
    omega
  · next h =>
    constructor
    · nofun
    · intro e
      omega

theorem decodeBool_ok {z : Int} {b : Bool} :
    (decodeBool z field : Except (Sql.Error κ) Bool) = .ok b ↔ z = boolInt b := by
  unfold decodeBool
  split
  · cases b with
    | false => exact ⟨fun _ => rfl, fun _ => rfl⟩
    | true => exact ⟨nofun, nofun⟩
  · cases b with
    | false => exact ⟨nofun, nofun⟩
    | true => exact ⟨fun _ => rfl, fun _ => rfl⟩
  · next h0 h1 =>
    constructor
    · nofun
    · intro e
      cases b with
      | false => exact absurd e h0
      | true => exact absurd e h1

theorem decodeUuid_ok {c : Crates} {s : String} {u : Uuid} :
    (decodeUuid c s field : Except (Sql.Error κ) Uuid) = .ok u ↔
      s = u.text ∧ c.parseUuid u.text = .ok u := by
  unfold decodeUuid
  cases h : c.parseUuid s with
  | error e =>
    constructor
    · nofun
    · rintro ⟨rfl, hp⟩
      rw [h] at hp
      cases hp
  | ok parsed =>
    show (if parsed.text ≠ s then _ else _) = _ ↔ _
    split
    · next hne =>
      constructor
      · nofun
      · rintro ⟨rfl, hp⟩
        rw [h] at hp
        cases hp
        exact absurd rfl hne
    · next heq =>
      rw [not_not] at heq
      subst heq
      constructor
      · intro e
        cases e
        exact ⟨rfl, h⟩
      · rintro ⟨e, hp⟩
        rw [← e, h] at hp
        rw [Except.ok.inj hp]

theorem decodeHash_ok {s : String} {g : ContentHash} :
    (decodeHash s field : Except (Sql.Error κ) ContentHash) = .ok g ↔ s = g.text := by
  unfold decodeHash
  constructor
  · intro h
    cases hp : ContentHash.fromHex s with
    | error e =>
      rw [hp] at h
      cases h
    | ok parsed =>
      rw [hp] at h
      change (if parsed.text ≠ s then _ else _) = _ at h
      split at h
      · cases h
      · next ht =>
        cases h
        exact (not_not.mp ht).symm
  · rintro rfl
    rw [ContentHash.fromHex_text]
    exact if_neg (not_not_intro rfl)

theorem decodeOptionalHash_ok {s : Option String} {g : Option ContentHash} :
    (decodeOptionalHash s field : Except (Sql.Error κ) (Option ContentHash)) = .ok g ↔
      s = g.map ContentHash.text := by
  cases s with
  | none => cases g <;> simp [decodeOptionalHash]
  | some s =>
    cases g with
    | none => cases h : (decodeHash s field : Except (Sql.Error κ) ContentHash) <;>
        simp [decodeOptionalHash, h, Except.map]
    | some g =>
      rw [Option.map_some, Option.some.injEq]
      refine Iff.trans ?_ (@decodeHash_ok κ field s g)
      cases h : (decodeHash s field : Except (Sql.Error κ) ContentHash) <;>
        simp [decodeOptionalHash, h, Except.map]

theorem decodeDurability_ok {s : String} {d : DurabilityClass} :
    (decodeDurability s : Except (Sql.Error κ) DurabilityClass) = .ok d ↔ s = duraStr d := by
  constructor
  · intro h
    unfold decodeDurability at h
    split at h <;> cases h <;> rfl
  · rintro rfl
    cases d <;> rfl

theorem decodeSurvivability_ok {s : String} {d : SurvivabilityClass} :
    (decodeSurvivability s : Except (Sql.Error κ) SurvivabilityClass) = .ok d ↔
      s = survStr d := by
  constructor
  · intro h
    unfold decodeSurvivability at h
    split at h <;> cases h <;> rfl
  · rintro rfl
    cases d <;> rfl

theorem decodeKind_ok {s : String} {k : PhysicalKind} :
    (decodeKind s : Except (Sql.Error κ) PhysicalKind) = .ok k ↔ s = k.asStr := by
  constructor
  · intro h
    unfold decodeKind at h
    split at h <;> cases h <;> rfl
  · rintro rfl
    cases k <;> rfl

theorem decodeState_ok {s : String} {l : LifecycleState} :
    (decodeState s : Except (Sql.Error κ) LifecycleState) = .ok l ↔ s = l.asStr := by
  unfold decodeState
  constructor
  · intro h
    cases hp : LifecycleState.parse s with
    | error e =>
      rw [hp] at h
      cases h
    | ok l' =>
      rw [hp] at h
      cases h
      -- one step for each name of the table
      unfold LifecycleState.parse at hp
      iterate 11
        rcases Result.of_ite_ok hp with ⟨rfl, rfl⟩ | hp
        · rfl
      cases hp
  · rintro rfl
    rw [LifecycleState.parse_asStr]

theorem decodeMetadata_ok {c : Crates} {s : String} {m : AppMetadata} :
    (decodeMetadata c s : Except (Sql.Error κ) AppMetadata) = .ok m ↔
      c.parseMetadata s = .ok m := by
  unfold decodeMetadata
  cases c.parseMetadata s with
  | error e => exact ⟨nofun, nofun⟩
  | ok m' =>
    constructor
    · intro h
      rw [Except.ok.inj h]
    · intro h
      rw [Except.ok.inj h]

end

end ReclaimFabric
