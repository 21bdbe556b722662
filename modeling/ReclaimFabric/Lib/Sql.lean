import Mathlib.Algebra.Order.Ring.Int
import Mathlib.Data.List.Basic

/-!
# Rows with positional parameters

A row gives every column a value of one of the storage classes of SQLite.  A statement binds its
parameters by position, a query reads a row by column:

* `insertRow`   INSERT INTO t (c₁, …, cₙ) VALUES (?1, …, ?n);
* `setRow`      UPDATE t SET c = ?i, …;
* `getInteger`, `getText`, `getReal`   a column as a number or a text;
* `optional`    a column that may be NULL.

Columns and floats are parameters; `get…_ok` says when a column is read.
-/

namespace Sql

/-- a value in its storage class -/
inductive Value (φ : Type) where
  | null
  | integer (z : Int)
  | real (x : φ)
  | text (s : String)
  | blob (b : List UInt8)
deriving DecidableEq

/-- an INTEGER has 64 bits -/
def Value.Fits {φ : Type} : Value φ → Prop
  | .integer z => -2 ^ 63 ≤ z ∧ z < 2 ^ 63
  | _ => True

inductive Error (κ : Type) where
  | invalidColumnType (column : κ)
  | invalidParameterName (message : String)

abbrev Row (κ φ : Type) := κ → Value φ

variable {κ φ : Type}

/-! ## statements -/

section
variable [DecidableEq κ]

/-- the row of an INSERT; a column that is not named is NULL -/
def insertRow (columns : List κ) (params : List (Value φ)) : Row κ φ :=
  fun c => ((columns.zip params).lookup c).getD .null

/-- the row after an UPDATE; `(c, i)` is `c = ?i` -/
def setRow (assignments : List (κ × Nat)) (params : List (Value φ)) (row : Row κ φ) : Row κ φ :=
  fun c =>
    match assignments.lookup c with
    | some i => params.getD (i - 1) .null
    | none => row c

end

/-! ## columns -/

section
variable (row : Row κ φ) (c : κ)

def getInteger : Except (Error κ) Int :=
  match row c with
  | .integer z => .ok z
  | _ => .error (.invalidColumnType c)

def getText : Except (Error κ) String :=
  match row c with
  | .text s => .ok s
  | _ => .error (.invalidColumnType c)

/-- an INTEGER is converted by `ofInt` -/
def getReal (ofInt : Int → φ) : Except (Error κ) φ :=
  match row c with
  | .real x => .ok x
  | .integer z => .ok (ofInt z)
  | _ => .error (.invalidColumnType c)

/-- NULL is `none` -/
def optional {α : Type} (get : Row κ φ → κ → Except (Error κ) α) : Except (Error κ) (Option α) :=
  match row c with
  | .null => .ok none
  | _ => (get row c).map some

end

section
variable {row : Row κ φ} {c : κ}

theorem getInteger_ok {z : Int} : getInteger row c = .ok z ↔ row c = .integer z := by
  unfold getInteger
  cases row c with
  | integer z' =>
    constructor
    · intro h
      rw [Except.ok.inj h]
    · intro h
      rw [Value.integer.inj h]
  | _ => exact ⟨nofun, nofun⟩

theorem getText_ok {s : String} : getText row c = .ok s ↔ row c = .text s := by
  unfold getText
  cases row c with
  | text s' =>
    constructor
    · intro h
      rw [Except.ok.inj h]
    · intro h
      rw [Value.text.inj h]
  | _ => exact ⟨nofun, nofun⟩

/-- the value of an optional INTEGER column -/
def ofOption {α : Type} (f : α → Value φ) : Option α → Value φ
  | none => .null
  | some a => f a

theorem optionalInteger_ok {z : Option Int} :
    optional row c getInteger = .ok z ↔ row c = ofOption .integer z := by
  unfold optional getInteger
  cases z with
  | none => cases row c <;> simp [ofOption, Except.map]
  | some z => cases row c <;> simp [ofOption, Except.map]

theorem optionalText_ok {s : Option String} :
    optional row c getText = .ok s ↔ row c = ofOption .text s := by
  unfold optional getText
  cases s with
  | none => cases row c <;> simp [ofOption, Except.map]
  | some s => cases row c <;> simp [ofOption, Except.map]

theorem getReal_of_real {ofInt : Int → φ} {x : φ} (h : row c = .real x) :
    getReal row c ofInt = .ok x := by
  rw [getReal, h]

theorem optionalReal_of_real {ofInt : Int → φ} {x : Option φ} (h : row c = ofOption .real x) :
    optional row c (fun row c => getReal row c ofInt) = .ok x := by
  cases x with
  | none =>
    rw [optional, h]
    rfl
  | some x =>
    rw [optional, h]
    show Except.map some (getReal row c ofInt) = _
    rw [getReal_of_real h]
    rfl

end

end Sql
