import Mathlib.Data.List.Basic
import Mathlib.Data.List.Infix
import Mathlib.Data.Nat.Basic

/-!
# Scanning text

Functions that take a text apart, on lists of symbols:

* `splitOnce sep l`    cuts `l` at the first place where `sep` stands;
* `parseNat bound l`   a decimal number below `bound`, with an optional plus sign.

`splitOnce_append` says when joining is undone (the first symbol of the separator is not in the
first part), `parseNat_toDigits` that a printed number is read back.
-/

namespace Scan

section
variable {α : Type} [DecidableEq α]

/-- the two parts around the first `sep` -/
def splitOnce (sep : List α) : List α → Option (List α × List α)
  | [] => if sep = [] then some ([], []) else none
  | a :: l =>
    match (a :: l).dropPrefix? sep with
    | some rest => some ([], rest)
    | none => (splitOnce sep l).map (fun p => (a :: p.1, p.2))

theorem dropPrefix_append (p l : List α) : (p ++ l).dropPrefix? p = some l :=
  List.dropPrefix?_append_of_beq l (beq_self_eq_true p)

theorem splitOnce_self (c : α) (sep l : List α) :
    splitOnce (c :: sep) (c :: sep ++ l) = some ([], l) := by
  have h := dropPrefix_append (c :: sep) l
  rw [List.cons_append] at h ⊢
  rw [splitOnce, h]

/-- joining two parts and splitting gives them back when the first does not contain the symbol
the separator begins with -/
theorem splitOnce_append (c : α) (sep a b : List α) (hc : c ∉ a) :
    splitOnce (c :: sep) (a ++ (c :: sep ++ b)) = some (a, b) := by
  induction a with
  | nil => exact splitOnce_self c sep b
  | cons x a ih =>
    have hx : x ≠ c := fun h => hc (by rw [h]; exact List.mem_cons_self)
    have hno : (x :: (a ++ (c :: sep ++ b))).dropPrefix? (c :: sep) = none := by
      rw [List.dropPrefix?, if_neg]
      simpa using hx
    rw [List.cons_append, splitOnce, hno, ih (fun h => hc (List.mem_cons_of_mem _ h))]
    rfl

end

/-! ## numbers -/

/-- decimal digits with an accumulator, refused as soon as the value leaves the range -/
def parseDigits (bound : Nat) : List Char → Nat → Option Nat
  | [], acc => some acc
  | c :: l, acc =>
    if c.isDigit ∧ 10 * acc + (c.toNat - '0'.toNat) < bound then
      parseDigits bound l (10 * acc + (c.toNat - '0'.toNat))
    else none

def parseNat (bound : Nat) : List Char → Option Nat
  | [] => none
  | ['+'] => none
  | '+' :: l => parseDigits bound l 0
  | l => parseDigits bound l 0

theorem le_ofDigitChars (l : List Char) (acc : Nat) : acc ≤ Nat.ofDigitChars 10 l acc := by
  rw [Nat.ofDigitChars_eq_ofDigitChars_zero]
  have h : 1 * acc ≤ 10 ^ l.length * acc :=
    Nat.mul_le_mul_right acc (Nat.pow_pos (by decide))
  omega

theorem parseDigits_eq (bound : Nat) (l : List Char) (acc : Nat) (hd : ∀ c ∈ l, c.isDigit)
    (hb : Nat.ofDigitChars 10 l acc < bound) :
    parseDigits bound l acc = some (Nat.ofDigitChars 10 l acc) := by
  induction l generalizing acc with
  | nil => rfl
  | cons c l ih =>
    rw [Nat.ofDigitChars_cons] at hb ⊢
    have hlt := lt_of_le_of_lt (le_ofDigitChars l (10 * acc + (c.toNat - '0'.toNat))) hb
    rw [parseDigits, if_pos ⟨hd c List.mem_cons_self, hlt⟩]
    exact ih _ (fun c' h' => hd c' (List.mem_cons_of_mem _ h')) hb

/-- a printed number in the range is read back -/
theorem parseNat_toDigits {bound n : Nat} (h : n < bound) :
    parseNat bound (Nat.toDigits 10 n) = some n := by
  have hdig : ∀ c ∈ Nat.toDigits 10 n, c.isDigit :=
    fun c hc => Nat.isDigit_of_mem_toDigits (by decide) (by decide) hc
  have hval : Nat.ofDigitChars 10 (Nat.toDigits 10 n) 0 = n :=
    Nat.ofDigitChars_toDigits (by decide) (by decide)
  have hread := parseDigits_eq bound (Nat.toDigits 10 n) 0 hdig (by rw [hval]; exact h)
  rw [hval] at hread
  have hplus : '+' ∉ Nat.toDigits 10 n := fun hm => absurd (hdig '+' hm) (by decide)
  cases hl : Nat.toDigits 10 n with
  | nil => exact absurd hl Nat.toDigits_ne_nil
  | cons c l =>
    rw [hl] at hread hplus
    have hc : c ≠ '+' := fun he => hplus (by rw [he]; exact List.mem_cons_self)
    rw [parseNat]
    · exact hread
    · simp
    · intro hx
      exact hc (List.cons.inj hx).1
    · intro l' hx
      exact hc (List.cons.inj hx).1

end Scan
