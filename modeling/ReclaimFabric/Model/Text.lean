import ReclaimFabric.Model.Basic

/-!
# Hexadecimal text determines the identity

* `hexDigits_inj`           digits of a fixed width determine the number;
* `ContentHash.text_inj`    the text of a hash determines the hash;
* `Uuid.chars_inj`          the canonical form determines the identifier.
-/

namespace ReclaimFabric

/-! ## hexadecimal text -/

def HexChar (c : Char) : Prop := c ∈ "0123456789abcdef".toList

instance (c : Char) : Decidable (HexChar c) := inferInstanceAs (Decidable (_ ∈ _))

theorem hexDigits_length (w n : Nat) : (hexDigits w n).length = w := by
  induction w generalizing n with
  | zero => rfl
  | succ w ih => rw [hexDigits, List.length_append, ih, List.length_singleton]

theorem hexDigit_hex : ∀ n < 16, HexChar (hexDigit n) := by decide

theorem hexDigits_hex (w n : Nat) : ∀ c ∈ hexDigits w n, HexChar c := by
  induction w generalizing n with
  | zero => exact fun c hc => absurd hc List.not_mem_nil
  | succ w ih =>
    intro c hc
    rw [hexDigits, List.mem_append, List.mem_singleton] at hc
    rcases hc with hc | rfl
    · exact ih _ c hc
    · exact hexDigit_hex _ (Nat.mod_lt _ (by decide))

theorem hexDigit_inj : ∀ n < 16, ∀ k < 16, hexDigit n = hexDigit k → n = k := by decide

theorem hexDigits_inj (w : Nat) : ∀ n k, n < 16 ^ w → k < 16 ^ w →
    hexDigits w n = hexDigits w k → n = k := by
  induction w with
  | zero =>
    intro n k hn hk _
    rw [Nat.pow_zero] at hn hk
    omega
  | succ w ih =>
    intro n k hn hk h
    rw [hexDigits, hexDigits] at h
    have hlen : (hexDigits w (n / 16)).length = (hexDigits w (k / 16)).length := by
      rw [hexDigits_length, hexDigits_length]
    obtain ⟨hq, hr⟩ := List.append_inj h hlen
    have hr : n % 16 = k % 16 := hexDigit_inj _ (Nat.mod_lt _ (by decide)) _
      (Nat.mod_lt _ (by decide)) (List.singleton_injective hr)
    have hq : n / 16 = k / 16 := by
      refine ih _ _ ?_ ?_ hq
      · rw [Nat.pow_succ] at hn
        omega
      · rw [Nat.pow_succ] at hk
        omega
    omega

theorem two_pow_four_mul (w : Nat) : 2 ^ (4 * w) = 16 ^ w := Nat.pow_mul 2 4 w

/-! ## identities as text -/

theorem ContentHash.toList_text (h : ContentHash) : h.text.toList = hexDigits 64 h.bits :=
  String.toList_ofList

theorem ContentHash.text_inj {g h : ContentHash} (e : g.text.toList = h.text.toList) : g = h := by
  rw [toList_text, toList_text] at e
  have hg : (g.bits : Nat) < 16 ^ 64 := lt_of_lt_of_eq g.bits.isLt (two_pow_four_mul 64)
  have hh : (h.bits : Nat) < 16 ^ 64 := lt_of_lt_of_eq h.bits.isLt (two_pow_four_mul 64)
  exact congrArg ContentHash.mk (Fin.ext (hexDigits_inj 64 _ _ hg hh e))

/-- a uuid has no slash, so flattening a key leaves it alone -/
theorem Uuid.chars_hex (u : Uuid) : ∀ c ∈ u.chars, HexChar c ∨ c = '-' := by
  intro c hc
  simp only [Uuid.chars, List.mem_append, List.mem_singleton] at hc
  have hhex := hexDigits_hex 32 u.bits
  rcases hc with (((((((hc | hc) | hc) | hc) | hc) | hc) | hc) | hc) | hc
  · exact .inl (hhex c (List.mem_of_mem_take hc))
  · exact .inr hc
  · exact .inl (hhex c (List.mem_of_mem_drop (List.mem_of_mem_take hc)))
  · exact .inr hc
  · exact .inl (hhex c (List.mem_of_mem_drop (List.mem_of_mem_take hc)))
  · exact .inr hc
  · exact .inl (hhex c (List.mem_of_mem_drop (List.mem_of_mem_take hc)))
  · exact .inr hc
  · exact .inl (hhex c (List.mem_of_mem_drop hc))

theorem Uuid.chars_length (u : Uuid) : u.chars.length = 36 := by
  have h := hexDigits_length 32 u.bits
  simp only [Uuid.chars, List.length_append, List.length_take, List.length_drop,
    List.length_singleton, h]
  decide

theorem Uuid.text_ne (u : Uuid) : u.text ≠ "" := by
  intro h
  have hl : u.text.toList.length = 36 := by rw [Uuid.text, String.toList_ofList, chars_length]
  rw [h] at hl
  cases hl

/-- dropping the hyphens gives the digits back -/
theorem Uuid.chars_filter (u : Uuid) :
    u.chars.filter (fun c => decide (c ≠ '-')) = hexDigits 32 u.bits := by
  have hhex : ∀ c ∈ hexDigits 32 u.bits, decide (c ≠ '-') = true := by
    intro c hc
    have := hexDigits_hex 32 u.bits c hc
    rw [decide_eq_true_iff]
    rintro rfl
    revert this
    decide
  have keep : ∀ l : List Char, (∀ c ∈ l, c ∈ hexDigits 32 u.bits) →
      l.filter (fun c => decide (c ≠ '-')) = l := by
    intro l hl
    exact List.filter_eq_self.mpr fun c hc => hhex c (hl c hc)
  simp only [Uuid.chars, List.filter_append]
  rw [keep _ fun c hc => List.mem_of_mem_take hc,
    keep _ fun c hc => List.mem_of_mem_drop (List.mem_of_mem_take hc),
    keep _ fun c hc => List.mem_of_mem_drop (List.mem_of_mem_take hc),
    keep _ fun c hc => List.mem_of_mem_drop (List.mem_of_mem_take hc),
    keep _ fun c hc => List.mem_of_mem_drop hc]
  have hdash : ['-'].filter (fun c => decide (c ≠ '-')) = [] := by decide
  rw [hdash]
  simp only [List.append_nil]
  set l := hexDigits 32 u.bits
  have split (n k : Nat) : l.drop n = (l.drop n).take k ++ l.drop (n + k) := by
    rw [← List.drop_drop, List.take_append_drop]
  have e₁ := split 8 4
  have e₂ := split 12 4
  have e₃ := split 16 4
  rw [List.append_assoc, ← e₃, List.append_assoc, ← e₂, List.append_assoc, ← e₁,
    List.take_append_drop]

theorem Uuid.chars_inj {u v : Uuid} (e : u.chars = v.chars) : u = v := by
  have h := congrArg (List.filter (fun c => decide (c ≠ '-'))) e
  rw [chars_filter, chars_filter] at h
  have hu : (u.bits : Nat) < 16 ^ 32 := lt_of_lt_of_eq u.bits.isLt (two_pow_four_mul 32)
  have hv : (v.bits : Nat) < 16 ^ 32 := lt_of_lt_of_eq v.bits.isLt (two_pow_four_mul 32)
  exact congrArg Uuid.mk (Fin.ext (hexDigits_inj 32 _ _ hu hv h))

theorem Uuid.toList_text (u : Uuid) : u.text.toList = u.chars := String.toList_ofList

end ReclaimFabric
