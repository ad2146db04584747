import FieldSearch.Text.Digit

/-!
# Digits of numbers

Four hexadecimal digits give back every number below 65536, and the decimal digits of a number are
digits that begin with a zero only for zero itself.
-/

namespace FieldSearch.Text

/-! ## Hexadecimal digits -/

theorem hexDigit?_digitChar : ∀ d < 16, hexDigit? (Nat.digitChar d) = some d := by decide

theorem hex_zero (width : Nat) (h : 0 < width) : hex width 0 = List.replicate width '0' := by
  obtain ⟨w, rfl⟩ : ∃ w, width = w + 1 := Nat.exists_eq_add_one_of_ne_zero (by omega)
  rw [hex, Nat.toDigits_zero, List.replicate_succ']
  rfl

/-- Wider by one, a number shows its last digit after the others. -/
theorem hex_succ (width n : Nat) (h : 0 < width) :
    hex (width + 1) n = hex width (n / 16) ++ [Nat.digitChar (n % 16)] := by
  by_cases hn : n < 16
  · rw [Nat.div_eq_of_lt hn, Nat.mod_eq_of_lt hn, hex_zero width h, hex, Nat.toDigits_of_lt_base hn]
    rfl
  · rw [hex, hex, Nat.toDigits_of_base_le (by decide) (Nat.le_of_not_lt hn), List.length_append,
      List.length_singleton, Nat.add_sub_add_right, List.append_assoc]

theorem hex_four {n : Nat} (h : n < 0x10000) : hex 4 n =
    [Nat.digitChar (n / 0x1000), Nat.digitChar (n / 0x100 % 16), Nat.digitChar (n / 16 % 16),
      Nat.digitChar (n % 16)] := by
  have hone : hex 1 (n / 0x1000) = [Nat.digitChar (n / 0x1000)] := by
    rw [hex, Nat.toDigits_of_lt_base (by omega)]
    rfl
  have htwo : n / 16 / 16 = n / 0x100 := Nat.div_div_eq_div_mul n 16 16
  have hthree : n / 0x100 / 16 = n / 0x1000 := Nat.div_div_eq_div_mul n 0x100 16
  rw [hex_succ 3 n (by decide), hex_succ 2 _ (by decide), hex_succ 1 _ (by decide), htwo, hthree,
    hone]
  rfl

/-! ## Decimal digits -/

theorem isDigit_of_mem_ofNat {n : Nat} {c : Char} (h : c ∈ ofNat n) : c.isDigit = true :=
  Nat.isDigit_of_mem_toDigits (by decide) (by decide) h

theorem ofDigitChars_ofNat (n : Nat) : Nat.ofDigitChars 10 (ofNat n) 0 = n :=
  Nat.ofDigitChars_ten_toDigits

theorem ofNat_eq_cons (n : Nat) : ∃ d ds, ofNat n = d :: ds :=
  List.exists_cons_of_ne_nil Nat.toDigits_ne_nil

theorem ofNat_eq_zero_cons {n : Nat} {ds : Text} (h : ofNat n = '0' :: ds) : n = 0 := by
  induction n using Nat.strongRecOn generalizing ds with
  | ind n ih =>
    by_cases hn : n < 10
    · rw [ofNat, Nat.toDigits_of_lt_base hn] at h
      have hd : Nat.digitChar n = '0' := (List.cons.inj h).1
      exact Nat.digitChar_eq_zero.mp hd
    · rw [ofNat, Nat.toDigits_of_base_le (by decide) (Nat.le_of_not_lt hn)] at h
      obtain ⟨d, rest, hrest⟩ := ofNat_eq_cons (n / 10)
      rw [show Nat.toDigits 10 (n / 10) = d :: rest from hrest] at h
      obtain ⟨rfl, -⟩ := List.cons.inj h
      have := ih (n / 10) (by omega) hrest
      omega

theorem lt_ten_pow (n : Nat) : n < Nat.pow 10 (ofNat n).length :=
  (Nat.length_toDigits_le_iff (by decide) Nat.length_toDigits_pos).mp (Nat.le_refl _)

theorem ten_pow_le {n k : Nat} (hn : 0 < n) (h : k < (ofNat n).length) : Nat.pow 10 k ≤ n := by
  cases k with
  | zero => exact hn
  | succ k =>
    refine Nat.le_of_not_lt fun hlt => ?_
    exact Nat.not_lt.mpr ((Nat.length_toDigits_le_iff (by decide) k.succ_pos).mpr hlt) h

end FieldSearch.Text
