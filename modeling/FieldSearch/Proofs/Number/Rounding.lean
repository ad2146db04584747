import Mathlib

/-!
# Rounding to a binary number

A positive number is rounded to the nearest one with 53 binary digits, a half going to the even
neighbour. Of the result it matters whether it is zero, finite or infinite, and this depends on two
bounds only: half of the least number there is, and the middle between the greatest one and the next
power of two.
-/

namespace FieldSearch.Binary64

open Float.Model Float.Model.UnpackedFloat

/-! ## Residual bits -/

/-- The exact number that a mantissa and its residual bits stand for. -/
def Represents (em : ExtendedMantissa) (x : ℚ) : Prop :=
  match em.roundBit, em.stickyBit with
  | false, false => x = em.mantissa
  | false, true => em.mantissa < x ∧ x < em.mantissa + 1 / 2
  | true, false => x = em.mantissa + 1 / 2
  | true, true => em.mantissa + 1 / 2 < x ∧ x < em.mantissa + 1

theorem represents_exact (m : ℕ) : Represents (.ofMantissaAndAccuracy m .exact) m := rfl

namespace Represents

variable {em : ExtendedMantissa} {x : ℚ}

theorem bounds (h : Represents em x) : em.mantissa ≤ x ∧ x < em.mantissa + 1 := by
  obtain ⟨m, round, sticky⟩ := em
  cases round <;> cases sticky <;> simp only [Represents] at h ⊢ <;> constructor <;> linarith

theorem shiftRightOne (h : Represents em x) : Represents em.shiftRightOne (x / 2) := by
  obtain ⟨m, round, sticky⟩ := em
  obtain ⟨half, last, rfl⟩ : ∃ half, ∃ last : Bool, m = 2 * half + last.toNat := by
    obtain heven | hodd := Nat.mod_two_eq_zero_or_one m
    · exact ⟨m / 2, false, by rw [Bool.toNat_false]; omega⟩
    · exact ⟨m / 2, true, by rw [Bool.toNat_true]; omega⟩
  have hhalf : (2 * half + last.toNat) / 2 = half := by
    have := Bool.toNat_lt last
    omega
  have hlast : ((2 * half + last.toNat) % 2 != 0) = last := by
    cases last <;> simp
  rw [ExtendedMantissa.shiftRightOne, hhalf, hlast]
  cases round <;> cases sticky <;> cases last <;>
    simp only [Represents, Bool.or_self, Bool.or_true, Bool.true_or, Bool.toNat_true,
      Bool.toNat_false] at h ⊢ <;> push_cast at h
  · linarith
  · linarith
  all_goals constructor <;> linarith

theorem shiftRight (h : Represents em x) (n : ℕ) : Represents (em >>> n) (x / 2 ^ n) := by
  show Represents (n.repeat ExtendedMantissa.shiftRightOne em) _
  induction n with
  | zero => simpa [Nat.repeat] using h
  | succ n ih =>
    rw [Nat.repeat, pow_succ, div_mul_eq_div_div]
    exact ih.shiftRightOne

/-- The rounded mantissa reaches a whole number from half a unit below it on; from the very half
only an even one. -/
theorem le_roundedMantissa_iff (h : Represents em x) (n : ℕ) :
    n ≤ em.roundedMantissa ↔ (n : ℚ) - 1 / 2 < x ∨ x = n - 1 / 2 ∧ n % 2 = 0 := by
  have hbounds := h.bounds
  obtain ⟨m, round, sticky⟩ := em
  have hrounded : m ≤ (ExtendedMantissa.mk m round sticky).roundedMantissa ∧
      (ExtendedMantissa.mk m round sticky).roundedMantissa ≤ m + 1 := by
    cases round <;> cases sticky <;>
      simp only [ExtendedMantissa.roundedMantissa, ExtendedMantissa.accuracy,
        Accuracy.roundToNearestEven] <;> omega
  simp only at hbounds
  obtain hn | rfl | hn : n ≤ m ∨ n = m + 1 ∨ m + 2 ≤ n := by omega
  · have hcast : (n : ℚ) ≤ m := by exact_mod_cast hn
    exact iff_of_true (hn.trans hrounded.1) (.inl (by linarith))
  · -- only here the residual bits decide
    push_cast
    cases round <;> cases sticky <;>
      simp only [Represents, ExtendedMantissa.roundedMantissa, ExtendedMantissa.accuracy,
        Accuracy.roundToNearestEven] at h ⊢
    · refine iff_of_false (by omega) ?_
      rintro (hx | ⟨hx, -⟩) <;> linarith
    · refine iff_of_false (by omega) ?_
      rintro (hx | ⟨hx, -⟩) <;> linarith
    · have hhalf : x = (m : ℚ) + 1 - 1 / 2 := by linarith
      rw [hhalf]
      simp only [lt_self_iff_false, false_or, true_and]
      omega
    · exact iff_of_true (by omega) (.inl (by linarith))
  · have hcast : (m : ℚ) + 2 ≤ n := by exact_mod_cast hn
    refine iff_of_false (by omega) ?_
    rintro (hx | ⟨hx, -⟩) <;> linarith

theorem roundedMantissa_pos_iff (h : Represents em x) : 0 < em.roundedMantissa ↔ 1 / 2 < x := by
  rw [Nat.lt_iff_add_one_le, h.le_roundedMantissa_iff (0 + 1)]
  norm_num

theorem le_roundedMantissa_iff_of_even (h : Represents em x) {n : ℕ} (hn : n % 2 = 0) :
    n ≤ em.roundedMantissa ↔ (n : ℚ) - 1 / 2 ≤ x := by
  rw [h.le_roundedMantissa_iff n, le_iff_lt_or_eq, and_iff_left hn, eq_comm]

theorem roundedMantissa_le (h : Represents em x) {n : ℕ} (hx : x < n) :
    em.roundedMantissa ≤ n := by
  by_contra hgt
  obtain hlt | ⟨heq, -⟩ := (h.le_roundedMantissa_iff (n + 1)).mp (Nat.lt_of_not_le hgt)
  · push_cast at hlt
    linarith
  · push_cast at heq
    linarith

end Represents

/-! ## Rounding -/

/-- Half of the least positive number, and the middle between the greatest number and the next power
of two. -/
def tiny : ℚ := 2 ^ (-1075 : ℤ)

def huge : ℚ := 2 ^ 1024 - 2 ^ 970

theorem tiny_eq : tiny = 1 / 2 * 2 ^ (-1074 : ℤ) := by
  have hstep : (2 : ℚ) ^ (-1074 : ℤ) = 2 ^ (-1075 : ℤ) * 2 := zpow_add_one₀ two_ne_zero (-1075)
  rw [tiny, hstep]
  generalize (2 : ℚ) ^ (-1075 : ℤ) = unit
  ring

theorem mul_le_tiny {z : ℚ} (hz : z ≤ 1 / 2) : z * 2 ^ (-1074 : ℤ) ≤ tiny := by
  rw [tiny_eq]
  exact mul_le_mul_of_nonneg_right hz (by positivity)

theorem tiny_lt_mul {z : ℚ} {t : ℤ} (hz : 1 / 2 < z) (ht : -1074 ≤ t) : tiny < z * 2 ^ t := by
  have hunit : (0 : ℚ) < 2 ^ (-1074 : ℤ) := by positivity
  have hle : (2 : ℚ) ^ (-1074 : ℤ) ≤ 2 ^ t := zpow_le_zpow_right₀ one_le_two ht
  calc tiny = 1 / 2 * 2 ^ (-1074 : ℤ) := tiny_eq
    _ < z * 2 ^ (-1074 : ℤ) := mul_lt_mul_of_pos_right hz hunit
    _ ≤ z * 2 ^ t := mul_le_mul_of_nonneg_left hle (by linarith)

theorem huge_eq : huge = (2 ^ 53 - 1 / 2) * 2 ^ (971 : ℤ) := by
  have hlow : (2 : ℚ) ^ (971 : ℤ) = 2 * 2 ^ 970 := by
    rw [← pow_succ']
    rfl
  have hhigh : (2 : ℚ) ^ 1024 = 2 ^ 53 * (2 * 2 ^ 970) := by
    rw [← pow_succ', ← pow_add]
  rw [huge, hlow, hhigh]
  generalize (2 : ℚ) ^ 970 = unit
  ring

theorem mul_lt_huge {z : ℚ} {t : ℤ} (hz : z < 2 ^ 53) (ht : t ≤ 970) : z * 2 ^ t < huge := by
  have hpos : (0 : ℚ) < 2 ^ (970 : ℤ) := by positivity
  have hstep : (2 : ℚ) ^ (971 : ℤ) = 2 ^ (970 : ℤ) * 2 := zpow_add_one₀ two_ne_zero 970
  calc z * 2 ^ t ≤ 2 ^ 53 * 2 ^ (970 : ℤ) :=
        mul_le_mul hz.le (zpow_le_zpow_right₀ one_le_two ht) (by positivity) (by positivity)
    _ < (2 ^ 53 - 1 / 2) * 2 ^ (971 : ℤ) := by
        rw [hstep]
        generalize (2 : ℚ) ^ (970 : ℤ) = unit at hpos
        linarith
    _ = huge := huge_eq.symm

theorem mul_lt_huge_iff {z : ℚ} : z * 2 ^ (971 : ℤ) < huge ↔ z < 2 ^ 53 - 1 / 2 := by
  rw [huge_eq]
  exact mul_lt_mul_iff_of_pos_right (by positivity)

theorem huge_le_mul {z : ℚ} {t : ℤ} (hz : 2 ^ 52 ≤ z) (ht : 972 ≤ t) : huge ≤ z * 2 ^ t := by
  have hpos : (0 : ℚ) < 2 ^ (971 : ℤ) := by positivity
  have hstep : (2 : ℚ) ^ (972 : ℤ) = 2 ^ (971 : ℤ) * 2 := zpow_add_one₀ two_ne_zero 971
  calc huge = (2 ^ 53 - 1 / 2) * 2 ^ (971 : ℤ) := huge_eq
    _ ≤ 2 ^ 52 * 2 ^ (972 : ℤ) := by
        rw [hstep]
        generalize (2 : ℚ) ^ (971 : ℤ) = unit at hpos
        linarith
    _ ≤ z * 2 ^ t :=
        mul_le_mul hz (zpow_le_zpow_right₀ one_le_two ht) (by positivity) (by linarith)

/-- Where the mantissa is rounded up to a power of two, the exponent of the result is one higher. -/
theorem exponent_le_iff {z : ℚ} {t : ℤ} (hz : z < 2 ^ 53) (hnormal : 2 ^ 52 ≤ z ∨ t = -1074) :
    (z < 2 ^ 53 - 1 / 2 → (t ≤ 971 ↔ z * 2 ^ t < huge)) ∧
      (2 ^ 53 - 1 / 2 ≤ z → (t + 1 ≤ 971 ↔ z * 2 ^ t < huge)) := by
  obtain hlow | rfl | hhigh : t ≤ 970 ∨ t = 971 ∨ 972 ≤ t := by omega
  · have hlt := mul_lt_huge hz hlow
    exact ⟨fun _ => iff_of_true (by omega) hlt, fun _ => iff_of_true (by omega) hlt⟩
  · rw [mul_lt_huge_iff]
    exact ⟨fun h => iff_of_true le_rfl h, fun h => iff_of_false (by omega) (not_lt.mpr h)⟩
  · have hz52 : 2 ^ 52 ≤ z := hnormal.resolve_right (by omega)
    have hge := not_lt.mpr (huge_le_mul hz52 hhigh)
    exact ⟨fun _ => iff_of_false (by omega) hge, fun _ => iff_of_false (by omega) hge⟩

/-- A mantissa and an exponent as they are kept. -/
structure IsCanonical (m : ℕ) (e : ℤ) : Prop where
  fits : m < 2 ^ 53
  least : -1074 ≤ e
  normal : 2 ^ 52 ≤ m ∨ e = -1074

/-- What a number is rounded to, before its exponent is looked at. -/
inductive Rounded (s : Sign) (x : ℚ) : UnpackedFloat → Prop
  | zero : x ≤ tiny → Rounded s x (.zero s)
  | finite {m : ℕ} {e : ℤ} (pos : 0 < m) : tiny < x → IsCanonical m e → (e ≤ 971 ↔ x < huge) →
      Rounded s x (.finite s m e pos)

theorem targetExponent_binary64 (e : ℤ) :
    Format.binary64.targetExponent e = max (e - 53) (-1074) :=
  rfl

theorem targetExponent_eq (m : ℕ) (e : ℤ) :
    Format.binary64.targetExponent (totalExponent m e) = max (m.log2 + e - 52) (-1074) := by
  rw [targetExponent_binary64, totalExponent]
  omega

/-- A rounded mantissa that has one digit too many loses its last one, which is zero. -/
theorem shiftToTargetExponent_carry {r : ℕ} {t : ℤ} (hr : r ≤ 2 ^ 53) (ht : -1074 ≤ t) :
    shiftToTargetExponent .binary64 r t .exact =
      if r < 2 ^ 53 then (⟨r, false, false⟩, t) else (⟨2 ^ 52, false, false⟩, t + 1) := by
  rw [shiftToTargetExponent, targetExponent_eq]
  split
  · rename_i hlt
    have hlog : r.log2 ≤ 52 := by
      by_cases hzero : r = 0
      · simp [hzero]
      · have := (Nat.log2_lt hzero).mpr hlt
        omega
    have hmax : max ((r.log2 : ℤ) + t - 52) (-1074) - t ≤ 0 := by omega
    rw [shiftToExponent, Int.toNat_of_nonpos hmax]
    simp [ExtendedMantissa.ofMantissaAndAccuracy, HShiftRight.hShiftRight, Nat.repeat]
  · rename_i hlt
    obtain rfl : r = 2 ^ 53 := by omega
    have hlog : (2 ^ 53 : ℕ).log2 = 53 := Nat.log2_two_pow
    have hmax : max (((2 ^ 53 : ℕ).log2 : ℤ) + t - 52) (-1074) - t = 1 := by omega
    rw [shiftToExponent, hmax]
    rfl

theorem roundWithAccuracy_exact (s : Sign) {m : ℕ} {e : ℤ} (hpos : 0 < m) (h : IsCanonical m e) :
    roundWithAccuracy .binary64 s m e .exact = .finite s m e hpos := by
  have hcarry := shiftToTargetExponent_carry h.fits.le h.least
  rw [if_pos h.fits] at hcarry
  have hrounded : (ExtendedMantissa.mk m false false).roundedMantissa = m := rfl
  rw [roundWithAccuracy, hcarry]
  dsimp only
  rw [hrounded, hcarry, dif_neg hpos.ne']

/-- The number at its target exponent is rounded to a whole mantissa. -/
theorem Rounded.of_scaled {em : ExtendedMantissa} {z : ℚ} {t : ℤ} (s : Sign)
    (h : Represents em z) (hz : z < 2 ^ 53) (ht : -1074 ≤ t) (hnormal : 2 ^ 52 ≤ z ∨ t = -1074) :
    Rounded s (z * 2 ^ t)
      (let (last, e) := shiftToTargetExponent .binary64 em.roundedMantissa t .exact
       if hzero : last.mantissa = 0 then .zero s
       else .finite s last.mantissa e (Nat.pos_of_ne_zero hzero)) := by
  have hpos := h.roundedMantissa_pos_iff
  have hhalf := h.le_roundedMantissa_iff_of_even (n := 2 ^ 52) (by norm_num)
  have hfull := h.le_roundedMantissa_iff_of_even (n := 2 ^ 53) (by norm_num)
  have hr := h.roundedMantissa_le (n := 2 ^ 53) (by exact_mod_cast hz)
  have hexponent := exponent_le_iff hz hnormal
  generalize em.roundedMantissa = r at hpos hhalf hfull hr ⊢
  push_cast at hhalf hfull
  rw [shiftToTargetExponent_carry hr ht]
  obtain rfl | hrpos := Nat.eq_zero_or_pos r
  · have hzhalf : z ≤ 1 / 2 := not_lt.mp fun hlt => absurd (hpos.mpr hlt) (Nat.lt_irrefl 0)
    obtain hnormal | rfl := hnormal
    · linarith
    · exact .zero (mul_le_tiny hzhalf)
  have hlow : tiny < z * 2 ^ t := tiny_lt_mul (hpos.mp hrpos) ht
  by_cases hlt : r < 2 ^ 53
  · have hz' : z < 2 ^ 53 - 1 / 2 := not_le.mp fun hge => absurd (hfull.mpr hge) (by omega)
    have hcanonical : IsCanonical r t := by
      refine ⟨hlt, ht, hnormal.imp_left fun hz52 => hhalf.mpr ?_⟩
      linarith
    rw [if_pos hlt]
    dsimp only
    rw [dif_neg hrpos.ne']
    exact .finite hrpos hlow hcanonical (hexponent.1 hz')
  · have hcanonical : IsCanonical (2 ^ 52) (t + 1) := ⟨by norm_num, by omega, .inl le_rfl⟩
    rw [if_neg hlt]
    exact .finite (by norm_num) hlow hcanonical (hexponent.2 (hfull.mp (by omega)))

/-- Rounding a number of which all digits beyond those that are kept are known. -/
theorem roundWithAccuracy_rounded {m : ℕ} {e : ℤ} {accuracy : Accuracy} {y : ℚ} (s : Sign)
    (hy : Represents (.ofMantissaAndAccuracy m accuracy) y)
    (he : e ≤ max (m.log2 + e - 52) (-1074)) :
    Rounded s (y * 2 ^ e) (roundWithAccuracy .binary64 s m e accuracy) := by
  have hbounds := hy.bounds
  have hmantissa : (ExtendedMantissa.ofMantissaAndAccuracy m accuracy).mantissa = m := by
    cases accuracy with
    | exact => rfl
    | inexact o => cases o <;> rfl
  rw [hmantissa] at hbounds
  rw [roundWithAccuracy, shiftToTargetExponent, targetExponent_eq]
  generalize ht : max ((m.log2 : ℤ) + e - 52) (-1074) = t at he ⊢
  obtain ⟨n, rfl⟩ : ∃ n : ℕ, t = e + n := ⟨(t - e).toNat, by omega⟩
  have hshift : ((e + n - e).toNat : ℕ) = n := by omega
  have hx : y * 2 ^ e = y / 2 ^ n * 2 ^ (e + n) := by
    rw [zpow_add₀ two_ne_zero, zpow_natCast, mul_comm (2 ^ e), ← mul_assoc,
      div_mul_cancel₀ _ (by positivity)]
  rw [shiftToExponent, hshift, hx]
  refine Rounded.of_scaled s (hy.shiftRight n) ?_ (by omega) ?_
  · have hpow : m + 1 ≤ 2 ^ 53 * 2 ^ n := by
      calc m + 1 ≤ 2 ^ (m.log2 + 1) := Nat.lt_log2_self
        _ ≤ 2 ^ (53 + n) := Nat.pow_le_pow_right two_pos (by omega)
        _ = 2 ^ 53 * 2 ^ n := pow_add ..
    rw [div_lt_iff₀ (by positivity)]
    exact hbounds.2.trans_le (by exact_mod_cast hpow)
  · by_cases hleast : e + n = -1074
    · exact .inr hleast
    · left
      have hlog : m.log2 = 52 + n := by omega
      have hzero : m ≠ 0 := by
        rintro rfl
        rw [Nat.log2_zero] at hlog
        omega
      have hpow : 2 ^ 52 * 2 ^ n ≤ m := by
        rw [← pow_add, ← hlog]
        exact Nat.log2_self_le hzero
      rw [le_div_iff₀ (by positivity)]
      exact le_trans (by exact_mod_cast hpow) hbounds.1

/-! ## Products and quotients -/

theorem mul_rounded {m₁ m₂ : ℕ} {e₁ e₂ : ℤ} (hpos₁ : 0 < m₁) (hpos₂ : 0 < m₂)
    (hlarge : 2 ^ 52 ≤ m₁ * m₂) : Rounded .positive (m₁ * 2 ^ e₁ * (m₂ * 2 ^ e₂))
      (UnpackedFloat.mul .binary64 (.finite .positive m₁ e₁ hpos₁)
        (.finite .positive m₂ e₂ hpos₂)) := by
  have hlog : 52 ≤ (m₁ * m₂).log2 := (Nat.le_log2 (Nat.mul_pos hpos₁ hpos₂).ne').mpr hlarge
  have hx : (m₁ * 2 ^ e₁ * (m₂ * 2 ^ e₂) : ℚ) = (m₁ * m₂ : ℕ) * 2 ^ (e₁ + e₂) := by
    rw [zpow_add₀ two_ne_zero]
    push_cast
    ring
  rw [hx]
  exact roundWithAccuracy_rounded _ (represents_exact _) (by omega)

theorem represents_fraction {r d : ℕ} (hr : r < d) (q : ℕ) :
    Represents (.ofMantissaAndAccuracy q (accuracyOfFraction r d)) (q + r / d) := by
  have hd : (0 : ℚ) < d := by exact_mod_cast Nat.zero_lt_of_lt hr
  unfold accuracyOfFraction
  split
  · rename_i hzero
    simp [Represents, ExtendedMantissa.ofMantissaAndAccuracy, hzero]
  · rename_i hzero
    have hpos : (0 : ℚ) < r / d := div_pos (by exact_mod_cast Nat.pos_of_ne_zero hzero) hd
    have hone : (r : ℚ) / d < 1 := (div_lt_one hd).mpr (by exact_mod_cast hr)
    have hcast : ((2 * r : ℕ) : ℚ) / d = 2 * (r / d) := by
      push_cast
      ring
    cases hcompare : compare (2 * r) d with
    | lt =>
      have hlt : ((2 * r : ℕ) : ℚ) / d < 1 :=
        (div_lt_one hd).mpr (by exact_mod_cast compare_lt_iff_lt.mp hcompare)
      refine ⟨?_, ?_⟩ <;> simp only [ExtendedMantissa.ofMantissaAndAccuracy] <;> linarith
    | eq =>
      have heq : ((2 * r : ℕ) : ℚ) / d = 1 := by
        rw [compare_eq_iff_eq.mp hcompare, div_self hd.ne']
      show (q : ℚ) + r / d = q + 1 / 2
      linarith
    | gt =>
      have hgt : 1 < ((2 * r : ℕ) : ℚ) / d :=
        (one_lt_div hd).mpr (by exact_mod_cast compare_gt_iff_gt.mp hcompare)
      refine ⟨?_, ?_⟩ <;> simp only [ExtendedMantissa.ofMantissaAndAccuracy] <;> linarith

theorem represents_div (n : ℕ) {d : ℕ} (hd : 0 < d) :
    Represents (.ofMantissaAndAccuracy (n / d) (accuracyOfFraction (n % d) d)) (n / d) := by
  have hx : (n : ℚ) / d = (n / d : ℕ) + (n % d : ℕ) / d := by
    have hne : (d : ℚ) ≠ 0 := by exact_mod_cast hd.ne'
    rw [eq_comm, eq_div_iff hne, add_mul, div_mul_cancel₀ _ hne]
    exact_mod_cast Nat.div_add_mod' n d
  rw [hx]
  exact represents_fraction (Nat.mod_lt _ hd) _

theorem div_rounded {m₁ m₂ : ℕ} {e₁ e₂ : ℤ} (hpos₁ : 0 < m₁) (hpos₂ : 0 < m₂) :
    Rounded .positive (m₁ * 2 ^ e₁ / (m₂ * 2 ^ e₂))
      (UnpackedFloat.div .binary64 (.finite .positive m₁ e₁ hpos₁)
        (.finite .positive m₂ e₂ hpos₂)) := by
  have htarget : Format.binary64.targetExponent (totalExponent m₁ e₁ - totalExponent m₂ e₂) =
      max (m₁.log2 + e₁ - (m₂.log2 + e₂) - 53) (-1074) := by
    rw [targetExponent_binary64, totalExponent, totalExponent]
    omega
  rw [UnpackedFloat.div, divCore, htarget]
  generalize hte : min (e₁ - e₂) (max (m₁.log2 + e₁ - (m₂.log2 + e₂) - 53) (-1074)) = te
  obtain ⟨n, hn⟩ : ∃ n : ℕ, e₁ = te + e₂ + n := ⟨(e₁ - e₂ - te).toNat, by omega⟩
  have hshift : (e₁ - e₂ - te).toNat = n := by omega
  have hx : (m₁ * 2 ^ e₁ / (m₂ * 2 ^ e₂) : ℚ) = (m₁ <<< n : ℕ) / m₂ * 2 ^ te := by
    have hne : (m₂ : ℚ) ≠ 0 := by exact_mod_cast hpos₂.ne'
    have hne' : (2 : ℚ) ^ e₂ ≠ 0 := by positivity
    rw [hn, zpow_add₀ two_ne_zero, zpow_add₀ two_ne_zero, zpow_natCast, Nat.shiftLeft_eq]
    push_cast
    rw [div_eq_iff (mul_ne_zero hne hne'), div_mul_eq_mul_div, div_mul_eq_mul_div, eq_div_iff hne]
    ring
  rw [hx, hshift]
  refine roundWithAccuracy_rounded _ (represents_div _ hpos₂) ?_
  by_cases hleast : te ≤ -1074
  · omega
  · have hlarge : 53 + m₂.log2 ≤ m₁.log2 + n := by omega
    have hquotient : 2 ^ 52 ≤ (m₁ <<< n) / m₂ := by
      rw [Nat.le_div_iff_mul_le hpos₂, Nat.shiftLeft_eq]
      calc 2 ^ 52 * m₂ ≤ 2 ^ 52 * 2 ^ (m₂.log2 + 1) :=
            Nat.mul_le_mul_left _ Nat.lt_log2_self.le
        _ = 2 ^ (53 + m₂.log2) := by
            rw [← pow_add]
            congr 1
            omega
        _ ≤ 2 ^ (m₁.log2 + n) := Nat.pow_le_pow_right two_pos hlarge
        _ = 2 ^ m₁.log2 * 2 ^ n := pow_add ..
        _ ≤ m₁ * 2 ^ n := Nat.mul_le_mul_right _ (Nat.log2_self_le hpos₁.ne')
    have hlog : 52 ≤ ((m₁ <<< n) / m₂).log2 :=
      (Nat.le_log2 (Nat.pos_of_ne_zero (by omega)).ne').mpr hquotient
    omega

end FieldSearch.Binary64
