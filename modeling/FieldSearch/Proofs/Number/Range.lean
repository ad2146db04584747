import FieldSearch.Number.Read
import FieldSearch.Proofs.Number.Rounding
import FieldSearch.Proofs.Text.Digits

/-!
# The range of numbers

A number is stored in 64 bits once it is rounded: one that is too small is zero, one that is too
large infinite. Digits and a power of ten are combined in several ways, but whether they give zero,
a finite number or infinity depends on their exact value alone.
-/

namespace FieldSearch.Binary64

open Float.Model Float.Model.UnpackedFloat

/-! ## Storing a number -/

section

variable (s : Sign)

theorem unpack_pack_infinity : (Float.Model.pack (.infinity s)).unpack = .infinity s := by
  cases s <;> rfl

theorem unpack_pack_zero : (Float.Model.pack (.zero s)).unpack = .zero s :=
  unpack_packedZero

theorem unpack_subnormal {m : ℕ} (hpos : 0 < m) (hm : m < 2 ^ 52) :
    unpack .binary64 (packComponents .binary64 s 0#11 (.ofNat 52 m)) =
      .finite s m (-1074) hpos := by
  have hvalue : (BitVec.ofNat 52 m).toNat = m := by
    rw [BitVec.toNat_ofNat, Nat.mod_eq_of_lt hm]
  have hzero : BitVec.ofNat 52 m ≠ 0#52 := by
    intro h
    rw [h] at hvalue
    exact absurd hvalue hpos.ne
  rw [UnpackedFloat.unpack]
  simp only [unpackSign_packComponents, unpackExponent_packComponents,
    unpackMantissa_packComponents, Sign.ofBitVec_toBitVec, BitVec.reduceNeg, BitVec.reduceEq,
    ↓reduceIte, hzero, ↓reduceDIte, hvalue]
  rfl

theorem unpack_normal {b m : ℕ} (hlow : 0 < b) (hhigh : b < 2047) (hmin : 2 ^ 52 ≤ m)
    (hmax : m < 2 ^ 53) :
    unpack .binary64 (packComponents .binary64 s (.ofNat 11 b) (.ofNat 52 m)) =
      .finite s m (b - 1075) (by omega) := by
  have hb : (BitVec.ofNat 11 b).toNat = b := by
    rw [BitVec.toNat_ofNat, Nat.mod_eq_of_lt (by omega)]
  have hm : (1#1 ++ BitVec.ofNat 52 m).toNat = m := by
    rw [BitVec.toNat_append, BitVec.toNat_ofNat, ← Nat.shiftLeft_add_eq_or_of_lt (by omega)]
    show 2 ^ 52 + m % 2 ^ 52 = m
    omega
  have hzero : BitVec.ofNat 11 b ≠ 0#11 := by
    intro h
    rw [h] at hb
    exact absurd hb hlow.ne
  have hones : BitVec.ofNat 11 b ≠ 2047#11 := by
    intro h
    rw [h] at hb
    exact absurd hb hhigh.ne'
  rw [UnpackedFloat.unpack]
  simp only [unpackSign_packComponents, unpackExponent_packComponents,
    unpackMantissa_packComponents, Sign.ofBitVec_toBitVec, BitVec.reduceNeg, hones, ↓reduceIte,
    hzero, hb, Nat.reduceAdd, hm]
  rfl

theorem pack_finite {m : ℕ} {e : ℤ} (hpos : 0 < m) (h : IsCanonical m e) :
    UnpackedFloat.pack .binary64 (.finite s m e hpos) =
      if 972 ≤ e then packedInfinity .binary64 s
      else if 2 ^ 52 ≤ m then
        packComponents .binary64 s (.ofNat 11 (e + 1075).toNat) (.ofNat 52 m)
      else packComponents .binary64 s 0#11 (.ofNat 52 m) := by
  have hleast := h.least
  have hlog : m.log2 + 1 = 53 ↔ 2 ^ 52 ≤ m := by
    have hfits := (Nat.log2_lt hpos.ne').mpr h.fits
    rw [← Nat.le_log2 hpos.ne']
    omega
  show (if 2048 ≤ (e + 1023 + 52).toNat + 1 then packedInfinity .binary64 s
    else if m.log2 + 1 = 53 then
      packComponents .binary64 s (.ofNat 11 (e + 1023 + 52).toNat) (.ofNat 52 m)
    else packComponents .binary64 s 0#11 (.ofNat 52 m)) = _
  have hbiased : e + 1023 + 52 = e + 1075 := by omega
  have hover : 2048 ≤ (e + 1075).toNat + 1 ↔ 972 ≤ e := by omega
  simp only [hbiased, hover, hlog]

theorem unpack_pack_finite {m : ℕ} {e : ℤ} (hpos : 0 < m) (h : IsCanonical m e) :
    (Float.Model.pack (.finite s m e hpos)).unpack =
      if 972 ≤ e then .infinity s else .finite s m e hpos := by
  have hleast := h.least
  show UnpackedFloat.unpack .binary64 (UnpackedFloat.pack .binary64 _) = _
  rw [pack_finite s hpos h]
  split
  · exact unpack_pack_infinity s
  · split
    · rename_i hmin
      rw [unpack_normal s (by omega) (by omega) hmin h.fits]
      congr 1
      omega
    · rename_i hmin
      rw [unpack_subnormal s hpos (by omega)]
      congr 1
      exact (h.normal.resolve_left hmin).symm

end

/-- What is stored for the exact number `x`: zero, a finite number or infinity. -/
inductive HasKind (s : Sign) (x : ℚ) : UnpackedFloat → Prop
  | zero : x ≤ tiny → HasKind s x (.zero s)
  | finite {m : ℕ} {e : ℤ} (pos : 0 < m) : IsCanonical m e → e ≤ 971 → tiny < x → x < huge →
      HasKind s x (.finite s m e pos)
  | infinity : huge ≤ x → HasKind s x (.infinity s)

theorem Rounded.hasKind {s : Sign} {x : ℚ} {f : UnpackedFloat} (h : Rounded s x f) :
    HasKind s x (Float.Model.pack f).unpack := by
  cases h with
  | zero hx =>
    rw [unpack_pack_zero]
    exact .zero hx
  | finite hpos hlow hcanonical hfits =>
    rw [unpack_pack_finite s hpos hcanonical]
    split
    · rename_i hover
      exact .infinity (not_lt.mp fun hx => absurd (hfits.mpr hx) (by omega))
    · rename_i hover
      exact .finite hpos hcanonical (by omega) hlow (hfits.mp (by omega))

theorem HasKind.neg {s : Sign} {x : ℚ} {f : UnpackedFloat} (h : HasKind s x f) :
    HasKind (-s) x (Float.Model.pack f.neg).unpack := by
  cases h with
  | zero hx =>
    rw [UnpackedFloat.neg, unpack_pack_zero]
    exact .zero hx
  | finite hpos hcanonical hfits hlow hhigh =>
    rw [UnpackedFloat.neg, unpack_pack_finite (-s) hpos hcanonical, if_neg (by omega)]
    exact .finite hpos hcanonical hfits hlow hhigh
  | infinity hx =>
    rw [UnpackedFloat.neg, unpack_pack_infinity]
    exact .infinity hx

/-- A finite number that is not below zero. -/
def IsSane (a : Float) : Prop := a.isFinite = true ∧ 0 ≤ a

instance (a : Float) : Decidable (IsSane a) := inferInstanceAs (Decidable (_ ∧ _))

theorem isSane_iff (a : Float) : IsSane a ↔ a.toModel.unpack.isFinite = true ∧
    (UnpackedFloat.zero .positive).le a.toModel.unpack = true := by
  have hle : 0 ≤ a ↔ (UnpackedFloat.zero .positive).le a.toModel.unpack = true := decide_eq_true_iff
  rw [IsSane, hle]
  rfl

theorem tiny_pos : 0 < tiny := by
  rw [tiny]
  positivity

theorem tiny_lt_huge : tiny < huge := by
  have hone : (1 : ℚ) ≤ 2 ^ (971 : ℤ) := one_le_zpow₀ one_le_two (by norm_num)
  calc tiny < 2 ^ (0 : ℤ) := zpow_lt_zpow_right₀ one_lt_two (by norm_num)
    _ ≤ (2 ^ 53 - 1 / 2) * 2 ^ (971 : ℤ) := by
      rw [zpow_zero]
      generalize (2 : ℚ) ^ (971 : ℤ) = unit at hone
      linarith
    _ = huge := huge_eq.symm

theorem HasKind.isSane_iff {s : Sign} {x : ℚ} {a : Float} (h : HasKind s x a.toModel.unpack) :
    IsSane a ↔ (s = .positive ∧ x < huge) ∨ (s = .negative ∧ x ≤ tiny) := by
  rw [Binary64.isSane_iff]
  generalize a.toModel.unpack = f at h
  cases h with
  | zero hx =>
    have hlt := hx.trans_lt tiny_lt_huge
    cases s <;> simp [UnpackedFloat.isFinite, UnpackedFloat.le, UnpackedFloat.compare, hx, hlt]
  | finite hpos _ _ hlow hhigh =>
    have hnot := not_le.mpr hlow
    cases s <;> simp [UnpackedFloat.isFinite, UnpackedFloat.le, UnpackedFloat.compare, hhigh, hnot]
  | infinity hx =>
    have hnot := not_le.mpr (tiny_lt_huge.trans_le hx)
    cases s <;> simp [UnpackedFloat.isFinite, not_lt.mpr hx, hnot]

/-! ## Digits and a power of ten -/

theorem two_zpow_le_ten_zpow {e : ℤ} (he : 400 ≤ e) : (2 : ℚ) ^ (1200 : ℤ) ≤ 10 ^ e := by
  calc (2 : ℚ) ^ (1200 : ℤ) = (2 ^ (3 : ℤ)) ^ (400 : ℤ) := zpow_mul 2 3 400
    _ ≤ 10 ^ (400 : ℤ) := zpow_le_zpow_left₀ (by norm_num) (by norm_num) (by norm_num)
    _ ≤ 10 ^ e := zpow_le_zpow_right₀ (by norm_num) he

theorem huge_le_ten_zpow {e : ℤ} (he : 400 ≤ e) : huge ≤ 10 ^ e := by
  have hpos : (0 : ℚ) < 2 ^ 970 := by positivity
  calc huge ≤ (2 : ℚ) ^ 1024 := sub_le_self _ hpos.le
    _ = 2 ^ (1024 : ℤ) := (zpow_natCast 2 1024).symm
    _ ≤ 2 ^ (1200 : ℤ) := zpow_le_zpow_right₀ one_le_two (by norm_num)
    _ ≤ 10 ^ e := two_zpow_le_ten_zpow he

theorem ten_zpow_le_tiny {e : ℤ} (he : e ≤ -400) : (10 : ℚ) ^ e ≤ tiny := by
  have hpos : (0 : ℚ) < 2 ^ (1200 : ℤ) := by positivity
  calc (10 : ℚ) ^ e = (10 ^ (-e))⁻¹ := by rw [zpow_neg, inv_inv]
    _ ≤ (2 ^ (1200 : ℤ))⁻¹ := inv_anti₀ hpos (two_zpow_le_ten_zpow (by omega))
    _ = 2 ^ (-1200 : ℤ) := (zpow_neg 2 1200).symm
    _ ≤ tiny := zpow_le_zpow_right₀ one_le_two (by norm_num)

theorem mul_ten_zpow_le_tiny {m : ℕ} {e : ℤ} (he : e < -(2048 + m.log2)) :
    (m * 10 ^ e : ℚ) ≤ tiny := by
  have hm : (m : ℚ) ≤ 2 ^ ((m.log2 : ℤ) + 1) := by exact_mod_cast Nat.lt_log2_self.le
  have hten : (10 : ℚ) ^ e ≤ 2 ^ e := by
    have hpow : (2 : ℚ) ^ (-e) ≤ 10 ^ (-e) :=
      zpow_le_zpow_left₀ (by omega) (by norm_num) (by norm_num)
    simpa using inv_anti₀ (by positivity) hpow
  calc (m * 10 ^ e : ℚ) ≤ 2 ^ ((m.log2 : ℤ) + 1) * 2 ^ e :=
        mul_le_mul hm hten (by positivity) (by positivity)
    _ = 2 ^ ((m.log2 : ℤ) + 1 + e) := (zpow_add₀ two_ne_zero _ _).symm
    _ ≤ tiny := zpow_le_zpow_right₀ one_le_two (by omega)

theorem mul_ten_zpow_neg (m k : ℕ) : (m * 10 ^ (-(k : ℤ)) : ℚ) = m / (10 ^ k : ℕ) := by
  rw [zpow_neg, zpow_natCast, div_eq_mul_inv]
  push_cast
  rfl

theorem ofScientific_hasKind (m : ℕ) (e : ℤ) : HasKind .positive (m * 10 ^ e)
    (Float.Model.pack (UnpackedFloat.ofScientific .binary64 m e)).unpack := by
  have hzero : m * 10 ^ e ≤ tiny → HasKind .positive (m * 10 ^ e)
      (Float.Model.pack (.zero .positive)).unpack := fun hx => (Rounded.zero hx).hasKind
  rw [UnpackedFloat.ofScientific]
  split
  · rename_i hm
    apply hzero
    rw [hm, Nat.cast_zero, zero_mul]
    exact tiny_pos.le
  rename_i hm
  split
  · rename_i hlarge
    have he : 400 ≤ e := (show (400 : ℤ) ≤ 2 ^ 11 by norm_num).trans hlarge.le
    have hm1 : (1 : ℚ) ≤ m := by exact_mod_cast Nat.one_le_iff_ne_zero.mpr hm
    have hten : (0 : ℚ) ≤ 10 ^ e := by positivity
    rw [unpack_pack_infinity]
    exact .infinity ((huge_le_ten_zpow he).trans (le_mul_of_one_le_left hten hm1))
  split
  · rename_i hsmall
    exact hzero (mul_ten_zpow_le_tiny hsmall)
  have hmpos : 0 < m := Nat.pos_of_ne_zero hm
  split
  · rename_i hnonneg
    obtain ⟨k, rfl⟩ := Int.eq_ofNat_of_zero_le hnonneg
    have hlarge : 2 ^ 52 ≤ m <<< 53 * 10 ^ k := by
      rw [Nat.shiftLeft_eq]
      calc 2 ^ 52 ≤ 1 * 2 ^ 53 * 1 := by norm_num
        _ ≤ m * 2 ^ 53 * 10 ^ k :=
          Nat.mul_le_mul (Nat.mul_le_mul_right _ hmpos) (Nat.pow_pos (by norm_num))
    have hx : (m * 10 ^ (k : ℤ) : ℚ) =
        (m <<< 53 : ℕ) * 2 ^ (-53 : ℤ) * ((10 ^ k : ℕ) * 2 ^ (0 : ℤ)) := by
      rw [Nat.shiftLeft_eq, zpow_zero, zpow_natCast, zpow_neg]
      push_cast
      ring
    rw [hx]
    exact (mul_rounded _ _ hlarge).hasKind
  · rename_i hneg
    obtain ⟨k, hk⟩ := Int.eq_ofNat_of_zero_le (show 0 ≤ -e by omega)
    obtain rfl : e = -(k : ℤ) := by omega
    have hx : (m / (10 ^ k : ℕ) : ℚ) = m * 2 ^ (0 : ℤ) / ((10 ^ k : ℕ) * 2 ^ (0 : ℤ)) := by
      rw [zpow_zero, mul_one, mul_one]
    rw [mul_ten_zpow_neg, hx]
    simp only [neg_neg, Int.toNat_natCast]
    exact (div_rounded _ _).hasKind

/-! ## Small numbers, which are exact -/

/-- Stored as the whole number `n` itself. -/
def IsWhole (n : ℕ) : UnpackedFloat → Prop
  | .finite .positive m e _ => 2 ^ 52 ≤ m ∧ -52 ≤ e ∧ m * 2 ^ (e + 52).toNat = n * 2 ^ 52
  | _ => False

instance (n : ℕ) : (f : UnpackedFloat) → Decidable (IsWhole n f)
  | .finite .positive .. => inferInstanceAs (Decidable (_ ∧ _ ∧ _))
  | .finite .negative .. | .zero _ | .infinity _ | .notANumber => inferInstanceAs (Decidable False)

theorem isWhole_powerOfTen : ∀ k, (_ : k < Float.exactlyRepresentablePowersOfTen.size) →
    IsWhole (10 ^ k) Float.exactlyRepresentablePowersOfTen[k].toModel.unpack := by
  decide +kernel

theorem isWhole_toFloat {n : ℕ} (hpos : 0 < n) (h : n < 2 ^ 53) :
    IsWhole n n.toUInt64.toFloat.toModel.unpack := by
  have hlog : n.log2 ≤ 52 := by
    have := (Nat.log2_lt hpos.ne').mpr h
    omega
  have hnat : n.toUInt64.toNat = n := Nat.mod_eq_of_lt (by omega)
  have hround : n.toUInt64.toFloat.toModel =
      Float.Model.pack (UnpackedFloat.round .binary64 .positive n 0) := by
    show Float.Model.pack (UnpackedFloat.normalize .binary64 (n.toUInt64.toNat : ℤ) 0 .positive) = _
    rw [hnat, UnpackedFloat.normalize, Int.compare_eq_gt.mpr (by omega)]
    rfl
  have htarget : max ((n.log2 : ℤ) + 0 - 52) (-1074) = n.log2 - 52 := by omega
  obtain ⟨k, hk⟩ : ∃ k, n.log2 + k = 52 := ⟨52 - n.log2, by omega⟩
  have hshift : ((0 : ℤ) - (n.log2 - 52)).toNat = k := by omega
  have hlow : 2 ^ 52 ≤ n * 2 ^ k := by
    rw [← hk, pow_add]
    exact Nat.mul_le_mul_right _ (Nat.log2_self_le hpos.ne')
  have hhigh : n * 2 ^ k < 2 ^ 53 := by
    calc n * 2 ^ k < 2 ^ (n.log2 + 1) * 2 ^ k :=
          Nat.mul_lt_mul_of_pos_right Nat.lt_log2_self (by positivity)
      _ = 2 ^ 53 := by
          rw [← pow_add]
          congr 1
          omega
  have hcanonical : IsCanonical (n * 2 ^ k) (0 - k) := ⟨hhigh, by omega, .inl hlow⟩
  rw [hround, UnpackedFloat.round, targetExponent_eq, htarget, decreaseExponent, hshift,
    Nat.shiftLeft_eq]
  dsimp only
  rw [roundWithAccuracy_exact .positive (by omega) hcanonical, unpack_pack_finite _ _ hcanonical,
    if_neg (by omega)]
  refine ⟨hlow, by omega, ?_⟩
  rw [show (0 - (k : ℤ) + 52).toNat = n.log2 by omega, mul_assoc, ← pow_add, add_comm k, hk]

theorem IsWhole.exists_eq {n : ℕ} {f : UnpackedFloat} (h : IsWhole n f) :
    ∃ m e, ∃ pos : 0 < m, f = .finite .positive m e pos ∧ 2 ^ 52 ≤ m ∧ (n : ℚ) = m * 2 ^ e := by
  cases f with
  | finite s m e pos =>
    cases s with
    | negative => exact h.elim
    | positive =>
      obtain ⟨hlow, he, heq⟩ := h
      refine ⟨m, e, pos, rfl, hlow, ?_⟩
      obtain ⟨k, hk⟩ := Int.eq_ofNat_of_zero_le (show 0 ≤ e + 52 by omega)
      obtain rfl : e = k - 52 := by omega
      rw [hk, Int.toNat_natCast] at heq
      have heq' : (m * 2 ^ k : ℚ) = n * 2 ^ 52 := by exact_mod_cast heq
      rw [zpow_sub₀ two_ne_zero, zpow_natCast, mul_div_assoc', heq']
      norm_num
  | zero | infinity | notANumber => exact h.elim

theorem IsWhole.mul {n₁ n₂ : ℕ} {a b : Float} (ha : IsWhole n₁ a.toModel.unpack)
    (hb : IsWhole n₂ b.toModel.unpack) : HasKind .positive (n₁ * n₂) (a * b).toModel.unpack := by
  obtain ⟨m₁, e₁, hpos₁, hf₁, hlow₁, hn₁⟩ := ha.exists_eq
  obtain ⟨m₂, e₂, hpos₂, hf₂, hlow₂, hn₂⟩ := hb.exists_eq
  show HasKind _ _ (Float.Model.pack
    (UnpackedFloat.mul .binary64 a.toModel.unpack b.toModel.unpack)).unpack
  rw [hf₁, hf₂, hn₁, hn₂]
  exact (mul_rounded hpos₁ hpos₂ (hlow₁.trans (Nat.le_mul_of_pos_right _ hpos₂))).hasKind

theorem IsWhole.div {n₁ n₂ : ℕ} {a b : Float} (ha : IsWhole n₁ a.toModel.unpack)
    (hb : IsWhole n₂ b.toModel.unpack) : HasKind .positive (n₁ / n₂) (a / b).toModel.unpack := by
  obtain ⟨m₁, e₁, hpos₁, hf₁, -, hn₁⟩ := ha.exists_eq
  obtain ⟨m₂, e₂, hpos₂, hf₂, -, hn₂⟩ := hb.exists_eq
  show HasKind _ _ (Float.Model.pack
    (UnpackedFloat.div .binary64 a.toModel.unpack b.toModel.unpack)).unpack
  rw [hf₁, hf₂, hn₁, hn₂]
  exact (div_rounded hpos₁ hpos₂).hasKind

/-- Small digits and a small power are combined in floating point, all others exactly. -/
theorem floatOfScientific_hasKind {m : ℕ} (hm : 0 < m) (negative : Bool) (k : ℕ) :
    HasKind .positive (m * 10 ^ (if negative then -(k : ℤ) else k))
      (Float.ofScientific m negative k).toModel.unpack := by
  by_cases hsmall : m < 2 ^ 53 ∧ k ≤ 22
  · have hwhole := isWhole_toFloat hm hsmall.1
    have hten := isWhole_powerOfTen k (Nat.lt_succ_of_le hsmall.2)
    rw [Float.ofScientific, dif_pos hsmall]
    cases negative with
    | true =>
      rw [if_pos rfl, if_pos rfl, mul_ten_zpow_neg]
      exact hwhole.div hten
    | false =>
      have hx : (m * 10 ^ (k : ℤ) : ℚ) = m * (10 ^ k : ℕ) := by
        rw [zpow_natCast]
        push_cast
        rfl
      rw [if_neg Bool.false_ne_true, if_neg Bool.false_ne_true, hx]
      exact hwhole.mul hten
  · rw [Float.ofScientific, dif_neg hsmall]
    cases negative with
    | true =>
      rw [if_pos rfl, if_pos rfl, Int.negOfNat_eq]
      exact ofScientific_hasKind m _
    | false => exact ofScientific_hasKind m _

/-! ## Digits that were read -/

/-- A number of more than 400 digits before its point, or none in the first 400 places after it, is
not computed. -/
theorem scaled_hasKind (digits : ℕ) (exponent : ℤ) : HasKind .positive (digits * 10 ^ exponent)
    (Number.scaled digits exponent).toModel.unpack := by
  have hzero : (0 : Float).toModel.unpack = .zero .positive := rfl
  unfold Number.scaled
  obtain rfl | hpos := Nat.eq_zero_or_pos digits
  · rw [if_pos rfl, hzero, Nat.cast_zero, zero_mul]
    exact .zero tiny_pos.le
  have hten : (0 : ℚ) ≤ 10 ^ exponent := by positivity
  obtain ⟨d, ds, hdigits⟩ := Text.ofNat_eq_cons digits
  have hlength : (Text.ofNat digits).length = ds.length + 1 := by rw [hdigits, List.length_cons]
  rw [if_neg hpos.ne']
  dsimp only
  split
  · rename_i hlarge
    have hinfinity : (1.0 / 0.0 : Float).toModel.unpack = .infinity .positive := rfl
    have hlow : 10 ^ ds.length ≤ digits := Text.ten_pow_le hpos (by omega)
    rw [hinfinity]
    refine .infinity ?_
    calc huge ≤ 10 ^ ((ds.length : ℤ) + exponent) := huge_le_ten_zpow (by omega)
      _ = 10 ^ ds.length * 10 ^ exponent := by rw [zpow_add₀ (by norm_num), zpow_natCast]
      _ ≤ digits * 10 ^ exponent := mul_le_mul_of_nonneg_right (by exact_mod_cast hlow) hten
  split
  · rename_i hsmall
    have hhigh : digits ≤ 10 ^ (Text.ofNat digits).length := (Text.lt_ten_pow digits).le
    rw [hzero]
    refine .zero ?_
    calc (digits * 10 ^ exponent : ℚ) ≤ 10 ^ (Text.ofNat digits).length * 10 ^ exponent :=
          mul_le_mul_of_nonneg_right (by exact_mod_cast hhigh) hten
      _ = 10 ^ ((Text.ofNat digits).length + exponent) := by
          rw [zpow_add₀ (by norm_num), zpow_natCast]
      _ ≤ tiny := ten_zpow_le_tiny (by omega)
  cases exponent with
  | ofNat k => exact floatOfScientific_hasKind hpos false k
  | negSucc k => exact floatOfScientific_hasKind hpos true (k + 1)

example : ¬ IsSane (Number.scaled 2 308) := by decide +kernel

end FieldSearch.Binary64
