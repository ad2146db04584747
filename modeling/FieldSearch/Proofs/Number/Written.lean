import FieldSearch.Error
import FieldSearch.Proofs.Text.Digits
import Mathlib.Algebra.Order.Ring.Int
import Mathlib.Data.List.DropRight

/-!
# Written numbers

A whole number is written unless it has too many digits. A finite number is written as a sign, whole
digits without a leading zero, and places, an exponent or both. For this the shortest decimal of a
positive number must not be zero: a grid whose step does not exceed the number has a positive
neighbour of it.
-/

namespace FieldSearch.Number

/-! ## Whole numbers -/

theorem isWritable_iff {n : Int} : isWritable n = true ↔ n.natAbs < 10 ^ maxDigits := by
  rw [isWritable, decide_eq_true_iff]
  exact Nat.length_toDigits_le_iff (by decide) (by decide)

theorem isWritable_eq_false_iff {n : Int} : isWritable n = false ↔ 10 ^ maxDigits ≤ n.natAbs := by
  rw [← Bool.not_eq_true, isWritable_iff, Nat.not_lt]

theorem isWritable_iff_lt {n : Int} (h : 0 ≤ n) : isWritable n = true ↔ n < 10 ^ maxDigits := by
  obtain ⟨n, rfl⟩ := Int.eq_ofNat_of_zero_le h
  rw [isWritable_iff, Int.natAbs_natCast]
  norm_cast

theorem isWritable_eq_false_iff_le {n : Int} (h : 0 ≤ n) :
    isWritable n = false ↔ 10 ^ maxDigits ≤ n := by
  rw [← Bool.not_eq_true, isWritable_iff_lt h, Int.not_lt]

/-- The first whole number with too many digits. -/
def tooLong : Int := 10 ^ maxDigits

theorem one_le_tooLong : 1 ≤ tooLong := Int.pow_pos (by decide)

theorem pow_le_tooLong : 10 ^ maxDigits ≤ tooLong := Int.le_refl _

theorem isWritable_tooLong : isWritable tooLong = false :=
  (isWritable_eq_false_iff_le (Int.le_of_lt one_le_tooLong)).mpr pow_le_tooLong

theorem written_of_isWritable {n : Int} (h : isWritable n = true) :
    written n = .ok (Text.ofInt n) :=
  if_pos h

theorem written_of_not_isWritable {n : Int} (h : isWritable n = false) :
    written n = .error .tooManyDigits :=
  if_neg (Bool.not_eq_true _ ▸ h)

theorem written_eq_ok {n : Int} {text : Text} (h : written n = .ok text) : text = Text.ofInt n := by
  unfold written at h
  split at h
  · exact (Except.ok.inj h).symm
  · cases h

/-! ## The shortest decimal -/

namespace Binary

/-- The number is at least `10 ^ e`. -/
def Reaches (b : Binary) (e : Int) : Prop := (Fraction.ofScaled 1 10 e).le b.value = true

section

variable {b : Binary} {e : Int}

theorem reaches_ofNat (k : Nat) :
    b.Reaches (.ofNat k) ↔ Nat.pow 10 k * b.value.den ≤ b.value.num := by
  simp [Reaches, Fraction.ofScaled, Fraction.le]

theorem reaches_negSucc (k : Nat) :
    b.Reaches (.negSucc k) ↔ b.value.den ≤ b.value.num * Nat.pow 10 (k + 1) := by
  simp [Reaches, Fraction.ofScaled, Fraction.le]

theorem ten_pow_pos (k : Nat) : 0 < Nat.pow 10 k := Nat.pow_pos (by decide)

theorem ten_pow_le_ten_pow {k n : Nat} (h : k ≤ n) : Nat.pow 10 k ≤ Nat.pow 10 n :=
  Nat.pow_le_pow_right (by decide) h

theorem Reaches.anti (h : b.Reaches e) {f : Int} (hle : f ≤ e) : b.Reaches f := by
  cases e with
  | ofNat n =>
    rw [reaches_ofNat] at h
    cases f with
    | ofNat k =>
      rw [reaches_ofNat]
      exact (Nat.mul_le_mul_right _ (ten_pow_le_ten_pow (Int.ofNat_le.mp hle))).trans h
    | negSucc k =>
      rw [reaches_negSucc]
      calc b.value.den ≤ Nat.pow 10 n * b.value.den := Nat.le_mul_of_pos_left _ (ten_pow_pos n)
        _ ≤ b.value.num := h
        _ ≤ b.value.num * Nat.pow 10 (k + 1) := Nat.le_mul_of_pos_right _ (ten_pow_pos (k + 1))
  | negSucc n =>
    rw [reaches_negSucc] at h
    cases f with
    | ofNat k =>
      have hlt := Int.lt_of_lt_of_le (Int.negSucc_lt_zero n) (Int.natCast_nonneg k)
      exact absurd hle (Int.not_le.mpr hlt)
    | negSucc k =>
      have hpow : n + 1 ≤ k + 1 := by omega
      rw [reaches_negSucc]
      exact h.trans (Nat.mul_le_mul_left _ (ten_pow_le_ten_pow hpow))

theorem value_den_pos (b : Binary) : 0 < b.value.den := by
  obtain ⟨m, q, -⟩ := b
  cases q with
  | ofNat k => exact Nat.one_pos
  | negSucc k => exact Nat.pow_pos (by decide)

theorem value_num_pos (h : 0 < b.m) : 0 < b.value.num := by
  cases b with
  | mk m q narrowBelow =>
    cases q with
    | ofNat k => exact Nat.mul_pos h (Nat.pow_pos (by decide))
    | negSucc k => exact h

theorem neighbours_pos (h : b.Reaches e) : 0 < (b.neighbours e).1 := by
  have hden := b.value_den_pos
  cases e with
  | ofNat k =>
    rw [reaches_ofNat, Nat.mul_comm] at h
    exact Nat.div_pos h (Nat.mul_pos hden (ten_pow_pos k))
  | negSucc k => exact Nat.div_pos ((reaches_negSucc k).mp h) hden

theorem reaches_firstExponent (h : 0 < b.m) : b.Reaches b.firstExponent := by
  have hden := b.value_den_pos
  have hnum := value_num_pos h
  unfold firstExponent
  dsimp only
  split
  · rename_i hle
    obtain ⟨k, hk⟩ : ∃ k, (Text.ofNat (b.value.num / b.value.den)).length = k + 1 :=
      Nat.exists_eq_add_one_of_ne_zero (by simp [Text.ofNat])
    have hwhole : Nat.pow 10 k ≤ b.value.num / b.value.den :=
      Text.ten_pow_le (Nat.div_pos hle hden) (by omega)
    have hexponent : ((k + 1 : Nat) : Int) - 1 = .ofNat k := Int.add_sub_cancel k 1
    rw [hk, hexponent]
    exact (reaches_ofNat k).mpr ((Nat.le_div_iff_mul_le hden).mp hwhole)
  · -- below one, the digits of the inverse bound the exponent
    obtain ⟨k, hk⟩ : ∃ k, (Text.ofNat (b.value.den / b.value.num)).length = k + 1 :=
      Nat.exists_eq_add_one_of_ne_zero (by simp [Text.ofNat])
    have hinverse := Text.lt_ten_pow (b.value.den / b.value.num)
    rw [hk] at hinverse ⊢
    split
    · rename_i hfirst
      rw [Nat.add_sub_cancel] at hfirst
      cases k with
      | zero => exact (reaches_ofNat 0).mpr (by simpa using hfirst)
      | succ k =>
        have hexponent : (1 : Int) - ((k + 1 + 1 : Nat) : Int) = .negSucc k := by omega
        rw [hexponent]
        exact (reaches_negSucc k).mpr hfirst
    · have hbound := (Nat.div_lt_iff_lt_mul hnum).mp hinverse
      rw [Nat.mul_comm] at hbound
      exact (reaches_negSucc k).mpr hbound.le

theorem onGrid?_digits_pos {d : Decimal} (h : b.onGrid? e = some d) : 0 < d.digits := by
  unfold onGrid? at h
  simp only at h
  split at h
  · rename_i hlow
    cases h
    simp only [Bool.and_eq_true, decide_eq_true_eq] at hlow
    exact Nat.pos_of_ne_zero hlow.1.1
  · split at h
    · cases h
      exact Nat.succ_pos _
    · cases h

theorem searchGrids_digits_pos (h : b.Reaches e) (used more : Nat) :
    0 < (b.searchGrids e used more).digits := by
  induction more generalizing used with
  | zero => exact neighbours_pos (h.anti (by omega))
  | succ more ih =>
    unfold searchGrids
    split
    · rename_i hd
      exact onGrid?_digits_pos hd
    · exact ih (used + 1)

theorem shortest_digits_pos (h : 0 < b.m) : 0 < b.shortest.digits :=
  searchGrids_digits_pos (reaches_firstExponent h) 0 17

end

end Binary

/-! ## The text of a number -/

def IsDigits (text : Text) : Prop := text ≠ [] ∧ ∀ c ∈ text, c.isDigit = true

/-- Whole digits, without a leading zero. -/
inductive IsWhole : Text → Prop where
  | zero : IsWhole ['0']
  | positive {d : Char} {ds : Text} : d ≠ '0' → IsDigits (d :: ds) → IsWhole (d :: ds)

inductive IsFraction : Text → Prop where
  | none : IsFraction []
  | places {ds : Text} : IsDigits ds → IsFraction ('.' :: ds)

inductive IsExponent : Text → Prop where
  | none : IsExponent []
  | power {sign : Char} {ds : Text} :
      sign = '+' ∨ sign = '-' → IsDigits ds → IsExponent ('e' :: sign :: ds)

/-- A number with places, an exponent or both. -/
inductive IsReal : Text → Prop where
  | mk {whole fraction exponent : Text} : IsWhole whole → IsFraction fraction →
      IsExponent exponent → fraction ≠ [] ∨ exponent ≠ [] → IsReal (whole ++ fraction ++ exponent)

theorem isReal_places {whole ds : Text} (hwhole : IsWhole whole) (hds : IsDigits ds) :
    IsReal (whole ++ '.' :: ds) := by
  have h := IsReal.mk hwhole (.places hds) .none (Or.inl (List.cons_ne_nil _ _))
  rwa [List.append_nil] at h

section

variable {a b : Text}

theorem IsDigits.append (ha : IsDigits a) (hb : ∀ c ∈ b, c.isDigit = true) :
    IsDigits (a ++ b) :=
  ⟨List.append_ne_nil_of_left_ne_nil ha.1 b, List.forall_mem_append.mpr ⟨ha.2, hb⟩⟩

theorem isDigit_replicate (n : Nat) : ∀ c ∈ List.replicate n '0', c.isDigit = true := by
  intro c hc
  rw [List.eq_of_mem_replicate hc]
  decide

theorem isDigits_replicate_append (n : Nat) (hb : IsDigits b) :
    IsDigits (List.replicate n '0' ++ b) :=
  ⟨List.append_ne_nil_of_right_ne_nil _ hb.1,
    List.forall_mem_append.mpr ⟨isDigit_replicate n, hb.2⟩⟩

end

theorem isDigits_ofNat (n : Nat) : IsDigits (Text.ofNat n) :=
  ⟨Nat.toDigits_ne_nil, fun _ => Text.isDigit_of_mem_ofNat⟩

theorem isWhole_ofNat (n : Nat) : IsWhole (Text.ofNat n) := by
  have hdigits := isDigits_ofNat n
  obtain ⟨d, ds, hn⟩ := Text.ofNat_eq_cons n
  by_cases hd : d = '0'
  · have hzero : n = 0 := Text.ofNat_eq_zero_cons (hd ▸ hn)
    rw [hzero]
    exact .zero
  · rw [hn] at hdigits ⊢
    exact .positive hd hdigits

/-! ## The text of a decimal -/

section

variable {d : Char} {ds : Text}

/-- Trailing zeros do not reach a digit that is not zero. -/
theorem exists_dropZeros_cons (hd : d ≠ '0') (hds : IsDigits (d :: ds)) :
    ∃ kept, dropZeros (d :: ds) = d :: kept ∧ IsDigits (d :: kept) := by
  have hbegins : dropZeros (d :: ds) <+: d :: ds := List.rdropWhile_prefix _ _
  have hne : dropZeros (d :: ds) ≠ [] := by
    intro hnil
    have hzero := List.rdropWhile_eq_nil_iff.mp hnil d (List.mem_cons_self ..)
    exact hd (of_decide_eq_true hzero)
  obtain ⟨first, kept, hkept⟩ := List.exists_cons_of_ne_nil hne
  rw [hkept] at hbegins
  obtain ⟨rfl, -⟩ := List.cons_prefix_cons.mp hbegins
  exact ⟨kept, hkept, List.cons_ne_nil _ _, fun c hc => hds.2 c (hbegins.subset hc)⟩

theorem isReal_placePoint (hd : d ≠ '0') (hds : IsDigits (d :: ds)) (whole : Int) :
    IsReal (placePoint (d :: ds) whole) := by
  unfold placePoint
  split
  · exact isReal_places .zero hds
  · rename_i k
    have hplaces := isDigits_replicate_append (k + 1) hds
    simpa using isReal_places .zero hplaces
  · rename_i n hn
    obtain ⟨n, rfl⟩ : ∃ k, n = k + 1 := Nat.exists_eq_add_one_of_ne_zero hn
    have hbefore : IsDigits (d :: ds.take n) :=
      ⟨List.cons_ne_nil _ _, fun c hc => hds.2 c (List.take_subset (n + 1) (d :: ds) hc)⟩
    have hwhole := hbefore.append (isDigit_replicate (n + 1 - (d :: ds.take n).length))
    have hafter : IsDigits (if (ds.drop n).isEmpty then ['0'] else ds.drop n) := by
      split
      · exact ⟨List.cons_ne_nil _ _, isDigit_replicate 1⟩
      · rename_i hne
        refine ⟨by simpa using hne, fun c hc => hds.2 c (List.mem_cons_of_mem _ ?_)⟩
        exact List.drop_subset n ds hc
    simpa using isReal_places (.positive hd hwhole) hafter

end

theorem isExponent_exponentText (e : Int) : IsExponent (exponentText e) := by
  have hdigits : IsDigits (Text.padded 2 e.natAbs) :=
    isDigits_replicate_append _ (isDigits_ofNat e.natAbs)
  unfold exponentText
  split
  · exact .power (Or.inr rfl) hdigits
  · exact .power (Or.inl rfl) hdigits

theorem Decimal.isReal_show {d : Decimal} (h : 0 < d.digits) : IsReal d.show := by
  obtain ⟨c, ds, hn⟩ := Text.ofNat_eq_cons d.digits
  have hc : c ≠ '0' := by
    rintro rfl
    exact absurd (Text.ofNat_eq_zero_cons hn) h.ne'
  obtain ⟨kept, hkept, hdigits⟩ := exists_dropZeros_cons hc (hn ▸ isDigits_ofNat d.digits)
  unfold Decimal.show
  rw [hn]
  simp only [hkept]
  split
  · exact isReal_placePoint hc hdigits _
  · have hwhole : IsWhole [c] :=
      .positive hc ⟨List.cons_ne_nil _ _, fun b hb => hdigits.2 b (by simp_all)⟩
    have hexponent := isExponent_exponentText (d.exponent + ↑(c :: ds).length - 1)
    have hne : exponentText (d.exponent + ↑(c :: ds).length - 1) ≠ [] := by
      unfold exponentText
      split <;> exact List.cons_ne_nil _ _
    cases kept with
    | nil => exact .mk hwhole .none hexponent (Or.inr hne)
    | cons b kept =>
      have hplaces : IsDigits (b :: kept) :=
        ⟨List.cons_ne_nil _ _, fun b hb => hdigits.2 b (List.mem_cons_of_mem _ hb)⟩
      simpa using IsReal.mk hwhole (.places hplaces) hexponent (Or.inr hne)

/-! ## The text of a binary number -/

theorem parts_finite_m_pos {x : Float} {b : Binary} (h : (parts x).2 = .finite b) : 0 < b.m := by
  unfold parts at h
  simp only at h
  split at h
  · split at h <;> cases h
  · split at h
    · split at h
      · cases h
      · rename_i hmantissa
        cases h
        exact Nat.pos_of_ne_zero hmantissa
    · cases h
      exact Nat.add_pos_left (Nat.pow_pos (by decide)) _

/-- A finite number is written as such a number, perhaps with a minus sign. -/
theorem exists_ofFloat_eq {x : Float} (h : isFinite x = true) :
    ∃ negative text, IsReal text ∧ ofFloat x = signed negative text := by
  unfold isFinite at h
  unfold ofFloat
  split
  · rename_i hparts
    simp [hparts] at h
  · rename_i hparts
    simp [hparts] at h
  · exact ⟨_, "0.0", isReal_places .zero ⟨List.cons_ne_nil _ _, isDigit_replicate 1⟩, rfl⟩
  · rename_i b hparts
    have hpos := parts_finite_m_pos (congrArg Prod.snd hparts)
    exact ⟨_, _, Decimal.isReal_show (Binary.shortest_digits_pos hpos), rfl⟩

end FieldSearch.Number
