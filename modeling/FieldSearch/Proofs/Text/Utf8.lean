import FieldSearch.Text.Utf8
import Mathlib.Algebra.GroupWithZero.Nat

/-!
# Bytes of a text

Every character is read back from the bytes that it becomes, whatever follows them, so a text is
what its bytes are read as.
-/

namespace FieldSearch.Text

/-- A byte that follows another one; it carries the last six bits of a number. -/
def tailByte (n : Nat) : UInt8 := .ofNat (0x80 + n % 0x40)

/-- The last `k` bytes of a character, six bits each. -/
def tailBytes : Nat → Nat → Bytes
  | 0, _ => []
  | k + 1, n => tailByte (n / 0x40 ^ k) :: tailBytes k n

theorem toNat_tailByte (n : Nat) : (tailByte n).toNat = 0x80 + n % 0x40 := by
  rw [tailByte, UInt8.toNat_ofNat']
  omega

/-- The bits gathered so far and those of a byte that follows are the bits of the number. -/
theorem continueChar_tail {low high : UInt8} {n k : Nat} (rest : Bytes)
    (hlow : low ≤ tailByte (n / 0x40 ^ k)) (hhigh : tailByte (n / 0x40 ^ k) ≤ high) :
    continueChar (n / 0x40 ^ (k + 1)) low high (k + 1) (tailBytes (k + 1) n ++ rest) =
      continueChar (n / 0x40 ^ k) 0x80 0xBF k (tailBytes k n ++ rest) := by
  have hbits : n / 0x40 ^ (k + 1) * 0x40 + ((tailByte (n / 0x40 ^ k)).toNat - 0x80) =
      n / 0x40 ^ k := by
    rw [toNat_tailByte, Nat.pow_succ, ← Nat.div_div_eq_div_mul]
    omega
  rw [tailBytes, List.cons_append, continueChar, if_pos ⟨hlow, hhigh⟩, hbits]

theorem continueChar_tails (n k : Nat) (rest : Bytes) :
    continueChar (n / 0x40 ^ k) 0x80 0xBF k (tailBytes k n ++ rest) = (some (.ofNat n), rest) := by
  induction k with
  | zero => simp [continueChar, tailBytes]
  | succ k ih =>
    have htail := toNat_tailByte (n / 0x40 ^ k)
    rw [continueChar_tail rest, ih]
    · rw [UInt8.le_iff_toNat_le, htail]
      exact Nat.le_add_right ..
    · rw [UInt8.le_iff_toNat_le, htail]
      show _ ≤ 0xBF
      omega

/-! ## First bytes -/

theorem Lead.ofByte?_ofNat {m : Nat} (h : m < 0x100) :
    Lead.ofByte? (.ofNat m) =
      if m < 0x80 then some ⟨0, 0x80, 0xBF, m⟩
      else if m < 0xC2 then none
      else if m < 0xE0 then some ⟨1, 0x80, 0xBF, m - 0xC0⟩
      else if m = 0xE0 then some ⟨2, 0xA0, 0xBF, 0⟩
      else if m = 0xED then some ⟨2, 0x80, 0x9F, 0xD⟩
      else if m < 0xF0 then some ⟨2, 0x80, 0xBF, m - 0xE0⟩
      else if m = 0xF0 then some ⟨3, 0x90, 0xBF, 0⟩
      else if m < 0xF4 then some ⟨3, 0x80, 0xBF, m - 0xF0⟩
      else if m = 0xF4 then some ⟨3, 0x80, 0x8F, 4⟩
      else none := by
  have hm : (UInt8.ofNat m).toNat = m := UInt8.toNat_ofNat_of_lt' h
  simp only [Lead.ofByte?, UInt8.lt_iff_toNat_lt, ← UInt8.toNat_inj, hm]
  rfl

/-- The first byte announces `k + 1` more for this number, and the range of the next one. -/
def Announces (m n k : Nat) : Prop :=
  ∃ low high, Lead.ofByte? (.ofNat m) = some ⟨k + 1, low, high, n / 0x40 ^ (k + 1)⟩ ∧
    low.toNat ≤ 0x80 + n / 0x40 ^ k % 0x40 ∧ 0x80 + n / 0x40 ^ k % 0x40 ≤ high.toNat

theorem announces_one {n : Nat} (hlow : 0x80 ≤ n) (hhigh : n < 0x800) :
    Announces (0xC0 + n / 0x40) n 0 := by
  refine ⟨0x80, 0xBF, ?_, Nat.le_add_right .., ?_⟩
  · rw [Lead.ofByte?_ofNat (by omega), if_neg (by omega), if_neg (by omega), if_pos (by omega),
      Nat.add_sub_cancel_left]
    rfl
  · show _ ≤ 0xBF
    omega

/-- The range of the second byte keeps out the numbers that have fewer bytes, and surrogates. -/
theorem announces_two {n : Nat} (hlow : 0x800 ≤ n) (hhigh : n < 0x10000)
    (hvalid : n < 0xD800 ∨ 0xDFFF < n) : Announces (0xE0 + n / 0x1000) n 1 := by
  have hbits : n / 0x40 ^ 2 = n / 0x1000 := rfl
  unfold Announces
  rw [Lead.ofByte?_ofNat (by omega), if_neg (by omega), if_neg (by omega), if_neg (by omega), hbits]
  by_cases hfirst : n / 0x1000 = 0
  · refine ⟨0xA0, 0xBF, by simp [hfirst], ?_, ?_⟩
    · show 0xA0 ≤ _
      omega
    · show _ ≤ 0xBF
      omega
  · rw [if_neg (by omega)]
    by_cases hsurrogate : n / 0x1000 = 0xD
    · refine ⟨0x80, 0x9F, by simp [hsurrogate], Nat.le_add_right .., ?_⟩
      show _ ≤ 0x9F
      omega
    · refine ⟨0x80, 0xBF, ?_, Nat.le_add_right .., ?_⟩
      · rw [if_neg (by omega), if_pos (by omega), Nat.add_sub_cancel_left]
      · show _ ≤ 0xBF
        omega

/-- The range of the second byte keeps out the numbers that have fewer bytes, and those beyond the
last character. -/
theorem announces_three {n : Nat} (hlow : 0x10000 ≤ n) (hhigh : n < 0x110000) :
    Announces (0xF0 + n / 0x40000) n 2 := by
  have hbits : n / 0x40 ^ 3 = n / 0x40000 := rfl
  unfold Announces
  rw [Lead.ofByte?_ofNat (by omega), if_neg (by omega), if_neg (by omega), if_neg (by omega),
    if_neg (by omega), if_neg (by omega), if_neg (by omega), hbits]
  by_cases hfirst : n / 0x40000 = 0
  · refine ⟨0x90, 0xBF, by simp [hfirst], ?_, ?_⟩
    · show 0x90 ≤ _
      omega
    · show _ ≤ 0xBF
      omega
  · rw [if_neg (by omega)]
    by_cases hlast : n / 0x40000 = 4
    · refine ⟨0x80, 0x8F, by simp [hlast], Nat.le_add_right .., ?_⟩
      show _ ≤ 0x8F
      omega
    · refine ⟨0x80, 0xBF, ?_, Nat.le_add_right .., ?_⟩
      · rw [if_pos (by omega), Nat.add_sub_cancel_left]
      · show _ ≤ 0xBF
        omega

theorem Announces.nextChar_eq {m n k : Nat} (h : Announces m n k) (rest : Bytes) :
    nextChar (.ofNat m) (tailBytes (k + 1) n ++ rest) = (some (.ofNat n), rest) := by
  obtain ⟨low, high, hlead, hlow, hhigh⟩ := h
  rw [← toNat_tailByte, ← UInt8.le_iff_toNat_le] at hlow hhigh
  rw [nextChar, hlead]
  exact (continueChar_tail rest hlow hhigh).trans (continueChar_tails n k rest)

/-! ## Characters and texts -/

theorem encodeChar_eq (c : Char) :
    encodeChar c =
      if c.toNat < 0x80 then [.ofNat c.toNat]
      else if c.toNat < 0x800 then .ofNat (0xC0 + c.toNat / 0x40) :: tailBytes 1 c.toNat
      else if c.toNat < 0x10000 then .ofNat (0xE0 + c.toNat / 0x1000) :: tailBytes 2 c.toNat
      else .ofNat (0xF0 + c.toNat / 0x40000) :: tailBytes 3 c.toNat := rfl

theorem encodeChar_of_lt {c : Char} (h : c.toNat < 0x80) : encodeChar c = [.ofNat c.toNat] := by
  rw [encodeChar_eq, if_pos h]

theorem nextChar_encodeChar (c : Char) (rest : Bytes) :
    ∃ b bytes, encodeChar c = b :: bytes ∧ nextChar b (bytes ++ rest) = (some c, rest) := by
  have hvalid : c.toNat < 0xD800 ∨ 0xDFFF < c.toNat ∧ c.toNat < 0x110000 := c.valid
  have hchar : Char.ofNat c.toNat = c := Char.ofNat_toNat c
  rw [encodeChar_eq]
  generalize c.toNat = n at hvalid hchar
  rw [← hchar]
  by_cases hone : n < 0x80
  · rw [if_pos hone]
    refine ⟨_, _, rfl, ?_⟩
    rw [nextChar, Lead.ofByte?_ofNat (by omega), if_pos hone]
    rfl
  · rw [if_neg hone]
    by_cases htwo : n < 0x800
    · rw [if_pos htwo]
      exact ⟨_, _, rfl, (announces_one (by omega) htwo).nextChar_eq rest⟩
    · rw [if_neg htwo]
      by_cases hthree : n < 0x10000
      · rw [if_pos hthree]
        exact ⟨_, _, rfl, (announces_two (by omega) hthree (by omega)).nextChar_eq rest⟩
      · rw [if_neg hthree]
        exact ⟨_, _, rfl, (announces_three (by omega) (by omega)).nextChar_eq rest⟩

theorem scanUtf8_encodeUtf8 (text : Text) : scanUtf8 (encodeUtf8 text) = text.map some := by
  induction text with
  | nil =>
    rw [encodeUtf8, List.flatMap_nil, scanUtf8]
    rfl
  | cons c rest ih =>
    obtain ⟨b, bytes, hbytes, hnext⟩ := nextChar_encodeChar c (encodeUtf8 rest)
    rw [encodeUtf8, List.flatMap_cons, hbytes, List.cons_append, scanUtf8]
    rw [show rest.flatMap encodeChar = encodeUtf8 rest from rfl, hnext, ih, List.map_cons]

theorem decodeUtf8?_encodeUtf8 (text : Text) : decodeUtf8? (encodeUtf8 text) = some text := by
  rw [decodeUtf8?, scanUtf8_encodeUtf8]
  induction text with
  | nil => rfl
  | cons c rest ih => rw [List.map_cons, List.mapM_cons, ih]; rfl

theorem decodeUtf8_encodeUtf8 (text : Text) : decodeUtf8 (encodeUtf8 text) = text := by
  rw [decodeUtf8, scanUtf8_encodeUtf8, List.map_map]
  exact List.map_id text

end FieldSearch.Text
