import FieldSearch.Proofs.Text.Utf8
import FieldSearch.Text.Percent

/-!
# Percent-encoded texts

A text is read back from its percent-encoding, also by a reader for which a plus sign is a space.
The encoding is made of letters, digits and five marks, so nothing in it divides a URL.
-/

namespace FieldSearch.Text

/-- The characters of which percent-encodings are made. -/
def isCode (c : Char) : Bool := c.isAlphanum || c ∈ ("-._~%" : Text)

theorem hexDigit?_upperHexDigit : ∀ n < 16, hexDigit? (upperHexDigit n) = some n := by decide

theorem isCode_upperHexDigit : ∀ n < 16, isCode (upperHexDigit n) = true := by decide

/-- An unreserved byte stands for an ASCII character. -/
theorem unreserved_ascii : ∀ n < 0x100, isUnreserved (.ofNat n) = true →
    n < 0x80 ∧ isCode (.ofNat n) = true ∧ Char.ofNat n ≠ '%' ∧ (Char.ofNat n).toNat = n := by
  decide +kernel

theorem isUnreserved_ascii {b : UInt8} (h : isUnreserved b = true) :
    b.toNat < 0x80 ∧ isCode (.ofNat b.toNat) = true ∧ Char.ofNat b.toNat ≠ '%' ∧
      (Char.ofNat b.toNat).toNat = b.toNat :=
  unreserved_ascii b.toNat b.toNat_lt (by rwa [UInt8.ofNat_toNat])

/-! ## What an encoding is made of -/

theorem isCode_of_mem_percentByte {b : UInt8} {c : Char} (h : c ∈ percentByte b) :
    isCode c = true := by
  have hb : b.toNat < 0x100 := b.toNat_lt
  unfold percentByte at h
  split at h
  · rename_i hunreserved
    rw [List.mem_singleton.mp h]
    exact (isUnreserved_ascii hunreserved).2.1
  · simp only [List.mem_cons, List.not_mem_nil, or_false] at h
    rcases h with rfl | rfl | rfl
    · decide
    · exact isCode_upperHexDigit _ (by omega)
    · exact isCode_upperHexDigit _ (by omega)

theorem isCode_of_mem_percentEncode {text : Text} {c : Char} (h : c ∈ percentEncode text) :
    isCode c = true := by
  obtain ⟨b, -, hb⟩ := List.mem_flatMap.mp h
  exact isCode_of_mem_percentByte hb

theorem not_mem_percentEncode {c : Char} (h : isCode c = false) (text : Text) :
    c ∉ percentEncode text := by
  intro hmem
  rw [isCode_of_mem_percentEncode hmem] at h
  cases h

/-- Nothing but unreserved characters and escapes. -/
inductive Escaped : Text → Prop where
  | nil : Escaped []
  | unreserved {c : Char} {rest : Text} :
      c.isAlphanum = true ∨ c ∈ ("-._~" : Text) → Escaped rest → Escaped (c :: rest)
  | escape {a b : Char} {rest : Text} :
      (hexDigit? a).isSome → (hexDigit? b).isSome → Escaped rest → Escaped ('%' :: a :: b :: rest)

theorem escaped_percentByte (b : UInt8) {rest : Text} (h : Escaped rest) :
    Escaped (percentByte b ++ rest) := by
  have hb : b.toNat < 0x100 := b.toNat_lt
  unfold percentByte
  split
  · rename_i hunreserved
    obtain ⟨-, hcode, hmark, -⟩ := isUnreserved_ascii hunreserved
    refine .unreserved ?_ h
    simpa [isCode, hmark] using hcode
  · refine .escape ?_ ?_ h
    · rw [hexDigit?_upperHexDigit _ (by omega)]; rfl
    · rw [hexDigit?_upperHexDigit _ (by omega)]; rfl

theorem escaped_percentEncode (text : Text) : Escaped (percentEncode text) := by
  have hbytes : ∀ bytes : Bytes, Escaped (bytes.flatMap percentByte) := by
    intro bytes
    induction bytes with
    | nil => exact .nil
    | cons b bytes ih => rw [List.flatMap_cons]; exact escaped_percentByte b ih
  exact hbytes (encodeUtf8 text)

/-! ## Reading an encoding -/

theorem percentBytes_of_ne {c : Char} (h : c ≠ '%') (rest : Text) :
    percentBytes (c :: rest) = encodeChar c ++ percentBytes rest := by
  rw [percentBytes]
  rintro a b rest' rfl
  exact absurd rfl h

theorem percentBytes_percentByte (b : UInt8) (rest : Text) :
    percentBytes (percentByte b ++ rest) = b :: percentBytes rest := by
  have hb : b.toNat < 0x100 := b.toNat_lt
  unfold percentByte
  split
  · rename_i hunreserved
    obtain ⟨hascii, -, hmark, hchar⟩ := isUnreserved_ascii hunreserved
    rw [List.singleton_append, percentBytes_of_ne hmark, encodeChar_of_lt (by rwa [hchar]), hchar,
      UInt8.ofNat_toNat]
    rfl
  · have hbyte : b.toNat / 16 * 16 + b.toNat % 16 = b.toNat := by omega
    simp only [List.cons_append, List.nil_append]
    rw [percentBytes, hexDigit?_upperHexDigit _ (by omega), hexDigit?_upperHexDigit _ (by omega)]
    simp only [hbyte, UInt8.ofNat_toNat]

theorem percentBytes_percentEncode (text : Text) :
    percentBytes (percentEncode text) = encodeUtf8 text := by
  have hbytes : ∀ bytes : Bytes, percentBytes (bytes.flatMap percentByte) = bytes := by
    intro bytes
    induction bytes with
    | nil => rw [List.flatMap_nil, percentBytes]
    | cons b bytes ih => rw [List.flatMap_cons, percentBytes_percentByte, ih]
  exact hbytes (encodeUtf8 text)

theorem replace_of_not_mem {c : Char} {text : Text} (h : c ∉ text) (new : Text) :
    text.replace c new = text := by
  induction text with
  | nil => rfl
  | cons d rest ih =>
    simp only [List.mem_cons, not_or] at h
    rw [replace, List.flatMap_cons, if_neg (Ne.symm h.1), ← replace, ih h.2]
    rfl

theorem formDecode_percentEncode (text : Text) : formDecode (percentEncode text) = text := by
  rw [formDecode, replace_of_not_mem (not_mem_percentEncode (by decide) text), percentDecode,
    percentBytes_percentEncode, decodeUtf8_encodeUtf8]

end FieldSearch.Text
