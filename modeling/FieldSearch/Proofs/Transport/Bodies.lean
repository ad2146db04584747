import FieldSearch.Proofs.Text.Utf8
import FieldSearch.Transport.Reply
import Mathlib.Data.List.Infix

/-!
# Json bodies in UTF-8

The reader of a body tells its encoding from the first bytes. A body that is written in UTF-8 is
read as such, without its byte order mark, except if a zero byte among the first two makes it look
like one of the wider encodings. Such a body is never Json: no Json text has a zero among its first
two characters.
-/

namespace FieldSearch

namespace Json

open Reader

/-! ## Zeros at the beginning of a text -/

theorem skipSpace_nul (rest : Text) : skipSpace ('\x00' :: rest) = '\x00' :: rest := by
  simp [skipSpace, isSpace]

theorem number_nul (negative : Bool) (rest : Text) :
    number negative ('\x00' :: rest) = .error .malformed := by
  simp [number, digits, List.span, List.span.loop, Text.isAsciiDigit]

theorem value_nul (fuel : Nat) (rest : Text) :
    value fuel ('\x00' :: rest) = .error .malformed := by
  cases fuel with
  | zero => rfl
  | succ fuel => simp [value, scalar, words, List.findSome?, List.isPrefixOf?, number_nul]

theorem read_nul (rest : Text) : read ('\x00' :: rest) = .error .malformed := by
  rw [read, skipSpace_nul, value_nul]
  rfl

/-- A number of one digit at most, which the zero ends. -/
theorem number_before_nul (negative : Bool) (c : Char) (rest : Text) :
    number negative (c :: '\x00' :: rest) = .error .malformed ∨
      ∃ v, number negative (c :: '\x00' :: rest) = .ok (v, '\x00' :: rest) := by
  have hplaces : places ('\x00' :: rest) = ([], '\x00' :: rest) := rfl
  have hexponent : exponent? ('\x00' :: rest) = none := rfl
  have hshort : ¬ Number.maxDigits < 1 := by decide
  have hnul : Text.isAsciiDigit '\x00' = false := rfl
  unfold number
  split
  rename_i whole after hwhole
  split at hwhole
  · rename_i h
    obtain ⟨rfl, rfl⟩ := Prod.mk.inj hwhole
    injection h with _ hrest
    subst hrest
    right
    simp [hplaces, hexponent, hshort]
  · by_cases hdigit : Text.isAsciiDigit c = true
    · have hdigits : digits (c :: '\x00' :: rest) = ([c], '\x00' :: rest) := by
        simp only [digits, List.span, List.span.loop, hdigit, hnul]
        rfl
      obtain ⟨rfl, rfl⟩ := Prod.mk.inj (hdigits.symm.trans hwhole)
      right
      simp [hplaces, hexponent, hshort]
    · have hdigits : digits (c :: '\x00' :: rest) = ([], c :: '\x00' :: rest) := by
        simp [digits, List.span, List.span.loop, hdigit]
      obtain ⟨rfl, rfl⟩ := Prod.mk.inj (hdigits.symm.trans hwhole)
      exact .inl rfl

theorem scalar_before_nul (c : Char) (rest : Text) :
    scalar (c :: '\x00' :: rest) = .error .malformed ∨
      ∃ v, scalar (c :: '\x00' :: rest) = .ok (v, '\x00' :: rest) := by
  have hwords : ∀ word ∈ words, word.1.isPrefixOf? (c :: '\x00' :: rest) = none := by
    simp [words, List.isPrefixOf?]
  unfold scalar
  split
  · rename_i result hsome
    obtain ⟨word, hmem, hword⟩ := List.exists_of_findSome?_eq_some hsome
    simp [hwords word hmem] at hword
  · split
    · rename_i h
      injection h with _ hrest
      subst hrest
      exact .inl (number_nul ..)
    · exact number_before_nul ..

/-- A value of one character at most, which the zero ends. -/
theorem value_before_nul (fuel : Nat) (c : Char) (rest : Text) :
    value fuel (c :: '\x00' :: rest) = .error .malformed ∨
      ∃ v, value fuel (c :: '\x00' :: rest) = .ok (v, '\x00' :: rest) := by
  cases fuel with
  | zero => exact .inl rfl
  | succ fuel =>
    unfold value
    split
    · rename_i h
      injection h with _ hrest
      subst hrest
      exact .inl rfl
    · rename_i h
      injection h with _ hrest
      subst hrest
      left
      rw [skipSpace_nul]
      cases fuel with
      | zero => rfl
      | succ fuel =>
        simp [items, value_nul]
        rfl
    · rename_i h
      injection h with _ hrest
      subst hrest
      left
      rw [skipSpace_nul]
      cases fuel <;> rfl
    · exact scalar_before_nul c rest

theorem read_before_nul (c : Char) (rest : Text) :
    read (c :: '\x00' :: rest) = .error .malformed := by
  by_cases hspace : isSpace c = true
  · have hskip : skipSpace (c :: '\x00' :: rest) = '\x00' :: rest := by
      rw [skipSpace, List.dropWhile_cons_of_pos hspace]
      exact skipSpace_nul rest
    rw [read, hskip, value_nul]
    rfl
  · have hskip : skipSpace (c :: '\x00' :: rest) = c :: '\x00' :: rest :=
      List.dropWhile_cons_of_neg hspace
    rw [read, hskip]
    obtain h | ⟨v, h⟩ := value_before_nul (2 * (c :: '\x00' :: rest).length + 2) c rest
    · rw [h]
      rfl
    · rw [h]
      simp [bind, Except.bind, skipSpace_nul]

theorem read_of_nul_mem {text : Text} (h : '\x00' ∈ text.take 2) :
    read text = .error .malformed := by
  match text with
  | [] => cases h
  | [c] =>
    obtain rfl : '\x00' = c := by simpa using h
    exact read_nul []
  | c :: d :: rest =>
    obtain rfl | rfl : '\x00' = c ∨ '\x00' = d := by simpa using h
    · exact read_nul (d :: rest)
    · exact read_before_nul c rest

end Json

namespace Text

/-! ## The first bytes of a text -/

theorem high_of_mem_tailBytes {k n : Nat} {b : UInt8} (h : b ∈ tailBytes k n) :
    0x80 ≤ b.toNat ∧ b.toNat < 0xF8 := by
  induction k with
  | zero => cases h
  | succ k ih =>
    obtain rfl | h := List.mem_cons.mp h
    · rw [toNat_tailByte]
      omega
    · exact ih h

theorem high_of_mem_encodeChar {c : Char} (hc : 0x80 ≤ c.toNat) {b : UInt8}
    (h : b ∈ encodeChar c) : 0x80 ≤ b.toNat ∧ b.toNat < 0xF8 := by
  have hvalid : c.toNat < 0xD800 ∨ 0xDFFF < c.toNat ∧ c.toNat < 0x110000 := c.valid
  have hlead : ∀ first, 0x80 ≤ first → first < 0xF8 → ∀ k,
      b ∈ UInt8.ofNat first :: tailBytes k c.toNat → 0x80 ≤ b.toNat ∧ b.toNat < 0xF8 := by
    intro first hlow hhigh k hmem
    obtain rfl | hmem := List.mem_cons.mp hmem
    · rw [UInt8.toNat_ofNat_of_lt' (Nat.lt_trans hhigh (by decide))]
      exact ⟨hlow, hhigh⟩
    · exact high_of_mem_tailBytes hmem
  rw [encodeChar_eq, if_neg (Nat.not_lt.mpr hc)] at h
  split at h
  · exact hlead _ (by omega) (by omega) 1 h
  · split at h
    · exact hlead _ (by omega) (by omega) 2 h
    · exact hlead _ (by omega) (by omega) 3 h

theorem toNat_of_mem_encodeChar {c : Char} (hc : c.toNat < 0x80) {b : UInt8}
    (h : b ∈ encodeChar c) : b.toNat = c.toNat := by
  rw [encodeChar_of_lt hc, List.mem_singleton] at h
  rw [h, UInt8.toNat_ofNat_of_lt' (Nat.lt_of_lt_of_le hc (by decide))]

theorem eq_nul_of_zero_mem {c : Char} (h : 0 ∈ encodeChar c) : c = '\x00' := by
  by_cases hc : c.toNat < 0x80
  · rw [← Char.ofNat_toNat c, ← toNat_of_mem_encodeChar hc h]
    rfl
  · exact absurd (high_of_mem_encodeChar (Nat.not_lt.mp hc) h).1 (by decide)

theorem not_mem_encodeUtf8 (text : Text) : 0xFE ∉ encodeUtf8 text := by
  intro h
  obtain ⟨c, -, h⟩ := List.mem_flatMap.mp h
  by_cases hc : c.toNat < 0x80
  · rw [← toNat_of_mem_encodeChar hc h] at hc
    exact absurd hc (by decide)
  · exact absurd (high_of_mem_encodeChar (Nat.not_lt.mp hc) h).2 (by decide)

theorem zero_mem_encodeUtf8 {text : Text} {n : Nat} (h : 0 ∈ (encodeUtf8 text).take n) :
    '\x00' ∈ text.take n := by
  induction text generalizing n with
  | nil => simp [encodeUtf8] at h
  | cons c rest ih =>
    obtain ⟨b, bytes, hbytes, -⟩ := nextChar_encodeChar c []
    cases n with
    | zero => simp at h
    | succ n =>
      rw [encodeUtf8, List.flatMap_cons, List.take_append, List.mem_append] at h
      rw [List.take_succ_cons, List.mem_cons]
      obtain h | h := h
      · exact .inl (eq_nul_of_zero_mem (List.mem_of_mem_take h)).symm
      · right
        apply ih
        have hle : n + 1 - (encodeChar c).length ≤ n := by
          rw [hbytes, List.length_cons]
          omega
        exact (List.take_prefix_take_left hle).subset h

/-! ## Surrogates -/

/-- Half of a surrogate pair is no character in UTF-8. -/
theorem nextChar_of_afterHalf? {b : UInt8} {rest after : Bytes}
    (h : afterHalf? b rest = some after) : (nextChar b rest).1 = none := by
  unfold afterHalf? at h
  split at h
  · rename_i second third rest
    split at h
    · rename_i hhalf
      obtain ⟨rfl, hsecond, -⟩ := hhalf
      have hrange : ¬ ((0x80 : UInt8) ≤ second ∧ second ≤ 0x9F) := by
        intro ⟨_, hle⟩
        exact absurd (UInt8.le_trans hsecond hle) (by decide)
      have hlead : Lead.ofByte? 0xED = some ⟨2, 0x80, 0x9F, 0xD⟩ := rfl
      rw [nextChar, hlead]
      exact congrArg Prod.fst (if_neg hrange)
    · cases h
  · cases h

theorem nextPassing_of_nextChar {b : UInt8} {rest after : Bytes} {c : Char}
    (h : nextChar b rest = (some c, after)) : nextPassing b rest = (some c, after) := by
  unfold nextPassing
  split
  · rename_i hafter
    cases (nextChar_of_afterHalf? hafter).symm.trans (congrArg Prod.fst h)
  · exact h

theorem decodePassing?_encodeUtf8 (text : Text) : decodePassing? (encodeUtf8 text) = some text := by
  induction text with
  | nil =>
    rw [encodeUtf8, List.flatMap_nil, decodePassing?]
  | cons c rest ih =>
    obtain ⟨b, bytes, hbytes, hnext⟩ := nextChar_encodeChar c (encodeUtf8 rest)
    have hpass := nextPassing_of_nextChar hnext
    rw [encodeUtf8, List.flatMap_cons, hbytes, List.cons_append, decodePassing?]
    rw [show rest.flatMap encodeChar = encodeUtf8 rest from rfl, hpass, ih]
    rfl

/-! ## The encoding that a body shows -/

def LooksWide (bytes : Bytes) : Prop :=
  0 ∈ bytes.take 2 ∧ bytes.length ≠ 1 ∧ bytes.length ≠ 3

def withoutMark : Text → Text
  | [] => []
  | c :: rest => if c = '\uFEFF' then rest else c :: rest

theorem nextChar_of_encodeUtf8 {text : Text} {b : UInt8} {bytes : Bytes}
    (h : encodeUtf8 text = b :: bytes) :
    ∃ c rest, text = c :: rest ∧ nextChar b bytes = (some c, encodeUtf8 rest) := by
  cases text with
  | nil => cases h
  | cons c rest =>
    obtain ⟨b', bytes', hbytes, hnext⟩ := nextChar_encodeChar c (encodeUtf8 rest)
    rw [encodeUtf8, List.flatMap_cons, hbytes, List.cons_append] at h
    obtain ⟨rfl, rfl⟩ := List.cons.inj h
    exact ⟨c, rest, rfl, hnext⟩

theorem decodeUnmarked?_of_plain {bytes : Bytes} (h : ¬ LooksWide bytes) :
    decodeUnmarked? bytes = decodePassing? bytes := by
  unfold decodeUnmarked?
  split
  · rename_i a b
    have hnone : ¬ ((0 : UInt8) = a ∨ 0 = b) := by
      intro hzero
      exact h ⟨by simpa using hzero, by simp, by simp⟩
    obtain ⟨ha, hb⟩ := not_or.mp hnone
    rw [if_neg (Ne.symm ha), if_neg (Ne.symm hb)]
  · rename_i a b c d rest
    have hnone : ¬ ((0 : UInt8) = a ∨ 0 = b) := by
      intro hzero
      exact h ⟨by simpa using hzero, by simp, by simp⟩
    obtain ⟨ha, hb⟩ := not_or.mp hnone
    rw [if_neg (Ne.symm ha), if_neg (Ne.symm hb)]
  · rfl

theorem decodeJson?_of_unmarked {bytes : Bytes}
    (h : ∀ mark ∈ marks, mark.1.isPrefixOf? bytes = none) :
    decodeJson? bytes = decodeUnmarked? bytes := by
  unfold decodeJson?
  split
  · rename_i text hsome
    obtain ⟨mark, hmem, hmark⟩ := List.exists_of_findSome?_eq_some hsome
    simp [h mark hmem] at hmark
  · rfl

theorem decodeJson?_of_mark (rest : Bytes) :
    decodeJson? (0xEF :: 0xBB :: 0xBF :: rest) = decodePassing? rest := rfl

theorem unmarked_encodeUtf8 {text : Text} (h : ∀ rest, text ≠ '\uFEFF' :: rest) :
    ∀ mark ∈ marks, mark.1.isPrefixOf? (encodeUtf8 text) = none := by
  intro mark hmark
  rw [Option.eq_none_iff_forall_ne_some]
  intro rest hrest
  rw [List.isPrefixOf?_eq_some_iff_append_eq] at hrest
  -- the marks of the wider encodings have a byte that is in no text
  have hkinds : ∀ mark ∈ marks, 0xFE ∈ mark.1 ∨ mark.1 = [0xEF, 0xBB, 0xBF] := by
    simp [marks]
  obtain hwide | hutf8 := hkinds mark hmark
  · apply not_mem_encodeUtf8 text
    rw [← hrest]
    exact List.mem_append_left rest hwide
  · rw [hutf8] at hrest
    obtain ⟨c, text', rfl, hnext⟩ := nextChar_of_encodeUtf8 hrest.symm
    have hc : c = '\uFEFF' := Option.some.inj (congrArg Prod.fst hnext).symm
    exact h text' (by rw [hc])

/-- A text in UTF-8 is read as such, unless it looks like something else. -/
theorem decodeJson?_encodeUtf8 {text : Text} (h : ¬ LooksWide (encodeUtf8 text)) :
    decodeJson? (encodeUtf8 text) = some (withoutMark text) := by
  by_cases hmark : ∃ rest, text = '\uFEFF' :: rest
  · obtain ⟨rest, rfl⟩ := hmark
    rw [encodeUtf8, List.flatMap_cons]
    exact (decodeJson?_of_mark _).trans (decodePassing?_encodeUtf8 rest)
  · have hunmarked : ∀ rest, text ≠ '\uFEFF' :: rest := fun rest heq => hmark ⟨rest, heq⟩
    have hplain : withoutMark text = text := by
      cases text with
      | nil => rfl
      | cons c rest =>
        rw [withoutMark, if_neg]
        rintro rfl
        exact hunmarked rest rfl
    rw [hplain, decodeJson?_of_unmarked (unmarked_encodeUtf8 hunmarked),
      decodeUnmarked?_of_plain h, decodePassing?_encodeUtf8]

end Text

namespace Transport

/-! ## What becomes of a body -/

/-- The reader takes the body for something that it is not, or cannot hold its numbers. -/
def Misread (body : Text) : Prop :=
  (Text.LooksWide (Text.encodeUtf8 body) ∧
    ∀ t, Text.decodeJson? (Text.encodeUtf8 body) = some t → Json.read t ≠ .error .malformed) ∨
  Json.read (Text.withoutMark body) = .error .tooManyDigits

theorem read_of_looksWide {body : Text} (h : Text.LooksWide (Text.encodeUtf8 body)) :
    Json.read (Text.withoutMark body) = .error .malformed := by
  have hnul := Text.zero_mem_encodeUtf8 h.1
  apply Json.read_of_nul_mem
  cases body with
  | nil => cases hnul
  | cons c rest =>
    rw [Text.withoutMark]
    split
    · rename_i hmark
      rw [hmark, List.take_succ_cons, List.mem_cons] at hnul
      obtain hnul | hnul := hnul
      · cases hnul
      · exact (List.take_prefix_take_left (Nat.le_succ 1)).subset hnul
    · exact hnul

/-- A body that is not misread has the value that is written there, or is not Json. -/
theorem jsonBody_of_not_misread {body : Text} (h : ¬ Misread body) :
    (∃ value, Json.read (Text.withoutMark body) = .ok value ∧
      jsonBody (Text.encodeUtf8 body) = .ok value) ∨
    Json.read (Text.withoutMark body) = .error .malformed ∧
      jsonBody (Text.encodeUtf8 body) = .error .notJson := by
  obtain ⟨hwide, hdigits⟩ := not_or.mp h
  by_cases hlooks : Text.LooksWide (Text.encodeUtf8 body)
  · obtain ⟨t, ht, hread⟩ : ∃ t, Text.decodeJson? (Text.encodeUtf8 body) = some t ∧
        Json.read t = .error .malformed := by
      apply Classical.byContradiction
      intro hnone
      exact hwide ⟨hlooks, fun t ht hread => hnone ⟨t, ht, hread⟩⟩
    refine .inr ⟨read_of_looksWide hlooks, ?_⟩
    simp only [jsonBody, ht, hread]
  · simp only [jsonBody, Text.decodeJson?_encodeUtf8 hlooks]
    cases hread : Json.read (Text.withoutMark body) with
    | ok value => exact .inl ⟨value, rfl, rfl⟩
    | error fault =>
      cases fault with
      | malformed => exact .inr ⟨rfl, rfl⟩
      | tooManyDigits => exact absurd hread hdigits

theorem jsonBody_of_misread {body : Text} (h : Misread body) :
    Json.read (Text.withoutMark body) = .error .tooManyDigits ∧
      jsonBody (Text.encodeUtf8 body) = .error (.crash .tooManyDigits) ∨
    Json.read (Text.withoutMark body) = .error .malformed ∧
      jsonBody (Text.encodeUtf8 body) ≠ .error .notJson := by
  by_cases hlooks : Text.LooksWide (Text.encodeUtf8 body)
  · have hmalformed := read_of_looksWide hlooks
    refine .inr ⟨hmalformed, ?_⟩
    obtain ⟨-, hwide⟩ | hdigits := h
    · unfold jsonBody
      cases ht : Text.decodeJson? (Text.encodeUtf8 body) with
      | none => nofun
      | some t =>
        cases hread : Json.read t with
        | ok value => simp [hread]
        | error fault =>
          cases fault with
          | malformed => exact absurd hread (hwide t ht)
          | tooManyDigits => simp [hread]
    · cases hmalformed.symm.trans hdigits
  · obtain ⟨hwide, -⟩ | hdigits := h
    · exact absurd hwide hlooks
    · exact .inl ⟨hdigits, by simp only [jsonBody, Text.decodeJson?_encodeUtf8 hlooks, hdigits]⟩

end Transport

end FieldSearch
