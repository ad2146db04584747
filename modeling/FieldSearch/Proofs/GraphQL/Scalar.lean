import FieldSearch.GraphQL.Value
import FieldSearch.Proofs.GraphQL.Lexeme
import FieldSearch.Proofs.Number.Written

/-!
# Lexemes that are written

A punctuator, a name, a string literal and a number are read back as what they write. A string
literal is escaped within ASCII, so each character of the text comes back from one escape, from the
two halves of a pair, or from itself. A number is read part by part, and is a float if it has places
or an exponent.
-/

namespace FieldSearch.GraphQL

namespace Reader

/-! ## Escapes -/

theorem unit?_hex {n : Nat} (h : n < 0x10000) (rest : Text) :
    Json.Reader.unit? (Text.hex 4 n ++ rest) = some (n, rest) := by
  have hvalue : ((n / 0x1000 * 16 + n / 0x100 % 16) * 16 + n / 16 % 16) * 16 + n % 16 = n := by omega
  rw [Text.hex_four h]
  simp only [List.cons_append, List.nil_append, Json.Reader.unit?]
  rw [Text.hexDigit?_digitChar _ (by omega), Text.hexDigit?_digitChar _ (by omega),
    Text.hexDigit?_digitChar _ (by omega), Text.hexDigit?_digitChar _ (by omega)]
  simp only [Option.bind_eq_bind, Option.bind_some, hvalue]

theorem toNat_valid (c : Char) :
    c.toNat < 0xD800 ∨ 0xDFFF < c.toNat ∧ c.toNat < 0x110000 := c.valid

theorem escaped_unit {c : Char} (h : c.toNat < 0x10000) (rest : Text) :
    escaped ('u' :: (Text.hex 4 c.toNat ++ rest)) = some (c, rest) := by
  have hvalid := toNat_valid c
  rw [escaped, unit?_hex h]
  simp only [Option.bind_eq_bind, Option.bind_some]
  rw [if_neg (by omega), if_neg (by omega), Char.ofNat_toNat]

theorem escaped_pair {first second : Nat} (hf : 0xD800 ≤ first ∧ first < 0xDC00)
    (hs : 0xDC00 ≤ second ∧ second < 0xE000) (rest : Text) :
    escaped ('u' :: (Text.hex 4 first ++ '\\' :: 'u' :: (Text.hex 4 second ++ rest))) =
      some (.ofNat (0x10000 + (first - 0xD800) * 0x400 + (second - 0xDC00)), rest) := by
  rw [escaped, unit?_hex (by omega)]
  simp only [Option.bind_eq_bind, Option.bind_some]
  rw [if_pos hf, secondHalf, unit?_hex (by omega)]
  simp only [Option.bind_eq_bind, Option.bind_some]
  rw [if_pos hs]

theorem isLineEnd_of_ge {c : Char} (h : 0x20 ≤ c.toNat) : isLineEnd c = false := by
  refine Bool.eq_false_iff.mpr fun hl => ?_
  simp only [isLineEnd, Bool.or_eq_true, decide_eq_true_eq] at hl
  rcases hl with rfl | rfl <;> exact absurd h (by decide)

theorem stringValue_unit {c : Char} (h : c.toNat < 0x10000) (rest : Text) :
    stringValue (Json.unitEscape c.toNat ++ rest) =
      (stringValue rest).map fun (t, after) => (c :: t, after) :=
  stringValue_escape ('u' :: Text.hex 4 c.toNat) (escaped_unit h rest)

theorem stringValue_units {first second : Nat} (hf : 0xD800 ≤ first ∧ first < 0xDC00)
    (hs : 0xDC00 ≤ second ∧ second < 0xE000) {c : Char}
    (hc : 0x10000 + (first - 0xD800) * 0x400 + (second - 0xDC00) = c.toNat) (rest : Text) :
    stringValue (Json.unitEscape first ++ (Json.unitEscape second ++ rest)) =
      (stringValue rest).map fun (t, after) => (c :: t, after) := by
  have hpair := escaped_pair hf hs rest
  rw [hc, Char.ofNat_toNat] at hpair
  have hread := stringValue_escape ('u' :: (Text.hex 4 first ++ '\\' :: 'u' :: Text.hex 4 second))
    (by simpa using hpair)
  simpa [Json.unitEscape] using hread

theorem stringValue_pair {c : Char} (h : 0x10000 ≤ c.toNat) (rest : Text) :
    stringValue (Json.unitEscape (0xD800 + (c.toNat - 0x10000) / 0x400) ++
      (Json.unitEscape (0xDC00 + (c.toNat - 0x10000) % 0x400) ++ rest)) =
      (stringValue rest).map fun (t, after) => (c :: t, after) := by
  have hvalid := toNat_valid c
  exact stringValue_units (by omega) (by omega) (by omega) rest

theorem stringValue_escapeChar (c : Char) (rest : Text) :
    stringValue (Json.escapeChar .ascii c ++ rest) =
      (stringValue rest).map fun (t, after) => (c :: t, after) := by
  unfold Json.escapeChar
  by_cases hquote : c = '"'
  · rw [hquote]; exact stringValue_escape ['"'] rfl
  rw [if_neg hquote]
  by_cases hslash : c = '\\'
  · rw [hslash]; exact stringValue_escape ['\\'] rfl
  rw [if_neg hslash]
  by_cases hline : c = '\n'
  · rw [hline]; exact stringValue_escape ['n'] rfl
  rw [if_neg hline]
  by_cases hreturn : c = '\r'
  · rw [hreturn]; exact stringValue_escape ['r'] rfl
  rw [if_neg hreturn]
  by_cases htab : c = '\t'
  · rw [htab]; exact stringValue_escape ['t'] rfl
  rw [if_neg htab]
  by_cases hback : c = '\x08'
  · rw [hback]; exact stringValue_escape ['b'] rfl
  rw [if_neg hback]
  by_cases hfeed : c = '\x0c'
  · rw [hfeed]; exact stringValue_escape ['f'] rfl
  rw [if_neg hfeed]
  by_cases hcontrol : c.toNat < 0x20
  · rw [if_pos hcontrol]; exact stringValue_unit (by omega) rest
  rw [if_neg hcontrol]
  by_cases hascii : c.toNat < 0x7F
  · rw [if_pos (by simp [hascii])]
    exact stringValue_plain rest hquote hslash (isLineEnd_of_ge (by omega))
  rw [if_neg (by simp [hascii])]
  by_cases hunit : c.toNat < 0x10000
  · rw [if_pos hunit]; exact stringValue_unit hunit rest
  rw [if_neg hunit]
  simp only [List.append_assoc]
  exact stringValue_pair (by omega) rest

theorem stringValue_escapes (t rest : Text) :
    stringValue (t.flatMap (Json.escapeChar .ascii) ++ '"' :: rest) = some (t, rest) := by
  induction t with
  | nil => rw [List.flatMap_nil, List.nil_append, stringValue_cons, if_pos rfl]
  | cons c t ih =>
    rw [List.flatMap_cons, List.append_assoc, stringValue_escapeChar, ih]
    rfl

/-! ## Numbers -/

open Number (IsWhole IsFraction IsExponent signed)

theorem endsNumber_iff {rest : Text} : endsNumber rest = true ↔
    ∀ c ∈ rest.head?, isNameChar c = false ∧ c ≠ '.' := by
  cases rest <;> simp [endsNumber]

/-- Neither a digit nor a point comes next. -/
def EndsDigits (rest : Text) : Prop := ∀ c ∈ rest.head?, c.isDigit = false ∧ c ≠ '.'

section

variable {part rest : Text}

theorem endsDigits_of_endsNumber (h : endsNumber rest = true) : EndsDigits rest := fun c hc =>
  ⟨not_isDigit_of_not_isNameChar (endsNumber_iff.mp h c hc).1, (endsNumber_iff.mp h c hc).2⟩

theorem endsDigits_exponent (he : IsExponent part) (h : EndsDigits rest) :
    EndsDigits (part ++ rest) := by
  cases he with
  | none => exact h
  | power _ _ =>
    intro c hc
    cases hc
    decide

theorem isDigit_fraction (hf : IsFraction part) (h : EndsDigits rest) :
    ∀ c ∈ (part ++ rest).head?, c.isDigit = false := by
  cases hf with
  | none => exact fun c hc => (h c hc).1
  | places _ =>
    intro c hc
    cases hc
    decide

theorem fraction_of_isFraction (hf : IsFraction part) (h : EndsDigits rest) :
    fraction (part ++ rest) = some (part, rest) := by
  cases hf with
  | none =>
    rw [List.nil_append, fraction]
    rintro after rfl
    exact (h '.' rfl).2 rfl
  | @places ds hds =>
    have hrest : ∀ c ∈ rest.head?, c.isDigit = false := fun c hc => (h c hc).1
    rw [List.cons_append, fraction, takeWhile_append_stop hds.2 hrest,
      dropWhile_append_stop hds.2 hrest, if_neg (by simpa using hds.1)]

theorem exponent_of_endsNumber (h : endsNumber rest = true) : exponent rest = some ([], rest) := by
  cases rest with
  | nil => rfl
  | cons c rest =>
    have hc := (endsNumber_iff.mp h c rfl).1
    rw [exponent, if_neg]
    rintro (rfl | rfl) <;> cases hc

theorem exponent_of_isExponent (he : IsExponent part) (h : endsNumber rest = true) :
    exponent (part ++ rest) = some (part, rest) := by
  cases he with
  | none => exact exponent_of_endsNumber h
  | @power sign ds hsign hds =>
    have hrest : ∀ c ∈ rest.head?, c.isDigit = false :=
      fun c hc => (endsDigits_of_endsNumber h c hc).1
    have hsplit : exponentSign (sign :: (ds ++ rest)) = ([sign], ds ++ rest) := by
      rcases hsign with rfl | rfl <;> rfl
    rw [List.cons_append, List.cons_append, exponent, if_pos (Or.inl rfl), hsplit]
    dsimp only
    rw [takeWhile_append_stop hds.2 hrest, dropWhile_append_stop hds.2 hrest,
      if_neg (by simpa using hds.1)]
    rfl

end

/-- A number is read part by part. -/
theorem number_of_parts {whole f e : Text} (hwhole : IsWhole whole) (hf : IsFraction f)
    (he : IsExponent e) : ∃ d ds, whole = d :: ds ∧ d.isDigit = true ∧
      ∀ negative rest, endsNumber rest = true →
        number negative d (ds ++ (f ++ (e ++ rest))) = some (numeral negative whole f e, rest) := by
  obtain ⟨d, ds, rfl, hdigits, hzero⟩ : ∃ d ds, whole = d :: ds ∧
      (∀ c ∈ d :: ds, c.isDigit = true) ∧ ¬ (d = '0' ∧ d :: ds ≠ ['0']) := by
    cases hwhole with
    | zero => exact ⟨'0', [], rfl, Number.isDigit_replicate 1, fun h => h.2 rfl⟩
    | positive hd hds => exact ⟨_, _, rfl, hds.2, fun hzero => hd hzero.1⟩
  rw [List.forall_mem_cons] at hdigits
  refine ⟨d, ds, rfl, hdigits.1, fun negative rest hrest => ?_⟩
  have hexponent := endsDigits_exponent he (endsDigits_of_endsNumber hrest)
  have hfraction := isDigit_fraction hf hexponent
  rw [number, takeWhile_append_stop hdigits.2 hfraction,
    dropWhile_append_stop hdigits.2 hfraction]
  dsimp only
  rw [if_neg hzero, fraction_of_isFraction hf hexponent]
  simp only [Option.bind_eq_bind, Option.bind_some]
  rw [exponent_of_isExponent he hrest]
  simp only [Option.bind_some]
  rw [if_pos hrest]

theorem numeral_ofNat (negative : Bool) (n : Nat) :
    numeral negative (Text.ofNat n) [] [] = .int (if negative then -n else n) := by
  rw [numeral, Text.ofDigitChars_ofNat]
  rfl

theorem numeral_of_ne_nil {f e : Text} (h : f ≠ [] ∨ e ≠ []) (negative : Bool) (whole : Text) :
    numeral negative whole f e = .float (signed negative (whole ++ f ++ e)) := by
  have hsome : (f.isEmpty && e.isEmpty) = false := by simpa [or_iff_not_imp_left] using h
  rw [numeral, hsome]
  cases negative <;> simp [signed]

end Reader

open Reader
open Number (IsWhole IsFraction IsExponent IsReal signed)

/-! ## Lexemes at the beginning of a text -/

theorem lexemes_punctuator {c : Char} (h : isPunctuator c = true) (rest : Text) :
    lexemes (c :: rest) = (lexemes rest).map (.punctuator c :: ·) := by
  obtain ⟨hi, hc, -⟩ := isPunctuator_cases h
  rw [lexemes_lexeme _ hi hc, lexeme?, if_pos h]
  rfl

theorem lexemes_name {name : Text} (h : isName name = true) {rest : Text}
    (hrest : ∀ c ∈ rest.head?, isNameChar c = false) :
    lexemes (name ++ rest) = (lexemes rest).map (.name name :: ·) := by
  cases name with
  | nil => cases h
  | cons c name =>
    simp only [isName, Bool.and_eq_true, List.all_eq_true] at h
    obtain ⟨hp, hi, hplain⟩ := isNameChar_cases (isNameChar_of_isNameStart h.1)
    rw [List.cons_append, lexemes_lexeme _ hi (isPlain_iff.mp hplain).2.2.2, lexeme?, hp,
      if_neg Bool.false_ne_true, if_pos h.1, takeWhile_append_stop h.2 hrest,
      dropWhile_append_stop h.2 hrest]
    rfl

theorem lexemes_stringLiteral (t : Text) {rest : Text} (hrest : rest.head? ≠ some '"') :
    lexemes (stringLiteral t ++ rest) = (lexemes rest).map (.string t :: ·) := by
  have hvalue := stringValue_escapes t rest
  -- the literal could begin a block string only if it were empty and a quote came next
  obtain ⟨body, hin, hbody, -⟩ := stringValue_eq_some hvalue
  have hquotes : ∀ r, t.flatMap (Json.escapeChar .ascii) ++ '"' :: rest ≠ '"' :: '"' :: r := by
    rw [hbody]
    exact hin.ne_quotes fun _ => hrest
  have htext : stringLiteral t ++ rest =
      '"' :: (t.flatMap (Json.escapeChar .ascii) ++ '"' :: rest) := by
    simp [stringLiteral, Json.literal]
  rw [htext, lexemes_quote, literal_string hquotes, hvalue]
  rfl

theorem lexeme?_digit {c : Char} (h : c.isDigit = true) (rest : Text) :
    lexeme? c rest = number false c rest := by
  obtain ⟨hp, -, -⟩ := isNameChar_cases (isNameChar_of_isDigit h)
  rw [lexeme?, hp, isNameStart_of_isDigit h, if_neg Bool.false_ne_true, if_neg Bool.false_ne_true,
    if_pos h]

/-- A number is read whether it begins with a digit or with a minus sign. -/
theorem lexemes_number {whole f e : Text} (hwhole : IsWhole whole) (hf : IsFraction f)
    (he : IsExponent e) (negative : Bool) {rest : Text} (h : endsNumber rest = true) :
    lexemes (signed negative (whole ++ f ++ e) ++ rest) =
      (lexemes rest).map (numeral negative whole f e :: ·) := by
  obtain ⟨d, ds, rfl, hd, hnumber⟩ := number_of_parts hwhole hf he
  have htext : d :: ds ++ f ++ e ++ rest = d :: (ds ++ (f ++ (e ++ rest))) := by simp
  cases negative with
  | false =>
    obtain ⟨-, hi, hplain⟩ := isNameChar_cases (isNameChar_of_isDigit hd)
    rw [signed, if_neg Bool.false_ne_true, htext, lexemes_lexeme _ hi (isPlain_iff.mp hplain).2.2.2,
      lexeme?_digit hd, hnumber false rest h]
    rfl
  | true =>
    have hminus : lexeme? '-' (d :: (ds ++ (f ++ (e ++ rest)))) =
        number true d (ds ++ (f ++ (e ++ rest))) := if_pos hd
    rw [signed, if_pos rfl, List.cons_append, htext, lexemes_lexeme _ (by decide) (by decide),
      hminus, hnumber true rest h]
    rfl

theorem lexemes_ofInt (n : Int) {rest : Text} (h : endsNumber rest = true) :
    lexemes (Text.ofInt n ++ rest) = (lexemes rest).map (.int n :: ·) := by
  cases n with
  | ofNat n =>
    have hread := lexemes_number (Number.isWhole_ofNat n) .none .none false h
    rw [numeral_ofNat, List.append_nil, List.append_nil] at hread
    exact hread
  | negSucc n =>
    have hread := lexemes_number (Number.isWhole_ofNat (n + 1)) .none .none true h
    rw [numeral_ofNat, List.append_nil, List.append_nil] at hread
    exact hread

theorem lexemes_real {text rest : Text} (hreal : IsReal text) (negative : Bool)
    (h : endsNumber rest = true) : lexemes (signed negative text ++ rest) =
      (lexemes rest).map (.float (signed negative text) :: ·) := by
  cases hreal with
  | mk hwhole hf he hpart =>
    rw [lexemes_number hwhole hf he negative h, numeral_of_ne_nil hpart]

end FieldSearch.GraphQL
