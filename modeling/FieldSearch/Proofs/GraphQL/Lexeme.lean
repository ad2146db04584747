import FieldSearch.Json.Read
import FieldSearch.Proofs.GraphQL.Splitting
import Mathlib

/-!
# Lexemes of the query language

The lexical grammar of the language in which documents are written: punctuators, names, numbers and
string literals, with blanks, line ends, commas, byte order marks and comments ignored between them.
Reading a text gives its lexemes, or nothing if some part of it is no lexeme.
-/

namespace FieldSearch.GraphQL

/-- A float keeps its digits, and a block string the indentation of its lines. -/
inductive Lexeme where
  | punctuator (c : Char)
  | spread
  | name (t : Text)
  | int (n : Int)
  | float (t : Text)
  | string (t : Text)
  | blockString (t : Text)
deriving DecidableEq

def isNameStart (c : Char) : Bool := c.isAlpha || c = '_'

def isNameChar (c : Char) : Bool := c.isAlphanum || c = '_'

def isName : Text → Bool
  | [] => false
  | c :: rest => isNameStart c && rest.all isNameChar

def isPunctuator (c : Char) : Bool :=
  c ∈ ['!', '$', '&', '(', ')', ':', '=', '@', '[', ']', '\x7b', '|', '\x7d']

def isIgnored (c : Char) : Bool := c ∈ [' ', '\t', '\n', '\r', ',', '\ufeff']

namespace Reader

/-! ## String literals -/

/-- The second half of a character that two units write. -/
def secondHalf (first : Nat) : Text → Option (Char × Text)
  | '\\' :: 'u' :: rest => do
    let (second, after) ← Json.Reader.unit? rest
    if 0xDC00 ≤ second ∧ second < 0xE000 then
      some (.ofNat (0x10000 + (first - 0xD800) * 0x400 + (second - 0xDC00)), after)
    else none
  | _ => none

/-- The character that an escape stands for, after its backslash. -/
def escaped : Text → Option (Char × Text)
  | 'u' :: rest => do
    let (n, after) ← Json.Reader.unit? rest
    if 0xD800 ≤ n ∧ n < 0xDC00 then secondHalf n after
    else if 0xDC00 ≤ n ∧ n < 0xE000 then none
    else some (.ofNat n, after)
  | e :: rest => (Json.Reader.simpleEscape? e).map (·, rest)
  | [] => none

theorem inside_hexDigit {c : Char} {n : Nat} {t : Text} (h : Text.hexDigit? c = some n)
    (ht : Inside t) : Inside (c :: t) := by
  refine .plain ?_ ?_ ht
  · rintro rfl; cases h
  · rintro rfl; cases h

theorem unit?_eq_some {text after : Text} {n : Nat} (h : Json.Reader.unit? text = some (n, after)) :
    ∃ used, Inside used ∧ text = used ++ after ∧
      ∀ rest, Json.Reader.unit? (used ++ rest) = some (n, rest) := by
  unfold Json.Reader.unit? at h
  split at h
  · rename_i a b c d rest
    simp only [Option.bind_eq_bind, Option.bind_eq_some_iff, Option.some.injEq, Prod.mk.injEq] at h
    obtain ⟨na, ha, nb, hb, nc, hc, nd, hd, rfl, rfl⟩ := h
    refine ⟨[a, b, c, d], ?_, rfl, fun rest => by simp [Json.Reader.unit?, ha, hb, hc, hd]⟩
    exact inside_hexDigit ha (inside_hexDigit hb (inside_hexDigit hc (inside_hexDigit hd .nil)))
  · cases h

theorem secondHalf_eq_some {first : Nat} {text after : Text} {c : Char}
    (h : secondHalf first text = some (c, after)) :
    ∃ used, Inside used ∧ text = used ++ after ∧
      ∀ rest, secondHalf first (used ++ rest) = some (c, rest) := by
  unfold secondHalf at h
  split at h
  · rename_i rest
    simp only [Option.bind_eq_bind, Option.bind_eq_some_iff] at h
    obtain ⟨⟨n, after⟩, hunit, h⟩ := h
    obtain ⟨used, hin, rfl, hread⟩ := unit?_eq_some hunit
    split at h
    · rename_i hn
      obtain ⟨rfl, rfl⟩ := Prod.mk.inj (Option.some.inj h)
      exact ⟨'\\' :: 'u' :: used, .escape hin, rfl, fun rest => by simp [secondHalf, hread, hn]⟩
    · cases h
  · cases h

/-- An escape takes a part of the literal that leaves it open, whatever comes after. -/
theorem escaped_eq_some {text after : Text} {c : Char} (h : escaped text = some (c, after)) :
    ∃ used, Inside ('\\' :: used) ∧ text = used ++ after ∧
      ∀ rest, escaped (used ++ rest) = some (c, rest) := by
  unfold escaped at h
  split at h
  · rename_i rest
    simp only [Option.bind_eq_bind, Option.bind_eq_some_iff] at h
    obtain ⟨⟨n, between⟩, hunit, h⟩ := h
    obtain ⟨used, hin, rfl, hread⟩ := unit?_eq_some hunit
    split at h
    · rename_i hn
      obtain ⟨used', hin', rfl, hread'⟩ := secondHalf_eq_some h
      refine ⟨'u' :: (used ++ used'), .escape (hin.append hin'), by simp, fun rest => ?_⟩
      simp [escaped, hread, hn, hread']
    · split at h
      · cases h
      · rename_i hhigh hlow
        obtain ⟨rfl, rfl⟩ := Prod.mk.inj (Option.some.inj h)
        exact ⟨'u' :: used, .escape hin, rfl, fun rest => by simp [escaped, hread, hhigh, hlow]⟩
  · rename_i e rest hne
    obtain ⟨d, hd, h⟩ := Option.map_eq_some_iff.mp h
    obtain ⟨rfl, rfl⟩ := Prod.mk.inj h
    refine ⟨[e], .escape .nil, rfl, fun after => ?_⟩
    rw [List.singleton_append, escaped, hd]
    · rfl
    · exact hne
  · cases h

theorem length_escaped_le {text after : Text} {c : Char} (h : escaped text = some (c, after)) :
    after.length ≤ text.length := by
  obtain ⟨used, -, rfl, -⟩ := escaped_eq_some h
  rw [List.length_append]
  exact Nat.le_add_left ..

def stringValue : Text → Option (Text × Text)
  | [] => none
  | c :: rest =>
    if c = '"' then some ([], rest)
    else if c = '\\' then
      match _h : escaped rest with
      | none => none
      | some (d, after) => (stringValue after).map fun (t, after) => (d :: t, after)
    else if isLineEnd c then none
    else (stringValue rest).map fun (t, after) => (c :: t, after)
termination_by text => text.length
decreasing_by
  · have := length_escaped_le _h; simp only [List.length_cons]; omega
  · simp only [List.length_cons]; omega

theorem stringValue_cons (c : Char) (rest : Text) : stringValue (c :: rest) =
    if c = '"' then some ([], rest)
    else if c = '\\' then
      (escaped rest).bind fun (d, after) =>
        (stringValue after).map fun (t, after) => (d :: t, after)
    else if isLineEnd c then none
    else (stringValue rest).map fun (t, after) => (c :: t, after) := by
  rw [stringValue.eq_def]
  simp only
  split
  · rfl
  · split
    · split
      · rename_i h; rw [h]; rfl
      · rename_i h; rw [h]; rfl
    · rfl

theorem stringValue_escape {c : Char} (used : Text) {after : Text}
    (h : escaped (used ++ after) = some (c, after)) :
    stringValue ('\\' :: (used ++ after)) =
      (stringValue after).map fun (t, after) => (c :: t, after) := by
  rw [stringValue_cons, if_neg (by decide), if_pos rfl, h, Option.bind_some]

theorem stringValue_plain {c : Char} (rest : Text) (hq : c ≠ '"') (hs : c ≠ '\\')
    (hl : isLineEnd c = false) :
    stringValue (c :: rest) = (stringValue rest).map fun (t, after) => (c :: t, after) := by
  rw [stringValue_cons, if_neg hq, if_neg hs, if_neg (Bool.eq_false_iff.mp hl)]

/-- A string literal that can be read is closed, and its value does not depend on what follows. -/
theorem stringValue_eq_some {text value after : Text} (h : stringValue text = some (value, after)) :
    ∃ body, Inside body ∧ text = body ++ '"' :: after ∧
      ∀ rest, stringValue (body ++ '"' :: rest) = some (value, rest) := by
  fun_induction stringValue text generalizing value with
  | case1 => cases h
  | case2 rest =>
    obtain ⟨rfl, rfl⟩ := Prod.mk.inj (Option.some.inj h)
    exact ⟨[], .nil, rfl, fun rest => by rw [List.nil_append, stringValue_cons, if_pos rfl]⟩
  | case3 => cases h
  | case4 rest d between hesc _ ih =>
    obtain ⟨⟨t, after'⟩, ht, h⟩ := Option.map_eq_some_iff.mp h
    obtain ⟨rfl, rfl⟩ := Prod.mk.inj h
    obtain ⟨used, hin, rfl, hread⟩ := escaped_eq_some hesc
    obtain ⟨body, hin', rfl, hread'⟩ := ih ht
    refine ⟨'\\' :: (used ++ body), hin.append hin', by simp, fun rest => ?_⟩
    rw [List.cons_append, List.append_assoc, stringValue_escape used (hread _), hread']
    rfl
  | case5 c rest hq hs hl => cases h
  | case6 c rest hq hs hl ih =>
    obtain ⟨⟨t, after'⟩, ht, h⟩ := Option.map_eq_some_iff.mp h
    obtain ⟨rfl, rfl⟩ := Prod.mk.inj h
    obtain ⟨body, hin, rfl, hread⟩ := ih ht
    refine ⟨c :: body, .plain hq hs hin, rfl, fun rest => ?_⟩
    rw [List.cons_append, stringValue_plain _ hq hs (by simpa using hl), hread]
    rfl

def blockValue : Text → Option (Text × Text)
  | [] => none
  | '"' :: '"' :: '"' :: rest => some ([], rest)
  | '\\' :: '"' :: '"' :: '"' :: rest =>
    (blockValue rest).map fun (t, after) => ('"' :: '"' :: '"' :: t, after)
  | c :: rest => (blockValue rest).map fun (t, after) => (c :: t, after)

/-- The literal that an opening quote begins. -/
def literal : Text → Option (Lexeme × Text)
  | '"' :: '"' :: rest => (blockValue rest).map fun (t, after) => (.blockString t, after)
  | rest => (stringValue rest).map fun (t, after) => (.string t, after)

theorem blockValue_suffix {text value after : Text} (h : blockValue text = some (value, after)) :
    after <:+ text := by
  fun_induction blockValue text generalizing value with
  | case1 => cases h
  | case2 rest =>
    obtain ⟨-, rfl⟩ := Prod.mk.inj (Option.some.inj h)
    exact List.suffix_append ['"', '"', '"'] _
  | case3 rest ih =>
    obtain ⟨⟨t, after'⟩, ht, h⟩ := Option.map_eq_some_iff.mp h
    obtain ⟨-, rfl⟩ := Prod.mk.inj h
    exact (ih ht).trans (List.suffix_append ['\\', '"', '"', '"'] _)
  | case4 c rest _ _ ih =>
    obtain ⟨⟨t, after'⟩, ht, h⟩ := Option.map_eq_some_iff.mp h
    obtain ⟨-, rfl⟩ := Prod.mk.inj h
    exact (ih ht).trans (List.suffix_cons ..)

theorem literal_suffix {text after : Text} {l : Lexeme} (h : literal text = some (l, after)) :
    after <:+ text := by
  unfold literal at h
  split at h
  · obtain ⟨⟨t, after'⟩, ht, h⟩ := Option.map_eq_some_iff.mp h
    obtain ⟨-, rfl⟩ := Prod.mk.inj h
    exact (blockValue_suffix ht).trans (List.suffix_append ['"', '"'] _)
  · obtain ⟨⟨t, after'⟩, ht, h⟩ := Option.map_eq_some_iff.mp h
    obtain ⟨-, rfl⟩ := Prod.mk.inj h
    obtain ⟨body, -, rfl, -⟩ := stringValue_eq_some ht
    exact (List.suffix_cons ..).trans (List.suffix_append body _)

theorem literal_string {rest : Text} (h : ∀ r, rest ≠ '"' :: '"' :: r) :
    literal rest = (stringValue rest).map fun (t, after) => (.string t, after) := by
  rw [literal]
  exact fun r hr => h r hr

/-! ## Numbers -/

def fraction : Text → Option (Text × Text)
  | '.' :: rest =>
    if (rest.takeWhile Char.isDigit).isEmpty then none
    else some ('.' :: rest.takeWhile Char.isDigit, rest.dropWhile Char.isDigit)
  | rest => some ([], rest)

def exponentSign : Text → Text × Text
  | '+' :: rest => (['+'], rest)
  | '-' :: rest => (['-'], rest)
  | rest => ([], rest)

def exponent : Text → Option (Text × Text)
  | [] => some ([], [])
  | c :: rest =>
    if c = 'e' ∨ c = 'E' then
      let (sign, rest) := exponentSign rest
      if (rest.takeWhile Char.isDigit).isEmpty then none
      else some (c :: (sign ++ rest.takeWhile Char.isDigit), rest.dropWhile Char.isDigit)
    else some ([], c :: rest)

/-- A number ends neither in front of a name nor in front of a point. -/
def endsNumber (rest : Text) : Bool := rest.head?.all fun c => !isNameChar c && c ≠ '.'

def numeral (negative : Bool) (whole fraction exponent : Text) : Lexeme :=
  if fraction.isEmpty && exponent.isEmpty then
    let n : Int := Nat.ofDigitChars 10 whole 0
    .int (if negative then -n else n)
  else .float ((if negative then ['-'] else []) ++ whole ++ fraction ++ exponent)

def number (negative : Bool) (first : Char) (rest : Text) : Option (Lexeme × Text) :=
  let whole := first :: rest.takeWhile Char.isDigit
  if first = '0' ∧ whole ≠ ['0'] then none
  else do
    let (fraction, rest) ← fraction (rest.dropWhile Char.isDigit)
    let (exponent, rest) ← exponent rest
    if endsNumber rest then some (numeral negative whole fraction exponent, rest) else none

theorem fraction_suffix {text t after : Text} (h : fraction text = some (t, after)) :
    after <:+ text := by
  unfold fraction at h
  split at h
  · split at h
    · cases h
    · obtain ⟨-, rfl⟩ := Prod.mk.inj (Option.some.inj h)
      exact (List.dropWhile_suffix _).trans (List.suffix_cons ..)
  · obtain ⟨-, rfl⟩ := Prod.mk.inj (Option.some.inj h)
    exact List.suffix_refl _

theorem exponentSign_suffix (text : Text) : (exponentSign text).2 <:+ text := by
  unfold exponentSign
  split
  · exact List.suffix_cons ..
  · exact List.suffix_cons ..
  · exact List.suffix_refl _

theorem exponent_suffix {text t after : Text} (h : exponent text = some (t, after)) :
    after <:+ text := by
  unfold exponent at h
  split at h
  · obtain ⟨-, rfl⟩ := Prod.mk.inj (Option.some.inj h)
    exact List.suffix_refl _
  · split at h
    · simp only at h
      split at h
      · cases h
      · obtain ⟨-, rfl⟩ := Prod.mk.inj (Option.some.inj h)
        refine (List.dropWhile_suffix _).trans ?_
        exact (exponentSign_suffix _).trans (List.suffix_cons ..)
    · obtain ⟨-, rfl⟩ := Prod.mk.inj (Option.some.inj h)
      exact List.suffix_refl _

theorem number_suffix {negative : Bool} {first : Char} {text after : Text} {l : Lexeme}
    (h : number negative first text = some (l, after)) : after <:+ text := by
  unfold number at h
  simp only at h
  split at h
  · cases h
  · simp only [Option.bind_eq_bind, Option.bind_eq_some_iff] at h
    obtain ⟨⟨f, rest⟩, hf, ⟨e, rest'⟩, he, h⟩ := h
    split at h
    · obtain ⟨-, rfl⟩ := Prod.mk.inj (Option.some.inj h)
      exact (exponent_suffix he).trans ((fraction_suffix hf).trans (List.dropWhile_suffix _))
    · cases h

/-! ## Lexemes -/

def negative : Text → Option (Lexeme × Text)
  | [] => none
  | d :: rest => if d.isDigit then number true d rest else none

def spread : Text → Option (Lexeme × Text)
  | '.' :: '.' :: rest => some (.spread, rest)
  | _ => none

/-- The lexeme that a character begins. -/
def lexeme? (c : Char) (rest : Text) : Option (Lexeme × Text) :=
  if isPunctuator c then some (.punctuator c, rest)
  else if isNameStart c then
    some (.name (c :: rest.takeWhile isNameChar), rest.dropWhile isNameChar)
  else if c.isDigit then number false c rest
  else if c = '"' then literal rest
  else if c = '-' then negative rest
  else if c = '.' then spread rest
  else none

theorem negative_suffix {text after : Text} {l : Lexeme} (h : negative text = some (l, after)) :
    after <:+ text := by
  unfold negative at h
  split at h
  · cases h
  · split at h
    · exact (number_suffix h).trans (List.suffix_cons ..)
    · cases h

theorem spread_suffix {text after : Text} {l : Lexeme} (h : spread text = some (l, after)) :
    after <:+ text := by
  unfold spread at h
  split at h
  · obtain ⟨-, rfl⟩ := Prod.mk.inj (Option.some.inj h)
    exact List.suffix_append ['.', '.'] _
  · cases h

theorem lexeme?_suffix {c : Char} {text after : Text} {l : Lexeme}
    (h : lexeme? c text = some (l, after)) : after <:+ text := by
  unfold lexeme? at h
  split at h
  · obtain ⟨-, rfl⟩ := Prod.mk.inj (Option.some.inj h)
    exact List.suffix_refl _
  split at h
  · obtain ⟨-, rfl⟩ := Prod.mk.inj (Option.some.inj h)
    exact List.dropWhile_suffix _
  split at h
  · exact number_suffix h
  split at h
  · exact literal_suffix h
  split at h
  · exact negative_suffix h
  split at h
  · exact spread_suffix h
  · cases h

theorem length_lexeme?_le {c : Char} {text after : Text} {l : Lexeme}
    (h : lexeme? c text = some (l, after)) : after.length ≤ text.length :=
  (lexeme?_suffix h).length_le

end Reader

open Reader in
/-- The lexemes of a text. -/
def lexemes : Text → Option (List Lexeme)
  | [] => some []
  | c :: rest =>
    if isIgnored c then lexemes rest
    else if c = '#' then lexemes (rest.dropWhile (!isLineEnd ·))
    else
      match _h : lexeme? c rest with
      | none => none
      | some (l, after) => (lexemes after).map (l :: ·)
termination_by text => text.length
decreasing_by
  · simp only [List.length_cons]; omega
  · have := length_dropWhile_le (!isLineEnd ·) rest; simp only [List.length_cons]; omega
  · have := length_lexeme?_le _h; simp only [List.length_cons]; omega

/-! ## The first lexeme of a text -/

theorem lexemes_nil : lexemes [] = some [] := by rw [lexemes.eq_def]

theorem lexemes_cons (c : Char) (rest : Text) : lexemes (c :: rest) =
    if isIgnored c then lexemes rest
    else if c = '#' then lexemes (rest.dropWhile (!isLineEnd ·))
    else (Reader.lexeme? c rest).bind fun (l, after) => (lexemes after).map (l :: ·) := by
  rw [lexemes.eq_def]
  simp only
  split
  · rfl
  · split
    · rfl
    · split
      · rename_i h; rw [h]; rfl
      · rename_i h; rw [h]; rfl

theorem lexemes_ignored {c : Char} (rest : Text) (h : isIgnored c = true) :
    lexemes (c :: rest) = lexemes rest := by
  rw [lexemes_cons, if_pos h]

theorem lexemes_comment {body rest : Text} (hb : ∀ c ∈ body, isLineEnd c = false)
    (hr : ∀ c ∈ rest.head?, isLineEnd c = true) :
    lexemes ('#' :: (body ++ rest)) = lexemes rest := by
  rw [lexemes_cons, if_neg (by decide), if_pos rfl,
    dropWhile_append_stop (by simpa using hb) (by simpa using hr)]

theorem lexemes_lexeme {c : Char} (rest : Text) (hi : isIgnored c = false) (hc : c ≠ '#') :
    lexemes (c :: rest) =
      (Reader.lexeme? c rest).bind fun (l, after) => (lexemes after).map (l :: ·) := by
  rw [lexemes_cons, if_neg (Bool.eq_false_iff.mp hi), if_neg hc]

theorem lexemes_quote (rest : Text) : lexemes ('"' :: rest) =
    (Reader.literal rest).bind fun (l, after) => (lexemes after).map (l :: ·) := by
  rw [lexemes_lexeme _ (by decide) (by decide)]
  rfl

/-! ## Kinds of characters -/

theorem isPunctuator_cases {c : Char} (h : isPunctuator c = true) :
    isIgnored c = false ∧ c ≠ '#' ∧ isGap c = false := by
  simp only [isPunctuator, List.mem_cons, List.not_mem_nil, or_false, decide_eq_true_eq] at h
  rcases h with rfl | rfl | rfl | rfl | rfl | rfl | rfl | rfl | rfl | rfl | rfl | rfl | rfl <;> decide

theorem isNameChar_of_isNameStart {c : Char} (h : isNameStart c = true) : isNameChar c = true := by
  simp only [isNameStart, isNameChar, Char.isAlphanum, Bool.or_eq_true] at h ⊢
  rcases h with h | h
  · exact Or.inl (Or.inl h)
  · exact Or.inr h

theorem isNameChar_of_isDigit {c : Char} (h : c.isDigit = true) : isNameChar c = true := by
  simp [isNameChar, Char.isAlphanum, h]

theorem toNat_of_isDigit {c : Char} (h : c.isDigit = true) : 48 ≤ c.toNat ∧ c.toNat ≤ 57 := by
  simp only [Char.isDigit, Bool.and_eq_true, decide_eq_true_eq, UInt32.le_iff_toNat_le, ge_iff_le] at h
  exact h

theorem toNat_of_isNameChar {c : Char} (h : isNameChar c = true) :
    48 ≤ c.toNat ∧ c.toNat ≤ 57 ∨ 65 ≤ c.toNat ∧ c.toNat ≤ 90 ∨ c.toNat = 95 ∨
      97 ≤ c.toNat ∧ c.toNat ≤ 122 := by
  simp only [isNameChar, Char.isAlphanum, Char.isAlpha, Char.isUpper, Char.isLower, Bool.or_eq_true,
    Bool.and_eq_true, decide_eq_true_eq, UInt32.le_iff_toNat_le, ge_iff_le] at h
  rcases h with ((h | h) | h) | rfl
  · exact Or.inr (Or.inl h)
  · exact Or.inr (Or.inr (Or.inr h))
  · exact Or.inl (toNat_of_isDigit h)
  · exact Or.inr (Or.inr (Or.inl rfl))

theorem isBlank_of_isNameChar {c : Char} (h : isNameChar c = true) : Text.isBlank c = false := by
  have hn := toNat_of_isNameChar h
  simp only [Text.isBlank, Bool.or_eq_false_iff, Bool.and_eq_false_iff, decide_eq_false_iff_not,
    beq_eq_false_iff_ne]
  omega

theorem isNameChar_cases {c : Char} (h : isNameChar c = true) :
    isPunctuator c = false ∧ isIgnored c = false ∧ isPlain c = true := by
  have hne : ∀ d : Char, isNameChar d = false → c ≠ d := by
    rintro d hd rfl
    rw [h] at hd
    cases hd
  refine ⟨?_, ?_, isPlain_iff.mpr ⟨?_, ?_, hne _ (by decide), hne _ (by decide)⟩⟩
  · refine Bool.eq_false_iff.mpr fun hp => ?_
    simp only [isPunctuator, List.mem_cons, List.not_mem_nil, or_false, decide_eq_true_eq] at hp
    rcases hp with rfl | rfl | rfl | rfl | rfl | rfl | rfl | rfl | rfl | rfl | rfl | rfl | rfl <;>
      exact absurd h (by decide)
  · refine Bool.eq_false_iff.mpr fun hi => ?_
    simp only [isIgnored, List.mem_cons, List.not_mem_nil, or_false, decide_eq_true_eq] at hi
    rcases hi with rfl | rfl | rfl | rfl | rfl | rfl <;> exact absurd h (by decide)
  · simp [isGap, isBlank_of_isNameChar h, hne '\ufeff' (by decide)]
  · simp [isBrace, hne '\x7b' (by decide), hne '\x7d' (by decide)]

theorem not_isNameChar_of_not_isPlain {c : Char} (h : isPlain c = false) :
    isNameChar c = false := by
  cases hn : isNameChar c with
  | false => rfl
  | true => rw [(isNameChar_cases hn).2.2] at h; cases h

theorem not_isNameStart_of_not_isNameChar {c : Char} (h : isNameChar c = false) :
    isNameStart c = false := by
  cases hs : isNameStart c with
  | false => rfl
  | true => rw [isNameChar_of_isNameStart hs] at h; cases h

theorem not_isDigit_of_not_isNameChar {c : Char} (h : isNameChar c = false) :
    c.isDigit = false := by
  cases hd : c.isDigit with
  | false => rfl
  | true => rw [isNameChar_of_isDigit hd] at h; cases h

theorem isNameStart_of_isDigit {c : Char} (h : c.isDigit = true) : isNameStart c = false := by
  have hn := toNat_of_isDigit h
  refine Bool.eq_false_iff.mpr fun hs => ?_
  simp only [isNameStart, Char.isAlpha, Char.isUpper, Char.isLower, Bool.or_eq_true,
    Bool.and_eq_true, decide_eq_true_eq, UInt32.le_iff_toNat_le, ge_iff_le] at hs
  rcases hs with (hs | hs) | rfl
  · have : 65 ≤ c.toNat := hs.1
    omega
  · have : 97 ≤ c.toNat := hs.1
    omega
  · exact absurd h (by decide)

end FieldSearch.GraphQL
