/-!
# Text

Text is a list of characters, so that everything the library says about text can be proved by
recursion on it. A literal in quotes stands for its characters.
-/

namespace FieldSearch

abbrev Text := List Char

instance : Coe String Text := ⟨String.toList⟩

/-- Found once and for all, so that a test whether a text is listed need not look for it. -/
instance : LawfulBEq Text := inferInstance

namespace Text

def join (separator : Text) (parts : List Text) : Text := List.intercalate separator parts

def lines (parts : List Text) : Text := join "\n" parts

/-- The text before and after the first separator, or `none` without one. -/
def cut (separator : Char) : Text → Option (Text × Text)
  | [] => none
  | c :: rest =>
    if c = separator then some ([], rest)
    else (cut separator rest).map fun (before, after) => (c :: before, after)

/-- The text without the given ending, which is taken off once. -/
def stripSuffix (text ending : Text) : Text := (ending.isSuffixOf? text).getD text

def stripPrefix (text beginning : Text) : Text := (beginning.isPrefixOf? text).getD text

def contains (part : Text) : Text → Bool
  | [] => part.isEmpty
  | c :: rest => part.isPrefixOf (c :: rest) || contains part rest

def replace (text : Text) (old : Char) (new : Text) : Text :=
  text.flatMap fun c => if c = old then new else [c]

def ofNat (n : Nat) : Text := Nat.toDigits 10 n

def ofInt : Int → Text
  | .ofNat n => ofNat n
  | .negSucc n => '-' :: ofNat (n + 1)

/-- Lower-case hexadecimal digits, filled with zeros up to the width. -/
def hex (width n : Nat) : Text :=
  let digits := Nat.toDigits 16 n
  List.replicate (width - digits.length) '0' ++ digits

/-- Decimal digits, filled with zeros up to the width. -/
def padded (width n : Nat) : Text :=
  let digits := ofNat n
  List.replicate (width - digits.length) '0' ++ digits

theorem cut_eq_none_iff {separator : Char} {text : Text} :
    cut separator text = none ↔ separator ∉ text := by
  induction text with
  | nil => simp [cut]
  | cons c rest ih =>
    by_cases h : c = separator
    · simp [cut, h]
    · simp [cut, h, ih, Ne.symm h]

theorem cut_append {separator : Char} {before : Text} (h : separator ∉ before) (after : Text) :
    cut separator (before ++ separator :: after) = some (before, after) := by
  induction before with
  | nil => simp [cut]
  | cons c rest ih =>
    simp only [List.mem_cons, not_or] at h
    simp [cut, Ne.symm h.1, ih h.2]

theorem eq_of_cut {separator : Char} {text before after : Text}
    (h : cut separator text = some (before, after)) :
    text = before ++ separator :: after ∧ separator ∉ before := by
  induction text generalizing before with
  | nil => simp [cut] at h
  | cons c rest ih =>
    by_cases hc : c = separator
    · simp only [cut, hc, if_true, Option.some.injEq, Prod.mk.injEq] at h
      simp [← h.1, ← h.2, hc]
    · simp only [cut, hc, if_false, Option.map_eq_some_iff] at h
      obtain ⟨⟨b, a⟩, hcut, heq⟩ := h
      simp only [Prod.mk.injEq] at heq
      obtain ⟨rfl, rfl⟩ := heq
      obtain ⟨h₁, h₂⟩ := ih hcut
      exact ⟨by simp [h₁], by simp [Ne.symm hc, h₂]⟩

end Text

end FieldSearch
