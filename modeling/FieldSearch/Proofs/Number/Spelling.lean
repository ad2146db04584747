import FieldSearch.Proofs.Number.Range

/-!
# Numbers as they are spelled

A number is spelled with blanks around it, a sign, and a word or a decimal, which may have single
underscores between its digits. What a text spells is exact; only then it is rounded.
-/

namespace FieldSearch.Number

open Text (isAsciiDigit)

/-- What is spelled behind the sign. -/
inductive Quantity where
  | infinite
  | undefined
  | decimal (digits : Nat) (exponent : Int)

def Quantity.value : Quantity → Float
  | infinite => 1.0 / 0.0
  | undefined => 0.0 / 0.0
  | decimal digits exponent => scaled digits exponent

def IsAsciiDigits (text : Text) : Prop := text.all isAsciiDigit = true

/-- A power of ten, or nothing. -/
inductive SpellsPower : Text → Int → Prop
  | one : SpellsPower [] 0
  | power {mark : Char} {rest digits : Text} {negative : Bool} : mark = 'e' ∨ mark = 'E' →
      splitSign rest = (negative, digits) → digits ≠ [] → IsAsciiDigits digits →
      SpellsPower (mark :: rest)
        (if negative then -(digitsValue digits : Int) else digitsValue digits)

/-- A point with digits, or nothing. -/
inductive SpellsPlaces : Text → Text → Prop
  | none : SpellsPlaces [] []
  | point {places : Text} : IsAsciiDigits places → SpellsPlaces ('.' :: places) places

inductive SpellsDecimal : Text → Nat → Int → Prop
  | mk {whole fraction places power : Text} {e : Int} : IsAsciiDigits whole →
      SpellsPlaces fraction places → whole ≠ [] ∨ places ≠ [] → SpellsPower power e →
      SpellsDecimal (whole ++ (fraction ++ power)) (digitsValue (whole ++ places))
        (e - places.length)

inductive SpellsQuantity : Text → Quantity → Prop
  | infinite {word : Text} :
      lowerAscii word = ("inf" : Text) ∨ lowerAscii word = ("infinity" : Text) →
      SpellsQuantity word .infinite
  | undefined {word : Text} : lowerAscii word = ("nan" : Text) → SpellsQuantity word .undefined
  | decimal {text plain : Text} {digits : Nat} {exponent : Int} :
      dropUnderscores false text = some plain → SpellsDecimal plain digits exponent →
      SpellsQuantity text (.decimal digits exponent)

/-- A text spells a number, with a minus sign or without one. -/
def Spells (text : Text) (negative : Bool) (quantity : Quantity) : Prop :=
  ∃ body, splitSign (stripBlanks (plainForm text)) = (negative, body) ∧
    SpellsQuantity body quantity

/-! ## Digits and what follows them -/

theorem span_digits {digits rest : Text} (hdigits : IsAsciiDigits digits)
    (hrest : ∀ c ∈ rest.head?, isAsciiDigit c = false) :
    (digits ++ rest).span isAsciiDigit = (digits, rest) := by
  rw [List.span_eq_takeWhile_dropWhile]
  have hall := List.all_eq_true.mp hdigits
  rw [List.takeWhile_append_of_pos hall, List.dropWhile_append_of_pos hall]
  cases rest with
  | nil => simp
  | cons c rest => simp [hrest c rfl]

theorem eq_append_of_span {text digits rest : Text}
    (h : text.span isAsciiDigit = (digits, rest)) :
    text = digits ++ rest ∧ IsAsciiDigits digits := by
  rw [List.span_eq_takeWhile_dropWhile, Prod.mk.injEq] at h
  obtain ⟨rfl, rfl⟩ := h
  exact ⟨(List.takeWhile_append_dropWhile ..).symm, List.all_takeWhile⟩

theorem SpellsPower.head {power : Text} {e : Int} (h : SpellsPower power e) :
    ∀ c ∈ power.head?, c = 'e' ∨ c = 'E' := by
  cases h with
  | one => simp
  | power hmark => simpa using hmark

/-- The power of ten behind the digits, and the number that they give with it. -/
def readPower (value : Int → Float) : Text → Option Float
  | [] => some (value 0)
  | c :: rest =>
    if c = 'e' ∨ c = 'E' then
      let (negative, digits) := splitSign rest
      if digits.isEmpty || !digits.all isAsciiDigit then none
      else
        let e : Int := digitsValue digits
        some (value (if negative then -e else e))
    else none

theorem readPower_eq_some_iff {value : Int → Float} {rest : Text} {x : Float} :
    readPower value rest = some x ↔ ∃ e, SpellsPower rest e ∧ value e = x := by
  constructor
  · intro h
    cases rest with
    | nil =>
      cases h
      exact ⟨0, .one, rfl⟩
    | cons c rest =>
      by_cases hmark : c = 'e' ∨ c = 'E'
      · cases hsign : splitSign rest with
        | mk negative digits =>
          rw [readPower, if_pos hmark, hsign] at h
          dsimp only at h
          split at h
          · cases h
          · rename_i hdigits
            simp only [Bool.or_eq_true, Bool.not_eq_true', not_or, Bool.not_eq_false,
              List.isEmpty_iff] at hdigits
            cases h
            exact ⟨_, .power hmark hsign hdigits.1 hdigits.2, rfl⟩
      · rw [readPower, if_neg hmark] at h
        cases h
  · rintro ⟨e, h, rfl⟩
    cases h with
    | one => rfl
    | @power mark rest digits negative hmark hsign hne hdigits =>
      have hsome : ¬ (digits.isEmpty || !digits.all isAsciiDigit) = true := by
        simpa [List.isEmpty_iff, IsAsciiDigits] using ⟨hne, List.all_eq_true.mp hdigits⟩
      rw [readPower, if_pos hmark, hsign]
      exact if_neg hsome

def readPlaces : Text → Text × Text
  | '.' :: rest => rest.span isAsciiDigit
  | rest => ([], rest)

theorem exists_of_readPlaces {rest places after : Text} (h : readPlaces rest = (places, after)) :
    ∃ fraction, SpellsPlaces fraction places ∧ rest = fraction ++ after := by
  unfold readPlaces at h
  split at h
  · obtain ⟨rfl, hdigits⟩ := eq_append_of_span h
    exact ⟨_, .point hdigits, rfl⟩
  · cases h
    exact ⟨[], .none, rfl⟩

theorem SpellsPlaces.read {fraction places power : Text} {e : Int}
    (h : SpellsPlaces fraction places) (hpower : SpellsPower power e) :
    (∀ c ∈ (fraction ++ power).head?, isAsciiDigit c = false) ∧
      readPlaces (fraction ++ power) = (places, power) := by
  have hdigit : ∀ c ∈ power.head?, isAsciiDigit c = false := by
    intro c hc
    obtain rfl | rfl := hpower.head c hc <;> decide
  cases h with
  | none =>
    refine ⟨hdigit, ?_⟩
    cases hpower with
    | one => rfl
    | power hmark => obtain rfl | rfl := hmark <;> rfl
  | point hplaces =>
    refine ⟨?_, span_digits hplaces hdigit⟩
    intro c hc
    cases hc
    decide

theorem not_isEmpty_iff {a b : Text} :
    ¬ (a.isEmpty && b.isEmpty) = true ↔ a ≠ [] ∨ b ≠ [] := by
  rw [Bool.and_eq_true, List.isEmpty_iff, List.isEmpty_iff, not_and_or]

theorem readDecimal_eq (text : Text) : readDecimal text =
    let (whole, rest) := text.span isAsciiDigit
    let (places, power) := readPlaces rest
    if whole.isEmpty && places.isEmpty then none
    else readPower (fun e => scaled (digitsValue (whole ++ places)) (e - places.length)) power :=
  rfl

theorem readDecimal_eq_some_iff {text : Text} {x : Float} : readDecimal text = some x ↔
    ∃ digits exponent, SpellsDecimal text digits exponent ∧ scaled digits exponent = x := by
  rw [readDecimal_eq]
  constructor
  · intro h
    cases hwhole : text.span isAsciiDigit with
    | mk whole rest =>
      cases hplaces : readPlaces rest with
      | mk places power =>
        rw [hwhole] at h
        dsimp only at h
        rw [hplaces] at h
        dsimp only at h
        split at h
        · cases h
        · rename_i hempty
          obtain ⟨e, hpower, rfl⟩ := readPower_eq_some_iff.mp h
          obtain ⟨fraction, hfraction, rfl⟩ := exists_of_readPlaces hplaces
          obtain ⟨rfl, hdigits⟩ := eq_append_of_span hwhole
          exact ⟨_, _, .mk hdigits hfraction (not_isEmpty_iff.mp hempty) hpower, rfl⟩
  · rintro ⟨digits, exponent, h, rfl⟩
    cases h with
    | @mk whole fraction places power e hwhole hfraction hne hpower =>
      obtain ⟨hdigit, hplaces⟩ := hfraction.read hpower
      rw [span_digits hwhole hdigit]
      dsimp only
      rw [hplaces]
      dsimp only
      rw [if_neg (not_isEmpty_iff.mpr hne)]
      exact readPower_eq_some_iff.mpr ⟨e, hpower, rfl⟩

/-! ## Words and signs -/

/-- A decimal begins with a digit or with its point. -/
def BeginsDecimal (c : Char) : Prop := isAsciiDigit c = true ∨ c = '.'

theorem SpellsDecimal.head {plain : Text} {digits : Nat} {exponent : Int}
    (h : SpellsDecimal plain digits exponent) : ∃ c rest, plain = c :: rest ∧ BeginsDecimal c := by
  cases h with
  | @mk whole fraction places power e hwhole hfraction hne hpower =>
    cases whole with
    | cons c whole =>
      have hc : isAsciiDigit c = true := List.all_eq_true.mp hwhole c (List.mem_cons_self ..)
      exact ⟨c, _, rfl, .inl hc⟩
    | nil =>
      cases hfraction with
      | none => simp at hne
      | point => exact ⟨'.', _, rfl, .inr rfl⟩

theorem eq_cons_of_dropUnderscores {body rest : Text} {c : Char}
    (h : dropUnderscores false body = some (c :: rest)) : ∃ tail, body = c :: tail := by
  unfold dropUnderscores at h
  split at h
  · cases h
  · cases h
  · split at h
    · cases h
    · obtain ⟨plain, -, hplain⟩ := Option.map_eq_some_iff.mp h
      cases hplain
      exact ⟨_, rfl⟩

theorem BeginsDecimal.toLower_eq {c : Char} (h : BeginsDecimal c) : c.toLower = c := by
  have hle : c.val ≤ '9'.val := by
    obtain hdigit | rfl := h
    · simp only [isAsciiDigit, Bool.and_eq_true, decide_eq_true_eq] at hdigit
      exact hdigit.2
    · decide
  have hcapital : ¬ (c.val ≥ 'A'.val ∧ c.val ≤ 'Z'.val) := by
    rintro ⟨hge, -⟩
    exact absurd (UInt32.le_trans hge hle) (by decide)
  rw [Char.toLower, dif_neg hcapital]

theorem BeginsDecimal.lowerAscii_ne {c : Char} (h : BeginsDecimal c) (tail : Text) {d : Char}
    (hd : ¬ BeginsDecimal d) (word : Text) : lowerAscii (c :: tail) ≠ d :: word := by
  intro heq
  rw [lowerAscii, List.map_cons, h.toLower_eq, List.cons.injEq] at heq
  exact hd (heq.1 ▸ h)

theorem not_beginsDecimal : ¬ BeginsDecimal 'i' ∧ ¬ BeginsDecimal 'n' := by
  unfold BeginsDecimal
  decide

theorem readMagnitude_of_decimal {body plain : Text} {digits : Nat} {exponent : Int}
    (hplain : dropUnderscores false body = some plain)
    (h : SpellsDecimal plain digits exponent) :
    readMagnitude body = some (scaled digits exponent) := by
  obtain ⟨c, rest, rfl, hc⟩ := h.head
  obtain ⟨tail, rfl⟩ := eq_cons_of_dropUnderscores hplain
  have hinfinite : ¬ (lowerAscii (c :: tail) = ("inf" : Text) ∨
      lowerAscii (c :: tail) = ("infinity" : Text)) :=
    not_or.mpr ⟨hc.lowerAscii_ne tail not_beginsDecimal.1 _,
      hc.lowerAscii_ne tail not_beginsDecimal.1 _⟩
  have hundefined : lowerAscii (c :: tail) ≠ ("nan" : Text) :=
    hc.lowerAscii_ne tail not_beginsDecimal.2 _
  rw [readMagnitude, if_neg hinfinite, if_neg hundefined, hplain]
  exact readDecimal_eq_some_iff.mpr ⟨digits, exponent, h, rfl⟩

theorem readMagnitude_eq_some_iff {body : Text} {x : Float} : readMagnitude body = some x ↔
    ∃ quantity, SpellsQuantity body quantity ∧ quantity.value = x := by
  constructor
  · intro h
    unfold readMagnitude at h
    dsimp only at h
    split at h
    · rename_i hword
      cases h
      exact ⟨.infinite, .infinite hword, rfl⟩
    · split at h
      · rename_i hword
        cases h
        exact ⟨.undefined, .undefined hword, rfl⟩
      · obtain ⟨plain, hplain, hdecimal⟩ := Option.bind_eq_some_iff.mp h
        obtain ⟨digits, exponent, hspells, rfl⟩ := readDecimal_eq_some_iff.mp hdecimal
        exact ⟨.decimal digits exponent, .decimal hplain hspells, rfl⟩
  · rintro ⟨quantity, h, rfl⟩
    cases h with
    | infinite hword =>
      rw [readMagnitude, if_pos hword]
      rfl
    | undefined hword =>
      rw [readMagnitude, hword]
      rfl
    | decimal hplain hspells => exact readMagnitude_of_decimal hplain hspells

def withSign (negative : Bool) (x : Float) : Float := if negative then -x else x

/-- The float of a text is what it spells, rounded. -/
theorem readFloat_eq_some_iff {text : Text} {x : Float} : readFloat text = some x ↔
    ∃ negative quantity, Spells text negative quantity ∧
      withSign negative quantity.value = x := by
  unfold readFloat Spells
  cases hsign : splitSign (stripBlanks (plainForm text)) with
  | mk negative body =>
    dsimp only
    rw [Option.map_eq_some_iff]
    constructor
    · rintro ⟨y, hy, rfl⟩
      obtain ⟨quantity, hspells, rfl⟩ := readMagnitude_eq_some_iff.mp hy
      exact ⟨negative, quantity, ⟨body, rfl, hspells⟩, rfl⟩
    · rintro ⟨negative', quantity, ⟨body', hsame, hspells⟩, rfl⟩
      cases hsame
      exact ⟨quantity.value, readMagnitude_eq_some_iff.mpr ⟨quantity, hspells, rfl⟩, rfl⟩

/-! ## Finite numbers that are not below zero -/

open Binary64 (tiny huge IsSane)

/-- Neither too large nor below zero, once it is rounded. -/
def Quantity.IsModerate (negative : Bool) : Quantity → Prop
  | decimal digits exponent =>
    if negative then (digits * 10 ^ exponent : ℚ) ≤ tiny else (digits * 10 ^ exponent : ℚ) < huge
  | infinite | undefined => False

theorem isSane_withSign_iff (negative : Bool) (quantity : Quantity) :
    IsSane (withSign negative quantity.value) ↔ quantity.IsModerate negative := by
  cases quantity with
  | decimal digits exponent =>
    have hkind := Binary64.scaled_hasKind digits exponent
    cases negative with
    | true =>
      have hneg : Binary64.HasKind .negative (digits * 10 ^ exponent)
          (-scaled digits exponent).toModel.unpack := hkind.neg
      simpa [withSign, Quantity.value, Quantity.IsModerate] using hneg.isSane_iff
    | false => simpa [withSign, Quantity.value, Quantity.IsModerate] using hkind.isSane_iff
  | infinite => cases negative <;> exact iff_of_false (by decide +kernel) id
  | undefined => cases negative <;> exact iff_of_false (by decide +kernel) id

/-- All that a text spells is moderate; of a text that spells no number, nothing is asked. -/
def IsModerate (text : Text) : Prop :=
  ∀ negative quantity, Spells text negative quantity → quantity.IsModerate negative

theorem isSane_readFloat_iff {text : Text} :
    (∀ x, readFloat text = some x → IsSane x) ↔ IsModerate text := by
  simp only [readFloat_eq_some_iff]
  constructor
  · intro h negative quantity hspells
    exact (isSane_withSign_iff negative quantity).mp (h _ ⟨negative, quantity, hspells, rfl⟩)
  · rintro h x ⟨negative, quantity, hspells, rfl⟩
    exact (isSane_withSign_iff negative quantity).mpr (h negative quantity hspells)

end FieldSearch.Number
