import FieldSearch.Schema.Basic
import Mathlib.Data.List.Infix

/-!
# Names of fields

A full-text name is a base name with the ending, and the base name of any other name is the name.
The root field that lists the documents of a filter type is named after the type.
-/

namespace FieldSearch

theorem baseName_eq_of_append {name base : Text} (h : base ++ fulltextSuffix = name) :
    baseName name = base := by
  have : fulltextSuffix.isSuffixOf? name = some base :=
    List.isSuffixOf?_eq_some_iff_append_eq.mpr h
  rw [baseName, Text.stripSuffix, this, Option.getD_some]

theorem baseName_fulltextName (base : Text) : baseName (fulltextName base) = base :=
  baseName_eq_of_append rfl

theorem isFulltextName_iff {name : Text} :
    isFulltextName name = true ↔ ∃ base, fulltextName base = name := by
  rw [isFulltextName, ← List.isSome_isSuffixOf?_eq_isSuffixOf, Option.isSome_iff_exists]
  exact exists_congr fun base => List.isSuffixOf?_eq_some_iff_append_eq

theorem isFulltextName_fulltextName (base : Text) : isFulltextName (fulltextName base) = true :=
  isFulltextName_iff.mpr ⟨base, rfl⟩

theorem fulltextName_baseName {name : Text} (h : isFulltextName name = true) :
    fulltextName (baseName name) = name := by
  obtain ⟨base, rfl⟩ := isFulltextName_iff.mp h
  rw [baseName_fulltextName]

theorem baseName_of_not_isFulltextName {name : Text} (h : isFulltextName name = false) :
    baseName name = name := by
  cases hs : fulltextSuffix.isSuffixOf? name with
  | none => rw [baseName, Text.stripSuffix, hs, Option.getD_none]
  | some base =>
    rw [isFulltextName, ← List.isSome_isSuffixOf?_eq_isSuffixOf, hs] at h
    cases h

theorem eq_baseName_or_fulltextName (name : Text) :
    name = baseName name ∨ name = fulltextName (baseName name) := by
  cases h : isFulltextName name with
  | true => exact Or.inr (fulltextName_baseName h).symm
  | false => exact Or.inl (baseName_of_not_isFulltextName h).symm

theorem fulltextName_inj {a b : Text} (h : fulltextName a = fulltextName b) : a = b :=
  List.append_cancel_right h

theorem prefix_fulltextName (base : Text) : base <+: fulltextName base :=
  List.prefix_append base fulltextSuffix

theorem fulltextName_ne (base : Text) : fulltextName base ≠ base := by
  intro h
  rw [fulltextName, List.append_right_eq_self] at h
  exact absurd h (by decide)

theorem listingName_append (rest : Text) :
    listingName (filterPrefix ++ rest) = "all" ++ rest ++ "s" := by
  rw [listingName, Text.stripPrefix, List.isPrefixOf?_eq_some_iff_append_eq.mpr rfl,
    Option.getD_some]

end FieldSearch
