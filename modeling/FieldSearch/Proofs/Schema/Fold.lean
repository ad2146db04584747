import FieldSearch.Proofs.Entries
import FieldSearch.Proofs.Schema.Name
import FieldSearch.Query.Resolution

/-!
# Declared names and the fields of a type

A type folds a field and its full-text name into one entry. Nothing is lost by it: the entries tell
of each name whether it was declared, whatever the order of the declarations.
-/

namespace FieldSearch.DocumentType

/-! ## One declaration -/

theorem exact_getD (support : Option FieldSupport) (base : Text) :
    (support.getD { name := base }).exact = support.any FieldSupport.exact := by
  cases support <;> rfl

theorem fulltext_getD (support : Option FieldSupport) (base : Text) :
    (support.getD { name := base }).fulltext = support.any FieldSupport.fulltext := by
  cases support <;> rfl

theorem exact_declare (fields : Entries FieldSupport) (name base : Text) :
    ((declare fields name).get? base).any FieldSupport.exact = true ↔
      (fields.get? base).any FieldSupport.exact = true ∨ base = name ∧ isFulltextName base = false := by
  unfold declare
  rw [Entries.get?_put]
  by_cases hbase : baseName name = base
  · rw [if_pos hbase, Option.any_some]
    cases hfull : isFulltextName name with
    | true =>
      have hne : ¬ (base = name ∧ isFulltextName base = false) := by
        rintro ⟨rfl, h⟩
        rw [hfull] at h
        cases h
      rw [if_pos rfl, exact_getD, hbase]
      exact (or_iff_left hne).symm
    | false =>
      have hname : base = name := hbase ▸ baseName_of_not_isFulltextName hfull
      rw [if_neg Bool.false_ne_true]
      exact iff_of_true rfl (Or.inr ⟨hname, hname ▸ hfull⟩)
  · have hne : ¬ (base = name ∧ isFulltextName base = false) := by
      rintro ⟨rfl, h⟩
      exact hbase (baseName_of_not_isFulltextName h)
    rw [if_neg hbase]
    exact (or_iff_left hne).symm

theorem fulltext_declare (fields : Entries FieldSupport) (name base : Text) :
    ((declare fields name).get? base).any FieldSupport.fulltext = true ↔
      (fields.get? base).any FieldSupport.fulltext = true ∨ fulltextName base = name := by
  unfold declare
  rw [Entries.get?_put]
  by_cases hbase : baseName name = base
  · rw [if_pos hbase, Option.any_some]
    cases hfull : isFulltextName name with
    | true =>
      rw [if_pos rfl]
      exact iff_of_true rfl (Or.inr (hbase ▸ fulltextName_baseName hfull))
    | false =>
      have hne : fulltextName base ≠ name := by
        rintro rfl
        rw [isFulltextName_fulltextName] at hfull
        cases hfull
      rw [if_neg Bool.false_ne_true, fulltext_getD, hbase]
      exact (or_iff_left hne).symm
  · have hne : fulltextName base ≠ name := by
      rintro rfl
      exact hbase (baseName_fulltextName base)
    rw [if_neg hbase]
    exact (or_iff_left hne).symm

/-! ## All declarations -/

theorem exact_foldl (names : List Text) (fields : Entries FieldSupport) (base : Text) :
    ((names.foldl declare fields).get? base).any FieldSupport.exact = true ↔
      (fields.get? base).any FieldSupport.exact = true ∨
        base ∈ names ∧ isFulltextName base = false := by
  induction names generalizing fields with
  | nil => exact (or_iff_left (fun h => List.not_mem_nil h.1)).symm
  | cons name names ih =>
    rw [List.foldl_cons, ih, exact_declare, List.mem_cons, or_and_right, or_assoc]

theorem fulltext_foldl (names : List Text) (fields : Entries FieldSupport) (base : Text) :
    ((names.foldl declare fields).get? base).any FieldSupport.fulltext = true ↔
      (fields.get? base).any FieldSupport.fulltext = true ∨ fulltextName base ∈ names := by
  induction names generalizing fields with
  | nil => exact (or_iff_left List.not_mem_nil).symm
  | cons name names ih =>
    rw [List.foldl_cons, ih, fulltext_declare, List.mem_cons, or_assoc]

theorem mem_keys_foldl {names : List Text} {fields : Entries FieldSupport} {base : Text} :
    base ∈ (names.foldl declare fields).keys ↔
      base ∈ fields.keys ∨ ∃ name ∈ names, baseName name = base := by
  induction names generalizing fields with
  | nil => simp
  | cons name names ih =>
    rw [List.foldl_cons, ih, declare, Entries.mem_keys_put, or_assoc]
    simp only [List.mem_cons, exists_eq_or_imp, eq_comm (a := base)]

theorem mem_keys_ofDeclared {inputType : Text} {names : List Text} {base : Text} :
    base ∈ (ofDeclared inputType names).fields.keys ↔ ∃ name ∈ names, baseName name = base :=
  mem_keys_foldl.trans (or_iff_right List.not_mem_nil)

theorem hasExact_ofDeclared {inputType : Text} {names : List Text} {base : Text} :
    (ofDeclared inputType names).hasExact base = true ↔
      base ∈ names ∧ isFulltextName base = false := by
  rw [hasExact, ofDeclared, exact_foldl]
  exact or_iff_right Bool.false_ne_true

theorem hasFulltext_ofDeclared {inputType : Text} {names : List Text} {base : Text} :
    (ofDeclared inputType names).hasFulltext base = true ↔ fulltextName base ∈ names := by
  rw [hasFulltext, ofDeclared, fulltext_foldl]
  exact or_iff_right Bool.false_ne_true

/-- A name stands for itself if it was declared, else for its full-text name if that was. -/
theorem fieldFor?_ofDeclared (inputType : Text) (names : List Text) (name : Text) :
    (ofDeclared inputType names).fieldFor? name =
      if name ∈ names then some name
      else if fulltextName name ∈ names then some (fulltextName name) else none := by
  unfold fieldFor?
  simp only [Bool.and_eq_true, hasExact_ofDeclared, hasFulltext_ofDeclared]
  cases hfull : isFulltextName name with
  | true => simp [fulltextName_baseName hfull]
  | false => simp

theorem fieldFor?_ofDeclared_congr {inputType inputType' : Text} {names names' : List Text}
    (h : ∀ name, name ∈ names ↔ name ∈ names') :
    (ofDeclared inputType names).fieldFor? = (ofDeclared inputType' names').fieldFor? := by
  funext name
  simp only [fieldFor?_ofDeclared, h]

theorem isSome_fieldFor?_ofDeclared {inputType : Text} {names : List Text} {name : Text} :
    ((ofDeclared inputType names).fieldFor? name).isSome = true ↔
      name ∈ names ∨ fulltextName name ∈ names := by
  rw [fieldFor?_ofDeclared]
  split
  · simp [*]
  · split <;> simp [*]

theorem mem_of_fieldFor?_ofDeclared {inputType : Text} {names : List Text} {name field : Text}
    (h : (ofDeclared inputType names).fieldFor? name = some field) : field ∈ names := by
  rw [fieldFor?_ofDeclared] at h
  split at h
  · exact Option.some.inj h ▸ ‹_›
  · split at h
    · exact Option.some.inj h ▸ ‹_›
    · cases h

/-! ## The preview field -/

theorem summaryOf_eq_some {names : List Text} {field : Text} (h : summaryOf names = some field) :
    fulltextName field ∈ names ∨ field ∈ names := by
  unfold summaryOf at h
  cases hfind : names.find? isFulltextName with
  | none =>
    rw [hfind] at h
    exact Or.inr (List.mem_of_mem_head? h)
  | some name =>
    rw [hfind] at h
    obtain rfl : baseName name = field := Option.some.inj h
    rw [fulltextName_baseName (List.find?_some hfind)]
    exact Or.inl (List.mem_of_find?_eq_some hfind)

end FieldSearch.DocumentType
