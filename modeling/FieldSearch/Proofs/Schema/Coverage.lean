import FieldSearch.Proofs.Query.Binding
import FieldSearch.Proofs.Schema.Declaration
import Mathlib.Data.Finset.Max

/-!
# Names that a type covers

A type covers a name when it has an entry with some support under it. A search also takes the
full-text name of a field as it stands, but there is no entry under such a name. So the two agree on
every base name, and a declared full-text name resolves without being covered, unless it has a
declared full-text name of its own.
-/

namespace FieldSearch

/-- The longest declared full-text name has no full-text name of its own. -/
theorem exists_fulltextName_not_mem {names : List Text}
    (h : ∃ name ∈ names, isFulltextName name = true) :
    ∃ name ∈ names, isFulltextName name = true ∧ fulltextName name ∉ names := by
  obtain ⟨name, hname, hfull⟩ := h
  have hmem : name ∈ (names.filter isFulltextName).toFinset := by simp [hname, hfull]
  obtain ⟨longest, hlongest, hmax⟩ := Finset.exists_max_image _ List.length ⟨name, hmem⟩
  simp only [List.mem_toFinset, List.mem_filter] at hlongest hmax
  refine ⟨longest, hlongest.1, hlongest.2, fun hlonger => ?_⟩
  have hle := hmax _ ⟨hlonger, isFulltextName_fulltextName longest⟩
  rw [fulltextName, List.length_append] at hle
  have hsuffix : 0 < fulltextSuffix.length := by decide
  omega

namespace DocumentType

variable {inputType : Text} {names : List Text}

theorem covers_ofDeclared {name : Text} : (ofDeclared inputType names).covers name = true ↔
    name ∈ names ∧ isFulltextName name = false ∨ fulltextName name ∈ names := by
  rw [covers, Bool.or_eq_true, hasExact_ofDeclared, hasFulltext_ofDeclared]

theorem covers_ofDeclared_eq_iff {name : Text} :
    (ofDeclared inputType names).covers name =
        ((ofDeclared inputType names).fieldFor? name).isSome ↔
      ¬ (isFulltextName name = true ∧ name ∈ names ∧ fulltextName name ∉ names) := by
  rw [Bool.eq_iff_iff, covers_ofDeclared, isSome_fieldFor?_ofDeclared]
  by_cases hfull : isFulltextName name = true
  · simp only [hfull, Bool.true_eq_false, and_false, false_or, true_and, not_and, not_not]
    exact ⟨fun h hname => h.mpr (Or.inl hname), fun h => ⟨Or.inr, or_imp.mpr ⟨h, id⟩⟩⟩
  · simp [hfull]

theorem covers_ofDeclared_eq_forall :
    (∀ name, (ofDeclared inputType names).covers name =
        ((ofDeclared inputType names).fieldFor? name).isSome) ↔
      ∀ name ∈ names, isFulltextName name = false := by
  simp only [covers_ofDeclared_eq_iff]
  constructor
  · intro h name hname
    by_contra hfull
    obtain ⟨longest, hlongest, hlast⟩ :=
      exists_fulltextName_not_mem ⟨name, hname, Bool.not_eq_false _ ▸ hfull⟩
    exact h longest ⟨hlast.1, hlongest, hlast.2⟩
  · rintro h name ⟨hfull, hname, -⟩
    rw [h name hname] at hfull
    cases hfull

end DocumentType

namespace Schema

/-- **Coverage and search agree on all names but full-text names.** A type covers a name when the
name is declared and no full-text name, or when its full-text name is declared. What is covered
resolves; and what resolves is covered unless it is a declared full-text name without a declared
full-text name of its own. So the two agree on all names exactly for the types without a full-text
field. -/
theorem covers_eq_isSome_iff {inputType : Text} {fields : List Json} {t : DocumentType}
    (h : documentType inputType (.array fields) = .ok t) :
    (∀ name, t.covers name = true ↔
      Declared fields name ∧ isFulltextName name = false ∨ Declared fields (fulltextName name)) ∧
    (∀ name, t.covers name = true → (t.fieldFor? name).isSome = true) ∧
    (∀ name, t.covers name = (t.fieldFor? name).isSome ↔
      ¬ (isFulltextName name = true ∧ Declared fields name ∧
        ¬ Declared fields (fulltextName name))) ∧
    ((∀ name, t.covers name = (t.fieldFor? name).isSome) ↔
      ∀ name, Declared fields name → isFulltextName name = false) := by
  have hshaped : ∀ field ∈ fields, Shaped field := fun field hfield =>
    (exists_documentType_iff.mp ⟨t, h⟩ field hfield).toShaped
  simp only [← mem_declaredNames_iff hshaped]
  rw [documentType_eq_ok h]
  refine ⟨fun name => DocumentType.covers_ofDeclared, fun name hcovers => ?_,
    fun name => DocumentType.covers_ofDeclared_eq_iff, DocumentType.covers_ofDeclared_eq_forall⟩
  rw [DocumentType.isSome_fieldFor?_ofDeclared]
  exact (DocumentType.covers_ofDeclared.mp hcovers).imp_left And.left

def textField (name : Text) : Json :=
  .object [("name", .text name), ("type", .object [("name", .text "String")])]

theorem declaresText_textField {name : Text} (h : name ≠ []) : DeclaresText (textField name) name :=
  ⟨rfl, rfl, h⟩

def articleFields : List Json := [textField "title_fulltext", textField "category"]

theorem documentType_articleFields :
    documentType "WhereArticle" (.array articleFields) = .ok DocumentType.articles :=
  rfl

theorem covers_eq_isSome_iff_articles :
    documentType "WhereArticle" (.array articleFields) = .ok DocumentType.articles ∧
      Declared articleFields (fulltextName "title") ∧
      DocumentType.articles.covers "title" = true ∧
      DocumentType.articles.covers "category" =
        (DocumentType.articles.fieldFor? "category").isSome ∧
      ¬ ∀ name, DocumentType.articles.covers name =
        (DocumentType.articles.fieldFor? name).isSome := by
  obtain ⟨hcovers, -, hagree, hall⟩ := covers_eq_isSome_iff documentType_articleFields
  have hdeclared : Declared articleFields (fulltextName "title") :=
    ⟨_, List.mem_cons_self .., declaresText_textField (by decide)⟩
  refine ⟨documentType_articleFields, hdeclared, (hcovers _).mpr (Or.inr hdeclared),
    (hagree _).mpr fun h => absurd h.1 (by decide), fun h => ?_⟩
  exact absurd (hall.mp h _ hdeclared) (by decide)

/-- The full-text name of the title stands for itself in a search, and is not covered. -/
theorem fulltext_name_not_covered :
    let name : Text := "title_fulltext"
    DocumentType.articles.fieldFor? name = some name ∧
      DocumentType.articles.covers name = false ∧
      ¬ ∀ (inputType : Text) (fields : List Json) (t : DocumentType),
        documentType inputType (.array fields) = .ok t →
        ∀ name, t.covers name = true ↔ t.fieldFor? name ≠ none := by
  intro name
  have hfield : DocumentType.articles.fieldFor? name = some name := by decide
  have hcovers : DocumentType.articles.covers name = false := by decide
  refine ⟨hfield, hcovers, fun hall => ?_⟩
  have hresolves : DocumentType.articles.fieldFor? name ≠ none := by simp [hfield]
  rw [← hall _ _ _ documentType_articleFields name, hcovers] at hresolves
  cases hresolves

end Schema

end FieldSearch
