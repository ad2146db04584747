import FieldSearch.Proofs.Query.Compilation
import FieldSearch.Proofs.Query.Eligibility
import FieldSearch.Query.Suggestion

/-!
# Suggested names

An entry is kept under the base name of a declared field, and what is suggested is the base name of
that. So a suggested name was declared, or it has lost one full-text ending, or two. A search knows
the name in the first two cases. In the last one it does not know it, unless the name is declared in
some other way.
-/

namespace FieldSearch

/-! ## Texts in a text -/

theorem Text.contains_iff {part text : Text} : Text.contains part text = true ↔ part <:+: text := by
  induction text with
  | nil => simp [Text.contains]
  | cons c rest ih =>
    rw [Text.contains, Bool.or_eq_true, List.isPrefixOf_iff_prefix, ih, List.infix_cons_iff]

/-! ## Suggested names -/

theorem mem_foldl_fresh (names seen : List Text) (name : Text) :
    name ∈ names.foldl (fun seen name => if name ∈ seen then seen else seen ++ [name]) seen ↔
      name ∈ seen ∨ name ∈ names := by
  induction names generalizing seen with
  | nil => simp
  | cons first names ih =>
    rw [List.foldl_cons, ih, List.mem_cons]
    by_cases hfirst : first ∈ seen
    · rw [if_pos hfirst]
      constructor
      · exact Or.imp_right Or.inr
      · rintro (h | rfl | h)
        · exact Or.inl h
        · exact Or.inl hfirst
        · exact Or.inr h
    · rw [if_neg hfirst, List.mem_append, List.mem_singleton, or_assoc]

theorem mem_fieldNames {types : List DocumentType} {name : Text} :
    name ∈ fieldNames types ↔ ∃ t ∈ types, ∃ base ∈ t.fields.keys, baseName base = name := by
  rw [fieldNames, mem_foldl_fresh, or_iff_right List.not_mem_nil]
  simp only [List.mem_flatMap, List.mem_map]

theorem mem_suggestFields {types : List DocumentType} {raw name : Text} :
    name ∈ suggestFields types raw ↔
      lastSegment raw ≠ [] ∧ lastSegment raw <:+: name ∧ name ∈ fieldNames types := by
  unfold suggestFields
  by_cases htyped : lastSegment raw = []
  · simp [htyped]
  · simp only [List.isEmpty_iff, htyped, if_false, List.mem_filter, Text.contains_iff, ne_eq,
      not_false_eq_true, true_and]
    exact and_comm

theorem ne_nil_of_mem_suggestFields {types : List DocumentType} {raw name : Text}
    (h : name ∈ suggestFields types raw) : name ≠ [] := by
  obtain ⟨hne, hinfix, -⟩ := mem_suggestFields.mp h
  rintro rfl
  exact hne (List.infix_nil.mp hinfix)

/-! ## Names that can be typed -/

theorem Constraints.isName_of_graphQL {name : Text} (h : GraphQL.isName name = true) :
    IsName name := by
  have hchars := isNameChar_of_mem h
  refine ⟨(by rintro rfl; cases h), ⟨fun c hc => ?_, fun c hc => ?_⟩, fun hc => ?_, fun hc => ?_⟩
  · exact GraphQL.isBlank_of_isNameChar (hchars c (List.mem_of_mem_head? hc))
  · exact GraphQL.isBlank_of_isNameChar (hchars c (List.mem_of_getLast? hc))
  · exact absurd (hchars _ hc) (by decide)
  · exact absurd (hchars _ hc) (by decide)

theorem lastSegment_of_isName {name : Text} (h : Constraints.IsName name) :
    lastSegment name = name := by
  rw [lastSegment, List.splitOn_eq_singleton h.comma]
  exact h.trimmed.trim_eq

/-! ## Names of a schema -/

namespace Schema

/-- One of the filter types declares a text field of this name. -/
def DeclaredAnywhere (response : Json) (inputTypes : List Text) (field : Text) : Prop :=
  ∃ inputType ∈ inputTypes, field ∈ declaredNames response inputType

variable {response : Json} {inputTypes : List Text} {types : List DocumentType}

theorem exists_fieldFor?_iff (h : documentTypes response inputTypes = .ok types) {field : Text} :
    (∃ t ∈ types, (t.fieldFor? field).isSome = true) ↔
      DeclaredAnywhere response inputTypes field ∨
        DeclaredAnywhere response inputTypes (fulltextName field) := by
  rw [documentTypes_eq_ok h]
  simp only [List.mem_map, exists_exists_and_eq_and, DocumentType.isSome_fieldFor?_ofDeclared,
    DeclaredAnywhere, and_or_left, exists_or]

theorem mem_fieldNames_iff (h : documentTypes response inputTypes = .ok types) {field : Text} :
    field ∈ fieldNames types ↔
      ∃ name, DeclaredAnywhere response inputTypes name ∧ baseName (baseName name) = field := by
  rw [mem_fieldNames, documentTypes_eq_ok h]
  simp only [List.mem_map, exists_exists_and_eq_and, DocumentType.mem_keys_ofDeclared,
    DeclaredAnywhere]
  constructor
  · rintro ⟨inputType, hinput, name, hname, rfl⟩
    exact ⟨name, ⟨inputType, hinput, hname⟩, rfl⟩
  · rintro ⟨name, ⟨inputType, hinput, hname⟩, rfl⟩
    exact ⟨inputType, hinput, name, hname, rfl⟩

/-- A suggested name has lost no full-text ending, one, or two. -/
theorem declared_of_mem_fieldNames (h : documentTypes response inputTypes = .ok types)
    {field : Text} (hfield : field ∈ fieldNames types) :
    DeclaredAnywhere response inputTypes field ∨
      DeclaredAnywhere response inputTypes (fulltextName field) ∨
      DeclaredAnywhere response inputTypes (fulltextName (fulltextName field)) := by
  obtain ⟨name, hname, rfl⟩ := (mem_fieldNames_iff h).mp hfield
  -- the entry has taken an ending off or not, and so has the suggestion
  rcases eq_baseName_or_fulltextName name with hone | hone <;>
    rcases eq_baseName_or_fulltextName (baseName name) with htwo | htwo
  · exact Or.inl (by rwa [← htwo, ← hone])
  · exact Or.inr (Or.inl (by rwa [← htwo, ← hone]))
  · exact Or.inr (Or.inl (by rwa [← htwo, ← hone]))
  · exact Or.inr (Or.inr (by rwa [← htwo, ← hone]))

section
variable (h : documentTypes response inputTypes = .ok types)
  (hnames : ∀ inputType ∈ inputTypes, ∀ field ∈ declaredNames response inputType,
    GraphQL.isName field = true)

include hnames in
theorem isName_of_declaredAnywhere {field name : Text} (hne : field ≠ []) (hbegins : field <+: name)
    (hname : DeclaredAnywhere response inputTypes name) : Constraints.IsName field := by
  obtain ⟨inputType, hinput, hmem⟩ := hname
  obtain ⟨rest, rfl⟩ := hbegins
  exact Constraints.isName_of_graphQL (isName_of_append (hnames inputType hinput _ hmem) hne)

include h hnames

theorem isName_of_mem_suggestFields {raw field : Text} (hfield : field ∈ suggestFields types raw) :
    Constraints.IsName field := by
  have hne := ne_nil_of_mem_suggestFields hfield
  rcases declared_of_mem_fieldNames h (mem_suggestFields.mp hfield).2.2 with hone | htwo | hthree
  · exact isName_of_declaredAnywhere hnames hne List.prefix_rfl hone
  · exact isName_of_declaredAnywhere hnames hne (prefix_fulltextName _) htwo
  · exact isName_of_declaredAnywhere hnames hne
      ((prefix_fulltextName _).trans (prefix_fulltextName _)) hthree

/-- A name that has lost two endings is suggested to one who types it. -/
theorem mem_suggestFields_self {field : Text} (hne : field ≠ [])
    (hfield : DeclaredAnywhere response inputTypes (fulltextName (fulltextName field))) :
    field ∈ suggestFields types field := by
  have hname : Constraints.IsName field := isName_of_declaredAnywhere hnames hne
    ((prefix_fulltextName _).trans (prefix_fulltextName _)) hfield
  rw [mem_suggestFields, lastSegment_of_isName hname]
  refine ⟨hne, List.infix_rfl, (mem_fieldNames_iff h).mpr ⟨_, hfield, ?_⟩⟩
  rw [baseName_fulltextName, baseName_fulltextName]

theorem suggestions_resolve_iff :
    (∀ raw, ∀ field ∈ suggestFields types raw, ∃ t ∈ types, (t.fieldFor? field).isSome = true) ↔
      ∀ field, field ≠ [] →
        DeclaredAnywhere response inputTypes (fulltextName (fulltextName field)) →
        DeclaredAnywhere response inputTypes field ∨
          DeclaredAnywhere response inputTypes (fulltextName field) := by
  simp only [exists_fieldFor?_iff h]
  constructor
  · intro hall field hne hfield
    exact hall field field (mem_suggestFields_self h hnames hne hfield)
  · intro hall raw field hfield
    rcases declared_of_mem_fieldNames h (mem_suggestFields.mp hfield).2.2 with hone | htwo | hthree
    · exact Or.inl hone
    · exact Or.inr htwo
    · exact hall field (ne_nil_of_mem_suggestFields hfield) hthree

end

end Schema

end FieldSearch
