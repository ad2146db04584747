import FieldSearch.Proofs.Schema.Response

/-!
# Types and what they were declared with

A list of input fields makes a document type exactly when every entry can be read. The type then
answers for a name as the set of declared text fields does, so neither the order nor the repetition
of the entries counts.
-/

namespace FieldSearch.Schema

open Json (lookup)

/-- The type of an entry; null if it has none. -/
def typeOf (field : Json) : Json := (field.member? "type").getD .null

/-- The type of the entry is named as the text type. -/
def isTextField (field : Json) : Bool :=
  match (typeOf field).member? "name" with
  | some (.text name) => name = "String"
  | _ => false

/-- The entry declares a text field of this name. -/
def DeclaresText (field : Json) (name : Text) : Prop :=
  isTextField field = true ∧ field.member? "name" = some (.text name) ∧ name ≠ []

def Declared (fields : List Json) (name : Text) : Prop := ∃ field ∈ fields, DeclaresText field name

/-- An entry is an object, and its type is an object or counts as nothing. -/
structure Shaped (field : Json) : Prop where
  object : ∃ members, field = .object members
  type : (typeOf field).isTruthy = true → ∃ members, typeOf field = .object members

/-- An entry has its shape, and the name of a text field is a text or counts as nothing. -/
structure Readable (field : Json) : Prop extends Shaped field where
  name : isTextField field = true → ∀ value, field.member? "name" = some value →
    value.isTruthy = true → ∃ name, value = .text name

/-! ## One entry -/

theorem member?_of_not_truthy {value : Json} (h : value.isTruthy = false) (key : Text) :
    value.member? key = none := by
  cases value with
  | object members =>
    cases members with
    | nil => rfl
    | cons entry rest => cases h
  | _ => rfl

theorem isTextField_of_not_truthy {field : Json} (h : (typeOf field).isTruthy = false) :
    isTextField field = false := by
  rw [isTextField, member?_of_not_truthy h]

theorem filter_isTruthy (value : Option Json) :
    (if (value.getD .null).isTruthy then some (value.getD .null) else none) =
      value.filter Json.isTruthy := by
  cases value <;> rfl

theorem textFieldName?_of_shaped {field : Json} (h : Shaped field) :
    textFieldName? field = .ok
      (if isTextField field then (field.member? "name").filter Json.isTruthy else none) := by
  obtain ⟨⟨members, rfl⟩, htype⟩ := h
  have hlookup : ∀ key members, lookup key (.object members) =
      .ok (((Json.object members).member? key).getD .null) := fun _ _ => rfl
  simp only [textFieldName?, hlookup, bind, Except.bind, pure, Except.pure, filter_isTruthy]
  have htypeOf : ((Json.object members).member? "type").getD .null = typeOf (.object members) := rfl
  rw [htypeOf]
  cases htruthy : (typeOf (.object members)).isTruthy with
  | false => simp [isTextField_of_not_truthy htruthy]
  | true =>
    obtain ⟨type, hobject⟩ := htype htruthy
    rw [hobject, hlookup, isTextField, hobject]
    cases hname : (Json.object type).member? "name" with
    | none => rfl
    | some typeName =>
      simp only [Option.getD_some, if_true]
      split
      · rfl
      · rename_i hne
        split
        · rename_i name heq
          cases heq
          have hother : ¬ name = ['S', 't', 'r', 'i', 'n', 'g'] := fun h => hne (h ▸ rfl)
          simp [hother]
        · rfl

theorem shaped_of_textFieldName? {field : Json} {name : Option Json}
    (h : textFieldName? field = .ok name) : Shaped field := by
  obtain ⟨type, htype, h⟩ := bind_eq_ok h
  cases field with
  | object members =>
    obtain rfl : typeOf (.object members) = type := Except.ok.inj htype
    refine ⟨⟨members, rfl⟩, fun htruthy => ?_⟩
    rw [if_pos htruthy] at h
    obtain ⟨typeName, hlookup, -⟩ := bind_eq_ok h
    cases htype : typeOf (.object members) with
    | object type => exact ⟨type, rfl⟩
    | _ => rw [htype] at hlookup; cases hlookup
  | _ => cases htype

theorem declaredName?_eq_some_iff {field : Json} (h : Shaped field) {name : Text} :
    declaredName? field = some name ↔ DeclaresText field name := by
  rw [declaredName?, textFieldName?_of_shaped h, DeclaresText]
  cases htext : isTextField field with
  | false => simp
  | true =>
    rw [if_pos rfl]
    constructor
    · intro hname
      split at hname
      · rename_i t hfilter
        cases hname
        obtain ⟨hmember, htruthy⟩ := Option.filter_eq_some_iff.mp (Except.ok.inj hfilter)
        exact ⟨rfl, hmember, by rintro rfl; cases htruthy⟩
      · cases hname
    · rintro ⟨-, hmember, hne⟩
      have htruthy : (Json.text name).isTruthy = true := by simpa [Json.isTruthy] using hne
      rw [hmember, Option.filter_some, htruthy]
      rfl

/-! ## All entries -/

theorem exists_documentType_iff {inputType : Text} {fields : List Json} :
    (∃ t, documentType inputType (.array fields) = .ok t) ↔ ∀ field ∈ fields, Readable field := by
  constructor
  · rintro ⟨t, ht⟩ field hfield
    obtain ⟨items, hitems, ht⟩ := bind_eq_ok ht
    obtain rfl : fields = items := Except.ok.inj hitems
    obtain ⟨declared, hdeclared, ht⟩ := bind_eq_ok ht
    obtain ⟨names, hnames, -⟩ := bind_eq_ok ht
    obtain ⟨name, hmem, hname⟩ := (mem_of_mapM_eq_ok hdeclared).1 field hfield
    have hshaped := shaped_of_textFieldName? hname
    refine ⟨hshaped, fun htext value hvalue htruthy => ?_⟩
    rw [textFieldName?_of_shaped hshaped, htext, if_pos rfl, hvalue] at hname
    obtain rfl : some value = name := by
      rw [Option.filter_some, htruthy] at hname
      exact Except.ok.inj hname
    have hmem : value ∈ declared.filterMap id := List.mem_filterMap.mpr ⟨some value, hmem, rfl⟩
    obtain ⟨name, -, hname⟩ := (mem_of_mapM_eq_ok hnames).1 value hmem
    exact ⟨name, fieldName_eq_ok hname⟩
  · intro h
    obtain ⟨declared, hdeclared⟩ := exists_mapM_eq_ok (f := textFieldName?) fun field hfield =>
      ⟨_, textFieldName?_of_shaped (h field hfield).toShaped⟩
    obtain ⟨names, hnames⟩ : ∃ names, (declared.filterMap id).mapM fieldName = .ok names := by
      refine exists_mapM_eq_ok fun value hvalue => ?_
      obtain ⟨_, hmem, rfl⟩ := List.mem_filterMap.mp hvalue
      obtain ⟨field, hfield, hname⟩ := (mem_of_mapM_eq_ok hdeclared).2 _ hmem
      have hread := h field hfield
      rw [textFieldName?_of_shaped hread.toShaped] at hname
      cases htext : isTextField field with
      | false => rw [htext] at hname; cases hname
      | true =>
        rw [htext, if_pos rfl] at hname
        obtain ⟨hmember, htruthy⟩ := Option.filter_eq_some_iff.mp (Except.ok.inj hname)
        obtain ⟨name, rfl⟩ := hread.name htext _ hmember htruthy
        exact ⟨name, rfl⟩
    refine ⟨.ofDeclared inputType names, ?_⟩
    simp only [documentType, Json.elements, hdeclared, hnames, bind, Except.bind, pure, Except.pure]

/-- The names that count are those of the declared text fields. -/
theorem mem_declaredNames_iff {fields : List Json} (h : ∀ field ∈ fields, Shaped field)
    {name : Text} : name ∈ fields.filterMap declaredName? ↔ Declared fields name := by
  rw [List.mem_filterMap]
  exact exists_congr fun field =>
    and_congr_right fun hfield => declaredName?_eq_some_iff (h field hfield)

/-- **A type resolves a name as its declarations do.** A list of entries makes a type exactly when
each of them can be read. A name then stands for itself if it is declared, else for its full-text
name if that is declared, and for nothing else; the same entries in another order, or some of them
again, give the same answers. -/
theorem fieldFor?_documentType (inputType : Text) (fields : List Json) :
    ((∃ t, documentType inputType (.array fields) = .ok t) ↔ ∀ field ∈ fields, Readable field) ∧
    ∀ t, documentType inputType (.array fields) = .ok t →
      (∀ name : Text,
        (Declared fields name → t.fieldFor? name = some name) ∧
        (¬ Declared fields name → Declared fields (name ++ "_fulltext") →
          t.fieldFor? name = some (name ++ "_fulltext")) ∧
        (¬ Declared fields name → ¬ Declared fields (name ++ "_fulltext") →
          t.fieldFor? name = none)) ∧
      ∀ fields', (∀ field, field ∈ fields' ↔ field ∈ fields) →
        ∃ t', documentType inputType (.array fields') = .ok t' ∧ t'.fieldFor? = t.fieldFor? := by
  have hresolve : ∀ fields t, documentType inputType (.array fields) = .ok t → ∀ name,
      (Declared fields name → t.fieldFor? name = some name) ∧
      (¬ Declared fields name → Declared fields (fulltextName name) →
        t.fieldFor? name = some (fulltextName name)) ∧
      (¬ Declared fields name → ¬ Declared fields (fulltextName name) →
        t.fieldFor? name = none) := by
    intro fields t ht name
    have hshaped : ∀ field ∈ fields, Shaped field := fun field hfield =>
      (exists_documentType_iff.mp ⟨t, ht⟩ field hfield).toShaped
    have hmem : ∀ name, name ∈ fields.filterMap declaredName? ↔ Declared fields name :=
      fun _ => mem_declaredNames_iff hshaped
    rw [documentType_eq_ok ht, DocumentType.fieldFor?_ofDeclared, ← hmem, ← hmem]
    refine ⟨fun h => if_pos h, fun h hfull => ?_, fun h hfull => ?_⟩
    · rw [if_neg h, if_pos hfull]
    · rw [if_neg h, if_neg hfull]
  refine ⟨exists_documentType_iff, fun t ht => ⟨hresolve fields t ht, fun fields' hsame => ?_⟩⟩
  obtain ⟨t', ht'⟩ : ∃ t', documentType inputType (.array fields') = .ok t' :=
    exists_documentType_iff.mpr fun field hfield =>
      exists_documentType_iff.mp ⟨t, ht⟩ field ((hsame field).mp hfield)
  refine ⟨t', ht', ?_⟩
  rw [documentType_eq_ok ht, documentType_eq_ok ht']
  refine DocumentType.fieldFor?_ofDeclared_congr fun name => ?_
  simp only [List.mem_filterMap, hsame]

end FieldSearch.Schema
