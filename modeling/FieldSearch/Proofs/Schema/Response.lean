import FieldSearch.Proofs.Reading
import FieldSearch.Proofs.Schema.Fold
import FieldSearch.Schema.Response

/-!
# Types read from a response

A response that can be read gives one type for each name it was asked for, in their order, and each
type is made from the names of the text fields that the response lists for it.
-/

namespace FieldSearch.Schema

open Json (lookup)

def listedFields (response : Json) (inputType : Text) : List Json :=
  match inputFields response inputType with
  | .ok (.array fields) => fields
  | _ => []

def listedName? (field : Json) : Option Text :=
  match lookup "name" field with
  | .ok (.text name) => some name
  | _ => none

def declaredName? (field : Json) : Option Text :=
  match textFieldName? field with
  | .ok (some (.text name)) => some name
  | _ => none

def listedFieldNames (response : Json) (inputType : Text) : List Text :=
  (listedFields response inputType).filterMap listedName?

/-- The names of the text fields that a response lists for a filter type. -/
def declaredNames (response : Json) (inputType : Text) : List Text :=
  (listedFields response inputType).filterMap declaredName?

theorem textFieldName?_eq_some {field name : Json} (h : textFieldName? field = .ok (some name)) :
    lookup "name" field = .ok name := by
  obtain ⟨type, -, h⟩ := bind_eq_ok h
  simp only at h
  -- whether the type has a name or not, the name of the field is looked up in one way
  split at h
  all_goals
    obtain ⟨typeName, -, h⟩ := bind_eq_ok h
    split at h
    · obtain ⟨value, hvalue, h⟩ := bind_eq_ok h
      split at h
      · cases h
        exact hvalue
      · cases h
    · cases h

theorem fieldName_eq_ok {value : Json} {name : Text} (h : fieldName value = .ok name) :
    value = .text name := by
  cases value with
  | text t => cases h; rfl
  | _ => cases h

theorem names_eq {fields : List Json} {declared : List (Option Json)} {names : List Text}
    (hdeclared : List.Forall₂ (fun field name => textFieldName? field = .ok name) fields declared)
    (hnames : List.Forall₂ (fun value name => fieldName value = .ok name)
      (declared.filterMap id) names) : names = fields.filterMap declaredName? := by
  induction hdeclared generalizing names with
  | nil => cases hnames; rfl
  | @cons field name fields declared hname _ ih =>
    cases name with
    | none =>
      have hnone : declaredName? field = none := by rw [declaredName?, hname]
      rw [List.filterMap_cons_none hnone]
      exact ih hnames
    | some value =>
      cases hnames with
      | @cons _ text _ _ htext hnames =>
        have hsome : declaredName? field = some text := by
          rw [declaredName?, hname, fieldName_eq_ok htext]
        rw [List.filterMap_cons_some hsome, ih hnames]

/-- The names from which a type is made. -/
theorem documentType_eq_ok {inputType : Text} {fields : List Json} {t : DocumentType}
    (h : documentType inputType (.array fields) = .ok t) :
    t = .ofDeclared inputType (fields.filterMap declaredName?) := by
  obtain ⟨items, hitems, hrest⟩ := bind_eq_ok h
  obtain rfl : fields = items := Except.ok.inj hitems
  obtain ⟨declared, hdeclared, hrest⟩ := bind_eq_ok hrest
  obtain ⟨names, hnames, hrest⟩ := bind_eq_ok hrest
  obtain rfl : DocumentType.ofDeclared inputType names = t := Except.ok.inj hrest
  rw [names_eq (mapM_eq_ok hdeclared) (mapM_eq_ok hnames)]

theorem listedType_eq_ok {response : Json} {inputType : Text} {t : DocumentType}
    (h : listedType response inputType = .ok t) :
    t = .ofDeclared inputType (declaredNames response inputType) := by
  unfold listedType at h
  split at h
  · cases h
  · rename_i fields hfields
    split at h
    · rename_i t' htype
      cases h
      rw [documentType_eq_ok htype, declaredNames, listedFields, hfields]
    · cases h
  · cases h

theorem documentTypes_eq_ok {response : Json} {names : List Text} {types : List DocumentType}
    (h : documentTypes response names = .ok types) :
    types = names.map fun name => .ofDeclared name (declaredNames response name) := by
  have hall := mapM_eq_ok h
  clear h
  induction hall with
  | nil => rfl
  | cons ht _ ih => rw [List.map_cons, ← ih, listedType_eq_ok ht]

theorem declaredNames_subset (response : Json) (inputType : Text) :
    declaredNames response inputType ⊆ listedFieldNames response inputType := by
  intro name hname
  obtain ⟨field, hfield, hdeclared⟩ := List.mem_filterMap.mp hname
  refine List.mem_filterMap.mpr ⟨field, hfield, ?_⟩
  unfold declaredName? at hdeclared
  split at hdeclared
  · rename_i h
    rw [listedName?, textFieldName?_eq_some h, ← hdeclared]
  · cases hdeclared

/-! ## Faults -/

theorem filterTypeNames_eq_error {response : Json} {e : SearchError}
    (h : filterTypeNames response = .error e) : ∃ message, e = unavailable message := by
  unfold filterTypeNames at h
  split at h
  · cases h
  · cases h
    exact ⟨_, rfl⟩

theorem documentTypes_eq_error {response : Json} {names : List Text} {e : SearchError}
    (h : documentTypes response names = .error e) : ∃ message, e = unavailable message := by
  obtain ⟨name, -, hname⟩ := mapM_eq_error h
  unfold listedType at hname
  split at hname
  · cases hname
    exact ⟨_, rfl⟩
  · split at hname
    · cases hname
    · cases hname
      exact ⟨_, rfl⟩
  · cases hname
    exact ⟨_, rfl⟩

end FieldSearch.Schema
