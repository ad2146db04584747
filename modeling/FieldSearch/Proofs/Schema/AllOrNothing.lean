import FieldSearch.Proofs.Schema.Declaration

/-!
# All types or none

Any two values may come as the answers to the introspection documents. Looking into a value fails in
three ways: a key is missing, the value is of a type that cannot be looked into, or it lacks a
member. Each place that reads an answer meets two of these ways only, and takes both for an
unavailable schema. So the types of all listed filter types are made, or the schema is unavailable.
-/

namespace FieldSearch

/-- The ways in which looking into a value fails. -/
inductive ShapeFault.Kind where
  | key
  | type
  | member
deriving DecidableEq

def ShapeFault.kind : ShapeFault → ShapeFault.Kind
  | missingKey _ => .key
  | noMember .. => .member
  | notIndexable _ | notIterable _ | textIndex | listIndex => .type

namespace Schema

open Json (index elements lookup)

/-! ## Reading with guards -/

/-- Takes the faults of the given kinds for an unavailable schema; any other one is a crash. -/
def guarded {α : Type} (kinds : List ShapeFault.Kind) (message : ShapeFault → Text) :
    Except ShapeFault α → Except Failure α
  | .ok a => .ok a
  | .error fault =>
    .error (if fault.kind ∈ kinds then .error (unavailable (message fault)) else .ofShape fault)

def guardedNames (schema : Json) : Except Failure (List Text) := do
  let names ← guarded [.key, .type]
    (fun fault => "Unexpected __schema response shape: " ++ fault.shown) (listedNames schema)
  return names.filterMap filterName?

def guardedType (inputs : Json) (name : Text) : Except Failure DocumentType := do
  match ← guarded [.key, .type] (fun _ => "Missing input fields for " ++ name)
      (inputFields inputs name) with
  | .array fields =>
    guarded [.member, .type]
      (fun fault => "Unexpected input field entry for " ++ name ++ ": " ++ fault.shown)
      (documentType name (.array fields))
  | _ => .error (.error (unavailable ("Unexpected inputFields shape for " ++ name)))

/-- The document types that two answers give, where each place has its own guard. -/
def guardedTypes (schema inputs : Json) : Except Failure (List DocumentType) := do
  (← guardedNames schema).mapM (guardedType inputs)

/-! ## What each place meets -/

theorem kind_of_index {key : Text} {value : Json} {fault : ShapeFault}
    (h : index key value = .error fault) : fault.kind ∈ [ShapeFault.Kind.key, .type] := by
  cases value with
  | object members =>
    rw [index] at h
    cases hget : Entries.get? key members with
    | some value => rw [hget] at h; cases h
    | none => rw [hget] at h; cases h; exact List.mem_cons_self
  | _ => cases h; simp [ShapeFault.kind]

theorem kind_of_elements {value : Json} {fault : ShapeFault} (h : elements value = .error fault) :
    fault.kind = .type := by
  cases value with
  | array _ | text _ | object _ => cases h
  | _ => cases h; rfl

theorem kind_of_lookup {key : Text} {value : Json} {fault : ShapeFault}
    (h : lookup key value = .error fault) : fault.kind = .member := by
  cases value with
  | object _ => cases h
  | _ => cases h; rfl

theorem kind_of_listedNames {schema : Json} {fault : ShapeFault}
    (h : listedNames schema = .error fault) : fault.kind ∈ [ShapeFault.Kind.key, .type] := by
  rcases bind_eq_error h with h | ⟨members, -, h⟩
  · exact kind_of_index h
  rcases bind_eq_error h with h | ⟨types, -, h⟩
  · exact kind_of_index h
  rcases bind_eq_error h with h | ⟨entries, -, h⟩
  · rw [kind_of_elements h]
    exact List.mem_cons_of_mem _ List.mem_cons_self
  · obtain ⟨entry, -, h⟩ := mapM_eq_error h
    exact kind_of_index h

theorem kind_of_inputFields {inputs : Json} {name : Text} {fault : ShapeFault}
    (h : inputFields inputs name = .error fault) : fault.kind ∈ [ShapeFault.Kind.key, .type] := by
  rcases bind_eq_error h with h | ⟨type, -, h⟩
  · exact kind_of_index h
  · exact kind_of_index h

theorem kind_of_textFieldName? {field : Json} {fault : ShapeFault}
    (h : textFieldName? field = .error fault) : fault.kind = .member := by
  rcases bind_eq_error h with h | ⟨type, -, h⟩
  · exact kind_of_lookup h
  -- a type that counts as nothing is not looked into
  simp only at h
  split at h
  all_goals
    rcases bind_eq_error h with h | ⟨typeName, -, h⟩
    · first | exact kind_of_lookup h | cases h
    · split at h
      · rcases bind_eq_error h with h | ⟨name, -, h⟩
        · exact kind_of_lookup h
        · cases h
      · cases h

theorem kind_of_fieldName {value : Json} {fault : ShapeFault} (h : fieldName value = .error fault) :
    fault.kind = .member := by
  cases value with
  | text _ => cases h
  | _ => cases h; rfl

theorem kind_of_documentType {inputType : Text} {fields : Json} {fault : ShapeFault}
    (h : documentType inputType fields = .error fault) :
    fault.kind ∈ [ShapeFault.Kind.member, .type] := by
  rcases bind_eq_error h with h | ⟨entries, -, h⟩
  · rw [kind_of_elements h]
    exact List.mem_cons_of_mem _ List.mem_cons_self
  rcases bind_eq_error h with h | ⟨declared, -, h⟩
  · obtain ⟨field, -, h⟩ := mapM_eq_error h
    rw [kind_of_textFieldName? h]
    exact List.mem_cons_self
  rcases bind_eq_error h with h | ⟨names, -, h⟩
  · obtain ⟨value, -, h⟩ := mapM_eq_error h
    rw [kind_of_fieldName h]
    exact List.mem_cons_self
  · cases h

/-! ## The guards hold -/

/-- A guard for every fault that can be met lets none through. -/
theorem guarded_eq {α : Type} {kinds : List ShapeFault.Kind} {x : Except ShapeFault α}
    (h : ∀ fault, x = .error fault → fault.kind ∈ kinds) (message : ShapeFault → Text) :
    guarded kinds message x = x.mapError fun fault => .error (unavailable (message fault)) := by
  cases x with
  | ok a => rfl
  | error fault =>
    rw [guarded, if_pos (h fault rfl)]
    rfl

theorem guardedNames_eq (schema : Json) :
    guardedNames schema = (filterTypeNames schema).mapError .error := by
  rw [guardedNames, guarded_eq fun _ => kind_of_listedNames, filterTypeNames]
  cases listedNames schema <;> rfl

theorem guardedType_eq (inputs : Json) (name : Text) :
    guardedType inputs name = (listedType inputs name).mapError .error := by
  rw [guardedType, guarded_eq fun _ => kind_of_inputFields, listedType]
  cases inputFields inputs name with
  | error fault => rfl
  | ok fields =>
    cases fields with
    | array fields =>
      show guarded _ _ (documentType name (.array fields)) = _
      rw [guarded_eq fun _ => kind_of_documentType]
      dsimp only
      cases documentType name (.array fields) <;> rfl
    | _ => rfl

theorem guardedTypes_eq (schema inputs : Json) :
    guardedTypes schema inputs =
      (filterTypeNames schema >>= documentTypes inputs).mapError .error := by
  rw [guardedTypes, guardedNames_eq]
  cases filterTypeNames schema with
  | error e => rfl
  | ok names =>
    show names.mapM (guardedType inputs) = (names.mapM (listedType inputs)).mapError .error
    rw [← mapM_mapError]
    exact congrArg (names.mapM ·) (funext (guardedType_eq inputs))

/-! ## Answers that can be read -/

/-- The listing of all types, as a schema has it. -/
def listing? (schema : Json) : Option Json :=
  (schema.member? "__schema").bind (·.member? "types")

def entriesOf (schema : Json) : List Json :=
  match listing? schema with
  | some (.array entries) => entries
  | _ => []

def text? : Json → Option Text
  | .text t => some t
  | _ => none

/-- The name of a type, if it is a text. -/
def typeName? (entry : Json) : Option Text := (entry.member? "name").bind text?

/-- The listed names of filter types, in their order. -/
def filterNames (schema : Json) : List Text :=
  ((entriesOf schema).filterMap typeName?).filter fun name => ("Where" : Text).isPrefixOf name

/-- Every listed type has a name. An empty text and an empty object also list nothing. -/
inductive IsListing : Json → Prop
  | array {entries : List Json} (named : ∀ entry ∈ entries, ∃ name, entry.member? "name" = some name) :
      IsListing (.array entries)
  | text : IsListing (.text [])
  | object : IsListing (.object [])

def IsSchema (schema : Json) : Prop := ∃ types, listing? schema = some types ∧ IsListing types

/-- The fields of a filter type are a list of entries that can be read. -/
def HasFields (inputs : Json) (name : Text) : Prop :=
  ∃ fields, (inputs.member? name).bind (·.member? "inputFields") = some (.array fields) ∧
    ∀ field ∈ fields, Readable field

theorem index_eq_ok_iff {key : Text} {value result : Json} :
    index key value = .ok result ↔ value.member? key = some result := by
  cases value with
  | object members =>
    rw [index, Json.member?]
    cases Entries.get? key members <;> simp
  | _ => exact iff_of_false nofun nofun

/-- A value of another kind lists nothing, or parts that have no name. -/
theorem isListing_iff {types : Json} :
    IsListing types ↔ ∃ entries, elements types = .ok entries ∧
      ∀ entry ∈ entries, ∃ name, entry.member? "name" = some name := by
  constructor
  · intro h
    cases h with
    | array named => exact ⟨_, rfl, named⟩
    | text => exact ⟨[], rfl, nofun⟩
    | object => exact ⟨[], rfl, nofun⟩
  · rintro ⟨entries, hentries, named⟩
    cases types with
    | array items =>
      obtain rfl : items = entries := Except.ok.inj hentries
      exact .array named
    | text t =>
      cases t with
      | nil => exact .text
      | cons c rest =>
        obtain rfl := Except.ok.inj hentries
        obtain ⟨name, hname⟩ := named (.text [c]) List.mem_cons_self
        cases hname
    | object members =>
      cases members with
      | nil => exact .object
      | cons member rest =>
        obtain rfl := Except.ok.inj hentries
        obtain ⟨name, hname⟩ := named (.text member.1) List.mem_cons_self
        cases hname
    | _ => cases hentries

theorem listedNames_eq_ok_iff {schema : Json} {names : List Json} :
    listedNames schema = .ok names ↔ ∃ types entries, listing? schema = some types ∧
      elements types = .ok entries ∧ entries.mapM (index "name") = .ok names := by
  constructor
  · intro h
    obtain ⟨members, hmembers, h⟩ := bind_eq_ok h
    obtain ⟨types, htypes, h⟩ := bind_eq_ok h
    obtain ⟨entries, hentries, h⟩ := bind_eq_ok h
    refine ⟨types, entries, ?_, hentries, h⟩
    rw [listing?, index_eq_ok_iff.mp hmembers]
    exact index_eq_ok_iff.mp htypes
  · rintro ⟨types, entries, hlisting, hentries, h⟩
    obtain ⟨members, hmembers, htypes⟩ := Option.bind_eq_some_iff.mp hlisting
    simp only [listedNames, index_eq_ok_iff.mpr hmembers, index_eq_ok_iff.mpr htypes, hentries, h,
      bind, Except.bind]

theorem filterName?_eq (name : Json) :
    filterName? name = (text? name).filter fun t => ("Where" : Text).isPrefixOf t := by
  cases name with
  | text t => rw [filterName?, text?, Option.filter_some]; rfl
  | _ => rfl

theorem filterMap_filterName? {entries names : List Json}
    (h : List.Forall₂ (fun entry name => index "name" entry = .ok name) entries names) :
    names.filterMap filterName? =
      (entries.filterMap typeName?).filter fun name => ("Where" : Text).isPrefixOf name := by
  rw [List.filter_filterMap]
  induction h with
  | nil => rfl
  | @cons entry name entries names hname _ ih =>
    have htype : typeName? entry = text? name := by
      rw [typeName?, index_eq_ok_iff.mp hname, Option.bind_some]
    rw [List.filterMap_cons, List.filterMap_cons, ih, filterName?_eq, htype]

theorem filterTypeNames_isOk {schema : Json} :
    (∃ names, filterTypeNames schema = .ok names) ↔ IsSchema schema := by
  have hread : (∃ names, filterTypeNames schema = .ok names) ↔
      ∃ names, listedNames schema = .ok names := by
    rw [filterTypeNames]
    cases listedNames schema with
    | ok names => exact iff_of_true ⟨_, rfl⟩ ⟨_, rfl⟩
    | error fault => exact iff_of_false nofun nofun
  simp only [hread, listedNames_eq_ok_iff, IsSchema, isListing_iff, ← index_eq_ok_iff,
    ← exists_mapM_eq_ok_iff]
  exact ⟨fun ⟨names, types, entries, h, he, hn⟩ => ⟨types, h, entries, he, names, hn⟩,
    fun ⟨types, h, entries, he, names, hn⟩ => ⟨names, types, entries, h, he, hn⟩⟩

theorem filterTypeNames_eq_ok {schema : Json} {names : List Text}
    (h : filterTypeNames schema = .ok names) : names = filterNames schema := by
  unfold filterTypeNames at h
  split at h
  · rename_i listed hlisted
    obtain ⟨types, entries, hlisting, hentries, hnames⟩ := listedNames_eq_ok_iff.mp hlisted
    have hall := mapM_eq_ok hnames
    have hlists : IsListing types := isListing_iff.mpr ⟨entries, hentries, fun entry hentry => by
      obtain ⟨name, -, hname⟩ := (mem_of_mapM_eq_ok hnames).1 entry hentry
      exact ⟨name, index_eq_ok_iff.mp hname⟩⟩
    cases h
    rw [filterMap_filterName? hall, filterNames, entriesOf, hlisting]
    cases hlists with
    | array named => cases hentries; rfl
    | text => cases hentries; rfl
    | object => cases hentries; rfl
  · cases h

theorem inputFields_eq_ok_iff {inputs fields : Json} {name : Text} :
    inputFields inputs name = .ok fields ↔
      (inputs.member? name).bind (·.member? "inputFields") = some fields := by
  rw [Option.bind_eq_some_iff]
  constructor
  · intro h
    obtain ⟨type, htype, hfields⟩ := bind_eq_ok h
    exact ⟨type, index_eq_ok_iff.mp htype, index_eq_ok_iff.mp hfields⟩
  · rintro ⟨type, htype, hfields⟩
    simp only [inputFields, index_eq_ok_iff.mpr htype, index_eq_ok_iff.mpr hfields, bind,
      Except.bind]

theorem listedType_isOk {inputs : Json} {name : Text} :
    (∃ t, listedType inputs name = .ok t) ↔ HasFields inputs name := by
  simp only [HasFields, ← inputFields_eq_ok_iff]
  rw [listedType]
  cases inputFields inputs name with
  | error fault => exact iff_of_false nofun nofun
  | ok fields =>
    cases fields with
    | array fields =>
      have hentries : (∃ t, documentType name (.array fields) = .ok t) ↔
          ∀ field ∈ fields, Readable field := exists_documentType_iff
      dsimp only
      cases hread : documentType name (.array fields) with
      | ok t => exact iff_of_true ⟨t, rfl⟩ ⟨fields, rfl, hentries.mp ⟨t, hread⟩⟩
      | error fault =>
        refine iff_of_false nofun ?_
        rintro ⟨_, hfields, hreadable⟩
        cases hfields
        obtain ⟨t, ht⟩ := hentries.mpr hreadable
        cases hread.symm.trans ht
    | _ => exact iff_of_false nofun nofun

/-! ## All types -/

theorem types_isOk {schema inputs : Json} :
    (∃ types, (filterTypeNames schema >>= documentTypes inputs) = .ok types) ↔
      IsSchema schema ∧ ∀ name ∈ filterNames schema, HasFields inputs name := by
  rw [← filterTypeNames_isOk]
  cases hnames : filterTypeNames schema with
  | error e =>
    refine iff_of_false (fun ⟨_, h⟩ => ?_) fun ⟨⟨_, h⟩, _⟩ => ?_
    · cases h
    · cases h
  | ok names =>
    have hall : (∃ types, documentTypes inputs names = .ok types) ↔
        ∀ name ∈ names, HasFields inputs name :=
      exists_mapM_eq_ok_iff.trans (forall₂_congr fun name _ => listedType_isOk)
    rw [← filterTypeNames_eq_ok hnames, ← hall]
    exact (and_iff_right ⟨names, rfl⟩).symm

theorem types_eq_ok {schema inputs : Json} {types : List DocumentType}
    (h : (filterTypeNames schema >>= documentTypes inputs) = .ok types) :
    types = (filterNames schema).map fun name => .ofDeclared name (declaredNames inputs name) := by
  obtain ⟨names, hnames, htypes⟩ := bind_eq_ok h
  rw [← filterTypeNames_eq_ok hnames]
  exact documentTypes_eq_ok htypes

theorem types_eq_error {schema inputs : Json} {e : SearchError}
    (h : (filterTypeNames schema >>= documentTypes inputs) = .error e) :
    ∃ message, e = unavailable message := by
  rcases bind_eq_error h with h | ⟨names, -, h⟩
  · exact filterTypeNames_eq_error h
  · exact documentTypes_eq_error h

theorem listingName_of_mem_filterNames {schema : Json} {name : Text}
    (h : name ∈ filterNames schema) :
    ∃ rest : Text, name = "Where" ++ rest ∧ listingName name = "all" ++ rest ++ "s" := by
  obtain ⟨rest, rfl⟩ := List.isPrefixOf_iff_prefix.mp (List.mem_filter.mp h).2
  exact ⟨rest, rfl, listingName_append rest⟩

/-- **All or nothing.** Whatever two values answer the introspection documents, the guards let
nothing through: either there is one document type for each filter type of the schema, in the order
of the listing and named after it, or the schema is unavailable. There are types exactly if the
listing has a name for every type and the inputs have a list of readable fields for every filter
type. -/
theorem guardedTypes_all_or_nothing (schema inputs : Json) :
    guardedTypes schema inputs =
      (filterTypeNames schema >>= documentTypes inputs).mapError .error ∧
    ((∃ types, guardedTypes schema inputs = .ok types) ↔
      IsSchema schema ∧ ∀ name ∈ filterNames schema, HasFields inputs name) ∧
    match guardedTypes schema inputs with
    | .ok types =>
      types.map DocumentType.inputType = filterNames schema ∧
      ∀ t ∈ types, ∃ rest : Text, t.inputType = "Where" ++ rest ∧ t.name = "all" ++ rest ++ "s"
    | .error f => ∃ message, f = .error (unavailable message) := by
  have hguarded := guardedTypes_eq schema inputs
  refine ⟨hguarded, ?_, ?_⟩
  · simp only [hguarded, mapError_eq_ok]
    exact types_isOk
  split
  · rename_i types htypes
    rw [hguarded, mapError_eq_ok] at htypes
    rw [types_eq_ok htypes]
    refine ⟨by rw [List.map_map]; exact List.map_id _, fun t ht => ?_⟩
    obtain ⟨name, hname, rfl⟩ := List.mem_map.mp ht
    exact listingName_of_mem_filterNames hname
  · rename_i f hf
    rw [hguarded, mapError_eq_error] at hf
    obtain ⟨e, he, rfl⟩ := hf
    obtain ⟨message, rfl⟩ := types_eq_error he
    exact ⟨message, rfl⟩

end Schema

end FieldSearch
