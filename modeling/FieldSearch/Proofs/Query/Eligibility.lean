import FieldSearch.Proofs.Query.Binding
import FieldSearch.Proofs.Query.Grammar

/-!
# Eligible types

A type is eligible for a search when every field that the text names is available on it. The values
do not count for this, nor does the order or the repetition of the segments. So a text that goes on
names more fields, and leaves a part of the types that were eligible before, in their order.
-/

namespace FieldSearch

/-! ## Texts that name a field -/

namespace Constraints

/-- A segment of the text has this name in front of its first colon. -/
def Names (raw name : Text) : Prop :=
  name ≠ [] ∧ ∃ segment before value : Text, segment ∈ raw.splitOn ',' ∧
    segment.cut ':' = some (before, value) ∧ before.trim = name

theorem mem_keys_ofText {raw name : Text} : name ∈ (ofText raw).keys ↔ Names raw name := by
  rw [ofText, Entries.mem_keys_ofList]
  constructor
  · intro h
    obtain ⟨⟨name, value⟩, hentry, rfl⟩ := List.mem_map.mp h
    obtain ⟨segment, hsegment, hof⟩ := List.mem_filterMap.mp hentry
    obtain ⟨hne, before, after, hcut, hbefore, -⟩ := ofSegment?_eq_some_iff.mp hof
    exact ⟨hne, segment, before, after, hsegment, hcut, hbefore⟩
  · rintro ⟨hne, segment, before, after, hsegment, hcut, hbefore⟩
    have hof : ofSegment? segment = some (name, after.trim) :=
      ofSegment?_eq_some_iff.mpr ⟨hne, before, after, hcut, hbefore, rfl⟩
    exact List.mem_map.mpr ⟨_, List.mem_filterMap.mpr ⟨segment, hsegment, hof⟩, rfl⟩

theorem ofText_eq_nil_iff {raw : Text} : ofText raw = [] ↔ ¬ ∃ name, Names raw name := by
  have hkeys : ofText raw = [] ↔ (ofText raw).keys = [] := List.map_eq_nil_iff.symm
  rw [hkeys, List.eq_nil_iff_forall_not_mem, not_exists]
  exact forall_congr' fun name => not_congr mem_keys_ofText

theorem names_congr {raw raw' : Text}
    (h : ∀ segment, segment ∈ raw.splitOn ',' ↔ segment ∈ raw'.splitOn ',') (name : Text) :
    Names raw name ↔ Names raw' name := by
  simp only [Names, h]

end Constraints

/-! ## Types that resolve -/

theorem DocumentType.isSome_bind? (t : DocumentType) (constraints : Constraints)
    (bound : Entries Text) : (t.bind? constraints bound).isSome =
      constraints.keys.all fun name => (t.fieldFor? name).isSome := by
  induction constraints generalizing bound with
  | nil => rfl
  | cons constraint rest ih =>
    obtain ⟨name, value⟩ := constraint
    have hkeys : Entries.keys ((name, value) :: rest) = name :: Entries.keys rest := rfl
    rw [hkeys, List.all_cons, bind?]
    cases t.fieldFor? name with
    | none => rfl
    | some field => exact ih (bound.put field value)

theorem DocumentType.isSome_resolve? (t : DocumentType) (constraints : Constraints) :
    (t.resolve? constraints).isSome =
      constraints.keys.all fun name => (t.fieldFor? name).isSome := by
  rw [resolve?, Option.isSome_map, isSome_bind?]

theorem resolveTypes_nil (types : List DocumentType) :
    resolveTypes types [] = types.map fun t => ⟨t, []⟩ := by
  have hresolve : ∀ t : DocumentType, t.resolve? [] = some ⟨t, []⟩ := fun _ => rfl
  simp only [resolveTypes, hresolve, List.filterMap_eq_map']

/-- The types that can answer a search, in schema order. -/
def eligibleTypes (types : List DocumentType) (constraints : Constraints) : List DocumentType :=
  (resolveTypes types constraints).map Resolution.type

theorem eligibleTypes_eq_filter (types : List DocumentType) (constraints : Constraints) :
    eligibleTypes types constraints =
      types.filter fun t => constraints.keys.all fun name => (t.fieldFor? name).isSome := by
  simp only [← DocumentType.isSome_resolve?]
  induction types with
  | nil => rfl
  | cons t types ih =>
    simp only [eligibleTypes, resolveTypes] at ih ⊢
    rw [List.filterMap_cons, List.filter_cons]
    cases hresolve : t.resolve? constraints with
    | none => simpa using ih
    | some r =>
      obtain ⟨htype, -⟩ := DocumentType.resolve?_eq_some hresolve
      simpa [htype] using ih

theorem mem_eligibleTypes_ofText {types : List DocumentType} {raw : Text} {t : DocumentType} :
    t ∈ eligibleTypes types (.ofText raw) ↔
      t ∈ types ∧ ∀ name, Constraints.Names raw name → (t.fieldFor? name).isSome = true := by
  simp only [eligibleTypes_eq_filter, List.mem_filter, List.all_eq_true,
    Constraints.mem_keys_ofText]

theorem resolveTypes_eq_nil_iff {types : List DocumentType} {constraints : Constraints} :
    resolveTypes types constraints = [] ↔ eligibleTypes types constraints = [] :=
  List.map_eq_nil_iff.symm

/-- A text that names one field leaves no type exactly when no type has the field. -/
theorem resolveTypes_of_isName {types : List DocumentType} {name value : Text}
    (h : Constraints.IsName name) (hvalue : ',' ∉ value) :
    resolveTypes types (.ofText (name ++ ':' :: value)) = [] ↔
      ¬ ∃ t ∈ types, (t.fieldFor? name).isSome = true := by
  rw [resolveTypes_eq_nil_iff, eligibleTypes_eq_filter, Constraints.ofText_of_isName h hvalue,
    List.filter_eq_nil_iff]
  simp [Entries.keys]

theorem eligibleTypes_congr {constraints others : Constraints} (types : List DocumentType)
    (h : ∀ name, name ∈ constraints.keys ↔ name ∈ others.keys) :
    eligibleTypes types constraints = eligibleTypes types others := by
  rw [eligibleTypes_eq_filter, eligibleTypes_eq_filter]
  refine List.filter_congr fun t _ => ?_
  rw [Bool.eq_iff_iff]
  simp only [List.all_eq_true, h]

theorem eligibleTypes_update (types : List DocumentType) (constraints more : Constraints) :
    eligibleTypes types (constraints.update more) =
      eligibleTypes (eligibleTypes types constraints) more := by
  simp only [eligibleTypes_eq_filter, List.filter_filter]
  refine List.filter_congr fun t _ => ?_
  rw [Bool.eq_iff_iff]
  simp only [Bool.and_eq_true, List.all_eq_true, Entries.mem_keys_update, or_imp, forall_and]
  exact and_comm

/-- **Another constraint only narrows.** A type is eligible exactly when it has a field for every
constrained name, so texts that name the same fields leave the same types, whatever the values, the
order and the number of their segments. What follows a comma leaves, of the types that were eligible
before it, those that are eligible for it alone, in the same order. -/
theorem eligibility_narrows (types : List DocumentType) :
    (∀ constraints : Constraints, eligibleTypes types constraints =
      types.filter fun t => constraints.keys.all fun name => (t.fieldFor? name).isSome) ∧
    (∀ raw t, t ∈ eligibleTypes types (.ofText raw) ↔
      t ∈ types ∧ ∀ name, Constraints.Names raw name → (t.fieldFor? name).isSome = true) ∧
    (∀ raw raw' : Text, (∀ name, Constraints.Names raw name ↔ Constraints.Names raw' name) →
      eligibleTypes types (.ofText raw) = eligibleTypes types (.ofText raw')) ∧
    (∀ raw raw' : Text, (∀ segment, segment ∈ raw.splitOn ',' ↔ segment ∈ raw'.splitOn ',') →
      eligibleTypes types (.ofText raw) = eligibleTypes types (.ofText raw')) ∧
    ∀ raw more : Text,
      let narrowed := eligibleTypes types (.ofText (raw ++ ',' :: more))
      narrowed = eligibleTypes (eligibleTypes types (.ofText raw)) (.ofText more) ∧
      narrowed.Sublist (eligibleTypes types (.ofText raw)) := by
  have hnames : ∀ raw raw' : Text,
      (∀ name, Constraints.Names raw name ↔ Constraints.Names raw' name) →
      eligibleTypes types (.ofText raw) = eligibleTypes types (.ofText raw') := by
    intro raw raw' h
    refine eligibleTypes_congr types fun name => ?_
    rw [Constraints.mem_keys_ofText, Constraints.mem_keys_ofText]
    exact h name
  refine ⟨eligibleTypes_eq_filter types, fun raw t => mem_eligibleTypes_ofText, hnames,
    fun raw raw' h => hnames raw raw' (Constraints.names_congr h), fun raw more => ?_⟩
  intro narrowed
  have hnarrowed : narrowed = eligibleTypes (eligibleTypes types (.ofText raw)) (.ofText more) := by
    rw [← eligibleTypes_update, ← Constraints.ofText_append]
  refine ⟨hnarrowed, ?_⟩
  rw [hnarrowed, eligibleTypes_eq_filter (eligibleTypes types (.ofText raw))]
  exact List.filter_sublist

def pages : DocumentType := .ofDeclared "WherePage" ["category"]

theorem eligibility_narrows_articles :
    let types := [DocumentType.articles, pages]
    let raw : Text := "category: pets"
    let again : Text := "category: pets,category: pets"
    (∀ segment, segment ∈ raw.splitOn ',' ↔ segment ∈ again.splitOn ',') ∧
      (∀ name, Constraints.Names raw name ↔ Constraints.Names again name) ∧
      eligibleTypes types (.ofText again) = types ∧
      eligibleTypes types (.ofText (raw ++ ',' :: "title: cats")) = [DocumentType.articles] ∧
      [DocumentType.articles].Sublist types := by
  intro types raw again
  obtain ⟨-, -, -, hsegments, hnarrows⟩ := eligibility_narrows types
  have hraw : raw.splitOn ',' = [raw] := by decide
  have hagain : again.splitOn ',' = [raw, raw] := by decide
  have hsame : ∀ segment, segment ∈ raw.splitOn ',' ↔ segment ∈ again.splitOn ',' := by
    simp [hraw, hagain]
  have htypes : eligibleTypes types (.ofText raw) = types := by decide
  have hmore : eligibleTypes types (.ofText (raw ++ ',' :: "title: cats")) =
      [DocumentType.articles] := by decide
  have hsublist := (hnarrows raw "title: cats").2
  simp only [htypes, hmore] at hsublist
  exact ⟨hsame, Constraints.names_congr hsame, (hsegments raw again hsame).symm.trans htypes, hmore,
    hsublist⟩

end FieldSearch
