import FieldSearch.Proofs.Query.Suggestion
import FieldSearch.Proofs.Session.Constrained

/-!
# Searches for a suggested name

A search for a name that some type knows is never answered with no eligible type, whenever it is
started and whatever else goes on. So it depends on the declared names alone whether the names that
a session suggests can be searched for.
-/

namespace FieldSearch

namespace Session

variable {types : List DocumentType} {raw : Text}

/-- No search for the text is answered with no eligible type, in any run that finds these types. -/
def AlwaysEligible (types : List DocumentType) (raw : Text) : Prop :=
  ∀ (pageSize : Int) (events : List Event) (id : Nat) (call : Call) (o : Outcome),
    let s := run { pageSize := .int pageSize } events
    s.discovery.types = some types → s.calls[id]? = some call → call.request = .trigger raw →
      call.stage = .finished (.ok (.outcome o)) → o.status ≠ .noEligibleType

theorem searchFor_eq_none {s : Session} (h : s.searchFor types raw = .ok none) :
    resolveTypes types (.ofText raw) = [] := by
  unfold searchFor at h
  split at h
  · assumption
  · rw [GraphQL.SearchDocument.ofResolutions_eq] at h
    cases hpage : GraphQL.SearchDocument.checkPageSize s.pageSize <;> rw [hpage] at h <;> cases h

theorem alwaysEligible_of_resolves (h : resolveTypes types (.ofText raw) ≠ []) :
    AlwaysEligible types raw := by
  intro pageSize events id call o s htypes hcall hrequest hstage hstatus
  obtain ⟨documents, hfares⟩ := (backed (.int pageSize) events).fares id call hcall
  rw [hrequest, hstage] at hfares
  cases hfares with
  | unaided _ hanswer =>
    -- an answer without types has a status of its own
    cases hanswer <;> simp_all
  | answered known _ hknown hanswer =>
    obtain rfl : types = known := Option.some.inj (htypes.symm.trans hknown)
    cases hanswer with
    | noEligibleType _ _ hsearch => exact h (searchFor_eq_none hsearch)
    | results | stale => simp_all

end Session

open Schema (DeclaredAnywhere)

/-- **A suggested name can be searched for** exactly when some type declares it or its full-text
name. A search for it alone then always finds an eligible type, and else it finds none; in the
latter case some type declares the name with the full-text ending twice. So all suggestions can be
searched for, whatever is typed, exactly when each name that is declared with the ending twice is
declared without it or with it once, too. -/
theorem suggestion_searchable_iff {response : Json} {inputTypes : List Text}
    {types : List DocumentType} (h : Schema.documentTypes response inputTypes = .ok types)
    (hnames : ∀ inputType ∈ inputTypes, ∀ field ∈ Schema.declaredNames response inputType,
      GraphQL.isName field = true) :
    let Known := DeclaredAnywhere response inputTypes
    (∀ raw, ∀ field ∈ suggestFields types raw,
      ((∃ t ∈ types, (t.fieldFor? field).isSome = true) ↔
        Known field ∨ Known (fulltextName field)) ∧
      (Known field ∨ Known (fulltextName field) → ∀ value, ',' ∉ value →
        resolveTypes types (.ofText (field ++ ':' :: value)) ≠ [] ∧
        Session.AlwaysEligible types (field ++ ':' :: value)) ∧
      (¬ (Known field ∨ Known (fulltextName field)) →
        Known (fulltextName (fulltextName field)) ∧ ∀ value, ',' ∉ value →
          resolveTypes types (.ofText (field ++ ':' :: value)) = [])) ∧
    ((∀ raw, ∀ field ∈ suggestFields types raw, ∃ t ∈ types, (t.fieldFor? field).isSome = true) ↔
      ∀ field, field ≠ [] → Known (fulltextName (fulltextName field)) →
        Known field ∨ Known (fulltextName field)) := by
  intro Known
  refine ⟨fun raw field hfield => ?_, Schema.suggestions_resolve_iff h hnames⟩
  have hname := Schema.isName_of_mem_suggestFields h hnames hfield
  have hknown : (∃ t ∈ types, (t.fieldFor? field).isSome = true) ↔
      Known field ∨ Known (fulltextName field) := Schema.exists_fieldFor?_iff h
  refine ⟨hknown, fun hsome value hvalue => ?_, fun hnone => ⟨?_, fun value hvalue => ?_⟩⟩
  · have hne : resolveTypes types (.ofText (field ++ ':' :: value)) ≠ [] := fun hnil =>
      (resolveTypes_of_isName hname hvalue).mp hnil (hknown.mpr hsome)
    exact ⟨hne, Session.alwaysEligible_of_resolves hne⟩
  · have hcases := Schema.declared_of_mem_fieldNames h (mem_suggestFields.mp hfield).2.2
    exact (hcases.resolve_left fun hone => hnone (Or.inl hone)).resolve_left
      fun htwo => hnone (Or.inr htwo)
  · exact (resolveTypes_of_isName hname hvalue).mpr fun hsome => hnone (hknown.mp hsome)

theorem suggestion_searchable_iff_articles :
    Schema.documentTypes articleInputs ["WhereArticle"] = .ok [DocumentType.articles] ∧
      (∀ inputType ∈ (["WhereArticle"] : List Text),
        ∀ field ∈ Schema.declaredNames articleInputs inputType, GraphQL.isName field = true) ∧
      ("title" : Text) ∈ suggestFields [DocumentType.articles] "category: pets, ti" ∧
      resolveTypes [DocumentType.articles] (.ofText ("title" ++ ':' :: " cats")) ≠ [] ∧
      Session.AlwaysEligible [DocumentType.articles] ("title" ++ ':' :: " cats") := by
  have h : Schema.documentTypes articleInputs ["WhereArticle"] = .ok [DocumentType.articles] := rfl
  have hnames : ∀ inputType ∈ (["WhereArticle"] : List Text),
      ∀ field ∈ Schema.declaredNames articleInputs inputType, GraphQL.isName field = true := by
    decide
  have hsuggested : ("title" : Text) ∈ suggestFields [DocumentType.articles]
      "category: pets, ti" := by decide
  have hknown : DeclaredAnywhere articleInputs ["WhereArticle"] (fulltextName "title") :=
    ⟨_, List.mem_singleton_self _, by decide⟩
  obtain ⟨-, hsearch, -⟩ := (suggestion_searchable_iff h hnames).1 _ _ hsuggested
  exact ⟨h, hnames, hsuggested, hsearch (Or.inr hknown) " cats" (by decide)⟩

def doubledInputs : Json :=
  .object [("WhereArticle", .object [("inputFields", .array [.object
    [("name", .text "title_fulltext_fulltext"), ("type", .object [("name", .text "String")])]])])]

def doubled : DocumentType := .ofDeclared "WhereArticle" ["title_fulltext_fulltext"]

/-- A search for a suggested name is answered with no eligible type: the only field has the
full-text ending twice, and the suggestion has lost both. -/
theorem suggestion_without_type :
    Schema.documentTypes doubledInputs ["WhereArticle"] = .ok [doubled] ∧
      ("title" : Text) ∈ suggestFields [doubled] "ti" ∧
      (¬ Session.AlwaysEligible [doubled] "title: cats") ∧
      ¬ ∀ (response : Json) (inputTypes : List Text) (types : List DocumentType),
        Schema.documentTypes response inputTypes = .ok types →
        (∀ inputType ∈ inputTypes, ∀ field ∈ Schema.listedFieldNames response inputType,
          GraphQL.isName field = true) →
        ∀ raw, ∀ field ∈ suggestFields types raw, ∃ t ∈ types, t.fieldFor? field ≠ none := by
  have h : Schema.documentTypes doubledInputs ["WhereArticle"] = .ok [doubled] := rfl
  have hsuggested : ("title" : Text) ∈ suggestFields [doubled] "ti" := by decide
  refine ⟨h, hsuggested, fun halways => ?_, fun hall => ?_⟩
  · let events : List Event :=
      [.start .documentTypes,
       .answer (.flight 0) (.ok (.object [("__schema",
         .object [("types", .array [.object [("name", .text "WhereArticle")]])])])),
       .answer (.flight 0) (.ok doubledInputs),
       .start (.trigger "title: cats")]
    exact halways 50 events 1 _ _ rfl rfl rfl rfl rfl
  · obtain ⟨t, ht, hfield⟩ := hall _ _ _ h (by decide) "ti" _ hsuggested
    obtain rfl := List.mem_singleton.mp ht
    exact hfield (by decide)

end FieldSearch
