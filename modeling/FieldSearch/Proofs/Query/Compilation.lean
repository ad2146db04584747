import FieldSearch.Proofs.GraphQL.SearchDocument
import FieldSearch.Proofs.Query.Binding
import FieldSearch.Proofs.Schema.Response

/-!
# Searches are compiled faithfully

Whatever an operator types, the document of a search says what the search was resolved to and
nothing else. What was typed reaches the document in two ways only: a value as a string literal, and
a field through a name that the schema declares. A page size that has no literal has no document.
-/

namespace FieldSearch

open GraphQL

/-! ## Names made from names -/

theorem isNameChar_of_mem {name : Text} (h : isName name = true) :
    ∀ c ∈ name, isNameChar c = true := by
  cases name with
  | nil => cases h
  | cons c rest =>
    simp only [isName, Bool.and_eq_true, List.all_eq_true] at h
    intro d hd
    rcases List.mem_cons.mp hd with rfl | hd
    · exact isNameChar_of_isNameStart h.1
    · exact h.2 d hd

theorem isName_of_append {a b : Text} (h : isName (a ++ b) = true) (ha : a ≠ []) :
    isName a = true := by
  cases a with
  | nil => exact absurd rfl ha
  | cons c a =>
    simp only [List.cons_append, isName, List.all_append, Bool.and_eq_true] at h ⊢
    exact ⟨h.1, h.2.1⟩

theorem mem_stripPrefix {beginning name : Text} {c : Char} (h : c ∈ name.stripPrefix beginning) :
    c ∈ name := by
  unfold Text.stripPrefix at h
  cases hrest : beginning.isPrefixOf? name with
  | none => rw [hrest] at h; exact h
  | some rest =>
    rw [hrest] at h
    rw [← List.isPrefixOf?_eq_some_iff_append_eq.mp hrest]
    exact List.mem_append_right _ h

theorem isName_listingName {inputType : Text} (h : isName inputType = true) :
    isName (listingName inputType) = true := by
  have hall : ("all" : Text) = ['a', 'l', 'l'] := by decide
  have hs : ("s" : Text).all isNameChar = true := by decide
  have hmem : ∀ c ∈ inputType.stripPrefix filterPrefix ++ "s", isNameChar c = true := by
    intro c hc
    rcases List.mem_append.mp hc with hc | hc
    · exact isNameChar_of_mem h c (mem_stripPrefix hc)
    · exact List.all_eq_true.mp hs c hc
  unfold listingName
  rw [hall, List.append_assoc]
  simp only [List.cons_append, List.nil_append, isName, List.all_cons, Bool.and_eq_true,
    List.all_eq_true]
  exact ⟨by decide, by decide, by decide, hmem⟩

namespace DocumentType

theorem isName_summaryOf {names : List Text} (h : ∀ name ∈ names, isName name = true) {field : Text}
    (hfield : summaryOf names = some field) (hne : field ≠ []) : isName field = true := by
  obtain hfull | hexact := summaryOf_eq_some hfield
  · exact isName_of_append (h _ hfull) hne
  · exact h _ hexact

theorem mem_declared_of_resolve? {inputType : Text} {names : List Text} {constraints : Constraints}
    {r : Resolution} (h : (ofDeclared inputType names).resolve? constraints = some r) :
    ∀ key ∈ r.conditions.keys, key ∈ names := by
  intro key hkey
  obtain ⟨-, conditions, hmap, hr⟩ := resolve?_eq_some h
  rw [hr] at hkey
  have hsome : some key ∈ (Entries.keys conditions).map some :=
    List.mem_map_of_mem (Entries.mem_keys_ofList.mp hkey)
  rw [← keys_conditions hmap] at hsome
  obtain ⟨name, -, hname⟩ := List.mem_map.mp hsome
  exact mem_of_fieldFor?_ofDeclared hname

theorem named_ofResolution {inputType : Text} {names : List Text} (hinput : isName inputType = true)
    (hnames : ∀ name ∈ names, isName name = true) {constraints : Constraints} {r : Resolution}
    (h : (ofDeclared inputType names).resolve? constraints = some r) (pageSize : Value) :
    (Selection.ofResolution pageSize r).Named := by
  obtain ⟨htype, -⟩ := resolve?_eq_some h
  constructor
  · rw [Selection.ofResolution, htype]
    exact isName_listingName hinput
  · exact fun key hkey => hnames key (mem_declared_of_resolve? h key hkey)
  · rw [Selection.ofResolution, htype]
    exact fun field hfield hne => isName_summaryOf hnames hfield hne

end DocumentType

theorem mem_resolveTypes {types : List DocumentType} {constraints : Constraints} {r : Resolution}
    (h : r ∈ resolveTypes types constraints) :
    r.type ∈ types ∧ r.type.resolve? constraints = some r := by
  obtain ⟨t, ht, hr⟩ := List.mem_filterMap.mp h
  obtain ⟨rfl, -⟩ := DocumentType.resolve?_eq_some hr
  exact ⟨ht, hr⟩

/-- Each resolution is of a type made from the names that the response declares for it. -/
theorem exists_resolve?_of_mem {inputs : Json} {names : List Text} {constraints : Constraints}
    {r : Resolution} (h : r ∈ resolveTypes (names.map fun name =>
      DocumentType.ofDeclared name (Schema.declaredNames inputs name)) constraints) :
    ∃ name ∈ names, r.type.inputType = name ∧
      (DocumentType.ofDeclared name (Schema.declaredNames inputs name)).resolve? constraints =
        some r := by
  obtain ⟨htype, hr⟩ := mem_resolveTypes h
  obtain ⟨name, hname, htype⟩ := List.mem_map.mp htype
  refine ⟨name, hname, ?_, htype ▸ hr⟩
  rw [← htype]
  rfl

namespace GraphQL.SearchDocument

variable {pageSize : Value} {resolved : List Resolution}

theorem ofResolutions_eq (pageSize : Value) (resolved : List Resolution) :
    ofResolutions pageSize resolved =
      (checkPageSize pageSize).map fun _ => ⟨resolved.map (Selection.ofResolution pageSize)⟩ :=
  rfl

theorem checkPageSize_int {n : Int} (h : 1 ≤ n) : checkPageSize (.int n) = .ok () :=
  if_neg (by omega)

theorem ofResolutions_eq_ok (hpage : checkPageSize pageSize = .ok ()) :
    ofResolutions pageSize resolved =
      .ok ⟨resolved.map (Selection.ofResolution pageSize)⟩ := by
  rw [ofResolutions_eq, hpage]
  rfl

/-- All selections of a search have its page size. -/
theorem exists_render_ofResolution (resolved : List Resolution) {first : Text}
    (hfirst : pageSize.literal = .ok first) :
    ∃ text, render ⟨resolved.map (Selection.ofResolution pageSize)⟩ = .ok text := by
  refine exists_render_eq_ok fun s hs => (?_ : s.pageSize.literal = .ok first)
  obtain ⟨r, -, rfl⟩ := List.mem_map.mp hs
  exact hfirst

theorem render_ofResolution (hne : resolved ≠ []) {c : Crash}
    (herror : pageSize.literal = .error c) :
    render ⟨resolved.map (Selection.ofResolution pageSize)⟩ = .error c := by
  refine render_eq_error (fun s hs => ?_) (by simpa using hne)
  obtain ⟨r, -, rfl⟩ := List.mem_map.mp hs
  exact herror

end GraphQL.SearchDocument

/-- **A search is compiled faithfully.** Take types that were read from a response whose type and
field names are names of the query language, any text that an operator types and any page size. If
the text resolves to some types and the page size does not have too many digits, the document is
read as one operation with one field for each of them, in their order; and so is its compact form.
With too many digits there is no document. -/
theorem compile_faithful {inputs : Json} {names : List Text} {types : List DocumentType}
    (htypes : Schema.documentTypes inputs names = .ok types)
    (hnames : ∀ name ∈ names, isName name = true)
    (hfields : ∀ name ∈ names, ∀ field ∈ Schema.listedFieldNames inputs name, isName field = true)
    (raw : Text) (pageSize : Int) (hpage : 1 ≤ pageSize)
    (hne : resolveTypes types (.ofText raw) ≠ []) :
    ∃ d, SearchDocument.ofResolutions (.int pageSize) (resolveTypes types (.ofText raw)) = .ok d ∧
      (pageSize < 10 ^ Number.maxDigits → ∃ text, d.render = .ok text ∧
        read text = some [⟨.query, some "search", (resolveTypes types (.ofText raw)).map fun r =>
          listingField r.type.name (.int pageSize) r.conditions r.type.summaryField⟩] ∧
        read (compact text) = read text) ∧
      (10 ^ Number.maxDigits ≤ pageSize → d.render = .error .tooManyDigits) ∧
      ∀ r ∈ resolveTypes types (.ofText raw), ∀ key ∈ r.conditions.keys,
        key ∈ Schema.declaredNames inputs r.type.inputType := by
  rw [Schema.documentTypes_eq_ok htypes] at hne ⊢
  have hfrom := fun r => @exists_resolve?_of_mem inputs names (.ofText raw) r
  generalize resolveTypes _ (.ofText raw) = resolved at hne hfrom ⊢
  have hread : ∀ s ∈ resolved.map (Selection.ofResolution (.int pageSize)),
      s.Named ∧ s.Pages (.int pageSize) := by
    intro s hs
    obtain ⟨r, hr, rfl⟩ := List.mem_map.mp hs
    obtain ⟨name, hname, -, hr⟩ := hfrom r hr
    refine ⟨DocumentType.named_ofResolution (hnames name hname) ?_ hr _, Selection.pages_int rfl⟩
    exact fun field hfield =>
      hfields name hname field (Schema.declaredNames_subset inputs name hfield)
  have hsome : resolved.map (Selection.ofResolution (.int pageSize)) ≠ [] := by simpa using hne
  have hop : (SearchDocument.mk (resolved.map (Selection.ofResolution (.int pageSize)))).toOperation
      (.int pageSize) = ⟨.query, some "search", resolved.map fun r =>
        listingField r.type.name (.int pageSize) r.conditions r.type.summaryField⟩ := by
    rw [SearchDocument.toOperation, List.map_map]
    rfl
  refine ⟨⟨resolved.map (Selection.ofResolution (.int pageSize))⟩,
    SearchDocument.ofResolutions_eq_ok (SearchDocument.checkPageSize_int hpage),
    fun hshort => ?_, fun hlong => ?_, ?_⟩
  · obtain ⟨text, htext⟩ := SearchDocument.exists_render_ofResolution resolved
      (Value.literal_int_of_lt (by omega) hshort)
    refine ⟨text, htext, ?_, ?_⟩
    · rw [read_render hread hsome htext, hop]
    · rw [read_compact_render hread hsome htext, read_render hread hsome htext]
  · exact SearchDocument.render_ofResolution hne (Value.literal_int_of_le (by omega) hlong)
  · intro r hr key hkey
    obtain ⟨name, -, hinput, hr⟩ := hfrom r hr
    rw [hinput]
    exact DocumentType.mem_declared_of_resolve? hr key hkey

def articleInputs : Json :=
  let field (name : Text) : Json :=
    .object [("name", .text name), ("type", .object [("name", .text "String")])]
  .object [("WhereArticle",
    .object [("inputFields", .array [field "title_fulltext", field "category"])])]

/-- A text full of characters that mean something in a document. -/
def quotedText : Text := "title: \"cats\" \\ \x7b#\n😀\x7d, category: pets"

theorem compile_faithful_articles :
    Schema.documentTypes articleInputs ["WhereArticle"] = .ok [DocumentType.articles] ∧
      resolveTypes [DocumentType.articles] (.ofText quotedText) = [⟨DocumentType.articles,
        [("title_fulltext", "\"cats\" \\ \x7b#\n😀\x7d"), ("category", "pets")]⟩] ∧
      ∃ d text, SearchDocument.ofResolutions (.int 50) (resolveTypes [DocumentType.articles]
          (.ofText quotedText)) = .ok d ∧ d.render = .ok text ∧
        read text = some [⟨.query, some "search", [listingField "allArticles" (.int 50)
          [("title_fulltext", "\"cats\" \\ \x7b#\n😀\x7d"), ("category", "pets")]
          (some "title")]⟩] ∧
        read (compact text) = read text := by
  have htypes : Schema.documentTypes articleInputs ["WhereArticle"] =
      .ok [DocumentType.articles] := by rfl
  have hresolved : resolveTypes [DocumentType.articles] (.ofText quotedText) =
      [⟨DocumentType.articles,
        [("title_fulltext", "\"cats\" \\ \x7b#\n😀\x7d"), ("category", "pets")]⟩] := by decide
  have hne : resolveTypes [DocumentType.articles] (.ofText quotedText) ≠ [] := by
    rw [hresolved]
    exact List.cons_ne_nil _ _
  obtain ⟨d, hd, hread, -⟩ :=
    compile_faithful htypes (by decide) (by decide) quotedText 50 (by decide) hne
  have hshort : (50 : Int) < 10 ^ Number.maxDigits :=
    (Number.isWritable_iff_lt (by decide)).mp (by decide)
  obtain ⟨text, htext, hread, hcompact⟩ := hread hshort
  rw [hresolved] at hread
  exact ⟨htypes, hresolved, d, text, hd, htext, hread, hcompact⟩

/-- A search has no document under a page size of too many digits. -/
theorem render_articles_tooLong :
    ¬ ∀ (inputs : Json) (names : List Text) (types : List DocumentType) (raw : Text)
      (pageSize : Int), Schema.documentTypes inputs names = .ok types →
      (∀ name ∈ names, isName name = true) →
      (∀ name ∈ names, ∀ field ∈ Schema.listedFieldNames inputs name, isName field = true) →
      1 ≤ pageSize → resolveTypes types (.ofText raw) ≠ [] →
      ∃ d text, SearchDocument.ofResolutions (.int pageSize) (resolveTypes types (.ofText raw)) =
        .ok d ∧ d.render = .ok text := by
  intro h
  have htypes : Schema.documentTypes articleInputs ["WhereArticle"] =
      .ok [DocumentType.articles] := rfl
  have hne : resolveTypes [DocumentType.articles] (.ofText "title: cats") ≠ [] := by decide
  have hlong := Value.literal_int_of_le (Int.le_of_lt Number.one_le_tooLong) Number.pow_le_tooLong
  obtain ⟨d, text, hd, htext⟩ := h articleInputs ["WhereArticle"] _ "title: cats" Number.tooLong
    htypes (by decide) (by decide) Number.one_le_tooLong hne
  rw [SearchDocument.ofResolutions_eq_ok
    (SearchDocument.checkPageSize_int Number.one_le_tooLong)] at hd
  cases hd
  rw [SearchDocument.render_ofResolution hne hlong] at htext
  cases htext

end FieldSearch
