import FieldSearch.Proofs.Schema.AllOrNothing
import FieldSearch.Proofs.Schema.Coverage

/-!
# The fields of a type

Declared names are put one after the other, each into the entry of its base name. The entries stand
where their base names were first declared, and an entry that is put again keeps what it had. So the
order of the entries is that of the declarations, and all else depends on the set of names only.
-/

namespace FieldSearch

theorem eraseDups_concat (names : List Text) (name : Text) :
    (names ++ [name]).eraseDups =
      if name ∈ names then names.eraseDups else names.eraseDups ++ [name] := by
  have hlast : ∀ p : Text → Bool, ([name].filter p).eraseDups = if p name then [name] else [] := by
    intro p
    by_cases h : p name = true <;> simp [h, List.eraseDups_cons]
  rw [List.eraseDups_append, List.removeAll, hlast]
  by_cases h : name ∈ names <;> simp [h]

namespace DocumentType

variable {inputType : Text} {names : List Text} {base : Text}

/-! ## Entries -/

theorem keys_foldl_declare (names : List Text) :
    (names.foldl declare []).keys = (names.map baseName).eraseDups := by
  induction names using List.reverseRecOn with
  | nil => rfl
  | append_singleton names name ih =>
    rw [List.foldl_append, List.foldl_cons, List.foldl_nil, declare, Entries.keys_put, ih,
      List.map_append, List.map_singleton, eraseDups_concat]
    simp only [List.mem_eraseDups]

theorem name_foldl_declare {fields : Entries FieldSupport}
    (h : ∀ base support, fields.get? base = some support → support.name = base)
    {support : FieldSupport} (hget : (names.foldl declare fields).get? base = some support) :
    support.name = base := by
  induction names generalizing fields with
  | nil => exact h base support hget
  | cons name names ih =>
    refine ih ?_ hget
    intro base support hget
    rw [declare, Entries.get?_put] at hget
    split at hget
    · rename_i hbase
      cases hget
      split <;> exact hbase
    · exact h base support hget

/-- An entry of a type tells which of the two names of its field were declared. -/
theorem get?_ofDeclared_eq_some {support : FieldSupport}
    (h : (ofDeclared inputType names).fields.get? base = some support) :
    support.name = base ∧
      (support.exact = true ↔ base ∈ names ∧ isFulltextName base = false) ∧
      (support.fulltext = true ↔ fulltextName base ∈ names) := by
  have hname : support.name = base := name_foldl_declare (by simp [Entries.get?]) h
  have hexact : (ofDeclared inputType names).hasExact base = true ↔ _ := hasExact_ofDeclared
  have hfulltext : (ofDeclared inputType names).hasFulltext base = true ↔ _ :=
    hasFulltext_ofDeclared
  rw [hasExact, h] at hexact
  rw [hasFulltext, h] at hfulltext
  exact ⟨hname, hexact, hfulltext⟩

/-- The order and the repetition of the names do not show in the entries. -/
theorem get?_ofDeclared_congr {names' : List Text} (h : ∀ name, name ∈ names' ↔ name ∈ names)
    (base : Text) :
    (ofDeclared inputType names').fields.get? base =
      (ofDeclared inputType names).fields.get? base := by
  have hkeys : base ∈ (ofDeclared inputType names').fields.keys ↔
      base ∈ (ofDeclared inputType names).fields.keys := by
    simp only [mem_keys_ofDeclared, h]
  by_cases hmem : base ∈ (ofDeclared inputType names').fields.keys
  · obtain ⟨⟨name', exact', fulltext'⟩, hget'⟩ := Entries.exists_get?_iff.mpr hmem
    obtain ⟨⟨name, exact, fulltext⟩, hget⟩ := Entries.exists_get?_iff.mpr (hkeys.mp hmem)
    obtain ⟨rfl, hexact', hfulltext'⟩ := get?_ofDeclared_eq_some hget'
    obtain ⟨rfl, hexact, hfulltext⟩ := get?_ofDeclared_eq_some hget
    have hsame : exact' = exact ∧ fulltext' = fulltext := by
      simp only [h] at hexact' hfulltext'
      exact ⟨Bool.eq_iff_iff.mpr (hexact'.trans hexact.symm),
        Bool.eq_iff_iff.mpr (hfulltext'.trans hfulltext.symm)⟩
    rw [hget', hget, hsame.1, hsame.2]
  · rw [Entries.get?_eq_none hmem, Entries.get?_eq_none (mt hkeys.mpr hmem)]

/-! ## The preview field -/

theorem summaryOf_of_fulltext {before after : List Text}
    (h : ∀ name ∈ before, isFulltextName name = false) :
    summaryOf (before ++ fulltextName base :: after) = some base := by
  have hfind : (before ++ fulltextName base :: after).find? isFulltextName =
      some (fulltextName base) := by
    have hbefore : before.find? isFulltextName = none := by
      simpa [List.find?_eq_none] using h
    rw [List.find?_append, hbefore, Option.none_or,
      List.find?_cons_of_pos (isFulltextName_fulltextName base)]
  rw [summaryOf, hfind, Option.map_some, baseName_fulltextName]
  rfl

theorem summaryOf_of_exact (h : ∀ name ∈ names, isFulltextName name = false) :
    summaryOf names = names.head? := by
  have hfind : names.find? isFulltextName = none := by
    simpa [List.find?_eq_none] using h
  rw [summaryOf, hfind]
  rfl

/-- The preview field is one of the fields. -/
theorem mem_keys_of_summaryOf {field : Text} (h : summaryOf names = some field) :
    field ∈ (ofDeclared inputType names).fields.keys := by
  apply mem_keys_ofDeclared.mpr
  unfold summaryOf at h
  cases hfind : names.find? isFulltextName with
  | none =>
    rw [hfind] at h
    have hmem : field ∈ names := List.mem_of_mem_head? h
    have hexact : isFulltextName field = false := by
      simpa using List.find?_eq_none.mp hfind field hmem
    exact ⟨field, hmem, baseName_of_not_isFulltextName hexact⟩
  | some name =>
    rw [hfind] at h
    exact ⟨name, List.mem_of_find?_eq_some hfind, Option.some.inj h⟩

end DocumentType

namespace Schema

/-! ## The fields of a list of entries -/

/-- The name of a text field that an entry declares. -/
def textName? (field : Json) : Option Text :=
  if isTextField field then ((field.member? "name").bind text?).filter (!List.isEmpty ·) else none

def textNames (fields : List Json) : List Text := fields.filterMap textName?

theorem textName?_eq_some_iff {field : Json} {name : Text} :
    textName? field = some name ↔ DeclaresText field name := by
  unfold textName? DeclaresText
  cases isTextField field with
  | false => simp
  | true =>
    cases field.member? "name" with
    | none => simp
    | some value =>
      cases value with
      | text t => simp [text?, Option.filter_eq_some_iff]
      | _ => simp [text?]

theorem declaredNames_eq {fields : List Json} (h : ∀ field ∈ fields, Shaped field) :
    fields.filterMap declaredName? = textNames fields := by
  apply List.filterMap_congr
  intro field hfield
  apply Option.ext
  intro name
  rw [declaredName?_eq_some_iff (h field hfield), textName?_eq_some_iff]

theorem isFulltextName_eq_false_iff {name : Text} :
    isFulltextName name = false ↔ ¬ ("_fulltext" : Text) <:+ name := by
  rw [← Bool.not_eq_true, isFulltextName, List.isSuffixOf_iff_suffix]
  rfl

/-- **The fields of a type are read off its text names.** There is one entry for each base name, in
the order in which the base names come, and it supports what is declared under that base name. The
preview field is that of the first full-text name, or else the first name. Only the order depends on
how the entries are ordered and repeated. -/
theorem fields_folded (inputType : Text) {fields : List Json}
    (h : ∀ field ∈ fields, Readable field) :
    let names := textNames fields
    ∃ t, documentType inputType (.array fields) = .ok t ∧
      t.fields.keys = (names.map baseName).eraseDups ∧
      (∀ base support, t.fields.get? base = some support →
        support.name = base ∧
        (support.exact = true ↔ base ∈ names ∧ ¬ ("_fulltext" : Text) <:+ base) ∧
        (support.fulltext = true ↔ base ++ "_fulltext" ∈ names)) ∧
      (∀ (before : List Text) (base : Text) after,
        names = before ++ (base ++ "_fulltext") :: after →
        (∀ name ∈ before, ¬ ("_fulltext" : Text) <:+ name) → t.summaryField = some base) ∧
      ((∀ name ∈ names, ¬ ("_fulltext" : Text) <:+ name) → t.summaryField = names.head?) ∧
      (∀ field, t.summaryField = some field → field ∈ t.fields.keys) ∧
      ∀ fields', (∀ field, field ∈ fields' ↔ field ∈ fields) →
        ∃ t', documentType inputType (.array fields') = .ok t' ∧
          (∀ base, base ∈ t'.fields.keys ↔ base ∈ t.fields.keys) ∧
          ∀ base, t'.fields.get? base = t.fields.get? base := by
  intro names
  have hread : ∀ fields, (∀ field ∈ fields, Readable field) →
      documentType inputType (.array fields) =
        .ok (.ofDeclared inputType (textNames fields)) := by
    intro fields h
    obtain ⟨t, ht⟩ := exists_documentType_iff.mpr h
    rw [ht, documentType_eq_ok ht, declaredNames_eq fun field hfield => (h field hfield).toShaped]
  refine ⟨_, hread fields h, DocumentType.keys_foldl_declare names, ?_, ?_, ?_, ?_, ?_⟩
  · intro base support hget
    rw [← isFulltextName_eq_false_iff]
    exact DocumentType.get?_ofDeclared_eq_some hget
  · intro before base after hnames hbefore
    simp only [← isFulltextName_eq_false_iff] at hbefore
    show DocumentType.summaryOf names = _
    rw [hnames]
    exact DocumentType.summaryOf_of_fulltext hbefore
  · intro hexact
    simp only [← isFulltextName_eq_false_iff] at hexact
    exact DocumentType.summaryOf_of_exact hexact
  · intro field hsummary
    exact DocumentType.mem_keys_of_summaryOf hsummary
  · intro fields' hsame
    have hnames : ∀ name, name ∈ textNames fields' ↔ name ∈ textNames fields := by
      simp [textNames, hsame]
    refine ⟨_, hread fields' fun field hfield => h field ((hsame field).mp hfield), ?_, ?_⟩
    · intro base
      simp only [DocumentType.mem_keys_ofDeclared, hnames]
    · exact DocumentType.get?_ofDeclared_congr hnames

def repeatedFields : List Json :=
  [textField "uid", textField "body_fulltext",
    .object [("name", .text "views"), ("type", .object [("name", .text "Int")])],
    textField "body", textField "title_fulltext", textField "uid", textField "body_fulltext"]

theorem fields_folded_repeated :
    (∀ field ∈ repeatedFields, Readable field) ∧
      ∃ t, documentType "WhereArticle" (.array repeatedFields) = .ok t ∧
        t.fields.keys = [("uid" : Text), "body", "title"] ∧
        t.summaryField = some "body" ∧
        ∃ support, t.fields.get? "body" = some support ∧
          support.exact = true ∧ support.fulltext = true := by
  have hread : ∀ field ∈ repeatedFields, Readable field :=
    exists_documentType_iff.mp
      ⟨_, (rfl : documentType "WhereArticle" (.array repeatedFields) = .ok _)⟩
  obtain ⟨t, ht, hkeys, hentries, hfulltext, -⟩ := fields_folded "WhereArticle" hread
  have hordered : t.fields.keys = [("uid" : Text), "body", "title"] := by
    rw [hkeys]
    decide
  obtain ⟨support, hget⟩ : ∃ support, t.fields.get? "body" = some support := by
    apply Entries.exists_get?_iff.mpr
    simp [hordered]
  obtain ⟨-, hexact, hfull⟩ := hentries _ _ hget
  refine ⟨hread, t, ht, hordered, ?_, support, hget, hexact.mpr ?_, hfull.mpr ?_⟩
  · exact hfulltext ["uid"] "body" _ rfl (by decide)
  · decide
  · decide

end Schema

end FieldSearch
