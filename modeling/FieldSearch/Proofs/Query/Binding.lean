import FieldSearch.Proofs.Entries
import FieldSearch.Proofs.Schema.Name
import FieldSearch.Query.Resolution

/-!
# Constraints bound to backend fields

A type binds each constraint to a backend field and puts the values under these fields, so two
constraints that are bound to one field leave one condition. This happens exactly when both a
name and its full-text name are constrained and the first stands for the second.
-/

namespace FieldSearch

namespace DocumentType

/-- The condition that a constraint becomes, if the type has the field. -/
def condition? (t : DocumentType) (constraint : Text × Text) : Option (Text × Text) :=
  (t.fieldFor? constraint.1).map (·, constraint.2)

/-! ## The field of a name -/

theorem fieldFor?_eq_some {t : DocumentType} {name field : Text}
    (h : t.fieldFor? name = some field) :
    field = name ∨ field = fulltextName name ∧ t.hasFulltext name = true := by
  unfold fieldFor? at h
  split at h
  · exact Or.inl (Option.some.inj h).symm
  · split at h
    · exact Or.inl (Option.some.inj h).symm
    · split at h
      · rename_i hfull; exact Or.inr ⟨(Option.some.inj h).symm, hfull⟩
      · cases h

theorem fieldFor?_fulltextName {t : DocumentType} {name : Text} (h : t.hasFulltext name = true) :
    t.fieldFor? (fulltextName name) = some (fulltextName name) := by
  rw [fieldFor?, isFulltextName_fulltextName, baseName_fulltextName, h]
  rfl

/-- Two names stand for one field exactly when one of them is the full-text name of the other. -/
theorem eq_or_fulltextName_of_fieldFor?_eq {t : DocumentType} {a b field : Text}
    (ha : t.fieldFor? a = some field) (hb : t.fieldFor? b = some field) :
    a = b ∨ b = fulltextName a ∧ t.fieldFor? a = some (fulltextName a) ∨
      a = fulltextName b ∧ t.fieldFor? b = some (fulltextName b) := by
  obtain rfl | ⟨rfl, -⟩ := fieldFor?_eq_some ha
  · obtain h | ⟨rfl, -⟩ := fieldFor?_eq_some hb
    · exact Or.inl h
    · exact Or.inr (Or.inr ⟨rfl, hb⟩)
  · obtain rfl | ⟨h, -⟩ := fieldFor?_eq_some hb
    · exact Or.inr (Or.inl ⟨rfl, ha⟩)
    · exact Or.inl (fulltextName_inj h)

theorem nodup_fields_iff {t : DocumentType} {names : List Text} (hn : names.Nodup)
    (hsome : ∀ name ∈ names, (t.fieldFor? name).isSome) :
    (names.map t.fieldFor?).Nodup ↔
      ∀ name ∈ names, fulltextName name ∈ names → t.fieldFor? name ≠ some (fulltextName name) := by
  rw [List.nodup_map_iff_inj_on hn]
  constructor
  · intro hinj name hname hfull hfield
    obtain h | ⟨-, h⟩ := fieldFor?_eq_some hfield
    · exact fulltextName_ne name h
    · have := hinj name hname _ hfull (hfield.trans (fieldFor?_fulltextName h).symm)
      exact fulltextName_ne name this.symm
  · intro hfree a ha b hb heq
    obtain ⟨field, hfield⟩ := Option.isSome_iff_exists.mp (hsome a ha)
    obtain h | ⟨rfl, h⟩ | ⟨rfl, h⟩ := eq_or_fulltextName_of_fieldFor?_eq hfield (heq ▸ hfield)
    · exact h
    · exact absurd h (hfree a ha hb)
    · exact absurd h (hfree b hb ha)

/-! ## Binding -/

theorem bind?_eq_some {t : DocumentType} {constraints : Constraints} {bound out : Entries Text}
    (h : t.bind? constraints bound = some out) :
    ∃ conditions, constraints.map t.condition? = conditions.map some ∧
      out = bound.update conditions := by
  induction constraints generalizing bound with
  | nil => exact ⟨[], rfl, (Option.some.inj h).symm⟩
  | cons constraint rest ih =>
    obtain ⟨name, value⟩ := constraint
    simp only [bind?, Option.bind_eq_bind, Option.bind_eq_some_iff] at h
    obtain ⟨field, hfield, hrest⟩ := h
    obtain ⟨conditions, hmap, hout⟩ := ih hrest
    exact ⟨(field, value) :: conditions, by simp [condition?, hfield, hmap], hout⟩

theorem resolve?_eq_some {t : DocumentType} {constraints : Constraints} {r : Resolution}
    (h : t.resolve? constraints = some r) :
    r.type = t ∧ ∃ conditions, constraints.map t.condition? = conditions.map some ∧
      r.conditions = Entries.ofList conditions := by
  obtain ⟨bound, hbound, rfl⟩ := Option.map_eq_some_iff.mp h
  exact ⟨rfl, bind?_eq_some hbound⟩

theorem conditions_eq_nil_iff {t : DocumentType} {constraints : Constraints}
    {r : Resolution} (h : t.resolve? constraints = some r) : r.conditions = [] ↔ constraints = [] := by
  obtain ⟨-, conditions, hmap, hr⟩ := resolve?_eq_some h
  have hlength := congrArg List.length hmap
  simp only [List.length_map] at hlength
  rw [hr, Entries.ofList_eq_nil_iff, ← List.length_eq_zero_iff, ← hlength, List.length_eq_zero_iff]

theorem keys_conditions {t : DocumentType} {constraints : Constraints}
    {conditions : List (Text × Text)} (h : constraints.map t.condition? = conditions.map some) :
    constraints.keys.map t.fieldFor? = (Entries.keys conditions).map some := by
  have := congrArg (List.map (Option.map Prod.fst)) h
  simpa [condition?, Entries.keys, Function.comp_def] using this

/-- **Each constraint becomes a condition of its own** exactly when no constrained name stands for
a full-text name that is constrained as well; else the later value replaces the earlier one. -/
theorem conditions_eq_iff {t : DocumentType} {constraints : Constraints} {r : Resolution}
    (hkeys : constraints.keys.Nodup) (h : t.resolve? constraints = some r) :
    r.conditions.map some = constraints.map (fun c => (t.fieldFor? c.1).map (·, c.2)) ↔
      ∀ name ∈ constraints.keys, fulltextName name ∈ constraints.keys →
        t.fieldFor? name ≠ some (fulltextName name) := by
  obtain ⟨-, conditions, hmap, hr⟩ := resolve?_eq_some h
  have hfields := keys_conditions hmap
  have hsome : ∀ name ∈ constraints.keys, (t.fieldFor? name).isSome := by
    intro name hname
    have hmem : t.fieldFor? name ∈ (Entries.keys conditions).map some :=
      hfields ▸ List.mem_map_of_mem hname
    obtain ⟨field, -, hfield⟩ := List.mem_map.mp hmem
    rw [← hfield]; rfl
  -- putting the conditions in order changes none of them unless two have one field
  have hlist : r.conditions.map some = constraints.map (fun c => (t.fieldFor? c.1).map (·, c.2)) ↔
      r.conditions = conditions := by
    rw [show (constraints.map fun c => (t.fieldFor? c.1).map (·, c.2)) = conditions.map some from hmap]
    exact List.map_inj_right fun _ _ => Option.some.inj
  rw [hlist, hr, Entries.ofList_eq_self_iff, ← nodup_fields_iff hkeys hsome, hfields]
  exact (List.nodup_map_iff (fun _ _ => Option.some.inj)).symm

def articles : DocumentType := ofDeclared "WhereArticle" ["title_fulltext", "category"]

def articleConstraints : Constraints := [("title", "cats"), ("category", "pets")]

theorem conditions_eq_iff_articles :
    articleConstraints.keys.Nodup ∧
      articles.resolve? articleConstraints =
        some ⟨articles, [("title_fulltext", "cats"), ("category", "pets")]⟩ ∧
      ∀ name ∈ articleConstraints.keys, fulltextName name ∈ articleConstraints.keys →
        articles.fieldFor? name ≠ some (fulltextName name) := by
  have hkeys : articleConstraints.keys.Nodup := by decide
  have h : articles.resolve? articleConstraints =
      some ⟨articles, [("title_fulltext", "cats"), ("category", "pets")]⟩ := by decide
  exact ⟨hkeys, h, (conditions_eq_iff hkeys h).mp (by decide)⟩

/-- A title and its full-text name bind to one field, and the first value is lost. -/
theorem condition_lost :
    articles.resolve? [("title", "cats"), ("title_fulltext", "dogs")] =
        some ⟨articles, [("title_fulltext", "dogs")]⟩ ∧
      ¬ ∀ (t : DocumentType) (constraints : Constraints) (r : Resolution), constraints.keys.Nodup →
        t.resolve? constraints = some r →
        r.conditions.map some = constraints.map fun c => (t.fieldFor? c.1).map (·, c.2) := by
  have h : articles.resolve? [("title", "cats"), ("title_fulltext", "dogs")] =
      some ⟨articles, [("title_fulltext", "dogs")]⟩ := by decide
  refine ⟨h, fun hall => ?_⟩
  have := congrArg List.length (hall articles _ _ (by decide) h)
  exact absurd this (by decide)

end DocumentType

end FieldSearch
