import FieldSearch.Proofs.Query.Suggestion

/-!
# Filling in a suggestion

Filling in puts a field name and a colon in place of the last segment, so what is typed next is the
value of that field. The other segments stay as they are. A suggestion is offered for a segment that
does not constrain anything yet, so with it nothing is lost of what was typed before.
-/

namespace FieldSearch

/-- The constraints of all segments but the one being typed. -/
def settledConstraints (raw : Text) : Constraints :=
  .ofText (Text.join [','] (raw.splitOn ',').dropLast)

section
variable {raw name value : Text}

/-! ## Segments of the filled text -/

theorem splitOn_autofill (hname : ',' ∉ name) (hvalue : ',' ∉ value) :
    (autofill raw name ++ value).splitOn ',' =
      (raw.splitOn ',').dropLast ++ [name ++ ':' :: value] := by
  have htyped : name ++ [':'] ++ value = name ++ ':' :: value := List.append_assoc ..
  rw [autofill, join_concat_append, htyped]
  refine List.splitOn_intercalate ',' ?_ (by simp)
  intro segment hsegment
  rcases List.mem_append.mp hsegment with h | h
  · exact not_mem_of_mem_splitOn (List.mem_of_mem_dropLast h)
  · rw [List.mem_singleton.mp h]
    simp [hname, hvalue]

theorem lastSegment_autofill (h : Constraints.IsName name) :
    lastSegment (autofill raw name) = name ++ [':'] := by
  have htrimmed : Text.Trimmed (name ++ [':']) := by
    refine ⟨fun c hc => h.trimmed.head c ?_, fun c hc => ?_⟩
    · obtain ⟨first, rest, rfl⟩ := List.exists_cons_of_ne_nil h.ne_nil
      exact hc
    · rw [List.getLast?_concat, Option.mem_some_iff] at hc
      subst hc
      decide
  have hsplit : (autofill raw name).splitOn ',' = (raw.splitOn ',').dropLast ++ [name ++ [':']] :=
    List.append_nil (autofill raw name) ▸ splitOn_autofill h.comma List.not_mem_nil
  rw [lastSegment, hsplit, List.getLast?_concat, Option.getD_some, htrimmed.trim_eq]

/-! ## Constraints of the filled text -/

theorem settledConstraints_eq (raw : Text) : settledConstraints raw =
    Entries.ofList ((raw.splitOn ',').dropLast.filterMap Constraints.ofSegment?) := by
  by_cases hnil : (raw.splitOn ',').dropLast = []
  · rw [settledConstraints, hnil]
    decide
  · have hsplit : (Text.join [','] (raw.splitOn ',').dropLast).splitOn ',' =
        (raw.splitOn ',').dropLast := by
      refine List.splitOn_intercalate ',' (fun segment hsegment => ?_) hnil
      exact not_mem_of_mem_splitOn (List.mem_of_mem_dropLast hsegment)
    rw [settledConstraints, Constraints.ofText, hsplit]

theorem ofText_autofill (h : Constraints.IsName name) (hvalue : ',' ∉ value) :
    Constraints.ofText (autofill raw name ++ value) =
      (settledConstraints raw).put name value.trim := by
  rw [Constraints.ofText, splitOn_autofill h.comma hvalue, List.filterMap_append,
    List.filterMap_cons_some (Constraints.ofSegment?_of_isName h value), List.filterMap_nil,
    Entries.ofList, Entries.update_concat, ← Entries.ofList, ← settledConstraints_eq]

/-! ## The segment being typed -/

/-- A segment without a colon constrains nothing yet. -/
theorem settledConstraints_of_not_mem (h : ':' ∉ lastSegment raw) :
    settledConstraints raw = .ofText raw := by
  obtain ⟨last, hlast⟩ : ∃ last, (raw.splitOn ',').getLast? = some last :=
    ⟨_, List.getLast?_eq_some_getLast (List.splitOn_ne_nil ',' raw)⟩
  have hsplit : raw.splitOn ',' = (raw.splitOn ',').dropLast ++ [last] :=
    (List.dropLast_append_getLast? last hlast).symm
  have hcolon : ':' ∉ last := by
    intro hmem
    rw [lastSegment, hlast] at h
    exact h (Text.mem_trim hmem (by decide))
  have hnone : Constraints.ofSegment? last = none := by
    rw [Constraints.ofSegment?, Text.cut_eq_none_iff.mpr hcolon]
    rfl
  rw [settledConstraints_eq, Constraints.ofText, hsplit, List.filterMap_append,
    List.filterMap_cons_none hnone, List.filterMap_nil, List.append_nil, ← hsplit]

theorem settledConstraints_of_suggested {types : List DocumentType} (h : Constraints.IsName name)
    (hsuggested : name ∈ suggestFields types raw) : settledConstraints raw = .ofText raw :=
  settledConstraints_of_not_mem fun hmem =>
    h.colon ((mem_suggestFields.mp hsuggested).2.1.subset hmem)

/-- **Filling in keeps the rest.** With a value typed behind the filled-in field, the text means the
constraints of all segments but the last one, with the value put under the field: it takes the place
of the field if the field was named there, else it comes last, and the constraints of other fields
stay, in their order. When the field was suggested for the text, these are all constraints that the
text had. The segment being typed is then the field with its colon. -/
theorem autofill_keeps (h : Constraints.IsName name) (hvalue : ',' ∉ value) (raw : Text) :
    let settled := settledConstraints raw
    let filled := Constraints.ofText (autofill raw name ++ value)
    filled = settled.put name value.trim ∧
    filled.get? name = some value.trim ∧
    filled.keys = (if name ∈ settled.keys then settled.keys else settled.keys ++ [name]) ∧
    filled.filter (·.1 ≠ name) = settled.filter (·.1 ≠ name) ∧
    (∀ types, name ∈ suggestFields types raw → settled = .ofText raw) ∧
    lastSegment (autofill raw name) = name ++ [':'] := by
  intro settled filled
  have hfilled : filled = settled.put name value.trim := ofText_autofill h hvalue
  refine ⟨hfilled, ?_, ?_, ?_, fun types => settledConstraints_of_suggested h,
    lastSegment_autofill h⟩
  · rw [hfilled, Entries.get?_put, if_pos rfl]
  · rw [hfilled, Entries.keys_put]
  · rw [hfilled, Entries.filter_put]

end

theorem autofill_keeps_articles :
    let raw : Text := "title: cats, category: pets, ti"
    Constraints.IsName "title" ∧ ',' ∉ (" dogs" : Text) ∧
      ("title" : Text) ∈ suggestFields [DocumentType.articles] raw ∧
      Constraints.ofText (autofill raw "title" ++ " dogs") =
        [(("title" : Text), ("dogs" : Text)), ("category", "pets")] ∧
      lastSegment (autofill raw "title") = "title:" := by
  intro raw
  have hname : Constraints.IsName "title" := Constraints.isName_of_graphQL (by decide)
  have hvalue : ',' ∉ (" dogs" : Text) := by decide
  have hsuggested : ("title" : Text) ∈ suggestFields [DocumentType.articles] raw := by decide
  obtain ⟨hfilled, -, -, -, hsettled, hlast⟩ := autofill_keeps hname hvalue raw
  refine ⟨hname, hvalue, hsuggested, ?_, hlast⟩
  rw [hfilled, hsettled _ hsuggested]
  decide

end FieldSearch
