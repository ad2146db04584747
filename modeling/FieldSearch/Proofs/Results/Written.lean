import FieldSearch.Proofs.Json.Writable
import FieldSearch.Results.Record

/-!
# What a record writes

A record writes the identifier and the type of its document, and what its preview shows. It has a
text for each of these values unless a whole number in one of them has too many digits.
-/

namespace FieldSearch

open Entries (get?)

/-! ## Previews -/

namespace Preview

/-- The values that the preview of a summary writes. -/
def writtenValues : Json → List Json
  | .array (.object block :: _) => [(get? "text" block).getD .null]
  | .array (first :: _) => [first]
  | .bool b => [.bool b]
  | .int n => [.int n]
  | .real x => [.real x]
  | .null | .text _ | .array [] | .object _ => []

theorem writtenValues_writable {summary : Json} (h : summary.isWritable = true) :
    ∀ value ∈ writtenValues summary, value.isWritable = true := by
  have hone : ∀ {value : Json}, value.isWritable = true →
      ∀ v ∈ [value], v.isWritable = true := by
    rintro value hvalue v hv
    rw [List.mem_singleton.mp hv]
    exact hvalue
  match summary with
  | .null | .text _ | .array [] | .object _ => nofun
  | .bool _ | .int _ | .real _ => exact hone h
  | .array (first :: rest) =>
    have hfirst : first.isWritable = true :=
      Json.isWritable_of_mem h first (List.mem_cons_self ..)
    cases first with
    | object block => exact hone (Json.isWritable_getD_get? hfirst "text")
    | _ => exact hone hfirst

theorem ofJson_cases (summary : Json) :
    (∃ preview, ofJson summary = .ok preview ∧
      ∀ value ∈ writtenValues summary, value.isWritable = true) ∨
    (ofJson summary = .error .tooManyDigits ∧
      ∃ value ∈ writtenValues summary, value.isWritable = false) := by
  -- at most one value is written, under some constructor of a preview
  have hone : ∀ {value : Json} {write : Json → Except Crash Text} {text : Json → Text}
      {make : Text → Preview}, (value.isWritable = true → write value = .ok (text value)) →
      (value.isWritable = false → write value = .error .tooManyDigits) →
      ofJson summary = (write value >>= fun t => pure (make t)) → writtenValues summary = [value] →
      (∃ preview, ofJson summary = .ok preview ∧
        ∀ value ∈ writtenValues summary, value.isWritable = true) ∨
      (ofJson summary = .error .tooManyDigits ∧
        ∃ value ∈ writtenValues summary, value.isWritable = false) := by
    intro value write text make hok herror hread hvalues
    rw [hread, hvalues]
    cases h : value.isWritable with
    | true => exact Or.inl ⟨make (text value), by rw [hok h]; rfl, by simpa using h⟩
    | false => exact Or.inr ⟨by rw [herror h]; rfl, by simpa using h⟩
  have hwritten := @Json.written_of_isWritable
  have hlong := @Json.written_of_not_isWritable
  match summary with
  | .null | .text _ | .array [] | .object _ => exact Or.inl ⟨_, rfl, nofun⟩
  | .bool _ | .int _ | .real _ => exact hone hwritten hlong rfl rfl
  | .array (.object _ :: _) =>
    exact hone Json.writtenOrEmpty_of_isWritable Json.writtenOrEmpty_of_not_isWritable rfl rfl
  | .array (.null :: _) | .array (.bool _ :: _) | .array (.int _ :: _) | .array (.real _ :: _)
  | .array (.text _ :: _) | .array (.array _ :: _) => exact hone hwritten hlong rfl rfl

end Preview

/-! ## Records -/

namespace Record

variable (node details : Entries Json) (id : Json)

/-- The values that the record of a node writes. -/
def writtenValues : List Json :=
  id :: (get? "type" details).getD .null ::
    Preview.writtenValues ((get? "summary" node).getD .null)

theorem ofDetails_cases :
    (∃ preview, Preview.ofJson ((get? "summary" node).getD .null) = .ok preview ∧
      ofDetails node details id = .ok
        { id := id.asText
          type := ((get? "type" details).getD .null).asTextOrEmpty
          published := (get? "lastPublicationDate" details).getD .null
          preview } ∧
      ∀ value ∈ writtenValues node details id, value.isWritable = true) ∨
    (ofDetails node details id = .error .tooManyDigits ∧
      ∃ value ∈ writtenValues node details id, value.isWritable = false) := by
  rw [writtenValues, ofDetails]
  cases hid : id.isWritable with
  | false =>
    refine Or.inr ⟨?_, id, List.mem_cons_self .., hid⟩
    rw [Json.written_of_not_isWritable hid]
    rfl
  | true =>
    rw [Json.written_of_isWritable hid]
    cases htype : ((get? "type" details).getD .null).isWritable with
    | false =>
      refine Or.inr ⟨?_, _, List.mem_cons_of_mem _ (List.mem_cons_self ..), htype⟩
      rw [Json.writtenOrEmpty_of_not_isWritable htype]
      rfl
    | true =>
      rw [Json.writtenOrEmpty_of_isWritable htype]
      rcases Preview.ofJson_cases ((get? "summary" node).getD .null) with
        ⟨preview, hpreview, hall⟩ | ⟨hpreview, value, hvalue, hlong⟩
      · refine Or.inl ⟨preview, hpreview, ?_, ?_⟩
        · rw [hpreview]
          rfl
        · exact List.forall_mem_cons.mpr ⟨hid, List.forall_mem_cons.mpr ⟨htype, hall⟩⟩
      · refine Or.inr ⟨?_, value, List.mem_cons_of_mem _ (List.mem_cons_of_mem _ hvalue), hlong⟩
        rw [hpreview]
        rfl

variable {node details : Entries Json} {id : Json}

theorem writtenValues_writable (hnode : Json.membersWritable node = true)
    (hdetails : Json.membersWritable details = true) (hid : get? "id" details = some id) :
    ∀ value ∈ writtenValues node details id, value.isWritable = true :=
  List.forall_mem_cons.mpr ⟨Json.isWritable_of_get? hdetails hid,
    List.forall_mem_cons.mpr ⟨Json.isWritable_getD_get? hdetails "type",
      Preview.writtenValues_writable (Json.isWritable_getD_get? hnode "summary")⟩⟩

end Record

end FieldSearch
