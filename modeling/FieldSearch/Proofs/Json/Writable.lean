import FieldSearch.Error

/-!
# Json that can be written

A value can be written if no whole number in it has too many digits, and then so can its parts.
-/

namespace FieldSearch.Json

open Entries (get?)

theorem isWritable_of_mem {items : List Json} (h : areWritable items = true) :
    ∀ item ∈ items, item.isWritable = true := by
  induction items with
  | nil => nofun
  | cons item rest ih =>
    rw [areWritable, Bool.and_eq_true] at h
    exact List.forall_mem_cons.mpr ⟨h.1, ih h.2⟩

theorem isWritable_of_get? {members : Entries Json} (h : membersWritable members = true)
    {key : Text} {value : Json} (hvalue : get? key members = some value) :
    value.isWritable = true := by
  induction members with
  | nil => cases hvalue
  | cons member rest ih =>
    rw [membersWritable, Bool.and_eq_true] at h
    rw [get?] at hvalue
    split at hvalue
    · cases hvalue
      exact h.1
    · exact ih h.2 hvalue

theorem isWritable_of_member? {value member : Json} (h : value.isWritable = true) {key : Text}
    (hmember : value.member? key = some member) : member.isWritable = true := by
  cases value with
  | object members => exact isWritable_of_get? h hmember
  | _ => cases hmember

theorem isWritable_getD_get? {members : Entries Json} (h : membersWritable members = true)
    (key : Text) : ((get? key members).getD .null).isWritable = true := by
  cases hvalue : get? key members with
  | none => rfl
  | some value => exact isWritable_of_get? h hvalue

variable {value : Json}

theorem written_of_isWritable (h : value.isWritable = true) : value.written = .ok value.asText :=
  if_pos h

theorem written_of_not_isWritable (h : value.isWritable = false) :
    value.written = .error .tooManyDigits :=
  if_neg (Bool.not_eq_true _ ▸ h)

theorem isWritable_of_written {text : Text} (h : value.written = .ok text) :
    value.isWritable = true := by
  cases hwritable : value.isWritable with
  | true => rfl
  | false => rw [written_of_not_isWritable hwritable] at h; cases h

theorem writtenOrEmpty_of_isWritable (h : value.isWritable = true) :
    value.writtenOrEmpty = .ok value.asTextOrEmpty :=
  if_pos h

theorem writtenOrEmpty_of_not_isWritable (h : value.isWritable = false) :
    value.writtenOrEmpty = .error .tooManyDigits :=
  if_neg (Bool.not_eq_true _ ▸ h)

end FieldSearch.Json
