import FieldSearch.Text.Basic
import Mathlib.Data.List.TakeWhile

/-!
# Spans of a text

The characters of one kind with which a text begins, and how far they go in a text of two parts.
-/

namespace FieldSearch

theorem takeWhile_append_rest {p : Char → Bool} (t : Text) {rest : Text}
    (hr : ∀ c ∈ rest.head?, p c = false) : (t ++ rest).takeWhile p = t.takeWhile p := by
  induction t with
  | nil =>
    cases rest with
    | nil => rfl
    | cons d rest => simp [hr d rfl]
  | cons c t ih =>
    rw [List.cons_append, List.takeWhile_cons, List.takeWhile_cons, ih]

theorem dropWhile_append_rest {p : Char → Bool} (t : Text) {rest : Text}
    (hr : ∀ c ∈ rest.head?, p c = false) : (t ++ rest).dropWhile p = t.dropWhile p ++ rest := by
  induction t with
  | nil =>
    cases rest with
    | nil => rfl
    | cons d rest => simp [hr d rfl]
  | cons c t ih =>
    rw [List.cons_append, List.dropWhile_cons, List.dropWhile_cons, ih]
    split <;> rfl

theorem takeWhile_append_stop {p : Char → Bool} {t rest : Text} (ht : ∀ c ∈ t, p c = true)
    (hr : ∀ c ∈ rest.head?, p c = false) : (t ++ rest).takeWhile p = t := by
  rw [takeWhile_append_rest t hr, List.takeWhile_eq_self_iff.mpr ht]

theorem dropWhile_append_stop {p : Char → Bool} {t rest : Text} (ht : ∀ c ∈ t, p c = true)
    (hr : ∀ c ∈ rest.head?, p c = false) : (t ++ rest).dropWhile p = rest := by
  rw [dropWhile_append_rest t hr, List.dropWhile_eq_nil_iff.mpr ht, List.nil_append]

theorem head_dropWhile {p : Char → Bool} {t : Text} : ∀ c ∈ (t.dropWhile p).head?, p c = false := by
  intro c hc
  have h := List.head?_dropWhile_not p t
  rw [Option.mem_def.mp hc] at h
  simpa using h

theorem takeWhile_append_of_mem {p : Char → Bool} {t : Text} (h : ∃ c ∈ t, p c = false)
    (rest : Text) : (t ++ rest).takeWhile p = t.takeWhile p := by
  induction t with
  | nil => simp at h
  | cons c t ih =>
    by_cases hc : p c = true
    · have ht : ∃ c ∈ t, p c = false := by
        obtain ⟨d, hd, hp⟩ := h
        rcases List.mem_cons.mp hd with rfl | hd
        · rw [hc] at hp; cases hp
        · exact ⟨d, hd, hp⟩
      simp [hc, ih ht]
    · simp [hc]

end FieldSearch
