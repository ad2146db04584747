import FieldSearch.Proofs.Text.Spans
import FieldSearch.Text.Blank

/-!
# Trimmed texts

Trimming gives a text without a blank at either end, and changes no such text.
-/

namespace FieldSearch.Text

/-- Neither end is blank. -/
structure Trimmed (text : Text) : Prop where
  head : ∀ c ∈ text.head?, isBlank c = false
  last : ∀ c ∈ text.getLast?, isBlank c = false

theorem getLast?_trimRight (text : Text) : ∀ c ∈ (trimRight text).getLast?, isBlank c = false := by
  intro c hc
  rw [trimRight, List.getLast?_reverse] at hc
  exact head_dropWhile c hc

theorem isPrefix_trimRight (text : Text) : trimRight text <+: text := by
  have h := (List.dropWhile_suffix isBlank (l := text.reverse)).reverse
  rwa [List.reverse_reverse] at h

theorem trim_trimmed (text : Text) : Trimmed (trim text) := by
  constructor
  · intro c hc
    -- what is left of a trimmed beginning begins with the same character
    obtain ⟨rest, hrest⟩ := isPrefix_trimRight (trimLeft text)
    refine head_dropWhile (t := text) c ?_
    rw [trim] at hc
    rw [show text.dropWhile isBlank = trimLeft text from rfl, ← hrest, List.head?_append,
      Option.mem_def.mp hc]
    rfl
  · exact getLast?_trimRight (trimLeft text)

theorem dropWhile_isBlank_eq_self {text : Text} (h : ∀ c ∈ text.head?, isBlank c = false) :
    text.dropWhile isBlank = text := by
  cases text with
  | nil => rfl
  | cons c rest => simp [h c rfl]

theorem Trimmed.trim_eq {text : Text} (h : Trimmed text) : trim text = text := by
  rw [trim, trimLeft, dropWhile_isBlank_eq_self h.head, trimRight, dropWhile_isBlank_eq_self,
    List.reverse_reverse]
  intro c hc
  rw [List.head?_reverse] at hc
  exact h.last c hc

theorem trim_cons_of_isBlank {c : Char} (h : isBlank c = true) (text : Text) :
    trim (c :: text) = trim text := by
  rw [trim, trimLeft, List.dropWhile_cons_of_pos h]
  rfl

theorem mem_of_mem_trim {c : Char} {text : Text} (h : c ∈ trim text) : c ∈ text := by
  have hleft : c ∈ trimLeft text := (isPrefix_trimRight _).subset h
  exact (List.dropWhile_suffix isBlank).subset hleft

theorem mem_dropWhile_isBlank {c : Char} {text : Text} (h : c ∈ text) (hc : isBlank c = false) :
    c ∈ text.dropWhile isBlank := by
  rw [← List.takeWhile_append_dropWhile (p := isBlank) (l := text), List.mem_append] at h
  refine h.resolve_left fun hblank => ?_
  rw [List.mem_takeWhile_imp hblank] at hc
  cases hc

theorem mem_trim {c : Char} {text : Text} (h : c ∈ text) (hc : isBlank c = false) :
    c ∈ trim text := by
  rw [trim, trimRight, List.mem_reverse]
  exact mem_dropWhile_isBlank (List.mem_reverse.mpr (mem_dropWhile_isBlank h hc)) hc

theorem trim_eq_nil_iff {text : Text} : text.trim = [] ↔ ∀ c ∈ text, isBlank c = true := by
  induction text with
  | nil => exact iff_of_true rfl nofun
  | cons c rest ih =>
    by_cases hblank : isBlank c = true
    · rw [trim_cons_of_isBlank hblank, List.forall_mem_cons]
      exact ih.trans (and_iff_right hblank).symm
    · rw [trim, trimLeft, List.dropWhile_cons_of_neg hblank, trimRight,
        List.reverse_eq_nil_iff, List.dropWhile_eq_nil_iff]
      simp only [List.mem_reverse]

end FieldSearch.Text
