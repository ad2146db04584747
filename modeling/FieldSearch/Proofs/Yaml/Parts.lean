import FieldSearch.Yaml.Document
import Mathlib.Data.Fintype.Card

/-!
# Parts that hold themselves

A value holds the whole numbers that are written in it, those of the parts that it shares, and so
on. A document is shown without opening a part within itself, and yet all these numbers are looked
at: a way to a part that comes through another one twice can be cut short. There is one step for
each part, and no part is open twice, so the steps never run out.
-/

namespace FieldSearch.Yaml

namespace Value

variable {ι : Type}

theorem isWritableWith_iff {part : ι → Bool} {v : Value ι} :
    v.isWritableWith part = true ↔
      (∀ n, int n ∈ v.leaves → Number.isWritable n = true) ∧
        ∀ name, shared name ∈ v.leaves → part name = true := by
  rw [isWritableWith, List.all_eq_true]
  constructor
  · intro h
    exact ⟨fun n => h (int n), fun name => h (shared name)⟩
  · rintro ⟨hints, hparts⟩ leaf hleaf
    cases leaf with
    | int n => exact hints n hleaf
    | shared name => exact hparts name hleaf
    | _ => rfl

end Value

namespace Document

variable {d : Document} {opened : List (Fin d.size)} {v : d.Inner} {name : Fin d.size}

/-! ## What is held -/

/-- A part is met in a value, and on the way to it none of the open parts. -/
inductive Meets (d : Document) (opened : List (Fin d.size)) (v : d.Inner) : Fin d.size → Prop where
  | here {name : Fin d.size} : .shared name ∈ v.leaves → name ∉ opened → Meets d opened v name
  | inside {outer name : Fin d.size} : Meets d opened v outer →
      .shared name ∈ (d.part outer).value.leaves → name ∉ opened → Meets d opened v name

/-- A whole number stands in a value, or in a part that is met in it. -/
def Holds (d : Document) (v : d.Inner) (n : Int) : Prop :=
  .int n ∈ v.leaves ∨ ∃ name, d.Meets [] v name ∧ .int n ∈ (d.part name).value.leaves

theorem Meets.of_part {inner : Fin d.size} (hname : .shared name ∈ v.leaves) (hopen : name ∉ opened)
    (h : d.Meets (name :: opened) (d.part name).value inner) : d.Meets opened v inner := by
  induction h with
  | here hleaf hnot => exact .inside (.here hname hopen) hleaf (List.not_mem_of_not_mem_cons hnot)
  | inside _ hleaf hnot ih => exact .inside ih hleaf (List.not_mem_of_not_mem_cons hnot)

/-- The way to a part begins with a part that it does not come back to. -/
theorem Meets.first {inner : Fin d.size} (h : d.Meets opened v inner) :
    ∃ name, .shared name ∈ v.leaves ∧ name ∉ opened ∧
      (inner = name ∨ d.Meets (name :: opened) (d.part name).value inner) := by
  induction h with
  | here hleaf hnot => exact ⟨_, hleaf, hnot, .inl rfl⟩
  | @inside outer inner _ hleaf hnot ih =>
    obtain ⟨name, hname, hopen, hway⟩ := ih
    refine ⟨name, hname, hopen, ?_⟩
    by_cases hback : inner = name
    · exact .inl hback
    · have hnot' : inner ∉ name :: opened := List.not_mem_cons_of_ne_of_not_mem hback hnot
      obtain rfl | hway := hway
      · exact .inr (.here hleaf hnot')
      · exact .inr (.inside hway hleaf hnot')

/-! ## Steps -/

/-- No part is open twice, and there is a step for each part that is not open. -/
structure Suffices (d : Document) (steps : Nat) (opened : List (Fin d.size)) : Prop where
  nodup : opened.Nodup
  steps : steps + opened.length = d.size

theorem suffices_nil (d : Document) : d.Suffices d.size [] := ⟨List.nodup_nil, rfl⟩

theorem Suffices.cons {steps : Nat} (h : d.Suffices (steps + 1) opened) (hopen : name ∉ opened) :
    d.Suffices steps (name :: opened) where
  nodup := List.nodup_cons.mpr ⟨hopen, h.nodup⟩
  steps := by
    have hsteps := h.steps
    rw [List.length_cons]
    omega

/-- When no steps are left, all parts are open. -/
theorem Suffices.mem_opened (h : d.Suffices 0 opened) (name : Fin d.size) : name ∈ opened := by
  by_cases hopen : name ∈ opened
  · exact hopen
  · have hnodup : (name :: opened).Nodup := List.nodup_cons.mpr ⟨hopen, h.nodup⟩
    have hlength := hnodup.length_le_card
    have hall := h.steps
    rw [List.length_cons, Fintype.card_fin] at hlength
    omega

/-- More steps than there are show a part no further. -/
theorem partText_add {steps : Nat} (h : d.Suffices steps opened) (more : Nat) :
    d.partText (steps + more) opened = d.partText steps opened := by
  induction steps generalizing opened with
  | zero =>
    funext name
    have hopen := h.mem_opened name
    cases more with
    | zero => rfl
    | succ more => rw [Nat.zero_add, partText, partText, if_pos hopen]
  | succ steps ih =>
    funext name
    rw [Nat.add_right_comm, partText, partText]
    split
    · rfl
    · rename_i hopen
      rw [ih (h.cons hopen)]

theorem isWritableWith_iff_meets {steps : Nat} (h : d.Suffices steps opened) :
    v.isWritableWith (d.isPartWritable steps opened) = true ↔
      (∀ n, .int n ∈ v.leaves → Number.isWritable n = true) ∧
        ∀ name, d.Meets opened v name →
          ∀ n, .int n ∈ (d.part name).value.leaves → Number.isWritable n = true := by
  induction steps generalizing opened v with
  | zero =>
    rw [Value.isWritableWith_iff]
    refine and_congr_right fun _ => iff_of_true (fun _ _ => rfl) ?_
    intro name hmeets
    obtain ⟨first, -, hopen, -⟩ := hmeets.first
    exact absurd (h.mem_opened first) hopen
  | succ steps ih =>
    rw [Value.isWritableWith_iff]
    refine and_congr_right fun _ => ⟨fun hparts inner hmeets => ?_, fun hmet name hname => ?_⟩
    · obtain ⟨name, hname, hopen, hway⟩ := hmeets.first
      have hpart := hparts name hname
      rw [isPartWritable, decide_eq_false hopen, Bool.false_or, ih (h.cons hopen)] at hpart
      obtain rfl | hway := hway
      · exact hpart.1
      · exact hpart.2 inner hway
    · rw [isPartWritable, Bool.or_eq_true, decide_eq_true_iff]
      by_cases hopen : name ∈ opened
      · exact .inl hopen
      · refine .inr ((ih (h.cons hopen)).mpr ⟨hmet name (.here hname hopen), ?_⟩)
        exact fun inner hmeets => hmet inner (hmeets.of_part hname hopen)

/-- A value can be shown exactly if all whole numbers that it holds can. -/
theorem isWritable_iff : d.isWritable v = true ↔ ∀ n, d.Holds v n → Number.isWritable n = true := by
  rw [isWritable, isWritableWith_iff_meets d.suffices_nil]
  constructor
  · rintro ⟨hints, hparts⟩ n (hleaf | ⟨name, hmeets, hleaf⟩)
    · exact hints n hleaf
    · exact hparts name hmeets n hleaf
  · intro h
    exact ⟨fun n hleaf => h n (.inl hleaf),
      fun name hmeets n hleaf => h n (.inr ⟨name, hmeets, hleaf⟩)⟩

end Document

end FieldSearch.Yaml
