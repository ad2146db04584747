import FieldSearch.Text.Basic

/-!
# Segments of a text

A text that is cut at every separator: no segment has a separator in it, and only the last one goes
on when the text does. Segments that are joined by the separator are cut apart again.
-/

namespace FieldSearch

theorem not_mem_of_mem_splitOn {c : Char} {text segment : Text} (h : segment ∈ text.splitOn c) :
    c ∉ segment := by
  induction text generalizing segment with
  | nil => simp [List.mem_singleton.mp h]
  | cons d rest ih =>
    rw [List.splitOn_cons_eq_if_modifyHead] at h
    by_cases hd : d = c
    · simp only [hd, beq_self_eq_true, if_true, List.mem_cons] at h
      rcases h with rfl | h
      · simp
      · exact ih h
    · obtain ⟨first, others, hsplit⟩ := List.exists_cons_of_ne_nil (List.splitOn_ne_nil c rest)
      simp only [beq_iff_eq, hd, if_false, hsplit, List.modifyHead_cons, List.mem_cons] at h
      rcases h with rfl | h
      · have hfirst : c ∉ first := ih (by simp [hsplit])
        simp [hfirst, Ne.symm hd]
      · exact ih (by simp [hsplit, h])

theorem splitOn_append_separator {c : Char} {first : Text} (h : c ∉ first) (rest : Text) :
    (first ++ c :: rest).splitOn c = first :: rest.splitOn c := by
  rw [List.splitOn_append_cons_self, List.splitOn_eq_singleton h]
  rfl

/-- Behind the last separator of a text its last segment goes on. -/
theorem exists_splitOn_append (c : Char) (text : Text) :
    ∃ segments last, c ∉ last ∧
      ∀ rest : Text, (text ++ rest).splitOn c = segments ++ (last ++ rest).splitOn c := by
  by_cases h : c ∈ text
  · obtain ⟨last, before, hreverse, hlast⟩ :=
      List.eq_append_cons_of_mem (List.mem_reverse.mpr h)
    have htext : text = before.reverse ++ c :: last.reverse := by
      simpa using congrArg List.reverse hreverse
    refine ⟨before.reverse.splitOn c, last.reverse, by simpa using hlast, fun rest => ?_⟩
    rw [htext, List.append_assoc, List.cons_append, List.splitOn_append_cons_self]
  · exact ⟨[], text, h, fun rest => rfl⟩

/-- The first segment begins with what stands in front of all separators. -/
theorem exists_splitOn_head {c : Char} {text : Text} (h : c ∉ text) (rest : Text) :
    ∃ more others, (text ++ rest).splitOn c = (text ++ more) :: others := by
  cases hcut : Text.cut c rest with
  | none =>
    have hnot := Text.cut_eq_none_iff.mp hcut
    exact ⟨rest, [], List.splitOn_eq_singleton (by simp [h, hnot])⟩
  | some parts =>
    obtain ⟨before, after⟩ := parts
    obtain ⟨rfl, hnot⟩ := Text.eq_of_cut hcut
    refine ⟨before, after.splitOn c, ?_⟩
    rw [← List.append_assoc, splitOn_append_separator (by simp [h, hnot])]

/-! ## Joined segments -/

theorem join_cons {c : Char} {first next : Text} {others : List Text} :
    Text.join [c] (first :: next :: others) = first ++ c :: Text.join [c] (next :: others) := by
  simp [Text.join]

theorem join_concat_append (c : Char) (segments : List Text) (last rest : Text) :
    Text.join [c] (segments ++ [last]) ++ rest = Text.join [c] (segments ++ [last ++ rest]) := by
  induction segments with
  | nil => simp [Text.join]
  | cons first others ih =>
    cases others with
    | nil => simp [Text.join]
    | cons next others =>
      simp only [List.cons_append, join_cons, List.append_assoc] at ih ⊢
      rw [ih]

end FieldSearch
