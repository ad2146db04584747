import FieldSearch.Proofs.Text.Segments

/-!
# Lines of a text

A line ends at a line feed, at a carriage return, or at both in this order. Texts that are put one
to a line are split again into the lines of each, unless one of them ends in a carriage return,
which would end its line together with the line feed behind it.
-/

namespace FieldSearch.Text

def splitLines : Text → List Text
  | [] => [[]]
  | '\r' :: '\n' :: rest => [] :: splitLines rest
  | c :: rest =>
    if c = '\n' ∨ c = '\r' then [] :: splitLines rest else (splitLines rest).modifyHead (c :: ·)

/-- No line ends in the text. -/
def IsUnbroken (text : Text) : Prop := '\n' ∉ text ∧ '\r' ∉ text

instance (text : Text) : Decidable text.IsUnbroken := inferInstanceAs (Decidable (_ ∧ _))

theorem isUnbroken_append {a b : Text} :
    IsUnbroken (a ++ b) ↔ IsUnbroken a ∧ IsUnbroken b := by
  simp only [IsUnbroken, List.mem_append, not_or]
  constructor
  · rintro ⟨⟨han, hbn⟩, har, hbr⟩
    exact ⟨⟨han, har⟩, hbn, hbr⟩
  · rintro ⟨⟨han, har⟩, hbn, hbr⟩
    exact ⟨⟨han, hbn⟩, har, hbr⟩

theorem splitLines_cons {c : Char} {rest : Text} (h : c = '\r' → rest.head? ≠ some '\n') :
    splitLines (c :: rest) =
      if c = '\n' ∨ c = '\r' then [] :: splitLines rest
      else (splitLines rest).modifyHead (c :: ·) := by
  rw [splitLines]
  rintro rest' rfl rfl
  exact h rfl rfl

theorem splitLines_ne_nil (text : Text) : splitLines text ≠ [] := by
  fun_induction splitLines text with
  | case1 => nofun
  | case2 rest ih => nofun
  | case3 c rest _ hc ih => nofun
  | case4 c rest _ hc ih => simpa using ih

theorem splitLines_of_isUnbroken {text : Text} (h : text.IsUnbroken) :
    splitLines text = [text] := by
  induction text with
  | nil => rfl
  | cons c rest ih =>
    obtain ⟨⟨hc, hrest⟩, hc', hrest'⟩ : (c ≠ '\n' ∧ '\n' ∉ rest) ∧ c ≠ '\r' ∧ '\r' ∉ rest := by
      simpa [IsUnbroken, eq_comm] using h
    rw [splitLines_cons fun heq => absurd heq hc', if_neg (by simp [hc, hc']), ih ⟨hrest, hrest'⟩]
    rfl

theorem length_splitLines_eq_one_iff {text : Text} :
    (splitLines text).length = 1 ↔ text.IsUnbroken := by
  constructor
  · intro h
    fun_induction splitLines text with
    | case1 => exact ⟨nofun, nofun⟩
    | case2 rest ih | case3 c rest _ hc ih =>
      have hpos := List.length_pos_iff.mpr (splitLines_ne_nil rest)
      rw [List.length_cons] at h
      omega
    | case4 c rest _ hc ih =>
      rw [List.length_modifyHead] at h
      obtain ⟨hfeed, hreturn⟩ := ih h
      rw [not_or] at hc
      exact ⟨by simp [Ne.symm hc.1, hfeed], by simp [Ne.symm hc.2, hreturn]⟩
  · intro h
    rw [splitLines_of_isUnbroken h]
    rfl

/-! ## Texts one to a line -/

theorem getLast?_of_cons {c d : Char} {rest : Text} (h : (c :: rest).getLast? ≠ some d) :
    rest.getLast? ≠ some d := by
  cases rest with
  | nil => nofun
  | cons e rest => simpa using h

theorem splitLines_append {a : Text} (h : a.getLast? ≠ some '\r') (b : Text) :
    splitLines (a ++ '\n' :: b) = splitLines a ++ splitLines b := by
  fun_induction splitLines a with
  | case1 => rfl
  | case2 rest ih =>
    show [] :: splitLines (rest ++ '\n' :: b) = _
    rw [ih (getLast?_of_cons (getLast?_of_cons h))]
    rfl
  | case3 c rest hnot hc ih | case4 c rest hnot hc ih =>
    have hhead : c = '\r' → (rest ++ '\n' :: b).head? ≠ some '\n' := by
      rintro rfl hfeed
      cases rest with
      | nil => exact h rfl
      | cons d rest =>
        cases hfeed
        exact hnot rest rfl rfl
    obtain ⟨first, others, hsplit⟩ := List.exists_cons_of_ne_nil (splitLines_ne_nil rest)
    rw [List.cons_append, splitLines_cons hhead, ih (getLast?_of_cons h), hsplit]
    simp [hc]

theorem splitLines_lines {parts : List Text} (hne : parts ≠ [])
    (h : ∀ part ∈ parts, part.getLast? ≠ some '\r') :
    splitLines (lines parts) = parts.flatMap splitLines := by
  induction parts with
  | nil => exact absurd rfl hne
  | cons first others ih =>
    cases others with
    | nil => simp [lines, join]
    | cons next others =>
      obtain ⟨hfirst, hothers⟩ := List.forall_mem_cons.mp h
      have hjoin : lines (first :: next :: others) = first ++ '\n' :: lines (next :: others) :=
        join_cons
      rw [hjoin, splitLines_append hfirst, ih (List.cons_ne_nil _ _) hothers]
      rfl

theorem flatMap_splitLines_of_isUnbroken {parts : List Text} (h : ∀ part ∈ parts, part.IsUnbroken) :
    parts.flatMap splitLines = parts := by
  induction parts with
  | nil => rfl
  | cons first others ih =>
    obtain ⟨hfirst, hothers⟩ := List.forall_mem_cons.mp h
    rw [List.flatMap_cons, splitLines_of_isUnbroken hfirst, ih hothers]
    rfl

theorem length_flatMap_splitLines (parts : List Text) :
    parts.length ≤ (parts.flatMap splitLines).length ∧
      ((parts.flatMap splitLines).length = parts.length → ∀ part ∈ parts, part.IsUnbroken) := by
  induction parts with
  | nil => exact ⟨Nat.le_refl 0, nofun⟩
  | cons first others ih =>
    obtain ⟨hle, heq⟩ := ih
    have hfirst : 0 < (splitLines first).length := List.length_pos_iff.mpr (splitLines_ne_nil first)
    rw [List.flatMap_cons, List.length_append, List.length_cons]
    refine ⟨by omega, ?_⟩
    intro hlength
    exact List.forall_mem_cons.mpr
      ⟨length_splitLines_eq_one_iff.mp (by omega), heq (by omega)⟩

end FieldSearch.Text
