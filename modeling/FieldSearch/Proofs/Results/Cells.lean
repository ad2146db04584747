import FieldSearch.Proofs.Text.Lines
import FieldSearch.Results.Table

/-!
# Cells of a row

A pipe ends a cell unless an odd number of backslashes stands right before it. Escaping puts one
backslash before every pipe, so a pipe is hidden exactly if it had an even number of them before it.
A text that is put into a row as it is hides exactly its other pipes.
-/

namespace FieldSearch.Table

/-- The number of backslashes right behind a character that has `n` of them right before it. -/
def slashesAfter (n : Nat) (c : Char) : Nat := if c = '\\' then n + 1 else 0

/-- The number of backslashes at the end of a text that has `n` of them right before it. -/
def slashes (n : Nat) (text : Text) : Nat := text.foldl slashesAfter n

/-- The parts of a text between the pipes with an even number of backslashes right before them;
`n` backslashes stand right before the text. -/
def splitCells (n : Nat) : Text → List Text
  | [] => [[]]
  | c :: rest =>
    if c = '|' ∧ n % 2 = 0 then [] :: splitCells 0 rest
    else (splitCells (slashesAfter n c) rest).modifyHead (c :: ·)

/-- Every pipe has a number of backslashes with this remainder right before it. -/
def PipesBehind (remainder n : Nat) (text : Text) : Prop :=
  ∀ before after, text = before ++ '|' :: after → slashes n before % 2 = remainder

/-- No pipe of the text ends a cell. -/
def IsCell (n : Nat) (text : Text) : Prop := (splitCells n text).length = 1

instance (n : Nat) (text : Text) : Decidable (IsCell n text) := inferInstanceAs (Decidable (_ = _))

section

variable {n : Nat} {c : Char} {text rest : Text}

theorem splitCells_ne_nil (n : Nat) (text : Text) : splitCells n text ≠ [] := by
  induction text generalizing n with
  | nil => nofun
  | cons c rest ih =>
    rw [splitCells]
    split
    · nofun
    · simpa using ih _

theorem length_splitCells_pos (n : Nat) (text : Text) : 0 < (splitCells n text).length :=
  List.length_pos_iff.mpr (splitCells_ne_nil n text)

/-! ## Pipes that end no cell -/

theorem isCell_cons :
    IsCell n (c :: rest) ↔ (c = '|' → n % 2 = 1) ∧ IsCell (slashesAfter n c) rest := by
  rw [IsCell, splitCells]
  by_cases hends : c = '|' ∧ n % 2 = 0
  · have hpos := length_splitCells_pos 0 rest
    rw [if_pos hends, List.length_cons]
    refine iff_of_false (by omega) ?_
    rintro ⟨hodd, -⟩
    have := hodd hends.1
    omega
  · rw [if_neg hends, List.length_modifyHead]
    refine ⟨fun h => ⟨fun hc => ?_, h⟩, And.right⟩
    have heven : n % 2 ≠ 0 := fun heven => hends ⟨hc, heven⟩
    omega

theorem pipesBehind_cons {remainder : Nat} : PipesBehind remainder n (c :: rest) ↔
    (c = '|' → n % 2 = remainder) ∧ PipesBehind remainder (slashesAfter n c) rest := by
  constructor
  · intro h
    refine ⟨?_, ?_⟩
    · rintro rfl
      exact h [] rest rfl
    · rintro before after rfl
      exact h (c :: before) after rfl
  · rintro ⟨hfirst, hrest⟩ before after heq
    cases before with
    | nil =>
      obtain ⟨rfl, rfl⟩ := List.cons.inj heq
      exact hfirst rfl
    | cons d before =>
      obtain ⟨rfl, rfl⟩ := List.cons.inj heq
      exact hrest before after rfl

theorem isCell_iff : IsCell n text ↔ PipesBehind 1 n text := by
  induction text generalizing n with
  | nil => exact iff_of_true rfl (by simp [PipesBehind])
  | cons c rest ih => rw [isCell_cons, pipesBehind_cons, ih]

theorem isCell_of_not_mem (h : '|' ∉ text) : IsCell n text := by
  rw [isCell_iff]
  rintro before after rfl
  exact absurd (List.mem_append_right before List.mem_cons_self) h

/-! ## Escaped texts -/

theorem cell_cons (c : Char) (rest : Text) : cell (c :: rest) =
    (if c = '|' then ['\\', '|'] else if c = '\n' then [' '] else [c]) ++ cell rest := by
  by_cases hpipe : c = '|'
  · subst hpipe
    rfl
  · by_cases hfeed : c = '\n'
    · subst hfeed
      rfl
    · simp [cell, Text.replace, hpipe, hfeed]

theorem isCell_cell_iff : IsCell n (cell text) ↔ PipesBehind 0 n text := by
  induction text generalizing n with
  | nil => exact iff_of_true rfl (by simp [PipesBehind])
  | cons c rest ih =>
    rw [cell_cons, pipesBehind_cons]
    by_cases hpipe : c = '|'
    · subst hpipe
      simp only [if_true, List.cons_append, List.nil_append]
      rw [isCell_cons, isCell_cons, ← ih]
      have hparity : (n + 1) % 2 = 1 ↔ n % 2 = 0 := by omega
      simp [slashesAfter, hparity]
    · by_cases hfeed : c = '\n'
      · subst hfeed
        simp only [hpipe, if_false, if_true, List.cons_append, List.nil_append]
        rw [isCell_cons, ← ih]
        simp [slashesAfter]
      · simp only [hpipe, hfeed, if_false, List.cons_append, List.nil_append]
        rw [isCell_cons, ← ih]
        simp [hpipe]

theorem isUnbroken_cell_iff : Text.IsUnbroken (cell text) ↔ '\r' ∉ text := by
  induction text with
  | nil => exact iff_of_true ⟨nofun, nofun⟩ nofun
  | cons c rest ih =>
    rw [cell_cons, Text.isUnbroken_append, ih]
    by_cases hpipe : c = '|'
    · subst hpipe
      simp [Text.IsUnbroken]
    · by_cases hfeed : c = '\n'
      · subst hfeed
        simp [Text.IsUnbroken]
      · simp [Text.IsUnbroken, hpipe, hfeed, Ne.symm hfeed]

/-- What a text in a table shows: an escaped pipe is a pipe. -/
def shown : Text → Text
  | '\\' :: '|' :: rest => '|' :: shown rest
  | c :: rest => c :: shown rest
  | [] => []

theorem shown_cons (h : c = '\\' → rest.head? ≠ some '|') :
    shown (c :: rest) = c :: shown rest := by
  rw [shown]
  rintro rest' rfl rfl
  exact h rfl rfl

theorem head?_cell_ne (text : Text) : (cell text).head? ≠ some '|' := by
  cases text with
  | nil => nofun
  | cons c rest =>
    rw [cell_cons]
    by_cases hpipe : c = '|'
    · simp [hpipe]
    · by_cases hfeed : c = '\n' <;> simp [hpipe, hfeed]

/-- A cell shows its text, with blanks for line feeds. -/
theorem shown_cell (text : Text) : shown (cell text) = text.replace '\n' " " := by
  induction text with
  | nil => rfl
  | cons c rest ih =>
    have hreplace : Text.replace (c :: rest) '\n' " " =
        (if c = '\n' then [' '] else [c]) ++ Text.replace rest '\n' " " := rfl
    rw [cell_cons, hreplace, ← ih]
    by_cases hpipe : c = '|'
    · subst hpipe
      rfl
    · have hcons : ∀ d : Char, shown (d :: cell rest) = d :: shown (cell rest) :=
        fun d => shown_cons fun _ => head?_cell_ne rest
      by_cases hfeed : c = '\n'
      · subst hfeed
        exact hcons ' '
      · simp only [hpipe, hfeed, if_false]
        exact hcons c

/-! ## Texts in a row -/

theorem length_splitCells_append (n : Nat) (text rest : Text) :
    (splitCells n (text ++ rest)).length + 1 =
      (splitCells n text).length + (splitCells (slashes n text) rest).length := by
  induction text generalizing n with
  | nil => exact Nat.add_comm ..
  | cons c text ih =>
    rw [List.cons_append, splitCells, splitCells]
    by_cases hends : c = '|' ∧ n % 2 = 0
    · have hnone : slashesAfter n c = 0 := if_neg (by simp [hends.1])
      rw [if_pos hends, if_pos hends, List.length_cons, List.length_cons, slashes,
        List.foldl_cons, hnone]
      have := ih 0
      rw [slashes] at this
      omega
    · rw [if_neg hends, if_neg hends, List.length_modifyHead, List.length_modifyHead]
      exact ih _

theorem splitCells_append_of_isCell (h : IsCell n text) (rest : Text) :
    splitCells n (text ++ rest) =
      (splitCells (slashes n text) rest).modifyHead (text ++ ·) := by
  induction text generalizing n with
  | nil =>
    obtain ⟨first, others, hsplit⟩ := List.exists_cons_of_ne_nil (splitCells_ne_nil n rest)
    show splitCells n rest = _
    rw [slashes, List.foldl_nil, hsplit]
    rfl
  | cons c text ih =>
    obtain ⟨hodd, hcell⟩ := isCell_cons.mp h
    have hends : ¬ (c = '|' ∧ n % 2 = 0) := by
      rintro ⟨hc, heven⟩
      have := hodd hc
      omega
    rw [List.cons_append, splitCells, if_neg hends, ih hcell, List.modifyHead_modifyHead]
    rfl

end

/-- The cells of a row, each between two blanks and with a pipe behind it. -/
def rowTail : List Text → Text
  | [] => []
  | cell :: cells => ' ' :: (cell ++ ' ' :: '|' :: rowTail cells)

def padded (cell : Text) : Text := ' ' :: (cell ++ [' '])

theorem splitCells_blank (n : Nat) (text : Text) :
    splitCells n (' ' :: text) = (splitCells 0 text).modifyHead (' ' :: ·) := rfl

theorem splitCells_end (n : Nat) (rest : Text) :
    splitCells n (' ' :: '|' :: rest) = [' '] :: splitCells 0 rest := rfl

theorem length_splitCells_rowTail_cons (cell : Text) (cells : List Text) :
    (splitCells 0 (rowTail (cell :: cells))).length =
      (splitCells 0 cell).length + (splitCells 0 (rowTail cells)).length := by
  have happend := length_splitCells_append 0 cell (' ' :: '|' :: rowTail cells)
  rw [splitCells_end, List.length_cons] at happend
  rw [rowTail, splitCells_blank, List.length_modifyHead]
  omega

theorem length_splitCells_rowTail (cells : List Text) :
    cells.length + 1 ≤ (splitCells 0 (rowTail cells)).length ∧
      ((splitCells 0 (rowTail cells)).length = cells.length + 1 →
        ∀ cell ∈ cells, IsCell 0 cell) := by
  induction cells with
  | nil => exact ⟨Nat.le_refl 1, fun _ => nofun⟩
  | cons cell cells ih =>
    obtain ⟨hle, heq⟩ := ih
    have hpos := length_splitCells_pos 0 cell
    rw [length_splitCells_rowTail_cons, List.length_cons]
    refine ⟨by omega, ?_⟩
    intro hlength
    have hcell : (splitCells 0 cell).length = 1 := by omega
    exact List.forall_mem_cons.mpr ⟨hcell, heq (by omega)⟩

theorem splitCells_rowTail {cells : List Text} (h : ∀ cell ∈ cells, IsCell 0 cell) :
    splitCells 0 (rowTail cells) = cells.map padded ++ [[]] := by
  induction cells with
  | nil => rfl
  | cons cell cells ih =>
    obtain ⟨hcell, hcells⟩ := List.forall_mem_cons.mp h
    rw [rowTail, splitCells_blank, splitCells_append_of_isCell hcell, splitCells_end, ih hcells]
    rfl

/-- A row is split into its cells exactly if no pipe in them ends one. -/
theorem splitCells_row_iff {cells : List Text} :
    splitCells 0 ('|' :: rowTail cells) = [] :: (cells.map padded ++ [[]]) ↔
      ∀ cell ∈ cells, IsCell 0 cell := by
  have hrow : splitCells 0 ('|' :: rowTail cells) = [] :: splitCells 0 (rowTail cells) := rfl
  rw [hrow]
  constructor
  · intro h
    apply (length_splitCells_rowTail cells).2
    rw [(List.cons.inj h).2]
    simp
  · intro h
    rw [splitCells_rowTail h]

end FieldSearch.Table
