import FieldSearch.Proofs.Results.Cells
import FieldSearch.Proofs.Results.Rendering
import FieldSearch.Proofs.Text.Digits

/-!
# Layout of the table

A table has four lines of heading and one for each record. The rows are as long as they should be if
nothing in a record ends a line, and they have four cells if no pipe in them ends one. Labels and
types are escaped, but for carriage returns and for backslashes that stand before a pipe; an
identifier goes into its row as it is.
-/

namespace FieldSearch

/-! ## Ages -/

/-- Neither a pipe nor the end of a line. -/
def IsWord (text : Text) : Prop := ∀ c ∈ text, c ≠ '|' ∧ c ≠ '\n' ∧ c ≠ '\r'

instance (text : Text) : Decidable (IsWord text) := List.decidableBAll _ text

theorem isWord_append {a b : Text} (ha : IsWord a) (hb : IsWord b) : IsWord (a ++ b) :=
  List.forall_mem_append.mpr ⟨ha, hb⟩

theorem isWord_ofNat (n : Nat) : IsWord (Text.ofNat n) := by
  intro c hc
  have hdigit := Text.isDigit_of_mem_ofNat hc
  refine ⟨?_, ?_, ?_⟩ <;> rintro rfl <;> cases hdigit

theorem IsWord.isUnbroken {text : Text} (h : IsWord text) : text.IsUnbroken :=
  ⟨fun hmem => (h _ hmem).2.1 rfl, fun hmem => (h _ hmem).2.2 rfl⟩

theorem IsWord.isCell {text : Text} (h : IsWord text) : Table.IsCell 0 text :=
  Table.isCell_of_not_mem fun hmem => (h _ hmem).1 rfl

theorem Phrase.isWord_text (p : Phrase) : IsWord p.text := by
  cases p with
  | seconds | minute | hour | day | month | year => decide
  | minutes n | hours n | days n | months n | years n =>
    exact isWord_append (isWord_ofNat n) (by decide)

theorem Moment.isWord_relative {α : Type} [Duration α] {m : Option Moment} {now : Moment}
    {age : Text} (h : relative α m now = .ok age) : IsWord age := by
  unfold relative at h
  cases m with
  | none =>
    cases h
    decide
  | some m =>
    cases hoffset : now.offset with
    | none =>
      rw [hoffset] at h
      cases h
    | some offset =>
      rw [hoffset] at h
      cases h
      unfold describeDistance
      dsimp only
      split
      · exact isWord_append (by decide) (Phrase.isWord_text _)
      · exact isWord_append (Phrase.isWord_text _) (by decide)

/-! ## Rows -/

namespace Record

/-- Nothing in the record ends its line: its line feeds are blanks, except for those of the
identifier. -/
def StaysOnLine (r : Record) : Prop := '\r' ∉ r.label ∧ '\r' ∉ r.type ∧ r.id.IsUnbroken

/-- No pipe in the record ends a cell: where it is escaped it has an even number of backslashes
right before it, and in the identifier an odd one. -/
def KeepsCells (r : Record) : Prop :=
  Table.PipesBehind 0 0 r.label ∧ Table.PipesBehind 0 0 r.type ∧ Table.PipesBehind 1 0 r.id

theorem isUnbroken_path_iff (r : Record) : r.path.IsUnbroken ↔ r.id.IsUnbroken := by
  unfold path
  rw [Text.isUnbroken_append, Text.isUnbroken_append]
  have hbefore : Text.IsUnbroken "/documents~b=working&c=unclassified/" := by decide
  have hafter : Text.IsUnbroken "/" := by decide
  simp only [hbefore, hafter, true_and, and_true]

theorem isCell_path_iff (r : Record) : Table.IsCell 0 r.path ↔ Table.PipesBehind 1 0 r.id := by
  have hbefore : Table.IsCell 0 "/documents~b=working&c=unclassified/" := by decide
  have hpath := Table.length_splitCells_append 0 r.id "/"
  have hslash : ∀ n, (Table.splitCells n "/").length = 1 := fun n => rfl
  rw [hslash] at hpath
  unfold path
  rw [← Table.isCell_iff, Table.IsCell, List.append_assoc,
    Table.splitCells_append_of_isCell hbefore, List.length_modifyHead]
  show (Table.splitCells 0 (r.id ++ "/")).length = 1 ↔ (Table.splitCells 0 r.id).length = 1
  omega

end Record

namespace Table

open Record (isDate moment?)

variable {α : Type} [Duration α]

theorem rowWith_eq (r : Record) (age : Text) :
    rowWith r age = '|' :: rowTail [cell r.label, cell r.type, age, r.path] := by
  unfold rowWith rowTail
  simp only [rowTail, List.append_assoc]
  rfl

theorem isUnbroken_rowWith_iff {r : Record} {age : Text} (h : IsWord age) :
    Text.IsUnbroken (rowWith r age) ↔ r.StaysOnLine := by
  unfold rowWith Record.StaysOnLine
  have hage := h.isUnbroken
  have hfirst : Text.IsUnbroken "| " := by decide
  have hnext : Text.IsUnbroken " | " := by decide
  have hlast : Text.IsUnbroken " |" := by decide
  simp only [Text.isUnbroken_append, isUnbroken_cell_iff, Record.isUnbroken_path_iff, hage, hfirst,
    hnext, hlast, true_and, and_true, and_assoc]

theorem splitCells_rowWith_iff {r : Record} {age : Text} (h : IsWord age) :
    splitCells 0 (rowWith r age) =
        [] :: ([cell r.label, cell r.type, age, r.path].map padded ++ [[]]) ↔
      r.KeepsCells := by
  rw [rowWith_eq, splitCells_row_iff]
  simp only [List.forall_mem_cons, isCell_cell_iff, Record.isCell_path_iff, Record.KeepsCells]
  constructor
  · rintro ⟨hlabel, htype, -, hid, -⟩
    exact ⟨hlabel, htype, hid⟩
  · rintro ⟨hlabel, htype, hid⟩
    exact ⟨hlabel, htype, h.isCell, hid, nofun⟩

/-! ## Tables -/

/-- Four lines of heading and a line for each record, whose unescaped pipes part four cells: the
label, the type, the age and the path of the record. -/
structure IsTable (α : Type) [Duration α] (now : Moment) (records : List Record) (text : Text) :
    Prop where
  length_eq : (Text.splitLines text).length = 4 + records.length
  cells_eq : ∀ i r, records[i]? = some r → ∃ line age, (Text.splitLines text)[4 + i]? = some line ∧
    Moment.relative α (moment? r.published) now = .ok age ∧
    splitCells 0 line = [] :: ([cell r.label, cell r.type, age, r.path].map padded ++ [[]])

variable {now : Moment} {records : List Record} {rows : List Text}

/-- The line is the row of the record. -/
def IsRow (α : Type) [Duration α] (now : Moment) (r : Record) (line : Text) : Prop :=
  ∃ age, Moment.relative α (moment? r.published) now = .ok age ∧ line = rowWith r age

theorem isRow_of_row {r : Record} {line : Text} (h : row α now r = .ok line) :
    IsRow α now r line := by
  rw [row_of_isDate (row_isOk.mp ⟨line, h⟩).1] at h
  cases hage : Moment.relative α (moment? r.published) now with
  | ok age =>
    rw [hage] at h
    cases h
    exact ⟨age, hage, rfl⟩
  | error crash =>
    rw [hage] at h
    cases h

theorem markdown_eq_ok {text : Text} (hne : records ≠ [])
    (h : markdown α records now = .ok text) :
    ∃ rows, List.Forall₂ (IsRow α now) records rows ∧
      text = Text.lines (heading records.length ++ rows) := by
  have hempty : records.isEmpty = false := List.isEmpty_eq_false_iff.mpr hne
  rw [markdown, hempty] at h
  obtain ⟨rows, hrows, htext⟩ := bind_eq_ok h
  exact ⟨rows, (mapM_eq_ok hrows).imp fun _ _ => isRow_of_row, (Except.ok.inj htext).symm⟩

theorem isUnbroken_heading (count : Nat) : ∀ line ∈ heading count, Text.IsUnbroken line := by
  have hcount : Text.IsUnbroken ("**" ++ Text.ofNat count ++ " document(s)**") :=
    (isWord_append (isWord_append (by decide) (isWord_ofNat count)) (by decide)).isUnbroken
  simp only [heading, List.forall_mem_cons]
  exact ⟨hcount, by decide, by decide, by decide, nofun⟩

section

variable (h : List.Forall₂ (IsRow α now) records rows)

include h

theorem forall_stays_iff :
    (∀ r ∈ records, r.StaysOnLine) ↔ ∀ line ∈ rows, Text.IsUnbroken line := by
  refine forall_mem_iff_of_forall₂ h ?_
  rintro r line ⟨age, hage, rfl⟩
  exact (isUnbroken_rowWith_iff (Moment.isWord_relative hage)).symm

theorem splitLines_table (count : Nat) :
    Text.splitLines (Text.lines (heading count ++ rows)) =
      (heading count ++ rows).flatMap Text.splitLines := by
  apply Text.splitLines_lines (by simp [heading])
  refine List.forall_mem_append.mpr ⟨?_, ?_⟩
  · intro line hline hlast
    exact (isUnbroken_heading count line hline).2 (List.mem_of_getLast? hlast)
  · refine (forall_mem_iff_of_forall₂ h ?_).mp (fun _ _ => trivial)
    rintro r line ⟨age, -, rfl⟩
    refine iff_of_true trivial ?_
    unfold rowWith
    rw [List.getLast?_append]
    nofun

/-- A table has one line for each of its parts exactly if nothing in its records ends a line. -/
theorem length_splitLines_table_iff (count : Nat) :
    (Text.splitLines (Text.lines (heading count ++ rows))).length = 4 + records.length ↔
      ∀ r ∈ records, r.StaysOnLine := by
  have hparts : (heading count ++ rows).length = 4 + records.length := by
    rw [List.length_append, h.length_eq]
    rfl
  rw [splitLines_table h, ← hparts, forall_stays_iff h]
  constructor
  · intro hlength
    exact (List.forall_mem_append.mp ((Text.length_flatMap_splitLines _).2 hlength)).2
  · intro hrows
    rw [Text.flatMap_splitLines_of_isUnbroken
      (List.forall_mem_append.mpr ⟨isUnbroken_heading count, hrows⟩)]

theorem splitLines_of_stays (hstays : ∀ r ∈ records, r.StaysOnLine) (count : Nat) :
    Text.splitLines (Text.lines (heading count ++ rows)) = heading count ++ rows := by
  rw [splitLines_table h, Text.flatMap_splitLines_of_isUnbroken
    (List.forall_mem_append.mpr ⟨isUnbroken_heading count, (forall_stays_iff h).mp hstays⟩)]

theorem isTable_iff (count : Nat) :
    IsTable α now records (Text.lines (heading count ++ rows)) ↔
      ∀ r ∈ records, r.StaysOnLine ∧ r.KeepsCells := by
  have hrow : ∀ i, (heading count ++ rows)[4 + i]? = rows[i]? := by
    intro i
    have hlength : (heading count).length = 4 := rfl
    rw [List.getElem?_append_right (hlength ▸ Nat.le_add_right 4 i), hlength,
      Nat.add_sub_cancel_left]
  constructor
  · rintro ⟨hlength, hcells⟩ r hr
    have hstays := (length_splitLines_table_iff h count).mp hlength
    rw [splitLines_of_stays h hstays] at hcells
    obtain ⟨i, hi⟩ := List.mem_iff_getElem?.mp hr
    obtain ⟨line, age, hline, hage, hsplit⟩ := hcells i r hi
    obtain ⟨line', hline', age', hage', rfl⟩ := getElem?_of_forall₂ h hi
    cases hage.symm.trans hage'
    cases ((hrow i).symm.trans hline).symm.trans hline'
    exact ⟨hstays r hr, (splitCells_rowWith_iff (Moment.isWord_relative hage)).mp hsplit⟩
  · intro hall
    have hstays : ∀ r ∈ records, r.StaysOnLine := fun r hr => (hall r hr).1
    refine ⟨(length_splitLines_table_iff h count).mpr hstays, ?_⟩
    intro i r hi
    obtain ⟨line, hline, age, hage, rfl⟩ := getElem?_of_forall₂ h hi
    rw [splitLines_of_stays h hstays, hrow]
    exact ⟨_, age, hline, hage, (splitCells_rowWith_iff (Moment.isWord_relative hage)).mpr
      (hall r (List.mem_of_getElem? hi)).2⟩

end

/-- **The layout of the table.** Records have a table whatever they hold, unless one of them has a
moment and it is not known from where it is seen. The table has four lines of heading and a line for
each record exactly if nothing in the records ends a line, and if so, each of these lines has the
four cells of its record exactly if no pipe in it ends a cell. A cell shows its label or its type.
-/
theorem layout_iff (α : Type) [Duration α] (records : List Record) (now : Moment)
    (hne : records ≠ []) (hdates : ∀ r ∈ records, isDate r.published = true) :
    ((∃ text, markdown α records now = .ok text) ↔
      (now.offset = none → ∀ r ∈ records, moment? r.published = none)) ∧
    (∀ text, markdown α records now = .ok text →
      ((Text.splitLines text).length = 4 + records.length ↔ ∀ r ∈ records, r.StaysOnLine) ∧
      (IsTable α now records text ↔ ∀ r ∈ records, r.StaysOnLine ∧ r.KeepsCells)) ∧
    ∀ text, shown (cell text) = text.replace '\n' " " := by
  refine ⟨?_, ?_, shown_cell⟩
  · rw [markdown_isOk]
    constructor
    · intro h hoffset r hr
      exact (h r hr).2 hoffset
    · intro h r hr
      exact ⟨hdates r hr, fun hoffset => h hoffset r hr⟩
  · intro text htext
    obtain ⟨rows, hrows, rfl⟩ := markdown_eq_ok hne htext
    exact ⟨length_splitLines_table_iff hrows _, isTable_iff hrows _⟩

def article (id label : Text) : Record := { id, type := "article", preview := .text label }

theorem layout_iff_pipe :
    [article "XA1" "Pipe | title\n", article "XA2" ""] ≠ [] ∧
      ∃ text,
        markdown Rat [article "XA1" "Pipe | title\n", article "XA2" ""] Record.newYear = .ok text ∧
        IsTable Rat Record.newYear [article "XA1" "Pipe | title\n", article "XA2" ""] text := by
  have hne : [article "XA1" "Pipe | title\n", article "XA2" ""] ≠ [] := nofun
  obtain ⟨hexists, htables, -⟩ := layout_iff Rat _ Record.newYear hne (by decide)
  obtain ⟨text, htext⟩ := hexists.mpr nofun
  refine ⟨hne, text, htext, (htables text htext).2.mpr ?_⟩
  simp only [List.forall_mem_cons, Record.StaysOnLine, Record.KeepsCells, ← isCell_iff,
    ← isCell_cell_iff]
  exact ⟨by decide, by decide, nofun⟩

/-- A carriage return in a label, a backslash before a pipe in it, and a pipe in an identifier. -/
theorem table_broken :
    (∃ text, markdown Rat [article "XA1" "Hello\rWorld"] Record.newYear = .ok text ∧
      ¬ IsTable Rat Record.newYear [article "XA1" "Hello\rWorld"] text) ∧
    (∃ text, markdown Rat [article "XA1" "a\\|b"] Record.newYear = .ok text ∧
      ¬ IsTable Rat Record.newYear [article "XA1" "a\\|b"] text) ∧
    ∃ text, markdown Rat [article "a|b" "Hello"] Record.newYear = .ok text ∧
      ¬ IsTable Rat Record.newYear [article "a|b" "Hello"] text := by
  have hbroken : ∀ r : Record, r.published = .null → ¬ (r.StaysOnLine ∧ r.KeepsCells) →
      ∃ text, markdown Rat [r] Record.newYear = .ok text ∧
        ¬ IsTable Rat Record.newYear [r] text := by
    intro r hdate hnot
    have hrow : ∀ r' ∈ [r], isDate r'.published = true ∧
        (Record.newYear.offset = none → moment? r'.published = none) := by
      intro r' hr'
      rw [List.mem_singleton.mp hr', hdate]
      exact ⟨rfl, fun _ => rfl⟩
    obtain ⟨text, htext⟩ := markdown_isOk (α := Rat).mpr hrow
    obtain ⟨rows, hrows, rfl⟩ := markdown_eq_ok (List.cons_ne_nil r []) htext
    refine ⟨_, htext, ?_⟩
    rw [isTable_iff hrows]
    exact fun hall => hnot (hall r (List.mem_singleton_self r))
  refine ⟨hbroken _ rfl ?_, hbroken _ rfl ?_, hbroken _ rfl ?_⟩
  · rintro ⟨⟨hlabel, -⟩, -⟩
    exact hlabel (by decide)
  · rintro ⟨-, hlabel, -⟩
    exact absurd (hlabel ['a', '\\'] ['b'] rfl) (by decide)
  · rintro ⟨-, -, -, hid⟩
    exact absurd (hid ['a'] ['b'] rfl) (by decide)

end Table

end FieldSearch
