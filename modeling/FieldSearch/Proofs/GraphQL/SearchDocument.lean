import FieldSearch.Proofs.GraphQL.Relexing
import FieldSearch.Proofs.GraphQL.Writing
import FieldSearch.Proofs.Number.Written
import FieldSearch.Proofs.Reading

/-!
# Search documents read back

A search document is written unless its page size has no literal. It is read as one operation whose
fields are its selections, in their order, each with its page size and its conditions as arguments.
Its compact form is read in the same way.
-/

namespace FieldSearch.GraphQL

/-! ## What a search document says -/

def metaField : Field where
  name := "_meta"
  selections := [{ name := "id" }, { name := "type" }, { name := "lastPublicationDate" }]

def summaryFields : Option Text → List Field
  | none | some [] => []
  | some field => [{ alias? := some "summary", name := field }]

/-- The field that lists a page of the documents of one type, those that meet the conditions. -/
def listingField (rootField : Text) (first : Literal) (conditions : Entries Text)
    (summaryField : Option Text) : Field where
  name := rootField
  arguments := [("first", first),
    ("where", .object (conditions.map fun (field, value) => (field, .string value)))]
  selections :=
    [{ name := "edges"
       selections :=
        [{ name := "node"
           selections := summaryFields summaryField ++ [metaField] }] }]

namespace Selection

def toField (first : Literal) (s : Selection) : Field :=
  listingField s.rootField first s.conditions s.summaryField

/-- All parts of the selection that stand in the document as they are, are names. -/
structure Named (s : Selection) : Prop where
  rootField : isName s.rootField = true
  conditions : ∀ field ∈ s.conditions.keys, isName field = true
  summaryField : ∀ field ∈ s.summaryField, field ≠ [] → isName field = true

/-- What is written for the page size is this literal. -/
def Pages (first : Literal) (s : Selection) : Prop :=
  ∀ text, s.pageSize.literal = .ok text → Writes text first.lexemes

end Selection

def SearchDocument.toOperation (first : Literal) (d : SearchDocument) : Operation :=
  ⟨.query, some "search", d.selections.map (Selection.toField first)⟩

/-! ## When it is written -/

namespace Value

variable {n : Int}

theorem literal_int_of_lt (h : 0 ≤ n) (hshort : n < 10 ^ Number.maxDigits) :
    (int n).literal = .ok (Text.ofInt n) := by
  rw [literal, Number.written_of_isWritable ((Number.isWritable_iff_lt h).mpr hshort)]

theorem literal_int_of_le (h : 0 ≤ n) (hlong : 10 ^ Number.maxDigits ≤ n) :
    (int n).literal = .error .tooManyDigits := by
  rw [literal, Number.written_of_not_isWritable ((Number.isWritable_eq_false_iff_le h).mpr hlong)]

end Value

theorem Selection.pages_int {s : Selection} {n : Int} (h : s.pageSize = .int n) :
    s.Pages (.int n) := by
  intro text htext
  rw [h, Value.literal] at htext
  rw [Number.written_eq_ok htext, Literal.lexemes]
  exact writes_ofInt n

theorem Selection.lines_of_literal {s : Selection} {first : Text}
    (h : s.pageSize.literal = .ok first) :
    s.lines = .ok (listing s.rootField first s.conditionsLiteral s.summaryField) := by
  rw [lines, h]
  rfl

theorem Selection.lines_of_error {s : Selection} {c : Crash} (h : s.pageSize.literal = .error c) :
    s.lines = .error c := by
  rw [lines, h]
  rfl

namespace SearchDocument

variable {d : SearchDocument}

theorem render_eq_ok {text : Text} (h : d.render = .ok text) :
    ∃ parts, d.selections.mapM Selection.lines = .ok parts ∧
      text = operation "search" (parts.map (atDepth 1)) := by
  obtain ⟨parts, hparts, htext⟩ := bind_eq_ok h
  exact ⟨parts, hparts, (Except.ok.inj htext).symm⟩

theorem exists_render_eq_ok {first : Text}
    (h : ∀ s ∈ d.selections, s.pageSize.literal = .ok first) : ∃ text, d.render = .ok text := by
  obtain ⟨parts, hparts⟩ := exists_mapM_eq_ok fun s hs =>
    ⟨_, Selection.lines_of_literal (h s hs)⟩
  refine ⟨operation "search" (parts.map (atDepth 1)), ?_⟩
  rw [render, hparts]
  rfl

theorem render_eq_error {c : Crash} (h : ∀ s ∈ d.selections, s.pageSize.literal = .error c)
    (hne : d.selections ≠ []) : d.render = .error c := by
  rw [render]
  cases hparts : d.selections.mapM Selection.lines with
  | ok parts =>
    obtain ⟨s, hs⟩ := List.exists_mem_of_ne_nil _ hne
    obtain ⟨lines, -, hlines⟩ := (mem_of_mapM_eq_ok hparts).1 s hs
    rw [Selection.lines_of_error (h s hs)] at hlines
    cases hlines
  | error c' =>
    obtain ⟨s, hs, hlines⟩ := mapM_eq_error hparts
    rw [Selection.lines_of_error (h s hs)] at hlines
    cases hlines
    rfl

end SearchDocument

/-! ## What its lines write -/

theorem writesAll_leaves (names : List Text) (h : ∀ name ∈ names, isName name = true) :
    WritesAll names (Field.listLexemes (names.map fun name => { name })) := by
  induction names with
  | nil => rw [List.map_nil, Field.listLexemes]; exact .nil
  | cons name names ih =>
    rw [List.map_cons, Field.listLexemes]
    exact .cons (writes_name (h name (List.mem_cons_self ..)))
      (ih fun n hn => h n (List.mem_cons_of_mem _ hn))

theorem writesAll_field {opening : Text} {body : List Text} {alias? : Option Text} {name : Text}
    {arguments : List (Text × Literal)} {fs : List Field}
    (hopening : Writes opening (Field.lexemes ⟨alias?, name, arguments, []⟩))
    (hbody : WritesAll body (Field.listLexemes fs)) (hfs : fs ≠ []) :
    WritesAll (block opening body) (Field.lexemes ⟨alias?, name, arguments, fs⟩) := by
  obtain ⟨f, fs, rfl⟩ := List.exists_cons_of_ne_nil hfs
  have h := writesAll_block hopening hbody
  rw [Field.lexemes, Field.selectionLexemes] at h
  rw [Field.lexemes, Reader.selectionLexemes_cons]
  simpa only [List.append_assoc, List.cons_append, List.append_nil] using h

theorem writes_leaf {name : Text} (h : isName name = true) :
    Writes name (Field.lexemes { name }) := by
  rw [Field.lexemes, Field.selectionLexemes]
  exact writes_name h

theorem listLexemes_singleton (f : Field) : Field.listLexemes [f] = f.lexemes := by
  rw [Field.listLexemes, Field.listLexemes, List.append_nil]

theorem listLexemes_append (fs gs : List Field) :
    Field.listLexemes (fs ++ gs) = Field.listLexemes fs ++ Field.listLexemes gs := by
  induction fs with
  | nil => rw [Field.listLexemes]; rfl
  | cons f fs ih =>
    rw [List.cons_append, Field.listLexemes, Field.listLexemes, ih, List.append_assoc]

theorem writesAll_metaLines : WritesAll metaLines (Field.lexemes metaField) := by
  refine writesAll_field (writes_leaf (by decide)) ?_ (List.cons_ne_nil _ _)
  exact writesAll_leaves ["id", "type", "lastPublicationDate"] (by decide)

theorem writesAll_summaryLine {summaryField : Option Text}
    (h : ∀ field ∈ summaryField, field ≠ [] → isName field = true) :
    WritesAll (summaryLine summaryField) (Field.listLexemes (summaryFields summaryField)) := by
  match summaryField with
  | none => exact .nil
  | some [] => exact .nil
  | some (c :: field) =>
    have hname := h _ rfl (List.cons_ne_nil _ _)
    have hline : Writes ("summary" ++ ": " ++ (c :: field))
        (Field.lexemes { alias? := some "summary", name := c :: field }) := by
      rw [Field.lexemes, Field.selectionLexemes]
      exact (writes_name hname).keyed (by decide)
    have htext : ("summary: " : Text) = "summary" ++ ": " := by decide
    rw [summaryFields, Field.listLexemes, Field.listLexemes]
    · unfold summaryLine
      rw [htext]
      exact .cons hline .nil
    · exact List.cons_ne_nil _ _

theorem writesAll_keyed {members : List (Text × Text)} {values : List (Text × Literal)}
    (h : List.Forall₂ (fun m v => m.1 = v.1 ∧ isName m.1 = true ∧ Writes m.2 v.2.lexemes)
      members values) :
    WritesAll (members.map fun (key, value) => key ++ ": " ++ value)
      (Literal.memberLexemes values) := by
  induction h with
  | nil => exact .nil
  | @cons m v _ _ hm _ ih =>
    obtain ⟨hkey, hname, hvalue⟩ := hm
    obtain ⟨key, text⟩ := m
    obtain ⟨_, v⟩ := v
    obtain rfl := hkey
    rw [List.map_cons, Literal.memberLexemes]
    exact .cons (hvalue.keyed hname) ih

namespace Selection

theorem Named.writes_conditions {s : Selection} (h : s.Named) : Writes s.conditionsLiteral
    (Literal.lexemes (.object (s.conditions.map fun (field, value) => (field, .string value)))) := by
  have hmembers : List.Forall₂ (fun m v => m.1 = v.1 ∧ isName m.1 = true ∧ Writes m.2 v.2.lexemes)
      (s.conditions.map fun (field, value) => (field, stringLiteral value))
      (s.conditions.map fun (field, value) => (field, Literal.string value)) := by
    rw [List.forall₂_map_left_iff, List.forall₂_map_right_iff, List.forall₂_same]
    intro c hc
    exact ⟨rfl, h.conditions c.1 (List.mem_map_of_mem hc), writes_stringLiteral c.2⟩
  rw [Literal.lexemes]
  unfold conditionsLiteral objectLiteral
  exact (writesAll_keyed hmembers).enclosed (by decide) (by decide) (delimited_cons (by decide) _)

theorem Named.writes_opening {s : Selection} (h : s.Named) {first : Literal} {size : Text}
    (hsize : Writes size first.lexemes) :
    Writes (s.rootField ++ "(first: " ++ size ++ ", where: " ++ s.conditionsLiteral ++ ")")
      (Field.lexemes { s.toField first with selections := [] }) := by
  have hfirst : Writes ("first" ++ ": " ++ size) _ := hsize.keyed (by decide)
  have hwhere : Writes ("where" ++ ": " ++ s.conditionsLiteral) _ :=
    h.writes_conditions.keyed (by decide)
  have harguments : Writes ('(' :: (Text.join ", "
      ["first" ++ ": " ++ size, "where" ++ ": " ++ s.conditionsLiteral] ++ [')'])) _ :=
    (WritesAll.cons hfirst (.cons hwhere .nil)).enclosed (by decide) (by decide)
      (delimited_cons (by decide) _)
  -- the opening line is cut where its lexemes end
  have hopen : ("(first: " : Text) = '(' :: ("first" ++ ": ") := by decide
  have hbetween : (", where: " : Text) = ", " ++ ("where" ++ ": ") := by decide
  have hclose : (")" : Text) = [')'] := by decide
  have htext : s.rootField ++ "(first: " ++ size ++ ", where: " ++ s.conditionsLiteral ++ ")" =
      s.rootField ++ '(' :: (Text.join ", "
        ["first" ++ ": " ++ size, "where" ++ ": " ++ s.conditionsLiteral] ++ [')']) := by
    rw [hopen, hbetween, hclose, Text.join, List.intercalate_cons_cons, List.intercalate_singleton]
    simp only [List.append_assoc, List.cons_append]
  rw [htext, Field.lexemes, Field.selectionLexemes, List.append_nil]
  exact (writes_name h.rootField).append harguments (delimited_cons (by decide) _)

theorem Named.writesAll_lines {s : Selection} (h : s.Named) {first : Literal}
    (hpages : s.Pages first) {lines : List Text} (hlines : s.lines = .ok lines) :
    WritesAll lines (Field.lexemes (s.toField first)) := by
  have hnode : WritesAll (summaryLine s.summaryField ++ metaLines)
      (Field.listLexemes (summaryFields s.summaryField ++ [metaField])) := by
    rw [listLexemes_append, listLexemes_singleton]
    exact (writesAll_summaryLine h.summaryField).append writesAll_metaLines
  have hnodeName : isName "node" = true := by decide
  have hedgesName : isName "edges" = true := by decide
  have hedges := writesAll_field (writes_leaf hnodeName) hnode (by simp)
  rw [← listLexemes_singleton] at hedges
  have hbody := writesAll_field (writes_leaf hedgesName) hedges (List.cons_ne_nil _ _)
  rw [← listLexemes_singleton] at hbody
  cases hsize : s.pageSize.literal with
  | error c =>
    rw [lines_of_error hsize] at hlines
    cases hlines
  | ok size =>
    rw [lines_of_literal hsize] at hlines
    cases hlines
    exact writesAll_field (h.writes_opening (hpages size hsize)) hbody (List.cons_ne_nil _ _)

end Selection

section

variable {d : SearchDocument} {first : Literal}
  (hd : ∀ s ∈ d.selections, s.Named ∧ s.Pages first) (hne : d.selections ≠ []) {text : Text}
  (htext : d.render = .ok text)

include hd hne htext

/-- A search document has the lexemes of the operation it stands for. -/
theorem lexemes_render : lexemes text = some (d.toOperation first).lexemes := by
  obtain ⟨parts, hparts, rfl⟩ := SearchDocument.render_eq_ok htext
  have hall : ∀ {selections : List Selection} {parts : List (List Text)},
      List.Forall₂ (fun s lines => s.lines = .ok lines) selections parts →
      (∀ s ∈ selections, s.Named ∧ s.Pages first) → WritesAll (parts.map (atDepth 1))
        (Field.listLexemes (selections.map (Selection.toField first))) := by
    intro selections parts h hs
    induction h with
    | nil => rw [List.map_nil, List.map_nil, Field.listLexemes]; exact .nil
    | cons hlines _ ih =>
      rw [List.map_cons, List.map_cons, Field.listLexemes]
      obtain ⟨hfirst, hrest⟩ := List.forall_mem_cons.mp hs
      exact .cons ((hfirst.1.writesAll_lines hfirst.2 hlines).indent 1).lines (ih hrest)
  have hname : isName "search" = true := by decide
  have hwrites := writes_operation hname (hall (mapM_eq_ok hparts) hd) (by simpa using hne)
  exact hwrites.lexemes_eq

theorem read_render : read text = some [d.toOperation first] :=
  read_of_lexemes (by simpa [SearchDocument.toOperation] using hne) (lexemes_render hd hne htext)

theorem read_compact_render : read (compact text) = some [d.toOperation first] :=
  read_of_lexemes (by simpa [SearchDocument.toOperation] using hne)
    (lexemes_compact (lexemes_render hd hne htext))

end

end FieldSearch.GraphQL
