import FieldSearch.Proofs.Entries
import FieldSearch.Proofs.Text.Segments
import FieldSearch.Proofs.Text.Trim
import FieldSearch.Query.Constraints

/-!
# The grammar of constraints

Every text means well-formed constraints: names and values are trimmed, and none holds what divides
them. Such constraints are written so that they are read back as they are, and a text that goes on
after a comma puts what follows into what came before.
-/

namespace FieldSearch.Constraints

/-- A name that can stand in front of a colon. -/
structure IsName (name : Text) : Prop where
  ne_nil : name ≠ []
  trimmed : Text.Trimmed name
  comma : ',' ∉ name
  colon : ':' ∉ name

structure IsValue (value : Text) : Prop where
  trimmed : Text.Trimmed value
  comma : ',' ∉ value

structure WellFormed (constraints : Constraints) : Prop where
  nodup : (Entries.keys constraints).Nodup
  entries : ∀ entry ∈ constraints, IsName entry.1 ∧ IsValue entry.2

def renderEntry (entry : Text × Text) : Text := entry.1 ++ ": " ++ entry.2

/-- The text `field: value, field: value` of constraints. -/
def render (constraints : Constraints) : Text := Text.join ", " (constraints.map renderEntry)

/-! ## Segments -/

theorem ofSegment?_eq_some_iff {segment name value : Text} :
    ofSegment? segment = some (name, value) ↔ name ≠ [] ∧ ∃ before after : Text,
      segment.cut ':' = some (before, after) ∧ before.trim = name ∧ after.trim = value := by
  unfold ofSegment?
  cases segment.cut ':' with
  | none => simp
  | some parts =>
    obtain ⟨before, after⟩ := parts
    by_cases hname : before.trim = []
    · simp only [Option.bind_some, hname, List.isEmpty_nil, if_true]
      refine iff_of_false nofun ?_
      rintro ⟨hne, _, _, hparts, rfl, -⟩
      cases hparts
      exact hne hname
    · simp only [Option.bind_some, List.isEmpty_iff, hname, if_false, Option.some.injEq,
        Prod.mk.injEq]
      constructor
      · rintro ⟨rfl, rfl⟩
        exact ⟨hname, before, after, ⟨rfl, rfl⟩, rfl, rfl⟩
      · rintro ⟨-, _, _, ⟨rfl, rfl⟩, hbefore, hafter⟩
        exact ⟨hbefore, hafter⟩

theorem wellFormed_of_ofSegment? {segment : Text} {entry : Text × Text} (hcomma : ',' ∉ segment)
    (h : ofSegment? segment = some entry) : IsName entry.1 ∧ IsValue entry.2 := by
  obtain ⟨name, value⟩ := entry
  obtain ⟨hname, before, after, hcut, rfl, rfl⟩ := ofSegment?_eq_some_iff.mp h
  obtain ⟨rfl, hcolon⟩ := Text.eq_of_cut hcut
  simp only [List.mem_append, List.mem_cons, not_or] at hcomma
  refine ⟨⟨hname, Text.trim_trimmed before, ?_, ?_⟩, ⟨Text.trim_trimmed after, ?_⟩⟩
  · exact fun hmem => hcomma.1 (Text.mem_of_mem_trim hmem)
  · exact fun hmem => hcolon (Text.mem_of_mem_trim hmem)
  · exact fun hmem => hcomma.2.2 (Text.mem_of_mem_trim hmem)

theorem ofSegment?_of_isName {name : Text} (h : IsName name) (value : Text) :
    ofSegment? (name ++ ':' :: value) = some (name, value.trim) :=
  ofSegment?_eq_some_iff.mpr
    ⟨h.ne_nil, name, value, Text.cut_append h.colon value, h.trimmed.trim_eq, rfl⟩

theorem ofSegment?_blank (segment : Text) : ofSegment? (' ' :: segment) = ofSegment? segment := by
  have hcut : Text.cut ':' (' ' :: segment) =
      (Text.cut ':' segment).map fun parts => (' ' :: parts.1, parts.2) := by
    simp [Text.cut]
  rw [ofSegment?, hcut, ofSegment?]
  cases Text.cut ':' segment with
  | none => rfl
  | some parts =>
    have htrim : Text.trim (' ' :: parts.1) = Text.trim parts.1 := Text.trim_cons_of_isBlank rfl _
    simp [htrim]

/-! ## Texts -/

theorem wellFormed_ofText (raw : Text) : WellFormed (ofText raw) := by
  constructor
  · exact Entries.nodup_keys_ofList _
  · intro entry hentry
    rcases Entries.mem_update hentry with h | h
    · cases h
    · obtain ⟨segment, hsegment, h⟩ := List.mem_filterMap.mp h
      exact wellFormed_of_ofSegment? (not_mem_of_mem_splitOn hsegment) h

theorem ofText_append (before after : Text) :
    ofText (before ++ ',' :: after) = (ofText before).update (ofText after) := by
  have hsplit : (before ++ ',' :: after).splitOn ',' = before.splitOn ',' ++ after.splitOn ',' :=
    List.splitOn_append_cons_self before after
  rw [ofText, hsplit, List.filterMap_append, ofText, ofText, Entries.update_ofList]
  exact List.foldl_append

theorem ofText_blank (text : Text) : ofText (' ' :: text) = ofText text := by
  obtain ⟨first, others, hsplit⟩ := List.exists_cons_of_ne_nil (List.splitOn_ne_nil ',' text)
  have hblank : (' ' :: text).splitOn ',' = (' ' :: first) :: others := by
    rw [List.splitOn_cons_eq_if_modifyHead, hsplit]
    rfl
  rw [ofText, hblank, List.filterMap_cons, ofSegment?_blank, ← List.filterMap_cons, ← hsplit]
  rfl

theorem ofText_of_isName {name value : Text} (h : IsName name) (hvalue : ',' ∉ value) :
    ofText (name ++ ':' :: value) = [(name, value.trim)] := by
  have hcomma : ',' ∉ name ++ ':' :: value := by simp [h.comma, hvalue]
  rw [ofText, List.splitOn_eq_singleton hcomma,
    List.filterMap_cons_some (ofSegment?_of_isName h value)]
  rfl

theorem ofText_renderEntry {entry : Text × Text} (hname : IsName entry.1)
    (hvalue : IsValue entry.2) : ofText (renderEntry entry) = [entry] := by
  have hshape : renderEntry entry = entry.1 ++ ':' :: ' ' :: entry.2 := List.append_assoc ..
  have hcomma : ',' ∉ ' ' :: entry.2 := by simp [hvalue.comma]
  have hblank : Text.trim (' ' :: entry.2) = entry.2 :=
    (Text.trim_cons_of_isBlank rfl _).trans hvalue.trimmed.trim_eq
  rw [hshape, ofText_of_isName hname hcomma, hblank]

theorem ofText_render {constraints : Constraints} (h : WellFormed constraints) :
    ofText (render constraints) = constraints := by
  induction constraints with
  | nil => decide
  | cons entry rest ih =>
    obtain ⟨hname, hvalue⟩ := h.entries entry (List.mem_cons_self ..)
    have hrest : WellFormed rest :=
      ⟨(List.nodup_cons.mp h.nodup).2, fun e he => h.entries e (List.mem_cons_of_mem _ he)⟩
    cases rest with
    | nil =>
      have hsingle : render [entry] = renderEntry entry := List.append_nil _
      rw [hsingle, ofText_renderEntry hname hvalue]
    | cons next others =>
      have hjoin : render (entry :: next :: others) =
          renderEntry entry ++ ',' :: ' ' :: render (next :: others) := by
        simp [render, Text.join]
      rw [hjoin, ofText_append, ofText_blank, ih hrest, ofText_renderEntry hname hvalue]
      exact Entries.update_of_nodup [entry] _ h.nodup

/-- **Constraints and their texts.** What a text means is well-formed; constraints are what their
own text means exactly when they are well-formed; and in a longer text the later part wins, where
fields that were named before keep their places and new ones follow in their order. -/
theorem text_grammar :
    (∀ raw, WellFormed (ofText raw)) ∧
    (∀ constraints, ofText (render constraints) = constraints ↔ WellFormed constraints) ∧
    ∀ before after : Text,
      let joined := ofText (before ++ ',' :: after)
      joined = (ofText before).update (ofText after) ∧
      joined.keys =
        (ofText before).keys ++ (ofText after).keys.filter (· ∉ (ofText before).keys) ∧
      ∀ name, joined.get? name = ((ofText after).get? name).or ((ofText before).get? name) := by
  refine ⟨wellFormed_ofText, fun constraints => ⟨fun h => ?_, ofText_render⟩, ?_⟩
  · rw [← h]
    exact wellFormed_ofText _
  · intro before after joined
    have hjoined : joined = (ofText before).update (ofText after) := ofText_append before after
    have hnodup : (Entries.keys (ofText after)).Nodup := (wellFormed_ofText after).nodup
    refine ⟨hjoined, ?_, fun name => ?_⟩
    · rw [hjoined]
      exact Entries.keys_update _ hnodup
    · rw [hjoined]
      exact Entries.get?_update name _ hnodup

example : ofText "a: 1, b: x:y ,a : 2" = [(("a" : Text), ("2" : Text)), ("b", "x:y")] := by decide

end FieldSearch.Constraints
