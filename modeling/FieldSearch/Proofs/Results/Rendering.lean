import FieldSearch.Proofs.Results.Aggregation
import FieldSearch.Results.Table

/-!
# Rendering of records

A record keeps the date of its node as it came. A date is read if it is a text or counts as nothing,
and only a text that is no moment, or nothing, is read as none. Any other value is no date: it makes
the record's moment fail, and with it the table of all records.
-/

namespace FieldSearch

namespace Record

/-! ## Dates of edges -/

/-- The publication date that the node of an edge has; null if it has none. -/
def dateOf (edge : Json) : Json :=
  (((edge.member? "node").bind (·.member? "_meta")).bind
    (·.member? "lastPublicationDate")).getD .null

/-- The edges that are read: those under the root fields, or under all keys of the response. -/
def requestedEdges (data : Entries Json) (rootFields : Option (List Text)) : List Json :=
  (rootFields.getD (Entries.keys data)).flatMap (edgesUnder data)

/-- A text, or a value that counts as nothing. -/
def isDate : Json → Bool
  | .text _ => true
  | value => !value.isTruthy

def moment? : Json → Option Moment
  | .text t => Moment.ofText? t
  | _ => none

theorem Describes.published_eq {edge : Json} {r : Record} (h : Describes edge r) :
    r.published = dateOf edge := by
  obtain ⟨hnode, hdetails, -⟩ := h
  have hmeta : (Json.object _).member? "_meta" = _ := hdetails
  rw [dateOf, hnode, Option.bind_some, hmeta]
  rfl

theorem aggregate_keys (data : Entries Json) (rootFields : Option (List Text)) :
    aggregate (.object data) rootFields =
      aggregate (.object data) (some (rootFields.getD (Entries.keys data))) := by
  cases rootFields with
  | some keys => rfl
  | none =>
    have hkeys : (data.map fun entry => Json.text entry.1).map Json.asText = Entries.keys data := by
      rw [List.map_map]
      rfl
    rw [Option.getD_none, ← hkeys]
    rfl

theorem forall₂_describes {data : Entries Json} {rootFields : Option (List Text)}
    {records : List Record} (h : aggregate (.object data) rootFields = .ok records) :
    List.Forall₂ Describes (requestedEdges data rootFields) records := by
  rw [aggregate_keys] at h
  exact forall₂_describes_of_aggregate h

theorem map_published {edges : List Json} {records : List Record}
    (h : List.Forall₂ Describes edges records) :
    records.map Record.published = edges.map dateOf := by
  induction h with
  | nil => rfl
  | cons hedge _ ih => rw [List.map_cons, List.map_cons, hedge.published_eq, ih]

/-! ## Moments and rows -/

theorem publishedAt_eq (r : Record) :
    r.publishedAt =
      if isDate r.published then .ok (moment? r.published) else .error .wrongKind := by
  unfold publishedAt
  cases hdate : r.published with
  | text t => rfl
  | _ =>
    simp only [isDate, moment?]
    split <;> simp [*]

theorem publishedAt_isOk {r : Record} :
    (∃ m, r.publishedAt = .ok m) ↔ isDate r.published = true := by
  rw [publishedAt_eq]
  cases isDate r.published with
  | true => exact iff_of_true ⟨_, rfl⟩ rfl
  | false => exact iff_of_false nofun nofun

end Record

namespace Table

open Record

variable {α : Type} [Duration α]

/-- Only a moment has to be seen from a time of known offset. -/
theorem relative_isOk (m : Option Moment) (now : Moment) :
    (∃ age, Moment.relative α m now = .ok age) ↔ (now.offset = none → m = none) := by
  cases m with
  | none => exact iff_of_true ⟨_, rfl⟩ fun _ => rfl
  | some m =>
    unfold Moment.relative
    cases now.offset <;> simp

/-- The row of a record whose age is known. -/
def rowWith (r : Record) (age : Text) : Text :=
  "| " ++ cell r.label ++ " | " ++ cell r.type ++ " | " ++ age ++ " | " ++ r.path ++ " |"

theorem row_of_isDate {now : Moment} {r : Record} (h : isDate r.published = true) :
    row α now r = (Moment.relative α (moment? r.published) now).map (rowWith r) := by
  rw [row, publishedAt_eq, if_pos h]
  show (Moment.relative α (moment? r.published) now >>= fun age => pure (rowWith r age)) = _
  cases Moment.relative α (moment? r.published) now <;> rfl

theorem row_isOk {now : Moment} {r : Record} :
    (∃ line, row α now r = .ok line) ↔
      isDate r.published = true ∧ (now.offset = none → moment? r.published = none) := by
  by_cases h : isDate r.published = true
  · rw [row_of_isDate h, and_iff_right h, ← relative_isOk (α := α)]
    cases Moment.relative α (moment? r.published) now with
    | ok age => exact iff_of_true ⟨rowWith r age, rfl⟩ ⟨age, rfl⟩
    | error crash => exact iff_of_false nofun nofun
  · rw [row, publishedAt_eq, if_neg h]
    exact iff_of_false nofun fun hand => h hand.1

theorem markdown_isOk {records : List Record} {now : Moment} :
    (∃ text, markdown α records now = .ok text) ↔
      ∀ r ∈ records, isDate r.published = true ∧
        (now.offset = none → moment? r.published = none) := by
  have hrows : (∃ lines, records.mapM (row α now) = .ok lines) ↔
      ∀ r ∈ records, isDate r.published = true ∧
        (now.offset = none → moment? r.published = none) := by
    rw [exists_mapM_eq_ok_iff]
    exact forall₂_congr fun r _ => row_isOk
  rw [← hrows, markdown]
  cases records with
  | nil => exact iff_of_true ⟨_, rfl⟩ ⟨_, rfl⟩
  | cons r rest =>
    simp only [List.isEmpty_cons, Bool.false_eq_true, if_false]
    cases (r :: rest).mapM (row α now) <;> simp [bind, Except.bind, pure, Except.pure]

end Table

namespace Record

/-- **Records and their table.** The records of a response have the dates of its edges. A date is
read, as a moment or as none, exactly if it is a text or counts as nothing; and the records are
rendered exactly if all their dates can be read, where a moment also needs a time of known offset to
be seen from. Nothing else in a response counts. -/
theorem rendering_iff (α : Type) [Duration α] (data : Entries Json)
    (rootFields : Option (List Text)) (records : List Record)
    (h : aggregate (.object data) rootFields = .ok records) :
    let dates := (requestedEdges data rootFields).map dateOf
    records.map Record.published = dates ∧
    (∀ r ∈ records,
      ((∃ m, r.publishedAt = .ok m) ↔ isDate r.published = true) ∧
      ∀ m, r.publishedAt = .ok m → m = moment? r.published) ∧
    ∀ now : Moment, (∃ text, Table.markdown α records now = .ok text) ↔
      ∀ date ∈ dates, isDate date = true ∧ (now.offset = none → moment? date = none) := by
  intro dates
  have hdates : records.map Record.published = dates := map_published (forall₂_describes h)
  refine ⟨hdates, fun r _ => ⟨publishedAt_isOk, fun m hm => ?_⟩, fun now => ?_⟩
  · rw [publishedAt_eq] at hm
    split at hm
    · exact (Except.ok.inj hm).symm
    · cases hm
  · rw [Table.markdown_isOk, ← hdates, List.forall_mem_map]

/-- A response with one article of the given date. -/
def articleOf (date : Json) : Entries Json :=
  [("allArticles", .object [("edges", .array [.object [("node", .object
    [("_meta", .object [("id", .text "a"), ("lastPublicationDate", date)])])]])])]

def newYear : Moment := ⟨⟨2024, 1, 1⟩, .midnight, some 0⟩

theorem rendering_iff_article :
    ∃ records, aggregate (.object (articleOf (.text "2024-01-15T10:00:00Z"))) none = .ok records ∧
      ∃ text, Table.markdown Rat records newYear = .ok text := by
  obtain ⟨-, -, htable⟩ := rendering_iff Rat (articleOf (.text "2024-01-15T10:00:00Z")) none _ rfl
  exact ⟨_, rfl, (htable newYear).mpr (by decide)⟩

/-- A number for a date lets neither the moment nor the table through. -/
theorem date_crashes :
    ¬ ∀ (data : Entries Json) (rootFields : Option (List Text)) (records : List Record),
      aggregate (.object data) rootFields = .ok records →
      (∀ r ∈ records, ∃ m, r.publishedAt = .ok m) ∧
        ∃ text, Table.markdown Rat records newYear = .ok text := by
  intro h
  obtain ⟨hmoments, -⟩ := h (articleOf (.int 5)) none _ rfl
  obtain ⟨m, hm⟩ := hmoments _ (List.mem_singleton_self _)
  cases hm

end Record

end FieldSearch
