import FieldSearch.Proofs.Saved.Runs
import FieldSearch.Proofs.Yaml.Parts

/-!
# What a reader bears

Anybody may edit the file of saved searches, so a reader meets files that are no text and documents
of every shape. It bears with most documents, and a text that is no document has an error of its
own. What is left makes it crash: bytes that are not in UTF-8, a list of searches that is one value
without parts, and a name or a value with a number that is too long to be written. Every edit that
reads the file crashes with it, and leaves the file as it is.
-/

namespace FieldSearch

namespace SavedQuery

open Yaml (Document Value)

/-! ## Entries -/

variable {d : Document}

abbrev Members (d : Document) := List (d.Inner × d.Inner)

/-- All whole numbers in the value of an entry can be written, and so can those in its name unless
it counts as nothing. -/
structure Legible (d : Document) (members : Members d) : Prop where
  value : ∀ v, Value.member? "value" members = some v → ∀ n, d.Holds v n → Number.isWritable n = true
  name : ∀ v, Value.member? "name" members = some v → (d.face v).isTruthy = true →
    ∀ n, d.Holds v n → Number.isWritable n = true

/-- The search that an entry stands for. -/
def ofEntry (d : Document) (members : Members d) : SavedQuery where
  name := (((Value.member? "name" members).filter fun v => (d.face v).isTruthy).map d.asText).getD
    defaultName
  value := ((Value.member? "value" members).map d.asText).getD []

theorem textOf_cases (v : d.Inner) :
    (∀ n, d.Holds v n → Number.isWritable n = true) ∧ textOf d v = .ok (d.asText v) ∨
      ¬ (∀ n, d.Holds v n → Number.isWritable n = true) ∧
        textOf d v = .error (.crash .tooManyDigits) := by
  rw [← Document.isWritable_iff, textOf]
  cases h : d.isWritable v with
  | true => exact .inl ⟨rfl, rfl⟩
  | false => exact .inr ⟨Bool.false_ne_true, rfl⟩

/-- The two parts of an entry are read one after the other. -/
def readValue (d : Document) : Option d.Inner → Except Failure Text
  | some v => textOf d v
  | none => .ok []

def readName (d : Document) : Option d.Inner → Except Failure Text
  | some v => if (d.face v).isTruthy then textOf d v else .ok defaultName
  | none => .ok defaultName

theorem ofMembers_eq (members : Members d) :
    ofMembers d members = (readValue d (Value.member? "value" members)).bind fun value =>
      (readName d (Value.member? "name" members)).map fun name => { name, value } := by
  unfold ofMembers
  generalize Value.member? "value" members = first
  generalize Value.member? "name" members = second
  cases first with
  | none =>
    cases second with
    | none => rfl
    | some v => cases h : (d.face v).isTruthy <;> simp only [h, readName] <;> rfl
  | some t =>
    cases second with
    | none => rfl
    | some v => cases h : (d.face v).isTruthy <;> simp only [h, readName] <;> rfl

theorem readValue_cases (value : Option d.Inner) :
    (∀ v, value = some v → ∀ n, d.Holds v n → Number.isWritable n = true) ∧
        readValue d value = .ok ((value.map d.asText).getD []) ∨
      ¬ (∀ v, value = some v → ∀ n, d.Holds v n → Number.isWritable n = true) ∧
        readValue d value = .error (.crash .tooManyDigits) := by
  cases value with
  | none => exact .inl ⟨nofun, rfl⟩
  | some v =>
    obtain ⟨hwritable, htext⟩ | ⟨hwritable, htext⟩ := textOf_cases v
    · exact .inl ⟨by simpa using hwritable, htext⟩
    · exact .inr ⟨by simpa using hwritable, htext⟩

theorem readName_cases (name : Option d.Inner) :
    (∀ v, name = some v → (d.face v).isTruthy = true →
          ∀ n, d.Holds v n → Number.isWritable n = true) ∧
        readName d name =
          .ok (((name.filter fun v => (d.face v).isTruthy).map d.asText).getD defaultName) ∨
      ¬ (∀ v, name = some v → (d.face v).isTruthy = true →
          ∀ n, d.Holds v n → Number.isWritable n = true) ∧
        readName d name = .error (.crash .tooManyDigits) := by
  cases name with
  | none => exact .inl ⟨nofun, rfl⟩
  | some v =>
    cases htruthy : (d.face v).isTruthy with
    | false => exact .inl ⟨by simp [htruthy], by simp [readName, Option.filter_some, htruthy]⟩
    | true =>
      obtain ⟨hwritable, htext⟩ | ⟨hwritable, htext⟩ := textOf_cases v
      · refine .inl ⟨?_, by simp [readName, Option.filter_some, htruthy, htext]⟩
        intro other hother _
        cases hother
        exact hwritable
      · exact .inr ⟨fun h => hwritable (h v rfl htruthy), by simp [readName, htruthy, htext]⟩

theorem ofMembers_cases (members : Members d) :
    Legible d members ∧ ofMembers d members = .ok (ofEntry d members) ∨
      ¬ Legible d members ∧ ofMembers d members = .error (.crash .tooManyDigits) := by
  rw [ofMembers_eq]
  obtain ⟨hvalue, hread⟩ | ⟨hvalue, hread⟩ :=
    readValue_cases (Value.member? "value" members)
  · rw [hread]
    obtain ⟨hname, hread'⟩ | ⟨hname, hread'⟩ := readName_cases (Value.member? "name" members)
    · rw [hread']
      exact .inl ⟨⟨hvalue, hname⟩, rfl⟩
    · rw [hread']
      exact .inr ⟨fun h => hname h.name, rfl⟩
  · rw [hread]
    exact .inr ⟨fun h => hvalue h.value, rfl⟩

/-! ## Documents -/

/-- What can be looked through for entries. -/
def HasParts {ι : Type} : Value ι → Prop
  | .null | .bool _ | .int _ | .real _ | .date _ | .moment _ => False
  | .list _ | .text _ | .bytes _ | .set _ | .map _ | .pair .. | .shared _ => True

def members? {ι : Type} : Value ι → Option (List (Value ι × Value ι))
  | .map members => some members
  | _ => none

/-- The members of an item that is a map, also if it is shared. -/
def membersOf? (d : Document) (item : d.Inner) : Option (Members d) := members? (d.face item)

/-- The maps in a list, which are the entries in it; nothing else has any. -/
def entriesIn (d : Document) (stored : d.Inner) : List (Members d) :=
  match d.face stored with
  | .list items => items.filterMap (membersOf? d)
  | _ => []

/-- What stands under the storage key of a document, if it has that key. -/
def stored? (d : Document) : Option d.Inner :=
  (members? (d.face d.root)).bind (Value.member? storageKey)

/-- The searches of a document can be listed. -/
structure Listable (d : Document) : Prop where
  parts : ∀ stored, stored? d = some stored → HasParts (d.face stored)
  legible : ∀ stored, stored? d = some stored → ∀ entry ∈ entriesIn d stored, Legible d entry

/-- The searches of a document, one for each entry. -/
def searches (d : Document) : List SavedQuery :=
  (((stored? d).map (entriesIn d)).getD []).map (ofEntry d)

theorem ofItems_of_membersOf?_eq_none {item : d.Inner} (h : membersOf? d item = none)
    (rest : List d.Inner) : ofItems d (item :: rest) = ofItems d rest := by
  rw [membersOf?] at h
  rw [ofItems]
  split
  · rename_i members hface
    rw [hface] at h
    cases h
  · rfl

theorem face_of_membersOf?_eq_some {item : d.Inner} {members : Members d}
    (h : membersOf? d item = some members) : d.face item = .map members := by
  rw [membersOf?] at h
  unfold members? at h
  split at h
  · rename_i hface
    cases h
    exact hface
  · cases h

theorem ofItems_cases (items : List d.Inner) :
    (∀ entry ∈ items.filterMap (membersOf? d), Legible d entry) ∧
        ofItems d items = .ok ((items.filterMap (membersOf? d)).map (ofEntry d)) ∨
      ¬ (∀ entry ∈ items.filterMap (membersOf? d), Legible d entry) ∧
        ofItems d items = .error (.crash .tooManyDigits) := by
  induction items with
  | nil => exact .inl ⟨nofun, rfl⟩
  | cons item rest ih =>
    cases hentry : membersOf? d item with
    | none =>
      rw [List.filterMap_cons_none hentry, ofItems_of_membersOf?_eq_none hentry]
      exact ih
    | some members =>
      rw [List.filterMap_cons_some hentry, List.forall_mem_cons, List.map_cons,
        ofItems_cons (face_of_membersOf?_eq_some hentry)]
      obtain ⟨hlegible, hread⟩ | ⟨hlegible, hread⟩ := ofMembers_cases members
      · rw [hread]
        obtain ⟨hrest, hreads⟩ | ⟨hrest, hreads⟩ := ih
        · rw [hreads]
          exact .inl ⟨⟨hlegible, hrest⟩, rfl⟩
        · rw [hreads]
          exact .inr ⟨fun h => hrest h.2, rfl⟩
      · rw [hread]
        exact .inr ⟨fun h => hlegible h.1, rfl⟩

theorem ofEntries_cases (stored : d.Inner) :
    (HasParts (d.face stored) ∧ ∀ entry ∈ entriesIn d stored, Legible d entry) ∧
        ofEntries d stored = .ok ((entriesIn d stored).map (ofEntry d)) ∨
      ¬ (HasParts (d.face stored) ∧ ∀ entry ∈ entriesIn d stored, Legible d entry) ∧
        ∃ crash, ofEntries d stored = .error (.crash crash) := by
  unfold ofEntries entriesIn
  cases d.face stored with
  | list items =>
    obtain ⟨hlegible, hread⟩ | ⟨hlegible, hread⟩ := ofItems_cases items
    · exact .inl ⟨⟨trivial, hlegible⟩, hread⟩
    · exact .inr ⟨fun h => hlegible h.2, _, hread⟩
  | text | bytes | set | map | pair | shared => exact .inl ⟨⟨trivial, nofun⟩, rfl⟩
  | _ => exact .inr ⟨And.left, _, rfl⟩

theorem ofDocument_eq (d : Document) :
    ofDocument d = ((stored? d).map (ofEntries d)).getD (.ok []) := by
  unfold ofDocument stored?
  cases d.face d.root with
  | map members =>
    simp only [members?, Option.bind_some]
    cases Value.member? storageKey members with
    | none => rfl
    | some stored => rfl
  | _ => rfl

theorem ofDocument_cases (d : Document) :
    Listable d ∧ ofDocument d = .ok (searches d) ∨
      ¬ Listable d ∧ ∃ crash, ofDocument d = .error (.crash crash) := by
  rw [ofDocument_eq, searches]
  cases hstored : stored? d with
  | none =>
    refine .inl ⟨⟨?_, ?_⟩, rfl⟩
    · rw [hstored]
      exact nofun
    · rw [hstored]
      exact nofun
  | some stored =>
    obtain ⟨⟨hparts, hlegible⟩, hread⟩ | ⟨hnot, hcrash⟩ := ofEntries_cases stored
    · refine .inl ⟨⟨?_, ?_⟩, hread⟩
      · intro other hother
        cases hstored.symm.trans hother
        exact hparts
      · intro other hother
        cases hstored.symm.trans hother
        exact hlegible
    · exact .inr ⟨fun h => hnot ⟨h.parts stored hstored, h.legible stored hstored⟩, hcrash⟩

end SavedQuery

namespace Store

open SavedQuery (Listable searches unreadable)

/-- A call fails, and not with an error of the store. -/
def Crashes {β : Type} (result : Except Failure β) : Prop := ∃ crash, result = .error (.crash crash)

instance {β : Type} (result : Except Failure β) : Decidable (Crashes result) :=
  match result with
  | .error (.crash crash) => .isTrue ⟨crash, rfl⟩
  | .error (.error _) => .isFalse nofun
  | .ok _ => .isFalse nofun

theorem not_crashes_ok {β : Type} (value : β) : ¬ Crashes (.ok value) := by
  rintro ⟨crash, hcrash⟩
  cases hcrash

theorem not_crashes_ofCause {β : Type} (cause : Cause) :
    ¬ Crashes (.error (.ofCause cause) : Except Failure β) := by
  rintro ⟨crash, hcrash⟩
  cases hcrash

/-- The file is a text that is no document or one whose searches can be listed, or else it is found
malformed before what is no text. -/
def IsBorne (load : Text → Except Yaml.Fault Yaml.Document)
    (early : Text.Bytes → Option Yaml.Fault) (s : Store) : Prop :=
  ∀ bytes, s.file = some bytes →
    (∀ text, Text.decodeUtf8? bytes = some text →
      load text = .error .malformed ∨ ∃ d, load text = .ok d ∧ Listable d) ∧
    (Text.decodeUtf8? bytes = none → early bytes = some .malformed)

/-- Whether an edit comes to read the file; what is no query is refused before. -/
def Edit.Reads : Edit → Prop
  | save value _ => ':' ∈ value
  | rename .. | forget _ => True

/-- Whether the number of the place that an edit names is too long to be written. -/
def Edit.IsFarOff : Edit → Prop
  | save .. => False
  | rename index _ | forget index => Number.isWritable index = false

section

variable (write : List SavedQuery → Text) (load : Text → Except Yaml.Fault Yaml.Document)
  (early : Text.Bytes → Option Yaml.Fault) (s : Store)

theorem read_of_text {bytes : Text.Bytes} {text : Text} (h : Text.decodeUtf8? bytes = some text) :
    (Format.loading write load early).read bytes = SavedQuery.ofLoaded (load text) := by
  simp only [Format.loading, h]

theorem read_of_not_text {bytes : Text.Bytes} (h : Text.decodeUtf8? bytes = none) :
    (Format.loading write load early).read bytes =
      SavedQuery.ofLoaded (.error ((early bytes).getD (.crash .undecodable))) := by
  simp only [Format.loading, h]

theorem list_cases :
    s.IsBorne load early ∧
        ((∃ queries, s.list (.loading write load early) = .ok queries) ∨
          s.list (.loading write load early) = .error unreadable) ∨
      ¬ s.IsBorne load early ∧ Crashes (s.list (.loading write load early)) := by
  unfold IsBorne list
  cases s.file with
  | none => exact .inl ⟨nofun, .inl ⟨[], rfl⟩⟩
  | some bytes =>
    simp only [Option.some.injEq, forall_eq']
    cases hbytes : Text.decodeUtf8? bytes with
    | some text =>
      simp only [read_of_text write load early hbytes, Option.some.injEq, forall_eq', reduceCtorEq,
        false_implies, and_true]
      cases load text with
      | error fault =>
        cases fault with
        | malformed => exact .inl ⟨.inl rfl, .inr rfl⟩
        | crash crash => exact .inr ⟨by simp, crash, rfl⟩
      | ok d =>
        obtain ⟨hlistable, hread⟩ | ⟨hnot, hcrash⟩ := SavedQuery.ofDocument_cases d
        · exact .inl ⟨.inr ⟨d, rfl, hlistable⟩, .inl ⟨_, hread⟩⟩
        · exact .inr ⟨by simpa using hnot, hcrash⟩
    | none =>
      simp only [read_of_not_text write load early hbytes, reduceCtorEq, false_implies, implies_true,
        true_and, forall_true_left]
      cases early bytes with
      | none => exact .inr ⟨nofun, _, rfl⟩
      | some fault =>
        cases fault with
        | malformed => exact .inl ⟨rfl, .inr rfl⟩
        | crash crash => exact .inr ⟨nofun, crash, rfl⟩

theorem crashes_list_iff :
    Crashes (s.list (.loading write load early)) ↔ ¬ s.IsBorne load early := by
  obtain ⟨hborne, ⟨queries, hread⟩ | hread⟩ | ⟨hnot, hcrash⟩ := list_cases write load early s
  · rw [hread]
    exact iff_of_false (not_crashes_ok queries) (not_not_intro hborne)
  · rw [hread]
    exact iff_of_false (not_crashes_ofCause _) (not_not_intro hborne)
  · exact iff_of_true hcrash hnot

theorem list_ends : let f := Format.loading write load early
    (∃ queries, s.list f = .ok queries) ∨ s.list f = .error unreadable ∨ Crashes (s.list f) := by
  obtain ⟨-, hread | hread⟩ | ⟨-, hcrash⟩ := list_cases write load early s
  · exact .inl hread
  · exact .inr (.inl hread)
  · exact .inr (.inr hcrash)

theorem list_of_text {bytes : Text.Bytes} {text : Text} (hfile : s.file = some bytes)
    (htext : Text.decodeUtf8? bytes = some text) :
    s.list (.loading write load early) = SavedQuery.ofLoaded (load text) := by
  rw [list, hfile]
  exact read_of_text write load early htext

end

theorem ofLoaded_of_listable {d : Yaml.Document} (h : Listable d) :
    SavedQuery.ofLoaded (.ok d) = .ok (searches d) := by
  obtain ⟨-, hread⟩ | ⟨hnot, -⟩ := SavedQuery.ofDocument_cases d
  · exact hread
  · exact absurd h hnot

/-! ## Edits -/

theorem apply_of_not_reads {e : Edit} (h : ¬ e.Reads) (f : Format) (s : Store) :
    e.apply f s = (.error e.refusal, s) := by
  cases e with
  | save value name =>
    have hquery : Constraints.isQuery value = false := decide_eq_false h
    rw [Edit.apply, save, hquery]
    rfl
  | rename | forget => exact absurd trivial h

theorem apply_of_error {e : Edit} {failure : Failure} (hreads : e.Reads)
    (h : s.list f = .error failure) : e.apply f s = (.error failure, s) := by
  cases e with
  | save value name =>
    have hquery : Constraints.isQuery value = true := decide_eq_true hreads
    rw [Edit.apply, save, hquery, h]
    rfl
  | rename value name =>
    rw [Edit.apply, rename, h]
    rfl
  | forget value =>
    rw [Edit.apply, forget, h]
    rfl

theorem apply_cases (f : Format) (s : Store) (e : Edit) :
    (∃ queries, s.list f = .ok queries ∧ e.Allowed (queries.map SavedQuery.value) ∧
        e.apply f s = (.ok (e.put queries), { file := some (f.write (e.put queries)) })) ∨
      (∃ queries, s.list f = .ok queries ∧ ¬ e.Allowed (queries.map SavedQuery.value) ∧
        e.apply f s = (.error e.refusal, s)) ∨
      (∃ failure, s.list f = .error failure ∧ e.Reads ∧ e.apply f s = (.error failure, s)) ∨
      ∃ failure, s.list f = .error failure ∧ ¬ e.Reads ∧ e.apply f s = (.error e.refusal, s) := by
  cases hlist : s.list f with
  | ok queries =>
    by_cases hallowed : e.Allowed (queries.map SavedQuery.value)
    · exact .inl ⟨queries, rfl, hallowed, apply_of_allowed hlist e hallowed⟩
    · exact .inr (.inl ⟨queries, rfl, hallowed, apply_of_not_allowed hlist e hallowed⟩)
  | error failure =>
    by_cases hreads : e.Reads
    · exact .inr (.inr (.inl ⟨failure, rfl, hreads, apply_of_error hreads hlist⟩))
    · exact .inr (.inr (.inr ⟨failure, rfl, hreads, apply_of_not_reads hreads f s⟩))

theorem absent_cases (index : Int) :
    Number.isWritable index = true ∧
        absent index = .ofCause (.notFound "Saved query" (some (Text.ofInt index))) ∨
      Number.isWritable index = false ∧ absent index = .crash .tooManyDigits := by
  unfold absent Number.written
  cases h : Number.isWritable index with
  | true => exact .inl ⟨rfl, rfl⟩
  | false => exact .inr ⟨rfl, rfl⟩

/-- A refusal is an error of the store, if it can be written. -/
theorem refusal_crashes_iff {β : Type} (e : Edit) :
    Crashes (.error e.refusal : Except Failure β) ↔ e.IsFarOff := by
  cases e with
  | save value name => exact iff_of_false (not_crashes_ofCause _) id
  | rename index | forget index =>
    rw [Edit.refusal, Edit.IsFarOff]
    obtain ⟨hwritable, habsent⟩ | ⟨hwritable, habsent⟩ := absent_cases index
    · rw [habsent]
      exact iff_of_false (not_crashes_ofCause _) (ne_false_of_eq_true hwritable)
    · rw [habsent]
      exact iff_of_true ⟨_, rfl⟩ hwritable

/-- A refusal is one of the ends that an edit can have. -/
theorem refused {β : Type} (e : Edit) :
    let result : Except Failure β := .error e.refusal
    result = .error e.refusal ∧ ¬ e.IsFarOff ∨ result = .error unreadable ∨ Crashes result := by
  intro result
  by_cases hfar : e.IsFarOff
  · exact .inr (.inr ((refusal_crashes_iff e).mpr hfar))
  · exact .inl ⟨rfl, hfar⟩

theorem Edit.IsFarOff.reads {e : Edit} (h : e.IsFarOff) : e.Reads := by
  cases e with
  | save value name => exact h.elim
  | rename | forget => trivial

theorem crashes_apply_iff (f : Format) (s : Store) (e : Edit) :
    Crashes (e.apply f s).1 ↔
      e.Reads ∧ Crashes (s.list f) ∨ e.IsFarOff ∧
        ∃ queries, s.list f = .ok queries ∧ ¬ e.Allowed (queries.map SavedQuery.value) := by
  obtain ⟨queries, hlist, hallowed, happly⟩ | ⟨queries, hlist, hallowed, happly⟩ |
    ⟨failure, hlist, hreads, happly⟩ | ⟨failure, hlist, hreads, happly⟩ := apply_cases f s e
  · rw [happly, hlist]
    refine iff_of_false (not_crashes_ok _) ?_
    rintro (⟨-, hcrash⟩ | ⟨-, other, hother, hnot⟩)
    · exact not_crashes_ok queries hcrash
    · cases hother
      exact hnot hallowed
  · rw [happly, hlist, refusal_crashes_iff]
    constructor
    · exact fun hfar => .inr ⟨hfar, queries, rfl, hallowed⟩
    · rintro (⟨-, hcrash⟩ | ⟨hfar, -⟩)
      · exact absurd hcrash (not_crashes_ok queries)
      · exact hfar
  · rw [happly, hlist]
    constructor
    · exact fun hcrash => .inl ⟨hreads, hcrash⟩
    · rintro (⟨-, hcrash⟩ | ⟨-, queries, hread, -⟩)
      · exact hcrash
      · cases hread
  · rw [happly, refusal_crashes_iff]
    refine iff_of_false (fun hfar => hreads hfar.reads) ?_
    rintro (⟨hread, -⟩ | ⟨hfar, -⟩)
    · exact hreads hread
    · exact hreads hfar.reads

theorem apply_ends {f : Format} {s : Store} (e : Edit)
    (h : (∃ queries, s.list f = .ok queries) ∨ s.list f = .error unreadable ∨ Crashes (s.list f)) :
    ((∃ queries, (e.apply f s).1 = .ok queries) ∨
      (e.apply f s).1 = .error e.refusal ∧ ¬ e.IsFarOff ∨
      (e.apply f s).1 = .error unreadable ∨ Crashes (e.apply f s).1) ∧
    ∀ failure, (e.apply f s).1 = .error failure → (e.apply f s).2 = s := by
  obtain ⟨queries, -, -, happly⟩ | ⟨queries, -, -, happly⟩ | ⟨failure, hfailure, -, happly⟩ |
    ⟨failure, -, -, happly⟩ := apply_cases f s e
  · rw [happly]
    refine ⟨.inl ⟨_, rfl⟩, ?_⟩
    rintro failure ⟨⟩
  · rw [happly]
    exact ⟨.inr (refused e), fun _ _ => rfl⟩
  · rw [happly]
    rw [hfailure] at h
    obtain ⟨queries, hread⟩ | hother := h
    · cases hread
    · exact ⟨.inr (.inr hother), fun _ _ => rfl⟩
  · rw [happly]
    exact ⟨.inr (refused e), fun _ _ => rfl⟩

/-- **What a reader bears.** Whatever the file holds, its searches are listed or the file is refused
as unreadable, unless the reader crashes; and it crashes exactly on a file that it does not bear.
Listed is one search for each map in the list under the storage key. An edit crashes exactly if it
comes to read such a file, or names a place that is not there by a number too long to be written;
else it succeeds or has an error of the store, and one that fails leaves the file as it was. -/
theorem reading_borne (write : List SavedQuery → Text)
    (load : Text → Except Yaml.Fault Yaml.Document) (early : Text.Bytes → Option Yaml.Fault)
    (s : Store) :
    let f := Format.loading write load early
    (Crashes (s.list f) ↔ ¬ s.IsBorne load early) ∧
    ((∃ queries, s.list f = .ok queries) ∨ s.list f = .error unreadable ∨ Crashes (s.list f)) ∧
    (s.file = none → s.list f = .ok []) ∧
    (∀ bytes text, s.file = some bytes → Text.decodeUtf8? bytes = some text →
      (load text = .error .malformed → s.list f = .error unreadable) ∧
      ∀ d, load text = .ok d → Listable d → s.list f = .ok (searches d)) ∧
    ∀ e : Edit,
      (Crashes (e.apply f s).1 ↔
        e.Reads ∧ ¬ s.IsBorne load early ∨ e.IsFarOff ∧
          ∃ queries, s.list f = .ok queries ∧ ¬ e.Allowed (queries.map SavedQuery.value)) ∧
      ((∃ queries, (e.apply f s).1 = .ok queries) ∨
        (e.apply f s).1 = .error e.refusal ∧ ¬ e.IsFarOff ∨
        (e.apply f s).1 = .error unreadable ∨ Crashes (e.apply f s).1) ∧
      ∀ failure, (e.apply f s).1 = .error failure → (e.apply f s).2 = s := by
  intro f
  have hcrashes := crashes_list_iff write load early s
  have hends := list_ends write load early s
  refine ⟨hcrashes, hends, ?_, ?_, fun e => ⟨?_, apply_ends e hends⟩⟩
  · intro hfile
    rw [list, hfile]
  · intro bytes text hfile htext
    rw [list_of_text write load early s hfile htext]
    refine ⟨fun hload => congrArg SavedQuery.ofLoaded hload, ?_⟩
    intro d hload hlistable
    rw [hload, ofLoaded_of_listable hlistable]
  · rw [← hcrashes]
    exact crashes_apply_iff f s e

theorem list_yaml (text : Text) :
    list .yaml ⟨some (Text.encodeUtf8 text)⟩ = SavedQuery.ofLoaded (Yaml.Document.ofText? text) :=
  read_of_text _ _ _ (Text.decodeUtf8?_encodeUtf8 text)

/-- An entry may be an alias of the document around it. -/
example : (list .yaml ⟨some (Text.encodeUtf8
    "&all\nvalue: 'a: 1'\nsavedQueries: [*all, no]\n")⟩).toOption =
      some [⟨SavedQuery.defaultName, "a: 1"⟩] := by
  rw [list_yaml]
  decide +kernel

/-- The mark of a text in UTF-16 is no UTF-8. -/
example : Crashes (list .yaml ⟨some [0xFF, 0xFE]⟩) := by
  decide +kernel

/-- A file whose list of searches is nothing makes the reader crash. -/
theorem listing_crashes :
    ¬ ∀ s : Store, (∃ queries, s.list .yaml = .ok queries) ∨ s.list .yaml = .error unreadable := by
  intro h
  have hcrash : Crashes (list .yaml ⟨some (Text.encodeUtf8 "savedQueries:\n")⟩) := by
    rw [list_yaml]
    decide +kernel
  obtain ⟨crash, hlist⟩ := hcrash
  obtain ⟨queries, hread⟩ | hread := h ⟨some (Text.encodeUtf8 "savedQueries:\n")⟩
  · cases hlist.symm.trans hread
  · cases hlist.symm.trans hread

end Store

end FieldSearch
