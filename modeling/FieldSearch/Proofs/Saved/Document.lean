import FieldSearch.Saved.Format
import Mathlib.Data.Nat.Init

/-!
# Saved searches as documents

A list of saved searches is written as a map with one list of maps of texts. The reader gives every
search of such a document, a nameless one under the default name.
-/

namespace FieldSearch.SavedQuery

open Yaml (Document Value)

def entry (q : SavedQuery) : Value (Fin 0) :=
  .map [(.text "name", .text q.name), (.text "value", .text q.value)]

/-- The document that a list of saved searches is written as. -/
def document (queries : List SavedQuery) : Document :=
  .plain (.map [(.text storageKey, .list (queries.map entry))])

/-- A search as it is listed. -/
def listed (q : SavedQuery) : SavedQuery :=
  { q with name := if q.name.isEmpty then defaultName else q.name }

/-! ## Documents are recognised -/

def ofEntry? : Value (Fin 0) → Option SavedQuery
  | .map [(.text first, .text name), (.text second, .text value)] =>
    if first = "name" ∧ second = "value" then some { name, value } else none
  | _ => none

def queries? : Document → Option (List SavedQuery)
  | ⟨0, _, .map [(.text key, .list items)]⟩ =>
    if key = storageKey then items.mapM ofEntry? else none
  | _ => none

theorem ofEntry?_eq_some_iff {v : Value (Fin 0)} {q : SavedQuery} :
    ofEntry? v = some q ↔ v = entry q := by
  constructor
  · intro h
    unfold ofEntry? at h
    split at h
    · split at h
      · rename_i hkeys
        cases h
        rw [entry, hkeys.1, hkeys.2]
      · cases h
    · cases h
  · intro h
    rw [h]
    rfl

theorem mapM_ofEntry?_eq_some_iff {items : List (Value (Fin 0))} {queries : List SavedQuery} :
    items.mapM ofEntry? = some queries ↔ items = queries.map entry := by
  induction items generalizing queries with
  | nil => cases queries <;> simp
  | cons item items ih =>
    cases queries with
    | nil => simp [Option.bind_eq_some_iff]
    | cons q queries => simp [Option.bind_eq_some_iff, ofEntry?_eq_some_iff, ih]

theorem queries?_eq_some_iff {d : Document} {queries : List SavedQuery} :
    queries? d = some queries ↔ d = document queries := by
  constructor
  · intro h
    unfold queries? at h
    split at h
    · split at h
      · rename_i part _ items hkey
        have hpart : part = Fin.elim0 := funext fun name => name.elim0
        rw [document, hkey, mapM_ofEntry?_eq_some_iff.mp h, hpart]
      · cases h
    · cases h
  · intro h
    rw [h, document, Document.plain, queries?, if_pos rfl]
    exact mapM_ofEntry?_eq_some_iff.mpr rfl

instance (loaded : Except Yaml.Fault Document) (queries : List SavedQuery) :
    Decidable (loaded = .ok (document queries)) :=
  match loaded with
  | .ok d => decidable_of_iff (queries? d = some queries)
      (queries?_eq_some_iff.trans ⟨congrArg _, Except.ok.inj⟩)
  | .error _ => .isFalse nofun

/-! ## Documents are read -/

section

variable {d : Document}

theorem textOf_text (t : Text) : textOf d (.text t) = .ok t := rfl

theorem ofMembers_named (q : SavedQuery) :
    ofMembers d [(.text "name", .text q.name), (.text "value", .text q.value)] = .ok q.listed := by
  have hname : Value.member? "name" [(.text "name", .text q.name), (.text "value", .text q.value)] =
      some (Value.text q.name : d.Inner) := rfl
  have hvalue : Value.member? "value" [(.text "name", .text q.name), (.text "value", .text q.value)] =
      some (Value.text q.value : d.Inner) := rfl
  rw [ofMembers, hname, hvalue, listed]
  by_cases h : q.name = [] <;> simp [h, textOf_text, Document.face, Value.isTruthy] <;> rfl

theorem ofItems_cons {item : d.Inner} {members : List (d.Inner × d.Inner)}
    (h : d.face item = .map members) (rest : List d.Inner) :
    ofItems d (item :: rest) =
      (ofMembers d members).bind fun q => (ofItems d rest).map (q :: ·) := by
  simp only [ofItems, h]
  cases ofMembers d members with
  | error failure => rfl
  | ok q => exact bind_pure_comp (q :: ·) (ofItems d rest)

end

theorem ofItems_entries (root : Value (Fin 0)) (queries : List SavedQuery) :
    ofItems (.plain root) (queries.map entry) = .ok (queries.map listed) := by
  induction queries with
  | nil => rfl
  | cons q queries ih =>
    have hface : Document.face (.plain root) (entry q) = entry q := rfl
    refine (ofItems_cons hface (queries.map entry)).trans ?_
    rw [ih, ofMembers_named]
    rfl

theorem ofLoaded_document (queries : List SavedQuery) :
    ofLoaded (.ok (document queries)) = .ok (queries.map listed) :=
  ofItems_entries _ queries

end FieldSearch.SavedQuery
