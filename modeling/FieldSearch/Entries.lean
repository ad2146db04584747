import FieldSearch.Text.Basic

/-!
# Ordered maps

A list of keys and values in the order in which the keys were first put. Putting a key again keeps
its place and replaces its value, so a map built by `put` names no key twice.
-/

namespace FieldSearch

abbrev Entries (α : Type) := List (Text × α)

namespace Entries

variable {α : Type}

def get? (key : Text) : Entries α → Option α
  | [] => none
  | (k, v) :: rest => if k = key then some v else get? key rest

def has (key : Text) (entries : Entries α) : Bool := (entries.get? key).isSome

def keys (entries : Entries α) : List Text := entries.map Prod.fst

def put (key : Text) (value : α) : Entries α → Entries α
  | [] => [(key, value)]
  | (k, v) :: rest => if k = key then (k, value) :: rest else (k, v) :: put key value rest

/-- The first map with everything of the second put into it. -/
def update (entries new : Entries α) : Entries α :=
  new.foldl (fun es (k, v) => put k v es) entries

def ofList (pairs : List (Text × α)) : Entries α := update [] pairs

theorem keys_put (key : Text) (value : α) (entries : Entries α) :
    keys (put key value entries) =
      if key ∈ keys entries then keys entries else keys entries ++ [key] := by
  induction entries with
  | nil => simp [put, keys]
  | cons entry rest ih =>
    obtain ⟨k, v⟩ := entry
    by_cases h : k = key
    · simp [put, keys, h]
    · have ih' := ih
      simp only [keys] at ih'
      by_cases hmem : key ∈ rest.map Prod.fst
      · simp [put, keys, h, ih', hmem]
      · simp [put, keys, h, ih', hmem, Ne.symm h]

theorem get?_put (key k : Text) (value : α) (entries : Entries α) :
    get? k (put key value entries) = if key = k then some value else get? k entries := by
  induction entries with
  | nil => simp [put, get?]
  | cons entry rest ih =>
    obtain ⟨k', v⟩ := entry
    by_cases h : k' = key
    · subst h; by_cases hk : k' = k <;> simp [put, get?, hk]
    · by_cases hk : k' = k
      · subst hk; simp [put, get?, h, Ne.symm h]
      · simp [put, get?, h, hk, ih]

end Entries

end FieldSearch
