import FieldSearch.Entries
import Mathlib.Data.List.Induction
import Mathlib.Data.List.Nodup

/-!
# Ordered maps as lists

A map built by `put` names no key twice, and a list of entries is such a map exactly when it names
no key twice.
-/

namespace FieldSearch.Entries

variable {α : Type}

theorem put_of_not_mem {key : Text} (value : α) {entries : Entries α} (h : key ∉ keys entries) :
    put key value entries = entries ++ [(key, value)] := by
  induction entries with
  | nil => rfl
  | cons entry rest ih =>
    obtain ⟨k, v⟩ := entry
    simp only [keys, List.map_cons, List.mem_cons, not_or] at h
    rw [put, if_neg (Ne.symm h.1), ih h.2, List.cons_append]

theorem nodup_keys_put {key : Text} (value : α) {entries : Entries α} (h : (keys entries).Nodup) :
    (keys (put key value entries)).Nodup := by
  rw [keys_put]
  split
  · exact h
  · rename_i hkey
    exact List.nodup_append.mpr ⟨h, List.nodup_singleton _, by
      rintro a ha b hb rfl
      exact hkey (List.mem_singleton.mp hb ▸ ha)⟩

theorem nodup_keys_update (entries : Entries α) (h : (keys entries).Nodup) (new : Entries α) :
    (keys (update entries new)).Nodup := by
  induction new generalizing entries with
  | nil => exact h
  | cons entry new ih => exact ih _ (nodup_keys_put entry.2 h)

theorem nodup_keys_ofList (pairs : List (Text × α)) : (keys (ofList pairs)).Nodup :=
  nodup_keys_update [] List.nodup_nil pairs

theorem mem_keys_put {key k : Text} {value : α} {entries : Entries α} :
    key ∈ keys (put k value entries) ↔ key ∈ keys entries ∨ key = k := by
  rw [keys_put]
  split
  · exact (or_iff_left_of_imp fun h => h ▸ ‹_›).symm
  · simp

theorem mem_keys_update {key : Text} {new entries : Entries α} :
    key ∈ keys (update entries new) ↔ key ∈ keys entries ∨ key ∈ keys new := by
  induction new generalizing entries with
  | nil => simp [update, keys]
  | cons entry new ih =>
    have hkeys : keys (entry :: new) = entry.1 :: keys new := rfl
    refine ih.trans ?_
    rw [mem_keys_put, hkeys, List.mem_cons, or_assoc]

theorem mem_keys_ofList {key : Text} {pairs : List (Text × α)} :
    key ∈ keys (ofList pairs) ↔ key ∈ keys pairs :=
  mem_keys_update.trans (or_iff_right List.not_mem_nil)

theorem update_of_nodup (entries new : Entries α) (h : (keys (entries ++ new)).Nodup) :
    update entries new = entries ++ new := by
  induction new generalizing entries with
  | nil => exact (List.append_nil entries).symm
  | cons entry new ih =>
    have hkey : entry.1 ∉ keys entries := by
      intro hmem
      simp only [keys, List.map_append, List.map_cons] at h hmem
      exact (List.nodup_append.mp h).2.2 entry.1 hmem entry.1 (List.mem_cons_self ..) rfl
    have happ : put entry.1 entry.2 entries ++ new = entries ++ entry :: new := by
      rw [put_of_not_mem entry.2 hkey, List.append_assoc, List.singleton_append]
    exact (ih (put entry.1 entry.2 entries) (by rw [happ]; exact h)).trans happ

theorem ofList_eq_self_iff {pairs : List (Text × α)} :
    ofList pairs = pairs ↔ (keys pairs).Nodup := by
  constructor
  · intro h; rw [← h]; exact nodup_keys_ofList pairs
  · intro h; exact update_of_nodup [] pairs h

theorem update_eq_nil_iff {entries new : Entries α} :
    update entries new = [] ↔ entries = [] ∧ new = [] := by
  induction new generalizing entries with
  | nil => exact (and_iff_left rfl).symm
  | cons entry new ih =>
    have hput : put entry.1 entry.2 entries ≠ [] := by
      cases entries with
      | nil => exact List.cons_ne_nil _ _
      | cons first rest =>
        rw [put]
        split <;> exact List.cons_ne_nil _ _
    exact iff_of_false (fun h => hput (ih.mp h).1) fun h => List.cons_ne_nil _ _ h.2

theorem ofList_eq_nil_iff {pairs : List (Text × α)} : ofList pairs = [] ↔ pairs = [] :=
  update_eq_nil_iff.trans (and_iff_right rfl)

/-! ## One map put into another -/

theorem mem_put {entry : Text × α} {key : Text} {value : α} {entries : Entries α}
    (h : entry ∈ put key value entries) : entry ∈ entries ∨ entry = (key, value) := by
  induction entries with
  | nil => exact Or.inr (List.mem_singleton.mp h)
  | cons first rest ih =>
    obtain ⟨k, v⟩ := first
    by_cases hk : k = key
    · subst hk
      simp only [put, if_true, List.mem_cons] at h
      rcases h with h | h
      · exact Or.inr h
      · exact Or.inl (List.mem_cons_of_mem _ h)
    · simp only [put, hk, if_false, List.mem_cons] at h
      rcases h with h | h
      · exact Or.inl (by simp [h])
      · rcases ih h with h | h
        · exact Or.inl (List.mem_cons_of_mem _ h)
        · exact Or.inr h

theorem mem_update {entry : Text × α} {new entries : Entries α} (h : entry ∈ update entries new) :
    entry ∈ entries ∨ entry ∈ new := by
  induction new generalizing entries with
  | nil => exact Or.inl h
  | cons first new ih =>
    rcases ih h with h | h
    · rcases mem_put h with h | h
      · exact Or.inl h
      · exact Or.inr (by simp [h])
    · exact Or.inr (List.mem_cons_of_mem _ h)

theorem filter_put (key : Text) (value : α) (entries : Entries α) :
    (put key value entries).filter (·.1 ≠ key) = entries.filter (·.1 ≠ key) := by
  induction entries with
  | nil => simp [put]
  | cons entry rest ih =>
    by_cases hk : entry.1 = key
    · simp [put, hk]
    · rw [put, if_neg hk, List.filter_cons, List.filter_cons, ih]

theorem put_put_self (key : Text) (old value : α) (entries : Entries α) :
    put key value (put key old entries) = put key value entries := by
  induction entries with
  | nil => simp [put]
  | cons entry rest ih =>
    obtain ⟨k, v⟩ := entry
    by_cases hk : k = key <;> simp [put, hk, ih]

theorem put_put_comm {key other : Text} (hne : key ≠ other) (value v : α) {entries : Entries α}
    (h : key ∈ keys entries) :
    put key value (put other v entries) = put other v (put key value entries) := by
  induction entries with
  | nil => simp [keys] at h
  | cons entry rest ih =>
    obtain ⟨k, old⟩ := entry
    by_cases hk : k = key
    · subst hk; simp [put, hne]
    · have hrest : key ∈ keys rest := by simpa [keys, Ne.symm hk] using h
      by_cases ho : k = other
      · subst ho; simp [put, hk]
      · simp [put, hk, ho, ih hrest]

/-- A key that is there takes its value before or after other keys take theirs. -/
theorem put_update {key : Text} (value : α) {entries new : Entries α} (h : key ∈ keys entries)
    (hnew : key ∉ keys new) :
    put key value (update entries new) = update (put key value entries) new := by
  induction new generalizing entries with
  | nil => rfl
  | cons entry new ih =>
    simp only [keys, List.map_cons, List.mem_cons, not_or] at hnew
    have hput : key ∈ keys (put entry.1 entry.2 entries) := mem_keys_put.mpr (Or.inl h)
    exact (ih hput hnew.2).trans (by rw [put_put_comm hnew.1 value entry.2 h]; rfl)

theorem update_put {key : Text} (value : α) (entries : Entries α) {new : Entries α}
    (h : (keys new).Nodup) :
    update entries (put key value new) = put key value (update entries new) := by
  induction new generalizing entries with
  | nil => rfl
  | cons entry new ih =>
    obtain ⟨k, v⟩ := entry
    obtain ⟨hk, hnew⟩ := List.nodup_cons.mp h
    by_cases heq : k = key
    · subst heq
      have hput : k ∈ keys (put k v entries) := mem_keys_put.mpr (Or.inr rfl)
      rw [put, if_pos rfl]
      exact (congrArg (update · new) (put_put_self k v value entries)).symm.trans
        (put_update value hput hk).symm
    · rw [put, if_neg heq]
      exact ih (put k v entries) hnew

theorem update_concat (entries : Entries α) (pairs : List (Text × α)) (pair : Text × α) :
    update entries (pairs ++ [pair]) = put pair.1 pair.2 (update entries pairs) :=
  List.foldl_append

theorem update_ofList (entries : Entries α) (pairs : List (Text × α)) :
    update entries (ofList pairs) = update entries pairs := by
  induction pairs using List.reverseRecOn with
  | nil => rfl
  | append_singleton pairs pair ih =>
    rw [ofList, update_concat, update_concat, ← ofList,
      update_put _ _ (nodup_keys_ofList pairs), ih]

theorem keys_update (entries : Entries α) {new : Entries α} (h : (keys new).Nodup) :
    keys (update entries new) = keys entries ++ (keys new).filter (· ∉ keys entries) := by
  induction new generalizing entries with
  | nil => simp [update, keys]
  | cons entry new ih =>
    obtain ⟨k, v⟩ := entry
    obtain ⟨hk, hnew⟩ := List.nodup_cons.mp h
    have hstep : keys (update (put k v entries) new) = _ := ih (put k v entries) hnew
    have hkeys : keys ((k, v) :: new) = k :: keys new := rfl
    refine hstep.trans ?_
    rw [hkeys, keys_put]
    by_cases hmem : k ∈ keys entries
    · simp [hmem]
    · have hfilter : (keys new).filter (· ∉ keys entries ++ [k]) =
          (keys new).filter (· ∉ keys entries) := by
        apply List.filter_congr
        intro name hname
        have hne : name ≠ k := fun e => hk (e ▸ hname)
        simp [hne]
      rw [if_neg hmem, hfilter, List.filter_cons_of_pos (by simp [hmem]), List.append_assoc,
        List.singleton_append]

theorem get?_eq_none {key : Text} {entries : Entries α} (h : key ∉ keys entries) :
    get? key entries = none := by
  induction entries with
  | nil => rfl
  | cons entry rest ih =>
    simp only [keys, List.map_cons, List.mem_cons, not_or] at h
    rw [get?, if_neg (Ne.symm h.1), ih h.2]

theorem exists_get?_iff {key : Text} {entries : Entries α} :
    (∃ value, get? key entries = some value) ↔ key ∈ keys entries := by
  induction entries with
  | nil => simp [get?, keys]
  | cons entry rest ih =>
    obtain ⟨k, v⟩ := entry
    have hkeys : keys ((k, v) :: rest) = k :: keys rest := rfl
    rw [get?, hkeys, List.mem_cons]
    by_cases h : k = key
    · simp [h]
    · simp [h, Ne.symm h, ih]

theorem get?_update (name : Text) (entries : Entries α) {new : Entries α} (h : (keys new).Nodup) :
    get? name (update entries new) = (get? name new).or (get? name entries) := by
  induction new generalizing entries with
  | nil => rfl
  | cons entry new ih =>
    obtain ⟨k, v⟩ := entry
    obtain ⟨hk, hnew⟩ := List.nodup_cons.mp h
    refine (ih (put k v entries) hnew).trans ?_
    rw [get?_put, get?]
    by_cases heq : k = name
    · subst heq; simp [get?_eq_none hk]
    · simp [heq]

/-! ## Orders of the same entries -/

theorem get?_eq_some_iff {key : Text} {value : α} {entries : Entries α} (h : (keys entries).Nodup) :
    get? key entries = some value ↔ (key, value) ∈ entries := by
  induction entries with
  | nil => simp [get?]
  | cons entry rest ih =>
    obtain ⟨k, v⟩ := entry
    obtain ⟨hk, hrest⟩ := List.nodup_cons.mp h
    by_cases heq : k = key
    · subst heq
      have hmem : (k, value) ∉ rest := fun hmem => hk (List.mem_map.mpr ⟨_, hmem, rfl⟩)
      simp [get?, hmem, eq_comm]
    · simp [get?, heq, Ne.symm heq, ih hrest]

theorem get?_perm {entries others : Entries α} (h : entries.Perm others) (hn : (keys entries).Nodup)
    (key : Text) : get? key entries = get? key others := by
  have hothers : (keys others).Nodup := (h.map Prod.fst).nodup_iff.mp hn
  apply Option.ext
  intro value
  rw [get?_eq_some_iff hn, get?_eq_some_iff hothers]
  exact h.mem_iff

end FieldSearch.Entries
