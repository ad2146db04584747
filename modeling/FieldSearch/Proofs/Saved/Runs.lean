import FieldSearch.Proofs.Saved.Document
import FieldSearch.Proofs.Text.Utf8
import FieldSearch.Saved.Store
import Mathlib.Data.List.Infix
import Mathlib.Data.List.Induction
import Mathlib.Data.List.InsertIdx

/-!
# Runs of a store

A store object knows nothing but where its file is, so the calls of all objects on one directory are
one run over the file. As long as lists are loaded as they were written, the values in the file are
those of a plain list: a saved value comes first, a forgotten one goes, and nothing else happens.
-/

namespace FieldSearch.Store

inductive Edit where
  | save (value name : Text)
  | rename (index : Int) (name : Text)
  | forget (index : Int)

inductive Op where
  | edit (e : Edit)
  | get (index : Int)
  | list

namespace Edit

def apply (f : Format) (s : Store) : Edit → Change
  | save value name => s.save f value name
  | rename index name => s.rename f index name
  | forget index => s.forget f index

/-- What an edit needs of the values in the list: a query to save, or a place that there is. -/
def Allowed (values : List Text) : Edit → Prop
  | save value _ => ':' ∈ value
  | rename index _ | forget index => 0 ≤ index ∧ index < values.length

instance (values : List Text) : (e : Edit) → Decidable (e.Allowed values)
  | save value _ => inferInstanceAs (Decidable (':' ∈ value))
  | rename index _ | forget index => inferInstanceAs (Decidable (0 ≤ index ∧ index < values.length))

/-- The values after an edit. -/
def keep (values : List Text) : Edit → List Text
  | save value _ => value :: values
  | rename .. => values
  | forget index => values.eraseIdx index.toNat

/-- The searches after an edit. -/
def put (queries : List SavedQuery) : Edit → List SavedQuery
  | save value name => SavedQuery.listed { name, value } :: queries
  | rename index name => queries.modify index.toNat ({ · with name })
  | forget index => queries.eraseIdx index.toNat

/-- How an edit is refused. -/
def refusal : Edit → Failure
  | save value _ => .ofCause (.notAQuery (some value))
  | rename index _ | forget index => absent index

end Edit

/-- The store after a call; to look into it changes nothing. -/
def after (f : Format) (s : Store) : Op → Store
  | .edit e => (e.apply f s).2
  | .get _ | .list => s

/-- The store after calls in an empty directory. -/
def run (f : Format) (ops : List Op) : Store := ops.foldl (after f) {}

def keepOp (values : List Text) : Op → List Text
  | .edit e => if e.Allowed values then e.keep values else values
  | .get _ | .list => values

/-- The values that a plain list keeps. -/
def kept (ops : List Op) : List Text := ops.foldl keepOp []

def writeOp (queries : List SavedQuery) : Op → List SavedQuery
  | .edit e =>
    if e.Allowed (queries.map SavedQuery.value) then e.put (queries.map SavedQuery.listed)
    else queries
  | .get _ | .list => queries

/-- The list that the calls wrote last. -/
def written (ops : List Op) : List SavedQuery := ops.foldl writeOp []

/-! ## Single calls -/

variable {f : Format} {s : Store} {queries : List SavedQuery}

theorem place_of_bounds {index : Int} (h : 0 ≤ index ∧ index < queries.length) :
    place queries index = .ok ⟨index.toNat, (Int.toNat_lt h.1).mpr h.2⟩ := dif_pos h

theorem place_of_not_bounds {index : Int} (h : ¬ (0 ≤ index ∧ index < queries.length)) :
    place queries index = .error (absent index) :=
  dif_neg h

theorem rename_of_list (h : s.list f = .ok queries) (index : Int) (name : Text) :
    s.rename f index name = s.commit f ((place queries index).map
      fun n : Fin queries.length => queries.modify n ({ · with name })) := by
  rw [rename, h]
  exact congrArg (s.commit f) (bind_pure_comp _ (place queries index))

theorem forget_of_list (h : s.list f = .ok queries) (index : Int) :
    s.forget f index = s.commit f ((place queries index).map
      fun n : Fin queries.length => queries.eraseIdx n) := by
  rw [forget, h]
  exact congrArg (s.commit f) (bind_pure_comp _ (place queries index))

theorem get_of_list (h : s.list f = .ok queries) (index : Int) :
    s.get f index = (place queries index).map queries.get := by
  rw [get, h]
  exact bind_pure_comp _ (place queries index)

theorem apply_of_allowed (h : s.list f = .ok queries) (e : Edit)
    (hallowed : e.Allowed (queries.map SavedQuery.value)) :
    e.apply f s = (.ok (e.put queries), { file := some (f.write (e.put queries)) }) := by
  cases e with
  | save value name =>
    have hquery : Constraints.isQuery value = true := decide_eq_true hallowed
    rw [Edit.apply, save, hquery, h]
    rfl
  | rename index name =>
    simp only [Edit.Allowed, List.length_map] at hallowed
    rw [Edit.apply, rename_of_list h, place_of_bounds hallowed]
    rfl
  | forget index =>
    simp only [Edit.Allowed, List.length_map] at hallowed
    rw [Edit.apply, forget_of_list h, place_of_bounds hallowed]
    rfl

theorem apply_of_not_allowed (h : s.list f = .ok queries) (e : Edit)
    (hallowed : ¬ e.Allowed (queries.map SavedQuery.value)) :
    e.apply f s = (.error e.refusal, s) := by
  cases e with
  | save value name =>
    have hquery : Constraints.isQuery value = false := decide_eq_false hallowed
    rw [Edit.apply, save, hquery]
    rfl
  | rename index name =>
    simp only [Edit.Allowed, List.length_map] at hallowed
    rw [Edit.apply, rename_of_list h, place_of_not_bounds hallowed]
    rfl
  | forget index =>
    simp only [Edit.Allowed, List.length_map] at hallowed
    rw [Edit.apply, forget_of_list h, place_of_not_bounds hallowed]
    rfl

theorem map_value_listed (queries : List SavedQuery) :
    (queries.map SavedQuery.listed).map SavedQuery.value = queries.map SavedQuery.value := by
  rw [List.map_map]
  rfl

theorem map_value_put (queries : List SavedQuery) (e : Edit) :
    (e.put queries).map SavedQuery.value = e.keep (queries.map SavedQuery.value) := by
  cases e with
  | save value name => rfl
  | rename index name =>
    apply List.ext_getElem?
    intro i
    simp only [Edit.put, Edit.keep, List.getElem?_map, List.getElem?_modify]
    cases queries[i]? with
    | none => rfl
    | some q => by_cases hi : index.toNat = i <;> simp [hi]
  | forget index => exact (List.eraseIdx_map ..).symm

theorem map_value_writeOp (queries : List SavedQuery) (op : Op) :
    (writeOp queries op).map SavedQuery.value = keepOp (queries.map SavedQuery.value) op := by
  cases op with
  | edit e =>
    rw [writeOp, keepOp]
    split
    · rw [map_value_put, map_value_listed]
    · rfl
  | get index => rfl
  | list => rfl

theorem keepOp_colon {values : List Text} (h : ∀ value ∈ values, ':' ∈ value) (op : Op) :
    ∀ value ∈ keepOp values op, ':' ∈ value := by
  cases op with
  | edit e =>
    rw [keepOp]
    split
    · rename_i hallowed
      cases e with
      | save value name => exact List.forall_mem_cons.mpr ⟨hallowed, h⟩
      | rename index name => exact h
      | forget index => exact fun value hvalue => h value ((List.eraseIdx_subset ..) hvalue)
    · exact h
  | get index => exact h
  | list => exact h

/-! ## Runs -/

/-- The file holds the list; there may be no file for an empty one. -/
def Holds (f : Format) (s : Store) (queries : List SavedQuery) : Prop :=
  s.file = some (f.write queries) ∨ s.file = none ∧ queries = []

variable {write : List SavedQuery → Text} {load : Text → Except Yaml.Fault Yaml.Document}

/-- What is written is in UTF-8, so the reader comes to the text. -/
theorem read_write (write : List SavedQuery → Text)
    (load : Text → Except Yaml.Fault Yaml.Document) (queries : List SavedQuery) :
    (Format.loading write load).read ((Format.loading write load).write queries) =
      SavedQuery.ofLoaded (load (write queries)) := by
  simp only [Format.loading, Text.decodeUtf8?_encodeUtf8]

theorem Holds.list_eq (h : Holds (.loading write load) s queries)
    (hload : load (write queries) = .ok (SavedQuery.document queries)) :
    s.list (.loading write load) = .ok (queries.map SavedQuery.listed) := by
  rcases h with hfile | ⟨hfile, rfl⟩
  · rw [list, hfile]
    exact (read_write write load queries).trans
      ((congrArg SavedQuery.ofLoaded hload).trans (SavedQuery.ofLoaded_document queries))
  · rw [list, hfile]
    rfl

theorem Holds.after (h : Holds (.loading write load) s queries)
    (hload : load (write queries) = .ok (SavedQuery.document queries)) (op : Op) :
    Holds (.loading write load) (after (.loading write load) s op) (writeOp queries op) := by
  have hlist := h.list_eq hload
  cases op with
  | edit e =>
    rw [Store.after, writeOp, ← map_value_listed queries]
    by_cases hallowed : e.Allowed ((queries.map SavedQuery.listed).map SavedQuery.value)
    · rw [apply_of_allowed hlist e hallowed, if_pos hallowed]
      exact Or.inl rfl
    · rw [apply_of_not_allowed hlist e hallowed, if_neg hallowed]
      exact h
  | get index => exact h
  | list => exact h

theorem holds_run (ops : List Op)
    (hload : ∀ earlier ∈ ops.inits,
      load (write (written earlier)) = .ok (SavedQuery.document (written earlier))) :
    Holds (.loading write load) (run (.loading write load) ops) (written ops) := by
  induction ops using List.reverseRecOn with
  | nil => exact Or.inr ⟨rfl, rfl⟩
  | append_singleton ops op ih =>
    have hearlier : ∀ earlier ∈ ops.inits, earlier ∈ (ops ++ [op]).inits := by
      intro earlier h
      rw [List.mem_inits] at h ⊢
      exact h.trans (List.prefix_append ops [op])
    have hops : ops ∈ (ops ++ [op]).inits := (List.mem_inits ..).mpr (List.prefix_append ops [op])
    rw [run, written, List.foldl_append, List.foldl_append]
    exact (ih fun earlier h => hload earlier (hearlier earlier h)).after (hload ops hops) op

theorem map_value_written (ops : List Op) : (written ops).map SavedQuery.value = kept ops :=
  (List.foldl_hom _ fun queries op => (map_value_writeOp queries op).symm).symm

theorem kept_colon (ops : List Op) : ∀ value ∈ kept ops, ':' ∈ value := by
  apply List.foldlRecOn (motive := fun values => ∀ value ∈ values, ':' ∈ value)
  · nofun
  · intro values h op _
    exact keepOp_colon h op

/-- **Saved values are kept.** After any calls, however they ended, the file lists the values that a
plain list keeps, and each of them is a query. An edit succeeds exactly when it is allowed, and one
that is refused leaves the store as it was; a search is given out exactly when its place is there. -/
theorem values_kept (write : List SavedQuery → Text) (load : Text → Except Yaml.Fault Yaml.Document)
    (ops : List Op)
    (hload : ∀ earlier ∈ ops.inits,
      load (write (written earlier)) = .ok (SavedQuery.document (written earlier))) :
    let f := Format.loading write load
    let s := run f ops
    Holds f s (written ops) ∧
    (∃ queries, s.list f = .ok queries ∧ queries.map SavedQuery.value = kept ops) ∧
    (∀ value ∈ kept ops, ':' ∈ value) ∧
    (∀ e : Edit, e.Allowed (kept ops) → ∃ queries, (e.apply f s).1 = .ok queries ∧
      queries.map SavedQuery.value = e.keep (kept ops)) ∧
    (∀ e : Edit, ¬ e.Allowed (kept ops) → e.apply f s = (.error e.refusal, s)) ∧
    ∀ index : Int,
      (0 ≤ index ∧ index < (kept ops).length → ∃ q, s.get f index = .ok q ∧
        (kept ops)[index.toNat]? = some q.value) ∧
      (¬ (0 ≤ index ∧ index < (kept ops).length) → s.get f index = .error (absent index)) := by
  intro f s
  have hholds : Holds f s (written ops) := holds_run ops hload
  have hlist : s.list f = .ok ((written ops).map SavedQuery.listed) :=
    hholds.list_eq (hload ops ((List.mem_inits ..).mpr (List.prefix_refl ops)))
  have hvalues : ((written ops).map SavedQuery.listed).map SavedQuery.value = kept ops := by
    rw [map_value_listed, map_value_written]
  generalize (written ops).map SavedQuery.listed = queries at hlist hvalues
  have hlength : (kept ops).length = queries.length := by rw [← hvalues, List.length_map]
  refine ⟨hholds, ⟨queries, hlist, hvalues⟩, kept_colon ops, fun e hallowed => ?_, fun e hallowed => ?_,
    fun index => ⟨fun hbounds => ?_, fun hbounds => ?_⟩⟩
  · rw [← hvalues] at hallowed ⊢
    exact ⟨e.put queries, by rw [apply_of_allowed hlist e hallowed], map_value_put queries e⟩
  · rw [← hvalues] at hallowed
    exact apply_of_not_allowed hlist e hallowed
  · rw [hlength] at hbounds
    have hindex : index.toNat < queries.length := by omega
    refine ⟨queries[index.toNat], ?_, ?_⟩
    · rw [get_of_list hlist, place_of_bounds hbounds]
      rfl
    · rw [← hvalues, List.getElem?_map, List.getElem?_eq_getElem hindex]
      rfl
  · rw [hlength] at hbounds
    rw [get_of_list hlist, place_of_not_bounds hbounds]
    rfl

/-- Two searches are kept, after one was refused, one was given no name and one was forgotten. -/
def visit : List Op :=
  [.edit (.save "author: Mark" []), .edit (.save "hello" "x"),
   .edit (.save "title: it's, url: http://x" "5"), .edit (.rename 0 []), .edit (.forget (-1)),
   .edit (.forget 2), .get 1, .edit (.save "a:b" "c"), .edit (.forget 1), .list]

theorem values_kept_visit :
    (∀ earlier ∈ visit.inits, Yaml.Document.ofText? (SavedQuery.writeYaml (written earlier)) =
      .ok (SavedQuery.document (written earlier))) ∧
    (∃ queries, (run .yaml visit).list .yaml = .ok queries ∧
      queries.map SavedQuery.value = [("a:b" : Text), "author: Mark"]) ∧
    (Edit.forget 2).apply .yaml (run .yaml visit) =
      (.error (.ofCause (.notFound "Saved query" (some "2"))), run .yaml visit) := by
  have hload : ∀ earlier ∈ visit.inits,
      Yaml.Document.ofText? (SavedQuery.writeYaml (written earlier)) =
        .ok (SavedQuery.document (written earlier)) := by
    decide +kernel
  have hkept : kept visit = [("a:b" : Text), "author: Mark"] := by decide
  obtain ⟨-, hlist, -, -, hrefused, -⟩ :=
    values_kept SavedQuery.writeYaml Yaml.Document.ofText? visit hload
  rw [hkept] at hlist hrefused
  exact ⟨hload, hlist, hrefused (.forget 2) (by decide)⟩

end FieldSearch.Store
