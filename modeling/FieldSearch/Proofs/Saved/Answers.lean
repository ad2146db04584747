import FieldSearch.Proofs.Saved.Runs

/-!
# Answers of a store

An edit that succeeds answers the list it has written. The next reader sees the same list, except
that it shows a nameless search under the default name. A search that is saved has its name by then,
and so have all that were read, but one that is renamed to nothing has none.
-/

namespace FieldSearch

namespace SavedQuery

theorem name_listed_ne (q : SavedQuery) : q.listed.name ≠ [] := by
  have hdefault : defaultName ≠ [] := by decide
  by_cases h : q.name = []
  · simp [listed, h, hdefault]
  · simp [listed, h]

theorem listed_eq_self_iff {q : SavedQuery} : q.listed = q ↔ q.name ≠ [] := by
  constructor
  · intro h
    exact h ▸ name_listed_ne q
  · intro h
    simp [listed, h]

theorem map_listed_eq_self_iff {queries : List SavedQuery} :
    queries.map listed = queries ↔ ∀ q ∈ queries, q.name ≠ [] := by
  induction queries with
  | nil => simp
  | cons q queries ih => simp [ih, listed_eq_self_iff]

end SavedQuery

namespace Store

variable {f : Format} {s : Store} {queries : List SavedQuery}

/-! ## What an edit writes -/

theorem allowed_of_apply_eq_ok {e : Edit} {answer : List SavedQuery}
    (hlist : s.list f = .ok queries) (h : (e.apply f s).1 = .ok answer) :
    e.Allowed (queries.map SavedQuery.value) ∧ answer = e.put queries := by
  by_cases hallowed : e.Allowed (queries.map SavedQuery.value)
  · rw [apply_of_allowed hlist e hallowed] at h
    cases h
    exact ⟨hallowed, rfl⟩
  · rw [apply_of_not_allowed hlist e hallowed] at h
    cases h

/-- Among searches that have names, an edit can leave one without a name only by renaming it. -/
theorem named_put_iff {e : Edit} (hallowed : e.Allowed (queries.map SavedQuery.value))
    (hnamed : ∀ q ∈ queries, q.name ≠ []) :
    (∀ q ∈ e.put queries, q.name ≠ []) ↔ ∀ index, e ≠ .rename index [] := by
  cases e with
  | save value name =>
    have hput : ∀ q ∈ (Edit.save value name).put queries, q.name ≠ [] :=
      List.forall_mem_cons.mpr ⟨SavedQuery.name_listed_ne _, hnamed⟩
    exact iff_of_true hput nofun
  | forget index =>
    have hput : ∀ q ∈ (Edit.forget index).put queries, q.name ≠ [] := fun q hq =>
      hnamed q (List.eraseIdx_subset hq)
    exact iff_of_true hput nofun
  | rename index name =>
    have hplace : index.toNat < queries.length := by
      simp only [Edit.Allowed, List.length_map] at hallowed
      omega
    constructor
    · intro hput other hrename
      cases hrename
      have hmem : { queries[index.toNat] with name := [] } ∈
          (Edit.rename index []).put queries := by
        rw [Edit.put, List.mem_iff_getElem?]
        exact ⟨index.toNat, by simp [hplace]⟩
      exact hput _ hmem rfl
    · intro hname q hq
      obtain ⟨i, hi⟩ := List.getElem?_of_mem hq
      rw [Edit.put, List.getElem?_modify] at hi
      obtain ⟨q', hq', rfl⟩ := Option.map_eq_some_iff.mp hi
      by_cases hsame : index.toNat = i
      · simp only [hsame, if_true]
        intro hnil
        exact hname index (by rw [hnil])
      · simp only [hsame, if_false]
        exact hnamed q' (List.mem_of_getElem? hq')

/-! ## What is listed next -/

variable {write : List SavedQuery → Text} {load : Text → Except Yaml.Fault Yaml.Document}

theorem written_concat (ops : List Op) (op : Op) :
    written (ops ++ [op]) = writeOp (written ops) op :=
  List.foldl_append ..

/-- After any calls the store lists what was written last. -/
theorem list_run (ops : List Op)
    (hload : ∀ earlier ∈ ops.inits,
      load (write (written earlier)) = .ok (SavedQuery.document (written earlier))) :
    (run (.loading write load) ops).list (.loading write load) =
      .ok ((written ops).map SavedQuery.listed) :=
  (holds_run ops hload).list_eq (hload ops ((List.mem_inits ..).mpr (List.prefix_refl ops)))

/-- **Answers.** After any calls, let an edit succeed. The list that is read next, by this store or
another one in the same directory, is the one that the edit has answered, with the default name for
a search that has none. It is the very list that was answered, unless the edit has renamed a search
to nothing. -/
theorem answer_listed_iff (write : List SavedQuery → Text)
    (load : Text → Except Yaml.Fault Yaml.Document) (ops : List Op) (e : Edit)
    (hload : ∀ earlier ∈ (ops ++ [Op.edit e]).inits,
      load (write (written earlier)) = .ok (SavedQuery.document (written earlier)))
    (answer : List SavedQuery)
    (hanswer : (e.apply (.loading write load) (run (.loading write load) ops)).1 = .ok answer) :
    let f := Format.loading write load
    let next := (run f (ops ++ [Op.edit e])).list f
    next = .ok (answer.map SavedQuery.listed) ∧
      (next = .ok answer ↔ ∀ index, e ≠ .rename index []) := by
  intro f next
  have hops : ∀ earlier ∈ ops.inits, earlier ∈ (ops ++ [Op.edit e]).inits := by
    intro earlier h
    rw [List.mem_inits] at h ⊢
    exact h.trans (List.prefix_append ops _)
  have hlist : (run f ops).list f = .ok ((written ops).map SavedQuery.listed) :=
    list_run ops fun earlier h => hload earlier (hops earlier h)
  obtain ⟨hallowed, rfl⟩ := allowed_of_apply_eq_ok hlist hanswer
  have hwritten : written (ops ++ [Op.edit e]) = e.put ((written ops).map SavedQuery.listed) := by
    rw [map_value_listed] at hallowed
    rw [written_concat, writeOp, if_pos hallowed]
  have hnext :
      next = .ok ((e.put ((written ops).map SavedQuery.listed)).map SavedQuery.listed) := by
    rw [← hwritten]
    exact list_run (ops ++ [Op.edit e]) hload
  have hnamed : ∀ q ∈ (written ops).map SavedQuery.listed, q.name ≠ [] := by
    intro q hq
    obtain ⟨q', -, rfl⟩ := List.mem_map.mp hq
    exact q'.name_listed_ne
  refine ⟨hnext, ?_⟩
  rw [hnext, Except.ok.injEq, SavedQuery.map_listed_eq_self_iff]
  exact named_put_iff hallowed hnamed

/-- A search is saved without a name, and another one with a name of its own. -/
def saves : List Op := [.edit (.save "author: Mark" []), .edit (.save "title: cats" "Cats")]

theorem loads_saves : ∀ earlier ∈ saves.inits,
    Yaml.Document.ofText? (SavedQuery.writeYaml (written earlier)) =
      .ok (SavedQuery.document (written earlier)) := by
  decide +kernel

theorem apply_saves (index : Int) (h : 0 ≤ index ∧ index < 2) (name : Text) :
    ((Edit.rename index name).apply .yaml (run .yaml saves)).1 =
      .ok ((Edit.rename index name).put
        [⟨"Cats", "title: cats"⟩, ⟨SavedQuery.defaultName, "author: Mark"⟩]) := by
  have hlist : (run .yaml saves).list .yaml =
      .ok [⟨"Cats", "title: cats"⟩, ⟨SavedQuery.defaultName, "author: Mark"⟩] :=
    list_run saves loads_saves
  rw [apply_of_allowed hlist (.rename index name) h]

theorem answer_listed_iff_renamed :
    (∀ earlier ∈ (saves ++ [Op.edit (.rename 1 "Mark's")]).inits,
      Yaml.Document.ofText? (SavedQuery.writeYaml (written earlier)) =
        .ok (SavedQuery.document (written earlier))) ∧
    ((Edit.rename 1 "Mark's").apply .yaml (run .yaml saves)).1 =
      .ok [⟨"Cats", "title: cats"⟩, ⟨"Mark's", "author: Mark"⟩] ∧
    (run .yaml (saves ++ [Op.edit (.rename 1 "Mark's")])).list .yaml =
      .ok [⟨"Cats", "title: cats"⟩, ⟨"Mark's", "author: Mark"⟩] := by
  have hload : ∀ earlier ∈ (saves ++ [Op.edit (.rename 1 "Mark's")]).inits,
      Yaml.Document.ofText? (SavedQuery.writeYaml (written earlier)) =
        .ok (SavedQuery.document (written earlier)) := by
    decide +kernel
  have hanswer := apply_saves 1 (by decide) "Mark's"
  obtain ⟨-, hsame⟩ := answer_listed_iff SavedQuery.writeYaml Yaml.Document.ofText? saves
    (.rename 1 "Mark's") hload _ hanswer
  exact ⟨hload, hanswer, hsame.mpr (by simp)⟩

/-- A search that is renamed to nothing is answered without a name, and listed under the default
one. -/
theorem renamed_not_listed :
    ¬ ∀ (write : List SavedQuery → Text) (load : Text → Except Yaml.Fault Yaml.Document)
      (ops : List Op) (e : Edit) (answer : List SavedQuery),
      (∀ earlier ∈ (ops ++ [Op.edit e]).inits,
        load (write (written earlier)) = .ok (SavedQuery.document (written earlier))) →
      (e.apply (.loading write load) (run (.loading write load) ops)).1 = .ok answer →
      (run (.loading write load) (ops ++ [Op.edit e])).list (.loading write load) = .ok answer := by
  intro hall
  have hload : ∀ earlier ∈ (saves ++ [Op.edit (.rename 1 [])]).inits,
      Yaml.Document.ofText? (SavedQuery.writeYaml (written earlier)) =
        .ok (SavedQuery.document (written earlier)) := by
    decide +kernel
  have hanswer := apply_saves 1 (by decide) []
  have hlisted : (run .yaml (saves ++ [Op.edit (.rename 1 [])])).list .yaml =
      .ok [⟨"Cats", "title: cats"⟩, ⟨SavedQuery.defaultName, "author: Mark"⟩] :=
    list_run _ hload
  have hsame := hall SavedQuery.writeYaml Yaml.Document.ofText? saves (.rename 1 []) _ hload hanswer
  have heq := Except.ok.inj (hlisted.symm.trans hsame)
  revert heq
  decide

end Store

end FieldSearch
