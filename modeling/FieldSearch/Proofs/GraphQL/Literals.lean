import FieldSearch.Proofs.GraphQL.SearchDocument
import FieldSearch.Proofs.Number.Written

/-!
# Literals read back

A value is written exactly if everything in it that holds nothing else can be; if not, the first
such thing from the left says why. What is written for a value whose keys are names is one value of
the language, and is read back as the value it was written for.
-/

namespace FieldSearch.GraphQL

theorem writes_ofFloat {x : Float} (h : Number.isFinite x = true) :
    Writes (Number.ofFloat x) [.float (Number.ofFloat x)] := by
  obtain ⟨negative, text, hreal, htext⟩ := Number.exists_ofFloat_eq h
  intro rest hrest
  rw [htext]
  exact lexemes_real hreal negative hrest.endsNumber

namespace Value

/-! ## What cannot be written -/

mutual

/-- Everything in a value that holds nothing else, from left to right. -/
def leaves : Value → List Value
  | list items => itemLeaves items
  | object members => memberLeaves members
  | leaf => [leaf]

def itemLeaves : List Value → List Value
  | [] => []
  | item :: rest => item.leaves ++ itemLeaves rest

def memberLeaves : List (Text × Value) → List Value
  | [] => []
  | (_, value) :: rest => value.leaves ++ memberLeaves rest

end

/-- Why something that holds nothing else cannot be written. -/
def fault? : Value → Option Crash
  | int n => if 10 ^ Number.maxDigits ≤ n.natAbs then some .tooManyDigits else none
  | real x => if Number.isFinite x then none else some (.nonFinite x)
  | foreign kind => some (.foreignValue kind)
  | _ => none

theorem fault?_int_eq_none_iff {n : Int} :
    (int n).fault? = none ↔ n.natAbs < 10 ^ Number.maxDigits := by
  simp [fault?]

theorem fault?_real_eq_none_iff {x : Float} :
    (real x).fault? = none ↔ Number.isFinite x = true := by
  simp [fault?]

/-- The crash of an operation that fails. -/
def crash? {α : Type} : Except Crash α → Option Crash
  | .ok _ => none
  | .error c => some c

theorem crash?_eq_some_iff {α : Type} {result : Except Crash α} {c : Crash} :
    crash? result = some c ↔ result = .error c := by
  cases result <;> simp [crash?]

theorem crash?_map {α β : Type} (f : α → β) (result : Except Crash α) :
    crash? (f <$> result) = crash? result := by
  cases result <;> rfl

theorem crash?_bind_map {α β γ : Type} (first : Except Crash α) (f : α → β → γ)
    (rest : Except Crash β) :
    crash? (first >>= fun a => f a <$> rest) = (crash? first).or (crash? rest) := by
  cases first <;> cases rest <;> rfl

theorem literals_cons (item : Value) (rest : List Value) :
    literals (item :: rest) = literal item >>= fun first => (first :: ·) <$> literals rest := by
  rw [literals]
  rfl

theorem memberLiterals_cons (key : Text) (value : Value) (rest : List (Text × Value)) :
    memberLiterals ((key, value) :: rest) =
      literal value >>= fun first => ((key, first) :: ·) <$> memberLiterals rest := by
  rw [memberLiterals]
  rfl

theorem crash?_written (n : Int) : crash? (Number.written n) = (int n).fault? := by
  rw [fault?]
  cases h : Number.isWritable n with
  | true =>
    rw [Number.written_of_isWritable h, if_neg (Nat.not_le.mpr (Number.isWritable_iff.mp h))]
    rfl
  | false =>
    rw [Number.written_of_not_isWritable h, if_pos (Number.isWritable_eq_false_iff.mp h)]
    rfl

theorem crash?_real (x : Float) : crash? (literal (real x)) = (real x).fault? := by
  rw [literal, fault?]
  split <;> rfl

mutual

theorem crash?_literal : ∀ v : Value, crash? v.literal = v.leaves.findSome? fault?
  | null | bool true | bool false | text _ | foreign _ => rfl
  | int n => by
    rw [literal, crash?_written]
    exact List.findSome?_singleton.symm
  | real x => by
    rw [crash?_real]
    exact List.findSome?_singleton.symm
  | list items => by
    rw [leaves, ← crash?_literals items, literal]
    exact crash?_map listLiteral _
  | object members => by
    rw [leaves, ← crash?_memberLiterals members, literal]
    exact crash?_map objectLiteral _

theorem crash?_literals : ∀ items : List Value,
    crash? (literals items) = (itemLeaves items).findSome? fault?
  | [] => by rw [literals, itemLeaves]; rfl
  | item :: rest => by
    rw [literals_cons, crash?_bind_map, crash?_literal item, crash?_literals rest, itemLeaves,
      List.findSome?_append]

theorem crash?_memberLiterals : ∀ members : List (Text × Value),
    crash? (memberLiterals members) = (memberLeaves members).findSome? fault?
  | [] => by rw [memberLiterals, memberLeaves]; rfl
  | (key, value) :: rest => by
    rw [memberLiterals_cons, crash?_bind_map, crash?_literal value, crash?_memberLiterals rest,
      memberLeaves, List.findSome?_append]

end

theorem literal_eq_error_iff {v : Value} {c : Crash} :
    v.literal = .error c ↔ v.leaves.findSome? fault? = some c := by
  rw [← crash?_literal, crash?_eq_some_iff]

/-! ## Values read -/

mutual

/-- The value that is written so, if one is: none is written as an enum or a block string. -/
def ofLiteral? : Literal → Option Value
  | .null => some null
  | .bool b => some (bool b)
  | .int n => some (int n)
  | .float t => (Number.readFloat t).map real
  | .string t => some (text t)
  | .blockString _ | .enum _ => none
  | .list items => (ofItems? items).map list
  | .object members => (ofMembers? members).map object

def ofItems? : List Literal → Option (List Value)
  | [] => some []
  | item :: rest => do return (← ofLiteral? item) :: (← ofItems? rest)

def ofMembers? : List (Text × Literal) → Option (List (Text × Value))
  | [] => some []
  | (key, value) :: rest => do return (key, ← ofLiteral? value) :: (← ofMembers? rest)

end

/-- Reads a text that is one value of the language, and nothing else. -/
def read? (text : Text) : Option Value := do
  let ls ← lexemes text
  let (v, rest) ← Reader.value ls.length ls
  if rest.isEmpty then ofLiteral? v else none

theorem read?_of_lexemes {text : Text} {v : Literal} (h : lexemes text = some v.lexemes) :
    read? text = ofLiteral? v := by
  have hvalue := Reader.value_lexemes v (Nat.le_refl _) []
  rw [List.append_nil] at hvalue
  rw [read?, h]
  simp only [Option.bind_eq_bind, Option.bind_some]
  rw [hvalue]
  rfl

mutual

/-- The keys of all objects in a value. -/
def keys : Value → List Text
  | list items => itemKeys items
  | object members => memberKeys members
  | _ => []

def itemKeys : List Value → List Text
  | [] => []
  | item :: rest => item.keys ++ itemKeys rest

def memberKeys : List (Text × Value) → List Text
  | [] => []
  | (key, value) :: rest => key :: (value.keys ++ memberKeys rest)

end

/-- Leaves and keys that are written as what they are, and floats that are read back. -/
structure Legible (leaves : List Value) (keys : List Text) : Prop where
  writable : ∀ leaf ∈ leaves, leaf.fault? = none
  named : ∀ key ∈ keys, isName key = true
  readBack : ∀ x, real x ∈ leaves → Number.readFloat (Number.ofFloat x) = some x

section

variable {leaves more : List Value} {keys others : List Text}

theorem Legible.of_subset (h : Legible leaves keys) (hleaves : more ⊆ leaves)
    (hkeys : others ⊆ keys) : Legible more others where
  writable leaf hleaf := h.writable leaf (hleaves hleaf)
  named key hkey := h.named key (hkeys hkey)
  readBack x hx := h.readBack x (hleaves hx)

theorem Legible.append (h : Legible (leaves ++ more) (keys ++ others)) :
    Legible leaves keys ∧ Legible more others := by
  constructor
  · exact h.of_subset (List.subset_append_left ..) (List.subset_append_left ..)
  · exact h.of_subset (List.subset_append_right ..) (List.subset_append_right ..)

theorem Legible.cons {key : Text} (h : Legible leaves (key :: keys)) :
    isName key = true ∧ Legible leaves keys :=
  ⟨h.named key (List.mem_cons_self ..),
    h.of_subset (List.Subset.refl _) (List.subset_cons_self ..)⟩

theorem Legible.leaf {v : Value} (h : Legible [v] keys) : v.fault? = none :=
  h.writable v (List.mem_singleton_self v)

end

-- what is written has the lexemes of a literal that stands for the value
mutual

theorem exists_literal : ∀ v : Value, Legible v.leaves v.keys →
    ∃ t l, v.literal = .ok t ∧ Writes t l.lexemes ∧ ofLiteral? l = some v
  | null, _ => ⟨_, .null, rfl, writes_name (by decide), rfl⟩
  | bool true, _ => ⟨_, .bool true, rfl, writes_name (by decide), rfl⟩
  | bool false, _ => ⟨_, .bool false, rfl, writes_name (by decide), rfl⟩
  | int n, h => by
    have hsmall := Number.isWritable_iff.mpr (fault?_int_eq_none_iff.mp h.leaf)
    exact ⟨Text.ofInt n, .int n, Number.written_of_isWritable hsmall, writes_ofInt n, rfl⟩
  | real x, h => by
    have hfinite := fault?_real_eq_none_iff.mp h.leaf
    refine ⟨Number.ofFloat x, .float (Number.ofFloat x), if_pos hfinite, writes_ofFloat hfinite, ?_⟩
    rw [ofLiteral?, h.readBack x (List.mem_singleton_self _)]
    rfl
  | text t, _ => ⟨_, .string t, rfl, writes_stringLiteral t, rfl⟩
  | foreign kind, h => by cases h.leaf
  | list items, h => by
    rw [leaves, keys] at h
    obtain ⟨ts, ls, hts, hwrites, hls⟩ := exists_literals items h
    refine ⟨listLiteral ts, .list ls, ?_, ?_, ?_⟩
    · rw [literal, hts]
      rfl
    · rw [Literal.lexemes]
      exact hwrites.enclosed (by decide) (by decide) (delimited_cons (by decide) _)
    · rw [ofLiteral?, hls]
      rfl
  | object members, h => by
    rw [leaves, keys] at h
    obtain ⟨ts, ls, hts, hwrites, hls⟩ := exists_memberLiterals members h
    refine ⟨objectLiteral ts, .object ls, ?_, ?_, ?_⟩
    · rw [literal, hts]
      rfl
    · rw [Literal.lexemes]
      have hall := writesAll_keyed hwrites
      exact hall.enclosed (by decide) (by decide) (delimited_cons (by decide) _)
    · rw [ofLiteral?, hls]
      rfl

theorem exists_literals : ∀ items : List Value, Legible (itemLeaves items) (itemKeys items) →
    ∃ ts ls, literals items = .ok ts ∧ WritesAll ts (Literal.itemLexemes ls) ∧
      ofItems? ls = some items
  | [], _ => ⟨[], [], rfl, .nil, rfl⟩
  | item :: rest, h => by
    obtain ⟨hitem, hrest⟩ := Legible.append h
    obtain ⟨t, l, ht, hwrites, hl⟩ := exists_literal item hitem
    obtain ⟨ts, ls, hts, hall, hls⟩ := exists_literals rest hrest
    refine ⟨t :: ts, l :: ls, ?_, ?_, ?_⟩
    · rw [literals_cons, ht, hts]
      rfl
    · exact .cons hwrites hall
    · rw [ofItems?, hl, hls]
      rfl

theorem exists_memberLiterals : ∀ members : List (Text × Value),
    Legible (memberLeaves members) (memberKeys members) →
    ∃ ts ls, memberLiterals members = .ok ts ∧
      List.Forall₂ (fun m v => m.1 = v.1 ∧ isName m.1 = true ∧ Writes m.2 v.2.lexemes) ts ls ∧
      ofMembers? ls = some members
  | [], _ => ⟨[], [], rfl, .nil, rfl⟩
  | (key, value) :: rest, h => by
    obtain ⟨hkey, h⟩ := Legible.cons h
    obtain ⟨hvalue, hrest⟩ := Legible.append h
    obtain ⟨t, l, ht, hwrites, hl⟩ := exists_literal value hvalue
    obtain ⟨ts, ls, hts, hall, hls⟩ := exists_memberLiterals rest hrest
    refine ⟨(key, t) :: ts, (key, l) :: ls, ?_, .cons ⟨rfl, hkey, hwrites⟩ hall, ?_⟩
    · rw [memberLiterals_cons, ht, hts]
      rfl
    · rw [ofMembers?, hl, hls]
      rfl

end

/-- **Values are read back.** A value is written unless something in it that holds nothing else cannot
be: a number that is not finite, a thing of a kind that documents do not have, or a whole number of
too many digits. The crash is then that of the first such thing from the left. What is written is
read as the same value, if the keys of its objects are names and its floats are read back from their
own texts. -/
theorem literal_round_trip (v : Value) :
    (∀ c, v.literal = .error c ↔ v.leaves.findSome? fault? = some c) ∧
    ((∀ leaf ∈ v.leaves, leaf.fault? = none) → (∀ key ∈ v.keys, isName key = true) →
      (∀ x, real x ∈ v.leaves → Number.readFloat (Number.ofFloat x) = some x) →
      ∃ t, v.literal = .ok t ∧ read? t = some v) := by
  refine ⟨fun _ => literal_eq_error_iff, fun hwritable hnamed hexact => ?_⟩
  obtain ⟨t, l, ht, hwrites, hl⟩ := exists_literal v ⟨hwritable, hnamed, hexact⟩
  exact ⟨t, ht, (read?_of_lexemes hwrites.lexemes_eq).trans hl⟩

def nested : Value := object
  [("items", list [null, bool true, int (-20), real 1.5, real 1e22, text "a: [\x7b\\\", b"]),
    ("_2", object []), ("empty", list [])]

theorem literal_round_trip_nested :
    (∀ leaf ∈ nested.leaves, leaf.fault? = none) ∧ (∀ key ∈ nested.keys, isName key = true) ∧
    (∀ x, real x ∈ nested.leaves → Number.readFloat (Number.ofFloat x) = some x) ∧
    (∃ t, nested.literal = .ok t ∧ read? t = some nested) ∧
    literal (list [bool true, object [("a", foreign "set")], real (1.0 / 0.0)]) =
      .error (.foreignValue "set") := by
  have hleaves : nested.leaves =
      [null, bool true, int (-20), real 1.5, real 1e22, text "a: [\x7b\\\", b"] := rfl
  have hwritable : ∀ leaf ∈ nested.leaves, leaf.fault? = none := by
    rw [hleaves]
    simp only [List.forall_mem_cons]
    exact ⟨rfl, rfl, fault?_int_eq_none_iff.mpr (by decide +kernel),
      fault?_real_eq_none_iff.mpr (by decide +kernel),
      fault?_real_eq_none_iff.mpr (by decide +kernel), rfl, nofun⟩
  have hnamed : ∀ key ∈ nested.keys, isName key = true := by decide
  have hexact : ∀ x, real x ∈ nested.leaves → Number.readFloat (Number.ofFloat x) = some x := by
    intro x hx
    rw [hleaves] at hx
    simp only [List.mem_cons, reduceCtorEq, real.injEq, false_or, List.not_mem_nil, or_false] at hx
    rcases hx with rfl | rfl
    · decide +kernel
    · decide +kernel
  exact ⟨hwritable, hnamed, hexact, (literal_round_trip nested).2 hwritable hnamed hexact,
    ((literal_round_trip _).1 _).mpr rfl⟩

end Value

end FieldSearch.GraphQL
