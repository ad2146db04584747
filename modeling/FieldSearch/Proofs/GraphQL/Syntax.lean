import FieldSearch.Proofs.GraphQL.Lexeme

/-!
# The query language

The part of the language without variables, directives and fragments: operations, fields with
aliases and arguments, and values. A reader takes the lexemes of a document and gives its
operations. Every operation is read back from the lexemes that write it.
-/

namespace FieldSearch.GraphQL

def keywords : List Text := ["null", "true", "false"]

inductive Literal where
  | null
  | bool (b : Bool)
  | int (n : Int)
  | float (t : Text)
  | string (t : Text)
  | blockString (t : Text)
  | enum (name : {t : Text // t ∉ keywords})
  | list (items : List Literal)
  | object (members : List (Text × Literal))

/-- A field with what is selected below it; nothing below stands for a field without braces. -/
structure Field where
  alias? : Option Text := none
  name : Text
  arguments : List (Text × Literal) := []
  selections : List Field := []

inductive OperationKind where
  | query
  | mutation
  | subscription
deriving DecidableEq

structure Operation where
  kind : OperationKind
  name? : Option Text
  selections : List Field

namespace Literal

def ofName (t : Text) : Literal :=
  if h : t ∈ keywords then
    if t = "null".toList then null else bool (t = "true".toList)
  else enum ⟨t, h⟩

mutual

def lexemes : Literal → List Lexeme
  | null => [.name "null"]
  | bool true => [.name "true"]
  | bool false => [.name "false"]
  | int n => [.int n]
  | float t => [.float t]
  | string t => [.string t]
  | blockString t => [.blockString t]
  | enum name => [.name name]
  | list items => .punctuator '[' :: (itemLexemes items ++ [.punctuator ']'])
  | object members => .punctuator '\x7b' :: (memberLexemes members ++ [.punctuator '\x7d'])

def itemLexemes : List Literal → List Lexeme
  | [] => []
  | item :: rest => item.lexemes ++ itemLexemes rest

def memberLexemes : List (Text × Literal) → List Lexeme
  | [] => []
  | (key, value) :: rest => .name key :: .punctuator ':' :: (value.lexemes ++ memberLexemes rest)

end

end Literal

open Literal (memberLexemes itemLexemes)

def argumentLexemes : List (Text × Literal) → List Lexeme
  | [] => []
  | arguments => .punctuator '(' :: (memberLexemes arguments ++ [.punctuator ')'])

namespace Field

mutual

def lexemes : Field → List Lexeme
  | ⟨alias?, name, arguments, selections⟩ =>
    (alias?.elim [] fun a => [.name a, .punctuator ':']) ++
      .name name :: (argumentLexemes arguments ++ selectionLexemes selections)

def selectionLexemes : List Field → List Lexeme
  | [] => []
  | field :: rest =>
    .punctuator '\x7b' :: (field.lexemes ++ (listLexemes rest ++ [.punctuator '\x7d']))

def listLexemes : List Field → List Lexeme
  | [] => []
  | field :: rest => field.lexemes ++ listLexemes rest

end

end Field

namespace OperationKind

def word : OperationKind → Text
  | query => "query"
  | mutation => "mutation"
  | subscription => "subscription"

def ofWord? (t : Text) : Option OperationKind :=
  [query, mutation, subscription].find? (·.word = t)

theorem ofWord?_word (kind : OperationKind) : ofWord? kind.word = some kind := by
  cases kind <;> decide

end OperationKind

namespace Operation

def lexemes (o : Operation) : List Lexeme :=
  .name o.kind.word :: (o.name?.toList.map .name ++ Field.selectionLexemes o.selections)

end Operation

namespace Reader

mutual

def value : Nat → List Lexeme → Option (Literal × List Lexeme)
  | 0, _ => none
  | fuel + 1, ls =>
    match ls with
    | .int n :: rest => some (.int n, rest)
    | .float t :: rest => some (.float t, rest)
    | .string t :: rest => some (.string t, rest)
    | .blockString t :: rest => some (.blockString t, rest)
    | .name t :: rest => some (.ofName t, rest)
    | .punctuator '[' :: rest => (items fuel rest).map fun (vs, rest) => (.list vs, rest)
    | .punctuator '\x7b' :: rest =>
      (members '\x7d' fuel rest).map fun (ms, rest) => (.object ms, rest)
    | _ => none

def items : Nat → List Lexeme → Option (List Literal × List Lexeme)
  | 0, _ => none
  | _ + 1, .punctuator ']' :: rest => some ([], rest)
  | fuel + 1, ls => do
    let (v, rest) ← value fuel ls
    let (vs, rest) ← items fuel rest
    some (v :: vs, rest)

def members (close : Char) : Nat → List Lexeme → Option (List (Text × Literal) × List Lexeme)
  | _ + 1, .punctuator c :: rest => if c = close then some ([], rest) else none
  | fuel + 1, .name key :: .punctuator ':' :: rest => do
    let (v, rest) ← value fuel rest
    let (ms, rest) ← members close fuel rest
    some ((key, v) :: ms, rest)
  | _, _ => none

end

def arguments (fuel : Nat) : List Lexeme → Option (List (Text × Literal) × List Lexeme)
  | .punctuator '(' :: rest => (members ')' fuel rest).filter fun (ms, _) => !ms.isEmpty
  | rest => some ([], rest)

def fieldHead : List Lexeme → Option (Option Text × Text × List Lexeme)
  | .name a :: .punctuator ':' :: rest =>
    match rest with
    | .name t :: rest => some (some a, t, rest)
    | _ => none
  | .name t :: rest => some (none, t, rest)
  | _ => none

mutual

def fields : Nat → List Lexeme → Option (List Field × List Lexeme)
  | 0, _ => none
  | _ + 1, .punctuator '\x7d' :: rest => some ([], rest)
  | fuel + 1, ls => do
    let (alias?, name, rest) ← fieldHead ls
    let (args, rest) ← arguments fuel rest
    let (below, rest) ← selections fuel rest
    let (more, rest) ← fields fuel rest
    some (⟨alias?, name, args, below⟩ :: more, rest)

def selections : Nat → List Lexeme → Option (List Field × List Lexeme)
  | 0, _ => none
  | fuel + 1, .punctuator '\x7b' :: rest => (fields fuel rest).filter fun (fs, _) => !fs.isEmpty
  | _ + 1, rest => some ([], rest)

end

/-- An operation; without any word it is a query. -/
def operation (fuel : Nat) (ls : List Lexeme) : Option (Operation × List Lexeme) :=
  match ls with
  | .name word :: .name t :: .punctuator '\x7b' :: rest => do
    let kind ← OperationKind.ofWord? word
    let (fs, rest) ← selections fuel (.punctuator '\x7b' :: rest)
    some (⟨kind, some t, fs⟩, rest)
  | .name word :: .punctuator '\x7b' :: rest => do
    let kind ← OperationKind.ofWord? word
    let (fs, rest) ← selections fuel (.punctuator '\x7b' :: rest)
    some (⟨kind, none, fs⟩, rest)
  | .punctuator '\x7b' :: rest => do
    let (fs, rest) ← selections fuel (.punctuator '\x7b' :: rest)
    some (⟨.query, none, fs⟩, rest)
  | _ => none

def operations : Nat → List Lexeme → Option (List Operation)
  | _, [] => some []
  | 0, _ => none
  | fuel + 1, ls => do
    let (o, rest) ← operation (fuel + 1) ls
    let more ← operations fuel rest
    some (o :: more)

/-! ## Values read back -/

theorem ofName_enum (name : {t : Text // t ∉ keywords}) : Literal.ofName name = .enum name := by
  rw [Literal.ofName, dif_neg name.2]

theorem lexemes_eq_cons (v : Literal) :
    ∃ l ls, v.lexemes = l :: ls ∧ l ≠ .punctuator ']' := by
  cases v with
  | bool b => cases b <;> exact ⟨_, _, rfl, nofun⟩
  | list items => rw [Literal.lexemes]; exact ⟨_, _, rfl, by decide⟩
  | object members => rw [Literal.lexemes]; exact ⟨_, _, rfl, by decide⟩
  | _ => exact ⟨_, _, rfl, nofun⟩

theorem items_cons {v : Literal} {fuel : Nat} (ls : List Lexeme) :
    items (fuel + 1) (v.lexemes ++ ls) = (value fuel (v.lexemes ++ ls)).bind fun (v, rest) =>
      (items fuel rest).bind fun (vs, rest) => some (v :: vs, rest) := by
  obtain ⟨l, tail, hl, hne⟩ := lexemes_eq_cons v
  rw [hl, List.cons_append, items]
  · rfl
  · exact fun _ h => absurd (List.cons.inj h).1 hne

-- every call of the reader takes one off its fuel, and at least one lexeme off the text
mutual

theorem value_lexemes (v : Literal) {fuel : Nat} (hfuel : v.lexemes.length ≤ fuel)
    (rest : List Lexeme) : value fuel (v.lexemes ++ rest) = some (v, rest) := by
  obtain ⟨l, tail, hl, -⟩ := lexemes_eq_cons v
  obtain ⟨fuel, rfl⟩ : ∃ n, fuel = n + 1 := Nat.exists_eq_add_one_of_ne_zero (by
    rintro rfl
    rw [hl] at hfuel
    cases hfuel)
  cases v with
  | null => rw [Literal.lexemes]; rfl
  | bool b => cases b <;> rfl
  | int n => rfl
  | float t => rfl
  | string t => rfl
  | blockString t => rfl
  | enum name => rw [Literal.lexemes, List.singleton_append, value, ofName_enum]
  | list vs =>
    rw [Literal.lexemes] at hfuel ⊢
    simp only [List.length_cons, List.length_append, List.length_nil] at hfuel
    rw [List.cons_append, List.append_assoc, List.singleton_append, value,
      items_lexemes vs (by omega)]
    rfl
  | object ms =>
    rw [Literal.lexemes] at hfuel ⊢
    simp only [List.length_cons, List.length_append, List.length_nil] at hfuel
    rw [List.cons_append, List.append_assoc, List.singleton_append, value,
      members_lexemes '\x7d' ms (by omega)]
    rfl

theorem items_lexemes (vs : List Literal) {fuel : Nat} (hfuel : (itemLexemes vs).length < fuel)
    (rest : List Lexeme) :
    items fuel (itemLexemes vs ++ .punctuator ']' :: rest) = some (vs, rest) := by
  obtain ⟨fuel, rfl⟩ : ∃ n, fuel = n + 1 := Nat.exists_eq_add_one_of_ne_zero (by omega)
  cases vs with
  | nil => rw [Literal.itemLexemes, List.nil_append, items]
  | cons v vs =>
    obtain ⟨l, tail, hl, -⟩ := lexemes_eq_cons v
    have hpos : 0 < v.lexemes.length := by rw [hl]; exact Nat.succ_pos _
    rw [Literal.itemLexemes] at hfuel ⊢
    rw [List.length_append] at hfuel
    rw [List.append_assoc, items_cons, value_lexemes v (by omega)]
    simp only [Option.bind_some]
    rw [items_lexemes vs (by omega)]
    rfl

theorem members_lexemes (close : Char) (ms : List (Text × Literal)) {fuel : Nat}
    (hfuel : (memberLexemes ms).length < fuel) (rest : List Lexeme) :
    members close fuel (memberLexemes ms ++ .punctuator close :: rest) = some (ms, rest) := by
  obtain ⟨fuel, rfl⟩ : ∃ n, fuel = n + 1 := Nat.exists_eq_add_one_of_ne_zero (by omega)
  cases ms with
  | nil => rw [Literal.memberLexemes, List.nil_append, members, if_pos rfl]
  | cons m ms =>
    obtain ⟨key, v⟩ := m
    rw [Literal.memberLexemes] at hfuel ⊢
    simp only [List.length_cons, List.length_append] at hfuel
    rw [List.cons_append, List.cons_append, List.append_assoc, members,
      value_lexemes v (by omega)]
    simp only [Option.bind_eq_bind, Option.bind_some]
    rw [members_lexemes close ms (by omega)]
    rfl

end

/-! ## Fields read back -/

/-- What stands after a field: another field, or the brace that closes the selection. -/
def EndsField (ls : List Lexeme) : Prop :=
  ∀ l ∈ ls.head?, l = .punctuator '\x7d' ∨ ∃ t, l = .name t

theorem EndsField.ne_punctuator {ls : List Lexeme} (h : EndsField ls) {c : Char} (hc : c ≠ '\x7d')
    (rest : List Lexeme) : ls ≠ .punctuator c :: rest := by
  rintro rfl
  obtain h | ⟨t, h⟩ := h _ rfl
  · exact hc (Lexeme.punctuator.inj h)
  · cases h

theorem arguments_lexemes (args : List (Text × Literal)) {fuel : Nat}
    (hfuel : (argumentLexemes args).length ≤ fuel) {rest : List Lexeme}
    (hrest : ∀ ls, rest ≠ .punctuator '(' :: ls) :
    arguments fuel (argumentLexemes args ++ rest) = some (args, rest) := by
  cases args with
  | nil =>
    rw [argumentLexemes, List.nil_append, arguments]
    exact fun ls h => hrest ls h
  | cons m ms =>
    rw [argumentLexemes] at hfuel ⊢
    · simp only [List.length_cons, List.length_append, List.length_nil] at hfuel
      rw [List.cons_append, List.append_assoc, List.singleton_append, arguments,
        members_lexemes ')' (m :: ms) (by omega)]
      rfl
    · exact List.cons_ne_nil _ _
    · exact List.cons_ne_nil _ _

theorem fieldHead_lexemes (alias? : Option Text) (name : Text) {rest : List Lexeme}
    (hrest : ∀ ls, rest ≠ .punctuator ':' :: ls) :
    fieldHead ((alias?.elim [] fun a => [.name a, .punctuator ':']) ++ .name name :: rest) =
      some (alias?, name, rest) := by
  cases alias? with
  | some a => rfl
  | none =>
    rw [Option.elim, List.nil_append, fieldHead]
    exact fun ls h => hrest ls h

open FieldSearch.GraphQL.Field (selectionLexemes listLexemes)

theorem selectionLexemes_cons (field : Field) (rest : List Field) :
    selectionLexemes (field :: rest) =
      .punctuator '\x7b' :: (listLexemes (field :: rest) ++ [.punctuator '\x7d']) := by
  rw [Field.selectionLexemes, Field.listLexemes, List.append_assoc]

theorem endsField_closing (rest : List Lexeme) : EndsField (.punctuator '\x7d' :: rest) := by
  intro l hl
  exact Or.inl (Option.some.inj hl).symm

theorem endsField_listLexemes (fs : List Field) (rest : List Lexeme) :
    EndsField (listLexemes fs ++ .punctuator '\x7d' :: rest) := by
  cases fs with
  | nil => rw [Field.listLexemes]; exact endsField_closing rest
  | cons f fs =>
    obtain ⟨alias?, name, args, below⟩ := f
    rw [Field.listLexemes, Field.lexemes]
    intro l hl
    cases alias? with
    | none => exact Or.inr ⟨name, (Option.some.inj hl).symm⟩
    | some a => exact Or.inr ⟨a, (Option.some.inj hl).symm⟩

theorem selections_of_fields {fs : List Field} {fuel : Nat}
    (hfuel : (selectionLexemes fs).length < fuel)
    (hfields : ∀ fuel rest, (listLexemes fs).length < fuel →
      fields fuel (listLexemes fs ++ .punctuator '\x7d' :: rest) = some (fs, rest))
    {rest : List Lexeme} (hrest : EndsField rest) :
    selections fuel (selectionLexemes fs ++ rest) = some (fs, rest) := by
  obtain ⟨fuel, rfl⟩ : ∃ n, fuel = n + 1 := Nat.exists_eq_add_one_of_ne_zero (by omega)
  cases fs with
  | nil =>
    rw [Field.selectionLexemes, List.nil_append, selections]
    exact fun ls h => hrest.ne_punctuator (by decide) ls h
  | cons f fs =>
    rw [selectionLexemes_cons] at hfuel ⊢
    simp only [List.length_cons, List.length_append] at hfuel
    rw [List.cons_append, List.append_assoc, List.singleton_append, selections,
      hfields fuel rest (by omega)]
    rfl

theorem selectionLexemes_ne {fs : List Field} {rest : List Lexeme} (hrest : EndsField rest)
    {c : Char} (hc : c ≠ '\x7b') (hc' : c ≠ '\x7d') (ls : List Lexeme) :
    selectionLexemes fs ++ rest ≠ .punctuator c :: ls := by
  cases fs with
  | nil => rw [Field.selectionLexemes]; exact hrest.ne_punctuator hc' ls
  | cons f fs =>
    rw [selectionLexemes_cons]
    intro h
    exact hc (Lexeme.punctuator.inj (List.cons.inj h).1).symm

theorem argumentLexemes_ne (args : List (Text × Literal)) {rest : List Lexeme} {c : Char}
    (hc : c ≠ '(') (hrest : ∀ ls, rest ≠ .punctuator c :: ls) (ls : List Lexeme) :
    argumentLexemes args ++ rest ≠ .punctuator c :: ls := by
  cases args with
  | nil => rw [argumentLexemes]; exact hrest ls
  | cons m ms =>
    rw [argumentLexemes]
    · intro h
      exact hc (Lexeme.punctuator.inj (List.cons.inj h).1).symm
    · exact List.cons_ne_nil _ _

theorem fields_of_fieldHead {alias? : Option Text} {name : Text} {ls rest : List Lexeme}
    (h : fieldHead ls = some (alias?, name, rest)) (fuel : Nat) :
    fields (fuel + 1) ls = (arguments fuel rest).bind fun (args, rest) =>
      (selections fuel rest).bind fun (below, rest) =>
        (fields fuel rest).bind fun (more, rest) =>
          some (⟨alias?, name, args, below⟩ :: more, rest) := by
  rw [fields, h]
  · rfl
  · rintro rest rfl
    cases h

theorem fields_lexemes : ∀ (fs : List Field) (fuel : Nat) (rest : List Lexeme),
    (listLexemes fs).length < fuel →
      fields fuel (listLexemes fs ++ .punctuator '\x7d' :: rest) = some (fs, rest)
  | _, 0, _, h => absurd h (Nat.not_lt_zero _)
  | [], fuel + 1, rest, _ => by rw [Field.listLexemes, List.nil_append, fields]
  | ⟨alias?, name, args, below⟩ :: more, fuel + 1, rest, h => by
    rw [Field.listLexemes, Field.lexemes] at h ⊢
    simp only [List.length_cons, List.length_append] at h
    have hmore := endsField_listLexemes more rest
    simp only [List.append_assoc, List.cons_append]
    generalize hrest : listLexemes more ++ .punctuator '\x7d' :: rest = after at hmore ⊢
    -- what comes after the name begins with no colon and no parenthesis of its own
    have hbelow : ∀ c, c ≠ '\x7b' → c ≠ '\x7d' → ∀ ls,
        selectionLexemes below ++ after ≠ .punctuator c :: ls :=
      fun _ hc hc' => selectionLexemes_ne hmore hc hc'
    have hhead := fieldHead_lexemes alias? name
      (argumentLexemes_ne args (by decide) (hbelow ':' (by decide) (by decide)))
    have hargs : arguments fuel (argumentLexemes args ++ _) = _ :=
      arguments_lexemes args (by omega) (hbelow '(' (by decide) (by decide))
    have hsel : selections fuel (selectionLexemes below ++ after) = some (below, after) :=
      selections_of_fields (by omega) (fields_lexemes below) hmore
    have hfields := fields_lexemes more fuel rest (by omega)
    rw [fields_of_fieldHead hhead, hargs]
    simp only [Option.bind_some]
    rw [hsel]
    simp only [Option.bind_some]
    rw [← hrest, hfields]
    rfl

/-- An operation that selects something is read back from its lexemes. -/
theorem operation_lexemes {o : Operation} (ho : o.selections ≠ []) {fuel : Nat}
    (hfuel : o.lexemes.length ≤ fuel) : operation fuel o.lexemes = some (o, []) := by
  obtain ⟨kind, name?, fs⟩ := o
  have hsel : selections fuel (selectionLexemes fs ++ []) = some (fs, []) := by
    refine selections_of_fields ?_ (fields_lexemes fs) nofun
    simp only [Operation.lexemes, List.length_cons, List.length_append] at hfuel
    omega
  cases fs with
  | nil => exact absurd rfl ho
  | cons f fs =>
    rw [List.append_nil, Field.selectionLexemes] at hsel
    rw [Operation.lexemes, Field.selectionLexemes]
    cases name? with
    | none =>
      rw [Option.toList_none, List.map_nil, List.nil_append, operation, hsel,
        OperationKind.ofWord?_word]
      rfl
    | some t =>
      rw [Option.toList_some, List.map_singleton, List.singleton_append, operation, hsel,
        OperationKind.ofWord?_word]
      rfl

end Reader

def read (text : Text) : Option (List Operation) := do
  let ls ← lexemes text
  (Reader.operations ls.length ls).filter (!·.isEmpty)

/-- A text with the lexemes of one operation is read as that operation. -/
theorem read_of_lexemes {text : Text} {o : Operation} (ho : o.selections ≠ [])
    (h : lexemes text = some o.lexemes) : read text = some [o] := by
  have hop : Reader.operations o.lexemes.length o.lexemes = some [o] := by
    have hone := Reader.operation_lexemes ho (Nat.le_refl _)
    obtain ⟨l, ls, hl⟩ : ∃ l ls, o.lexemes = l :: ls := ⟨_, _, rfl⟩
    rw [hl] at hone ⊢
    rw [List.length_cons, Reader.operations, ← List.length_cons (a := l), hone]
    · simp only [Option.bind_eq_bind, Option.bind_some, Reader.operations]
    · exact List.cons_ne_nil _ _
  rw [read, h, Option.bind_eq_bind, Option.bind_some, hop]
  rfl

example : read "\x7b x: a(n: [1, true]) \x7d" = some [⟨.query, none,
    [{ alias? := some "x", name := "a", arguments := [("n", .list [.int 1, .bool true])] }]⟩] := by
  cbv
example : read "\x7b a \x7b \x7d \x7d" = none := by cbv

end FieldSearch.GraphQL
