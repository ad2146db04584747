import FieldSearch.Yaml.Value

/-!
# Documents

A document is a value together with the parts that it shares. A part may stand inside of itself:
where it is met again while it is shown, dots stand for it.
-/

namespace FieldSearch.Yaml

/-- What can be shared under a name. -/
inductive Part (ι : Type) where
  | list (items : List (Value ι))
  | set (items : List (Value ι))
  | map (members : List (Value ι × Value ι))

namespace Part

variable {ι κ : Type}

def value : Part ι → Value ι
  | list items => .list items
  | set items => .set items
  | map members => .map members

def graft (part : ι → Value κ) : Part ι → Part κ
  | list items => .list (Value.graftItems part items)
  | set items => .set (Value.graftItems part items)
  | map members => .map (Value.graftMembers part members)

def dots : Part ι → Text
  | list _ => "[...]"
  | set _ => "set(...)"
  | map _ => "\x7b...\x7d"

end Part

structure Document where
  size : Nat
  part : Fin size → Part (Fin size)
  root : Value (Fin size)

namespace Document

/-- A document that shares nothing. -/
abbrev plain (root : Value (Fin 0)) : Document := ⟨0, Fin.elim0, root⟩

/-- The values in a document. -/
abbrev Inner (d : Document) := Value (Fin d.size)

variable (d : Document)

/-- What a value is, also if it is shared. -/
def face : d.Inner → d.Inner
  | .shared name => (d.part name).value
  | v => v

/-! ## How values are shown -/

/-- How a part is shown among parts that are open already, so that it is not opened once more. There
are as many steps as parts to open. -/
def partText : (steps : Nat) → (opened : List (Fin d.size)) → Fin d.size → Text
  | 0, _, name => (d.part name).dots
  | steps + 1, opened, name =>
    if name ∈ opened then (d.part name).dots
    else (d.part name).value.shownWith (partText steps (name :: opened))

/-- A text as it is, a date in its usual form, any other value as it is shown. -/
def asText : d.Inner → Text
  | .text t => t
  | .date date => Moment.dateText date
  | .moment m => m.toTextWith ' '
  | v => v.shownWith (d.partText d.size [])

/-- Whether the whole numbers in a part can be written, but for those in parts that are open. -/
def isPartWritable : (steps : Nat) → (opened : List (Fin d.size)) → Fin d.size → Bool
  | 0, _, _ => true
  | steps + 1, opened, name =>
    name ∈ opened || (d.part name).value.isWritableWith (isPartWritable steps (name :: opened))

/-- Whether all whole numbers in a value are short enough to be written. -/
def isWritable (v : d.Inner) : Bool := v.isWritableWith (d.isPartWritable d.size [])

end Document

end FieldSearch.Yaml
