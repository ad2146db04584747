import FieldSearch.Yaml.Document
import FieldSearch.Yaml.Meaning
import FieldSearch.Yaml.Node

/-!
# From nodes to documents

A node is made into a value once, wherever it stands. Scalars are made at once, while lists and maps
wait in a row to be filled, so that they can hold themselves. Before a map is filled it takes in the
members of the maps under its merge marks; its own members win, and of several maps the first one
does.
-/

namespace FieldSearch.Yaml

/-- What is known of the nodes, and what has been made of them. -/
structure Making where
  nodes : List (Nat × Node)
  made : List (Nat × Value Nat) := []
  parts : List (Nat × Part Nat) := []
  waiting : List Nat := []

abbrev Maker (α : Type) := StateT Making (Except Fault) α

namespace Content

def pairs : Content → List (Nat × Nat)
  | map pairs => pairs
  | _ => []

def isMap : Content → Bool
  | map _ => true
  | _ => false

end Content

namespace Maker

def fail {α : Type} : Maker α := throw .malformed

def node (number : Nat) : Maker Node := do
  match (← get).nodes.lookup number with
  | some n => return n
  | none => fail

def setNode (number : Nat) (n : Node) : Maker Unit :=
  modify fun m => { m with nodes := (number, n) :: m.nodes }

def hasKind (kind : Kind) (number : Nat) : Maker Bool := return (← node number).kind = kind

/-! ## Scalars -/

/-- The text of a scalar, or of the value under the mark for values in a map. A map that is its own
value has none. -/
def scalarText : (steps : Nat) → Nat → Maker Text
  | 0, _ => throw (.crash .endless)
  | steps + 1, number => do
    match (← node number).content with
    | .scalar t => return t
    | .list _ => fail
    | .map pairs =>
      match ← pairs.findM? fun (key, _) => hasKind .value key with
      | some (_, value) => scalarText steps value
      | none => fail

def ofScalar (number : Nat) (n : Node) : Maker (Value Nat) := do
  let t ← scalarText ((← get).nodes.length + 1) number
  if n.kind = .timestamp && n.content.isMap then throw (.crash .wrongKind)
  Value.ofScalar n.kind t

/-- The value of a node that has been made before, or is made now. -/
def ofNode (number : Nat) : Maker (Value Nat) := do
  match (← get).made.lookup number with
  | some v => return v
  | none =>
    let n ← node number
    let v ← match n.kind with
      | .list | .map | .set | .omap | .pairs =>
        modify fun m => { m with waiting := m.waiting ++ [number] }
        pure (.shared number)
      | .merge | .value | .unknown => fail
      | _ => ofScalar number n
    modify fun m => { m with made := (number, v) :: m.made }
    return v

/-! ## Maps that take in others -/

def pairs (number : Nat) : Maker (List (Nat × Nat)) := return (← node number).content.pairs

def setPairs (number : Nat) (pairs : List (Nat × Nat)) : Maker Unit := do
  setNode number { ← node number with content := .map pairs }

/-- The maps that stand under a merge mark. -/
def sources (number : Nat) : Maker (List Nat) := do
  match (← node number).content with
  | .map _ => return [number]
  | .list items => do
    items.forM fun item => do unless (← node item).content.isMap do fail
    return items
  | .scalar _ => fail

/-- The mark for values is a text like others where it is a key. -/
def unmark (key : Nat) : Maker Unit := do
  if ← hasKind .value key then setNode key { ← node key with kind := .text }

/-- The pairs of a map together with those that it takes in, which stand first. Every merge mark
goes before the maps under it are looked at, so there are no more steps than merge marks. -/
def flatten : (steps : Nat) → (merged : List (Nat × Nat)) → Nat → Maker (List (Nat × Nat))
  | 0, _, _ => fail
  | steps + 1, merged, number => do
    let pairs ← pairs number
    match ← pairs.findM? fun (key, _) => hasKind .merge key with
    | some pair =>
      setPairs number (pairs.erase pair)
      let taken ← (← sources pair.2).mapM (flatten steps [])
      flatten steps (merged ++ taken.reverse.flatten) number
    | none =>
      pairs.forM fun (key, _) => unmark key
      setPairs number (merged ++ pairs)
      return merged ++ pairs

/-! ## Parts -/

def putPair (members : List (Value Nat × Value Nat)) (pair : Nat × Nat) :
    Maker (List (Value Nat × Value Nat)) := do
  let key ← ofNode pair.1
  if key.isKey then return Value.put key (← ofNode pair.2) members else fail

def members (number : Nat) : Maker (List (Value Nat × Value Nat)) := do
  if (← node number).content.isMap then
    let pairs := (← get).nodes.flatMap fun (_, n) => n.content.pairs
    (← flatten (pairs.length + 1) [] number).foldlM putPair []
  else fail

/-- The items of a list. -/
def items (number : Nat) : Maker (List Nat) := do
  match (← node number).content with
  | .list items => return items
  | _ => fail

/-- The only member of a map, as a pair. -/
def single (number : Nat) : Maker (Value Nat) := do
  match (← node number).content with
  | .map [(key, value)] => return .pair (← ofNode key) (← ofNode value)
  | _ => fail

def part (number : Nat) : Maker (Part Nat) := do
  match (← node number).kind with
  | .list => return .list (← (← items number).mapM ofNode)
  | .omap | .pairs => return .list (← (← items number).mapM single)
  | .set => return .set ((← members number).map Prod.fst)
  | _ => return .map (← members number)

/-- Fills what waits, in order. Every node waits once at most, so there are no more steps than
nodes. -/
def fill : (steps : Nat) → Maker Unit
  | 0 => return
  | steps + 1 => do
    match (← get).waiting with
    | [] => return
    | number :: rest =>
      modify fun m => { m with waiting := rest }
      let p ← part number
      modify fun m => { m with parts := (number, p) :: m.parts }
      fill steps

end Maker

/-! ## Documents -/

namespace Document

variable (parts : List (Nat × Part Nat))

def sharedIn (v : Value Nat) : List Nat :=
  v.leaves.filterMap fun
    | .shared number => some number
    | _ => none

/-- A part written out. There are as many steps as parts. -/
def unfold : (steps : Nat) → Nat → Value (Fin 0)
  | 0, _ => .null
  | steps + 1, number =>
    match parts.lookup number with
    | some p => p.value.graft (unfold steps)
    | none => .null

/-- Parts that stand in one place each are written out there. -/
def ofParts (count : Nat) (root : Value Nat) : Document :=
  if (sharedIn root ++ parts.flatMap fun (_, p) => sharedIn p.value).Nodup then
    plain (root.graft (unfold parts parts.length))
  else
    let name (number : Nat) : Value (Fin (count + 1)) := .shared (Fin.ofNat (count + 1) number)
    { size := count + 1
      part := fun i => ((parts.lookup i.val).map (Part.graft name)).getD (.list [])
      root := root.graft name }

def ofGraph (g : Graph) : Except Fault Document := do
  let make : Maker (Value Nat) := do
    let root ← Maker.ofNode g.root
    Maker.fill g.count
    return root
  let (root, m) ← make.run { nodes := g.nodes }
  return ofParts m.parts g.count root

/-- The document that a text stands for; a text without one means nothing. -/
def ofText? (text : Text) : Except Fault Document := do
  match ← Node.graphOf? text with
  | some g => ofGraph g
  | none => return plain .null

end Document

end FieldSearch.Yaml
