import FieldSearch.Yaml.Token

/-!
# Block scalars

A scalar of whole lines under a bar or an angle bracket. The first line of text tells its
indentation, unless a digit does; under an angle bracket single line breaks are folded.
-/

namespace FieldSearch.Yaml.Token

inductive Chomping where
  | strip
  | clip
  | keep
deriving DecidableEq

def chomping? : Char → Option Chomping
  | '-' => some .strip
  | '+' => some .keep
  | _ => none

def indentDigit? (c : Char) : Except Fault (Option Nat) :=
  match Text.asciiDigit? c with
  | some 0 => .error .malformed
  | d => .ok d

/-- The marks after the bar of a block scalar, in either order. -/
def blockHeader : Reader (Chomping × Option Nat) := fun c => do
  let (chomping, indent, c) : Chomping × Option Nat × Cursor ←
    match c.head? with
    | none => .ok (.clip, none, c)
    | some ch =>
      match chomping? ch, ← indentDigit? ch with
      | some chomping, _ =>
        match c.next.head? with
        | none => .ok (chomping, none, c.next)
        | some d =>
          match ← indentDigit? d with
          | some n => .ok (chomping, some n, c.skip 2)
          | none => .ok (chomping, none, c.next)
      | none, some n =>
        match c.next.head?.bind chomping? with
        | some chomping => .ok (chomping, some n, c.skip 2)
        | none => .ok (.clip, some n, c.next)
      | none, none => .ok (.clip, none, c)
  if endsLineOrSpace c.rest then .ok ((chomping, indent), ← c.skipLine) else .error .malformed

/-- Empty lines before the first line of text, and the deepest indentation among them. -/
def leadingBreaks : Nat → Nat → Cursor → Text × Nat × Cursor
  | 0, deepest, c => ([], deepest, c)
  | fuel + 1, deepest, c =>
    let c := c.skipSpaces
    let deepest := max deepest c.column
    match c.lineBreak? with
    | none => ([], deepest, c)
    | some (ch, c) =>
      let (others, deepest, c) := leadingBreaks fuel deepest c
      (ch :: others, deepest, c)

/-- Empty lines inside of a block scalar with the given indentation. -/
def blockBreaks (indent : Nat) : Nat → Cursor → Text × Cursor
  | 0, c => ([], c)
  | fuel + 1, c =>
    let c := c.skipSpacesTo indent
    match c.lineBreak? with
    | none => ([], c)
    | some (ch, c) =>
      let (others, c) := blockBreaks indent fuel c
      (ch :: others, c)

/-- What joins two lines of a block scalar that have the given breaks between them. -/
def lineJoint (folded : Bool) (first : Option Char) (breaks : Text) (indented : Bool) : Text :=
  if folded && first = some '\n' && !indented then if breaks.isEmpty then [' '] else []
  else first.toList

/-- The lines of a block scalar after the breaks `before`, and the place after it. -/
def blockLines (folded : Bool) (chomping : Chomping) (indent : Nat) :
    Nat → (before : Text) → (last : Option Char) → Cursor → Text × Cursor
  | 0, _, _, c => ([], c)
  | fuel + 1, before, last, c =>
    let tail : Text :=
      match chomping with
      | .strip => []
      | .clip => last.toList
      | .keep => last.toList ++ before
    if c.column ≠ indent || c.rest.isEmpty then (tail, c)
    else
      let (line, c) := c.run (!isBreak ·)
      let (first, c) : Option Char × Cursor := match c.lineBreak? with
        | some (ch, c) => (some ch, c)
        | none => (none, c)
      let (breaks, c) := blockBreaks indent (c.rest.length + 1) c
      let goesOn := c.column = indent && !c.rest.isEmpty
      let indented := line.head?.any isSpaceOrTab || c.head?.any isSpaceOrTab
      let joint := if goesOn then lineJoint folded first breaks indented else []
      let (rest, c) := blockLines folded chomping indent fuel breaks first c
      (before ++ line ++ joint ++ rest, c)

/-- A block scalar, from its bar, inside of a block with the given indentation. -/
def readBlock (folded : Bool) (outer : Int) : Reader Token := fun c => do
  let ((chomping, increment), c) ← blockHeader c.next
  let least := max 1 (outer + 1).toNat
  let (breaks, indent, c) : Text × Nat × Cursor :=
    match increment with
    | none =>
      let (breaks, deepest, c) := leadingBreaks (c.rest.length + 1) 0 c
      (breaks, max least deepest, c)
    | some n =>
      let indent := least + n - 1
      let (breaks, c) := blockBreaks indent (c.rest.length + 1) c
      (breaks, indent, c)
  let (text, c) := blockLines folded chomping indent (c.rest.length + 1) breaks none c
  .ok (.scalar text false, c)

end FieldSearch.Yaml.Token
