import FieldSearch.Error

/-!
# Places in a Yaml text

A cursor is the rest of a text with the number of its line, its column and its index. Five
characters break a line; a carriage return and a line feed together are one break. Every break is
read as a line feed, except for the two separators of Unicode.
-/

namespace FieldSearch.Yaml

inductive Fault where
  | malformed
  | crash (c : Crash)

def isBreak (c : Char) : Bool :=
  c = '\n' || c = '\r' || c = '\x85' || c = '\u2028' || c = '\u2029'

def isSpaceOrTab (c : Char) : Bool := c = ' ' || c = '\t'

def isBlank (c : Char) : Bool := isSpaceOrTab c || isBreak c

def isAllowed (c : Char) : Bool :=
  c = '\t' || c = '\n' || c = '\r' || c = '\x85' || (' ' ≤ c && c ≤ '~')
    || ('\xA0' ≤ c && c ≤ '\uD7FF') || ('\uE000' ≤ c && c ≤ '\uFFFD') || 0x10000 ≤ c.toNat

/-- The mark at the start of a text, which fills no column. -/
def byteOrderMark : Char := '\uFEFF'

/-- Whether the rest is empty or begins with a character of some kind. -/
def endsWith (p : Char → Bool) : Text → Bool
  | [] => true
  | c :: _ => p c

def endsWord (rest : Text) : Bool := endsWith isBlank rest

def endsLineOrSpace (rest : Text) : Bool := endsWith (fun c => c = ' ' || isBreak c) rest

/-- Whether three hyphens or points stand there as a word of their own. -/
def isMarker (mark : Char) : Text → Bool
  | a :: b :: c :: rest => a = mark && b = mark && c = mark && endsWord rest
  | _ => false

def isDocumentMarker (rest : Text) : Bool := isMarker '-' rest || isMarker '.' rest

structure Cursor where
  rest : Text
  index : Nat := 0
  line : Nat := 0
  column : Nat := 0

namespace Cursor

def head? (c : Cursor) : Option Char := c.rest.head?

def sees (c : Cursor) (ch : Char) : Bool := c.head? = some ch

/-- A carriage return before a line feed does not end the line by itself. -/
def endsLineHere (ch : Char) (rest : Text) : Bool :=
  isBreak ch && !(ch = '\r' && rest.head? = some '\n')

def next (c : Cursor) : Cursor :=
  match c.rest with
  | [] => c
  | ch :: rest =>
    if endsLineHere ch rest then ⟨rest, c.index + 1, c.line + 1, 0⟩
    else if ch = byteOrderMark then ⟨rest, c.index + 1, c.line, c.column⟩
    else ⟨rest, c.index + 1, c.line, c.column + 1⟩

def skip (c : Cursor) : Nat → Cursor
  | 0 => c
  | n + 1 => c.next.skip n

/-- The longest run of characters of some kind, and the place after it. -/
def run (p : Char → Bool) (c : Cursor) : Text × Cursor :=
  let word := c.rest.takeWhile p
  (word, c.skip word.length)

def skipSpaces (c : Cursor) : Cursor := (c.run (· = ' ')).2

/-- Spaces, but none from a column on. -/
def skipSpacesTo (column : Nat) (c : Cursor) : Cursor :=
  c.skip (min (column - c.column) (c.rest.takeWhile (· = ' ')).length)

def skipComment (c : Cursor) : Cursor :=
  if c.sees '#' then (c.run (!isBreak ·)).2 else c

def lineBreak? (c : Cursor) : Option (Char × Cursor) :=
  match c.rest with
  | '\r' :: '\n' :: _ => some ('\n', c.skip 2)
  | ch :: _ =>
    if isBreak ch then some (if ch = '\u2028' || ch = '\u2029' then ch else '\n', c.next) else none
  | [] => none

/-- The rest of a line that may hold a comment and nothing else. -/
def skipLine (c : Cursor) : Except Fault Cursor :=
  let c := c.skipSpaces.skipComment
  match c.lineBreak? with
  | some (_, c) => .ok c
  | none => if c.rest.isEmpty then .ok c else .error .malformed

end Cursor

/-- A line break and the breaks after it: a single line feed is folded into a space, and of several
the first is dropped. -/
def fold (first : Char) (others : Text) : Text :=
  if first ≠ '\n' then first :: others else if others.isEmpty then [' '] else others

end FieldSearch.Yaml
