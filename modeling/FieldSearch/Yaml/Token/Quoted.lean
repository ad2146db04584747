import FieldSearch.Json.Read
import FieldSearch.Yaml.Token

/-!
# Quoted scalars

A scalar between single quotes, where a quote is written twice, or between double quotes, where a
backslash begins another notation for a character. Blanks around line breaks do not count.
-/

namespace FieldSearch.Yaml.Token

def simpleEscapes : List (Char × Char) :=
  [('0', '\x00'), ('a', '\x07'), ('b', '\x08'), ('t', '\t'), ('\t', '\t'), ('n', '\n'),
   ('v', '\x0b'), ('f', '\x0c'), ('r', '\r'), ('e', '\x1b'), (' ', ' '), ('"', '"'),
   ('\\', '\\'), ('/', '/'), ('N', '\x85'), ('_', '\xA0'), ('L', '\u2028'), ('P', '\u2029')]

def codeLength? : Char → Option Nat
  | 'x' => some 2
  | 'u' => some 4
  | 'U' => some 8
  | _ => none

def hexValue? (n : Nat) (text : Text) : Option Nat :=
  let digits := (text.take n).filterMap Text.hexDigit?
  if digits.length = n then some (digits.foldl (fun v d => v * 16 + d) 0) else none

/-- A character given by its code; two halves of a pair are one character. -/
def codeEscape (n : Nat) (c : Cursor) : Except Fault (Char × Cursor) :=
  match hexValue? n c.rest with
  | none => .error .malformed
  | some code =>
    if 0x7FFFFFFF < code then .error (.crash .outOfRange)
    else if 0x10FFFF < code then .error (.crash .noSuchCharacter)
    else
      let rest := c.rest.drop n
      let (ch, after) := Json.Reader.fromUnits code rest
      .ok (ch, c.skip (n + (rest.length - after.length)))

def emptyLines : Nat → Reader Text
  | 0, c => .ok ([], c)
  | fuel + 1, c =>
    if isDocumentMarker c.rest then .error .malformed
    else
      let c := (c.run isSpaceOrTab).2
      match c.lineBreak? with
      | some (ch, c) => do
        let (others, c) ← emptyLines fuel c
        .ok (ch :: others, c)
      | none => .ok ([], c)

def blanks : Reader Text := fun c =>
  let (spaces, c) := c.run isSpaceOrTab
  match c.lineBreak? with
  | some (first, c) => do
    let (others, c) ← emptyLines (c.rest.length + 1) c
    .ok (fold first others, c)
  | none => if c.rest.isEmpty then .error .malformed else .ok (spaces, c)

def escape : Reader Text := fun c =>
  match c.head? with
  | none => .error .malformed
  | some ch =>
    match simpleEscapes.lookup ch, codeLength? ch, c.lineBreak? with
    | some meant, _, _ => .ok ([meant], c.next)
    | none, some n, _ => do
      let (ch, c) ← codeEscape n c.next
      .ok ([ch], c)
    | none, none, some (_, c) => emptyLines (c.rest.length + 1) c
    | none, none, none => .error .malformed

/-- The next part of a quoted scalar, or `none` at its closing quote. -/
def quotedPart (double : Bool) (c : Cursor) : Except Fault (Option Text × Cursor) :=
  match c.rest with
  | [] => .error .malformed
  | ch :: rest =>
    if ch = (if double then '"' else '\'') then
      if !double && rest.head? = some '\'' then .ok (some ['\''], c.skip 2) else .ok (none, c.next)
    else if double && ch = '\\' then do
      let (text, c) ← escape c.next
      .ok (some text, c)
    else if isBlank ch then do
      let (text, c) ← blanks c
      .ok (some text, c)
    else .ok (some [ch], c.next)

def quotedParts (double : Bool) : Nat → Reader Text
  | 0, _ => .error .malformed
  | fuel + 1, c => do
    match ← quotedPart double c with
    | (none, c) => .ok ([], c)
    | (some part, c) =>
      let (rest, c) ← quotedParts double fuel c
      .ok (part ++ rest, c)

def readQuoted (double : Bool) : Reader Token := fun c => do
  let (text, c) ← quotedParts double (c.rest.length + 1) c.next
  .ok (.scalar text false, c)

end FieldSearch.Yaml.Token
