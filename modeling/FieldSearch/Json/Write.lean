import FieldSearch.Json.Basic

/-!
# Writing Json

One line with a blank after each comma and colon, or one line per item under an indentation of two
blanks. Characters beyond ASCII stand for themselves in tool answers and are escaped, as one or two
UTF-16 units, in documents that travel.
-/

namespace FieldSearch.Json

/-- Which characters a string literal escapes beyond those that have to be. -/
inductive Charset where
  | ascii
  | unicode
deriving DecidableEq

def unitEscape (n : Nat) : Text := "\\u" ++ Text.hex 4 n

def escapeChar (charset : Charset) (c : Char) : Text :=
  if c = '"' then "\\\""
  else if c = '\\' then "\\\\"
  else if c = '\n' then "\\n"
  else if c = '\r' then "\\r"
  else if c = '\t' then "\\t"
  else if c = '\x08' then "\\b"
  else if c = '\x0c' then "\\f"
  else if c.toNat < 0x20 then unitEscape c.toNat
  else if charset = .unicode || c.toNat < 0x7F then [c]
  else if c.toNat < 0x10000 then unitEscape c.toNat
  else
    let n := c.toNat - 0x10000
    unitEscape (0xD800 + n / 0x400) ++ unitEscape (0xDC00 + n % 0x400)

def literal (charset : Charset) (text : Text) : Text :=
  "\"" ++ text.flatMap (escapeChar charset) ++ "\""

def realText (x : Float) : Text :=
  match Number.parts x with
  | (_, .nan) => "NaN"
  | (negative, .infinite) => Number.signed negative "Infinity"
  | _ => Number.ofFloat x

def scalar? (charset : Charset) : Json → Option Text
  | null => some "null"
  | bool true => some "true"
  | bool false => some "false"
  | int n => some (Text.ofInt n)
  | real x => some (realText x)
  | text t => some (literal charset t)
  | _ => none

mutual

def write (charset : Charset) : Json → Text
  | array items => "[" ++ Text.join ", " (writeItems charset items) ++ "]"
  | object members => "\x7b" ++ Text.join ", " (writeMembers charset members) ++ "\x7d"
  | value => (scalar? charset value).getD []

def writeItems (charset : Charset) : List Json → List Text
  | [] => []
  | item :: rest => write charset item :: writeItems charset rest

def writeMembers (charset : Charset) : List (Text × Json) → List Text
  | [] => []
  | (key, value) :: rest =>
    (literal charset key ++ ": " ++ write charset value) :: writeMembers charset rest

end

/-- Brackets around items on lines of their own, or an empty pair of them. -/
def bracket (opening closing : Char) (depth : Nat) (parts : List Text) : Text :=
  if parts.isEmpty then [opening, closing]
  else
    let newline (d : Nat) : Text := '\n' :: List.replicate (2 * d) ' '
    opening :: newline (depth + 1) ++ Text.join (',' :: newline (depth + 1)) parts
      ++ newline depth ++ [closing]

mutual

/-- The value over several lines, nested ones indented by two blanks more. -/
def writeLines (charset : Charset) (depth : Nat) : Json → Text
  | array items => bracket '[' ']' depth (writeItemLines charset (depth + 1) items)
  | object members => bracket '\x7b' '\x7d' depth (writeMemberLines charset (depth + 1) members)
  | value => (scalar? charset value).getD []

def writeItemLines (charset : Charset) (depth : Nat) : List Json → List Text
  | [] => []
  | item :: rest => writeLines charset depth item :: writeItemLines charset depth rest

def writeMemberLines (charset : Charset) (depth : Nat) : List (Text × Json) → List Text
  | [] => []
  | (key, value) :: rest =>
    (literal charset key ++ ": " ++ writeLines charset depth value)
      :: writeMemberLines charset depth rest

end

end FieldSearch.Json
