import FieldSearch.Json.Basic
import FieldSearch.Number.Read
import FieldSearch.Text.Utf8

/-!
# Reading Json

The reader accepts the grammar of Json and the words for infinities and for no number. Of equal
keys the last value counts, at the place of the first. A whole number with too many digits is a
fault of its own kind.
-/

namespace FieldSearch.Json

inductive ReadFault where
  | malformed
  | tooManyDigits
deriving DecidableEq, Repr

namespace Reader

def isSpace (c : Char) : Bool := c = ' ' || c = '\t' || c = '\n' || c = '\r'

def skipSpace (input : Text) : Text := input.dropWhile isSpace

/-- Four hexadecimal digits and the rest. -/
def unit? : Text → Option (Nat × Text)
  | a :: b :: c :: d :: rest => do
    let a ← Text.hexDigit? a
    let b ← Text.hexDigit? b
    let c ← Text.hexDigit? c
    let d ← Text.hexDigit? d
    some (((a * 16 + b) * 16 + c) * 16 + d, rest)
  | _ => none

/-- The character of a UTF-16 unit and the input after it; two units that pair up are one
character, and a half without its partner is a replacement character. -/
def fromUnits (first : Nat) (rest : Text) : Char × Text :=
  if 0xD800 ≤ first ∧ first < 0xDC00 then
    match rest with
    | '\\' :: 'u' :: tail =>
      match unit? tail with
      | some (second, after) =>
        if 0xDC00 ≤ second ∧ second < 0xE000 then
          (.ofNat (0x10000 + (first - 0xD800) * 0x400 + (second - 0xDC00)), after)
        else ('\uFFFD', rest)
      | none => ('\uFFFD', rest)
    | _ => ('\uFFFD', rest)
  else if 0xDC00 ≤ first ∧ first < 0xE000 then ('\uFFFD', rest)
  else (.ofNat first, rest)

def simpleEscape? : Char → Option Char
  | '"' => some '"'
  | '\\' => some '\\'
  | '/' => some '/'
  | 'b' => some '\x08'
  | 'f' => some '\x0c'
  | 'n' => some '\n'
  | 'r' => some '\r'
  | 't' => some '\t'
  | _ => none

/-- The rest of a string literal after its opening quote. -/
def string : Nat → Text → Except ReadFault (Text × Text)
  | 0, _ => .error .malformed
  | fuel + 1, input =>
    match input with
    | [] => .error .malformed
    | '"' :: rest => .ok ([], rest)
    | '\\' :: 'u' :: rest =>
      match unit? rest with
      | none => .error .malformed
      | some (n, rest) => do
        let (c, rest) := fromUnits n rest
        let (tail, rest) ← string fuel rest
        .ok (c :: tail, rest)
    | '\\' :: e :: rest =>
      match simpleEscape? e with
      | none => .error .malformed
      | some c => do
        let (tail, rest) ← string fuel rest
        .ok (c :: tail, rest)
    | c :: rest =>
      if c = '\\' ∨ c.toNat < 0x20 then .error .malformed
      else do
        let (tail, rest) ← string fuel rest
        .ok (c :: tail, rest)

def digits (input : Text) : Text × Text := input.span Text.isAsciiDigit

/-- A point with at least one digit, or nothing. -/
def places (input : Text) : Text × Text :=
  match input with
  | '.' :: rest =>
    let (ds, after) := digits rest
    if ds.isEmpty then ([], input) else (ds, after)
  | _ => ([], input)

/-- The value of an exponent, or `none` if none is written. -/
def exponent? (input : Text) : Option (Int × Text) :=
  match input with
  | c :: rest =>
    if c = 'e' ∨ c = 'E' then
      let (negative, body) := Number.splitSign rest
      let (ds, after) := digits body
      if ds.isEmpty then none
      else
        let n : Int := Number.digitsValue ds
        some (if negative then -n else n, after)
    else none
  | [] => none

def number (negative : Bool) (input : Text) : Except ReadFault (Json × Text) :=
  let (whole, rest) :=
    match input with
    | '0' :: rest => (['0'], rest)
    | _ => digits input
  if whole.isEmpty then .error .malformed
  else
    let (fraction, rest) := places rest
    let exponent := exponent? rest
    if fraction.isEmpty && exponent.isNone then
      if Number.maxDigits < whole.length then .error .tooManyDigits
      else
        let n : Int := Number.digitsValue whole
        .ok (int (if negative then -n else n), rest)
    else
      let (e, rest) := exponent.getD (0, rest)
      let x := Number.scaled (Number.digitsValue (whole ++ fraction)) (e - fraction.length)
      .ok (real (if negative then -x else x), rest)

def words : List (Text × Json) :=
  [("null", null), ("true", bool true), ("false", bool false), ("NaN", real (0.0 / 0.0)),
   ("Infinity", real (1.0 / 0.0)), ("-Infinity", real (-1.0 / 0.0))]

def scalar (input : Text) : Except ReadFault (Json × Text) :=
  match words.findSome? fun (word, value) => (word.isPrefixOf? input).map (value, ·) with
  | some result => .ok result
  | none =>
    match input with
    | '-' :: rest => number true rest
    | _ => number false input

mutual

def value : Nat → Text → Except ReadFault (Json × Text)
  | 0, _ => .error .malformed
  | fuel + 1, input =>
    match input with
    | '"' :: rest => do
      let (t, rest) ← string (rest.length + 1) rest
      .ok (text t, rest)
    | '[' :: rest =>
      match skipSpace rest with
      | ']' :: rest => .ok (array [], rest)
      | rest => do
        let (items, rest) ← items fuel rest
        .ok (array items, rest)
    | '\x7b' :: rest =>
      match skipSpace rest with
      | '\x7d' :: rest => .ok (object [], rest)
      | rest => do
        let (members, rest) ← members fuel [] rest
        .ok (object members, rest)
    | _ => scalar input

/-- The items of an array and its closing bracket. -/
def items : Nat → Text → Except ReadFault (List Json × Text)
  | 0, _ => .error .malformed
  | fuel + 1, input => do
    let (item, rest) ← value fuel input
    match skipSpace rest with
    | ']' :: rest => .ok ([item], rest)
    | ',' :: rest => do
      let (others, rest) ← items fuel (skipSpace rest)
      .ok (item :: others, rest)
    | _ => .error .malformed

/-- The members of an object, put into those read before, and its closing brace. -/
def members : Nat → Entries Json → Text → Except ReadFault (Entries Json × Text)
  | 0, _, _ => .error .malformed
  | fuel + 1, before, input =>
    match input with
    | '"' :: rest => do
      let (key, rest) ← string (rest.length + 1) rest
      match skipSpace rest with
      | ':' :: rest => do
        let (item, rest) ← value fuel (skipSpace rest)
        let now := Entries.put key item before
        match skipSpace rest with
        | '\x7d' :: rest => .ok (now, rest)
        | ',' :: rest => members fuel now (skipSpace rest)
        | _ => .error .malformed
      | _ => .error .malformed
    | _ => .error .malformed

end

end Reader

/-- The one value that the text holds. -/
def read (input : Text) : Except ReadFault Json := do
  let (result, rest) ← Reader.value (2 * input.length + 2) (Reader.skipSpace input)
  if (Reader.skipSpace rest).isEmpty then .ok result else .error .malformed

end FieldSearch.Json
