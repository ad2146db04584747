import FieldSearch.Number.Read

/-!
# Kinds of nodes

A tag names the kind of value that a node stands for. A plain scalar without a tag has the kind
that its text looks like: a truth value, a number, a date, nothing, or else a text.
-/

namespace FieldSearch.Yaml

inductive Kind where
  | null
  | bool
  | int
  | float
  | binary
  | timestamp
  | omap
  | pairs
  | set
  | text
  | list
  | map
  | merge
  | value
  | unknown
deriving DecidableEq

namespace Kind

def tagPrefix : Text := "tag:yaml.org,2002:"

def named : List (Text × Kind) :=
  [("null", null), ("bool", bool), ("int", int), ("float", float), ("binary", binary),
   ("timestamp", timestamp), ("omap", omap), ("pairs", pairs), ("set", set), ("str", text),
   ("seq", list), ("map", map), ("merge", merge), ("value", value)]

def ofTag (tag : Text) : Kind :=
  ((List.isPrefixOf? tagPrefix tag).bind (named.lookup ·)).getD unknown

/-! ## Words -/

def wordsFor : List (Bool × List Text) :=
  [(true, ["yes", "Yes", "YES", "true", "True", "TRUE", "on", "On", "ON"]),
   (false, ["no", "No", "NO", "false", "False", "FALSE", "off", "Off", "OFF"])]

def isBoolWord (t : Text) : Bool := wordsFor.any fun (_, ws) => ws.any (· = t)

def nullWords : List Text := [[], "~", "null", "Null", "NULL"]

def infinities : List Text := ["inf", "Inf", "INF"]

def undefinedWords : List Text := ["nan", "NaN", "NAN"]

/-- Marks without the name that belongs to them. -/
def bareMarks : List Text := [['!'], ['&'], ['*']]

/-! ## Numbers -/

def isDigitOrMark (c : Char) : Bool := Text.isAsciiDigit c || c = '_'

/-- A text of one or more characters of some kind. -/
def isRow (p : Char → Bool) (t : Text) : Bool := !t.isEmpty && t.all p

/-- A row of digits and underscores that begins with a digit of some kind. -/
def isDigitRow (first : Char → Bool) : Text → Bool
  | [] => false
  | c :: rest => first c && rest.all isDigitOrMark

def isSixtieth : Text → Bool
  | [b] => Text.isAsciiDigit b
  | [a, b] => '0' ≤ a && a ≤ '5' && Text.isAsciiDigit b
  | _ => false

/-- Several numbers between colons, of which all but the first are below sixty. -/
def isSexagesimal (first : Char → Bool) (t : Text) : Bool :=
  match t.splitOn ':' with
  | head :: second :: rest => isDigitRow first head && (second :: rest).all isSixtieth
  | _ => false

def isNonzeroDigit (c : Char) : Bool := '1' ≤ c && c ≤ '9'

def isInt (t : Text) : Bool :=
  match (Number.splitSign t).2 with
  | '0' :: 'b' :: digits => isRow (fun c => c = '0' || c = '1' || c = '_') digits
  | '0' :: 'x' :: digits => isRow (fun c => (Text.hexDigit? c).isSome || c = '_') digits
  | '0' :: digits => digits.all fun c => ('0' ≤ c && c ≤ '7') || c = '_'
  | body => isDigitRow isNonzeroDigit body || isSexagesimal isNonzeroDigit body

/-- An exponent has a sign. -/
def isExponent : Text → Bool
  | [] => true
  | e :: sign :: digits =>
    (e = 'e' || e = 'E') && (sign = '+' || sign = '-') && isRow Text.isAsciiDigit digits
  | _ => false

def isFloatBody (isSigned : Bool) (whole places : Text) : Bool :=
  let mantissa := places.takeWhile isDigitOrMark
  let exponent := places.drop mantissa.length
  if whole.isEmpty then
    (!isSigned && isDigitRow Text.isAsciiDigit mantissa && isExponent exponent)
      || infinities.any (· = places)
      || (!isSigned && undefinedWords.any (· = places))
  else
    (isDigitRow Text.isAsciiDigit whole && isExponent exponent)
      || (isSexagesimal Text.isAsciiDigit whole && exponent.isEmpty)

/-- Numbers with a point; a number without one is no binary number. -/
def isFloat (t : Text) : Bool :=
  let body := (Number.splitSign t).2
  match body.cut '.' with
  | some (whole, places) => isFloatBody (body.length ≠ t.length) whole places
  | none => false

/-! ## Dates -/

/-- Between `least` and `most` digits at the start of a text, as many as there are. -/
def digits? (least most : Nat) (t : Text) : Option (Text × Text) :=
  let digits := (t.take most).takeWhile Text.isAsciiDigit
  if least ≤ digits.length then some (digits, t.drop digits.length) else none

def skip? (c : Char) (t : Text) : Option Text := List.isPrefixOf? [c] t

def isGap (c : Char) : Bool := c = ' ' || c = '\t'

/-- The parts of a date with a time of day, as texts. -/
structure DateText where
  year : Text
  month : Text
  day : Text
  hour : Text := []
  minute : Text := []
  second : Text := []
  fraction : Text := []
  sign : Option Char := none
  zoneHour : Text := []
  zoneMinute : Text := []

namespace DateText

/-- `Z`, or a sign with hours and perhaps minutes; nothing is a zone as well. -/
def zone? (d : DateText) (t : Text) : Option DateText := do
  let after := t.dropWhile isGap
  if t.isEmpty then return d
  match after with
  | ['Z'] => return { d with sign := some 'Z' }
  | sign :: rest =>
    if sign = '+' ∨ sign = '-' then
      let (hour, rest) ← digits? 1 2 rest
      let d := { d with sign := some sign, zoneHour := hour }
      match rest with
      | [] => return d
      | ':' :: rest =>
        let (minute, rest) ← digits? 2 2 rest
        if rest.isEmpty then return { d with zoneMinute := minute } else none
      | _ => none
    else none
  | [] => none

def clock? (d : DateText) (t : Text) : Option DateText := do
  let (hour, t) ← digits? 1 2 t
  let (minute, t) ← digits? 2 2 (← skip? ':' t)
  let (second, t) ← digits? 2 2 (← skip? ':' t)
  let (fraction, t) := match t with
    | '.' :: t => t.span Text.isAsciiDigit
    | t => ([], t)
  { d with hour, minute, second, fraction }.zone? t

/-- A gap of blanks, or a letter, in front of the time of day. -/
def gap? : Text → Option Text
  | 'T' :: t | 't' :: t => some t
  | t => if t.head?.any isGap then some (t.dropWhile isGap) else none

/-- The parts of a date. Without a time of day, month and day may be held to two digits each. -/
def ofText? (least : Nat) (t : Text) : Option DateText := do
  let (year, t) ← digits? 4 4 t
  let (month, t) ← digits? 1 2 (← skip? '-' t)
  let (day, t) ← digits? 1 2 (← skip? '-' t)
  let d : DateText := { year, month, day }
  if t.isEmpty then if least ≤ month.length ∧ least ≤ day.length then some d else none
  else d.clock? (← gap? t)

end DateText

/-! ## Plain scalars -/

/-- The kind that the text of a plain scalar looks like. -/
def ofPlain (t : Text) : Kind :=
  if isBoolWord t then bool
  else if isFloat t then float
  else if isInt t then int
  else if t = ['<', '<'] then merge
  else if nullWords.any (· = t) then null
  else if (DateText.ofText? 2 t).isSome then timestamp
  else if t = ['='] then value
  else if bareMarks.any (· = t) then unknown
  else text

end Kind

end FieldSearch.Yaml
