import FieldSearch.Moment.Basic
import FieldSearch.Text.Digit
import FieldSearch.Text.Utf8

/-!
# Moments as text

Most of ISO 8601: calendar and week dates, with or without hyphens; one character of any kind
before the time; hours, minutes and seconds, with or without colons, of which the last ones may be
missing; a fraction of which six places count; `Z` or an offset of less than a day.

The reader counts bytes and not characters, and where it looks for the end a zero byte is one.
-/

namespace FieldSearch.Moment

/-- The bytes of a text in UTF-8, each as a character of its own. -/
def bytewise (text : Text) : Text := (Text.encodeUtf8 text).map fun b => .ofNat b.toNat

def isEnd : Text → Bool
  | [] => true
  | c :: _ => c = '\x00'

/-- A number of exactly `n` ASCII digits at the start of a text. -/
def digits? : Nat → Text → Option (Nat × Text)
  | n, text =>
    let digits := text.take n
    if digits.length = n ∧ digits.all Text.isAsciiDigit then
      some (digits.foldl (fun v c => v * 10 + (c.toNat - 48)) 0, text.drop n)
    else none

def charAt (text : Text) (i : Nat) : Option Char := text[i]?

def isDigitAt (text : Text) (i : Nat) : Bool := (charAt text i).any Text.isAsciiDigit

/-- Where the date ends. A week date without hyphens may or may not name the day: an odd number of
digits between the week's and the next other character begins with a weekday. -/
def dateLength (text : Text) : Nat :=
  if text.length = 7 then 7
  else if charAt text 4 = some '-' then
    if charAt text 5 = some 'W' then
      if charAt text 8 = some '-' then if isDigitAt text 10 then 8 else 10
      else 8
    else 10
  else if charAt text 4 = some 'W' then
    let run := 7 + ((text.drop 7).takeWhile Text.isAsciiDigit).length
    if run < 9 then run else if run % 2 = 0 then 7 else 8
  else 8

/-- A separator that is there exactly when the date uses hyphens. -/
def hyphen? (wanted : Bool) (text : Text) : Option Text :=
  if wanted then List.isPrefixOf? ['-'] text else some text

def weekDate? (year : Nat) (hyphens : Bool) (text : Text) : Option Date := do
  let (week, rest) ← digits? 2 text
  if rest.isEmpty then Date.ofWeek? year week 1
  else
    let (day, _) ← digits? 1 (← hyphen? hyphens rest)
    Date.ofWeek? year week day

def date? (text : Text) : Option Date := do
  let (year, rest) ← digits? 4 text
  let hyphens := rest.head? = some '-'
  match ← hyphen? hyphens rest with
  | 'W' :: rest => weekDate? year hyphens rest
  | rest =>
    let (month, rest) ← digits? 2 rest
    let (day, _) ← digits? 2 (← hyphen? hyphens rest)
    return ⟨year, month, day⟩

/-- What a text says about the time of day, and whether something is left behind it. -/
structure Reading where
  fields : List Nat
  microsecond : Nat
  leftOver : Bool

def Reading.after (field : Nat) (r : Reading) : Reading := { r with fields := field :: r.fields }

/-- Places after the point; those beyond the sixth are dropped. -/
def fraction? (text : Text) : Option Reading := do
  let n := min 6 text.length
  let (value, rest) ← digits? n text
  return ⟨[], value * Nat.pow 10 (6 - n), !isEnd (rest.dropWhile Text.isAsciiDigit)⟩

/-- At most `n` fields of two digits. The character after the first one decides whether colons
stand between them. A single character behind a field is left over. -/
def fields? (colons : Option Bool) : Nat → Text → Option Reading
  | 0, text => fraction? text
  | n + 1, text => do
    let (value, rest) ← digits? 2 text
    match rest with
    | [] => return ⟨[value], 0, false⟩
    | [c] => return ⟨[value], 0, !isEnd [c]⟩
    | c :: after =>
      let colons := colons.getD (c = ':')
      let reading ←
        if colons && c = ':' then fields? (some colons) n after
        else if c = '.' || c = ',' then fraction? after
        else if colons then none
        else fields? (some colons) n rest
      return reading.after value

def Reading.time (r : Reading) : TimeOfDay :=
  ⟨r.fields[0]?.getD 0, r.fields[1]?.getD 0, r.fields[2]?.getD 0, r.microsecond⟩

/-- An offset from universal time, which is less than a day. -/
def offset? (text : Text) : Option Int := do
  let (sign, rest) ← text.head?.map (·, text.drop 1)
  if sign = 'Z' then if isEnd rest then some 0 else none
  else
    let reading ← fields? none 3 rest
    let t := reading.time
    let seconds : Int := (t.hour * 60 + t.minute) * 60 + t.second
    let magnitude := seconds * 1000000 + t.microsecond
    if reading.leftOver || dayLength ≤ magnitude then none
    else if seconds = 0 then some 0
    else some (if sign = '-' then -magnitude else magnitude)

def isOffsetSign (c : Char) : Bool := c = '+' || c = '-' || c = 'Z'

def clock? (text : Text) : Option (TimeOfDay × Option Int) := do
  let reading ← fields? none 3 (text.takeWhile (!isOffsetSign ·))
  match text.dropWhile (!isOffsetSign ·) with
  | [] => if reading.leftOver then none else return (reading.time, none)
  | zone => return (reading.time, some (← offset? zone))

/-- Reads a moment; `none` for a text that is not one. -/
def ofText? (text : Text) : Option Moment := do
  if text.length < 7 then none
  let bytes := bytewise text
  let length := dateLength bytes
  let date ← date? (bytes.take length)
  let (time, offset) ←
    if bytes.length ≤ length then some (TimeOfDay.midnight, none)
    else clock? (bytewise (text.drop (length + 1)))
  if date.isValid && time.isValid then some ⟨date, time, offset⟩ else none

def fractionText (microsecond : Nat) : Text :=
  if microsecond = 0 then [] else "." ++ Text.padded 6 microsecond

def offsetText (offset : Int) : Text :=
  let n := offset.natAbs
  let seconds := n / 1000000
  let rest := n % 1000000
  let tail : Text :=
    if seconds % 60 = 0 ∧ rest = 0 then []
    else ":" ++ Text.padded 2 (seconds % 60) ++ fractionText rest
  (if offset < 0 then "-" else "+") ++ Text.padded 2 (seconds / 3600) ++ ":"
    ++ Text.padded 2 (seconds / 60 % 60) ++ tail

def dateText (d : Date) : Text :=
  Text.padded 4 d.year ++ "-" ++ Text.padded 2 d.month ++ "-" ++ Text.padded 2 d.day

/-- The extended form of a moment, with a character between date and time. -/
def toTextWith (separator : Char) (m : Moment) : Text :=
  dateText m.date ++ [separator] ++ Text.padded 2 m.time.hour ++ ":"
    ++ Text.padded 2 m.time.minute ++ ":" ++ Text.padded 2 m.time.second
    ++ fractionText m.time.microsecond ++ (m.offset.map offsetText).getD []

def toText (m : Moment) : Text := m.toTextWith 'T'

example : (ofText? "2024-W03-1").map toText = some ("2024-01-15T00:00:00" : Text) := by decide

example : (ofText? "2024-01-15\u2003T09\u00E9+00:00").isNone := by decide

end FieldSearch.Moment
