import FieldSearch.Text.Base64
import FieldSearch.Yaml.Cursor
import FieldSearch.Yaml.Kind
import FieldSearch.Yaml.Value

/-!
# The meaning of scalars

The text of a scalar is read as a value of its kind. Many texts of a kind have no value: digits that
do not belong to the base of a number, or a day that is not in the calendar.
-/

namespace FieldSearch.Yaml

namespace Value

/-! ## Numbers -/

def dropMarks (t : Text) : Text := t.filter (· ≠ '_')

def refuse {α : Type} (c : Crash) : Except Fault α := .error (.crash c)

/-- The value of digits in a base, which may be named once more by its letter after a zero. -/
def inBase (base : Nat) (letter : Char) (text : Text) : Except Fault Int :=
  let (negative, body) := Number.splitSign (Number.stripBlanks (Number.plainForm text))
  let digits := match body with
    | '0' :: c :: rest => if c.toLower = letter then rest else body
    | _ => body
  let values := (digits.filterMap Text.hexDigit?).filter (· < base)
  if digits.isEmpty || values.length ≠ digits.length then refuse .notANumber
  else
    let n : Int := (values.foldl (fun n d => n * base + d) 0 : Nat)
    .ok (if negative then -n else n)

def decimal (digits : Text) : Except Fault Int :=
  match Number.readInt digits with
  | some n => .ok n
  | none => refuse .notANumber

def magnitude (body : Text) : Except Fault Int :=
  match body with
  | [] => refuse .emptyNumber
  | ['0'] => .ok 0
  | '0' :: 'b' :: digits => inBase 2 'b' digits
  | '0' :: 'x' :: digits => inBase 16 'x' digits
  | '0' :: _ :: _ => inBase 8 'o' body
  | _ =>
    if ':' ∈ body then do
      .ok ((← (body.splitOn ':').mapM decimal).foldl (fun n d => n * 60 + d) 0)
    else decimal body

def readInt (t : Text) : Except Fault Int := do
  let (negative, body) := Number.splitSign (dropMarks t)
  let n ← magnitude body
  .ok (if negative then -n else n)

def binary (t : Text) : Except Fault Float :=
  match Number.readFloat t with
  | some x => .ok x
  | none => refuse .notANumber

/-- The sum of parts that count sixty times as much as the one after them, from the last one on. -/
def sexagesimal (parts : List Float) : Except Fault Float := do
  let start : Float × Nat := (0.0, 1)
  let (sum, _) ← parts.reverse.foldlM (fun (sum, weight) x =>
    let factor := Float.ofNat weight
    if factor.isInf then refuse .outOfRange else .ok (sum + x * factor, weight * 60)) start
  .ok sum

def floatMagnitude (body : Text) : Except Fault Float :=
  if body = (".inf" : Text) then .ok (1.0 / 0.0)
  else if body = (".nan" : Text) then .ok (0.0 / 0.0)
  else if ':' ∈ body then do sexagesimal (← (body.splitOn ':').mapM binary)
  else binary body

def readFloat (t : Text) : Except Fault Float := do
  let word := Number.lowerAscii (dropMarks t)
  if word.isEmpty then refuse .emptyNumber
  else
    let (negative, body) := Number.splitSign word
    let x ← floatMagnitude body
    .ok (if negative then -x else x)

/-! ## Dates -/

def microseconds (fraction : Text) : Nat :=
  let places := fraction.take 6
  Number.digitsValue places * Nat.pow 10 (6 - places.length)

/-- The offset of a zone; `Z` is universal time. -/
def offset (d : Kind.DateText) : Option Int :=
  d.sign.map fun sign =>
    let minutes : Int := Number.digitsValue d.zoneHour * 60 + Number.digitsValue d.zoneMinute
    (if sign = '-' then -minutes else minutes) * 60000000

def ofDateText {ι : Type} (d : Kind.DateText) : Except Fault (Value ι) :=
  let n := Number.digitsValue
  let date : Date := ⟨n d.year, n d.month, n d.day⟩
  if d.hour.isEmpty then if date.isValid then .ok (.date date) else refuse .noSuchDate
  else
    let time : TimeOfDay := ⟨n d.hour, n d.minute, n d.second, microseconds d.fraction⟩
    let isNear := (offset d).all fun o => o.natAbs < 86400000000
    if date.isValid && time.isValid && isNear then .ok (.moment ⟨date, time, offset d⟩)
    else refuse .noSuchDate

/-! ## Scalars -/

def boolWords : List (Text × Bool) :=
  [("yes", true), ("true", true), ("on", true), ("no", false), ("false", false), ("off", false)]

def ofScalar {ι : Type} (kind : Kind) (t : Text) : Except Fault (Value ι) :=
  match kind with
  | .null => .ok .null
  | .text => .ok (.text t)
  | .bool =>
    match boolWords.lookup (Number.lowerAscii t) with
    | some b => .ok (.bool b)
    | none => refuse .unknownWord
  | .int => do .ok (.int (← readInt t))
  | .float => do .ok (.real (← readFloat t))
  | .timestamp =>
    match Kind.DateText.ofText? 1 t with
    | some d => ofDateText d
    | none => refuse .notAMoment
  | .binary =>
    if t.all (·.toNat < 128) then
      match Text.decodeBase64? t with
      | some b => .ok (.bytes b)
      | none => .error .malformed
    else .error .malformed
  | .omap | .pairs | .set | .list | .map | .merge | .value | .unknown => .error .malformed

end Value

end FieldSearch.Yaml
