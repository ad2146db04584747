import FieldSearch.Text.Blank
import FieldSearch.Text.Digit
import FieldSearch.Number.Binary64

/-!
# Reading numbers

Numbers typed by people: blanks around, a sign, decimal digits of any script, a single underscore
between two digits. Whole numbers of more than 4300 digits are refused. A number with a point or
an exponent becomes the nearest 64-bit binary number; the words for infinity and for no number at
all are read in any case.
-/

namespace FieldSearch.Number

/-- The most digits of a whole number that is read or written. -/
def maxDigits : Nat := 4300

def isWritable (n : Int) : Bool := (Text.ofNat n.natAbs).length ≤ maxDigits

/-- Every digit as its ASCII form and every blank beyond ASCII as a space; any other character
beyond ASCII becomes a character that no number has. -/
def plainForm (text : Text) : Text :=
  text.map fun c =>
    if c.toNat < 127 then c
    else match Text.digit? c with
      | some d => .ofNat (48 + d)
      | none => if Text.isBlankBeyondAscii c then ' ' else '?'

def isNumberBlank (c : Char) : Bool := c = ' ' || ('\t' ≤ c && c ≤ '\r')

def stripBlanks (text : Text) : Text :=
  ((text.dropWhile isNumberBlank).reverse.dropWhile isNumberBlank).reverse

def splitSign : Text → Bool × Text
  | '-' :: rest => (true, rest)
  | '+' :: rest => (false, rest)
  | text => (false, text)

/-- Takes out underscores, each of which has to stand between two digits. -/
def dropUnderscores (afterDigit : Bool) : Text → Option Text
  | [] => some []
  | '_' :: c :: rest =>
    if afterDigit && Text.isAsciiDigit c then (dropUnderscores true rest).map (c :: ·) else none
  | c :: rest =>
    if c = '_' then none else (dropUnderscores (Text.isAsciiDigit c) rest).map (c :: ·)

/-- The value of a row of digits, most significant first. -/
def digitsValue (digits : Text) : Nat := digits.foldl (fun n c => n * 10 + (c.toNat - 48)) 0

def readInt (text : Text) : Option Int := do
  let (negative, body) := splitSign (stripBlanks (plainForm text))
  let digits ← dropUnderscores false body
  if digits.isEmpty || !digits.all Text.isAsciiDigit || maxDigits < digits.length then none
  else
    let n : Int := digitsValue digits
    some (if negative then -n else n)

def lowerAscii (text : Text) : Text := text.map Char.toLower

/-- The nearest binary number to `digits * 10 ^ exponent`. -/
def scaled (digits : Nat) (exponent : Int) : Float :=
  if digits = 0 then 0
  else
    let size : Int := (Text.ofNat digits).length + exponent
    if 400 < size then 1.0 / 0.0
    else if size < -400 then 0
    else match exponent with
      | .ofNat k => Float.ofScientific digits false k
      | .negSucc k => Float.ofScientific digits true (k + 1)

/-- Digits, a point with digits, an exponent; at least one digit before the exponent. -/
def readDecimal (text : Text) : Option Float := do
  let (whole, rest) := text.span Text.isAsciiDigit
  let (places, rest) := match rest with
    | '.' :: rest => rest.span Text.isAsciiDigit
    | rest => ([], rest)
  if whole.isEmpty && places.isEmpty then none
  let value (e : Int) := scaled (digitsValue (whole ++ places)) (e - places.length)
  match rest with
  | [] => some (value 0)
  | c :: rest =>
    if c = 'e' ∨ c = 'E' then
      let (negative, digits) := splitSign rest
      if digits.isEmpty || !digits.all Text.isAsciiDigit then none
      else
        let e : Int := digitsValue digits
        some (value (if negative then -e else e))
    else none

def readMagnitude (text : Text) : Option Float :=
  let word := lowerAscii text
  if word = ("inf" : Text) ∨ word = ("infinity" : Text) then some (1.0 / 0.0)
  else if word = ("nan" : Text) then some (0.0 / 0.0)
  else (dropUnderscores false text).bind readDecimal

def readFloat (text : Text) : Option Float :=
  let (negative, body) := splitSign (stripBlanks (plainForm text))
  (readMagnitude body).map fun x => if negative then -x else x

end FieldSearch.Number
