import FieldSearch.Number.Shortest

/-!
# Binary numbers as text

The written form of a 64-bit binary number: the shortest digits that read back, positional between
`0.0001` and `10 ^ 16` with at least one place, and with a signed exponent of two digits beyond.
A second form has one place, rounded from the exact value with a half going to the even neighbour.
-/

namespace FieldSearch.Number

inductive Magnitude where
  | zero
  | finite (b : Binary)
  | infinite
  | nan

/-- The parts of a 64-bit binary number: its sign and its magnitude. -/
def parts (x : Float) : Bool × Magnitude :=
  let bits := x.toBits.toNat
  let negative := decide (Nat.pow 2 63 ≤ bits)
  let exponent : Nat := bits / Nat.pow 2 52 % Nat.pow 2 11
  let mantissa : Nat := bits % Nat.pow 2 52
  let magnitude :=
    if exponent = 2047 then if mantissa = 0 then Magnitude.infinite else .nan
    else if exponent = 0 then if mantissa = 0 then .zero else .finite ⟨mantissa, -1074, false⟩
    else .finite ⟨Nat.pow 2 52 + mantissa, (exponent : Int) - 1075, mantissa = 0 && exponent ≠ 1⟩
  (negative, magnitude)

def isFinite (x : Float) : Bool :=
  match (parts x).2 with
  | .infinite | .nan => false
  | _ => true

def dropZeros (digits : Text) : Text := (digits.reverse.dropWhile (· = '0')).reverse

/-- Digits with a point after the first `whole` of them, zeros filled in on either side. -/
def placePoint (digits : Text) (whole : Int) : Text :=
  match whole with
  | .ofNat 0 => "0." ++ digits
  | .negSucc k => "0." ++ List.replicate (k + 1) '0' ++ digits
  | .ofNat n =>
    let before := digits.take n
    let after := digits.drop n
    before ++ List.replicate (n - before.length) '0' ++ "." ++ (if after.isEmpty then ['0'] else after)

def exponentText (e : Int) : Text :=
  (if e < 0 then "e-" else "e+") ++ Text.padded 2 e.natAbs

def Decimal.show (d : Decimal) : Text :=
  let digits := Text.ofNat d.digits
  let first : Int := d.exponent + digits.length - 1
  let kept := dropZeros digits
  if -4 ≤ first ∧ first < 16 then placePoint kept (first + 1)
  else
    let point : Text := if kept.length = 1 then [] else ['.']
    kept.take 1 ++ point ++ kept.drop 1 ++ exponentText first

def signed (negative : Bool) (text : Text) : Text := if negative then '-' :: text else text

def ofFloat (x : Float) : Text :=
  match parts x with
  | (_, .nan) => "nan"
  | (negative, .infinite) => signed negative "inf"
  | (negative, .zero) => signed negative "0.0"
  | (negative, .finite b) => signed negative b.shortest.show

/-- The nearest whole number to a quotient, a half going to the even neighbour. -/
def roundEven (num den : Nat) : Nat :=
  let q := num / den
  let twice := 2 * (num % den)
  if twice < den ∨ (twice = den ∧ q % 2 = 0) then q else q + 1

def tenths (n : Nat) : Text := Text.ofNat (n / 10) ++ "." ++ Text.ofNat (n % 10)

def oneDecimal (x : Float) : Text :=
  match parts x with
  | (_, .nan) => "nan"
  | (negative, .infinite) => signed negative "inf"
  | (negative, .zero) => signed negative "0.0"
  | (negative, .finite b) => signed negative (tenths (roundEven (10 * b.value.num) b.value.den))

end FieldSearch.Number
