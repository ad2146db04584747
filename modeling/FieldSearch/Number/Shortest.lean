import FieldSearch.Text.Basic

/-!
# Shortest digits

A positive binary number `m * 2 ^ q` is named by the fewest decimal digits that lead back to it.
The decimals that round to it fill an interval; its ends belong to it when `m` is even. Grids of
1, 2, … 17 digits are tried in turn, and of a grid only the two neighbours of the number matter.
-/

namespace FieldSearch.Number

structure Decimal where
  digits : Nat
  exponent : Int
deriving DecidableEq, Repr

structure Fraction where
  num : Nat
  den : Nat

namespace Fraction

def ofScaled (n : Nat) (base : Nat) : Int → Fraction
  | .ofNat k => ⟨n * Nat.pow base k, 1⟩
  | .negSucc k => ⟨n, Nat.pow base (k + 1)⟩

def le (a b : Fraction) : Bool := a.num * b.den ≤ b.num * a.den

def lt (a b : Fraction) : Bool := a.num * b.den < b.num * a.den

end Fraction

/-- A positive binary number and whether its lower neighbour is nearer than its upper one. -/
structure Binary where
  m : Nat
  q : Int
  narrowBelow : Bool

namespace Binary

def value (b : Binary) : Fraction := .ofScaled b.m 2 b.q

/-- The least decimal that rounds to the number or, when `m` is odd, the first that does not. -/
def lower (b : Binary) : Fraction :=
  if b.narrowBelow then .ofScaled (4 * b.m - 1) 2 (b.q - 2) else .ofScaled (2 * b.m - 1) 2 (b.q - 1)

def upper (b : Binary) : Fraction := .ofScaled (2 * b.m + 1) 2 (b.q - 1)

def covers (b : Binary) (x : Fraction) : Bool :=
  if b.m % 2 = 0 then b.lower.le x && x.le b.upper else b.lower.lt x && x.lt b.upper

/-- The exponent of the first decimal digit: `10 ^ e ≤ m * 2 ^ q < 10 ^ (e + 1)`. -/
def firstExponent (b : Binary) : Int :=
  let v := b.value
  if v.den ≤ v.num then ((Text.ofNat (v.num / v.den)).length : Int) - 1
  else
    let k := (Text.ofNat (v.den / v.num)).length
    if v.den ≤ v.num * Nat.pow 10 (k - 1) then 1 - (k : Int) else -(k : Int)

/-- The neighbours of the number among the multiples of `10 ^ e`. -/
def neighbours (b : Binary) (e : Int) : Nat × Nat :=
  let v := b.value
  let n := match e with
    | .ofNat k => v.num / (v.den * Nat.pow 10 k)
    | .negSucc k => v.num * Nat.pow 10 (k + 1) / v.den
  (n, n + 1)

/-- Whether `n * 10 ^ e` is at most as far from the number as `(n + 1) * 10 ^ e`; a tie goes to the
even one. -/
def nearerBelow (b : Binary) (n : Nat) (e : Int) : Bool :=
  let v := b.value
  let middle := Fraction.ofScaled (2 * n + 1) 10 e
  let twice : Fraction := ⟨2 * v.num, v.den⟩
  twice.lt middle || (twice.le middle && n % 2 = 0)

/-- The point of the grid with step `10 ^ e` that names the number, if one does. -/
def onGrid? (b : Binary) (e : Int) : Option Decimal :=
  let (low, high) := b.neighbours e
  let hitLow := low ≠ 0 && b.covers (.ofScaled low 10 e)
  let hitHigh := b.covers (.ofScaled high 10 e)
  if hitLow && (!hitHigh || b.nearerBelow low e) then some ⟨low, e⟩
  else if hitHigh then some ⟨high, e⟩
  else none

/-- Tries grids of `used + 1`, … digits, with `more` grids left to try. -/
def searchGrids (b : Binary) (first : Int) (used : Nat) : Nat → Decimal
  | 0 => ⟨(b.neighbours (first - used)).1, first - used⟩
  | more + 1 =>
    match b.onGrid? (first - used) with
    | some d => d
    | none => searchGrids b first (used + 1) more

def shortest (b : Binary) : Decimal := b.searchGrids b.firstExponent 0 17

end Binary

end FieldSearch.Number
