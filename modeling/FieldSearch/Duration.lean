import FieldSearch.Number.Binary64

/-!
# Durations

The arithmetic that spans of time need. Spans are exact rationals in the theory and 64-bit binary
numbers where the library runs, so everything about time is stated over both at once.
-/

namespace FieldSearch

class Duration (α : Type) extends Add α, Sub α, Div α, LT α, LE α where
  /-- The number `digits / 10 ^ places`, or the nearest one. -/
  ofDecimal (digits places : Nat) : α
  /-- The nearest whole number to a span that is not negative, a half going to the even one. -/
  nearest : α → Nat
  decideLT (a b : α) : Decidable (a < b)
  decideLE (a b : α) : Decidable (a ≤ b)

namespace Duration

variable {α : Type} [Duration α]

instance (a b : α) : Decidable (a < b) := decideLT a b

instance (a b : α) : Decidable (a ≤ b) := decideLE a b

def ofNat (n : Nat) : α := ofDecimal n 0

instance : Duration Rat where
  ofDecimal digits places := mkRat digits (Nat.pow 10 places)
  nearest q := Number.roundEven q.num.toNat q.den
  decideLT _ _ := inferInstance
  decideLE _ _ := inferInstance

instance : Duration Float where
  ofDecimal digits places := Float.ofScientific digits true places
  nearest x :=
    match (Number.parts x).2 with
    | .finite b => Number.roundEven b.value.num b.value.den
    | _ => 0
  decideLT _ _ := inferInstance
  decideLE _ _ := inferInstance

end Duration

end FieldSearch
