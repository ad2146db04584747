import FieldSearch.Duration
import FieldSearch.Error
import FieldSearch.Moment.Basic

/-!
# Relative time

How far a moment lies from now, in the unit that suits the distance: `3 days ago`. A month has
30.4 days and a year 365.25. Counts are rounded, a half going to the even one.
-/

namespace FieldSearch

inductive Phrase where
  | seconds
  | minute
  | minutes (n : Nat)
  | hour
  | hours (n : Nat)
  | day
  | days (n : Nat)
  | month
  | months (n : Nat)
  | year
  | years (n : Nat)
deriving DecidableEq

namespace Phrase

def text : Phrase → Text
  | seconds => "a few seconds"
  | minute => "a minute"
  | minutes n => Text.ofNat n ++ " minutes"
  | hour => "an hour"
  | hours n => Text.ofNat n ++ " hours"
  | day => "a day"
  | days n => Text.ofNat n ++ " days"
  | month => "a month"
  | months n => Text.ofNat n ++ " months"
  | year => "a year"
  | years n => Text.ofNat n ++ " years"

variable {α : Type} [Duration α]

open Duration (ofNat ofDecimal nearest)

def ofSeconds (s : α) : Phrase :=
  let m := s / ofNat 60
  let h := m / ofNat 60
  let d := h / ofNat 24
  if s < ofNat 45 then seconds
  else if s < ofNat 90 then minute
  else if m < ofNat 45 then minutes (nearest m)
  else if m < ofNat 90 then hour
  else if h < ofNat 22 then hours (nearest h)
  else if h < ofNat 36 then day
  else if d < ofNat 26 then days (nearest d)
  else if d < ofNat 45 then month
  else if d < ofNat 320 then months (nearest (d / ofDecimal 304 1))
  else if d < ofNat 548 then year
  else years (nearest (d / ofDecimal 36525 2))

end Phrase

namespace Moment

/-- The description of a distance in microseconds, which is negative for a later moment. -/
def describeDistance (α : Type) [Duration α] (microseconds : Int) : Text :=
  let phrase := Phrase.ofSeconds (Duration.ofDecimal microseconds.natAbs 6 : α)
  if microseconds < 0 then "in " ++ phrase.text else phrase.text ++ " ago"

/-- The description of a moment, seen from `now`, whose offset has to be known. -/
def relative (α : Type) [Duration α] (moment : Option Moment) (now : Moment) : Except Crash Text :=
  match moment, now.offset with
  | none, _ => .ok "never"
  | some _, none => .error .noOffset
  | some m, some _ => .ok (describeDistance α (now.instant - m.instant))

end Moment

end FieldSearch
