import FieldSearch.Results.Table

/-!
# Outcomes

What became of one search: its number in the order of issue, the text it was given, a status, and
the records it found. Three of the six statuses are shown to the reader; the others change nothing.
-/

namespace FieldSearch

inductive Status where
  | results
  | noEligibleType
  | notAQuery
  | unavailable
  | restored
  | stale
deriving DecidableEq

namespace Status

def text : Status → Text
  | results => "results"
  | noEligibleType => "no_eligible_type"
  | notAQuery => "not_a_query"
  | unavailable => "unavailable"
  | restored => "restored"
  | stale => "stale"

def all : List Status := [results, noEligibleType, notAQuery, unavailable, restored, stale]

def named? (name : Text) : Option Status := all.find? (·.text = name)

def isPublished : Status → Bool
  | results | noEligibleType | restored => true
  | notAQuery | unavailable | stale => false

end Status

structure Outcome where
  seq : Nat
  raw : Text
  status : Status
  records : List Record := []

namespace Outcome

def sampleQuery : Text := "first_name: Mark, last_name: Lee"

def markdown (α : Type) [Duration α] (status : Status) (records : List Record) (now : Moment) :
    Except Crash Text :=
  match status with
  | .results => Table.markdown α records now
  | .noEligibleType => .ok Table.emptyState
  | .notAQuery =>
    .ok ("Not a search yet. Use comma-separated `field: value` pairs, e.g. `" ++ sampleQuery
      ++ "`.")
  | .unavailable =>
    .ok "Search is unavailable: the content schema could not be loaded. Try again later."
  | .restored => .ok "Search cleared, showing the original document list."
  | .stale => .ok "Search superseded by a newer one."

end Outcome

end FieldSearch
