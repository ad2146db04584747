import FieldSearch.Moment.Relative
import FieldSearch.Results.Record

/-!
# The table of results

Records as a Markdown table: what a document is called, its type, when it was last published and
where it is edited. A pipe inside a cell is escaped and a line feed becomes a blank.
-/

namespace FieldSearch

namespace Record

def fallbackLabel : Text := "Document"

def label (r : Record) : Text :=
  match r.preview with
  | .text t | .richText t _ => if t.isEmpty then fallbackLabel else t
  | .absent => fallbackLabel

def path (r : Record) : Text := "/documents~b=working&c=unclassified/" ++ r.id ++ "/"

end Record

namespace Table

def emptyState : Text :=
  Text.lines
    ["## No content matching this request", [],
     "Try to search using other tags, types, authors or keyword."]

def cell (text : Text) : Text := (text.replace '|' "\\|").replace '\n' " "

def row (α : Type) [Duration α] (now : Moment) (r : Record) : Except Crash Text := do
  let age ← Moment.relative α (← r.publishedAt) now
  return "| " ++ cell r.label ++ " | " ++ cell r.type ++ " | " ++ age ++ " | " ++ r.path ++ " |"

def heading (count : Nat) : List Text :=
  ["**" ++ Text.ofNat count ++ " document(s)**", [],
   "| Name | Type | Last update | Link |",
   "|------|------|-------------|------|"]

def markdown (α : Type) [Duration α] (records : List Record) (now : Moment) :
    Except Crash Text := do
  if records.isEmpty then return emptyState
  return Text.lines (heading records.length ++ (← records.mapM (row α now)))

end Table

end FieldSearch
