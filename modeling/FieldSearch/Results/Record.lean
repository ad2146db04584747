import FieldSearch.Moment.Iso
import FieldSearch.Schema.Response

/-!
# Records

One record per document that a search found, whatever its type. The response of a search lists
documents by root field; a listing is an object with `edges`, an edge an object with a `node`, and
a node has an identifier under `_meta`. A preview keeps its shape: a text, or the first block of a
rich text.
-/

namespace FieldSearch

inductive Preview where
  | absent
  | text (t : Text)
  | richText (text : Text) (blockType : Json)

namespace Preview

def kind : Preview → Text
  | absent => "absent"
  | text _ => "text"
  | richText .. => "rich_text"

/-- Objects such as links and images have no preview text. -/
def ofJson : Json → Except Crash Preview
  | .text t => .ok (text t)
  | .array [] => .ok absent
  | .array (.object block :: _) => do
    let t ← ((Entries.get? "text" block).getD .null).writtenOrEmpty
    return richText t ((Entries.get? "type" block).getD .null)
  | .array (first :: _) => do return richText (← first.written) .null
  | .bool b => do return text (← (Json.bool b).written)
  | .int n => do return text (← (Json.int n).written)
  | .real x => do return text (← (Json.real x).written)
  | .null | .object _ => .ok absent

end Preview

structure Record where
  id : Text
  type : Text
  published : Json := .null
  preview : Preview := .absent

namespace Record

def malformed (message : Text) : Failure := .ofCause (.unreadable message (some "search"))

/-- The record of a node, given its details and the identifier among them. -/
def ofDetails (node details : Entries Json) (id : Json) : Except Crash Record := do
  return {
    id := ← id.written
    type := ← ((Entries.get? "type" details).getD .null).writtenOrEmpty
    published := (Entries.get? "lastPublicationDate" details).getD .null
    preview := ← Preview.ofJson ((Entries.get? "summary" node).getD .null) }

def ofNode (node : Entries Json) : Except Failure Record :=
  match Entries.get? "_meta" node with
  | some (.object details) =>
    match Entries.get? "id" details with
    | some id => (ofDetails node details id).mapError .crash
    | none => .error (malformed "node without _meta.id")
  | _ => .error (malformed "node without _meta.id")

def ofEdge (key : Text) (edge : Json) : Except Failure Record :=
  match edge.member? "node" with
  | some (.object node) => ofNode node
  | _ => .error (malformed (key ++ " has an edge without node"))

/-- The records of one listing; a listing that is missing has none. -/
def ofListing (key : Text) (listing : Json) : Except Failure (List Record) :=
  if listing.isNull then .ok []
  else match listing.member? "edges" with
    | some (.array edges) => edges.mapM (ofEdge key)
    | _ => .error (malformed (key ++ " is not an edges listing"))

def ofKey (data : Json) (key : Text) : Except Failure (List Record) := do
  let listing ← (Json.lookup key data).mapError .ofShape
  ofListing key listing

/-- The records of a response in the order of the root fields, or of its own keys. -/
def aggregate (data : Json) (rootFields : Option (List Text)) : Except Failure (List Record) := do
  let keys ←
    match rootFields with
    | some keys => .ok keys
    | none => ((Json.elements data).map (List.map Json.asText)).mapError .ofShape
  return (← keys.mapM (ofKey data)).flatten

/-- The moment of publication; `none` if it is missing or malformed. -/
def publishedAt (r : Record) : Except Crash (Option Moment) :=
  match r.published with
  | .text t => .ok (Moment.ofText? t)
  | value => if value.isTruthy then .error .wrongKind else .ok none

end Record

end FieldSearch
