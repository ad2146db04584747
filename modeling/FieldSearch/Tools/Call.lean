import FieldSearch.Saved.Store
import FieldSearch.Session.Settle
import FieldSearch.Tools.Answer
import FieldSearch.Tools.Catalog

/-!
# Calls of the tools

A call of a tool either is answered from the store of saved searches or asks the session something
and puts the answer into words. The plan of a call says which, so that it does not matter how the
session gets its replies.
-/

namespace FieldSearch

inductive ToolCall where
  | search (raw : Text)
  | suggest (raw : Text)
  | listTypes
  | explain (raw : Text)
  | save (raw name : Text)
  | listSaved
  | rename (index : Int) (name : Text)
  | forget (index : Int)
  | run (index : Int)

/-- What a call comes to: an answer and the store after it, or a request to the session and the
words for its result. -/
inductive Plan where
  | answered (result : Except Failure Text) (store : Store)
  | asking (request : Request) (words : Except Failure Answer → Except Failure Text)

namespace ToolCall

open Tools

/-! ## Arguments -/

def textArgument (arguments : Json) (name : Text) (default : Text) : Text :=
  match arguments.member? name with
  | some (.text t) => t
  | _ => default

def intArgument (arguments : Json) (name : Text) : Int :=
  match arguments.member? name with
  | some (.int n) => n
  | _ => 0

/-- A call of a tool with its arguments; only the name of a saved search has a default. -/
def ofTool (tool : Tool) (arguments : Json) : ToolCall :=
  let query := textArgument arguments "query" []
  let index := intArgument arguments "index"
  match tool with
  | .search => search query
  | .suggest => suggest query
  | .listTypes => listTypes
  | .explain => explain query
  | .save => save query (textArgument arguments "name" SavedQuery.defaultName)
  | .listSaved => listSaved
  | .rename => rename index (textArgument arguments "name" [])
  | .forget => forget index
  | .run => run index

/-! ## Plans -/

def outcomeText (α : Type) [Duration α] (now : Moment) (result : Except Failure Answer) :
    Except Failure Text :=
  match result with
  | .ok (.outcome o) => (Outcome.markdown α o.status o.records now).mapError .crash
  | .ok _ => .ok []
  | .error f => .error f

def suggestionsOf (raw : Text) : Except Failure Answer → Except Failure Text
  | .ok (.suggestions names) => .ok (suggestionsText raw names)
  | .ok _ => .ok []
  | .error f => .error f

def typesOf : Except Failure Answer → Except Failure Text
  | .ok (.types types) => .ok (typesText types)
  | .ok _ => .ok []
  | .error f => .error f

def explanationOf : Except Failure Answer → Except Failure Text
  | .ok (.document d) => (documentText d).mapError .crash
  | .ok _ => .ok []
  | .error f => .error f

def changed (lastQueried : Option Text) (change : Store.Change) : Plan :=
  .answered (orJson (change.1.map (savedText lastQueried))) change.2

def plan (α : Type) [Duration α] (f : Format) (now : Moment) (store : Store)
    (lastQueried : Option Text) : ToolCall → Plan
  | search raw => .asking (.trigger raw) fun r => orMarkdown (outcomeText α now r)
  | suggest raw => .asking (.suggest raw) (suggestionsOf raw)
  | listTypes => .asking .documentTypes fun r => orMarkdown (typesOf r)
  | explain raw => .asking (.compile raw) fun r => orMarkdown (explanationOf r)
  | save raw name => changed lastQueried (store.save f raw name)
  | listSaved => changed lastQueried (store.list f, store)
  | rename index name => changed lastQueried (store.rename f index name)
  | forget index => changed lastQueried (store.forget f index)
  | run index =>
    match store.get f index with
    | .error e => .answered (orMarkdown (.error e)) store
    | .ok q =>
      .asking (.trigger q.value) fun r => orMarkdown ((outcomeText α now r).map (replayText q))

end ToolCall

namespace Session

/-- How the call ended that was started last; `none` as long as it has not. -/
def lastResult? (s : Session) : Option (Except Failure Answer) :=
  match s.calls.getLast?.map Call.stage with
  | some (.finished result) => some result
  | _ => none

end Session

/-- A session in front of its backend, with the store of saved searches. -/
structure Toolbox (ω : Type) where
  running : Running ω
  store : Store := {}

namespace Toolbox

variable {ω : Type}

/-- Calls a tool; a call whose reply has not come has no answer yet. -/
def call (α : Type) [Duration α] (ask : Backend ω) (f : Format) (now : Moment) (box : Toolbox ω)
    (c : ToolCall) : Toolbox ω × Option (Except Failure Text) :=
  match c.plan α f now box.store box.running.session.lastQueried with
  | .answered result store => ({ box with store }, some result)
  | .asking request words =>
    let running := box.running.act ask (.start request)
    ({ box with running }, running.session.lastResult?.map words)

end Toolbox

end FieldSearch
