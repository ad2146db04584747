import FieldSearch.Json.Basic

/-!
# Errors

What can go wrong, as causes with their wording and classification, and the guidance given along
with an error. A cause has one category, one severity and one default for whether a retry helps.

A crash is a failure without guidance: an operation was given a value that it does not take. Only
some crashes have words of their own.
-/

namespace FieldSearch

inductive Category where
  | api
  | schema
  | validation
  | data
  | configuration
deriving DecidableEq

inductive Severity where
  | warning
  | error
  | critical
  | transient
deriving DecidableEq

def Category.text : Category → Text
  | api => "api"
  | schema => "schema"
  | validation => "validation"
  | data => "data"
  | configuration => "config"

def Severity.text : Severity → Text
  | warning => "warning"
  | error => "error"
  | critical => "critical"
  | transient => "transient"

inductive Cause where
  | unclassified (message : Text)
  | api (message : Text)
  | backend (message : Text) (status : Option Int) (errors : Json)
  | rateLimited (message : Text) (after : Float)
  | network (message : Text)
  | unavailable (service message : Text)
  | schema (message : Text)
  | validation (message : Text)
  | notAQuery (raw : Option Text)
  | badParameter (name : Text) (value : Json) (expected : Text)
  | data (message : Text)
  | noEligibleType (fields : List Text)
  | notFound (resource : Text) (identifier : Option Text)
  | unreadable (message : Text) (source : Option Text)
  | configuration (message : Text)

namespace Cause

def textOrNull : Option Text → Json
  | some t => .text t
  | none => .null

def message : Cause → Text
  | unclassified m | api m | network m | schema m | validation m | data m | configuration m => m
  | backend m _ _ => m
  | rateLimited m _ => m
  | unavailable service m => service ++ ": " ++ m
  | notAQuery raw => "Not a search query: " ++ (textOrNull raw).shown
  | badParameter name value expected =>
    "Invalid parameter '" ++ name ++ "': " ++ value.shown ++ " (expected " ++ expected ++ ")"
  | noEligibleType fields => "No document type has all fields: " ++ Text.join ", " fields
  | notFound resource identifier =>
    match identifier with
    | none | some [] => resource ++ " not found"
    | some t => resource ++ " not found: " ++ t
  | unreadable m source =>
    match source with
    | none | some [] => "Parse error: " ++ m
    | some t => "Parse error (" ++ t ++ "): " ++ m

def category : Cause → Category
  | unclassified _ | api _ | backend .. | rateLimited .. | network _ | unavailable .. => .api
  | schema _ => .schema
  | validation _ | notAQuery _ | badParameter .. => .validation
  | data _ | noEligibleType _ | notFound .. | unreadable .. => .data
  | configuration _ => .configuration

def severity : Cause → Severity
  | rateLimited .. | unavailable .. | schema _ => .transient
  | validation _ | notAQuery _ | badParameter .. => .warning
  | configuration _ => .critical
  | _ => .error

def isRetryable : Cause → Bool
  | api _ | rateLimited .. | network _ | unavailable .. | schema _ => true
  | _ => false

end Cause

structure Guidance where
  operation : Option Text := none
  input : Json := .null
  suggestion : Option Text := none
  sample : Option Text := none
  retryAfter : Option Float := none
  metadata : Entries Json := []

namespace Guidance

/-- A member of a given guidance wins over the default. -/
def withDefaults (g : Guidance) (input : Json) (suggestion sample : Option Text) : Guidance :=
  { g with
    input := if g.input.isNull then input else g.input
    suggestion := g.suggestion <|> suggestion
    sample := g.sample <|> sample }

def forCause (g : Guidance) : Cause → Guidance
  | .rateLimited _ after =>
    { g with retryAfter := some after }.withDefaults .null (some "Wait and retry the request") none
  | .notAQuery raw =>
    g.withDefaults (Cause.textOrNull raw) (some "Use comma-separated field: value pairs")
      (some "first_name: Mark, last_name: Lee")
  | .badParameter _ value expected =>
    { g with input := value, suggestion := some ("Expected " ++ expected) }
  | .noEligibleType fields =>
    g.withDefaults (.array (fields.map .text))
      (some "Check field names with suggest_search_fields") none
  | _ => g

end Guidance

structure SearchError where
  cause : Cause
  guidance : Guidance
  retryable : Bool

namespace SearchError

def of (cause : Cause) (guidance : Guidance := {}) : SearchError :=
  ⟨cause, guidance.forCause cause, cause.isRetryable⟩

def message (e : SearchError) : Text := e.cause.message

def textMember (name : Text) (value : Option Text) : Entries Json :=
  match value with
  | none | some [] => []
  | some t => [(name, .text t)]

def waitMember (value : Option Float) : Entries Json :=
  match value with
  | none => []
  | some x => if x == 0 then [] else [("retry_after_seconds", .real x)]

/-- The description of an error: what happened, its classification, and the guidance given. -/
def describe (e : SearchError) : Entries Json :=
  [ (("error" : Text), .text e.message),
    (("category" : Text), .text e.cause.category.text),
    (("severity" : Text), .text e.cause.severity.text),
    (("retryable" : Text), .bool e.retryable) ]
    ++ textMember "operation" e.guidance.operation
    ++ textMember "suggestion" e.guidance.suggestion
    ++ textMember "example" e.guidance.sample
    ++ waitMember e.guidance.retryAfter

def retryLine (e : SearchError) : List Text :=
  if e.retryable then
    match e.guidance.retryAfter with
    | some x =>
      if x == 0 then ["This error is retryable"]
      else ["Retry after " ++ Number.oneDecimal x ++ " seconds"]
    | none => ["This error is retryable"]
  else []

def labelledLine (label : Text) (value : Option Text) (before after : Text) : List Text :=
  match value with
  | none | some [] => []
  | some t => ["**" ++ label ++ "**: " ++ before ++ t ++ after]

/-- The error as a tool answers it, in Markdown. -/
def markdown (e : SearchError) : Text :=
  Text.lines
    (["**Error**: " ++ e.message]
      ++ labelledLine "Suggestion" e.guidance.suggestion [] []
      ++ labelledLine "Example" e.guidance.sample ['\x60'] ['\x60']
      ++ e.retryLine)

end SearchError

/-- A value did not have the shape under which it was looked into. -/
inductive ShapeFault where
  | missingKey (key : Text)
  | notIndexable (kind : Text)
  | notIterable (kind : Text)
  | textIndex
  | listIndex
  | noMember (kind member : Text)
deriving DecidableEq

namespace ShapeFault

/-- The fault as it is shown inside the message of an error. -/
def shown : ShapeFault → Text
  | missingKey key => "KeyError(" ++ Text.quoted key ++ ")"
  | notIndexable kind => typeFault ("'" ++ kind ++ "' object is not subscriptable")
  | notIterable kind => typeFault ("'" ++ kind ++ "' object is not iterable")
  | textIndex => typeFault "string indices must be integers, not 'str'"
  | listIndex => typeFault "list indices must be integers or slices, not str"
  | noMember kind member =>
    "AttributeError(" ++ Text.quoted ("'" ++ kind ++ "' object has no attribute '" ++ member ++ "'")
      ++ ")"
where
  typeFault (message : Text) : Text := "TypeError(" ++ Text.quoted message ++ ")"

end ShapeFault

inductive Crash where
  | shape (fault : ShapeFault)
  | nonFinite (x : Float)
  | foreignValue (kind : Text)
  | pageSize (shown : Text)
  | tooManyDigits
  | notANumber
  | wrongKind
  | noOffset
  | undecodable
  | unencodable
  | noSuchDate
  | noSuchCharacter
  | outOfRange
  | badAddress
  | emptyNumber
  | unknownWord
  | notAMoment
  | endless
  | executor
  | notConfigured

namespace Crash

/-- Refuses a page size, unless it cannot even be written. -/
def ofPageSize (n : Int) : Crash :=
  if Number.isWritable n then pageSize (Text.ofInt n) else tooManyDigits

def message? : Crash → Option Text
  | nonFinite x =>
    some ("Cannot serialize non-finite float " ++ Number.ofFloat x ++ " as a GraphQL literal")
  | foreignValue kind => some ("Cannot serialize " ++ kind ++ " as a GraphQL literal")
  | pageSize shown => some ("page_size must be positive, got " ++ shown)
  | notConfigured => some "Container not initialized. Call create_server() first."
  | _ => none

end Crash

/-! ## Values that are written -/

def Number.written (n : Int) : Except Crash Text :=
  if isWritable n then .ok (Text.ofInt n) else .error .tooManyDigits

namespace Json

def written (value : Json) : Except Crash Text :=
  if value.isWritable then .ok value.asText else .error .tooManyDigits

def writtenOrEmpty (value : Json) : Except Crash Text :=
  if value.isWritable then .ok value.asTextOrEmpty else .error .tooManyDigits

end Json

inductive Failure where
  | error (e : SearchError)
  | crash (c : Crash)

namespace Failure

def ofCause (cause : Cause) : Failure := .error (.of cause)

def ofShape (fault : ShapeFault) : Failure := .crash (.shape fault)

end Failure

end FieldSearch
