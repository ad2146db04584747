import FieldSearch.Error
import FieldSearch.Json.Read
import FieldSearch.Number.Read
import FieldSearch.Text.Encoding

/-!
# Replies

What comes back for a request: an answer with a status, a reason, a body and perhaps a time to wait
before trying again, or a failure to connect. Answers come unpacked, and with their body as a text
in the encoding that their headers name.
-/

namespace FieldSearch.Transport

open Text (Bytes)

def reasonPhrases : List (Nat × String) := [
  (100, "Continue"), (101, "Switching Protocols"), (102, "Processing"), (103, "Early Hints"),
  (200, "OK"), (201, "Created"), (202, "Accepted"), (203, "Non-Authoritative Information"),
  (204, "No Content"), (205, "Reset Content"), (206, "Partial Content"), (207, "Multi-Status"),
  (208, "Already Reported"), (226, "IM Used"),
  (300, "Multiple Choices"), (301, "Moved Permanently"), (302, "Found"), (303, "See Other"),
  (304, "Not Modified"), (305, "Use Proxy"), (307, "Temporary Redirect"),
  (308, "Permanent Redirect"),
  (400, "Bad Request"), (401, "Unauthorized"), (402, "Payment Required"), (403, "Forbidden"),
  (404, "Not Found"), (405, "Method Not Allowed"), (406, "Not Acceptable"),
  (407, "Proxy Authentication Required"), (408, "Request Timeout"), (409, "Conflict"),
  (410, "Gone"), (411, "Length Required"), (412, "Precondition Failed"),
  (413, "Request Entity Too Large"), (414, "Request-URI Too Long"),
  (415, "Unsupported Media Type"), (416, "Requested Range Not Satisfiable"),
  (417, "Expectation Failed"), (418, "I'm a teapot"), (421, "Misdirected Request"),
  (422, "Unprocessable Entity"), (423, "Locked"), (424, "Failed Dependency"), (425, "Too Early"),
  (426, "Upgrade Required"), (428, "Precondition Required"), (429, "Too Many Requests"),
  (431, "Request Header Fields Too Large"), (451, "Unavailable For Legal Reasons"),
  (500, "Internal Server Error"), (501, "Not Implemented"), (502, "Bad Gateway"),
  (503, "Service Unavailable"), (504, "Gateway Timeout"), (505, "HTTP Version Not Supported"),
  (506, "Variant Also Negotiates"), (507, "Insufficient Storage"), (508, "Loop Detected"),
  (510, "Not Extended"), (511, "Network Authentication Required")]

/-- The reason phrase of a status; empty for a status that is not registered. -/
def reasonPhrase (status : Nat) : Text := ((reasonPhrases.lookup status).map String.toList).getD []

def isAscii (c : Char) : Bool := c.toNat < 128

structure Answer (α : Type) where
  status : Nat
  reason : Text
  retryAfter : Option α
  body : Bytes
  text : Text

inductive Reply (α : Type) where
  | failed (message : Text)
  | answered (a : Answer α)

namespace Answer

variable {α : Type}

def isSuccess (a : Answer α) : Bool := 200 ≤ a.status && a.status < 300

def isServerError (a : Answer α) : Bool := 500 ≤ a.status && a.status < 600

/-- The value of a header, whatever the case of its name; values of the same name are joined. -/
def header? (name : Text) (headers : Entries Text) : Option Text :=
  match headers.filter fun (key, _) => key.map Char.toLower = name with
  | [] => none
  | found => some (Text.join ", " (found.map Prod.snd))

/-- An answer from the parts of a message. A reason of its own counts as far as it is ASCII. -/
def ofParts (status : Nat) (reason : Option Text) (headers : Entries Text) (body : Bytes)
    (text : Text) : Answer Float :=
  { status
    reason := match reason with
      | some t => t.filter isAscii
      | none => reasonPhrase status
    retryAfter := (header? "retry-after" headers).bind Number.readFloat
    body
    text }

end Answer

inductive BodyFault where
  | notJson
  | crash (c : Crash)

def jsonBody (body : Bytes) : Except BodyFault Json :=
  match Text.decodeJson? body with
  | none => .error (.crash .undecodable)
  | some t =>
    match Json.read t with
    | .ok value => .ok value
    | .error .malformed => .error .notJson
    | .error .tooManyDigits => .error (.crash .tooManyDigits)

/-- The body of an answer as it is wanted: Json, or any text. -/
def Answer.read {α : Type} (a : Answer α) (expectJson : Bool) : Except BodyFault Json :=
  if expectJson then jsonBody a.body else .ok (.text a.text)

end FieldSearch.Transport
