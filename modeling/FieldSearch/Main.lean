import FieldSearch.Json.Read
import FieldSearch.Server.Basic

/-!
# The program

The program reads its settings and then serves tools over its standard streams, one line of Json at
a time. A host on the other side calls the tools, sends the requests that the program asks for,
keeps the file of saved searches and tells the time:

* `tool`, `args` and `now` call a tool; the answer has a `text`, or a `failure`,
* `request` asks for a request; the host answers with `status`, `reason`, `headers` and `body`, or
  with the text of a `failure`,
* `load` asks for the text of the file, `store` asks for its replacement.
-/

namespace FieldSearch.Program

open Transport

def object (members : List (Text × Json)) : Json := .object members

def say (line : Json) : IO Unit := do
  let out ← IO.getStdout
  out.putStrLn (String.ofList (Json.write .ascii line))
  out.flush

/-- The next line of the host; `none` at the end or for a line that is not Json. -/
def hear : IO (Option Json) := do
  let line ← (← IO.getStdin).getLine
  return (Json.read line.toList).toOption

def textMember (key : Text) (line : Json) : Text := ((line.member? key).getD .null).asTextOrEmpty

/-! ## Requests -/

def headersOf (line : Json) : Entries Text :=
  match line.member? "headers" with
  | some (.object members) => members.map fun (key, value) => (key, value.asText)
  | _ => []

def replyOf (line : Option Json) : Reply Float :=
  match line with
  | none => .failed "connection closed"
  | some line =>
    match line.member? "failure", line.member? "status" with
    | none, some (.int status) =>
      let body := textMember "body" line
      .answered (.ofParts status.toNat (some (textMember "reason" line)) (headersOf line)
        (Text.encodeUtf8 body) body)
    | _, _ => .failed (textMember "failure" line)

def requestLine (wire : Wire) : Json :=
  object [("request", object [("url", .text wire.url),
    ("headers", .object (wire.headers.map fun (key, value) => (key, .text value)))])]

abbrev Purpose := Repository.Purpose × Repository.Stage Float

abbrev Calls := Batch (Repository.Client Float) Purpose Float (Option (Reply Float))

def machine : Machine (Repository.Client Float) Purpose Float := Repository.Client.machine Float

def respond : Wire → Option (Reply Float) → Reply Float × Option (Reply Float) :=
  fun _ reply => (reply.getD (.failed "connection closed"), none)

def sleepFor (seconds : Float) : IO Unit := IO.sleep (seconds * 1000).ceil.toUInt32

/-- Lets a batch have its turns; the host takes the requests, and sleeps are slept. -/
partial def finish (b : Calls) : IO Calls := do
  match b.ready with
  | [] => return b
  | (_, some wire) :: _ =>
    say (requestLine wire)
    let reply := replyOf (← hear)
    let next := { b with source := some reply }.step machine respond
    (next.sleeps.drop b.sleeps.length).forM sleepFor
    finish next
  | (_, none) :: _ =>
    let next := b.step machine respond
    (next.sleeps.drop b.sleeps.length).forM sleepFor
    finish next

def secondsNow : IO Float := return (← IO.monoMsNow).toFloat / 1000

def query (client : Repository.Client Float) (document : Text) :
    IO (Repository.Client Float × Except Failure Json) := do
  let b ← finish (.start (← secondsNow) client none [(.query document, .starting)])
  let result := match b.calls with
    | [(purpose, .finished result)] => purpose.outcome result
    | _ => .ok .null
  return (b.client, result)

/-! ## Tools -/

/-- A backend whose replies come from the host, later. -/
def later : Backend Unit := fun _ u => (none, u)

structure State where
  client : Repository.Client Float
  running : Running Unit
  path : Text

/-- Answers all documents of the session from the given one on. -/
partial def pump (s : State) (n : Nat) : IO State := do
  match s.running.session.sent[n]? with
  | none => return s
  | some (sender, document) =>
    let (client, reply) ← query s.client document
    pump { s with client, running := s.running.act later (.answer sender reply) } (n + 1)

def load (path : Text) : IO Store := do
  say (object [("load", .text path)])
  return match ← hear with
    | some (.text t) => ⟨some (Text.encodeUtf8 t)⟩
    | _ => {}

def keep (path : Text) (before after : Store) : IO Unit := do
  match after.file with
  | none => return
  | some bytes =>
    if before ≠ after then
      say (object [("store", .text path), ("text", .text (Text.decodeUtf8 bytes))])

def answerLine : Option (Except Failure Text) → Json
  | some (.ok t) => object [("text", .text t)]
  | some (.error (.error e)) => object [("failure", .text e.message)]
  | some (.error (.crash c)) => object [("failure", .text (c.message?.getD "unexpected value"))]
  | none => object [("failure", .text "no answer")]

def call (s : State) (now : Moment) (c : ToolCall) : IO State := do
  let store ← load s.path
  match c.plan Float .yaml now store s.running.session.lastQueried with
  | .answered result after =>
    keep s.path store after
    say (answerLine (some result))
    return s
  | .asking request words =>
    let n := s.running.session.sent.length
    let s ← pump { s with running := s.running.act later (.start request) } n
    say (answerLine (s.running.session.lastResult?.map words))
    return s

def toolOf (line : Json) : Option ToolCall :=
  (Tool.named? (textMember "tool" line)).map
    (ToolCall.ofTool · ((line.member? "args").getD .null))

partial def serve (s : State) : IO Unit := do
  match ← hear with
  | none => return
  | some line =>
    match toolOf line, Moment.ofText? (textMember "now" line) with
    | some c, some now => serve (← call s now c)
    | _, _ =>
      say (answerLine none)
      serve s

/-! ## Start -/

def environment : IO (Entries Text) := do
  let values ← Settings.allVariables.mapM fun name => do
    return (name, ((← IO.getEnv (String.ofList name)).getD "").toList)
  return values

def start (arguments : List Text) (env : Entries Text) : Except Text Server := do
  let settings ← (Settings.ofCommandLine arguments env).mapError StartFault.message
  (Server.ofSettings settings).mapError fun
    | .error e => e.message
    | .crash c => c.message?.getD "unexpected value"

def stateOf (server : Server) : State where
  client := server.client
  running := { session := server.session, backend := () }
  path := server.directory.getD ("~/" ++ Server.defaultDirectory) ++ "/" ++ Store.fileName

end FieldSearch.Program

open FieldSearch in
/-- Starts a server, or tells why there is none. -/
def main (arguments : List String) : IO UInt32 := do
  match Program.start (arguments.map String.toList) (← Program.environment) with
  | .error message =>
    (← IO.getStderr).putStrLn (String.ofList message)
    return 2
  | .ok server =>
    Program.serve (Program.stateOf server)
    return 0
