import Ovsdb.Session.Schedule

/-! What can be seen of a client's sessions from outside, and what is new since an earlier time. -/

namespace Ovsdb

/-- The complete lines of a text, without their ends. `line` is what has been read of the first one, newest byte
    first. -/
def completeLines (line : List UInt8) : List UInt8 → List (List UInt8)
  | [] => []
  | b :: rest =>
    if b = '\n'.toNat.toUInt8 then line.reverse :: completeLines [] rest else completeLines (b :: line) rest

/-- The lines that the server has read so far. -/
def Stream.lines (s : Stream) : List String :=
  (completeLines [] (s.written.take s.taken)).map fun line => (String.fromUTF8? ⟨line.toArray⟩).getD ""

/-- How a connection number is shown. -/
def connectionName (connection : Nat) : String :=
  "conn-" ++ Text.ofNat connection

namespace Session

/-- Whether a session is open. -/
def isOpen (s : Session) : Bool := s.state = .opened

/-- How a session is shown: by its connection and its state. -/
def describe (s : Session) : String :=
  "Session \x7b connection: ConnectionId(" ++ Text.ofNat s.connection ++ "), state: " ++ s.state.text ++ " \x7d"

/-- What has happened in a session since an earlier time, or from its beginning. -/
def newEvents (s : Session) (before : Option Session) : List Event :=
  s.journal.drop ((before.map (·.journal.length)).getD 0)

/-- The lines that the server has read since an earlier time, or from the beginning. -/
def newLines (s : Session) (before : Option Session) : List String :=
  s.stream.lines.drop ((before.map (·.stream.lines.length)).getD 0)

end Session

namespace Event

/-- The ticket and the result of a call that has finished. -/
def finished? : Event → Option (Nat × Except Error Answer)
  | .finished ticket result => some (ticket, result)
  | _ => none

/-- The line that a handler keeps of a notification. -/
def logLine? : Event → Option String
  | .callback h n => h.line? n
  | _ => none

end Event

namespace Client

/-- What is new in a client: for each session, by position, the lines that its server has read; then the results of
    calls, and the lines that handlers keep. -/
structure News where
  lines : List (List String)
  finished : List (Nat × Except Error Answer)
  log : List String

/-- What is new in a client since an earlier time. -/
def newsSince (c before : Client) : News :=
  let pairs := c.sessions.zipIdx.map fun (s, i) => (s, before.sessions[i]?)
  let events := pairs.flatMap fun (s, b) => s.newEvents b
  ⟨pairs.map fun (s, b) => s.newLines b, events.filterMap Event.finished?, events.filterMap Event.logLine?⟩

/-- Whether a session's connection is in the shared registry; nothing is said of one with a registry of its own. -/
def registered? (c : Client) (s : Session) : Option Bool :=
  if s.registry = 0 then some (c.shared.contains s.connection) else none

/-! ### A short conversation -/

/-- How a client and its server get on: the requests that the server sees, the results of the calls, and the client
    at the start and at the end. -/
structure Conversation where
  start : Client
  finish : Client
  requests : List String
  results : List (Except Error Answer)

/-- Lists the databases once for each of the results that the server will give; then the server goes away. -/
def converse (keepalive : Option Nat) (replies : List Json) : Conversation :=
  let start := initial.step (.open false 65536)
  let start := (match keepalive with
    | some seconds => start.step (.keepalive 0 (1000 * seconds))
    | none => start).settle
  let c := replies.zipIdx.foldl (fun c (reply, i) =>
    let c := (c.step (.invoke 0 i .listDbs)).settle
    (c.step (.send 0 (Response.success (.ofUInt64 (UInt64.ofNat i)) reply).toJson.bytes)).settle) start
  let finish := (c.step (.serverDrops 0)).settle
  let news := finish.newsSince start
  ⟨start, finish, news.lines.flatten, news.finished.map (·.2)⟩

end Client
end Ovsdb
