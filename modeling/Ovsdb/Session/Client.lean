import Ovsdb.Session.State

/-! A client with its sessions and the registries that route notifications to them. A run is a list of actions, of
    the users, of the servers, of the clock and of the sessions' own tasks, in any order. -/

namespace Ovsdb

/-- The live connections, each with the position of the session that owns it. Connection numbers are never used
    again. -/
structure Registry where
  next : Nat
  entries : List (Nat × Nat)

namespace Registry

/-- A registry without connections. -/
def empty : Registry := ⟨0, []⟩

/-- Gives the next connection number to a session. -/
def register (r : Registry) (session : Nat) : Registry :=
  ⟨r.next + 1, r.entries ++ [(r.next, session)]⟩

/-- Takes a connection out. Nothing happens if it is not there. -/
def deregister (r : Registry) (connection : Nat) : Registry :=
  { r with entries := r.entries.filter (·.1 != connection) }

/-- The session that a connection belongs to, as long as it is registered. -/
def owner? (r : Registry) (connection : Nat) : Option Nat :=
  r.entries.lookup connection

/-- Whether a connection is registered. -/
def contains (r : Registry) (connection : Nat) : Bool :=
  (r.owner? connection).isSome

end Registry

/-- The registry at position zero is the shared one. `now` is the time in milliseconds. -/
structure Client where
  registries : List Registry
  sessions : List Session
  now : Nat

/-- One step of a run. `session` is the position of the session that it is about. -/
inductive Action where
  | open (inPrivate : Bool) (capacity : Nat)
  | clone (session : Nat)
  | drop (session : Nat)
  | handler (session : Nat) (h : Handler)
  | invoke (session ticket : Nat) (i : Invocation)
  | close (session ticket : Nat)
  | abandon (session ticket : Nat)
  | keepalive (session period : Nat)
  | advance (time : Nat)
  | notify (connection : Nat) (n : Notification)
  | send (session : Nat) (bytes : List UInt8)
  | serverEnds (session : Nat)
  | serverDrops (session : Nat)
  | serverReads (session : Nat) (on : Bool)
  | task (session : Nat) (t : Task)

namespace Client

/-- A client that has not opened a session yet. -/
def initial : Client := ⟨[.empty], [], 0⟩

/-- Changes the session at position `i`, if there is one. -/
def modify (c : Client) (i : Nat) (f : Session → Session) : Client :=
  { c with sessions := c.sessions.modify i f }

/-- The registry for sessions that are not given one of their own. -/
def shared (c : Client) : Registry :=
  c.registries.headD .empty

/-! ### Life and death of sessions -/

/-- A new session registers its connection before anything else happens. -/
def openSession (c : Client) (inPrivate : Bool) (capacity : Nat) : Client :=
  let registries := if inPrivate then c.registries ++ [.empty] else c.registries
  let r := if inPrivate then c.registries.length else 0
  let connection := (registries[r]?.map (·.next)).getD 0
  { c with
    registries := registries.modify r (·.register c.sessions.length)
    sessions := c.sessions ++ [.initial r connection capacity] }

/-- Closes a session and takes it out of its registry. Only the first time has any effect. -/
def tearDown (c : Client) (i : Nat) : Client :=
  match c.sessions[i]? with
  | none => c
  | some s =>
    match s.state with
    | .closed => c
    | .opened =>
      { c with
        registries := c.registries.modify s.registry (·.deregister s.connection)
        sessions := c.sessions.modify i Session.close }

/-- Tears a session down and tells its dispatcher to stop. -/
def stop (c : Client) (i : Nat) : Client :=
  (c.tearDown i).modify i fun s =>
    if s.stopping then s else { s with stopping := true }.wake .dispatch

/-- A session is stopped when nobody has a handle of it any more. -/
def release (c : Client) (i : Nat) : Client :=
  match c.sessions[i]? with
  | some s => if s.holders = 0 then c.stop i else c
  | none => c

/-! ### Messages from the server -/

/-- Hands a notification to the handler of the session that owns a connection, and tells whether there is one. -/
def deliver (c : Client) (registry connection : Nat) (n : Notification) : Client × Bool :=
  match c.registries[registry]?.bind (·.owner? connection) with
  | none => (c, false)
  | some i => (c.modify i fun s => s.note (.callback s.handler n), true)

/-- Answers a request: an echo with its parameters, a notification by delivering it, and any other one that has an
    id with an error. -/
def handle (c : Client) (i registry connection : Nat) (q : Request) : Client :=
  if q.method = "echo" then
    if q.isNotification then c else c.modify i (·.respond (.success q.id q.params))
  else
    match Notification.ofMethod q.method q.params with
    | .ok (some n) => (c.deliver registry connection n).1
    | .ok none =>
      if q.isNotification then c else c.modify i (·.respond (.failure q.id ("unknown method: " ++ q.method)))
    | .error _ => c

/-- Takes one message; a malformed one is ignored. -/
def receive (c : Client) (i registry connection : Nat) (j : Json) : Client :=
  let c := c.modify i (·.note (.received j))
  match Message.ofJson j with
  | .ok (.response r) => c.modify i (·.complete r)
  | .ok (.request q) => c.handle i registry connection q
  | .error _ => c

/-! ### Tasks -/

/-- Ends the dispatcher, and the session with it. -/
def endDispatcher (c : Client) (i : Nat) : Client :=
  (c.tearDown i).modify i fun s => { s with dispatcher := .ended }

/-- Lets the dispatcher put its response into the queue, or else take one message of the server's or one read of
    the stream. It ends when it is told to, at the end of the stream and at a fault in it.

    Being told to stop comes before a message that is there to be taken. When both are there at once either of them
    might come first: that a dispatcher takes one more message before it stops is left out. -/
def dispatch (c : Client) (i : Nat) (s : Session) : Client :=
  match s.dispatcher with
  | .ended => c
  | .blocked => c.modify i (·.enter .dispatcher)
  | .running =>
    if s.stopping then c.endDispatcher i
    else
      match s.inbound.poll, s.stream.arrived with
      | (.value j, r), _ => (c.modify i fun s => { s with inbound := r }).receive i s.registry s.connection j
      | (.fault _, r), _ => (c.modify i fun s => { s with inbound := r }).endDispatcher i
      | (.incomplete, r), [] =>
        let c := c.modify i fun s => { s with inbound := r }
        if s.stream.serverWrites then c else c.endDispatcher i
      | (.incomplete, r), arrived =>
        c.modify i fun s =>
          { s with
            inbound := r.extend (arrived.take Framing.readLimit)
            stream := { s.stream with arrived := arrived.drop Framing.readLimit } }

/-- The writer takes something from its queue, or puts as much on the stream as there is room for. It ends at a
    shutdown, when the stream fails, and when nobody can give it anything any more. -/
def write (c : Client) (i : Nat) (s : Session) : Client :=
  match s.writer, s.queue with
  | .ended, _ => c
  | .idle, [] => if s.isOrphan then c.modify i (·.endWriter) else c
  | .idle, .frame j :: rest =>
    c.modify i fun s => { s with writer := .writing (Framing.frameBytes j), queue := rest }.invite
  | .idle, .shutdown ticket :: rest =>
    c.modify i fun s =>
      ({ s with queue := rest, stream := { s.stream with shut := true } }.rejected (.closer ticket)).endWriter
  | .writing bytes, _ =>
    if s.stream.serverPresent then
      c.modify i fun s =>
        { s with
          stream := { s.stream with written := s.stream.written ++ bytes.take s.stream.room }
          writer := match bytes.drop s.stream.room with
            | [] => .idle
            | rest => .writing rest }
    else (c.stop i).modify i (·.endWriter)

/-- The server reads what the client has written, up to the end if the client has got there. -/
def serve (s : Session) : Session :=
  { s with
    stream := { s.stream with
      taken := s.stream.written.length
      sawEnd := s.stream.sawEnd || s.stream.shut || s.isGone } }.wake .write

/-- Lets a call go on: it puts its frame into the queue, or takes its reply. -/
def proceed (s : Session) (number now : Nat) : Session :=
  if s.isInvited (.call number) then s.enter (.call number) else s.conclude number now

/-- Lets a task do its next bit of work; one that has none rests until it is woken again. -/
def perform (c : Client) (i : Nat) (t : Task) : Client :=
  match c.sessions[i]? with
  | none => c
  | some s =>
    if s.canGoOn c.now t then
      match t with
      | .dispatch => c.dispatch i s
      | .call number => c.modify i (proceed · number c.now)
      | .closer ticket => c.modify i (·.enter (.closer ticket))
      | .tick k => c.modify i (·.tick k)
      | .write => c.write i s
      | .serve => c.modify i serve
      | .supply => c.modify i fun s => { s with stream := s.stream.supply }.wake .dispatch
    else c.modify i (·.rest t)

/-! ### Steps -/

/-- Whether what the server writes can still reach the client. -/
def canSend (s : Session) : Bool :=
  s.stream.serverPresent && s.stream.serverWrites && !s.isGone

/-- What an action does, apart from stopping a session that nobody holds any more. -/
def act (c : Client) : Action → Client
  | .open inPrivate capacity => c.openSession inPrivate capacity
  | .clone i => c.modify i fun s => { s with handles := s.handles + 1 }
  | .drop i => c.modify i fun s => { s with handles := s.handles - 1 }
  | .handler i h => c.modify i fun s => { s with handler := h }
  | .invoke i ticket invocation => c.modify i (·.invoke ticket invocation)
  | .close i ticket =>
    (c.stop i).modify i fun s =>
      { s with closers := s.closers ++ [ticket] }.offer (.shutdown ticket) (.closer ticket)
  | .abandon i ticket => c.modify i (·.abandon ticket)
  | .keepalive i period => c.modify i fun s => if period = 0 then s else s.keepAlive period c.now
  | .advance time =>
    { c with
      now := c.now + time
      sessions := c.sessions.map (·.wakeDue (c.now + time)) }
  | .notify connection n => (c.deliver 0 connection n).1
  | .send i bytes =>
    c.modify i fun s =>
      if canSend s then
        { s with stream := { s.stream with unsent := s.stream.unsent ++ bytes }.supply }.wake .dispatch
      else s
  | .serverEnds i =>
    c.modify i fun s => { s with stream := { s.stream with serverWrites := false } }.wake .dispatch
  | .serverDrops i =>
    c.modify i fun s =>
      ({ s with stream := { s.stream with serverWrites := false, serverPresent := false } }.wake .dispatch).wake .write
  | .serverReads i on => c.modify i fun s => { s with stream := { s.stream with reading := on } }
  | .task i t => c.perform i t

/-- The session that an action is about. -/
def Action.session? : Action → Option Nat
  | .open .. | .advance _ | .notify .. => none
  | .clone i | .drop i | .handler i _ | .invoke i .. | .close i _ | .abandon i _ | .keepalive i _ | .send i _
  | .serverEnds i | .serverDrops i | .serverReads i _ | .task i _ => some i

/-- One step of a run: what the action does, and after it the end of a session that nobody holds any more. -/
def step (c : Client) (a : Action) : Client :=
  match Action.session? a with
  | some i => (c.act a).release i
  | none => c.act a

/-- The steps of a run, one after the other. -/
def run (c : Client) (actions : List Action) : Client :=
  actions.foldl step c

end Client
end Ovsdb
