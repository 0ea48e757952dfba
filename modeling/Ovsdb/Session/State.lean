import Ovsdb.Framing.Reader
import Ovsdb.Session.Ledger

/-! The state of one session, and the elementary changes to it. A session has a dispatcher, which reads what the
    server sends, and a writer, which writes whole frames from a bounded queue; a call registers its id, puts its
    frame into the queue and waits for the reply that carries the id. All of them are tasks that go on when they are
    woken. -/

namespace Ovsdb

/-! ### The queue of frames -/

/-- Who puts something into the writer's queue. -/
inductive Sender where
  | call (number : Nat)
  | dispatcher
  | closer (ticket : Nat)
deriving DecidableEq

/-- Something that waits for room in the queue, and who it is from. -/
structure Waiting where
  item : Outbound
  sender : Sender

/-! ### Tasks and stream -/

/-- A writer waits for something in the queue, writes the rest of a frame, or has ended for good. -/
inductive Writer where
  | idle
  | writing (rest : List UInt8)
  | ended

/-- A dispatcher is blocked while a response of its own is not yet in the queue. -/
inductive Dispatcher where
  | running
  | blocked
  | ended
deriving DecidableEq

/-- A periodic echo to the server. The next one is due at `next`, but not before the last one is answered. -/
structure Keepalive where
  period : Nat
  next : Nat

/-- The stream between client and server, which holds `capacity` bytes at most in each direction. The server has
    read the first `taken` of the bytes that the client has written. Of what the server writes, `arrived` is on the
    stream, where the client has not read it yet, and `unsent` finds no room there. -/
structure Stream where
  capacity : Nat
  written : List UInt8
  taken : Nat
  arrived : List UInt8
  unsent : List UInt8
  reading : Bool
  serverPresent : Bool
  serverWrites : Bool
  shut : Bool
  sawEnd : Bool

namespace Stream

/-- A stream without anything on it, whose server reads and writes. -/
def initial (capacity : Nat) : Stream where
  capacity := capacity
  written := []
  taken := 0
  arrived := []
  unsent := []
  reading := true
  serverPresent := true
  serverWrites := true
  shut := false
  sawEnd := false

/-- How many bytes the client can write before the server reads more. -/
def room (s : Stream) : Nat := s.capacity - (s.written.length - s.taken)

/-- How many bytes the server can write before the client reads more. -/
def serverRoom (s : Stream) : Nat := s.capacity - s.arrived.length

/-- Puts as much of the server's bytes on the stream as there is room for. -/
def supply (s : Stream) : Stream :=
  { s with
    arrived := s.arrived ++ s.unsent.take s.serverRoom
    unsent := s.unsent.drop s.serverRoom }

end Stream

/-- What goes on by itself in a session: its dispatcher, its calls, its closes, its keepalives and its writer. The
    server takes up what it is sent, and supplies what it could not write at once. -/
inductive Task where
  | dispatch
  | call (number : Nat)
  | closer (ticket : Nat)
  | tick (keepalive : Nat)
  | write
  | serve
  | supply
deriving DecidableEq

/-- The task that goes on when a sender is invited. -/
def Sender.task : Sender → Task
  | .call number => .call number
  | .dispatcher => .dispatch
  | .closer ticket => .closer ticket

/-! ### Sessions -/

/-- One session. It belongs to the registry of that number and has a connection number there. `closers` holds those
    who wait for the writer to shut down, `waiting` what waits for room in the queue and `invited` what there is room
    for now. `timers` holds the keepalives that wait for their time, in the order in which they began to, and `ready`
    the tasks that have been woken, in order. `handles` counts the users' handles besides those that running calls
    hold. -/
structure Session extends Ledger where
  registry : Nat
  connection : Nat
  handler : Handler
  closers : List Nat
  schemas : Dict String DatabaseSchema
  queue : List Outbound
  waiting : List Waiting
  invited : List Waiting
  writer : Writer
  dispatcher : Dispatcher
  stopping : Bool
  inbound : Framing.Reader
  stream : Stream
  keepalives : List Keepalive
  timers : List Nat
  ready : List Task
  handles : Nat

namespace Session

/-- How many items the queue holds. -/
def queueLimit : Nat := 64

/-- A session that has just been opened, with one handle to it. -/
def initial (registry connection capacity : Nat) : Session where
  toLedger := .empty
  registry := registry
  connection := connection
  handler := .silent
  closers := []
  schemas := .empty
  queue := []
  waiting := []
  invited := []
  writer := .idle
  dispatcher := .running
  stopping := false
  inbound := .empty
  stream := .initial capacity
  keepalives := []
  timers := []
  ready := []
  handles := 1

/-- Writes an event down in the books. -/
def note (s : Session) (e : Event) : Session :=
  { s with toLedger := s.toLedger.note e }

/-- Lets a task go on, after those that have been woken before. -/
def wake (s : Session) (t : Task) : Session :=
  if t ∈ s.ready then s else { s with ready := s.ready ++ [t] }

/-- Lets a task rest that has nothing more to do for now. -/
def rest (s : Session) (t : Task) : Session :=
  { s with ready := s.ready.filter (· ≠ t) }

/-- Takes over new books. The calls that have got their reply go on, unless they wait for something else. -/
def update (s : Session) (l : Ledger) : Session :=
  let answered := l.calls.filter fun c => c.queued && c.reply.isSome && s.pending.contains c.number
  answered.foldl (fun s c => s.wake (.call c.number)) { s with toLedger := l }

/-! ### The queue -/

/-- Whether the queue has room for something that nobody has been invited to put there. -/
def hasRoom (s : Session) : Bool :=
  s.queue.length + s.invited.length < queueLimit

/-- Puts an item at the end of the queue, and wakes the writer for it. -/
def enqueue (s : Session) (item : Outbound) : Session :=
  ({ s with queue := s.queue ++ [item] }.note (.queued item)).wake .write

/-- What a sender does when its item has got into the queue: a call waits for its reply from now on, and the
    dispatcher goes on reading. -/
def accepted (s : Session) : Sender → Session
  | .call number => { s with toLedger := s.toLedger.place number }
  | .dispatcher => { s with dispatcher := .running }
  | .closer _ => s

/-- Tells a caller that the connection is closed. For a keepalive this is the end. -/
def fail (s : Session) : Caller → Session
  | .user ticket => s.note (.finished ticket (.error .connectionClosed))
  | .keepalive _ => s

/-- What a sender does when nothing takes items from the queue any more. One who waits for the writer to shut down
    has what it wants. -/
def rejected (s : Session) : Sender → Session
  | .call number =>
    match s.calls.find? (·.number == number) with
    | some call => (s.update (s.finish number (.error .connectionClosed))).fail call.caller
    | none => s
  | .dispatcher => { s with dispatcher := .running }.wake .dispatch
  | .closer ticket =>
    if ticket ∈ s.closers then
      { s with closers := s.closers.filter (· != ticket) }.note (.finished ticket (.ok .nothing))
    else s

/-- Lets an item and its sender wait behind those that already do. -/
def wait (s : Session) (item : Outbound) (sender : Sender) : Session :=
  { s with
    waiting := s.waiting ++ [Waiting.mk item sender]
    dispatcher := if sender = .dispatcher then .blocked else s.dispatcher }

/-- Puts an item into the queue, in its turn if there is no room. -/
def offer (s : Session) (item : Outbound) (sender : Sender) : Session :=
  match s.writer with
  | .ended => s.rejected sender
  | _ =>
    if s.waiting.isEmpty && s.hasRoom then (s.enqueue item).accepted sender
    else s.wait item sender

/-- Tells the first of those that wait that there is room for its item. -/
def invite (s : Session) : Session :=
  match s.waiting with
  | [] => s
  | w :: rest =>
    if s.hasRoom then { s with waiting := rest, invited := s.invited ++ [w] }.wake w.sender.task else s

/-- Puts the item of a sender into the queue that has been invited to. -/
def enter (s : Session) (sender : Sender) : Session :=
  match s.invited.find? (·.sender = sender) with
  | none => s
  | some w => ({ s with invited := s.invited.filter (·.sender ≠ sender) }.enqueue w.item).accepted sender

/-- Takes away what a sender has waiting. If it had been invited, its room goes to the first of the others. -/
def withdraw (s : Session) (sender : Sender) : Session :=
  { s with
    waiting := s.waiting.filter (·.sender ≠ sender)
    invited := s.invited.filter (·.sender ≠ sender) }.invite

/-- Ends the writer: nothing more is written, and all who wait for it learn so. -/
def endWriter (s : Session) : Session :=
  let senders := (s.invited ++ s.waiting).map (·.sender) ++ s.closers.map .closer
  senders.foldl rejected { s with writer := .ended, queue := [], waiting := [], invited := [] }

/-- Replies to the server. The dispatcher reads nothing more until the response is in the queue. -/
def respond (s : Session) (r : Response) : Session :=
  s.offer (.frame r.toJson) .dispatcher

/-! ### Calls -/

/-- Starts a call. On a closed session it fails at once. -/
def call (s : Session) (caller : Caller) (method : String) (params : Json) (goal : Goal) : Session :=
  match s.state with
  | .closed => { s with toLedger := s.refuse }.fail caller
  | .opened =>
    (s.update (s.begin caller goal)).offer (.frame (Request.call method params (requestId s.begun)).toJson)
      (.call s.begun)

/-- Does what a user asks for. What needs no request is settled at once, on a closed session too. -/
def invoke (s : Session) (ticket : Nat) (i : Invocation) : Session :=
  match i.prepare with
  | .request method params goal => s.call (.user ticket) method params goal
  | .settled result => s.note (.finished ticket result)

/-- Gives up what a user waits for. A frame that is in the queue stays there. -/
def abandon (s : Session) (ticket : Nat) : Session :=
  match s.calls.find? (·.caller = .user ticket) with
  | some call => (s.update (s.toLedger.abandon call.number)).withdraw (.call call.number)
  | none => { s with closers := s.closers.filter (· != ticket) }.withdraw (.closer ticket)

/-- Takes a response, and wakes the call that it is for. -/
def complete (s : Session) (r : Response) : Session :=
  s.update (s.toLedger.complete r)

/-- Closes the session, and wakes the calls that fail with it. -/
def close (s : Session) : Session :=
  s.update s.toLedger.close

/-! ### Keepalives -/

/-- Lets a keepalive send its echo. It ends when the session is closed. -/
def fire (s : Session) (k : Nat) : Session :=
  match s.state with
  | .closed => s
  | .opened =>
    { s with keepalives := s.keepalives.modify k fun a => { a with next := a.next + a.period } }.call
      (.keepalive k) "echo" (.arr []) .value

/-- Lets a keepalive wait for its time, or go on at once if that has come. -/
def await (s : Session) (k now : Nat) : Session :=
  match s.keepalives[k]? with
  | none => s
  | some a => if a.next ≤ now then s.fire k else { s with timers := s.timers ++ [k] }

/-- Starts a keepalive; it sends its first echo after one period. -/
def keepAlive (s : Session) (period now : Nat) : Session :=
  { s with keepalives := s.keepalives ++ [Keepalive.mk period (now + period)] }.await s.keepalives.length now

/-- Whether a keepalive waits for a time that has come. -/
def isDue (s : Session) (now k : Nat) : Bool :=
  s.timers.contains k && s.keepalives[k]?.any (·.next ≤ now)

/-- Lets a keepalive go on whose time has come. -/
def tick (s : Session) (k : Nat) : Session :=
  { s with timers := s.timers.filter (· != k) }.fire k

/-- Wakes the keepalives that are due, in the order of their times; of two with the same time, the one that has
    waited longer comes first. -/
def wakeDue (s : Session) (now : Nat) : Session :=
  let time := fun k => (s.keepalives[k]?.map (·.next)).getD 0
  let due := (s.timers.filter (s.isDue now)).mergeSort fun j k => time j ≤ time k
  due.foldl (fun s k => s.wake (.tick k)) s

/-! ### Finishing calls -/

/-- Keeps a schema that has been fetched, under the name it was asked for by. -/
def remember (s : Session) (goal : Goal) (result : Except Error Answer) : Session :=
  match goal, result with
  | .schema db, .ok (.schema schema) => { s with schemas := s.schemas.insert db schema }
  | _, _ => s

/-- Tells the caller the result. A keepalive goes on after an answer, and after an error that the connection
    survives. -/
def report (s : Session) (caller : Caller) (goal : Goal) (now : Nat) (result : Except Error Answer) : Session :=
  match caller, result with
  | .user ticket, _ => (s.remember goal result).note (.finished ticket result)
  | .keepalive k, .ok _ => s.await k now
  | .keepalive k, .error e => if e.isFatal then s else s.await k now

/-- Ends a call that has its reply; one whose frame still waits for room does not look for it yet. -/
def conclude (s : Session) (number now : Nat) : Session :=
  match s.calls.find? fun c => c.number = number && c.queued with
  | some ⟨_, caller, goal, _, some reply⟩ =>
    (s.update (s.finish number reply)).report caller goal now (reply >>= goal.answer)
  | _ => s

/-! ### Who holds on to what -/

/-- The handles, those of running calls and closes included; keepalives hold none. -/
def holders (s : Session) : Nat :=
  s.handles + s.closers.length + (s.calls.filter fun c => c.caller matches .user _).length

/-- Whether nobody is left who could put anything into the queue. -/
def isOrphan (s : Session) : Bool :=
  s.holders = 0 ∧ s.dispatcher = .ended ∧ s.calls.isEmpty

/-- Whether the client has let go of its end of the stream. -/
def isGone (s : Session) : Bool :=
  s.dispatcher = .ended ∧ s.writer matches .ended

/-! ### What can go on -/

/-- Whether there is room for what a sender has waiting. -/
def isInvited (s : Session) (sender : Sender) : Bool :=
  s.invited.any (·.sender = sender)

/-- Whether the dispatcher has something to do: to stop, to read, or to put its response into the queue. -/
def canDispatch (s : Session) : Bool :=
  match s.dispatcher with
  | .running => s.stopping || !s.inbound.waiting.isEmpty || !s.stream.arrived.isEmpty || !s.stream.serverWrites
  | .blocked => s.isInvited .dispatcher
  | .ended => false

/-- Whether the writer has something to do: an item in the queue, room for the frame that it writes, or nobody left to
    wait for. -/
def canWrite (s : Session) : Bool :=
  match s.writer with
  | .ended => false
  | .idle => !s.queue.isEmpty || s.isOrphan
  | .writing _ => !s.stream.serverPresent || 0 < s.stream.room

/-- Whether there is something for the server to read, be it the end of the stream. -/
def canServe (s : Session) : Bool :=
  s.stream.serverPresent && s.stream.reading &&
    (s.stream.taken < s.stream.written.length || (!s.stream.sawEnd && (s.stream.shut || s.isGone)))

/-- Whether the server can go on with what it could not write at once. -/
def canSupply (s : Session) : Bool :=
  !s.stream.unsent.isEmpty && 0 < s.stream.serverRoom && !s.isGone

/-- Whether a task has something to do. A call takes its reply only after its frame has got into the queue. -/
def canGoOn (s : Session) (now : Nat) : Task → Bool
  | .dispatch => s.canDispatch
  | .call number =>
    s.isInvited (.call number) || s.calls.any fun c => c.number = number && c.queued && c.reply.isSome
  | .closer ticket => s.isInvited (.closer ticket)
  | .tick k => s.isDue now k
  | .write => s.canWrite
  | .serve => s.canServe
  | .supply => s.canSupply

end Session
end Ovsdb
