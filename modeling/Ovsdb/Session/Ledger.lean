import Ovsdb.Session.Call

/-! The calls of a session: which have begun, which are still there, and which of those a reply may still be for. A
    call registers under its id, waits for the reply that carries the id, and goes away with its result or because
    its user gives it up. -/

namespace Ovsdb

/-- The id that the request of a call carries: calls are numbered as they begin, and ids are 64-bit words. -/
def requestId (number : Nat) : UInt64 :=
  UInt64.ofNat number

/-- Who waits for the result of a call: a user, or one of the session's keepalives. -/
inductive Caller where
  | user (ticket : Nat)
  | keepalive (index : Nat)
deriving DecidableEq

/-- A call that has neither finished nor been abandoned. `queued` says that its frame has got into the queue. -/
structure Call where
  number : Nat
  caller : Caller
  goal : Goal
  queued : Bool
  reply : Option (Except Error Json)

/-- What the writer takes from its queue. A shutdown is acknowledged to the one who asked for it. -/
inductive Outbound where
  | frame (j : Json)
  | shutdown (ticket : Nat)

/-- What happens in a session: calls begin, are given up by their users or end with a result; frames get into the
    queue; messages come in; the session is closed; and users are told results and notifications. -/
inductive Event where
  | called (number : Nat)
  | abandoned (number : Nat)
  | ended (number : Nat) (result : Except Error Json)
  | queued (item : Outbound)
  | received (message : Json)
  | closed
  | finished (ticket : Nat) (result : Except Error Answer)
  | callback (handler : Handler) (notification : Notification)

/-- A session is open until it is closed, and stays closed then. -/
inductive SessionState where
  | opened
  | closed
deriving DecidableEq

/-- How a state is shown. -/
def SessionState.text : SessionState → String
  | .opened => "Open"
  | .closed => "Closed"

/-- The books of a session. `begun` counts the calls so far, `pending` holds the numbers of those that a reply may
    still be for, and `journal` what has happened, in order. -/
structure Ledger where
  state : SessionState
  begun : Nat
  calls : List Call
  pending : List Nat
  journal : List Event

namespace Ledger

/-- The books of a session that is open, and on which nothing has happened yet. -/
def empty : Ledger := ⟨.opened, 0, [], [], []⟩

/-- Writes an event down, behind all others. -/
def note (l : Ledger) (e : Event) : Ledger :=
  { l with journal := l.journal ++ [e] }

/-! ### Replies -/

/-- Fills the reply slots of the calls with these numbers, which wait no more for a reply. -/
def answer (l : Ledger) (numbers : List Nat) (reply : Except Error Json) : Ledger :=
  { l with
    calls := l.calls.map fun c => if c.number ∈ numbers then { c with reply := some reply } else c
    pending := l.pending.filter (· ∉ numbers) }

/-- The calls that a reply with this id is for. -/
def pendingWith (l : Ledger) (id : UInt64) : List Nat :=
  l.pending.filter (requestId · = id)

/-- Takes a response; one to no pending call is ignored. -/
def complete (l : Ledger) (r : Response) : Ledger :=
  match r.id.uint64? with
  | none => l
  | some id => l.answer (l.pendingWith id) r.outcome

/-- Closes the session: every call that still waits for its reply fails. -/
def close (l : Ledger) : Ledger :=
  ({ l with state := .closed }.note .closed).answer l.pending (.error .connectionClosed)

/-- Takes away the reply slot under an id; a call that waits for a reply there fails. -/
def vacate (l : Ledger) (id : UInt64) : Ledger :=
  l.answer (l.pendingWith id) (.error .connectionClosed)

/-! ### Coming and going -/

/-- Gives the next number away, whatever becomes of the call. -/
def count (l : Ledger) : Ledger :=
  { l with begun := l.begun + 1 }.note (.called l.begun)

/-- Begins a call and registers it under its id. -/
def begin (l : Ledger) (caller : Caller) (goal : Goal) : Ledger :=
  let t := l.count.vacate (requestId l.begun)
  { t with calls := t.calls ++ [Call.mk l.begun caller goal false none], pending := t.pending ++ [l.begun] }

/-- Refuses a call on a closed session. It takes a number all the same. -/
def refuse (l : Ledger) : Ledger :=
  l.count.note (.ended l.begun (.error .connectionClosed))

/-- Notes of a call that its frame has got into the queue. -/
def place (l : Ledger) (number : Nat) : Ledger :=
  { l with calls := l.calls.map fun c => if c.number = number then { c with queued := true } else c }

/-- Takes a call away, and the reply slot under its id. -/
def forget (l : Ledger) (number : Nat) : Ledger :=
  { l with calls := l.calls.filter (·.number != number) }.vacate (requestId number)

/-- Takes away a call that its user gives up; a reply to it comes too late. -/
def abandon (l : Ledger) (number : Nat) : Ledger :=
  (l.forget number).note (.abandoned number)

/-- Takes away a call that ends with a result. -/
def finish (l : Ledger) (number : Nat) (result : Except Error Json) : Ledger :=
  (l.forget number).note (.ended number result)

end Ledger
end Ovsdb
