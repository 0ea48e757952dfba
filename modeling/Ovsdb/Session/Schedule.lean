import Ovsdb.Session.Client

/-! Running the tasks of all sessions until none of them can go on, as they do between two actions from outside. Of
    the many orders in which the tasks might run this is one: a task goes on for as long as it has something to do,
    then the one that was woken next has its turn. -/

namespace Ovsdb

namespace Session

/-- The task that has its turn. The server is served when no task of the client's is woken. -/
def nextTask? (s : Session) (now : Nat) : Option Task :=
  s.ready.head? <|> [Task.write, .serve, .supply].find? (s.canGoOn now)

/-- An upper bound on what the tasks have to do: bytes and items that are under way, and calls that wait. -/
def load (s : Session) : Nat :=
  let frames := s.queue ++ (s.invited ++ s.waiting).map (·.item)
  let bytes := frames.foldl (fun n o => n + match o with
    | .frame j => (Framing.frameBytes j).length
    | .shutdown _ => 1) 0
  let rest := match s.writer with
    | .writing rest => rest.length
    | _ => 0
  let received := s.inbound.waiting ++ s.inbound.scanned ++ s.stream.arrived ++ s.stream.unsent
  received.length + bytes + rest + s.calls.length + s.keepalives.length + s.ready.length + 1

end Session

namespace Client

/-- The task that has its turn, of the first session that has one. -/
def nextTask? (c : Client) : Option (Nat × Task) :=
  c.sessions.zipIdx.findSome? fun (s, i) => (s.nextTask? c.now).map fun t => (i, t)

/-- Runs tasks in their turn until none can go on, or the fuel is spent. -/
def settleFor : Nat → Client → Client
  | 0, c => c
  | fuel + 1, c =>
    match c.nextTask? with
    | none => c
    | some (i, t) => settleFor fuel (c.step (.task i t))

/-- Runs all tasks until none can go on. A byte that is under way keeps a few tasks busy at most. -/
def settle (c : Client) : Client :=
  c.settleFor (100 * c.sessions.foldl (fun n s => n + s.load) 1)

end Client
end Ovsdb
