import Ovsdb.Message
import Ovsdb.Notification
import Ovsdb.Operation
import Ovsdb.Schema
import Ovsdb.Transaction

/-! The methods that a client calls on a server, and what their replies mean. -/

namespace Ovsdb

/-- A method with its arguments. `raw` is any other method of a server's. -/
inductive Invocation where
  | listDbs
  | getSchema (db : String)
  | transact (db : String) (operations : List Operation)
  | monitor (db : String) (value : Json) (requests : MonitorRequests)
  | monitorCancel (value : Json)
  | lock (name : Id)
  | steal (name : Id)
  | unlock (name : Id)
  | echo (params : Json)
  | raw (method : String) (params : Json)

/-- What a successful call gives. -/
inductive Answer where
  | names (dbs : List Id)
  | schema (s : DatabaseSchema)
  | transacted (r : TransactResult)
  | updates (u : TableUpdates)
  | granted (b : Bool)
  | value (j : Json)
  | nothing

/-- How the result of a call is to be read. -/
inductive Goal where
  | names
  | schema (db : String)
  | transaction (operations : Nat)
  | updates
  | grant
  | value
  | nothing

namespace Goal

/-- Reads a result that must have a certain form. -/
def typed {α : Type} (method : String) (decode : Decoder α) (result : Json) : Except Error α :=
  (decode result).mapError fun m => .protocol (.unexpectedReply method m)

/-- Whether a lock has been granted at once. -/
def lockReply : Decoder Bool :=
  Record.decode (.required (.of id) "locked" .bool) "LockReply"

/-- The answer that a result means. -/
def answer : Goal → Json → Except Error Answer
  | .names, j => .names <$> typed "list_dbs" (.list Id.decode) j
  | .schema _, j => .schema <$> typed "get_schema" DatabaseSchema.decode j
  | .transaction n, j => .transacted <$> TransactResult.ofReply j n
  | .updates, j => .updates <$> typed "monitor" TableUpdates.decode j
  | .grant, j => .granted <$> typed "lock" lockReply j
  | .value, j => .ok (.value j)
  | .nothing, _ => .ok .nothing

end Goal

/-- What an invocation comes to: a request to send, or a result that needs none. -/
inductive Prepared where
  | request (method : String) (params : Json) (goal : Goal)
  | settled (result : Except Error Answer)

namespace Invocation

/-- Encodes an invocation. A transaction without operations has an empty result, and one with an invalid operation
    fails; neither is sent. -/
def prepare : Invocation → Prepared
  | .listDbs => .request "list_dbs" (.arr []) .names
  | .getSchema db => .request "get_schema" (.arr [.str db]) (.schema db)
  | .transact _ [] => .settled (.ok (.transacted .empty))
  | .transact db operations@(_ :: _) =>
    match operations.mapM Operation.toJson with
    | .ok encoded => .request "transact" (.arr (.str db :: encoded)) (.transaction operations.length)
    | .error e => .settled (.error e)
  | .monitor db value requests => .request "monitor" (.arr [.str db, value, requests.toJson]) .updates
  | .monitorCancel value => .request "monitor_cancel" (.arr [value]) .nothing
  | .lock name => .request "lock" (.arr [name.toJson]) .grant
  | .steal name => .request "steal" (.arr [name.toJson]) .nothing
  | .unlock name => .request "unlock" (.arr [name.toJson]) .nothing
  | .echo params => .request "echo" params .value
  | .raw method params => .request method params .value

end Invocation
end Ovsdb
