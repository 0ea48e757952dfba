import Ovsdb.Monitor

/-! What a server tells its clients unasked: changes of monitored tables, and locks that are granted or stolen. -/

namespace Ovsdb

/-- What a server tells without being asked. -/
inductive Notification where
  | update (value : Json) (updates : TableUpdates)
  | locked (lock : Id)
  | stolen (lock : Id)

namespace Notification

/-- Reads the only parameter of a notification about a lock. -/
def lockOf (method : String) : List Json → Except Error Id
  | [.str lock] => (Id.ofString lock).mapError fun _ => .protocol (.lockName method)
  | [_] => .error (.protocol (.lockName method))
  | _ => .error (.protocol (.parameterCount method))

/-- Reads the parameters of a method; `none` if the method is no notification. Parameters that are not an array
    count as none at all. -/
def ofMethod (method : String) (params : Json) : Except Error (Option Notification) :=
  let params := params.items?.getD []
  if method = "update" then
    match params with
    | [value, updates] =>
      match TableUpdates.decode updates with
      | .ok updates => .ok (some (.update value updates))
      | .error m => .error (.protocol (.tableUpdates m))
    | _ => .error (.protocol (.parameterCount method))
  else if method = "locked" then (fun lock => some (.locked lock)) <$> lockOf method params
  else if method = "stolen" then (fun lock => some (.stolen lock)) <$> lockOf method params
  else .ok none

def method : Notification → String
  | .update .. => "update"
  | .locked _ => "locked"
  | .stolen _ => "stolen"

/-- The method with the parameters, on one line. -/
def line : Notification → String
  | .update value updates => "update " ++ value.text ++ " " ++ updates.toJson.text
  | .locked lock => "locked " ++ lock.text
  | .stolen lock => "stolen " ++ lock.text

end Notification

/-! ### Handlers -/

/-- Receives the notifications of a session. It has a callback for some kinds of notification, which keeps a line
    about each and may fail. -/
structure Handler where
  tag : String
  onUpdate : Bool
  onLocked : Bool
  onStolen : Bool
  fails : Bool
deriving DecidableEq

namespace Handler

/-- The handler that ignores everything. -/
def silent : Handler := ⟨"", false, false, false, false⟩

/-- Whether a handler does something with a notification. -/
def handles (h : Handler) : Notification → Bool
  | .update .. => h.onUpdate
  | .locked _ => h.onLocked
  | .stolen _ => h.onStolen

/-- The line that a handler's callback keeps. -/
def line? (h : Handler) (n : Notification) : Option String :=
  if h.handles n then some (h.tag ++ " " ++ n.line) else none

/-- What the callback fails with, if it does. -/
def failure? (h : Handler) (n : Notification) : Option String :=
  if h.fails then (h.line? n).map ("failed: " ++ ·) else none

end Handler
end Ovsdb
