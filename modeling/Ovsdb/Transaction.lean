import Ovsdb.Value

/-! Replies to transactions: one element for each operation, and possibly one more for a failure of the whole. -/

namespace Ovsdb

/-- An error that the server tells. -/
structure RemoteError where
  error : String
  details : Option String
deriving DecidableEq

namespace RemoteError

/-- The members of an error, of which the details may be absent. -/
def record : Record RemoteError :=
  Record.of RemoteError.mk
    |>.required "error" .string
    |>.optional "details" .string

def decode : Decoder RemoteError := record.decode "RemoteError"

/-- An error on the wire, without details that are absent. -/
def toJson (e : RemoteError) : Json :=
  .obj (("error", .str e.error) :: Json.optionalMember "details" .str e.details)

/-- An error in one line, with its details in brackets. -/
def message (e : RemoteError) : String :=
  match e.details with
  | some details => e.error ++ "(" ++ details ++ ")"
  | none => e.error

end RemoteError

/-- What became of one operation. An operation after a failed one is not attempted. -/
inductive Outcome where
  | success (payload : Json)
  | failure (error : RemoteError)
  | notAttempted

namespace Outcome

/-- Reads what has become of an operation: nothing, an error, or any other value as a success. -/
def ofJson (j : Json) : Except Error Outcome :=
  match j with
  | .null => .ok .notAttempted
  | j =>
    if (j.member? "error").isSome then
      match RemoteError.decode j with
      | .ok e => .ok (.failure e)
      | .error m => .error (.protocol (.operationError j m))
    else .ok (.success j)

def isSuccess : Outcome → Bool
  | .success _ => true
  | _ => false

def error? : Outcome → Option RemoteError
  | .failure e => some e
  | _ => none

def payload? : Outcome → Option Json
  | .success payload => some payload
  | _ => none

/-- Reads the result of an operation that has been done. -/
def parse {α : Type} (decode : Decoder α) (o : Outcome) : Except Error (Option α) :=
  match o with
  | .success payload => (some <$> decode payload).mapError .serialization
  | _ => .ok none

end Outcome

/-! ### Payloads -/

def insertResult : Decoder Uuid :=
  Record.decode (.required (.of id) "uuid" Uuid.decode) "InsertResult"

def selectResult : Decoder (List Row) :=
  Record.decode (.required (.of id) "rows" (.list Row.decode)) "SelectResult"

/-- The number of rows that an update, mutate or delete touched. -/
def countResult : Decoder UInt64 :=
  Record.decode (.required (.of id) "count" .uint64) "CountResult"

/-! ### Replies -/

/-- The outcomes of a transaction's operations, and all errors among the elements of the reply. -/
structure TransactResult where
  outcomes : List Outcome
  errors : List RemoteError

namespace TransactResult

def empty : TransactResult := ⟨[], []⟩

/-- What follows the elements of the operations: nothing, or one error of the transaction as a whole. -/
def trailing (reply : List Json) (operations : Nat) : Except Error (List RemoteError) :=
  match reply.drop operations with
  | [] => if reply.length = operations then .ok [] else .error (.protocol (.replyLength reply.length operations))
  | [j] => do
    match ← Outcome.ofJson j with
    | .failure e => return [e]
    | _ => throw (.protocol (.replyLength reply.length operations))
  | _ => .error (.protocol (.replyLength reply.length operations))

/-- Decodes the reply to a transaction of so many operations. -/
def ofReply (reply : Json) (operations : Nat) : Except Error TransactResult :=
  match reply with
  | .arr elements => do
    let outcomes ← (elements.take operations).mapM Outcome.ofJson
    let rest ← trailing elements operations
    return ⟨outcomes, outcomes.filterMap Outcome.error? ++ rest⟩
  | j => .error (.protocol (.notReplyArray j))

/-- Whether a transaction has no errors. -/
def isSuccess (r : TransactResult) : Bool := r.errors.isEmpty

def errorText (errors : List RemoteError) : String :=
  ", ".intercalate (errors.map RemoteError.message)

/-- The payloads of all operations, or the errors if there are any. -/
def payloads (r : TransactResult) : Except (List RemoteError) (List Json) :=
  if r.errors.isEmpty then .ok (r.outcomes.filterMap Outcome.payload?) else .error r.errors

end TransactResult
end Ovsdb
