import Ovsdb.Json.Decode

/-! The messages between client and server. Both sides send requests; a request without an id is a notification. -/

namespace Ovsdb

/-- A request, or a notification if its id is null. -/
structure Request where
  method : String
  params : Json
  id : Json

namespace Request

/-- The members of a request, of which only the method must be there. -/
def record : Record Request :=
  Record.of Request.mk
    |>.required "method" .string
    |>.withDefault "params" .json .null
    |>.withDefault "id" .json .null

def decode : Decoder Request := record.decode "Request"

def toJson (r : Request) : Json :=
  .obj [("method", .str r.method), ("params", r.params), ("id", r.id)]

def call (method : String) (params : Json) (id : UInt64) : Request := ⟨method, params, .ofUInt64 id⟩

/-- A request that nobody answers. -/
def notification (method : String) (params : Json) : Request := ⟨method, params, .null⟩

def isNotification (r : Request) : Bool := r.id.isNull

end Request

/-- A response to the request with the same id. -/
structure Response where
  result : Json
  error : Json
  id : Json

namespace Response

/-- The members of a response, of which only the id must be there. -/
def record : Record Response :=
  Record.of Response.mk
    |>.withDefault "result" .json .null
    |>.withDefault "error" .json .null
    |>.required "id" .json

def decode : Decoder Response := record.decode "Response"

def toJson (r : Response) : Json :=
  .obj [("result", r.result), ("error", r.error), ("id", r.id)]

def success (id result : Json) : Response := ⟨result, .null, id⟩

def failure (id : Json) (error : String) : Response := ⟨.null, .str error, id⟩

/-- The result, or the error if there is one. -/
def outcome (r : Response) : Except Error Json :=
  if r.error.isNull then .ok r.result else .error (.rpc r.error)

end Response

/-- What a peer can send. -/
inductive Message where
  | request (r : Request)
  | response (r : Response)

namespace Message

/-- A request is told by its method, a response by its result or error. -/
def ofJson (j : Json) : Except Error Message :=
  match j with
  | .obj _ =>
    if (j.member? "method").isSome then
      (Message.request <$> Request.decode j).mapError fun m => .protocol (.invalidRequest m)
    else if (j.member? "result").isSome ∨ (j.member? "error").isSome then
      (Message.response <$> Response.decode j).mapError fun m => .protocol (.invalidResponse m)
    else .error (.protocol (.unrecognized j))
  | j => .error (.protocol (.notObject j))

end Message
end Ovsdb
