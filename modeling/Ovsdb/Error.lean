import Ovsdb.Json.Text
import Ovsdb.Text.Located
import Ovsdb.Text.Quoted

/-! What can go wrong: wire values that are malformed, operations that are invalid, peers that break the protocol,
    connections that fail. Errors are causes; their wording is `Error.message`. -/

namespace Ovsdb

/-- Why an address or a setting cannot be used, or a server cannot be reached. -/
inductive ConnectionFault where
  | invalidAddress (address : String)
  | unknownProtocol (protocol : String)
  | invalidSetting (name value : String)
  | unreachable (address reason : String)
  | other (text : String)

/-- How a JSON value fails to be an OVSDB value. -/
inductive Malformation where
  | untaggedArray (found : Json)
  | notValue (found : Json)
  | notTriple (found : Json)
  | other (text : String)

mutual

/-- How a JSON value differs from the record, number or name that should stand there. -/
inductive Mismatch where
  | notJson
  | kind (found : Json) (wanted : String)
  | range (found : Int) (wanted : String)
  | missingField (field : String)
  | tooFew (length : Nat) (record : String) (fields : Nat)
  | tooMany (length : Nat)
  | notSingleMember
  | unknownVariant (found : String)
  | refused (cause : Error)
  | other (report : Text.Located)

/-- How a peer breaks the protocol. -/
inductive Violation where
  | strayByte (byte : UInt8)
  | cutOff
  | notObject (message : Json)
  | invalidRequest (cause : Mismatch)
  | invalidResponse (cause : Mismatch)
  | unrecognized (message : Json)
  | parameterCount (method : String)
  | lockName (method : String)
  | tableUpdates (cause : Mismatch)
  | notReplyArray (reply : Json)
  | operationError (element : Json) (cause : Mismatch)
  | replyLength (elements operations : Nat)
  | unexpectedReply (method : String) (cause : Mismatch)
  | other (text : String)

/-- Whatever can go wrong, with what is known of the cause. -/
inductive Error where
  | notSet
  | notStringSet
  | notMap
  | notUuid
  | notNamedUuid
  | invalidIdentifier (text : String)
  | invalidVersion (text : String)
  | unknownAtomicType (text : String)
  | malformed (cause : Malformation)
  | missingField (operation field : String)
  | invalidCondition (token : String)
  | invalidMutation (token : String)
  | protocol (cause : Violation)
  | rpc (error : Json)
  | connection (cause : ConnectionFault)
  | connectionClosed
  | io (text : String)
  | serialization (cause : Mismatch)

end

namespace Error

/-! ### Classes of errors -/

/-- Whether a wire value could not be decoded. -/
def isMalformedWire : Error → Bool
  | .notSet | .notStringSet | .notMap | .notUuid | .notNamedUuid => true
  | .invalidIdentifier _ | .invalidVersion _ | .unknownAtomicType _ | .malformed _ => true
  | _ => false

/-- Whether an operation was rejected before it was sent. -/
def isValidation : Error → Bool
  | .missingField .. | .invalidCondition _ | .invalidMutation _ => true
  | _ => false

/-- Whether the connection cannot be used any more. -/
def isFatal : Error → Bool
  | .connection _ | .connectionClosed | .io _ => true
  | _ => false

end Error

/-! ### Wording -/

/-- A value's kind, with the value if it is a single token. -/
def Json.kindText : Json → String
  | .null => "null"
  | .bool b => "boolean `" ++ (Json.bool b).text ++ "`"
  | .int n => "integer `" ++ (Json.int n).text ++ "`"
  | .float x h => "floating point `" ++ (Json.float x h).text ++ "`"
  | .str s => "string " ++ Text.quoted s
  | .arr _ => "sequence"
  | .obj _ => "map"

def ConnectionFault.message : ConnectionFault → String
  | .invalidAddress address => "invalid address: " ++ Text.quoted address
  | .unknownProtocol protocol => "unknown protocol: " ++ Text.quoted protocol
  | .invalidSetting name value => "invalid " ++ name ++ ": " ++ Text.quoted value
  | .unreachable address reason => "failed to connect to " ++ address ++ ": " ++ reason
  | .other text => text

def Malformation.message : Malformation → String
  | .untaggedArray found => "untagged array " ++ found.text
  | .notValue found => "not an OVSDB value: " ++ found.text
  | .notTriple found => "expected [column, token, value], got " ++ found.text
  | .other text => text

mutual

def Mismatch.message : Mismatch → String
  | .notJson => "not a JSON text"
  | .kind found wanted => "invalid type: " ++ found.kindText ++ ", expected " ++ wanted
  | .range found wanted =>
    "invalid value: integer `" ++ String.ofList (Decimal.intChars found) ++ "`, expected " ++ wanted
  | .missingField field => "missing field `" ++ field ++ "`"
  | .tooFew length record fields =>
    "invalid length " ++ Text.ofNat length ++ ", expected struct " ++ record ++ " with " ++ Text.ofNat fields ++
      (if fields = 1 then " element" else " elements")
  | .tooMany length => "invalid length " ++ Text.ofNat length ++ ", expected fewer elements in array"
  | .notSingleMember => "invalid value: map, expected map with a single key"
  | .unknownVariant found => "unknown variant `" ++ found ++ "`, expected `strong` or `weak`"
  | .refused cause => cause.message
  | .other report => report.message

def Violation.message : Violation → String
  | .strayByte byte => "unexpected byte " ++ Text.quotedChar (Char.ofUInt8 byte) ++ " between JSON texts"
  | .cutOff => "stream ended inside a JSON text"
  | .notObject message => "message is not an object: " ++ message.text
  | .invalidRequest cause => "invalid request: " ++ cause.message
  | .invalidResponse cause => "invalid response: " ++ cause.message
  | .unrecognized message => "unrecognized message: " ++ message.text
  | .parameterCount method => "invalid " ++ method ++ " notification: wrong number of parameters"
  | .lockName method => "invalid " ++ method ++ " notification: wrong lock name"
  | .tableUpdates cause => "failed to decode <table-updates>: " ++ cause.message
  | .notReplyArray reply => "transact reply is not an array: " ++ reply.text
  | .operationError element cause => "malformed operation error " ++ element.text ++ ": " ++ cause.message
  | .replyLength elements operations =>
    "transact reply has " ++ Text.ofNat elements ++ " elements for " ++ Text.ofNat operations ++ " operations"
  | .unexpectedReply method cause => "unexpected " ++ method ++ " reply: " ++ cause.message
  | .other text => text

def Error.message : Error → String
  | .notSet => "Not an OVSDB set"
  | .notStringSet => "Not a StringSet"
  | .notMap => "Not an OVSDB map"
  | .notUuid => "Not an OVSDB uuid"
  | .notNamedUuid => "Not an OVSDB named-uuid"
  | .invalidIdentifier text => "Invalid identifier: " ++ Text.quoted text
  | .invalidVersion text => "Invalid version: " ++ Text.quoted text
  | .unknownAtomicType text => "Unknown atomic type: " ++ Text.quoted text
  | .malformed cause => "Malformed value: " ++ cause.message
  | .missingField operation field =>
    operation ++ " operation is missing required field " ++ Text.quoted field
  | .invalidCondition token => "Invalid condition function: " ++ Text.quoted token
  | .invalidMutation token => "Invalid mutation mutator: " ++ Text.quoted token
  | .protocol cause => "Protocol violation: " ++ cause.message
  | .rpc error => "RPC error: " ++ error.text
  | .connection cause => "Connection error: " ++ cause.message
  | .connectionClosed => "Connection closed"
  | .io text => "IO error: " ++ text
  | .serialization cause => "Serialization error: " ++ cause.message

end

end Ovsdb
