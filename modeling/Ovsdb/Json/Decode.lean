import Ovsdb.Dict
import Ovsdb.Error

/-! Decoding JSON values into typed ones. Numbers, strings and lists take exactly the JSON values of their kind.
    A record is read from an object, by the names of its fields, or from an array, by their order. -/

namespace Ovsdb

/-- A decoder reads a value of a type off a JSON value, or tells what does not match. -/
abbrev Decoder (α : Type) := Json → Except Mismatch α

namespace Decoder
variable {α β κ : Type}

/-! ### Plain values -/

def string : Decoder String
  | .str s => .ok s
  | j => .error (.kind j "a string")

def bool : Decoder Bool
  | .bool b => .ok b
  | j => .error (.kind j "a boolean")

def json : Decoder Json := .ok

/-- Integers must be written as such: a double is refused even if it is whole. -/
def int64 : Decoder Int64
  | .int n =>
    match n.toInt64? with
    | some i => .ok i
    | none => .error (.range n.val "i64")
  | j => .error (.kind j "i64")

def uint64 : Decoder UInt64
  | .int n =>
    match n.toUInt64? with
    | some i => .ok i
    | none => .error (.range n.val "u64")
  | j => .error (.kind j "u64")

/-- Reads a number as a double, an integer as the nearest one. -/
def float : Decoder Float
  | .int n => .ok n.toFloat
  | .float x _ => .ok x
  | j => .error (.kind j "f64")

/-- A text that has to be checked further. -/
def checked (check : String → Except Error α) : Decoder α := fun j => do
  let s ← string j
  (check s).mapError .refused

/-- A decoder with errors of its own, used where any JSON value may stand. -/
def lift (decode : Json → Except Error α) : Decoder α := fun j =>
  (decode j).mapError .refused

/-- An absent value may also be given as `null`. -/
def optional (item : Decoder α) : Decoder (Option α)
  | .null => .ok none
  | j => some <$> item j

def list (item : Decoder α) : Decoder (List α)
  | .arr items => items.mapM item
  | j => .error (.kind j "a sequence")

/-- An object whose member names are data. Members are visited in order, the name before the value. -/
def dict [Named κ] (key : String → Except Mismatch κ) (item : Decoder α) : Decoder (Dict κ α)
  | .obj members => do
    let entries ← members.mapM fun m => do
      let k ← key m.1
      let v ← item m.2
      return (k, v)
    return Dict.ofList entries
  | j => .error (.kind j "a map")

/-! ### Records -/

end Decoder

/-- Where the fields of a record are found: by position and name. `missing` is the error for one that is not
    there. -/
structure FieldSource where
  find : Nat → String → Option Json
  missing : Nat → String → Mismatch

/-- How a record with the fields decoded so far is read. `fault` is the error of the field of a given name on a
    given value. -/
structure Record (α : Type) where
  arity : Nat
  fault : String → Json → Option Mismatch
  build : FieldSource → Except Mismatch α

namespace Record
variable {α β : Type}

def of (make : α) : Record α := ⟨0, fun _ _ => none, fun _ => .ok make⟩

/-- The next field. One that is absent takes the value `absent`, or is an error if there is none. -/
def field (r : Record (α → β)) (label : String) (item : Decoder α) (absent : Option α) : Record β where
  arity := r.arity + 1
  fault n j :=
    if n = label then
      match item j with
      | .ok _ => none
      | .error m => some m
    else r.fault n j
  build source := do
    let make ← r.build source
    match source.find r.arity label, absent with
    | some j, _ => return make (← item j)
    | none, some a => return make a
    | none, none => throw (source.missing r.arity label)

/-- Adds a field that must be there. -/
def required (r : Record (α → β)) (label : String) (item : Decoder α) : Record β :=
  r.field label item none

/-- Adds a field that may be absent, with the value that it has then. -/
def withDefault (r : Record (α → β)) (label : String) (item : Decoder α) (absent : α) : Record β :=
  r.field label item (some absent)

/-- A field that may be left out or `null`. -/
def optional (r : Record (Option α → β)) (label : String) (item : Decoder α) : Record β :=
  r.field label (.optional item) (some none)

/-- The fields of an object go by their names. -/
def members (ms : List (String × Json)) : FieldSource :=
  ⟨fun _ label => ms.lookup label, fun _ label => .missingField label⟩

/-- The fields of an array go by their places. -/
def items (title : String) (arity : Nat) (js : List Json) : FieldSource :=
  ⟨fun i _ => js[i]?, fun i _ => .tooFew i title arity⟩

/-- Reads a record. If several members of an object are wrong, the first of them is reported, and a missing field
    only if there is none; members that are no fields are ignored. -/
def decode (r : Record α) (title : String) : Decoder α
  | .obj ms =>
    match r.build (members ms) with
    | .ok a => .ok a
    | .error m => .error ((ms.findSome? fun e => r.fault e.1 e.2).getD m)
  | .arr js => do
    let a ← r.build (items title r.arity js)
    if r.arity < js.length then throw (.tooMany js.length)
    return a
  | j => .error (.kind j ("struct " ++ title))

end Record
end Ovsdb
