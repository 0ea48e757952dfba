import Ovsdb.Value

/-! Monitoring: which changes of which columns a client asks for, and the updates that it then receives. -/

namespace Ovsdb

/-- The kinds of change that are reported. -/
structure MonitorSelect where
  initial : Bool
  insert : Bool
  delete : Bool
  modify : Bool
deriving DecidableEq

namespace MonitorSelect

def all : MonitorSelect := ⟨true, true, true, true⟩

/-- Everything but the contents at the start. -/
def changesOnly : MonitorSelect := { all with initial := false }

/-- The members of a selection; what is not there is selected. -/
def record : Record MonitorSelect :=
  Record.of MonitorSelect.mk
    |>.withDefault "initial" .bool true
    |>.withDefault "insert" .bool true
    |>.withDefault "delete" .bool true
    |>.withDefault "modify" .bool true

def decode : Decoder MonitorSelect := record.decode "MonitorSelect"

def toJson (s : MonitorSelect) : Json :=
  .obj [("initial", .bool s.initial), ("insert", .bool s.insert), ("delete", .bool s.delete),
    ("modify", .bool s.modify)]

end MonitorSelect

/-- What to monitor of a table: the given columns, or all if none are given. -/
structure MonitorRequest where
  columns : List Id
  select : Option MonitorSelect

namespace MonitorRequest

/-- The members of a request for one table, each of which may be absent. -/
def record : Record MonitorRequest :=
  Record.of MonitorRequest.mk
    |>.withDefault "columns" (.list Id.decode) []
    |>.optional "select" MonitorSelect.decode

def decode : Decoder MonitorRequest := record.decode "MonitorRequest"

/-- A request for one table on the wire, without an empty list of columns or an absent selection. -/
def toJson (r : MonitorRequest) : Json :=
  .obj ((if r.columns.isEmpty then [] else [("columns", .arr (r.columns.map Id.toJson))]) ++
    Json.optionalMember "select" MonitorSelect.toJson r.select)

end MonitorRequest

/-- The request for each table. -/
abbrev MonitorRequests := Dict Id MonitorRequest

namespace MonitorRequests

def decode : Decoder MonitorRequests := .dict Id.ofName MonitorRequest.decode

def toJson (r : MonitorRequests) : Json :=
  .obj (r.entries.map fun e => (e.1.text, e.2.toJson))

end MonitorRequests

/-! ### Updates -/

/-- What may happen to a row. -/
inductive RowChange where
  | insert
  | delete
  | modify
deriving DecidableEq

/-- The contents of a row before and after a change. -/
structure RowUpdate where
  old : Option Row
  new : Option Row

namespace RowUpdate

/-- The members of an update to a row, each of which may be absent. -/
def record : Record RowUpdate :=
  Record.of RowUpdate.mk
    |>.optional "old" Row.decode
    |>.optional "new" Row.decode

def decode : Decoder RowUpdate := record.decode "RowUpdate"

/-- An update to a row on the wire. A row that is absent is left out; an empty one is not. -/
def toJson (u : RowUpdate) : Json :=
  .obj (Json.optionalMember "old" Row.toJson u.old ++ Json.optionalMember "new" Row.toJson u.new)

/-- What has happened to a row, by which of its old and new contents are there. -/
def change? (u : RowUpdate) : Option RowChange :=
  match u.old, u.new with
  | none, some _ => some .insert
  | some _, none => some .delete
  | some _, some _ => some .modify
  | none, none => none

end RowUpdate

/-- The changed rows of a table. Here the UUIDs are plain member names. -/
abbrev TableUpdate := Dict Uuid RowUpdate

namespace TableUpdate

/-- Reads all rows before it checks their UUIDs. -/
def decode : Decoder TableUpdate := fun j => do
  let rows ← Decoder.dict (κ := String) .ok RowUpdate.decode j
  let entries ← rows.entries.mapM fun e => do
    let uuid ← (Uuid.ofString e.1).mapError .refused
    return (uuid, e.2)
  return Dict.ofList entries

def toJson (u : TableUpdate) : Json :=
  .obj (u.entries.map fun e => (e.1.text, e.2.toJson))

end TableUpdate

/-- The changes of each table. -/
abbrev TableUpdates := Dict Id TableUpdate

namespace TableUpdates

def decode : Decoder TableUpdates := .dict Id.ofName TableUpdate.decode

def toJson (u : TableUpdates) : Json :=
  .obj (u.entries.map fun e => (e.1.text, e.2.toJson))

end TableUpdates
end Ovsdb
