import Ovsdb.Condition

/-! The operations of a transaction. Encoding an operation also validates it: one that lacks a required part or has
    an unknown token in it has no wire form. -/

namespace Ovsdb

/-- What the selected rows of a wait operation should become. -/
inductive WaitGoal where
  | equal
  | notEqual
deriving DecidableEq

def WaitGoal.token : WaitGoal → String
  | .equal => "=="
  | .notEqual => "!="

/-- One operation of a transaction. Parts that a valid operation must have may still be missing here. -/
inductive Operation where
  | insert (table : Option Id) (row : Option Row) (uuidName : Option Id)
  | select (table : Option Id) (conditions : List Condition) (columns : List Id)
  | update (table : Option Id) (conditions : List Condition) (row : Row)
  | mutate (table : Option Id) (conditions : List Condition) (mutations : List Mutation)
  | delete (table : Option Id) (conditions : List Condition)
  | wait (table : Option Id) (conditions : List Condition) (columns : List Id) (goal : WaitGoal) (rows : List Row)
      (timeout : Option UInt64)
  | commit (durable : Bool)
  | abort
  | comment (text : String)
  | assert (lock : Option Id)

namespace Operation

/-- The name of the operation on the wire. -/
def kind : Operation → String
  | .insert .. => "insert"
  | .select .. => "select"
  | .update .. => "update"
  | .mutate .. => "mutate"
  | .delete .. => "delete"
  | .wait .. => "wait"
  | .commit .. => "commit"
  | .abort => "abort"
  | .comment .. => "comment"
  | .assert .. => "assert"

/-- A part that must be there. -/
def require {α : Type} (kind field : String) : Option α → Except Error α
  | some a => .ok a
  | none => .error (.missingField kind field)

/-- A list that must not be empty. -/
def requireSome {α : Type} (kind field : String) : List α → Except Error (List α)
  | [] => .error (.missingField kind field)
  | as => .ok as

/-- The encoded conditions, of which there must be one at least. -/
def encodeWhere (kind : String) (conditions : List Condition) : Except Error Json := do
  let conditions ← requireSome kind "where" conditions
  .arr <$> conditions.mapM Condition.toJson

def encodeColumns (columns : List Id) : Json :=
  .arr (columns.map Id.toJson)

/-- The wire form of a valid operation. The parts are checked in the order of the members: the table, the
    conditions, then what belongs to the kind of operation. -/
def toJson (o : Operation) : Except Error Json := do
  let op := ("op", Json.str o.kind)
  match o with
  | .insert table row uuidName =>
    let table ← require o.kind "table" table
    let row ← require o.kind "row" row
    return .obj ([op, ("table", table.toJson), ("row", row.toJson)] ++
      Json.optionalMember "uuid-name" Id.toJson uuidName)
  | .select table conditions columns =>
    let table ← require o.kind "table" table
    let conditions ← encodeWhere o.kind conditions
    return .obj ([op, ("table", table.toJson), ("where", conditions)] ++
      if columns.isEmpty then [] else [("columns", encodeColumns columns)])
  | .update table conditions row =>
    let table ← require o.kind "table" table
    let conditions ← encodeWhere o.kind conditions
    if row.isEmpty then throw (.missingField o.kind "row")
    return .obj [op, ("table", table.toJson), ("where", conditions), ("row", row.toJson)]
  | .mutate table conditions mutations =>
    let table ← require o.kind "table" table
    let conditions ← encodeWhere o.kind conditions
    let mutations ← requireSome o.kind "mutations" mutations
    let mutations ← mutations.mapM Mutation.toJson
    return .obj [op, ("table", table.toJson), ("where", conditions), ("mutations", .arr mutations)]
  | .delete table conditions =>
    let table ← require o.kind "table" table
    let conditions ← encodeWhere o.kind conditions
    return .obj [op, ("table", table.toJson), ("where", conditions)]
  | .wait table conditions columns goal rows timeout =>
    let table ← require o.kind "table" table
    let conditions ← encodeWhere o.kind conditions
    let columns ← requireSome o.kind "columns" columns
    return .obj ([op, ("table", table.toJson), ("where", conditions), ("columns", encodeColumns columns),
      ("until", .str goal.token), ("rows", .arr (rows.map Row.toJson))] ++
      Json.optionalMember "timeout" .ofUInt64 timeout)
  | .commit durable => return .obj [op, ("durable", .bool durable)]
  | .abort => return .obj [op]
  | .comment text =>
    if text.isEmpty then throw (.missingField o.kind "comment")
    return .obj [op, ("comment", .str text)]
  | .assert lock =>
    let lock ← require o.kind "lock" lock
    return .obj [op, ("lock", lock.toJson)]

/-- The wire form as part of a larger document. -/
def serialize (o : Operation) : Except Error Json :=
  o.toJson.mapError fun e => .serialization (.refused e)

/-- The wire form of a whole transaction; it has none if an operation is invalid. -/
def serializeAll (operations : List Operation) : Except Error Json :=
  .arr <$> operations.mapM serialize

end Operation
end Ovsdb
