import Ovsdb.Value.Set
import Ovsdb.Version

/-! Database schemas: tables, columns and their types. A column type, and likewise the type of a key or value, is
    written as the name of an atomic type or as an object with constraints. -/

namespace Ovsdb

/-! ### Types of keys and values -/

/-- The types of values that are neither sets nor maps. -/
inductive AtomicType where
  | integer
  | real
  | boolean
  | string
  | uuid
deriving DecidableEq

namespace AtomicType

def text : AtomicType → String
  | .integer => "integer"
  | .real => "real"
  | .boolean => "boolean"
  | .string => "string"
  | .uuid => "uuid"

def ofString (s : String) : Except Error AtomicType :=
  if s = "integer" then .ok .integer
  else if s = "real" then .ok .real
  else if s = "boolean" then .ok .boolean
  else if s = "string" then .ok .string
  else if s = "uuid" then .ok .uuid
  else .error (.unknownAtomicType s)

def toJson (t : AtomicType) : Json := .str t.text

def decode : Decoder AtomicType := .checked ofString

end AtomicType

/-- How strongly a column refers to rows of another table. -/
inductive RefType where
  | strong
  | weak
deriving DecidableEq

namespace RefType

def text : RefType → String
  | .strong => "strong"
  | .weak => "weak"

def ofString? (s : String) : Option RefType :=
  if s = "strong" then some .strong else if s = "weak" then some .weak else none

def toJson (t : RefType) : Json := .str t.text

/-- The name, or an object that holds nothing but the name with the value `null`. -/
def decode : Decoder RefType
  | .str s =>
    match ofString? s with
    | some t => .ok t
    | none => .error (.unknownVariant s)
  | .obj [(s, j)] =>
    match ofString? s, j with
    | none, _ => .error (.unknownVariant s)
    | some t, .null => .ok t
    | some _, j => .error (.kind j "unit")
  | .obj _ => .error .notSingleMember
  | j => .error (.kind j "string or map")

end RefType

/-- A base type with its constraints. -/
structure ConstrainedType where
  type : AtomicType
  enumeration : Option ValueSet
  minInteger : Option Int64
  maxInteger : Option Int64
  minReal : Option Float
  maxReal : Option Float
  minLength : Option UInt64
  maxLength : Option UInt64
  refTable : Option Id
  refType : Option RefType

namespace ConstrainedType

/-- The members of a constrained type, of which only the type itself must be there. -/
def record : Record ConstrainedType :=
  Record.of ConstrainedType.mk
    |>.required "type" AtomicType.decode
    |>.optional "enum" ValueSet.decode
    |>.optional "minInteger" .int64
    |>.optional "maxInteger" .int64
    |>.optional "minReal" .float
    |>.optional "maxReal" .float
    |>.optional "minLength" .uint64
    |>.optional "maxLength" .uint64
    |>.optional "refTable" Id.decode
    |>.optional "refType" RefType.decode

def decode : Decoder ConstrainedType := record.decode "JsonBaseType"

/-- A constrained type on the wire, without the constraints that are absent. -/
def toJson (t : ConstrainedType) : Json :=
  .obj (("type", t.type.toJson) ::
    (Json.optionalMember "enum" ValueSet.toJson t.enumeration ++
     Json.optionalMember "minInteger" (.int ∘ .ofInt64) t.minInteger ++
     Json.optionalMember "maxInteger" (.int ∘ .ofInt64) t.maxInteger ++
     Json.optionalMember "minReal" .ofFloat t.minReal ++
     Json.optionalMember "maxReal" .ofFloat t.maxReal ++
     Json.optionalMember "minLength" .ofUInt64 t.minLength ++
     Json.optionalMember "maxLength" .ofUInt64 t.maxLength ++
     Json.optionalMember "refTable" Id.toJson t.refTable ++
     Json.optionalMember "refType" RefType.toJson t.refType))

end ConstrainedType

/-- The type of a key or of a value. -/
inductive BaseType where
  | atomic (t : AtomicType)
  | constrained (t : ConstrainedType)

namespace BaseType

/-- Reads a base type: a name, or a record with constraints. -/
def ofJson : Json → Except Error BaseType
  | .str s => .atomic <$> AtomicType.ofString s
  | j => .constrained <$> (ConstrainedType.decode j).mapError .serialization

def decode : Decoder BaseType := .lift ofJson

def toJson : BaseType → Json
  | .atomic t => t.toJson
  | .constrained t => t.toJson

def atomicType : BaseType → AtomicType
  | .atomic t => t
  | .constrained t => t.type

end BaseType

/-! ### Columns -/

/-- An upper bound on the number of elements: an integer, or a keyword that lifts the bound. -/
inductive Bound where
  | count (n : Int64)
  | keyword (s : String)
deriving DecidableEq

namespace Bound

/-- Reads an upper bound. Any text is taken as a keyword. -/
def ofJson : Json → Except Error Bound
  | .str s => .ok (.keyword s)
  | j => .count <$> (Decoder.int64 j).mapError .serialization

def decode : Decoder Bound := .lift ofJson

def toJson : Bound → Json
  | .count n => .int (.ofInt64 n)
  | .keyword s => .str s

def isUnlimited : Bound → Bool
  | .keyword s => s == "unlimited"
  | .count _ => false

end Bound

/-- The object form of a column type. A map column has a type of values besides that of its keys. -/
structure ColumnShape where
  key : BaseType
  value : Option BaseType
  lower : Option UInt64
  upper : Option Bound

namespace ColumnShape

/-- The members of a column type, of which only the key must be there. -/
def record : Record ColumnShape :=
  Record.of ColumnShape.mk
    |>.required "key" BaseType.decode
    |>.optional "value" BaseType.decode
    |>.optional "min" .uint64
    |>.optional "max" Bound.decode

def decode : Decoder ColumnShape := record.decode "JsonColumnType"

/-- A column type on the wire, without the members that are absent. -/
def toJson (t : ColumnShape) : Json :=
  .obj (("key", t.key.toJson) ::
    (Json.optionalMember "value" BaseType.toJson t.value ++
     Json.optionalMember "min" .ofUInt64 t.lower ++
     Json.optionalMember "max" Bound.toJson t.upper))

/-- The least number of elements, one if nothing is said. -/
def min (t : ColumnShape) : UInt64 := t.lower.getD 1

/-- The greatest number of elements, one if nothing is said; `none` if there is no bound. -/
def max (t : ColumnShape) : Option UInt64 :=
  match t.upper with
  | none => some 1
  | some (.count n) => if 0 ≤ n.toInt then some (UInt64.ofNat n.toInt.toNat) else none
  | some (.keyword _) => none

def isMap (t : ColumnShape) : Bool := t.value.isSome

/-- Whether the column holds a set rather than exactly one value. -/
def isSet (t : ColumnShape) : Bool :=
  !t.isMap && (t.min != 1 || t.max != some 1)

end ColumnShape

/-- The type of a column: the name of an atomic type, or a record. -/
inductive ColumnType where
  | atomic (t : AtomicType)
  | shaped (t : ColumnShape)

namespace ColumnType

/-- Reads the type of a column in either form. -/
def ofJson : Json → Except Error ColumnType
  | .str s => .atomic <$> AtomicType.ofString s
  | j => .shaped <$> (ColumnShape.decode j).mapError .serialization

def decode : Decoder ColumnType := .lift ofJson

def toJson : ColumnType → Json
  | .atomic t => t.toJson
  | .shaped t => t.toJson

def isAtomic : ColumnType → Bool
  | .atomic _ => true
  | .shaped _ => false

/-- The type of the keys, or of the values of a column that is no map. -/
def keyType : ColumnType → AtomicType
  | .atomic t => t
  | .shaped t => t.key.atomicType

end ColumnType

/-- A column. Values of an ephemeral one may get lost; those of one that is not mutable stay as inserted. -/
structure ColumnSchema where
  type : ColumnType
  ephemeral : Bool
  isMutable : Bool

namespace ColumnSchema

/-- The members of a column, which is neither ephemeral nor fixed if they do not tell otherwise. -/
def record : Record ColumnSchema :=
  Record.of ColumnSchema.mk
    |>.required "type" ColumnType.decode
    |>.withDefault "ephemeral" .bool false
    |>.withDefault "mutable" .bool true

def decode : Decoder ColumnSchema := record.decode "ColumnSchema"

/-- A column on the wire. Only of a fixed column it is told whether it may change. -/
def toJson (c : ColumnSchema) : Json :=
  .obj ([("type", c.type.toJson), ("ephemeral", .bool c.ephemeral)] ++
    if c.isMutable then [] else [("mutable", .bool false)])

end ColumnSchema

/-! ### Tables and databases -/

/-- A table. Rows of a root table stay when nothing refers to them; an index is a list of columns whose values,
    taken together, are unique. -/
structure TableSchema where
  columns : Dict Id ColumnSchema
  maxRows : Option UInt64
  isRoot : Bool
  indexes : List (List Id)

namespace TableSchema

/-- The members of a table, of which only the columns must be there. -/
def record : Record TableSchema :=
  Record.of TableSchema.mk
    |>.required "columns" (.dict Id.ofName ColumnSchema.decode)
    |>.optional "maxRows" .uint64
    |>.withDefault "isRoot" .bool false
    |>.withDefault "indexes" (.list (.list Id.decode)) []

def decode : Decoder TableSchema := record.decode "TableSchema"

/-- A table on the wire, without a bound that is absent or an empty list of indexes. -/
def toJson (t : TableSchema) : Json :=
  .obj (("columns", .obj (t.columns.entries.map fun e => (e.1.text, e.2.toJson))) ::
    (Json.optionalMember "maxRows" .ofUInt64 t.maxRows ++
     [("isRoot", .bool t.isRoot)] ++
     if t.indexes.isEmpty then []
     else [("indexes", .arr (t.indexes.map fun index => .arr (index.map Id.toJson)))]))

def column? (t : TableSchema) (name : String) : Option ColumnSchema := t.columns.find? name

end TableSchema

/-- The schema of a database. -/
structure DatabaseSchema where
  name : Id
  version : Version
  checksum : Option String
  tables : Dict Id TableSchema

namespace DatabaseSchema

/-- The members of a schema, of which only the checksum may be absent. -/
def record : Record DatabaseSchema :=
  Record.of DatabaseSchema.mk
    |>.required "name" Id.decode
    |>.required "version" Version.decode
    |>.optional "cksum" .string
    |>.required "tables" (.dict Id.ofName TableSchema.decode)

def decode : Decoder DatabaseSchema := record.decode "DatabaseSchema"

/-- A schema on the wire, without a checksum that is absent. -/
def toJson (s : DatabaseSchema) : Json :=
  .obj ([("name", s.name.toJson), ("version", s.version.toJson)] ++
    Json.optionalMember "cksum" .str s.checksum ++
    [("tables", .obj (s.tables.entries.map fun e => (e.1.text, e.2.toJson)))])

def table? (s : DatabaseSchema) (name : String) : Option TableSchema := s.tables.find? name

end DatabaseSchema
end Ovsdb
