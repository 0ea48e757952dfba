import Ovsdb.Id
import Ovsdb.Uuid

/-! Column values and their wire form: atoms, and sets and maps of values as tagged arrays. A set of exactly one
    element is written as that element. -/

namespace Ovsdb

/-- A column value. Sets and maps keep the order of their elements and may hold equal ones. -/
inductive Value where
  | string (s : String)
  | integer (i : Int64)
  | real (x : Float)
  | boolean (b : Bool)
  | uuid (u : Uuid)
  | namedUuid (u : NamedUuid)
  | set (elements : List Value)
  | map (pairs : List (Value × Value))

instance : Inhabited Value := ⟨.set []⟩

namespace Value

/-! ### Decoding -/

/-- Integers that fit a signed 64-bit word are integers, larger ones are reals. -/
def ofInt (n : WideInt) : Value :=
  match n.toInt64? with
  | some i => .integer i
  | none => .real n.toFloat

mutual

/-- Reads a wire value. What is reported about a wrong one depends on its outermost shape only. -/
def ofJson : Json → Except Error Value
  | .str s => .ok (.string s)
  | .bool b => .ok (.boolean b)
  | .int n => .ok (ofInt n)
  | .float x _ => .ok (.real x)
  | .arr [.str tag, .arr items] =>
    if tag = "set" then
      match elementsOfJson items with
      | some elements => .ok (.set elements)
      | none => .error .notSet
    else if tag = "map" then
      match pairsOfJson items with
      | some pairs => .ok (.map pairs)
      | none => .error .notMap
    else if tag = "uuid" then .error .notUuid
    else if tag = "named-uuid" then .error .notNamedUuid
    else .error (.malformed (.untaggedArray (.arr [.str tag, .arr items])))
  | .arr [.str tag, body] =>
    if tag = "set" then .error .notSet
    else if tag = "map" then .error .notMap
    else if tag = "uuid" then Value.uuid <$> Uuid.ofJson (.arr [.str tag, body])
    else if tag = "named-uuid" then Value.namedUuid <$> NamedUuid.ofJson (.arr [.str tag, body])
    else .error (.malformed (.untaggedArray (.arr [.str tag, body])))
  | .arr items => .error (.malformed (.untaggedArray (.arr items)))
  | j => .error (.malformed (.notValue j))

/-- Reads the elements of a set, if all of them are values. -/
def elementsOfJson : List Json → Option (List Value)
  | [] => some []
  | j :: rest =>
    match ofJson j, elementsOfJson rest with
    | .ok v, some vs => some (v :: vs)
    | _, _ => none

/-- Reads the pairs of a map, if all of them are pairs of values. -/
def pairsOfJson : List Json → Option (List (Value × Value))
  | [] => some []
  | .arr [k, v] :: rest =>
    match ofJson k, ofJson v, pairsOfJson rest with
    | .ok k, .ok v, some pairs => some ((k, v) :: pairs)
    | _, _, _ => none
  | _ :: _ => none

end

/-! ### Encoding -/

mutual

/-- A value on the wire. A set of one element is written as that element. -/
def toJson : Value → Json
  | .string s => .str s
  | .integer i => .int (.ofInt64 i)
  | .real x => .ofFloat x
  | .boolean b => .bool b
  | .uuid u => u.toJson
  | .namedUuid u => u.toJson
  | .set [v] => toJson v
  | .set vs => .arr [.str "set", .arr (elementsToJson vs)]
  | .map pairs => .arr [.str "map", .arr (pairsToJson pairs)]

def elementsToJson : List Value → List Json
  | [] => []
  | v :: rest => toJson v :: elementsToJson rest

def pairsToJson : List (Value × Value) → List Json
  | [] => []
  | (k, v) :: rest => .arr [toJson k, toJson v] :: pairsToJson rest

end

/-! ### Equality -/

mutual

/-- Structural equality. Reals are compared as numbers: not-a-number equals nothing, the two zeros are equal. -/
def same : Value → Value → Bool
  | .string a, .string b => a == b
  | .integer a, .integer b => a == b
  | .real a, .real b => a == b
  | .boolean a, .boolean b => a == b
  | .uuid a, .uuid b => a == b
  | .namedUuid a, .namedUuid b => a == b
  | .set a, .set b => sameElements a b
  | .map a, .map b => samePairs a b
  | _, _ => false

def sameElements : List Value → List Value → Bool
  | [], [] => true
  | a :: as, b :: bs => same a b && sameElements as bs
  | _, _ => false

def samePairs : List (Value × Value) → List (Value × Value) → Bool
  | [], [] => true
  | (k, v) :: as, (l, w) :: bs => same k l && same v w && samePairs as bs
  | _, _ => false

end

instance : BEq Value := ⟨same⟩

/-! ### Views -/

def str? : Value → Option String
  | .string s => some s
  | _ => none

def int? : Value → Option Int64
  | .integer i => some i
  | _ => none

/-- The number that a real or an integer is, the nearest double for an integer. -/
def float? : Value → Option Float
  | .real x => some x
  | .integer i => some (Float.ofInt i.toInt)
  | _ => none

def bool? : Value → Option Bool
  | .boolean b => some b
  | _ => none

def uuid? : Value → Option Uuid
  | .uuid u => some u
  | _ => none

def decode : Decoder Value := .lift ofJson

end Value

/-! ### Rows -/

/-- The contents of a row, by the names of its columns. -/
abbrev Row := Dict Id Value

namespace Row

def decode : Decoder Row := .dict Id.ofName Value.decode

def toJson (r : Row) : Json :=
  .obj (r.entries.map fun e => (e.1.text, e.2.toJson))

end Row
end Ovsdb
