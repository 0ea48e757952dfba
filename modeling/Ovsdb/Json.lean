/-! JSON values as both peers exchange them. An object is the list of its members in the order in which they
    are written; a number is an exact 64-bit integer or a finite double. -/

namespace Ovsdb

/-- An exact integer of a JSON text: one that fits a signed or an unsigned 64-bit word. -/
structure WideInt where
  val : Int
  ge : -0x8000000000000000 ≤ val
  lt : val < 0x10000000000000000
deriving DecidableEq

namespace WideInt

def ofUInt64 (n : UInt64) : WideInt :=
  ⟨n.toNat, by omega, by have := n.toNat_lt; omega⟩

def ofInt64 (i : Int64) : WideInt :=
  ⟨i.toInt, by have := i.le_toInt; omega, by have := i.toInt_lt; omega⟩

/-- The integer of value `n`, if it is one of the representable ones. -/
def ofInt? (n : Int) : Option WideInt :=
  if h : -0x8000000000000000 ≤ n ∧ n < 0x10000000000000000 then some ⟨n, h.1, h.2⟩ else none

/-- A wide integer as an unsigned word, unless it is negative. -/
def toUInt64? (n : WideInt) : Option UInt64 :=
  if 0 ≤ n.val then some (UInt64.ofNat n.val.toNat) else none

/-- A wide integer as a signed word, unless it is too large. -/
def toInt64? (n : WideInt) : Option Int64 :=
  if n.val < 0x8000000000000000 then some (Int64.ofInt n.val) else none

def toFloat (n : WideInt) : Float :=
  Float.ofInt n.val

end WideInt

/-- A JSON value. A number is an integer of 64 bits, or else a finite double; an object keeps the order of its
    members. -/
inductive Json where
  | null
  | bool (b : Bool)
  | int (n : WideInt)
  | float (x : Float) (finite : x.isFinite = true)
  | str (s : String)
  | arr (items : List Json)
  | obj (members : List (String × Json))

instance : Inhabited Json := ⟨.null⟩

namespace Json

def ofUInt64 (n : UInt64) : Json :=
  .int (.ofUInt64 n)

/-- A double as a number; JSON has no numbers that are not finite, and `null` stands for those. -/
def ofFloat (x : Float) : Json :=
  if h : x.isFinite then .float x h else .null

def isNull : Json → Bool
  | .null => true
  | _ => false

def str? : Json → Option String
  | .str s => some s
  | _ => none

def items? : Json → Option (List Json)
  | .arr items => some items
  | _ => none

def uint64? : Json → Option UInt64
  | .int n => n.toUInt64?
  | _ => none

/-- The first member of an object with a name. -/
def member? (name : String) : Json → Option Json
  | .obj members => members.lookup name
  | _ => none

/-- A member that is written only if it has a value. -/
def optionalMember {α : Type} (name : String) (encode : α → Json) : Option α → List (String × Json)
  | some a => [(name, encode a)]
  | none => []

/-- Sets a member: one that is there keeps its place and takes the new value, a new one goes to the end. -/
def put : List (String × Json) → String → Json → List (String × Json)
  | [], name, value => [(name, value)]
  | (n, v) :: rest, name, value =>
    if n = name then (n, value) :: rest else (n, v) :: put rest name value

end Json
end Ovsdb
