import Ovsdb.Value

/-! Maps of values: lists of pairs in which an earlier pair hides later ones with an equal key. On the wire a map is
    `["map", [[key, value]...]]`, whatever its size. -/

namespace Ovsdb

/-- A map as the list of its pairs, in the order in which they have been put in. -/
structure ValueMap where
  pairs : List (Value × Value)

namespace ValueMap

/-- The value of the first pair whose key equals `key`. -/
def get? (m : ValueMap) (key : Value) : Option Value :=
  (m.pairs.find? fun p => p.1 == key).map (·.2)

/-- Adds a pair behind all others, whether or not there is one with an equal key. -/
def insert (m : ValueMap) (key value : Value) : ValueMap := ⟨m.pairs ++ [(key, value)]⟩

def ofJson : Json → Except Error ValueMap
  | .arr [.str tag, .arr items] =>
    if tag = "map" then
      match Value.pairsOfJson items with
      | some pairs => .ok ⟨pairs⟩
      | none => .error .notMap
    else .error .notMap
  | _ => .error .notMap

def toJson (m : ValueMap) : Json := (Value.map m.pairs).toJson

def decode : Decoder ValueMap := .lift ofJson

def size (m : ValueMap) : Nat := m.pairs.length

def isEmpty (m : ValueMap) : Bool := m.pairs.isEmpty

/-- Equality of maps, pair by pair in order. -/
def same (m n : ValueMap) : Bool := Value.samePairs m.pairs n.pairs

def reverse (m : ValueMap) : ValueMap := ⟨m.pairs.reverse⟩

end ValueMap

def Value.map? : Value → Option ValueMap
  | .map pairs => some ⟨pairs⟩
  | _ => none

end Ovsdb
