import Ovsdb.Value

/-! Sets of values and sets of strings. On the wire a set of one element is the element itself, every other set
    is `["set", [...]]`. -/

namespace Ovsdb

/-- A set as the list of its elements, in order. -/
structure ValueSet where
  elements : List Value

namespace ValueSet

/-- Reads a set: the tagged form, or a single value other than a set or a map. -/
def ofJson : Json → Except Error ValueSet
  | .arr [.str tag, body] =>
    if tag = "uuid" ∨ tag = "named-uuid" then (fun v => ⟨[v]⟩) <$> Value.ofJson (.arr [.str tag, body])
    else if tag = "set" then
      match body with
      | .arr items =>
        match Value.elementsOfJson items with
        | some elements => .ok ⟨elements⟩
        | none => .error .notSet
      | _ => .error .notSet
    else .error .notSet
  | .arr _ => .error .notSet
  | j =>
    match Value.ofJson j with
    | .ok v => .ok ⟨[v]⟩
    | .error _ => .error .notSet

def toJson (s : ValueSet) : Json := (Value.set s.elements).toJson

def decode : Decoder ValueSet := .lift ofJson

def size (s : ValueSet) : Nat := s.elements.length

def isEmpty (s : ValueSet) : Bool := s.elements.isEmpty

def same (s t : ValueSet) : Bool := Value.sameElements s.elements t.elements

def contains (s : ValueSet) (v : Value) : Bool := s.elements.any (· == v)

/-- Adds an element at the end, whether or not it is there already. -/
def push (s : ValueSet) (v : Value) : ValueSet := ⟨s.elements ++ [v]⟩

def pop (s : ValueSet) : Option Value × ValueSet := (s.elements.getLast?, ⟨s.elements.dropLast⟩)

def reverse (s : ValueSet) : ValueSet := ⟨s.elements.reverse⟩

end ValueSet

/-- A value seen as a set: one that is no set is its own only element. -/
def Value.toSet : Value → ValueSet
  | .set elements => ⟨elements⟩
  | v => ⟨[v]⟩

/-- A set of strings, as the list of them. -/
structure StringSet where
  elements : List String
deriving DecidableEq

namespace StringSet

/-- Reads a string, or an array of strings that is tagged as a set. -/
def ofJson : Json → Except Error StringSet
  | .str s => .ok ⟨[s]⟩
  | .arr [.str tag, .arr items] =>
    if tag = "set" then
      match items.mapM Json.str? with
      | some elements => .ok ⟨elements⟩
      | none => .error .notStringSet
    else .error .notSet
  | .arr _ => .error .notSet
  | _ => .error .notStringSet

/-- A set of strings on the wire. One string is written as itself. -/
def toJson : StringSet → Json
  | ⟨[s]⟩ => .str s
  | ⟨elements⟩ => .arr [.str "set", .arr (elements.map .str)]

def decode : Decoder StringSet := .lift ofJson

def toSet (s : StringSet) : ValueSet := ⟨s.elements.map .string⟩

end StringSet
end Ovsdb
