import Ovsdb.Json.Decode

/-! References to rows: by the UUID of a row, or by the name that an earlier insert of the same transaction gave to
    its new row. On the wire both are pairs of a tag and a string. -/

namespace Ovsdb

/-- The string of a pair `[tag, string]`. -/
def Json.tagged? (tag : String) : Json → Option String
  | .arr [.str t, .str s] => if t = tag then some s else none
  | _ => none

/-- A text of 36 bytes; servers use it for UUIDs but nothing more is checked on the wire. -/
structure Uuid where
  text : String
  size_eq : text.utf8ByteSize = 36
deriving DecidableEq

namespace Uuid

instance : Named Uuid where
  nameOf := Uuid.text
  nameOf_inj {a b} h := by cases a; cases b; cases h; rfl

/-- Reads an id by its length alone, which is counted in bytes. -/
def ofString (s : String) : Except Error Uuid :=
  if h : s.utf8ByteSize = 36 then .ok ⟨s, h⟩ else .error .notUuid

def ofJson (j : Json) : Except Error Uuid :=
  match j.tagged? "uuid" with
  | some s => ofString s
  | none => .error .notUuid

def toJson (u : Uuid) : Json := .arr [.str "uuid", .str u.text]

def decode : Decoder Uuid := .lift ofJson

def isHex (c : Char) : Bool :=
  c.isDigit || ('a' ≤ c && c ≤ 'f') || ('A' ≤ c && c ≤ 'F')

/-- Whether a text is 32 hexadecimal digits in groups of 8, 4, 4, 4 and 12 with hyphens between them. -/
def isHyphenated (s : List Char) : Bool :=
  s.length == 36 &&
    (s.zipIdx.all fun (c, i) => if i = 8 ∨ i = 13 ∨ i = 18 ∨ i = 23 then c == '-' else isHex c)

/-- The lower-case form of a UUID in the usual notation. -/
def canonical (u : Uuid) : Except Error String :=
  if isHyphenated u.text.toList then .ok (String.ofList (u.text.toList.map Char.toLower)) else .error .notUuid

end Uuid

/-- The name of a row that the same transaction inserts. -/
structure NamedUuid where
  text : String
deriving DecidableEq

namespace NamedUuid

def ofJson (j : Json) : Except Error NamedUuid :=
  match j.tagged? "named-uuid" with
  | some s => .ok ⟨s⟩
  | none => .error .notNamedUuid

def toJson (u : NamedUuid) : Json := .arr [.str "named-uuid", .str u.text]

def decode : Decoder NamedUuid := .lift ofJson

/-- The `i`-th of a family of names that can be used for new rows: `row` and 32 hexadecimal digits. -/
def fresh (i : Nat) : NamedUuid :=
  let digits := Text.hexChars (i % Nat.pow 16 32)
  ⟨String.ofList (['r', 'o', 'w'] ++ List.replicate (32 - digits.length) '0' ++ digits)⟩

/-- Whether a name has the form of those that are made up. -/
def isFresh (u : NamedUuid) : Bool :=
  match u.text.toList with
  | 'r' :: 'o' :: 'w' :: digits =>
    digits.length == 32 && digits.all fun c => c.isDigit || ('a' ≤ c && c ≤ 'f')
  | _ => false

end NamedUuid
end Ovsdb
