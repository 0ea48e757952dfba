import Ovsdb.Json.Decode

/-! Schema versions of the form `<major>.<minor>.<patch>`. -/

namespace Ovsdb

/-- Whether a text is three runs of digits with single dots between them. -/
def isVersion (s : String) : Bool :=
  match s.toList.splitOn '.' with
  | [major, minor, patch] => Text.isDigits major && Text.isDigits minor && Text.isDigits patch
  | _ => false

/-- A version of a schema: three runs of digits, with a point between each two. -/
structure Version where
  text : String
  valid : isVersion text = true
deriving DecidableEq

namespace Version

def ofString (s : String) : Except Error Version :=
  if h : isVersion s then .ok ⟨s, h⟩ else .error (.invalidVersion s)

/-- The number that a run of digits denotes, or the largest 64-bit word if it cannot be read as one. -/
def component (digits : List Char) : Nat :=
  (Text.parseWord digits).getD (UInt64.size - 1)

/-- The numbers that a version consists of. -/
def parts (v : Version) : List Nat :=
  (v.text.toList.splitOn '.').map component

def toJson (v : Version) : Json := .str v.text

def decode : Decoder Version := .checked ofString

end Version
end Ovsdb
