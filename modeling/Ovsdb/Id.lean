import Ovsdb.Json.Decode

/-! Identifiers: the names of databases, tables, columns and locks. -/

namespace Ovsdb

/-- Whether a text is a letter or an underscore followed by letters, digits and underscores, all of them ASCII. -/
def isIdentifier (s : String) : Bool :=
  match s.toList with
  | [] => false
  | c :: rest => (c.isAlpha || c == '_') && rest.all fun c => c.isAlphanum || c == '_'

/-- A name of a table, a column, a lock or a database, which is an identifier. -/
structure Id where
  text : String
  valid : isIdentifier text = true
deriving DecidableEq

namespace Id

instance : Named Id where
  nameOf := Id.text
  nameOf_inj {a b} h := by cases a; cases b; cases h; rfl

def ofString (s : String) : Except Error Id :=
  if h : isIdentifier s then .ok ⟨s, h⟩ else .error (.invalidIdentifier s)

def toJson (i : Id) : Json := .str i.text

def decode : Decoder Id := .checked ofString

/-- Reads an identifier that stands as the name of a member. -/
def ofName (s : String) : Except Mismatch Id :=
  (ofString s).mapError .refused

end Id
end Ovsdb
