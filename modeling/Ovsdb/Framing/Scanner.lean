/-! Where a JSON text ends in a stream of bytes. Texts follow one another without a delimiter; the scanner finds
    their ends by counting brackets outside string literals, without parsing, and remembers where it stands, so a
    text may arrive in any number of pieces. -/

namespace Ovsdb.Framing

/-- Where the scan of the current text stands. `escaped` holds after a backslash that itself is not escaped. -/
structure Scanner where
  depth : Nat
  inString : Bool
  escaped : Bool
deriving DecidableEq

/-- What one byte does: it belongs to the text, completes it, or stands between two texts where nothing may. -/
inductive Scanned where
  | inside (scanner : Scanner)
  | complete
  | stray

namespace Scanner

def initial : Scanner := ⟨0, false, false⟩

/-- Space, tabulator, line feed, form feed and carriage return may stand between texts. -/
def isGap (c : Char) : Bool :=
  c = ' ' ∨ c = '\t' ∨ c = '\n' ∨ c = '\x0c' ∨ c = '\r'

def inLiteral (s : Scanner) (c : Char) : Scanner :=
  if s.escaped then { s with escaped := false }
  else if c = '\\' then { s with escaped := true }
  else if c = '"' then { s with inString := false }
  else s

def step (s : Scanner) (b : UInt8) : Scanned :=
  let c := Char.ofUInt8 b
  if s.inString then .inside (s.inLiteral c)
  else if c = '[' ∨ c = '\x7b' then .inside { s with depth := s.depth + 1 }
  else if s.depth = 0 then if isGap c then .inside s else .stray
  else if c = ']' ∨ c = '\x7d' then
    if s.depth = 1 then .complete else .inside { s with depth := s.depth - 1 }
  else if c = '"' then .inside { s with inString := true }
  else .inside s

/-- Whether nothing but gaps has been seen since the last text. -/
def isIdle (s : Scanner) : Bool :=
  s.depth = 0 ∧ ¬s.inString

end Scanner
end Ovsdb.Framing
