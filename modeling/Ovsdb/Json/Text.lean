import Ovsdb.Json
import Ovsdb.Decimal.Notation

/-! The compact text of a JSON value: no blanks, members in the order of the object. -/

namespace Ovsdb.Json

def hexDigit (n : Nat) : Char :=
  Nat.digitChar n

/-- One character inside a string: the two characters with a meaning and the controls are escaped. -/
def charText (c : Char) : List Char :=
  if c = '"' ∨ c = '\\' then ['\\', c]
  else if c = '\x08' then ['\\', 'b']
  else if c = '\x0c' then ['\\', 'f']
  else if c = '\n' then ['\\', 'n']
  else if c = '\r' then ['\\', 'r']
  else if c = '\t' then ['\\', 't']
  else if c.toNat < 0x20 then ['\\', 'u', '0', '0', hexDigit (c.toNat / 16), hexDigit (c.toNat % 16)]
  else [c]

/-- A string literal, with its quotes. -/
def stringChars (s : String) : List Char :=
  '"' :: (s.toList.flatMap charText ++ ['"'])

mutual

/-- The text of a value, without blanks. -/
def chars : Json → List Char
  | .null => ['n', 'u', 'l', 'l']
  | .bool true => ['t', 'r', 'u', 'e']
  | .bool false => ['f', 'a', 'l', 's', 'e']
  | .int n => Decimal.intChars n.val
  | .float x _ => Decimal.floatChars x
  | .str s => stringChars s
  | .arr [] => ['[', ']']
  | .arr (j :: rest) => '[' :: (chars j ++ itemChars rest)
  | .obj [] => ['\x7b', '\x7d']
  | .obj ((name, j) :: rest) => '\x7b' :: (stringChars name ++ ':' :: (chars j ++ memberChars rest))

/-- The text of an array after its first element. -/
def itemChars : List Json → List Char
  | [] => [']']
  | j :: rest => ',' :: (chars j ++ itemChars rest)

/-- The text of an object after its first member. -/
def memberChars : List (String × Json) → List Char
  | [] => ['\x7d']
  | (name, j) :: rest => ',' :: (stringChars name ++ ':' :: (chars j ++ memberChars rest))

end

def text (j : Json) : String :=
  String.ofList j.chars

def bytes (j : Json) : List UInt8 :=
  j.chars.flatMap String.utf8EncodeChar

end Ovsdb.Json
