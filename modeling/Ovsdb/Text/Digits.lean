import Ovsdb.Decimal.Notation

/-! Natural numbers as runs of decimal digits. -/

namespace Ovsdb.Text

def ofNat (n : Nat) : String :=
  String.ofList (Decimal.natChars n)

def isDigits (s : List Char) : Bool :=
  !s.isEmpty && s.all Char.isDigit

/-- A number with one more digit behind it, if that still fits a 64-bit word. -/
def pushDigit (n : Nat) (c : Char) : Option Nat :=
  let next := 10 * n + (c.toNat - '0'.toNat)
  if c.isDigit && decide (next < UInt64.size) then some next else none

/-- The value of a run of digits, read digit by digit, if it fits a 64-bit word. -/
def word? (s : List Char) : Option Nat :=
  if s.isEmpty then none else s.foldlM pushDigit 0

/-- The value of a run of digits with an optional plus sign, if it fits a 64-bit word. -/
def parseWord : List Char → Option Nat
  | '+' :: rest => word? rest
  | s => word? s

end Ovsdb.Text
