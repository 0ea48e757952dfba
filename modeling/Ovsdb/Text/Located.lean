import Ovsdb.Text.Digits

/-! Reports on a text that may end in a position there, such as `at line 3 column 7`. Lines count from one, and line
    zero means that no position is known. -/

namespace Ovsdb.Text

/-- A text in front of the last place where a separator stands, and behind it. -/
def splitAtLast (separator : List Char) : List Char → Option (List Char × List Char)
  | [] => none
  | c :: rest =>
    match splitAtLast separator rest with
    | some (before, behind) => some (c :: before, behind)
    | none =>
      if separator.isPrefixOf (c :: rest) then some ([], (c :: rest).drop separator.length) else none

/-- A report with the place that it is about. -/
structure Located where
  report : String
  line : Nat
  column : Nat
deriving DecidableEq

namespace Located

/-- Reads `<line> column <column>`. -/
def position? (s : List Char) : Option (Nat × Nat) := do
  let (digits, rest) := s.span Char.isDigit
  let line ← word? digits
  let column ← if " column ".toList.isPrefixOf rest then word? (rest.drop 8) else none
  return (line, column)

/-- Takes the position off the end of a report. A report whose end is no position is kept whole. -/
def ofString (s : String) : Located :=
  match splitAtLast " at line ".toList s.toList with
  | none => ⟨s, 0, 0⟩
  | some (report, rest) =>
    match position? rest with
    | some (line, column) => ⟨String.ofList report, line, column⟩
    | none => ⟨s, 0, 0⟩

/-- The report with its position, if one is known. -/
def message (l : Located) : String :=
  if l.line = 0 then l.report
  else l.report ++ " at line " ++ Text.ofNat l.line ++ " column " ++ Text.ofNat l.column

end Located
end Ovsdb.Text
