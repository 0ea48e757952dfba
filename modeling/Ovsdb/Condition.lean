import Ovsdb.Value

/-! Conditions and mutations: triples of a column, a token and a value. Decoding keeps tokens that are not known;
    encoding refuses them. -/

namespace Ovsdb

/-! ### Tokens -/

/-- How a condition compares a column with its value. -/
inductive Comparison where
  | lt
  | le
  | eq
  | ne
  | ge
  | gt
  | includes
  | excludes
  | unknown (token : String)
deriving DecidableEq

namespace Comparison

def token : Comparison → String
  | .lt => "<"
  | .le => "<="
  | .eq => "=="
  | .ne => "!="
  | .ge => ">="
  | .gt => ">"
  | .includes => "includes"
  | .excludes => "excludes"
  | .unknown t => t

/-- The comparison that a token stands for. Every token is read, one that is not known as itself. -/
def ofToken (t : String) : Comparison :=
  if t = "<" then .lt
  else if t = "<=" then .le
  else if t = "==" then .eq
  else if t = "!=" then .ne
  else if t = ">=" then .ge
  else if t = ">" then .gt
  else if t = "includes" then .includes
  else if t = "excludes" then .excludes
  else .unknown t

def isKnown : Comparison → Bool
  | .unknown _ => false
  | _ => true

end Comparison

/-- How a mutation changes a column. -/
inductive Mutator where
  | add
  | sub
  | mul
  | div
  | mod
  | insert
  | delete
  | unknown (token : String)
deriving DecidableEq

namespace Mutator

def token : Mutator → String
  | .add => "+="
  | .sub => "-="
  | .mul => "*="
  | .div => "/="
  | .mod => "%="
  | .insert => "insert"
  | .delete => "delete"
  | .unknown t => t

/-- The mutator that a token stands for. Every token is read, one that is not known as itself. -/
def ofToken (t : String) : Mutator :=
  if t = "+=" then .add
  else if t = "-=" then .sub
  else if t = "*=" then .mul
  else if t = "/=" then .div
  else if t = "%=" then .mod
  else if t = "insert" then .insert
  else if t = "delete" then .delete
  else .unknown t

def isKnown : Mutator → Bool
  | .unknown _ => false
  | _ => true

end Mutator

/-! ### Triples -/

/-- Takes a triple apart; the column is checked before the value. -/
def Json.triple : Json → Except Error (Id × String × Value)
  | .arr [.str column, .str token, value] => do
    let column ← Id.ofString column
    let value ← Value.ofJson value
    return (column, token, value)
  | j => .error (.malformed (.notTriple j))

/-- A test on a column. -/
structure Condition where
  column : Id
  comparison : Comparison
  value : Value

namespace Condition

def ofJson (j : Json) : Except Error Condition := do
  let (column, token, value) ← j.triple
  return ⟨column, .ofToken token, value⟩

/-- Writes a condition, unless its comparison is not known. -/
def toJson (c : Condition) : Except Error Json :=
  if c.comparison.isKnown then .ok (.arr [c.column.toJson, .str c.comparison.token, c.value.toJson])
  else .error (.invalidCondition c.comparison.token)

def decode : Decoder Condition := .lift ofJson

end Condition

/-- A change to a column. -/
structure Mutation where
  column : Id
  mutator : Mutator
  value : Value

namespace Mutation

def ofJson (j : Json) : Except Error Mutation := do
  let (column, token, value) ← j.triple
  return ⟨column, .ofToken token, value⟩

/-- Writes a mutation, unless its mutator is not known. -/
def toJson (m : Mutation) : Except Error Json :=
  if m.mutator.isKnown then .ok (.arr [m.column.toJson, .str m.mutator.token, m.value.toJson])
  else .error (.invalidMutation m.mutator.token)

def decode : Decoder Mutation := .lift ofJson

end Mutation
end Ovsdb
