import Ovsdb.Json
import Ovsdb.Decimal.Scaled

/-! Reading a JSON text byte by byte. The reader is a machine: its state holds the arrays and objects that are
    open, outermost last, and what has been read of the innermost token; each byte takes it to the next state or is
    refused. A text is accepted if all its bytes are and the machine then holds one value. Since a state is all that
    the bytes so far have left behind, a text may be fed in pieces. -/

namespace Ovsdb.Json

/-- Space, tabulator, line feed and carriage return may stand between tokens. -/
def isBlank (c : Char) : Bool :=
  c = ' ' ∨ c = '\t' ∨ c = '\n' ∨ c = '\r'

/-- Arrays and objects may be nested this deep. -/
def maxDepth : Nat := 127

/-! ### Strings -/

/-- What an escape inside a string still needs. `high` is the first half of a surrogate pair. -/
inductive Escape where
  | none
  | slash
  | lowSlash (high : Nat)
  | lowMark (high : Nat)
  | code (high : Option Nat) (digits value : Nat)

/-- A string without its closing quote; its bytes are kept newest first. -/
structure StringToken where
  bytes : List UInt8
  escape : Escape

/-- What comes of a token that is fed one byte more. -/
inductive Fed (τ α : Type) where
  | more (token : τ)
  | ended (value : α)
  | refused

namespace StringToken

def empty : StringToken := ⟨[], .none⟩

def pushByte (t : StringToken) (b : UInt8) : StringToken :=
  ⟨b :: t.bytes, .none⟩

def pushChar (t : StringToken) (c : Char) : StringToken :=
  ⟨(String.utf8EncodeChar c).reverse ++ t.bytes, .none⟩

/-- The string that the bytes encode, if they are well-formed UTF-8. -/
def value? (t : StringToken) : Option String :=
  String.fromUTF8? ⟨t.bytes.reverse.toArray⟩

def hexValue? (c : Char) : Option Nat :=
  if '0' ≤ c ∧ c ≤ '9' then some (c.toNat - '0'.toNat)
  else if 'a' ≤ c ∧ c ≤ 'f' then some (c.toNat - 'a'.toNat + 10)
  else if 'A' ≤ c ∧ c ≤ 'F' then some (c.toNat - 'A'.toNat + 10)
  else none

/-- The character that a single letter after the backslash stands for. -/
def shortEscape? (c : Char) : Option Char :=
  if c = '"' ∨ c = '\\' ∨ c = '/' then some c
  else if c = 'b' then some '\x08'
  else if c = 'f' then some '\x0c'
  else if c = 'n' then some '\n'
  else if c = 'r' then some '\r'
  else if c = 't' then some '\t'
  else none

/-- A complete escape by code. Surrogates must come in pairs. -/
def pushCode (t : StringToken) (high : Option Nat) (code : Nat) : Fed StringToken String :=
  match high with
  | some h =>
    if 0xDC00 ≤ code ∧ code < 0xE000 then
      .more (t.pushChar (Char.ofNat (0x10000 + (h - 0xD800) * 0x400 + (code - 0xDC00))))
    else .refused
  | none =>
    if 0xD800 ≤ code ∧ code < 0xDC00 then .more { t with escape := .lowSlash code }
    else if 0xDC00 ≤ code ∧ code < 0xE000 then .refused
    else .more (t.pushChar (Char.ofNat code))

def feed (t : StringToken) (b : UInt8) : Fed StringToken String :=
  let c := Char.ofUInt8 b
  match t.escape with
  | .none =>
    if c = '"' then
      match t.value? with
      | some s => .ended s
      | none => .refused
    else if c = '\\' then .more { t with escape := .slash }
    else if b < 0x20 then .refused
    else .more (t.pushByte b)
  | .slash =>
    if c = 'u' then .more { t with escape := .code none 0 0 }
    else
      match shortEscape? c with
      | some e => .more (t.pushChar e)
      | none => .refused
  | .lowSlash high => if c = '\\' then .more { t with escape := .lowMark high } else .refused
  | .lowMark high => if c = 'u' then .more { t with escape := .code (some high) 0 0 } else .refused
  | .code high digits value =>
    match hexValue? c with
    | none => .refused
    | some d =>
      if digits < 3 then .more { t with escape := .code high (digits + 1) (value * 16 + d) }
      else t.pushCode high (value * 16 + d)

end StringToken

/-! ### Numbers -/

/-- The part of a number in which the last byte stood. -/
inductive NumberPart where
  | sign
  | zero
  | whole
  | point
  | fraction
  | mark
  | powerSign
  | power

/-- A number `±significand · 10 ^ (±power + shift)`. Its significand holds as many of the leading digits as fit a
    64-bit word, and `cut` says that digits of the current part have been left out. -/
structure NumberToken where
  negative : Bool
  part : NumberPart
  significand : Nat
  shift : Int
  cut : Bool
  powerNegative : Bool
  power : Nat

namespace NumberToken

def start (negative : Bool) (part : NumberPart) (digit : Nat) : NumberToken :=
  ⟨negative, part, digit, 0, false, false, 0⟩

def digit? (c : Char) : Option Nat :=
  if '0' ≤ c ∧ c ≤ '9' then some (c.toNat - '0'.toNat) else none

/-- Whether one digit more fits into the significand, and none has been left out. -/
def hasRoom (t : NumberToken) (d : Nat) : Bool :=
  !t.cut && decide (t.significand * 10 + d < UInt64.size)

/-- Reads a digit before the point. One that is left out still counts as a place. -/
def pushWhole (t : NumberToken) (d : Nat) : NumberToken :=
  if t.hasRoom d then { t with significand := t.significand * 10 + d }
  else { t with shift := t.shift + 1, cut := true }

/-- Adds a digit behind the point. One for which there is no room is left out. -/
def pushFraction (t : NumberToken) (d : Nat) : NumberToken :=
  if t.hasRoom d then { t with part := .fraction, significand := t.significand * 10 + d, shift := t.shift - 1 }
  else { t with part := .fraction, cut := true }

def decimal (t : NumberToken) : Decimal.Scaled :=
  ⟨t.significand, (if t.powerNegative then -(t.power : Int) else t.power) + t.shift⟩

def float (t : NumberToken) : Float :=
  if t.negative then -t.decimal.toFloat else t.decimal.toFloat

/-- Whether the number is all digits, none of which has been left out. -/
def isExact (t : NumberToken) : Bool :=
  match t.part with
  | .zero | .whole => !t.cut
  | _ => false

def signed (t : NumberToken) : Int :=
  if t.negative then -(t.significand : Int) else t.significand

/-- The value of a complete number. One without point and exponent that fits a 64-bit word is exact, except that
    minus zero keeps its sign as a double; every other one is a double, and refused if that is not finite. -/
def value? (t : NumberToken) : Option Json :=
  let asFloat := if h : t.float.isFinite then some (Json.float t.float h) else none
  if t.isExact ∧ ¬(t.negative ∧ t.significand = 0) then
    match WideInt.ofInt? t.signed with
    | some n => some (.int n)
    | none => asFloat
  else asFloat

/-- What comes of a number that is not fed any more. -/
def ended (t : NumberToken) : Fed NumberToken Json :=
  match t.value? with
  | some j => .ended j
  | none => .refused

/-- Reads one more character; one that cannot continue a complete number ends it. -/
def feed (t : NumberToken) (c : Char) : Fed NumberToken Json :=
  let isMark := c = 'e' ∨ c = 'E'
  match t.part, digit? c with
  | .sign, some d => .more { t with part := if d = 0 then .zero else .whole, significand := d }
  | .whole, some d => .more (t.pushWhole d)
  | .point, some d | .fraction, some d => .more (t.pushFraction d)
  | .mark, some d | .powerSign, some d | .power, some d => .more { t with part := .power, power := t.power * 10 + d }
  | .zero, none | .whole, none =>
    if c = '.' then .more { t with part := .point, cut := false }
    else if isMark then .more { t with part := .mark }
    else t.ended
  | .fraction, none => if isMark then .more { t with part := .mark } else t.ended
  | .mark, none =>
    if c = '+' ∨ c = '-' then .more { t with part := .powerSign, powerNegative := c == '-' } else .refused
  | .zero, some _ | .power, none => t.ended
  | .sign, none | .point, none | .powerSign, none => .refused

end NumberToken

/-! ### The machine -/

/-- Where a value that is being read will go in the array or object around it. Elements are kept newest first. -/
inductive Slot where
  | element (items : List Json)
  | member (members : List (String × Json)) (name : String)

/-- What the reader has in hand. -/
inductive Mode where
  | start
  | firstElement
  | afterElement (items : List Json)
  | firstName
  | nextName (members : List (String × Json))
  | afterName (members : List (String × Json)) (name : String)
  | afterMember (members : List (String × Json))
  | name (members : List (String × Json)) (token : StringToken)
  | string (token : StringToken)
  | number (token : NumberToken)
  | word (rest : List Char) (value : Json)
  | done (value : Json)

/-- A reader of one text: the arrays and objects that it is inside of, the innermost one first, and what may come
    next. -/
structure Reader where
  slots : List Slot
  mode : Mode

namespace Reader

def initial : Reader := ⟨[], .start⟩

/-- Puts a value that is complete where it belongs: into the innermost array or object, or at the end of the text. -/
def deliver (slots : List Slot) (value : Json) : Reader :=
  match slots with
  | [] => ⟨[], .done value⟩
  | .element items :: rest => ⟨rest, .afterElement (value :: items)⟩
  | .member members name :: rest => ⟨rest, .afterMember (put members name value)⟩

/-- Starts the value that goes into the first slot. -/
def begin (slots : List Slot) (c : Char) : Option Reader :=
  match c with
  | '[' => if slots.length < maxDepth then some ⟨slots, .firstElement⟩ else none
  | '\x7b' => if slots.length < maxDepth then some ⟨slots, .firstName⟩ else none
  | '"' => some ⟨slots, .string .empty⟩
  | 'n' => some ⟨slots, .word ['u', 'l', 'l'] .null⟩
  | 't' => some ⟨slots, .word ['r', 'u', 'e'] (.bool true)⟩
  | 'f' => some ⟨slots, .word ['a', 'l', 's', 'e'] (.bool false)⟩
  | '-' => some ⟨slots, .number (.start true .sign 0)⟩
  | '0' => some ⟨slots, .number (.start false .zero 0)⟩
  | c => (NumberToken.digit? c).map fun d => ⟨slots, .number (.start false .whole d)⟩

/-- Reads a character that follows a complete value. -/
def afterValue (r : Reader) (c : Char) : Option Reader :=
  if isBlank c then some r
  else
    match r.mode, c with
    | .afterElement items, ',' => some ⟨.element items :: r.slots, .start⟩
    | .afterElement items, ']' => some (deliver r.slots (.arr items.reverse))
    | .afterMember members, ',' => some ⟨r.slots, .nextName members⟩
    | .afterMember members, '\x7d' => some (deliver r.slots (.obj members))
    | _, _ => none

def step (r : Reader) (b : UInt8) : Option Reader :=
  let c := Char.ofUInt8 b
  match r.mode with
  | .start => if isBlank c then some r else begin r.slots c
  | .firstElement =>
    if isBlank c then some r
    else if c = ']' then some (deliver r.slots (.arr []))
    else begin (.element [] :: r.slots) c
  | .firstName =>
    if isBlank c then some r
    else if c = '\x7d' then some (deliver r.slots (.obj []))
    else if c = '"' then some ⟨r.slots, .name [] .empty⟩
    else none
  | .nextName members =>
    if isBlank c then some r
    else if c = '"' then some ⟨r.slots, .name members .empty⟩
    else none
  | .afterName members name =>
    if isBlank c then some r
    else if c = ':' then some ⟨.member members name :: r.slots, .start⟩
    else none
  | .afterElement _ | .afterMember _ | .done _ => r.afterValue c
  | .name members token =>
    match token.feed b with
    | .more t => some ⟨r.slots, .name members t⟩
    | .ended s => some ⟨r.slots, .afterName members s⟩
    | .refused => none
  | .string token =>
    match token.feed b with
    | .more t => some ⟨r.slots, .string t⟩
    | .ended s => some (deliver r.slots (.str s))
    | .refused => none
  | .number token =>
    match token.feed c with
    | .more t => some ⟨r.slots, .number t⟩
    | .ended j => (deliver r.slots j).afterValue c
    | .refused => none
  | .word [] _ => none
  | .word (w :: rest) value =>
    if c = w then
      match rest with
      | [] => some (deliver r.slots value)
      | _ :: _ => some ⟨r.slots, .word rest value⟩
    else none

/-- The value that is complete when the text ends here. Only a number can still be open then. -/
def finish (r : Reader) : Option Json :=
  match r.mode with
  | .done value => some value
  | .number token =>
    match r.slots, token.part with
    | [], .zero | [], .whole | [], .fraction | [], .power => token.value?
    | _, _ => none
  | _ => none

end Reader

/-- The value that a text denotes. Blanks may stand around it, and nothing else. -/
def read (text : List UInt8) : Option Json :=
  text.foldlM Reader.step Reader.initial >>= Reader.finish

end Ovsdb.Json
