import Mathlib.Tactic.IntervalCases
import Ovsdb.Json.Reader
import Ovsdb.Json.Text

/-! Strings and numbers as they are written and read back. A string comes back from its text whatever its characters
    are, an integer comes back from its digits. -/

namespace Ovsdb.Json

/-! ### Characters as bytes -/

section
variable {c : Char} {b : UInt8}

theorem utf8EncodeChar_of_ascii (h : c.toNat < 0x80) : String.utf8EncodeChar c = [UInt8.ofNat c.toNat] := by
  rw [String.utf8EncodeChar]
  exact if_pos (Nat.le_of_lt_succ h)

theorem toNat_ofNat_of_ascii (h : c.toNat < 0x80) : (UInt8.ofNat c.toNat).toNat = c.toNat :=
  Nat.mod_eq_of_lt (by omega)

/-- The one byte of an ASCII character is read as that character. -/
theorem ofUInt8_of_ascii (h : c.toNat < 0x80) : Char.ofUInt8 (UInt8.ofNat c.toNat) = c :=
  Char.toNat_inj.mp (toNat_ofNat_of_ascii h)

/-- No byte of any other character looks like an ASCII character. -/
theorem le_of_mem_utf8EncodeChar (h : ¬c.toNat < 0x80) (mem : b ∈ String.utf8EncodeChar c) : 0x80 ≤ b.toNat := by
  rw [String.utf8EncodeChar] at mem
  simp only [Char.toNat] at h
  rw [if_neg (by omega)] at mem
  split at mem
  · simp only [List.mem_cons, List.not_mem_nil, or_false] at mem
    rcases mem with rfl | rfl <;> simp <;> omega
  · split at mem
    · simp only [List.mem_cons, List.not_mem_nil, or_false] at mem
      rcases mem with rfl | rfl | rfl <;> simp <;> omega
    · simp only [List.mem_cons, List.not_mem_nil, or_false] at mem
      rcases mem with rfl | rfl | rfl | rfl <;> simp <;> omega

theorem ofUInt8_ne_of_le (high : 0x80 ≤ b.toNat) (h : c.toNat < 0x80) : Char.ofUInt8 b ≠ c := by
  rintro rfl
  exact absurd h (Nat.not_lt.mpr high)

end

/-! ### Strings -/

namespace StringToken

/-- The token behind so many bytes, if none of them ends it. -/
def feedAll (t : StringToken) : List UInt8 → Option StringToken
  | [] => some t
  | b :: bytes =>
    match t.feed b with
    | .more t' => t'.feedAll bytes
    | _ => none

variable {t t' : StringToken} {b : UInt8} {bytes more read : List UInt8} {c : Char}

theorem feedAll_cons (h : t.feed b = .more t') (bytes : List UInt8) : t.feedAll (b :: bytes) = t'.feedAll bytes := by
  rw [feedAll, h]

theorem feedAll_append (bytes more : List UInt8) :
    t.feedAll (bytes ++ more) = t.feedAll bytes >>= fun t' => t'.feedAll more := by
  induction bytes generalizing t with
  | nil => rfl
  | cons b bytes ih =>
    rw [List.cons_append, feedAll, feedAll]
    cases t.feed b with
    | more t' => exact ih
    | ended s => rfl
    | refused => rfl

theorem feed_of_plain (hquote : Char.ofUInt8 b ≠ '"') (hslash : Char.ofUInt8 b ≠ '\\') (hcontrol : ¬b < 0x20) :
    feed ⟨read, .none⟩ b = .more ⟨b :: read, .none⟩ := by
  simp [feed, hquote, hslash, hcontrol, pushByte]

theorem feedAll_of_plain (h : ∀ b ∈ bytes, Char.ofUInt8 b ≠ '"' ∧ Char.ofUInt8 b ≠ '\\' ∧ ¬b < 0x20) :
    feedAll ⟨read, .none⟩ bytes = some ⟨bytes.reverse ++ read, .none⟩ := by
  induction bytes generalizing read with
  | nil => rfl
  | cons b bytes ih =>
    obtain ⟨⟨hquote, hslash, hcontrol⟩, rest⟩ := List.forall_mem_cons.mp h
    rw [feedAll_cons (feed_of_plain hquote hslash hcontrol), ih rest, List.reverse_cons, List.append_assoc]
    rfl

/-- The escapes by number that are written stand for the controls. -/
theorem feedAll_code {n : Nat} (h : n < 0x20) :
    feedAll ⟨read, .none⟩ (['\\', 'u', '0', '0', hexDigit (n / 16), hexDigit (n % 16)].flatMap String.utf8EncodeChar) =
      some (pushChar ⟨read, .none⟩ (Char.ofNat n)) := by
  interval_cases n <;> rfl

/-- Each character comes back from its text. -/
theorem feedAll_char (read : List UInt8) (c : Char) :
    feedAll ⟨read, .none⟩ ((charText c).flatMap String.utf8EncodeChar) = some (pushChar ⟨read, .none⟩ c) := by
  rw [charText]
  split_ifs with quoted back form line ret tab control
  · rcases quoted with rfl | rfl <;> rfl
  · rw [back]; rfl
  · rw [form]; rfl
  · rw [line]; rfl
  · rw [ret]; rfl
  · rw [tab]; rfl
  · rw [feedAll_code control, Char.ofNat_toNat]
  · rw [List.flatMap_singleton]
    refine feedAll_of_plain fun b mem => ?_
    simp only [not_or] at quoted
    by_cases ascii : c.toNat < 0x80
    · rw [utf8EncodeChar_of_ascii ascii, List.mem_singleton] at mem
      rw [mem, ofUInt8_of_ascii ascii, UInt8.lt_iff_toNat_lt, toNat_ofNat_of_ascii ascii]
      exact ⟨quoted.1, quoted.2, control⟩
    · have high := le_of_mem_utf8EncodeChar ascii mem
      refine ⟨ofUInt8_ne_of_le high (by decide), ofUInt8_ne_of_le high (by decide), ?_⟩
      rw [UInt8.lt_iff_toNat_lt]
      exact fun low => absurd (Nat.lt_of_lt_of_le low (by decide)) (Nat.not_lt.mpr high)

theorem feedAll_string (cs : List Char) (read : List UInt8) :
    feedAll ⟨read, .none⟩ ((cs.flatMap charText).flatMap String.utf8EncodeChar) =
      some ⟨(cs.flatMap String.utf8EncodeChar).reverse ++ read, .none⟩ := by
  induction cs generalizing read with
  | nil => rfl
  | cons c cs ih =>
    rw [List.flatMap_cons, List.flatMap_append, feedAll_append, feedAll_char]
    show feedAll (pushChar _ c) _ = _
    rw [pushChar, ih, List.flatMap_cons, List.reverse_append, List.append_assoc]

theorem value?_of_string (s : String) :
    value? ⟨(s.toList.flatMap String.utf8EncodeChar).reverse, .none⟩ = some s := by
  have bytes : (⟨(s.toList.flatMap String.utf8EncodeChar).toArray⟩ : ByteArray) = s.toByteArray := by
    rw [← String.utf8Encode_toList, List.utf8Encode]
    ext1
    rw [List.data_toByteArray]
  rw [value?, List.reverse_reverse, bytes, String.fromUTF8?, dif_pos s.isValidUTF8]
  rfl

/-- The quote behind its text ends a string. -/
theorem feed_quote (s : String) :
    feed ⟨(s.toList.flatMap String.utf8EncodeChar).reverse, .none⟩ (UInt8.ofNat '"'.toNat) = .ended s := by
  have quote : Char.ofUInt8 (UInt8.ofNat '"'.toNat) = '"' := rfl
  simp only [feed, quote, if_true, value?_of_string]

end StringToken

/-! ### Numbers -/

namespace NumberToken

/-- The characters that numbers are written with. -/
def IsNumeric (c : Char) : Prop :=
  c.isDigit = true ∨ c = '-' ∨ c = '+' ∨ c = '.' ∨ c = 'e'

theorem IsNumeric.mem {c : Char} (h : IsNumeric c) :
    c ∈ ['0', '1', '2', '3', '4', '5', '6', '7', '8', '9', '-', '+', '.', 'e'] := by
  rcases h with digit | rfl | rfl | rfl | rfl
  · obtain ⟨low, high⟩ : 48 ≤ c.toNat ∧ c.toNat ≤ 57 := by
      simpa [Char.isDigit, UInt32.le_iff_toNat_le] using digit
    rw [← Char.ofNat_toNat c]
    interval_cases c.toNat <;> decide
  all_goals decide

theorem IsNumeric.of_all {c : Char} (h : IsNumeric c) {p : Char → Bool}
    (all : ['0', '1', '2', '3', '4', '5', '6', '7', '8', '9', '-', '+', '.', 'e'].all p = true) : p c = true :=
  List.all_eq_true.mp all c h.mem

/-- The token behind so many characters, if none of them ends it. -/
def feedAll (t : NumberToken) : List Char → Option NumberToken
  | [] => some t
  | c :: cs =>
    match t.feed c with
    | .more t' => t'.feedAll cs
    | _ => none

/-- The token with which a number begins. -/
def first? (c : Char) : Option NumberToken :=
  if c = '-' then some (.start true .sign 0)
  else if c = '0' then some (.start false .zero 0)
  else (digit? c).map (.start false .whole)

/-- Whether a number may end here. -/
def IsComplete (t : NumberToken) : Prop :=
  match t.part with
  | .zero | .whole | .fraction | .power => True
  | _ => False

/-- The token of a number that is still open. -/
def ofChars? : List Char → Option NumberToken
  | [] => none
  | c :: cs => first? c >>= fun t => t.feedAll cs

variable {t t' : NumberToken} {c : Char} {cs ds : List Char} {n : Nat} {j : Json}

theorem feedAll_append (cs ds : List Char) : t.feedAll (cs ++ ds) = t.feedAll cs >>= fun t' => t'.feedAll ds := by
  induction cs generalizing t with
  | nil => rfl
  | cons c cs ih =>
    rw [List.cons_append, feedAll, feedAll]
    cases t.feed c with
    | more t' => exact ih
    | ended j => rfl
    | refused => rfl

theorem ofChars?_append (h : cs ≠ []) (ds : List Char) :
    ofChars? (cs ++ ds) = ofChars? cs >>= fun t => t.feedAll ds := by
  cases cs with
  | nil => exact absurd rfl h
  | cons c cs =>
    rw [List.cons_append, ofChars?, ofChars?, bind_assoc]
    simp only [feedAll_append]

/-- One more digit, as long as the number fits a 64-bit word. -/
theorem feedAll_digit {negative : Bool} {d : Nat} (hd : d < 10) (fits : n * 10 + d < UInt64.size) :
    (start negative .whole n).feedAll [d.digitChar] = some (start negative .whole (n * 10 + d)) := by
  have digit : digit? d.digitChar = some d := by
    interval_cases d <;> rfl
  have room : (start negative .whole n).hasRoom d = true := decide_eq_true fits
  have pushed : (start negative .whole n).pushWhole d = start negative .whole (n * 10 + d) := by
    rw [pushWhole, if_pos room]
    rfl
  rw [← pushed, feedAll, feed, digit]
  rfl

theorem ofChars?_natChars (negative : Bool) (positive : 0 < n) (fits : n < UInt64.size) :
    ofChars? ((if negative then ['-'] else []) ++ Decimal.natChars n) = some (.start negative .whole n) := by
  induction n using Nat.strongRecOn with
  | ind n ih =>
    by_cases single : n < 10
    · cases negative <;> interval_cases n <;> rfl
    · have split : Decimal.natChars n = Decimal.natChars (n / 10) ++ [(n % 10).digitChar] :=
        Nat.toDigits_of_base_le (by decide) (Nat.not_lt.mp single)
      have filled : (if negative then ['-'] else []) ++ Decimal.natChars (n / 10) ≠ [] := by
        simp [Decimal.natChars]
      rw [split, ← List.append_assoc, ofChars?_append filled, ih (n / 10) (by omega) (by omega) (by omega)]
      show feedAll _ _ = _
      rw [feedAll_digit (by omega) (by omega), Nat.div_add_mod']

theorem complete_of_exact (h : t.isExact = true) : t.IsComplete := by
  revert h
  rw [isExact, IsComplete]
  cases t.part <;> simp

/-- A number of digits only that fits a 64-bit word is exact. -/
theorem value?_of_exact {n : WideInt} (exact : t.isExact = true) (nonzero : ¬(t.negative = true ∧ t.significand = 0))
    (signed : t.signed = n.val) : t.value? = some (.int n) := by
  have same : WideInt.ofInt? t.signed = some n := by
    rw [signed, WideInt.ofInt?, dif_pos ⟨n.ge, n.lt⟩]
  rw [value?, if_pos ⟨exact, nonzero⟩, same]

/-- An integer comes back from its digits. -/
theorem value?_intChars (n : WideInt) : ∃ t, ofChars? (Decimal.intChars n.val) = some t ∧ t.IsComplete ∧
    t.value? = some (.int n) := by
  have low := n.ge
  have high := n.lt
  rcases lt_trichotomy n.val 0 with negative | zero | positive
  · have read := ofChars?_natChars true (n := n.val.natAbs) (by omega) (by simp only [UInt64.size]; omega)
    refine ⟨_, by rw [Decimal.intChars, if_pos negative]; exact read, complete_of_exact rfl, value?_of_exact rfl ?_ ?_⟩
    · simp [start]; omega
    · simp only [signed, start, if_true]; omega
  · refine ⟨.start false .zero 0, by rw [zero]; rfl, complete_of_exact rfl, value?_of_exact rfl ?_ ?_⟩
    · simp [start]
    · rw [zero]; rfl
  · have read := ofChars?_natChars false (n := n.val.natAbs) (by omega) (by simp only [UInt64.size]; omega)
    refine ⟨_, by rw [Decimal.intChars, if_neg (by omega)]; exact read, complete_of_exact rfl,
      value?_of_exact rfl ?_ ?_⟩
    · simp [start]
    · simp only [signed, start]
      exact Int.natAbs_of_nonneg positive.le

/-! Every character of a number is one that numbers are written with. -/

@[simp]
theorem numeric_minus : IsNumeric '-' := .inr (.inl rfl)

@[simp]
theorem numeric_plus : IsNumeric '+' := .inr (.inr (.inl rfl))

@[simp]
theorem numeric_point : IsNumeric '.' := .inr (.inr (.inr (.inl rfl)))

@[simp]
theorem numeric_mark : IsNumeric 'e' := .inr (.inr (.inr (.inr rfl)))

@[simp]
theorem numeric_zero : IsNumeric '0' := .inl rfl

theorem numeric_natChars (n : Nat) : ∀ c ∈ Decimal.natChars n, IsNumeric c :=
  fun _ mem => .inl (Nat.isDigit_of_mem_toDigits (by decide) (by decide) mem)

theorem numeric_intChars (n : Int) : ∀ c ∈ Decimal.intChars n, IsNumeric c := by
  rw [Decimal.intChars]
  split
  · exact List.forall_mem_cons.mpr ⟨numeric_minus, numeric_natChars _⟩
  · exact numeric_natChars _

theorem numeric_positional (d : Decimal.Scaled) : ∀ c ∈ d.positional, IsNumeric c := by
  have digits := numeric_natChars d.digits
  have zeros (n : Nat) : ∀ c ∈ List.replicate n '0', IsNumeric c := fun c mem =>
    (List.eq_of_mem_replicate mem).symm ▸ numeric_zero
  rw [Decimal.Scaled.positional]
  split_ifs
  · simpa only [List.forall_mem_append, List.forall_mem_cons] using ⟨⟨digits, zeros _⟩, by simp⟩
  · simp only [List.forall_mem_append, List.forall_mem_cons]
    exact ⟨fun c mem => digits c (List.mem_of_mem_take mem), numeric_point,
      fun c mem => digits c (List.mem_of_mem_drop mem)⟩
  · simp only [List.forall_mem_append, List.forall_mem_cons]
    exact ⟨numeric_zero, numeric_point, zeros _, digits⟩

theorem numeric_scientific (d : Decimal.Scaled) : ∀ c ∈ d.scientific, IsNumeric c := by
  have digits := numeric_natChars d.digits
  simp only [Decimal.Scaled.scientific, List.forall_mem_append, List.forall_mem_cons]
  refine ⟨⟨fun c mem => digits c (List.mem_of_mem_take mem), ?_⟩, numeric_mark, by split <;> simp, numeric_natChars _⟩
  split_ifs
  · simp
  · exact List.forall_mem_cons.mpr ⟨numeric_point, fun c mem => digits c (List.mem_of_mem_drop mem)⟩

theorem numeric_floatChars (x : Float) : ∀ c ∈ Decimal.floatChars x, IsNumeric c := by
  have text : ∀ c ∈ (if (Decimal.Binary.ofFloat x).mantissa = 0 then ['0', '.', '0']
      else (Decimal.Binary.ofFloat x).shortest.chars), IsNumeric c := by
    rw [Decimal.Scaled.chars]
    split_ifs
    · simp
    · exact numeric_positional _
    · exact numeric_scientific _
  rw [Decimal.floatChars]
  split
  · exact text
  · exact List.forall_mem_cons.mpr ⟨numeric_minus, text⟩

/-- Whether a character may follow a value and is not part of it. -/
def Delimits (c : Char) : Prop :=
  c = ',' ∨ c = ']' ∨ c = '\x7d' ∨ c = '\n'

theorem feed_of_delimits (complete : t.IsComplete) (value : t.value? = some j) (h : Delimits c) :
    t.feed c = .ended j := by
  have ended : t.ended = .ended j := by rw [NumberToken.ended, value]
  have none : digit? c = none := by
    rcases h with rfl | rfl | rfl | rfl <;> rfl
  have point : c ≠ '.' ∧ c ≠ 'e' ∧ c ≠ 'E' := by
    rcases h with rfl | rfl | rfl | rfl <;> decide
  rw [feed, none]
  revert complete
  rw [IsComplete]
  cases t.part <;> simp [point, ended]

end NumberToken
end Ovsdb.Json
