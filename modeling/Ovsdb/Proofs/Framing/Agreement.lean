import Ovsdb.Framing.Reader

/-! The scanner against the reader of JSON texts. The scanner only counts brackets and looks out for the ends of
    strings, but as long as the reader accepts the bytes inside an array or object, the scanner's state is a view of
    the reader's: the number of open brackets, whether a string is open, and whether its next character is escaped. -/

namespace Ovsdb

open Framing (Scanner)

/-! ### Classes of characters -/

/-- Whether the scanner takes notice of a character outside strings. -/
def Framing.Scanner.isMark (c : Char) : Bool :=
  c = '[' ∨ c = ']' ∨ c = '\x7b' ∨ c = '\x7d' ∨ c = '"'

/-- Whether a character opens an array or an object. -/
def Framing.Scanner.isOpening (c : Char) : Bool :=
  c = '[' ∨ c = '\x7b'

/-- Whether a character closes an array or an object. -/
def Framing.Scanner.isClosing (c : Char) : Bool :=
  c = ']' ∨ c = '\x7d'

namespace Json

/-- What an escape inside a string has left open for the scanner. -/
def StringToken.isEscaped (t : StringToken) : Bool :=
  match t.escape with
  | .slash | .lowMark _ => true
  | _ => false

/-- How many brackets are open besides those of the slots. -/
def Mode.brackets : Mode → Nat
  | .firstElement | .afterElement _ | .firstName | .nextName _ | .afterName .. | .afterMember _ | .name .. => 1
  | .start | .string _ | .number _ | .word .. | .done _ => 0

/-- The string in which a byte is expected. -/
def Mode.literal? : Mode → Option StringToken
  | .name _ t | .string t => some t
  | _ => none

/-- The scanner that has seen what a reader has. -/
def Reader.scanner (r : Reader) : Scanner where
  depth := r.slots.length + r.mode.brackets
  inString := r.mode.literal?.isSome
  escaped := r.mode.literal?.any (·.isEscaped)

/-- The text is not complete, and what is left of a word has no marks in it. -/
def Mode.Inside : Mode → Prop
  | .word rest _ => ∀ c ∈ rest, Scanner.isMark c = false
  | .done _ => False
  | _ => True

end Json

/-! ### Single characters -/

section Characters
variable {s : Scanner} {b : UInt8} {c : Char}

theorem isGap_of_isBlank (h : Json.isBlank c = true) : Scanner.isGap c = true := by
  simp only [Json.isBlank, Scanner.isGap, decide_eq_true_eq] at h ⊢
  rcases h with h | h | h | h <;> simp [h]

theorem isMark_of_isBlank (h : Json.isBlank c = true) : Scanner.isMark c = false := by
  simp only [Json.isBlank, decide_eq_true_eq] at h
  rcases h with rfl | rfl | rfl | rfl <;> rfl

/-- A character that is no mark leaves a scanner inside a text as it is. -/
theorem step_of_not_mark (hs : s.inString = false) (hd : 0 < s.depth)
    (h : Scanner.isMark (Char.ofUInt8 b) = false) :
    s.step b = .inside s := by
  simp only [Scanner.isMark, decide_eq_false_iff_not, not_or] at h
  obtain ⟨h1, h2, h3, h4, h5⟩ := h
  simp [Scanner.step, hs, h1, h2, h3, h4, h5, Nat.ne_of_gt hd]

theorem step_of_opening (hs : s.inString = false) (h : Scanner.isOpening (Char.ofUInt8 b) = true) :
    s.step b = .inside { s with depth := s.depth + 1 } := by
  simp only [Scanner.isOpening, decide_eq_true_eq] at h
  simp [Scanner.step, hs, h]

theorem step_of_quote (hs : s.inString = false) (hd : 0 < s.depth) (h : Char.ofUInt8 b = '"') :
    s.step b = .inside { s with inString := true } := by
  simp [Scanner.step, hs, h, Nat.ne_of_gt hd]

theorem step_of_closing (hs : s.inString = false) (h : Scanner.isClosing (Char.ofUInt8 b) = true)
    (hd : 0 < s.depth) :
    s.step b = if s.depth = 1 then .complete else .inside { s with depth := s.depth - 1 } := by
  simp only [Scanner.isClosing, decide_eq_true_eq] at h
  rcases h with h | h <;> simp [Scanner.step, hs, h, Nat.ne_of_gt hd]

/-- Blanks before a text do not move the scanner. -/
theorem step_initial_of_blank (h : Json.isBlank (Char.ofUInt8 b) = true) :
    Scanner.initial.step b = .inside .initial := by
  have hgap := isGap_of_isBlank h
  have hmark := isMark_of_isBlank h
  simp only [Scanner.isMark, decide_eq_false_iff_not, not_or] at hmark
  simp [Scanner.step, Scanner.initial, hgap, hmark]

theorem isMark_of_digit {d : Nat} (h : Json.NumberToken.digit? c = some d) : Scanner.isMark c = false := by
  simp only [Json.NumberToken.digit?, Option.ite_none_right_eq_some] at h
  obtain ⟨⟨hlow, hhigh⟩, -⟩ := h
  simp only [Scanner.isMark, decide_eq_false_iff_not, not_or]
  refine ⟨?_, ?_, ?_, ?_, ?_⟩ <;> rintro rfl <;> revert hlow hhigh <;> decide

theorem ne_of_hexValue {d : Nat} (h : Json.StringToken.hexValue? c = some d) : c ≠ '"' ∧ c ≠ '\\' := by
  constructor
  · rintro rfl
    rw [show Json.StringToken.hexValue? '"' = none by decide] at h
    cases h
  · rintro rfl
    rw [show Json.StringToken.hexValue? '\\' = none by decide] at h
    cases h

end Characters

namespace Json

/-! ### Tokens -/

section Tokens
variable {b : UInt8} {c : Char} {depth : Nat}

/-- While a string goes on, the scanner stays in it and tells the same escapes. -/
theorem inLiteral_of_more {t t' : StringToken} (h : t.feed b = .more t') :
    (Scanner.mk depth true t.isEscaped).inLiteral (Char.ofUInt8 b) = ⟨depth, true, t'.isEscaped⟩ := by
  obtain ⟨bytes, escape⟩ := t
  cases escape with
  | none =>
    simp only [StringToken.feed] at h
    split at h
    · split at h <;> cases h
    · next hquote =>
      split at h
      · next hslash =>
        cases h
        simp [Scanner.inLiteral, StringToken.isEscaped, hslash]
      · next hslash =>
        split at h <;> cases h
        simp [Scanner.inLiteral, StringToken.isEscaped, StringToken.pushByte, hquote, hslash]
  | slash =>
    simp only [StringToken.feed] at h
    split at h
    · cases h
      rfl
    · split at h <;> cases h
      rfl
  | lowSlash high =>
    simp only [StringToken.feed] at h
    split at h
    · next hslash =>
      cases h
      simp [Scanner.inLiteral, StringToken.isEscaped, hslash]
    · cases h
  | lowMark high =>
    simp only [StringToken.feed] at h
    split at h
    · cases h
      rfl
    · cases h
  | code high digits value =>
    simp only [StringToken.feed] at h
    split at h
    · cases h
    · next d hd =>
      -- A hexadecimal digit is neither a quote nor a backslash: for the scanner it is like any other character.
      obtain ⟨hquote, hslash⟩ := ne_of_hexValue hd
      have hsame : (Scanner.mk depth true false).inLiteral (Char.ofUInt8 b) = ⟨depth, true, false⟩ := by
        simp [Scanner.inLiteral, hquote, hslash]
      split at h
      · cases h
        exact hsame
      · -- Neither half of a surrogate pair leaves the string inside an escape for the scanner.
        simp only [StringToken.pushCode] at h
        repeat' split at h
        all_goals first
          | (rw [← Fed.more.inj h]; exact hsame)
          | cases h

/-- A string ends at a quote that is not escaped. -/
theorem inLiteral_of_ended {t : StringToken} {s : String} (h : t.feed b = .ended s) :
    (Scanner.mk depth true t.isEscaped).inLiteral (Char.ofUInt8 b) = ⟨depth, false, false⟩ := by
  obtain ⟨bytes, escape⟩ := t
  cases escape with
  | none =>
    simp only [StringToken.feed] at h
    split at h
    · next hquote => simp [Scanner.inLiteral, StringToken.isEscaped, hquote]
    · split at h
      · cases h
      · split at h <;> cases h
  | slash =>
    simp only [StringToken.feed] at h
    split at h
    · cases h
    · split at h <;> cases h
  | lowSlash high => simp only [StringToken.feed] at h; split at h <;> cases h
  | lowMark high => simp only [StringToken.feed] at h; split at h <;> cases h
  | code high digits value =>
    simp only [StringToken.feed, StringToken.pushCode] at h
    repeat' split at h
    all_goals cases h

theorem ended_ne_more (t t' : NumberToken) : t.ended ≠ .more t' := by
  intro h
  unfold NumberToken.ended at h
  split at h <;> cases h

/-- A number does not go on with a mark. -/
theorem isMark_of_more {t t' : NumberToken} (h : t.feed c = .more t') : Scanner.isMark c = false := by
  cases hd : NumberToken.digit? c with
  | some d => exact isMark_of_digit hd
  | none =>
    by_cases hmark : Scanner.isMark c = true
    · simp only [Scanner.isMark, decide_eq_true_eq] at hmark
      have hno : c ≠ '.' ∧ ¬(c = 'e' ∨ c = 'E') ∧ ¬(c = '+' ∨ c = '-') := by
        rcases hmark with rfl | rfl | rfl | rfl | rfl <;> decide
      simp only [NumberToken.feed, hd, hno.1, hno.2.1, hno.2.2, if_false] at h
      cases hp : t.part <;> rw [hp] at h <;> first | exact absurd h (ended_ne_more t t') | cases h
    · exact Bool.eq_false_iff.mpr hmark

end Tokens

/-! ### The machine -/

section Machine
variable {r r' : Reader} {slots : List Slot} {b : UInt8}

/-- What a byte inside an array or object does to the reader and to its scanner: either the text is complete for
    both, or it goes on for both and they still agree. -/
def StepsAlike (r r' : Reader) (b : UInt8) : Prop :=
  (∃ v, r' = ⟨[], .done v⟩ ∧ r.scanner.step b = .complete) ∨
    (0 < r'.scanner.depth ∧ r'.mode.Inside ∧ r.scanner.step b = .inside r'.scanner)

theorem StepsAlike.congr {q : Reader} (h : StepsAlike q r' b) (hq : r.scanner = q.scanner) : StepsAlike r r' b := by
  unfold StepsAlike at h ⊢
  rwa [hq]

/-- A byte that the scanner takes no notice of, and that changes neither depth nor literal of the reader. -/
theorem stepsAlike_of_not_mark (hs : r.scanner.inString = false) (hd : 0 < r.scanner.depth)
    (hb : Scanner.isMark (Char.ofUInt8 b) = false) (hr : r'.scanner = r.scanner) (hl : r'.mode.Inside) :
    StepsAlike r r' b := by
  refine Or.inr ⟨hr ▸ hd, hl, ?_⟩
  rw [hr]
  exact step_of_not_mark hs hd hb

theorem stepsAlike_of_blank (hs : r.scanner.inString = false) (hd : 0 < r.scanner.depth) (hl : r.mode.Inside)
    (hb : isBlank (Char.ofUInt8 b) = true) : StepsAlike r r b :=
  stepsAlike_of_not_mark hs hd (isMark_of_isBlank hb) rfl hl

/-- A closing bracket delivers the array or object that is open. -/
theorem stepsAlike_of_closing {mode : Mode} {v : Json} (hs : mode.literal? = none) (hm : mode.brackets = 1)
    (hb : Scanner.isClosing (Char.ofUInt8 b) = true) : StepsAlike ⟨slots, mode⟩ (Reader.deliver slots v) b := by
  have hscan : Reader.scanner ⟨slots, mode⟩ = ⟨slots.length + 1, false, false⟩ := by simp [Reader.scanner, hs, hm]
  unfold StepsAlike
  rw [hscan, step_of_closing rfl hb (Nat.succ_pos _)]
  cases slots with
  | nil => exact Or.inl ⟨v, rfl, rfl⟩
  | cons slot rest =>
    cases slot <;>
      exact Or.inr ⟨Nat.succ_pos _, trivial, by simp [Reader.scanner, Reader.deliver, Mode.brackets, Mode.literal?]⟩

theorem stepsAlike_of_opening {mode : Mode} (hq : r.scanner = ⟨slots.length, false, false⟩)
    (hm : mode.brackets = 1) (hs : mode.literal? = none) (hl : mode.Inside)
    (hb : Scanner.isOpening (Char.ofUInt8 b) = true) : StepsAlike r ⟨slots, mode⟩ b := by
  refine Or.inr ⟨by simp [Reader.scanner, hm], hl, ?_⟩
  rw [hq, step_of_opening rfl hb]
  simp [Reader.scanner, hm, hs]

theorem stepsAlike_of_quote {mode : Mode} (hq : r.scanner = ⟨slots.length + mode.brackets, false, false⟩)
    (hd : 0 < slots.length + mode.brackets) (hs : mode.literal? = some .empty) (hl : mode.Inside)
    (hb : Char.ofUInt8 b = '"') : StepsAlike r ⟨slots, mode⟩ b := by
  refine Or.inr ⟨hd, hl, ?_⟩
  rw [hq, step_of_quote rfl hd hb]
  simp [Reader.scanner, hs, StringToken.empty, StringToken.isEscaped]

/-- The first character of a value inside an array or object. -/
theorem stepsAlike_of_begin (hq : r.scanner = ⟨slots.length, false, false⟩) (hd : 0 < slots.length)
    (h : Reader.begin slots (Char.ofUInt8 b) = some r') : StepsAlike r r' b := by
  have plain : ∀ mode : Mode, mode.brackets = 0 → mode.literal? = none → mode.Inside →
      Scanner.isMark (Char.ofUInt8 b) = false → StepsAlike r ⟨slots, mode⟩ b := fun mode hm hs hl hb =>
    stepsAlike_of_not_mark (by rw [hq]) (by rw [hq]; exact hd) hb (by rw [hq]; simp [Reader.scanner, hm, hs]) hl
  unfold Reader.begin at h
  split at h
  · next hc =>
    split at h <;> cases h
    exact stepsAlike_of_opening hq rfl rfl trivial (by rw [hc]; rfl)
  · next hc =>
    split at h <;> cases h
    exact stepsAlike_of_opening hq rfl rfl trivial (by rw [hc]; rfl)
  · next hc =>
    cases h
    exact stepsAlike_of_quote hq hd rfl trivial hc
  · next hc =>
    cases h
    exact plain _ rfl rfl (by simp [Mode.Inside, Scanner.isMark]) (by rw [hc]; rfl)
  · next hc =>
    cases h
    exact plain _ rfl rfl (by simp [Mode.Inside, Scanner.isMark]) (by rw [hc]; rfl)
  · next hc =>
    cases h
    exact plain _ rfl rfl (by simp [Mode.Inside, Scanner.isMark]) (by rw [hc]; rfl)
  · next hc =>
    cases h
    exact plain _ rfl rfl trivial (by rw [hc]; rfl)
  · next hc =>
    cases h
    exact plain _ rfl rfl trivial (by rw [hc]; rfl)
  · obtain ⟨d, hd', rfl⟩ := Option.map_eq_some_iff.mp h
    exact plain _ rfl rfl trivial (isMark_of_digit hd')

/-- Where a token is expected, blanks are skipped. -/
theorem stepsAlike_of_skip {next : Option Reader} (hs : r.scanner.inString = false) (hd : 0 < r.scanner.depth)
    (hl : r.mode.Inside) (h : (if isBlank (Char.ofUInt8 b) = true then some r else next) = some r')
    (token : next = some r' → StepsAlike r r' b) : StepsAlike r r' b := by
  split at h
  · next hb =>
    cases h
    exact stepsAlike_of_blank hs hd hl hb
  · exact token h

/-- A character behind a value inside an array or object. -/
theorem stepsAlike_of_afterValue (hs : r.mode.literal? = none) (hd : 0 < r.scanner.depth) (hl : r.mode.Inside)
    (h : r.afterValue (Char.ofUInt8 b) = some r') : StepsAlike r r' b := by
  have hin : r.scanner.inString = false := by simp [Reader.scanner, hs]
  obtain ⟨slots, mode⟩ := r
  refine stepsAlike_of_skip hin hd hl h fun h => ?_
  split at h
  · next items hmode hc =>
    cases h
    obtain rfl : mode = _ := hmode
    exact stepsAlike_of_not_mark hin hd (by rw [hc]; rfl) rfl trivial
  · next items hmode hc =>
    cases h
    obtain rfl : mode = _ := hmode
    exact stepsAlike_of_closing rfl rfl (by rw [hc]; rfl)
  · next members hmode hc =>
    cases h
    obtain rfl : mode = _ := hmode
    exact stepsAlike_of_not_mark hin hd (by rw [hc]; rfl) rfl trivial
  · next members hmode hc =>
    cases h
    obtain rfl : mode = _ := hmode
    exact stepsAlike_of_closing rfl rfl (by rw [hc]; rfl)
  · cases h

/-- A value other than an array or object that is complete leaves the scanner where it is. -/
theorem scanner_deliver {v : Json} (hd : 0 < slots.length) :
    0 < (Reader.deliver slots v).scanner.depth ∧ (Reader.deliver slots v).mode.Inside ∧
      (Reader.deliver slots v).scanner = ⟨slots.length, false, false⟩ := by
  cases slots with
  | nil => cases hd
  | cons slot rest => cases slot <;> exact ⟨Nat.succ_pos _, trivial, rfl⟩

/-- Inside a member's name. -/
theorem stepsAlike_of_name {members : List (String × Json)} {token : StringToken}
    (h : Reader.step ⟨slots, .name members token⟩ b = some r') : StepsAlike ⟨slots, .name members token⟩ r' b := by
  have hd : 0 < slots.length + 1 := Nat.succ_pos _
  have hin : (Reader.scanner ⟨slots, .name members token⟩).step b =
      .inside ((Scanner.mk (slots.length + 1) true token.isEscaped).inLiteral (Char.ofUInt8 b)) := rfl
  simp only [Reader.step] at h
  split at h
  · next t hfeed =>
    cases h
    exact Or.inr ⟨hd, trivial, by rw [hin, inLiteral_of_more hfeed]; rfl⟩
  · next s hfeed =>
    cases h
    exact Or.inr ⟨hd, trivial, by rw [hin, inLiteral_of_ended hfeed]; rfl⟩
  · cases h

/-- Inside a string. Its end delivers it. -/
theorem stepsAlike_of_string {token : StringToken} (hd : 0 < slots.length)
    (h : Reader.step ⟨slots, .string token⟩ b = some r') : StepsAlike ⟨slots, .string token⟩ r' b := by
  have hin : (Reader.scanner ⟨slots, .string token⟩).step b =
      .inside ((Scanner.mk slots.length true token.isEscaped).inLiteral (Char.ofUInt8 b)) := rfl
  simp only [Reader.step] at h
  split at h
  · next t hfeed =>
    cases h
    exact Or.inr ⟨hd, trivial, by rw [hin, inLiteral_of_more hfeed]; rfl⟩
  · next s hfeed =>
    cases h
    obtain ⟨hd', hl', hscan⟩ := scanner_deliver (v := .str s) hd
    exact Or.inr ⟨hd', hl', by rw [hin, inLiteral_of_ended hfeed, hscan]⟩
  · cases h

/-- Inside a number. Only the character behind it ends it, so that one is read twice. -/
theorem stepsAlike_of_number {token : NumberToken} (hd : 0 < slots.length)
    (h : Reader.step ⟨slots, .number token⟩ b = some r') : StepsAlike ⟨slots, .number token⟩ r' b := by
  simp only [Reader.step] at h
  split at h
  · next t hfeed =>
    cases h
    exact stepsAlike_of_not_mark rfl hd (isMark_of_more hfeed) rfl trivial
  · next j hfeed =>
    obtain ⟨hd', hl', hscan⟩ := scanner_deliver (v := j) hd
    refine (stepsAlike_of_afterValue ?_ hd' hl' h).congr hscan.symm
    cases slots with
    | nil => cases hd
    | cons slot rest => cases slot <;> rfl
  · cases h

/-- Inside one of the words for truth values and `null`. Its last letter delivers the value. -/
theorem stepsAlike_of_word {rest : List Char} {value : Json} (hd : 0 < slots.length)
    (hl : Mode.Inside (.word rest value)) (h : Reader.step ⟨slots, .word rest value⟩ b = some r') :
    StepsAlike ⟨slots, .word rest value⟩ r' b := by
  cases rest with
  | nil => cases h
  | cons w rest =>
    obtain ⟨hw, hrest⟩ := List.forall_mem_cons.mp hl
    simp only [Reader.step] at h
    split at h
    · next hc =>
      rw [← hc] at hw
      cases rest with
      | nil =>
        cases h
        obtain ⟨hd', hl', hscan⟩ := scanner_deliver (v := value) hd
        exact stepsAlike_of_not_mark rfl hd hw hscan hl'
      | cons w' rest =>
        cases h
        exact stepsAlike_of_not_mark rfl hd hw rfl hrest
    · cases h

/-- Each byte that the reader accepts inside an array or object moves the scanner alike. -/
theorem step_alike (hd : 0 < r.scanner.depth) (hl : r.mode.Inside) (h : r.step b = some r') :
    StepsAlike r r' b := by
  obtain ⟨slots, mode⟩ := r
  cases mode with
  | start => exact stepsAlike_of_skip rfl hd hl h fun h => stepsAlike_of_begin rfl hd h
  | firstElement =>
    refine stepsAlike_of_skip rfl hd hl h fun h => ?_
    split at h
    · next hc =>
      cases h
      exact stepsAlike_of_closing rfl rfl (by rw [hc]; rfl)
    · have hd' : 0 < (Slot.element [] :: slots).length := hd
      exact stepsAlike_of_begin rfl hd' h
  | firstName =>
    refine stepsAlike_of_skip rfl hd hl h fun h => ?_
    split at h
    · next hc =>
      cases h
      exact stepsAlike_of_closing rfl rfl (by rw [hc]; rfl)
    · split at h
      · next hc =>
        cases h
        exact stepsAlike_of_quote rfl hd rfl trivial hc
      · cases h
  | nextName members =>
    refine stepsAlike_of_skip rfl hd hl h fun h => ?_
    split at h
    · next hc =>
      cases h
      exact stepsAlike_of_quote rfl hd rfl trivial hc
    · cases h
  | afterName members name =>
    refine stepsAlike_of_skip rfl hd hl h fun h => ?_
    split at h
    · next hc =>
      cases h
      exact stepsAlike_of_not_mark rfl hd (by rw [hc]; rfl) rfl trivial
    · cases h
  | afterElement items => exact stepsAlike_of_afterValue rfl hd hl h
  | afterMember members => exact stepsAlike_of_afterValue rfl hd hl h
  | done value => exact absurd hl id
  | name members token => exact stepsAlike_of_name h
  | string token => exact stepsAlike_of_string hd h
  | number token => exact stepsAlike_of_number hd h
  | word rest value => exact stepsAlike_of_word hd hl h

end Machine

end Json
end Ovsdb
