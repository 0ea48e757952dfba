import Mathlib.Algebra.Group.Nat.Defs
import Ovsdb.Text.Digits

/-! Reading a number digit by digit, with an end at the first digit at which it outgrows a 64-bit word, gives the
    number that the whole run denotes, and fails only if that number is too large, however long the run is. -/

namespace Ovsdb.Text

/-- One decimal digit or more. The first ones may be zeros. -/
def IsRun (s : List Char) : Prop :=
  s ≠ [] ∧ ∀ c ∈ s, c.isDigit = true

variable {s run : List Char} {c : Char} {n : Nat}

@[simp]
theorem isDigits_iff : isDigits s = true ↔ IsRun s := by
  simp [isDigits, IsRun]

/-- More digits do not make a number smaller. -/
theorem le_ofDigitChars (run : List Char) (n : Nat) : n ≤ Nat.ofDigitChars 10 run n := by
  rw [Nat.ofDigitChars_eq_ofDigitChars_zero]
  calc n ≤ 10 ^ run.length * n := Nat.le_mul_of_pos_left n (Nat.pow_pos (by decide))
    _ ≤ _ := Nat.le_add_right _ _

/-! ### Runs -/

theorem pushDigit_of_digit (digit : c.isDigit = true) : pushDigit n c =
    if Nat.ofDigitChars 10 [c] n < UInt64.size then some (Nat.ofDigitChars 10 [c] n) else none := by
  simp [pushDigit, digit, Nat.ofDigitChars_cons]

theorem foldlM_pushDigit (digits : ∀ c ∈ run, c.isDigit = true) (fits : n < UInt64.size) : run.foldlM pushDigit n =
    if Nat.ofDigitChars 10 run n < UInt64.size then some (Nat.ofDigitChars 10 run n) else none := by
  induction run generalizing n with
  | nil => exact (if_pos fits).symm
  | cons c rest ih =>
    obtain ⟨digit, others⟩ := List.forall_mem_cons.mp digits
    have whole : Nat.ofDigitChars 10 (c :: rest) n = Nat.ofDigitChars 10 rest (Nat.ofDigitChars 10 [c] n) :=
      Nat.ofDigitChars_append n (l := [c])
    rw [List.foldlM_cons, pushDigit_of_digit digit, whole]
    by_cases next : Nat.ofDigitChars 10 [c] n < UInt64.size
    · rw [if_pos next]
      exact ih others next
    · -- A number that is too large already stays too large.
      have outgrown := le_ofDigitChars rest (Nat.ofDigitChars 10 [c] n)
      rw [if_neg next, if_neg (by omega)]
      rfl

theorem foldlM_pushDigit_of_stray (stray : ∃ c ∈ s, c.isDigit = false) : s.foldlM pushDigit n = none := by
  induction s generalizing n with
  | nil => simp at stray
  | cons c rest ih =>
    rw [List.foldlM_cons, pushDigit]
    cases digit : c.isDigit with
    | false => rfl
    | true =>
      have later : ∃ c ∈ rest, c.isDigit = false := by simpa [digit] using stray
      split
      · exact ih later
      · rfl

theorem word?_of_run (h : IsRun run) : word? run =
    if Nat.ofDigitChars 10 run 0 < UInt64.size then some (Nat.ofDigitChars 10 run 0) else none := by
  rw [word?, List.isEmpty_eq_false_iff.mpr h.1]
  exact foldlM_pushDigit h.2 (by decide)

theorem word?_eq_some : word? s = some n ↔ IsRun s ∧ Nat.ofDigitChars 10 s 0 = n ∧ n < UInt64.size := by
  by_cases h : IsRun s
  · rw [word?_of_run h, Option.ite_none_right_eq_some, Option.some_inj]
    constructor
    · rintro ⟨fits, rfl⟩
      exact ⟨h, rfl, fits⟩
    · rintro ⟨-, rfl, fits⟩
      exact ⟨fits, rfl⟩
  · have unread : word? s = none := by
      rw [word?]
      split
      · rfl
      · next full =>
        rw [List.isEmpty_iff] at full
        have stray : ∃ c ∈ s, c.isDigit = false := by simpa [IsRun, full] using h
        exact foldlM_pushDigit_of_stray stray
    simp [unread, h]

/-! ### Runs with a sign -/

theorem parseWord_of_unsigned (h : ∀ rest, s ≠ '+' :: rest) : parseWord s = word? s := by
  rw [parseWord]
  exact h

theorem IsRun.unsigned (h : IsRun run) (rest : List Char) : run ≠ '+' :: rest := by
  rintro rfl
  exact absurd (h.2 '+' List.mem_cons_self) (by decide)

theorem parseWord_of_run (h : IsRun run) : parseWord run = word? run :=
  parseWord_of_unsigned h.unsigned

/-- The text is a run of digits with this value, which may have a plus sign in front and fits a 64-bit word. -/
def Numeral (s : List Char) (n : Nat) : Prop :=
  ∃ run, (s = run ∨ s = '+' :: run) ∧ IsRun run ∧ Nat.ofDigitChars 10 run 0 = n ∧ n ≤ 2 ^ 64 - 1

theorem parseWord_eq_some : parseWord s = some n ↔ Numeral s n := by
  have bound : n < UInt64.size ↔ n ≤ 2 ^ 64 - 1 := Nat.lt_succ_iff
  by_cases signed : ∃ rest, s = '+' :: rest
  · obtain ⟨rest, rfl⟩ := signed
    rw [parseWord, word?_eq_some, bound]
    constructor
    · exact fun read => ⟨rest, .inr rfl, read⟩
    · rintro ⟨run, rfl | same, digits, value⟩
      · exact absurd rfl (digits.unsigned rest)
      · obtain rfl : rest = run := (List.cons.inj same).2
        exact ⟨digits, value⟩
  · rw [parseWord_of_unsigned fun rest same => signed ⟨rest, same⟩, word?_eq_some, bound]
    constructor
    · exact fun read => ⟨s, .inl rfl, read⟩
    · rintro ⟨run, rfl | rfl, read⟩
      · exact read
      · exact absurd ⟨run, rfl⟩ signed

theorem Numeral.unique {m : Nat} (h : Numeral s m) (h' : Numeral s n) : m = n :=
  Option.some.inj ((parseWord_eq_some.mpr h).symm.trans (parseWord_eq_some.mpr h'))

end Ovsdb.Text
