import Ovsdb.Proofs.Framing.Malformed
import Ovsdb.Proofs.Framing.Reading

/-! The scanner's fields against the bytes that it has seen: they say how these are read as literals and brackets. -/

namespace Ovsdb.Framing

/-! ### The scan of a buffer -/

/-- Where the scan of a buffer stands. Its first `offset` bytes have been seen. -/
structure Cursor where
  offset : Nat
  scanner : Scanner

namespace Cursor

/-- A cursor at the beginning of a buffer. -/
def fresh : Cursor := ⟨0, .initial⟩

/-- Goes over bytes behind the cursor, up to the end of the current text, which is returned. -/
def advance (c : Cursor) : List UInt8 → Except Error (Option Nat) × Cursor
  | [] => (.ok none, c)
  | b :: rest =>
    match c.scanner.step b with
    | .inside s => advance ⟨c.offset + 1, s⟩ rest
    | .complete => (.ok (some (c.offset + 1)), fresh)
    | .stray => (.error (.protocol (.strayByte b)), ⟨c.offset + 1, c.scanner⟩)

/-- Looks for the end of the first text, from where the cursor is. -/
def scan (c : Cursor) (buffer : List UInt8) : Except Error (Option Nat) × Cursor :=
  c.advance (buffer.drop c.offset)

/-- The reader that holds a buffer. -/
def reader (c : Cursor) (buffer : List UInt8) : Reader :=
  ⟨(buffer.take c.offset).reverse, buffer.drop c.offset, c.scanner⟩

/-- What a reader makes of a scan. Only a complete text leaves the buffer. -/
def framed (buffer : List UInt8) : Except Error (Option Nat) × Cursor → Frame × Reader
  | (.ok none, c) => (.incomplete, c.reader buffer)
  | (.ok (some n), c) => (Reader.ofText (buffer.take n), c.reader (buffer.drop n))
  | (.error e, c) => (.fault e, c.reader buffer)

/-- The cursor has come through a buffer that grew from one scan to the next, and there was no text and no error. -/
inductive Reached : Cursor → List UInt8 → Prop where
  | fresh : Reached .fresh []
  | scan {c c' : Cursor} {buffer more : List UInt8} : Reached c buffer → c.scan (buffer ++ more) = (.ok none, c') →
      Reached c' (buffer ++ more)

end Cursor

/-- The cursor of a reader, whose buffer holds what it has scanned and what waits. -/
def Reader.cursor (r : Reader) : Cursor := ⟨r.scanned.length, r.scanner⟩

theorem scan_eq_framed (scanned : List UInt8) (s : Scanner) (waiting : List UInt8) :
    Reader.scan scanned s waiting =
      Cursor.framed (scanned.reverse ++ waiting) ((Cursor.mk scanned.length s).advance waiting) := by
  induction waiting generalizing scanned s with
  | nil =>
    have length : scanned.reverse.length = scanned.length := List.length_reverse
    rw [List.append_nil, Reader.scan, Cursor.advance]
    simp only [Cursor.framed, Cursor.reader, ← length, List.take_length, List.drop_length, List.reverse_reverse]
  | cons b rest ih =>
    have onto : scanned.reverse ++ b :: rest = (b :: scanned).reverse ++ rest := by
      rw [List.reverse_cons, List.append_assoc, List.singleton_append]
    have length : (b :: scanned).reverse.length = scanned.length + 1 := List.length_reverse
    rw [onto, Reader.scan, Cursor.advance]
    cases s.step b with
    | inside s => exact ih (b :: scanned) s
    | complete => simp only [Cursor.framed, Cursor.reader, Cursor.fresh, ← length, List.take_left, List.drop_left,
        List.take_zero, List.drop_zero, List.reverse_nil]
    | stray => simp only [Cursor.framed, Cursor.reader, ← length, List.take_left, List.drop_left, List.reverse_reverse]

/-- A reader scans its buffer from where its cursor stands. -/
theorem poll_eq_framed (r : Reader) : r.poll = Cursor.framed r.held (r.cursor.scan r.held) := by
  have behind : r.held.drop r.scanned.length = r.waiting := by
    rw [Reader.held, ← List.length_reverse, List.drop_left]
  rw [Reader.poll, scan_eq_framed, Cursor.scan, Reader.cursor, behind, Reader.held]

/-! ### One byte -/

namespace Scanner

section
variable {s s' : Scanner} {b : UInt8} {c : Char} {bytes more out body : List UInt8}

theorem isClosing_of_isOpening (h : isOpening c = true) : isClosing c = false ∧ c ≠ '"' ∧ isGap c = false := by
  simp only [isOpening, decide_eq_true_eq] at h
  rcases h with rfl | rfl <;> decide

theorem isOpening_of_isClosing (h : isClosing c = true) : isOpening c = false ∧ c ≠ '"' ∧ isGap c = false := by
  simp only [isClosing, decide_eq_true_eq] at h
  rcases h with rfl | rfl <;> decide

theorem isMark_eq_false : isMark c = false ↔ isOpening c = false ∧ isClosing c = false ∧ c ≠ '"' := by
  simp only [isMark, isOpening, isClosing, decide_eq_false_iff_not, not_or, ne_eq]
  tauto

theorem isMark_of_isGap (h : isGap c = true) : isMark c = false := by
  simp only [isGap, decide_eq_true_eq] at h
  rcases h with rfl | rfl | rfl | rfl | rfl <;> rfl

/-- All that a byte inside a text, or in the gap before one, can do. -/
theorem step_eq_inside (h : s.step b = .inside s') :
    (s.inString = true ∧ s' = s.inLiteral (Char.ofUInt8 b)) ∨
    (s.inString = false ∧ isOpening (Char.ofUInt8 b) = true ∧ s' = { s with depth := s.depth + 1 }) ∨
    (s.inString = false ∧ isClosing (Char.ofUInt8 b) = true ∧ 1 < s.depth ∧ s' = { s with depth := s.depth - 1 }) ∨
    (s.inString = false ∧ b = quote ∧ 0 < s.depth ∧ s' = { s with inString := true }) ∨
    (s.inString = false ∧ isMark (Char.ofUInt8 b) = false ∧ s' = s ∧
      (0 < s.depth ∨ isGap (Char.ofUInt8 b) = true)) := by
  simp only [step] at h
  split at h
  · next literal => exact .inl ⟨literal, (Scanned.inside.inj h).symm⟩
  next outside =>
  rw [Bool.not_eq_true] at outside
  refine .inr ?_
  split at h
  · next opening => exact .inl ⟨outside, decide_eq_true opening, (Scanned.inside.inj h).symm⟩
  next notOpening =>
  refine .inr ?_
  split at h
  · split at h
    · next gap => exact .inr (.inr ⟨outside, isMark_of_isGap gap, (Scanned.inside.inj h).symm, .inr gap⟩)
    · cases h
  next deep =>
  -- From here on the byte is inside a text, where anything may stand but the bracket that ends it.
  have deep : 0 < s.depth := Nat.pos_of_ne_zero deep
  split at h
  · next closing =>
    split at h
    · cases h
    · next deeper =>
      exact .inl ⟨outside, decide_eq_true closing, by omega, (Scanned.inside.inj h).symm⟩
  next notClosing =>
  refine .inr ?_
  split at h
  · next isQuote => exact .inl ⟨outside, ofUInt8_eq_quote.mp isQuote, deep, (Scanned.inside.inj h).symm⟩
  · next notQuote =>
    refine .inr ⟨outside, ?_, (Scanned.inside.inj h).symm, .inl deep⟩
    exact isMark_eq_false.mpr ⟨decide_eq_false notOpening, decide_eq_false notClosing, notQuote⟩

theorem step_eq_complete (h : s.step b = .complete) :
    s.inString = false ∧ isClosing (Char.ofUInt8 b) = true ∧ s.depth = 1 := by
  simp only [step] at h
  split at h
  · cases h
  next outside =>
  split at h
  · cases h
  split at h
  · split at h <;> cases h
  split at h
  · next closing =>
    split at h
    · next last => exact ⟨Bool.eq_false_iff.mpr outside, decide_eq_true closing, last⟩
    · cases h
  · split at h <;> cases h

/-- A byte outside literals, but a quote, raises or lowers the depth or leaves it. -/
theorem step_outside (outside : s.inString = false) (differs : b ≠ quote) (h : s.step b = .inside s') :
    s'.inString = false ∧ s'.escaped = s.escaped ∧
      s'.depth + (if isClosing (Char.ofUInt8 b) then 1 else 0) =
        s.depth + (if isOpening (Char.ofUInt8 b) then 1 else 0) := by
  rcases step_eq_inside h with ⟨literal, -⟩ | ⟨-, opening, rfl⟩ | ⟨-, closing, deep, rfl⟩ | ⟨-, isQuote, -⟩ |
    ⟨-, plain, rfl, -⟩
  · exact absurd literal (Bool.eq_false_iff.mp outside)
  · exact ⟨outside, rfl, by simp [opening, (isClosing_of_isOpening opening).1]⟩
  · refine ⟨outside, rfl, ?_⟩
    simp only [closing, (isOpening_of_isClosing closing).1, if_true]
    exact Nat.sub_add_cancel (Nat.le_of_lt deep)
  · exact absurd isQuote differs
  · obtain ⟨noOpening, noClosing, -⟩ := isMark_eq_false.mp plain
    exact ⟨outside, rfl, by simp [noOpening, noClosing]⟩

/-- Outside literals a quote opens one, which only happens inside a text. -/
theorem step_quote (outside : s.inString = false) (h : s.step quote = .inside s') :
    0 < s.depth ∧ s' = { s with inString := true } := by
  rcases step_eq_inside h with ⟨literal, -⟩ | ⟨-, opening, -⟩ | ⟨-, closing, -⟩ | ⟨-, -, deep, rfl⟩ | ⟨-, plain, -⟩
  · exact absurd literal (Bool.eq_false_iff.mp outside)
  · exact absurd rfl (isClosing_of_isOpening opening).2.1
  · exact absurd rfl (isOpening_of_isClosing closing).2.1
  · exact ⟨deep, rfl⟩
  · exact absurd rfl (isMark_eq_false.mp plain).2.2

theorem inLiteral_depth (s : Scanner) (c : Char) : (s.inLiteral c).depth = s.depth := by
  rw [inLiteral]
  repeat' split
  all_goals rfl

/-- Each flag in a literal is about the last byte alone and whether it was escaped. -/
theorem inLiteral_eq (literal : s.inString = true) (b : UInt8) :
    s.inLiteral (Char.ofUInt8 b) =
      ⟨s.depth, decide (b = quote → s.escaped = true), decide (b = backslash ∧ s.escaped = false)⟩ := by
  obtain ⟨depth, inString, escaped⟩ := s
  obtain rfl : inString = true := literal
  rw [inLiteral]
  simp only [ofUInt8_eq_quote, ofUInt8_eq_backslash]
  cases escaped with
  | true => simp
  | false =>
    have apart : quote ≠ backslash := by decide
    by_cases slash : b = backslash
    · simp [slash, apart.symm]
    · by_cases isQuote : b = quote
      · simp [isQuote, apart]
      · simp [slash, isQuote]

theorem step_literal (literal : s.inString = true) (h : s.step b = .inside s') :
    s' = s.inLiteral (Char.ofUInt8 b) := by
  rw [step, if_pos literal] at h
  exact (Scanned.inside.inj h).symm

theorem step_deep (deep : 0 < s.depth) (h : s.step b = .inside s') : 0 < s'.depth := by
  rcases step_eq_inside h with ⟨-, rfl⟩ | ⟨-, -, rfl⟩ | ⟨-, -, deeper, rfl⟩ | ⟨-, -, -, rfl⟩ | ⟨-, -, rfl, -⟩
  · rwa [inLiteral_depth]
  · exact Nat.succ_pos _
  · exact Nat.sub_pos_of_lt deeper
  · exact deep
  · exact deep

/-- Between texts there are gaps, until a bracket opens a text. -/
theorem step_initial (h : step .initial b = .inside s') :
    (isGap (Char.ofUInt8 b) = true ∧ s' = .initial) ∨ (isGap (Char.ofUInt8 b) = false ∧ 0 < s'.depth) := by
  rcases step_eq_inside h with ⟨literal, -⟩ | ⟨-, opening, rfl⟩ | ⟨-, -, deep, -⟩ | ⟨-, -, deep, -⟩ |
    ⟨-, -, rfl, deep | gap⟩
  · cases literal
  · exact .inr ⟨(isClosing_of_isOpening opening).2.2, Nat.succ_pos _⟩
  · cases deep
  · cases deep
  · cases deep
  · exact .inl ⟨gap, rfl⟩

/-! ### Many bytes -/

/-- The scanner behind so many bytes, if none of them ends its text or is an error. -/
def run (s : Scanner) : List UInt8 → Option Scanner
  | [] => some s
  | b :: rest =>
    match s.step b with
    | .inside s' => s'.run rest
    | _ => none

theorem run_append (s : Scanner) (bytes more : List UInt8) :
    s.run (bytes ++ more) = (s.run bytes).bind (·.run more) := by
  induction bytes generalizing s with
  | nil => rfl
  | cons b rest ih =>
    rw [List.cons_append, run, run]
    cases s.step b with
    | inside s' => exact ih s'
    | complete | stray => rfl

theorem run_concat : s.run (bytes ++ [b]) = some s' ↔ ∃ q, s.run bytes = some q ∧ q.step b = .inside s' := by
  rw [run_append, Option.bind_eq_some_iff]
  refine exists_congr fun q => and_congr_right fun _ => ?_
  cases stepped : q.step b <;> simp [run, stepped]

/-- The scanner's fields are what is to be said of bytes, whether these end outside literals or within one. -/
structure Tells (s : Scanner) (bytes : List UInt8) : Prop where
  outside {out : List UInt8} : Outside bytes out →
    s.inString = false ∧ s.escaped = false ∧ s.depth + closings out = openings out
  within {out body : List UInt8} : Within bytes out body →
    s.inString = true ∧ (s.escaped = true ↔ Odd (backslashes body)) ∧ s.depth + closings out = openings out ∧
      0 < s.depth

theorem tells_initial : Tells .initial [] where
  outside h := by rw [outside_nil.mp h]; exact ⟨rfl, rfl, rfl⟩
  within h := absurd h not_within_nil

/-- What one byte keeps: the scanner goes on to tell of the bytes with this one behind them. -/
theorem Tells.step (told : Tells s bytes) (h : s.step b = .inside s') : Tells s' (bytes ++ [b]) where
  outside reading := by
    rcases outside_concat.mp reading with ⟨differs, out, rfl, outside⟩ | ⟨rfl, body, within, even⟩
    · obtain ⟨noString, noEscape, depth⟩ := told.outside outside
      obtain ⟨stillNone, same, change⟩ := step_outside noString differs h
      refine ⟨stillNone, same.trans noEscape, ?_⟩
      rw [openings_concat, closings_concat]
      omega
    · obtain ⟨literal, escape, depth, -⟩ := told.within within
      have noEscape : s.escaped = false :=
        Bool.eq_false_iff.mpr fun escaped => Nat.not_even_iff_odd.mpr (escape.mp escaped) even
      obtain rfl := step_literal literal h
      rw [inLiteral_eq literal, noEscape]
      exact ⟨rfl, rfl, depth⟩
  within reading := by
    rcases within_concat.mp reading with ⟨rfl, rfl, outside⟩ | ⟨body, rfl, within, more⟩
    · obtain ⟨noString, noEscape, depth⟩ := told.outside outside
      obtain ⟨deep, rfl⟩ := step_quote noString h
      exact ⟨rfl, by simp [noEscape, backslashes_nil], depth, deep⟩
    · obtain ⟨literal, escape, depth, deep⟩ := told.within within
      obtain rfl := step_literal literal h
      -- A backslash makes an even run odd and an odd one even, and any other byte ends the run.
      have escapes : b = backslash ∧ s.escaped = false ↔ Odd (backslashes (body ++ [b])) := by
        rw [backslashes_concat, ← Bool.not_eq_true, escape]
        split
        case isTrue slash => rw [Nat.odd_add_one, and_iff_right slash]
        case isFalse other => exact iff_of_false (fun slash => other slash.1) Nat.not_odd_zero
      rw [inLiteral_eq literal, decide_eq_true_eq, decide_eq_true_eq]
      exact ⟨fun isQuote => escape.mpr (more isQuote), escapes, depth, deep⟩

theorem tells_of_run (h : run .initial bytes = some s) : Tells s bytes := by
  induction bytes using List.reverseRecOn generalizing s with
  | nil =>
    obtain rfl := Option.some.inj h
    exact tells_initial
  | append_singleton bytes b ih =>
    obtain ⟨q, ran, stepped⟩ := run_concat.mp h
    exact (ih ran).step stepped

/-- Either nothing but gaps has been seen, or a text is open. -/
theorem idle_or_deep (h : run .initial bytes = some s) :
    (s = .initial ∧ ∀ b ∈ bytes, isGap (Char.ofUInt8 b) = true) ∨
      (0 < s.depth ∧ ∃ b ∈ bytes, isGap (Char.ofUInt8 b) = false) := by
  induction bytes using List.reverseRecOn generalizing s with
  | nil =>
    obtain rfl := Option.some.inj h
    exact .inl ⟨rfl, fun b mem => absurd mem List.not_mem_nil⟩
  | append_singleton bytes b ih =>
    obtain ⟨q, ran, stepped⟩ := run_concat.mp h
    rcases ih ran with ⟨rfl, gaps⟩ | ⟨deep, byte, mem, noGap⟩
    · rcases step_initial stepped with ⟨gap, rfl⟩ | ⟨noGap, deep⟩
      · exact .inl ⟨rfl, List.forall_mem_append.mpr ⟨gaps, List.forall_mem_singleton.mpr gap⟩⟩
      · exact .inr ⟨deep, b, List.mem_append_right _ (List.mem_singleton_self b), noGap⟩
    · exact .inr ⟨step_deep deep stepped, byte, List.mem_append_left _ mem, noGap⟩

/-! ### What the fields say -/

theorem Tells.depth (told : Tells s bytes) (reads : Reads bytes out) : s.depth + closings out = openings out := by
  rcases reads with outside | ⟨body, within⟩
  · exact (told.outside outside).2.2
  · exact (told.within within).2.2.1

theorem Tells.not_balanced (told : Tells s bytes) (deep : 0 < s.depth) : ¬Balanced bytes := by
  rintro ⟨out, reads, same⟩
  have depth := told.depth reads
  omega

theorem Tells.exists_within (told : Tells s bytes) (literal : s.inString = true) :
    ∃ out body, Within bytes out body ∧ closings out < openings out := by
  obtain ⟨out, outside | ⟨body, within⟩⟩ := exists_reads bytes
  · exact absurd literal (Bool.eq_false_iff.mp (told.outside outside).1)
  · obtain ⟨-, -, depth, deep⟩ := told.within within
    exact ⟨out, body, within, by omega⟩

theorem Tells.inString (told : Tells s bytes) :
    s.inString = true ↔ ∃ out body, Within bytes out body ∧ closings out < openings out :=
  ⟨told.exists_within, fun ⟨_, _, within, _⟩ => (told.within within).1⟩

theorem Tells.escaped (told : Tells s bytes) : s.escaped = true ↔
    ∃ out body, Within bytes out body ∧ closings out < openings out ∧ Odd (backslashes body) := by
  constructor
  · intro escaped
    obtain ⟨out, outside | ⟨body, within⟩⟩ := exists_reads bytes
    · exact absurd escaped (Bool.eq_false_iff.mp (told.outside outside).2.1)
    · obtain ⟨-, escape, depth, deep⟩ := told.within within
      exact ⟨out, body, within, by omega, escape.mp escaped⟩
  · rintro ⟨out, body, within, -, odd⟩
    exact (told.within within).2.1.mpr odd

theorem Tells.deep (told : Tells s bytes) (literal : s.inString = true) : 0 < s.depth := by
  obtain ⟨out, body, within, -⟩ := told.exists_within literal
  exact (told.within within).2.2.2

/-- No prefix of what has been gone over closes more brackets than it opens. -/
theorem closings_le_openings (h : run .initial (bytes ++ more) = some s) (reads : Reads bytes out) :
    closings out ≤ openings out := by
  rw [run_append] at h
  obtain ⟨q, ran, -⟩ := Option.bind_eq_some_iff.mp h
  exact Nat.le.intro ((Nat.add_comm _ _).trans ((tells_of_run ran).depth reads))

theorem isIdle_iff (h : run .initial bytes = some s) :
    s.isIdle = true ↔ ∀ b ∈ bytes, isGap (Char.ofUInt8 b) = true := by
  rcases idle_or_deep h with ⟨rfl, gaps⟩ | ⟨deep, b, mem, noGap⟩
  · exact iff_of_true rfl gaps
  · refine iff_of_false (fun idle => ?_) fun gaps => Bool.false_ne_true (noGap.symm.trans (gaps b mem))
    exact Nat.ne_of_gt deep (of_decide_eq_true idle).1

end
end Scanner

/-! ### Scans -/

namespace Cursor

/-- What the fields of a cursor say of the bytes that it has come through. -/
structure Means (c : Cursor) (seen : List UInt8) : Prop where
  offset : c.offset = seen.length
  inString : c.scanner.inString = true ↔ ∃ out body, Within seen out body ∧ closings out < openings out
  escaped : c.scanner.escaped = true ↔
    ∃ out body, Within seen out body ∧ closings out < openings out ∧ Odd (backslashes body)
  depth : ∀ out, Reads seen out → c.scanner.depth + closings out = openings out
  never_below : ∀ before after, seen = before ++ after → ∀ out, Reads before out → closings out ≤ openings out
  deep : c.scanner.inString = true → 0 < c.scanner.depth
  idle : c.scanner.isIdle = true ↔ ∀ b ∈ seen, Scanner.isGap (Char.ofUInt8 b) = true

/-- The first text in a buffer ends behind its `n`th byte, which closes the last bracket that is open. -/
structure EndsAt (buffer : List UInt8) (n : Nat) : Prop where
  bound : n ≤ buffer.length
  closing : ∃ before b out, buffer.take n = before ++ [b] ∧ Scanner.isClosing (Char.ofUInt8 b) = true ∧
    Outside before out ∧ openings out = closings out + 1
  balanced : Balanced (buffer.take n)
  first : ∀ m < n, (∃ b ∈ buffer.take m, Scanner.isGap (Char.ofUInt8 b) = false) → ¬Balanced (buffer.take m)

section
variable {c c' : Cursor} {buffer bytes more : List UInt8} {n : Nat}

theorem advance_eq_none (h : c.advance bytes = (.ok none, c')) :
    c.scanner.run bytes = some c'.scanner ∧ c'.offset = c.offset + bytes.length := by
  induction bytes generalizing c with
  | nil =>
    obtain rfl := (Prod.mk.inj h).2
    exact ⟨rfl, rfl⟩
  | cons b rest ih =>
    rw [advance] at h
    rw [Scanner.run]
    cases stepped : c.scanner.step b <;> rw [stepped] at h
    case inside s =>
      obtain ⟨ran, offset⟩ := ih h
      exact ⟨ran, by rw [offset, List.length_cons, Nat.add_assoc, Nat.add_comm 1]⟩
    case complete => cases (Prod.mk.inj h).1
    case stray => cases (Prod.mk.inj h).1

theorem advance_eq_some (h : c.advance bytes = (.ok (some n), c')) :
    ∃ before b after s, bytes = before ++ b :: after ∧ c.scanner.run before = some s ∧ s.step b = .complete ∧
      n = c.offset + before.length + 1 ∧ c' = .fresh := by
  induction bytes generalizing c with
  | nil => cases (Prod.mk.inj h).1
  | cons b rest ih =>
    rw [advance] at h
    cases stepped : c.scanner.step b <;> rw [stepped] at h
    case inside s =>
      obtain ⟨before, d, after, s', rfl, ran, completes, stops, isFresh⟩ := ih h
      refine ⟨b :: before, d, after, s', rfl, by rw [Scanner.run, stepped]; exact ran, completes, ?_, isFresh⟩
      rw [stops, List.length_cons, Nat.add_right_comm c.offset 1, Nat.add_assoc c.offset]
    case complete =>
      obtain ⟨atEnd, rfl⟩ := Prod.mk.inj h
      exact ⟨[], b, rest, c.scanner, rfl, rfl, stepped, (Option.some.inj (Except.ok.inj atEnd)).symm, rfl⟩
    case stray => cases (Prod.mk.inj h).1

theorem Reached.run (h : Reached c buffer) :
    Scanner.run .initial buffer = some c.scanner ∧ c.offset = buffer.length := by
  induction h with
  | fresh => exact ⟨rfl, rfl⟩
  | @scan c c' buffer more reached scanned ih =>
    obtain ⟨ran, offset⟩ := ih
    rw [Cursor.scan, offset, List.drop_left] at scanned
    obtain ⟨further, offset'⟩ := advance_eq_none scanned
    refine ⟨?_, by rw [offset', offset, List.length_append]⟩
    rw [Scanner.run_append, ran]
    exact further

theorem Reached.means (h : Reached c buffer) : c.Means buffer := by
  obtain ⟨ran, offset⟩ := h.run
  have told := Scanner.tells_of_run ran
  exact {
    offset := offset
    inString := told.inString
    escaped := told.escaped
    depth := fun out reads => told.depth reads
    never_below := fun before after split out reads => Scanner.closings_le_openings (split ▸ ran) reads
    deep := told.deep
    idle := Scanner.isIdle_iff ran }

/-- Before a text is complete a bracket is open, but where there are only gaps. -/
theorem endsAt_of_complete {before after : List UInt8} {b : UInt8} {s : Scanner}
    (ran : Scanner.run .initial before = some s) (completes : s.step b = .complete) :
    EndsAt (before ++ b :: after) (before.length + 1) := by
  obtain ⟨noString, closing, last⟩ := Scanner.step_eq_complete completes
  have told := Scanner.tells_of_run ran
  obtain ⟨out, outside⟩ : ∃ out, Outside before out := by
    obtain ⟨out, outside | ⟨body, within⟩⟩ := exists_reads before
    · exact ⟨out, outside⟩
    · exact absurd (told.within within).1 (Bool.eq_false_iff.mp noString)
  have oneOpen : openings out = closings out + 1 := by
    rw [← (told.outside outside).2.2, last, Nat.add_comm]
  obtain ⟨notOpening, notQuote, -⟩ := Scanner.isOpening_of_isClosing closing
  have text : (before ++ b :: after).take (before.length + 1) = before ++ [b] := by
    rw [List.take_length_add_append, List.take_succ_cons, List.take_zero]
  refine ⟨?_, ⟨before, b, out, text, closing, outside, oneOpen⟩, ?_, fun m less someByte => ?_⟩
  · rw [List.length_append, List.length_cons]
    omega
  · rw [text]
    refine ⟨out ++ [b], .inl (.byte outside fun isQuote => notQuote (ofUInt8_eq_quote.mpr isQuote)), ?_⟩
    rw [openings_concat, closings_concat, oneOpen, if_pos closing, if_neg (Bool.eq_false_iff.mp notOpening)]
  · rw [List.take_append_of_le_length (Nat.le_of_lt_succ less)] at someByte ⊢
    rw [← List.take_append_drop m before, Scanner.run_append] at ran
    obtain ⟨q, ran, -⟩ := Option.bind_eq_some_iff.mp ran
    obtain ⟨b, mem, noGap⟩ := someByte
    rcases Scanner.idle_or_deep ran with ⟨-, gaps⟩ | ⟨deep, -⟩
    · exact absurd (noGap.symm.trans (gaps b mem)) Bool.false_ne_true
    · exact (Scanner.tells_of_run ran).not_balanced deep

theorem Reached.endsAt (h : Reached c buffer) (scanned : c.scan (buffer ++ more) = (.ok (some n), c')) :
    EndsAt (buffer ++ more) n ∧ c' = .fresh := by
  obtain ⟨ran, offset⟩ := h.run
  rw [Cursor.scan, offset, List.drop_left] at scanned
  obtain ⟨before, b, after, s, rfl, further, completes, rfl, rfl⟩ := advance_eq_some scanned
  have through : Scanner.run .initial (buffer ++ before) = some s := by
    rw [Scanner.run_append, ran]
    exact further
  rw [offset, ← List.length_append, ← List.append_assoc]
  exact ⟨endsAt_of_complete through completes, rfl⟩

end

/-- The scanner's fields say what has been seen. Over any number of scans of a buffer that grows, without a text or an
    error, they tell where it ends: how many bytes there are, whether the last literal is still open and its next byte
    escaped, and how many brackets are open outside literals. A text ends with the byte that closes the last of them,
    not before; then the scan starts anew, as a reader does that has only got what is behind the text. -/
theorem fields_mean_what_was_seen :
    (∀ bytes, ∃! out, Reads bytes out) ∧
    (∀ c buffer, Reached c buffer → c.Means buffer ∧ ∀ more n c', c.scan (buffer ++ more) = (.ok (some n), c') →
      EndsAt (buffer ++ more) n ∧ c' = .fresh ∧
        c'.reader ((buffer ++ more).drop n) = Reader.empty.extend ((buffer ++ more).drop n)) ∧
    ∀ r : Reader, r.poll = framed r.held (r.cursor.scan r.held) := by
  refine ⟨existsUnique_reads, fun c buffer reached => ⟨reached.means, fun more n c' scanned => ?_⟩, poll_eq_framed⟩
  obtain ⟨endsAt, rfl⟩ := reached.endsAt scanned
  exact ⟨endsAt, rfl, rfl⟩

/-- The scan of a string is taken up behind a backslash, and the quote after it does not end the string, so that the
    bracket in there does not end the text. -/
theorem fields_mean_what_was_seen_escaped :
    let cut := "[\"\\".toUTF8.data.toList
    let rest := "\"]\"] ".toUTF8.data.toList
    ∃ c, Reached c cut ∧ c.Means cut ∧ c.scanner = ⟨1, true, true⟩ ∧ c.scan (cut ++ rest) = (.ok (some 7), .fresh) ∧
      EndsAt (cut ++ rest) 7 := by
  intro cut rest
  have reached : Reached ⟨3, ⟨1, true, true⟩⟩ cut := .scan .fresh rfl
  obtain ⟨-, said, -⟩ := fields_mean_what_was_seen
  obtain ⟨means, ends⟩ := said _ cut reached
  have scanned : (Cursor.mk 3 ⟨1, true, true⟩).scan (cut ++ rest) = (.ok (some 7), .fresh) := rfl
  exact ⟨_, reached, means, rfl, scanned, (ends rest 7 .fresh scanned).1⟩

end Cursor
end Ovsdb.Framing
