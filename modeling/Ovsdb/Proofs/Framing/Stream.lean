import Ovsdb.Framing.Reader

/-! What a reader returns does not depend on the reads in which its bytes arrive: bytes that are read later are
    bytes that wait behind the ones at hand. -/

namespace Ovsdb.Framing.Reader

/-- The results of so many calls, one after another. -/
def outcomes : Nat → Reader → List (List UInt8) → List (Except Error (Option Json))
  | 0, _, _ => []
  | k + 1, r, reads => (r.nextFrame reads).1 :: outcomes k (r.nextFrame reads).2.1 (r.nextFrame reads).2.2

section
variable {r r' : Reader} {reads : List (List UInt8)} {bytes more scanned : List UInt8} {scanner : Scanner} {k : Nat}

theorem outcomes_one (r : Reader) (reads : List (List UInt8)) : outcomes 1 r reads = [(r.nextFrame reads).1] := rfl

@[simp]
theorem extend_nil (r : Reader) : r.extend [] = r := by
  rw [extend, List.append_nil]

@[simp]
theorem extend_extend (r : Reader) (bytes more : List UInt8) :
    (r.extend bytes).extend more = r.extend (bytes ++ more) := by
  simp only [extend, List.append_assoc]

/-! ### Scanning -/

/-- What is scanned before the bytes at hand run out does not depend on those behind them. -/
theorem scan_append (scanned : List UInt8) (scanner : Scanner) (bytes more : List UInt8) :
    scan scanned scanner (bytes ++ more) =
      match scan scanned scanner bytes with
      | (.incomplete, r) => (r.extend more).poll
      | (frame, r) => (frame, r.extend more) := by
  induction bytes generalizing scanned scanner with
  | nil => rfl
  | cons b rest ih =>
    rw [List.cons_append, scan, scan]
    cases scanner.step b with
    | inside s => exact ih (b :: scanned) s
    | complete => simp only [ofText]; cases Json.read (b :: scanned).reverse <;> rfl
    | stray => rfl

theorem poll_extend (r : Reader) (bytes : List UInt8) :
    (r.extend bytes).poll =
      match r.poll with
      | (.incomplete, r) => (r.extend bytes).poll
      | (frame, r) => (frame, r.extend bytes) :=
  scan_append r.scanned r.scanner r.waiting bytes

/-! ### Calls -/

theorem nextFrame_of_value {j : Json} (h : r.poll = (.value j, r')) :
    r.nextFrame reads = (.ok (some j), r', reads) := by
  rw [nextFrame.eq_def, h]

theorem nextFrame_of_fault {e : Error} (h : r.poll = (.fault e, r')) :
    r.nextFrame reads = (.error e, r', reads) := by
  rw [nextFrame.eq_def, h]

theorem nextFrame_at_end (h : r.poll = (.incomplete, r')) :
    r.nextFrame [] = ((r'.atEnd.1).map fun _ => none, r'.atEnd.2, []) := by
  rw [nextFrame.eq_def, h]

theorem nextFrame_of_read {read : List UInt8} (h : r.poll = (.incomplete, r')) (hread : read ≠ []) :
    r.nextFrame (read :: reads) = (r'.extend read).nextFrame reads := by
  cases read with
  | nil => exact absurd rfl hread
  | cons b chunk => rw [nextFrame.eq_def, h]

theorem nextFrame_nil (r : Reader) : (r.nextFrame []).2.2 = [] := by
  rcases hp : r.poll with ⟨frame, r'⟩
  cases frame with
  | value j => rw [nextFrame_of_value hp]
  | fault e => rw [nextFrame_of_fault hp]
  | incomplete => rw [nextFrame_at_end hp]

/-- A reader whose bytes at hand amount to nothing goes on as if it had just scanned them. -/
theorem nextFrame_extend_of_incomplete (h : r.poll = (.incomplete, r')) :
    (r.extend bytes).nextFrame [] = (r'.extend bytes).nextFrame [] := by
  have hpoll := poll_extend r bytes
  rw [h] at hpoll
  rw [nextFrame.eq_def, nextFrame.eq_def, hpoll]

/-- A call with reads to come does what it does when they have all been read before. -/
theorem nextFrame_eq (h : ∀ read ∈ reads, read ≠ []) :
    (r.nextFrame reads).1 = ((r.extend reads.flatten).nextFrame []).1 ∧
    (r.nextFrame reads).2.1.extend (r.nextFrame reads).2.2.flatten = ((r.extend reads.flatten).nextFrame []).2.1 ∧
    ∀ read ∈ (r.nextFrame reads).2.2, read ≠ [] := by
  induction reads generalizing r with
  | nil =>
    rw [List.flatten_nil, extend_nil, nextFrame_nil]
    exact ⟨rfl, by simp, fun _ hread => absurd hread List.not_mem_nil⟩
  | cons read rest ih =>
    obtain ⟨hread, hrest⟩ := List.forall_mem_cons.mp h
    rcases hp : r.poll with ⟨frame, r'⟩
    have hpoll := poll_extend r (read :: rest).flatten
    rw [hp] at hpoll
    cases frame with
    | value j =>
      rw [nextFrame_of_value hp, nextFrame_of_value hpoll]
      exact ⟨rfl, rfl, h⟩
    | fault e =>
      rw [nextFrame_of_fault hp, nextFrame_of_fault hpoll]
      exact ⟨rfl, rfl, h⟩
    | incomplete =>
      rw [nextFrame_of_read hp hread, nextFrame_extend_of_incomplete hp, List.flatten_cons, ← extend_extend]
      exact ih hrest

/-- The reads in which a stream arrives do not matter, only its bytes do. -/
theorem outcomes_eq (h : ∀ read ∈ reads, read ≠ []) :
    outcomes k r reads = outcomes k (r.extend reads.flatten) [] := by
  induction k generalizing r reads with
  | zero => rfl
  | succ k ih =>
    obtain ⟨hfirst, hreader, hrest⟩ := nextFrame_eq (r := r) h
    rw [outcomes, outcomes, hfirst, ih hrest, hreader, nextFrame_nil]

end
end Ovsdb.Framing.Reader
