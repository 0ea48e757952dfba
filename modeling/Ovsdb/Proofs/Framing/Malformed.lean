import Ovsdb.Proofs.Framing.Stream

/-! Streams that are not well-formed. Whatever the bytes are, each call of a reader returns what it has read off the
    bytes that it takes, and it takes the same ones whatever the reads are that they arrive in. -/

namespace Ovsdb.Framing

/-- What is said of a text: its value, or that it is none. A frame that says something else takes no text. -/
def Frame.Tells : Frame → List UInt8 → Prop
  | .value j, text => Json.read text = some j
  | .fault (.serialization m), text => m = .notJson ∧ Json.read text = none
  | .fault _, text => text = []
  | .incomplete, text => text = []

namespace Reader

/-- The bytes at hand, in their order. -/
def held (r : Reader) : List UInt8 :=
  r.scanned.reverse ++ r.waiting

/-- What a reader has not handed out yet: the bytes at hand, and those that are still to be read. -/
def left (r : Reader) (reads : List (List UInt8)) : List UInt8 :=
  r.held ++ reads.flatten

/-- The bytes that a call takes off what is left. -/
def taken (r : Reader) (reads : List (List UInt8)) : List UInt8 :=
  (r.left reads).take ((r.left reads).length - ((r.nextFrame reads).2.1.left (r.nextFrame reads).2.2).length)

/-- So many calls, one after another: what each returns, and the bytes that it takes. -/
def calls : Nat → Reader → List (List UInt8) → List (Except Error (Option Json) × List UInt8)
  | 0, _, _ => []
  | k + 1, r, reads =>
    ((r.nextFrame reads).1, r.taken reads) :: calls k (r.nextFrame reads).2.1 (r.nextFrame reads).2.2

/-- What a call returns is told by the bytes that it takes; at the end of the stream it takes all there are. -/
def Accounts : Except Error (Option Json) → List UInt8 → Prop
  | .ok (some j), text => (Frame.value j).Tells text
  | .ok none, _ => True
  | .error e, text => (Frame.fault e).Tells text

section
variable {r r' : Reader} {reads reads' : List (List UInt8)} {bytes : List UInt8} {frame : Frame} {k : Nat}
  {call : Except Error (Option Json) × List UInt8}

theorem held_extend (r : Reader) (bytes : List UInt8) : (r.extend bytes).held = r.held ++ bytes :=
  (List.append_assoc _ _ _).symm

theorem left_nil (r : Reader) : r.left [] = r.held :=
  List.append_nil _

theorem left_extend (r : Reader) (reads : List (List UInt8)) : (r.extend reads.flatten).left [] = r.left reads := by
  rw [left_nil, held_extend, left]

/-! ### What a call takes -/

theorem tells_ofText (text : List UInt8) : (ofText text).Tells text := by
  rw [ofText]
  split
  case h_1 j read => exact read
  case h_2 read => exact ⟨rfl, read⟩

/-- Scanning takes the text that it tells of, and leaves everything behind it. -/
theorem scan_tells (scanned : List UInt8) (scanner : Scanner) (waiting : List UInt8) :
    ∃ text, scanned.reverse ++ waiting = text ++ (scan scanned scanner waiting).2.held ∧
      (scan scanned scanner waiting).1.Tells text := by
  induction waiting generalizing scanned scanner with
  | nil => exact ⟨[], rfl, rfl⟩
  | cons b rest ih =>
    have onto : scanned.reverse ++ b :: rest = (b :: scanned).reverse ++ rest := by
      rw [List.reverse_cons, List.append_assoc, List.singleton_append]
    rw [onto, scan]
    cases scanner.step b with
    | inside s => exact ih (b :: scanned) s
    | complete => exact ⟨(b :: scanned).reverse, rfl, tells_ofText _⟩
    | stray => exact ⟨[], rfl, rfl⟩

theorem poll_tells (h : r.poll = (frame, r')) : ∃ text, r.held = text ++ r'.held ∧ frame.Tells text := by
  have told := scan_tells r.scanned r.scanner r.waiting
  rw [show scan r.scanned r.scanner r.waiting = (frame, r') from h] at told
  exact told

/-- A call takes its text off the front of what is left. -/
theorem nextFrame_accounts (r : Reader) (reads : List (List UInt8)) :
    ∃ text, r.left reads = text ++ (r.nextFrame reads).2.1.left (r.nextFrame reads).2.2 ∧
      Accounts (r.nextFrame reads).1 text := by
  fun_induction nextFrame r reads with
  | case1 r reads j r' polled | case2 r reads e r' polled =>
    obtain ⟨text, held, told⟩ := poll_tells polled
    exact ⟨text, by rw [left, left, held, List.append_assoc], told⟩
  | case3 r r' polled =>
    obtain ⟨text, held, rfl⟩ := poll_tells polled
    rw [left_nil, left_nil, held, List.nil_append, atEnd]
    split
    · exact ⟨r'.held, (List.append_nil _).symm, trivial⟩
    · exact ⟨[], rfl, rfl⟩
  | case4 r r' rest polled =>
    obtain ⟨text, held, rfl⟩ := poll_tells polled
    rw [left, left, List.flatten_cons, List.nil_append, held, List.nil_append, atEnd]
    split
    · exact ⟨r'.held, rfl, trivial⟩
    · exact ⟨[], rfl, rfl⟩
  | case5 r r' b chunk rest polled ih =>
    obtain ⟨text, held, rfl⟩ := poll_tells polled
    have same : r.left ((b :: chunk) :: rest) = (r'.extend (b :: chunk)).left rest := by
      rw [left, left, held_extend, held, List.nil_append, List.flatten_cons, List.append_assoc]
    rw [same]
    exact ih

theorem accounts_taken (r : Reader) (reads : List (List UInt8)) :
    Accounts (r.nextFrame reads).1 (r.taken reads) := by
  obtain ⟨text, onto, told⟩ := r.nextFrame_accounts reads
  have itself : r.taken reads = text := by
    rw [taken, onto, List.length_append, Nat.add_sub_cancel_right, List.take_left]
  rwa [itself]

theorem accounts_of_mem_calls (h : call ∈ calls k r reads) : Accounts call.1 call.2 := by
  induction k generalizing r reads with
  | zero => exact absurd h List.not_mem_nil
  | succ k ih =>
    rcases List.mem_cons.mp h with rfl | later
    · exact r.accounts_taken reads
    · exact ih later

/-! ### Calls on the same bytes -/

theorem taken_eq (h : ∀ read ∈ reads, read ≠ []) : r.taken reads = (r.extend reads.flatten).taken [] := by
  obtain ⟨-, after, -⟩ := nextFrame_eq (r := r) h
  rw [taken, taken, left_extend, ← left_extend (r.nextFrame reads).2.1, after, nextFrame_nil]

/-- The reads in which a stream arrives do not matter to what calls return and take, only its bytes do. -/
theorem calls_eq (h : ∀ read ∈ reads, read ≠ []) : calls k r reads = calls k (r.extend reads.flatten) [] := by
  induction k generalizing r reads with
  | zero => rfl
  | succ k ih =>
    obtain ⟨returned, after, rest⟩ := nextFrame_eq (r := r) h
    rw [calls, calls, returned, taken_eq h, ih rest, after, nextFrame_nil]

end

/-- Framing does not depend on how the bytes arrive, be they well-formed or not. In whatever non-empty reads a stream
    comes, each call returns the same, also after errors, and takes the same bytes; and what it says of a text, the
    wording of a syntax error included, is told by these bytes alone. -/
theorem calls_of_same_bytes {reads reads' : List (List UInt8)} (h : ∀ read ∈ reads, read ≠ [])
    (h' : ∀ read ∈ reads', read ≠ []) (same : reads.flatten = reads'.flatten) (k : Nat) :
    calls k empty reads = calls k empty reads' ∧ ∀ call ∈ calls k empty reads, Accounts call.1 call.2 :=
  ⟨by rw [calls_eq h, calls_eq h', same], fun _ => accounts_of_mem_calls⟩

/-- A stream with a stray byte, brackets that do not match and one that is not closed. -/
def debris : List UInt8 :=
  "x[1] [2]\x7b][".toUTF8.data.toList

/-- The stray byte makes two calls fail, since it gets into the text behind it. Brackets that do not match end a text
    all the same, and the one that is not closed is cut off for good. -/
theorem calls_of_same_bytes_debris :
    calls 6 empty (debris.map ([·])) = calls 6 empty [debris.take 6, debris.drop 6] ∧
      calls 6 empty [debris.take 6, debris.drop 6] =
        [(.error (.protocol (.strayByte 120)), []), (.error (.serialization .notJson), "x[1]".toUTF8.data.toList),
          (.ok (some (.arr [.int ⟨2, by decide, by decide⟩])), " [2]".toUTF8.data.toList),
          (.error (.serialization .notJson), "\x7b]".toUTF8.data.toList), (.error (.protocol .cutOff), []),
          (.error (.protocol .cutOff), [])] ∧
      ∀ call ∈ calls 6 empty (debris.map ([·])), Accounts call.1 call.2 := by
  have single : ∀ read ∈ debris.map ([·]), read ≠ [] := by decide
  have halves : ∀ read ∈ [debris.take 6, debris.drop 6], read ≠ [] := by decide
  obtain ⟨same, accounts⟩ := calls_of_same_bytes single halves (by decide) 6
  exact ⟨same, rfl, accounts⟩

end Reader
end Ovsdb.Framing
