import Ovsdb.Framing.Reader
import Ovsdb.Proofs.Json.Literals

/-! What comes back of a JSON value that is written as compact text and read again: the value itself, if it is not
    nested too deep and its doubles come back from their digits. -/

namespace Ovsdb.Json

/-- Values that are nested at most so deep, with distinct names in objects and doubles that come back from their
    digits. (Reading rounds twice, so not all doubles do.) -/
inductive Legible : Nat → Json → Prop where
  | null {d : Nat} : Legible d .null
  | bool {d : Nat} (b : Bool) : Legible d (.bool b)
  | int {d : Nat} (n : WideInt) : Legible d (.int n)
  | float {d : Nat} {x : Float} {h : x.isFinite = true} :
      read (Json.float x h).bytes = some (.float x h) → Legible d (.float x h)
  | str {d : Nat} (s : String) : Legible d (.str s)
  | arr {d : Nat} {items : List Json} : (∀ j ∈ items, Legible d j) → Legible (d + 1) (.arr items)
  | obj {d : Nat} {members : List (String × Json)} : (members.map Prod.fst).Nodup →
      (∀ m ∈ members, Legible d m.2) → Legible (d + 1) (.obj members)

namespace Reader
open NumberToken (IsNumeric Delimits)

/-! ### Runs -/

/-- The reader behind a text. -/
def run (r : Reader) (cs : List Char) : Option Reader :=
  (cs.flatMap String.utf8EncodeChar).foldlM Reader.step r

variable {r r' : Reader} {slots : List Slot} {c : Char} {cs more : List Char} {j : Json} {d : Nat}

theorem run_append (r : Reader) (cs more : List Char) : r.run (cs ++ more) = r.run cs >>= fun r' => r'.run more := by
  rw [run, List.flatMap_append, List.foldlM_append]
  rfl

theorem run_of_run (h : r.run cs = some r') (more : List Char) : r.run (cs ++ more) = r'.run more := by
  rw [run_append, h]
  rfl

theorem run_cons (ascii : c.toNat < 0x80) (r : Reader) (cs : List Char) :
    r.run (c :: cs) = r.step (UInt8.ofNat c.toNat) >>= fun r' => r'.run cs := by
  rw [run, List.flatMap_cons, utf8EncodeChar_of_ascii ascii]
  rfl

/-! ### Strings -/

/-- A string or a name is read by feeding its token. -/
theorem run_literal (wrap : StringToken → Mode) {s : String}
    (opened : r.step (UInt8.ofNat '"'.toNat) = some ⟨slots, wrap .empty⟩)
    (fed : ∀ {t t' : StringToken} {b : UInt8}, t.feed b = .more t' →
      Reader.step ⟨slots, wrap t⟩ b = some ⟨slots, wrap t'⟩)
    (closed : ∀ {t : StringToken} {b : UInt8}, t.feed b = .ended s → Reader.step ⟨slots, wrap t⟩ b = some r') :
    r.run (stringChars s) = some r' := by
  have all {t t' : StringToken} {bytes : List UInt8} (h : t.feedAll bytes = some t') :
      bytes.foldlM Reader.step ⟨slots, wrap t⟩ = some ⟨slots, wrap t'⟩ := by
    induction bytes generalizing t with
    | nil =>
      cases h
      rfl
    | cons b bytes ih =>
      rw [StringToken.feedAll] at h
      split at h
      · next more =>
        rw [List.foldlM_cons, fed more]
        exact ih h
      · cases h
  have within : (Reader.mk slots (wrap .empty)).run (s.toList.flatMap charText) = some _ :=
    all (StringToken.feedAll_string s.toList [])
  have ended := closed (StringToken.feed_quote s)
  rw [stringChars, run_cons (by decide), opened]
  show (Reader.mk slots (wrap .empty)).run (s.toList.flatMap charText ++ ['"']) = _
  rw [run_of_run within, run_cons (by decide), List.append_nil, ended]
  rfl

theorem run_string (slots : List Slot) (s : String) :
    (Reader.mk slots .start).run (stringChars s) = some (deliver slots (.str s)) := by
  refine run_literal .string rfl (fun fed => ?_) (fun closed => ?_)
  · simp only [Reader.step, fed]
  · simp only [Reader.step, closed]

theorem run_name {mode : Mode} {members : List (String × Json)}
    (opened : Reader.step ⟨slots, mode⟩ (UInt8.ofNat '"'.toNat) = some ⟨slots, .name members .empty⟩) (s : String) :
    (Reader.mk slots mode).run (stringChars s) = some ⟨slots, .afterName members s⟩ := by
  refine run_literal (.name members) opened (fun fed => ?_) (fun closed => ?_)
  · simp only [Reader.step, fed]
  · simp only [Reader.step, closed]

/-! ### Numbers -/

theorem ascii_of_numeric (h : IsNumeric c) : c.toNat < 0x80 :=
  of_decide_eq_true (h.of_all (p := fun c => c.toNat < 0x80) rfl)

/-- Nothing that numbers are written with can follow a value. -/
theorem afterValue_of_numeric (h : IsNumeric c) (slots : List Slot) (j : Json) :
    (deliver slots j).afterValue c = none := by
  have mem := h.mem
  simp only [List.mem_cons, List.not_mem_nil, or_false] at mem
  rcases slots with _ | ⟨_ | _, slots⟩ <;>
    rcases mem with rfl | rfl | rfl | rfl | rfl | rfl | rfl | rfl | rfl | rfl | rfl | rfl | rfl | rfl <;> rfl

theorem step_start_of_numeric (h : IsNumeric c) (slots : List Slot) :
    Reader.step ⟨slots, .start⟩ (UInt8.ofNat c.toNat) = (NumberToken.first? c).map fun t => ⟨slots, .number t⟩ := by
  have mem := h.mem
  simp only [List.mem_cons, List.not_mem_nil, or_false] at mem
  rcases mem with rfl | rfl | rfl | rfl | rfl | rfl | rfl | rfl | rfl | rfl | rfl | rfl | rfl | rfl <;> rfl

theorem step_number (ascii : c.toNat < 0x80) (slots : List Slot) (t : NumberToken) :
    Reader.step ⟨slots, .number t⟩ (UInt8.ofNat c.toNat) =
      match t.feed c with
      | .more t => some ⟨slots, .number t⟩
      | .ended j => (deliver slots j).afterValue c
      | .refused => none := by
  cases fed : t.feed c <;> simp only [Reader.step, ofUInt8_of_ascii ascii, fed]

theorem run_feedAll (numeric : ∀ c ∈ cs, IsNumeric c) (slots : List Slot) (t : NumberToken) :
    (Reader.mk slots (.number t)).run cs = (t.feedAll cs).map fun t => ⟨slots, .number t⟩ := by
  induction cs generalizing t with
  | nil => rfl
  | cons c cs ih =>
    obtain ⟨first, rest⟩ := List.forall_mem_cons.mp numeric
    have ascii := ascii_of_numeric first
    rw [run_cons ascii, step_number ascii, NumberToken.feedAll]
    cases t.feed c with
    | more t' => exact ih rest t'
    | ended j => simp only [afterValue_of_numeric first]; rfl
    | refused => rfl

theorem run_number (numeric : ∀ c ∈ cs, IsNumeric c) (slots : List Slot) (filled : cs ≠ []) :
    (Reader.mk slots .start).run cs = (NumberToken.ofChars? cs).map fun t => ⟨slots, .number t⟩ := by
  cases cs with
  | nil => exact absurd rfl filled
  | cons c cs =>
    obtain ⟨first, rest⟩ := List.forall_mem_cons.mp numeric
    rw [run_cons (ascii_of_numeric first), step_start_of_numeric first, NumberToken.ofChars?]
    cases NumberToken.first? c with
    | none => rfl
    | some t => exact run_feedAll rest slots t

/-! ### Values -/

/-- The text of a value leads a reader to that value, once it is delimited. -/
def Arrives (slots : List Slot) (j : Json) : Prop :=
  ∀ c more, Delimits c → (Reader.mk slots .start).run (j.chars ++ c :: more) = (deliver slots j).run (c :: more)

theorem arrives_of_run (h : (Reader.mk slots .start).run j.chars = some (deliver slots j)) : Arrives slots j :=
  fun _ _ _ => run_of_run h _

theorem ascii_of_delimits (h : Delimits c) : c.toNat < 0x80 := by
  rcases h with rfl | rfl | rfl | rfl <;> decide

theorem step_deliver (ascii : c.toNat < 0x80) (slots : List Slot) (j : Json) :
    (deliver slots j).step (UInt8.ofNat c.toNat) = (deliver slots j).afterValue c := by
  rcases slots with _ | ⟨_ | _, slots⟩ <;> simp only [deliver, Reader.step, ofUInt8_of_ascii ascii]

/-- A number ends before the first character that delimits it. -/
theorem arrives_of_number {t : NumberToken} (numeric : ∀ c ∈ j.chars, IsNumeric c)
    (read : NumberToken.ofChars? j.chars = some t) (complete : t.IsComplete) (value : t.value? = some j)
    (slots : List Slot) : Arrives slots j := by
  intro c more delimits
  have filled : j.chars ≠ [] := by
    intro empty
    rw [empty] at read
    cases read
  have ascii := ascii_of_delimits delimits
  have run := run_number numeric slots filled
  rw [read] at run
  rw [run_of_run run, run_cons ascii, step_number ascii, NumberToken.feed_of_delimits complete value delimits,
    run_cons ascii, step_deliver ascii]

theorem arrives_int (n : WideInt) (slots : List Slot) : Arrives slots (.int n) := by
  obtain ⟨t, read, complete, value⟩ := NumberToken.value?_intChars n
  refine arrives_of_number (t := t) ?_ ?_ complete value slots
  · rw [Json.chars]
    exact NumberToken.numeric_intChars n.val
  · rw [Json.chars]
    exact read

theorem complete_of_finish {t : NumberToken} (h : Reader.finish ⟨[], .number t⟩ = some j) :
    t.IsComplete ∧ t.value? = some j := by
  simp only [finish, NumberToken.IsComplete] at h ⊢
  cases part : t.part <;> simp_all

/-- Doubles come back from wherever they are read if they come back on their own. -/
theorem arrives_float {x : Float} {finite : x.isFinite = true}
    (back : read (Json.float x finite).bytes = some (.float x finite)) (slots : List Slot) :
    Arrives slots (.float x finite) := by
  have numeric : ∀ c ∈ (Json.float x finite).chars, IsNumeric c := by
    rw [Json.chars]
    exact NumberToken.numeric_floatChars x
  have filled : (Json.float x finite).chars ≠ [] := by
    intro empty
    rw [Json.bytes, empty] at back
    cases back
  obtain ⟨r, run, finished⟩ := Option.bind_eq_some_iff.mp back
  change (Reader.mk [] .start).run _ = some r at run
  rw [run_number numeric [] filled] at run
  obtain ⟨t, read, rfl⟩ := Option.map_eq_some_iff.mp run
  obtain ⟨complete, value⟩ := complete_of_finish finished
  exact arrives_of_number numeric read complete value slots

/-- A value begins with a character that cannot be taken for the end of an array. -/
theorem chars_head (h : Legible d j) : ∃ c cs, j.chars = c :: cs ∧ c.toNat < 0x80 ∧ isBlank c = false ∧ c ≠ ']' := by
  have numeric_head {cs : List Char} (numeric : ∀ c ∈ cs, IsNumeric c) (filled : cs ≠ []) :
      ∃ c rest, cs = c :: rest ∧ c.toNat < 0x80 ∧ isBlank c = false ∧ c ≠ ']' := by
    obtain ⟨c, rest, rfl⟩ := List.exists_cons_of_ne_nil filled
    have first := numeric c List.mem_cons_self
    refine ⟨c, rest, rfl, of_decide_eq_true ?_⟩
    exact first.of_all (p := fun c => c.toNat < 0x80 ∧ isBlank c = false ∧ c ≠ ']') rfl
  cases h with
  | null => exact ⟨_, _, rfl, by decide⟩
  | bool b => cases b <;> exact ⟨_, _, rfl, by decide⟩
  | int n =>
    rw [Json.chars]
    refine numeric_head (NumberToken.numeric_intChars n.val) fun empty => ?_
    obtain ⟨t, read, -⟩ := NumberToken.value?_intChars n
    rw [empty] at read
    cases read
  | @float _ x finite back =>
    rw [Json.chars]
    refine numeric_head (NumberToken.numeric_floatChars x) fun empty => ?_
    rw [Json.bytes, Json.chars, empty] at back
    cases back
  | str s =>
    rw [Json.chars, stringChars]
    exact ⟨_, _, rfl, by decide⟩
  | @arr _ items =>
    cases items <;> rw [Json.chars] <;> exact ⟨_, _, rfl, by decide⟩
  | @obj _ members =>
    cases members <;> rw [Json.chars] <;> exact ⟨_, _, rfl, by decide⟩

theorem run_firstElement (h : Legible d j) (slots : List Slot) (more : List Char) :
    (Reader.mk slots .firstElement).run (j.chars ++ more) =
      (Reader.mk (.element [] :: slots) .start).run (j.chars ++ more) := by
  obtain ⟨c, cs, chars, ascii, blank, close⟩ := chars_head h
  rw [chars, List.cons_append, run_cons ascii, run_cons ascii]
  simp [Reader.step, ofUInt8_of_ascii ascii, blank, close]

/-! Behind an element of an array or a member of an object. -/

theorem run_element {items : List Json} (arrives : Arrives (.element items :: slots) j) (rest : List Json)
    (more : List Char) : (Reader.mk (.element items :: slots) .start).run (j.chars ++ (itemChars rest ++ more)) =
      (Reader.mk slots (.afterElement (j :: items))).run (itemChars rest ++ more) := by
  cases rest <;> rw [itemChars]
  · exact arrives _ _ (.inr (.inl rfl))
  · exact arrives _ _ (.inl rfl)

theorem run_member {mode : Mode} {members : List (String × Json)} {name : String}
    (opened : Reader.step ⟨slots, mode⟩ (UInt8.ofNat '"'.toNat) = some ⟨slots, .name members .empty⟩)
    (arrives : Arrives (.member members name :: slots) j) (rest : List (String × Json)) (more : List Char) :
    (Reader.mk slots mode).run (stringChars name ++ ':' :: (j.chars ++ (memberChars rest ++ more))) =
      (Reader.mk slots (.afterMember (put members name j))).run (memberChars rest ++ more) := by
  rw [run_of_run (run_name opened name), run_cons (by decide)]
  cases rest <;> rw [memberChars]
  · exact arrives _ _ (.inr (.inr (.inl rfl)))
  · exact arrives _ _ (.inl rfl)

theorem run_itemChars {rest : List Json} (arrives : ∀ j ∈ rest, ∀ items, Arrives (.element items :: slots) j)
    (items : List Json) (more : List Char) : (Reader.mk slots (.afterElement items)).run (itemChars rest ++ more) =
      (deliver slots (.arr (items.reverse ++ rest))).run more := by
  induction rest generalizing items with
  | nil =>
    rw [itemChars, List.append_nil]
    rfl
  | cons j rest ih =>
    obtain ⟨first, others⟩ := List.forall_mem_cons.mp arrives
    rw [itemChars, List.cons_append, List.append_assoc, run_cons (by decide)]
    refine (run_element (first items) rest more).trans ?_
    rw [ih others, List.reverse_cons, List.append_assoc, List.singleton_append]

theorem put_of_notMem {members : List (String × Json)} {name : String} (h : name ∉ members.map Prod.fst) (j : Json) :
    put members name j = members ++ [(name, j)] := by
  induction members with
  | nil => rfl
  | cons m members ih =>
    obtain ⟨other, rest⟩ : ¬name = m.1 ∧ name ∉ members.map Prod.fst := by simpa using h
    rw [put, if_neg (Ne.symm other), ih rest, List.cons_append]

theorem run_memberChars {rest : List (String × Json)}
    (arrives : ∀ m ∈ rest, ∀ members name, Arrives (.member members name :: slots) m.2)
    (members : List (String × Json)) (distinct : ((members ++ rest).map Prod.fst).Nodup) (more : List Char) :
    (Reader.mk slots (.afterMember members)).run (memberChars rest ++ more) =
      (deliver slots (.obj (members ++ rest))).run more := by
  induction rest generalizing members with
  | nil =>
    rw [memberChars, List.append_nil]
    rfl
  | cons m rest ih =>
    obtain ⟨name, j⟩ := m
    obtain ⟨first, others⟩ := List.forall_mem_cons.mp arrives
    have onto : members ++ (name, j) :: rest = members ++ [(name, j)] ++ rest := by
      rw [List.append_assoc, List.singleton_append]
    have fresh : name ∉ members.map Prod.fst := fun mem => by
      rw [List.map_append, List.map_cons] at distinct
      exact (List.nodup_append.mp distinct).2.2 _ mem _ List.mem_cons_self rfl
    rw [memberChars, List.cons_append, List.append_assoc, List.cons_append, List.append_assoc, run_cons (by decide)]
    have opened : Reader.step ⟨slots, .nextName members⟩ (UInt8.ofNat '"'.toNat) =
        some ⟨slots, .name members .empty⟩ := rfl
    refine (run_member opened (first members name) rest more).trans ?_
    rw [put_of_notMem fresh, ih others _ (onto ▸ distinct), ← onto]

/-- A legible value comes back from wherever there is room for its nesting. -/
theorem arrives_of_legible (h : Legible d j) (slots : List Slot) (room : slots.length + d ≤ maxDepth) :
    Arrives slots j := by
  induction h generalizing slots with
  | null => exact arrives_of_run rfl
  | bool b => cases b <;> exact arrives_of_run rfl
  | int n => exact arrives_int n slots
  | float back => exact arrives_float back slots
  | str s => exact arrives_of_run (by rw [Json.chars]; exact run_string slots s)
  | @arr d items legible ih =>
    have opened : Reader.step ⟨slots, .start⟩ (UInt8.ofNat '['.toNat) = some ⟨slots, .firstElement⟩ :=
      if_pos (show slots.length < maxDepth by omega)
    -- The items are one level deeper, where there is room for what is left of the depth.
    have within : ∀ j ∈ items, ∀ items', Arrives (.element items' :: slots) j :=
      fun j mem _ => ih j mem _ (by rw [List.length_cons]; omega)
    intro c more _
    cases items with
    | nil =>
      rw [Json.chars, List.cons_append, run_cons (by decide), opened]
      rfl
    | cons j rest =>
      obtain ⟨first, others⟩ := List.forall_mem_cons.mp within
      rw [Json.chars, List.cons_append, List.append_assoc, run_cons (by decide), opened]
      refine (run_firstElement (legible j List.mem_cons_self) slots _).trans ?_
      rw [run_element (first []), run_itemChars others]
      rfl
  | @obj d members distinct legible ih =>
    have opened : Reader.step ⟨slots, .start⟩ (UInt8.ofNat '\x7b'.toNat) = some ⟨slots, .firstName⟩ :=
      if_pos (show slots.length < maxDepth by omega)
    have within : ∀ m ∈ members, ∀ members' name, Arrives (.member members' name :: slots) m.2 :=
      fun m mem _ _ => ih m mem _ (by rw [List.length_cons]; omega)
    intro c more _
    cases members with
    | nil =>
      rw [Json.chars, List.cons_append, run_cons (by decide), opened]
      rfl
    | cons m rest =>
      obtain ⟨name, j⟩ := m
      obtain ⟨first, others⟩ := List.forall_mem_cons.mp within
      rw [Json.chars, List.cons_append, List.append_assoc, List.cons_append, List.append_assoc, run_cons (by decide),
        opened]
      have named : Reader.step ⟨slots, .firstName⟩ (UInt8.ofNat '"'.toNat) = some ⟨slots, .name [] .empty⟩ := rfl
      refine (run_member named (first [] name) rest _).trans ?_
      rw [put, run_memberChars others _ distinct]
      rfl

end Reader

/-- What is written comes back. -/
theorem read_frameBytes {j : Json} (h : Legible maxDepth j) : read (Framing.frameBytes j) = some j := by
  have bytes : Framing.frameBytes j = (j.chars ++ ['\n']).flatMap String.utf8EncodeChar := by
    rw [List.flatMap_append]
    rfl
  have run := Reader.arrives_of_legible h [] (Nat.le_of_eq (Nat.zero_add _)) '\n' [] (.inr (.inr (.inr rfl)))
  rw [read, bytes]
  change Option.bind (Reader.run ⟨[], .start⟩ _) _ = _
  rw [run]
  rfl

end Ovsdb.Json
