import Mathlib.Algebra.Ring.Parity
import Mathlib.Data.List.DropRight
import Ovsdb.Proofs.Framing.Agreement

/-! The string literals among bytes, and the brackets outside them. A literal goes from a quote to the next one that
    does not come behind an odd run of backslashes. Nothing here knows of the scanner's flags or of its depth. -/

namespace Ovsdb.Framing

def quote : UInt8 := '"'.toNat.toUInt8

def backslash : UInt8 := '\\'.toNat.toUInt8

/-- The length of the run of backslashes that the bytes end in. -/
def backslashes (bytes : List UInt8) : Nat :=
  (bytes.rtakeWhile (· = backslash)).length

/-- How many of the bytes are brackets that open. -/
def openings (bytes : List UInt8) : Nat :=
  bytes.countP fun b => Scanner.isOpening (Char.ofUInt8 b)

/-- How many of the bytes are brackets that close. -/
def closings (bytes : List UInt8) : Nat :=
  bytes.countP fun b => Scanner.isClosing (Char.ofUInt8 b)

/-- The bytes may follow the quote that begins a literal, and do not end it. -/
def IsBody (body : List UInt8) : Prop :=
  ∀ before after, body = before ++ quote :: after → Odd (backslashes before)

/-- The bytes are whole literals with others between them, which are `out`. -/
inductive Outside : List UInt8 → List UInt8 → Prop where
  | nil : Outside [] []
  | byte {bytes out : List UInt8} {b : UInt8} : Outside bytes out → b ≠ quote → Outside (bytes ++ [b]) (out ++ [b])
  | literal {bytes out body : List UInt8} : Outside bytes out → IsBody body → Even (backslashes body) →
      Outside (bytes ++ quote :: body ++ [quote]) out

/-- The bytes end inside a literal, `body` being what there is of it, and `out` the ones outside literals. -/
def Within (bytes out body : List UInt8) : Prop :=
  ∃ before, bytes = before ++ quote :: body ∧ Outside before out ∧ IsBody body

/-- Those outside literals are `out`, be the last literal at its end or not. -/
def Reads (bytes out : List UInt8) : Prop :=
  Outside bytes out ∨ ∃ body, Within bytes out body

/-- There are as many opening brackets outside literals as closing ones. -/
def Balanced (bytes : List UInt8) : Prop :=
  ∃ out, Reads bytes out ∧ openings out = closings out

section
variable {b : UInt8} {bytes out body : List UInt8}

theorem ofUInt8_eq_quote : Char.ofUInt8 b = '"' ↔ b = quote :=
  ⟨fun h => UInt8.toNat_inj.mp (congrArg Char.toNat h), fun h => h ▸ rfl⟩

theorem ofUInt8_eq_backslash : Char.ofUInt8 b = '\\' ↔ b = backslash :=
  ⟨fun h => UInt8.toNat_inj.mp (congrArg Char.toNat h), fun h => h ▸ rfl⟩

/-! ### Counting -/

theorem backslashes_nil : backslashes [] = 0 := rfl

theorem backslashes_concat (bytes : List UInt8) (b : UInt8) :
    backslashes (bytes ++ [b]) = if b = backslash then backslashes bytes + 1 else 0 := by
  rw [backslashes, List.rtakeWhile_concat]
  split <;> simp_all [backslashes]

theorem openings_concat (bytes : List UInt8) (b : UInt8) :
    openings (bytes ++ [b]) = openings bytes + if Scanner.isOpening (Char.ofUInt8 b) then 1 else 0 := by
  rw [openings, List.countP_append, List.countP_singleton, openings]

theorem closings_concat (bytes : List UInt8) (b : UInt8) :
    closings (bytes ++ [b]) = closings bytes + if Scanner.isClosing (Char.ofUInt8 b) then 1 else 0 := by
  rw [closings, List.countP_append, List.countP_singleton, closings]

/-! ### Literals -/

theorem isBody_nil : IsBody [] :=
  fun before _ h => absurd h.symm (List.append_ne_nil_of_right_ne_nil before (List.cons_ne_nil _ _))

theorem isBody_concat : IsBody (body ++ [b]) ↔ IsBody body ∧ (b = quote → Odd (backslashes body)) := by
  constructor
  · refine fun h => ⟨fun before after split => h before (after ++ [b]) ?_, fun last => h body [] (by rw [last])⟩
    rw [split, List.append_assoc, List.cons_append]
  · rintro ⟨h, last⟩ before after split
    rcases List.eq_nil_or_concat' after with rfl | ⟨shorter, c, rfl⟩
    · obtain ⟨rfl, same⟩ := List.append_inj' split rfl
      exact last (List.singleton_injective same)
    · rw [← List.cons_append, ← List.append_assoc] at split
      exact h before shorter (List.append_inj' split rfl).1

/-! ### One byte more -/

theorem outside_concat : Outside (bytes ++ [b]) out ↔
    (b ≠ quote ∧ ∃ shorter, out = shorter ++ [b] ∧ Outside bytes shorter) ∨
      (b = quote ∧ ∃ body, Within bytes out body ∧ Even (backslashes body)) := by
  constructor
  · intro h
    generalize split : bytes ++ [b] = whole at h
    cases h with
    | nil => exact absurd split (List.append_ne_nil_of_right_ne_nil bytes (List.cons_ne_nil b []))
    | byte outside differs =>
      obtain ⟨rfl, same⟩ := List.append_inj' split rfl
      obtain rfl := List.singleton_injective same
      exact .inl ⟨differs, _, rfl, outside⟩
    | literal outside isBody even =>
      obtain ⟨rfl, same⟩ := List.append_inj' split rfl
      exact .inr ⟨List.singleton_injective same, _, ⟨_, rfl, outside, isBody⟩, even⟩
  · rintro (⟨differs, shorter, rfl, outside⟩ | ⟨rfl, body, ⟨before, rfl, outside, isBody⟩, even⟩)
    · exact .byte outside differs
    · exact .literal outside isBody even

theorem within_concat : Within (bytes ++ [b]) out body ↔
    (b = quote ∧ body = [] ∧ Outside bytes out) ∨
      ∃ shorter, body = shorter ++ [b] ∧ Within bytes out shorter ∧ (b = quote → Odd (backslashes shorter)) := by
  constructor
  · rintro ⟨before, split, outside, isBody⟩
    rcases List.eq_nil_or_concat' body with rfl | ⟨shorter, last, rfl⟩
    · obtain ⟨rfl, same⟩ := List.append_inj' split rfl
      exact .inl ⟨List.singleton_injective same, rfl, outside⟩
    · rw [← List.cons_append, ← List.append_assoc] at split
      obtain ⟨rfl, same⟩ := List.append_inj' split rfl
      obtain rfl := List.singleton_injective same
      obtain ⟨isBody, more⟩ := isBody_concat.mp isBody
      exact .inr ⟨shorter, rfl, ⟨before, rfl, outside, isBody⟩, more⟩
  · rintro (⟨rfl, rfl, outside⟩ | ⟨shorter, rfl, ⟨before, rfl, outside, isBody⟩, more⟩)
    · exact ⟨bytes, rfl, outside, isBody_nil⟩
    · exact ⟨before, by rw [List.append_assoc, List.cons_append], outside, isBody_concat.mpr ⟨isBody, more⟩⟩

/-! ### There is one reading -/

theorem not_within_nil : ¬Within [] out body := by
  rintro ⟨before, split, -⟩
  exact List.append_ne_nil_of_right_ne_nil before (List.cons_ne_nil quote body) split.symm

theorem exists_reads (bytes : List UInt8) : ∃ out, Reads bytes out := by
  induction bytes using List.reverseRecOn with
  | nil => exact ⟨[], .inl .nil⟩
  | append_singleton bytes b ih =>
    obtain ⟨out, outside | ⟨body, within⟩⟩ := ih
    · by_cases isQuote : b = quote
      · exact ⟨out, .inr ⟨[], within_concat.mpr (.inl ⟨isQuote, rfl, outside⟩)⟩⟩
      · exact ⟨out ++ [b], .inl (.byte outside isQuote)⟩
    · by_cases ends : b = quote ∧ Even (backslashes body)
      · exact ⟨out, .inl (outside_concat.mpr (.inr ⟨ends.1, body, within, ends.2⟩))⟩
      · have more : b = quote → Odd (backslashes body) := fun isQuote =>
          Nat.not_even_iff_odd.mp fun even => ends ⟨isQuote, even⟩
        exact ⟨out, .inr ⟨body ++ [b], within_concat.mpr (.inr ⟨body, rfl, within, more⟩)⟩⟩

theorem outside_nil : Outside [] out ↔ out = [] := by
  constructor
  · intro h
    generalize none_at_all : [] = whole at h
    cases h with
    | nil => rfl
    | byte | literal => exact absurd none_at_all.symm (List.append_ne_nil_of_right_ne_nil _ (List.cons_ne_nil _ _))
  · rintro rfl
    exact .nil

/-- The bytes end outside literals or within one, and what is outside and what is within is certain. -/
theorem reading_unique (bytes : List UInt8) :
    (∀ {out out'}, Outside bytes out → Outside bytes out' → out = out') ∧
      (∀ {out out' body}, Outside bytes out → ¬Within bytes out' body) ∧
      ∀ {out out' body body'}, Within bytes out body → Within bytes out' body' → out = out' ∧ body = body' := by
  induction bytes using List.reverseRecOn with
  | nil =>
    refine ⟨fun h h' => ?_, fun _ => not_within_nil, fun h => absurd h not_within_nil⟩
    rw [outside_nil.mp h, outside_nil.mp h']
  | append_singleton bytes b ih =>
    -- Each reading goes back to one of the bytes before the last, where there is no choice either.
    obtain ⟨outsides, exclusive, withins⟩ := ih
    refine ⟨fun h h' => ?_, fun h h' => ?_, fun h h' => ?_⟩
    · rcases outside_concat.mp h with ⟨differs, shorter, rfl, outside⟩ | ⟨isQuote, body, within, -⟩ <;>
        rcases outside_concat.mp h' with ⟨differs', shorter', rfl, outside'⟩ | ⟨isQuote', body', within', -⟩
      · rw [outsides outside outside']
      · exact absurd isQuote' differs
      · exact absurd isQuote differs'
      · exact (withins within within').1
    · rcases outside_concat.mp h with ⟨differs, shorter, rfl, outside⟩ | ⟨isQuote, body, within, even⟩ <;>
        rcases within_concat.mp h' with ⟨isQuote', -, outside'⟩ | ⟨body', -, within', more⟩
      · exact differs isQuote'
      · exact exclusive outside within'
      · exact exclusive outside' within
      · obtain ⟨-, rfl⟩ := withins within within'
        exact Nat.not_even_iff_odd.mpr (more isQuote) even
    · rcases within_concat.mp h with ⟨-, rfl, outside⟩ | ⟨shorter, rfl, within, -⟩ <;>
        rcases within_concat.mp h' with ⟨-, rfl, outside'⟩ | ⟨shorter', rfl, within', -⟩
      · exact ⟨outsides outside outside', rfl⟩
      · exact absurd within' (exclusive outside)
      · exact absurd within (exclusive outside')
      · obtain ⟨rfl, rfl⟩ := withins within within'
        exact ⟨rfl, rfl⟩

theorem existsUnique_reads (bytes : List UInt8) : ∃! out, Reads bytes out := by
  obtain ⟨outsides, exclusive, withins⟩ := reading_unique bytes
  obtain ⟨out, reads⟩ := exists_reads bytes
  refine ⟨out, reads, fun out' reads' => ?_⟩
  rcases reads with outside | ⟨body, within⟩ <;> rcases reads' with outside' | ⟨body', within'⟩
  · exact outsides outside' outside
  · exact absurd within' (exclusive outside)
  · exact absurd within (exclusive outside')
  · exact (withins within' within).1

end
end Ovsdb.Framing
