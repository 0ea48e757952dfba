import Mathlib.Data.List.Forall2
import Ovsdb.Proofs.Framing.Agreement
import Ovsdb.Proofs.Framing.Stream

/-! Framing is exact: a stream of JSON arrays and objects is taken apart into just these, in whatever pieces it
    arrives, and a text that breaks off is an error. -/

namespace Ovsdb

/-- Whether a value is an array or an object. -/
def Json.isContainer : Json → Bool
  | .arr _ | .obj _ => true
  | _ => false

/-- A byte that may stand around a text. -/
def Blank (b : UInt8) : Prop := Json.isBlank (Char.ofUInt8 b) = true

namespace Framing

/-! ### One text for the scanner -/

/-- The bytes complete the text that the scanner is in, and none before the last does. -/
inductive Completes : Scanner → List UInt8 → Prop where
  | last {s : Scanner} {b : UInt8} : s.step b = .complete → Completes s [b]
  | more {s s' : Scanner} {b : UInt8} {bytes : List UInt8} : s.step b = .inside s' → 0 < s'.depth →
      Completes s' bytes → Completes s (b :: bytes)

section
variable {s : Scanner} {bytes cut rest scanned : List UInt8}

theorem scan_of_completes (h : Completes s bytes) (scanned rest : List UInt8) :
    Reader.scan scanned s (bytes ++ rest) = (Reader.ofText (scanned.reverse ++ bytes), ⟨[], rest, .initial⟩) := by
  induction h generalizing scanned with
  | last hb =>
    rw [List.singleton_append, Reader.scan, hb]
    simp only [List.reverse_cons]
  | more hb _ _ ih =>
    rw [List.cons_append, Reader.scan, hb]
    simp only [ih (_ :: scanned), List.reverse_cons, List.append_assoc, List.singleton_append]

/-- Where a text breaks off the scanner is inside it. -/
theorem scan_of_cut (h : Completes s (cut ++ rest)) (hrest : rest ≠ []) (hcut : cut ≠ []) (scanned : List UInt8) :
    ∃ s', 0 < s'.depth ∧ Reader.scan scanned s cut = (.incomplete, ⟨cut.reverse ++ scanned, [], s'⟩) := by
  induction cut generalizing s scanned with
  | nil => exact absurd rfl hcut
  | cons b cut ih =>
    rw [List.cons_append] at h
    generalize htail : cut ++ rest = tail at h
    cases h with
    | last hb => exact absurd (List.append_eq_nil_iff.mp htail).2 hrest
    | more hb hd hmore =>
      rw [← htail] at hmore
      rw [Reader.scan, hb]
      cases cut with
      | nil => exact ⟨_, hd, rfl⟩
      | cons b' cut =>
        obtain ⟨s', hs', hscan⟩ := ih hmore (List.cons_ne_nil b' cut) (b :: scanned)
        refine ⟨s', hs', ?_⟩
        simp only [hscan, List.reverse_cons, List.append_assoc, List.cons_append, List.nil_append]

theorem scan_of_blank (h : ∀ b ∈ bytes, Blank b) (scanned rest : List UInt8) :
    Reader.scan scanned .initial (bytes ++ rest) = Reader.scan (bytes.reverse ++ scanned) .initial rest := by
  induction bytes generalizing scanned with
  | nil => rfl
  | cons b bytes ih =>
    obtain ⟨hb, hbytes⟩ := List.forall_mem_cons.mp h
    rw [List.cons_append, Reader.scan, step_initial_of_blank hb]
    simp only [ih hbytes, List.reverse_cons, List.append_assoc, List.singleton_append]

end

end Framing

/-! ### One text for the reader -/

namespace Json
open Framing (Scanner Completes)

section
variable {r r' : Reader} {v w : Json} {b : UInt8} {bytes : List UInt8}

/-- Behind a complete value only blanks are accepted, and they change nothing. -/
theorem run_done (h : bytes.foldlM Reader.step ⟨[], .done w⟩ = some r) :
    r = ⟨[], .done w⟩ ∧ ∀ b ∈ bytes, Blank b := by
  induction bytes with
  | nil => exact ⟨(Option.some.inj h).symm, fun _ hb => absurd hb List.not_mem_nil⟩
  | cons b rest ih =>
    rw [List.foldlM_cons] at h
    obtain ⟨r', hstep, h⟩ := Option.bind_eq_some_iff.mp h
    simp only [Reader.step, Reader.afterValue] at hstep
    split at hstep
    · next hb =>
      cases hstep
      obtain ⟨hr, hrest⟩ := ih h
      exact ⟨hr, List.forall_mem_cons.mpr ⟨hb, hrest⟩⟩
    · cases hstep

/-- The bytes that lead from inside a text to its value complete it for the scanner, but for blanks at the end. -/
theorem completes_of_run (hd : 0 < r.scanner.depth) (hl : r.mode.Inside) (h : bytes.foldlM Reader.step r = some r')
    (hv : r'.finish = some v) :
    ∃ body tail, bytes = body ++ tail ∧ Completes r.scanner body ∧
      body.foldlM Reader.step r = some ⟨[], .done v⟩ ∧ ∀ b ∈ tail, Blank b := by
  induction bytes generalizing r with
  | nil =>
    cases h
    obtain ⟨slots, mode⟩ := r'
    cases mode <;> simp only [Reader.finish, reduceCtorEq] at hv
    · cases slots with
      | nil => cases hd
      | cons slot rest => simp at hv
    · exact absurd hl id
  | cons b rest ih =>
    rw [List.foldlM_cons] at h
    obtain ⟨q, hstep, h⟩ := Option.bind_eq_some_iff.mp h
    rcases step_alike hd hl hstep with ⟨w, rfl, hscan⟩ | ⟨hd', hl', hscan⟩
    · -- The text is complete, so whatever follows is blank.
      obtain ⟨rfl, hblank⟩ := run_done h
      obtain rfl : w = v := Option.some.inj hv
      exact ⟨[b], rest, rfl, .last hscan, by rw [List.foldlM_cons, hstep]; rfl, hblank⟩
    · obtain ⟨body, tail, rfl, hbody, hrun, hblank⟩ := ih hd' hl' h
      exact ⟨b :: body, tail, rfl, .more hscan hd' hbody, by rw [List.foldlM_cons, hstep]; exact hrun, hblank⟩

/-- A reader outside arrays and objects, with something else than one in hand. -/
def Reader.Scalar (r : Reader) : Prop :=
  r.slots = [] ∧
    match r.mode with
    | .string _ | .number _ => True
    | .word _ v | .done v => v.isContainer = false
    | _ => False

theorem isContainer_of_value {t : NumberToken} (h : t.value? = some v) : v.isContainer = false := by
  simp only [NumberToken.value?] at h
  repeat' split at h
  all_goals cases h
  all_goals rfl

theorem isContainer_of_ended {t : NumberToken} {c : Char} (h : t.feed c = .ended v) : v.isContainer = false := by
  have hended : t.ended = .ended v → v.isContainer = false := fun hend => by
    unfold NumberToken.ended at hend
    split at hend
    · next hv =>
      cases hend
      exact isContainer_of_value hv
    · cases hend
  simp only [NumberToken.feed] at h
  repeat' split at h
  all_goals first | exact hended h | cases h

theorem scalar_step (hr : r.Scalar) (h : r.step b = some r') : r'.Scalar := by
  obtain ⟨slots, mode⟩ := r
  obtain ⟨rfl, hmode⟩ : slots = [] ∧ _ := hr
  cases mode with
  | string token =>
    simp only [Reader.step] at h
    split at h <;> cases h
    · exact ⟨rfl, trivial⟩
    · exact ⟨rfl, rfl⟩
  | number token =>
    simp only [Reader.step] at h
    split at h
    · cases h
      exact ⟨rfl, trivial⟩
    · next j hfeed =>
      have hj := isContainer_of_ended hfeed
      simp only [Reader.deliver, Reader.afterValue] at h
      split at h <;> cases h
      exact ⟨rfl, hj⟩
    · cases h
  | word rest value =>
    cases rest with
    | nil => cases h
    | cons w rest =>
      simp only [Reader.step] at h
      split at h
      · cases rest <;> cases h <;> exact ⟨rfl, hmode⟩
      · cases h
  | done value =>
    simp only [Reader.step, Reader.afterValue] at h
    split at h <;> cases h
    exact ⟨rfl, hmode⟩
  | _ => exact absurd hmode id

theorem scalar_run (hr : r.Scalar) (h : bytes.foldlM Reader.step r = some r') (hv : r'.finish = some v) :
    v.isContainer = false := by
  induction bytes generalizing r with
  | nil =>
    cases h
    obtain ⟨slots, mode⟩ := r'
    obtain ⟨rfl, hmode⟩ : slots = [] ∧ _ := hr
    cases mode with
    | number token =>
      simp only [Reader.finish] at hv
      split at hv <;> first | exact isContainer_of_value hv | cases hv
    | done value =>
      cases hv
      exact hmode
    | _ => cases hv
  | cons b rest ih =>
    rw [List.foldlM_cons] at h
    obtain ⟨q, hstep, h⟩ := Option.bind_eq_some_iff.mp h
    exact ih (scalar_step hr hstep) h

/-- The first character of a text opens an array or object, or the text is none. -/
theorem begin_nil {c : Char} (h : Reader.begin [] c = some r) :
    (Scanner.isOpening c = true ∧ r.scanner = ⟨1, false, false⟩ ∧ r.mode.Inside) ∨ r.Scalar := by
  unfold Reader.begin at h
  split at h
  · split at h <;> cases h
    exact Or.inl ⟨rfl, rfl, trivial⟩
  · split at h <;> cases h
    exact Or.inl ⟨rfl, rfl, trivial⟩
  · cases h
    exact Or.inr ⟨rfl, trivial⟩
  · cases h
    exact Or.inr ⟨rfl, rfl⟩
  · cases h
    exact Or.inr ⟨rfl, rfl⟩
  · cases h
    exact Or.inr ⟨rfl, rfl⟩
  · cases h
    exact Or.inr ⟨rfl, trivial⟩
  · cases h
    exact Or.inr ⟨rfl, trivial⟩
  · obtain ⟨d, -, rfl⟩ := Option.map_eq_some_iff.mp h
    exact Or.inr ⟨rfl, trivial⟩

theorem run_blank (h : ∀ b ∈ bytes, Blank b) : bytes.foldlM Reader.step .initial = some .initial := by
  induction bytes with
  | nil => rfl
  | cons b rest ih =>
    obtain ⟨hb, hrest⟩ := List.forall_mem_cons.mp h
    have hstep : Reader.initial.step b = some .initial := by
      simp only [Reader.step, Reader.initial]
      exact if_pos hb
    rw [List.foldlM_cons, hstep]
    exact ih hrest

theorem completes_of_run_initial (h : bytes.foldlM Reader.step .initial = some r) (hv : r.finish = some v)
    (hcont : v.isContainer = true) :
    ∃ lead body tail, bytes = lead ++ body ++ tail ∧ Completes .initial body ∧
      body.foldlM Reader.step .initial = some ⟨[], .done v⟩ ∧ (∀ b ∈ lead, Blank b) ∧ ∀ b ∈ tail, Blank b := by
  induction bytes with
  | nil =>
    cases h
    cases hv
  | cons b rest ih =>
    rw [List.foldlM_cons] at h
    obtain ⟨q, hstep, h⟩ := Option.bind_eq_some_iff.mp h
    have hstep' := hstep
    simp only [Reader.step, Reader.initial] at hstep'
    split at hstep'
    · -- A blank in front of the text.
      next hb =>
      cases hstep'
      obtain ⟨lead, body, tail, rfl, hbody, hrun, hlead, htail⟩ := ih h
      exact ⟨b :: lead, body, tail, rfl, hbody, hrun, List.forall_mem_cons.mpr ⟨hb, hlead⟩, htail⟩
    · rcases begin_nil hstep' with ⟨hopen, hscan, hin⟩ | hscalar
      · have hd : 0 < q.scanner.depth := by rw [hscan]; exact Nat.one_pos
        obtain ⟨body, tail, rfl, hbody, hrun, htail⟩ := completes_of_run hd hin h hv
        refine ⟨[], b :: body, tail, rfl, .more ?_ hd hbody, ?_, fun _ hb => absurd hb List.not_mem_nil, htail⟩
        · rw [hscan]
          exact step_of_opening rfl hopen
        · rw [List.foldlM_cons, hstep]
          exact hrun
      · -- Outside arrays and objects no text of one can come about.
        rw [scalar_run hscalar h hv] at hcont
        cases hcont

/-- A text of an array or object, apart from the blanks around it, is complete for the scanner just at its end, and
    may have other blanks in front. -/
theorem read_container (h : read bytes = some v) (hcont : v.isContainer = true) :
    ∃ lead body tail, bytes = lead ++ body ++ tail ∧ Completes .initial body ∧
      (∀ before, (∀ b ∈ before, Blank b) → read (before ++ body) = some v) ∧
      (∀ b ∈ lead, Blank b) ∧ ∀ b ∈ tail, Blank b := by
  obtain ⟨r, hrun, hv⟩ := Option.bind_eq_some_iff.mp h
  obtain ⟨lead, body, tail, hsplit, hbody, hdone, hlead, htail⟩ := completes_of_run_initial hrun hv hcont
  refine ⟨lead, body, tail, hsplit, hbody, fun before hbefore => ?_, hlead, htail⟩
  rw [read, List.foldlM_append, run_blank hbefore]
  simp [hdone, Reader.finish]

end
end Json

/-! ### Streams of texts -/

namespace Framing.Reader
open Json

/-- A text of an array or object, with its value. -/
def IsText (text : List UInt8) (value : Json) : Prop :=
  Json.read text = some value ∧ value.isContainer = true

section
variable {text rest before cut : List UInt8} {texts : List (List UInt8)} {value : Json} {values : List Json}

/-- A call returns the first text of the stream, and leaves the blanks behind it with what follows. -/
theorem nextFrame_text (h : IsText text value) (hbefore : ∀ b ∈ before, Blank b) :
    ∃ after, (∀ b ∈ after, Blank b) ∧ ∀ rest,
      (empty.extend (before ++ (text ++ rest))).nextFrame [] =
        (.ok (some value), empty.extend (after ++ rest), []) := by
  obtain ⟨lead, body, tail, rfl, hbody, hread, hlead, htail⟩ := read_container h.1 h.2
  have hblank : ∀ b ∈ before ++ lead, Blank b := List.forall_mem_append.mpr ⟨hbefore, hlead⟩
  refine ⟨tail, htail, fun rest => nextFrame_of_value ?_⟩
  show (empty.extend (before ++ (lead ++ body ++ tail ++ rest))).poll = (.value value, empty.extend (tail ++ rest))
  have hassoc : before ++ (lead ++ body ++ tail ++ rest) = (before ++ lead) ++ (body ++ (tail ++ rest)) := by
    simp only [List.append_assoc]
  show scan [] .initial ([] ++ _) = _
  rw [List.nil_append, hassoc, scan_of_blank hblank, scan_of_completes hbody]
  simp only [List.append_nil, List.reverse_reverse, ofText, hread _ hblank]
  rfl

/-- The stream ends cleanly if only blanks are left. -/
theorem nextFrame_blank (hbefore : ∀ b ∈ before, Blank b) :
    ((empty.extend before).nextFrame []).1 = .ok none := by
  have hpoll : (empty.extend before).poll = (.incomplete, ⟨before.reverse, [], .initial⟩) := by
    have hscan := scan_of_blank hbefore [] []
    rw [List.append_nil, List.append_nil] at hscan
    exact hscan
  rw [nextFrame_at_end hpoll]
  rfl

theorem not_blank_of_mark {b : UInt8}
    (h : Scanner.isOpening (Char.ofUInt8 b) = true ∨ Scanner.isClosing (Char.ofUInt8 b) = true) : ¬Blank b := by
  intro hb
  have hmark := isMark_of_isBlank hb
  simp only [Scanner.isMark, decide_eq_false_iff_not, not_or] at hmark
  simp only [Scanner.isOpening, Scanner.isClosing, decide_eq_true_eq] at h
  tauto

/-- A text that has begun but not ended is an error at the end of the stream. -/
theorem nextFrame_cut (h : IsText (cut ++ rest) value)
    (hcut : ∃ b ∈ cut, Scanner.isOpening (Char.ofUInt8 b) = true)
    (hrest : ∃ b ∈ rest, Scanner.isClosing (Char.ofUInt8 b) = true) (hbefore : ∀ b ∈ before, Blank b) :
    ((empty.extend (before ++ cut)).nextFrame []).1 = .error (.protocol .cutOff) := by
  obtain ⟨lead, body, tail, hsplit, hbody, -, hlead, htail⟩ := read_container h.1 h.2
  -- The cut is behind the first bracket of the body and before the last one.
  obtain ⟨head, last, rfl, rfl, hhead, hlast⟩ : ∃ head last, cut = lead ++ head ∧ body = head ++ last ∧
      head ≠ [] ∧ last ≠ [] := by
    obtain ⟨b, hb, hopen⟩ := hcut
    obtain ⟨e, he, hclose⟩ := hrest
    have hnotlead : b ∉ lead := fun hmem => not_blank_of_mark (Or.inl hopen) (hlead b hmem)
    have hnottail : e ∉ tail := fun hmem => not_blank_of_mark (Or.inr hclose) (htail e hmem)
    rw [List.append_assoc] at hsplit
    rcases List.append_eq_append_iff.mp hsplit with ⟨more, rfl, -⟩ | ⟨head, rfl, hrest'⟩
    · exact absurd (List.mem_append_left more hb) hnotlead
    · rcases List.append_eq_append_iff.mp hrest' with ⟨more, rfl, rfl⟩ | ⟨last, rfl, rfl⟩
      · exact absurd (List.mem_append_right more he) hnottail
      · refine ⟨head, last, rfl, rfl, ?_, ?_⟩
        · rintro rfl
          rw [List.append_nil] at hb
          exact hnotlead hb
        · rintro rfl
          exact hnottail he
  have hblank : ∀ b ∈ before ++ lead, Blank b := List.forall_mem_append.mpr ⟨hbefore, hlead⟩
  obtain ⟨s', hs', hscan⟩ := scan_of_cut hbody hlast hhead (before ++ lead).reverse
  have hpoll : (empty.extend (before ++ (lead ++ head))).poll =
      (.incomplete, ⟨head.reverse ++ (before ++ lead).reverse, [], s'⟩) := by
    show scan [] .initial ([] ++ _) = _
    rw [List.nil_append, ← List.append_assoc, scan_of_blank hblank, List.append_nil, hscan]
  have hbusy : s'.isIdle = false := by
    simp [Scanner.isIdle, Nat.ne_of_gt hs']
  rw [nextFrame_at_end hpoll]
  simp [atEnd, hbusy, Except.map]

/-- The texts of a stream are returned one after another. -/
theorem outcomes_texts (h : List.Forall₂ IsText texts values) (hbefore : ∀ b ∈ before, Blank b) :
    ∃ after, (∀ b ∈ after, Blank b) ∧ ∀ rest k,
      outcomes (values.length + k) (empty.extend (before ++ (texts.flatten ++ rest))) [] =
        values.map (.ok ∘ some) ++ outcomes k (empty.extend (after ++ rest)) [] := by
  induction h generalizing before with
  | nil => exact ⟨before, hbefore, fun rest k => by simp⟩
  | @cons text value texts values htext _ ih =>
    obtain ⟨tail, htail, hfirst⟩ := nextFrame_text htext hbefore
    obtain ⟨after, hafter, hrun⟩ := ih htail
    refine ⟨after, hafter, fun rest k => ?_⟩
    rw [List.length_cons, Nat.add_right_comm, outcomes, List.flatten_cons, List.append_assoc, hfirst, List.map_cons,
      List.cons_append, ← hrun rest k]
    rfl

end

/-- Framing is exact. Arrays and objects, with any blanks around them, are returned in order, in whatever non-empty
    reads their stream arrives, and the stream then ends cleanly. If it goes on with a text that breaks off behind
    its first bracket and before its last one, they are returned all the same, but the call after them reports that
    the stream has been cut off. -/
theorem outcomes_of_stream {texts : List (List UInt8)} {values : List Json} (h : List.Forall₂ IsText texts values) :
    (∀ reads : List (List UInt8), (∀ read ∈ reads, read ≠ []) → reads.flatten = texts.flatten →
      outcomes (texts.length + 1) empty reads = values.map (.ok ∘ some) ++ [.ok none]) ∧
    (∀ (cut rest : List UInt8) (value : Json) (reads : List (List UInt8)), IsText (cut ++ rest) value →
      (∃ b ∈ cut, Scanner.isOpening (Char.ofUInt8 b) = true) →
      (∃ b ∈ rest, Scanner.isClosing (Char.ofUInt8 b) = true) →
      (∀ read ∈ reads, read ≠ []) → reads.flatten = texts.flatten ++ cut →
      outcomes (texts.length + 1) empty reads = values.map (.ok ∘ some) ++ [.error (.protocol .cutOff)]) := by
  have hnil : ∀ b ∈ ([] : List UInt8), Blank b := fun _ hb => absurd hb List.not_mem_nil
  obtain ⟨after, hafter, hrun⟩ := outcomes_texts h hnil
  have hlen : texts.length = values.length := h.length_eq
  refine ⟨fun reads hreads hbytes => ?_, fun cut rest value reads htext hcut hrest hreads hbytes => ?_⟩
  · have hfirst := hrun [] 1
    rw [List.append_nil, List.append_nil, List.nil_append, outcomes_one, nextFrame_blank hafter] at hfirst
    rw [outcomes_eq hreads, hbytes, hlen]
    exact hfirst
  · have hfirst := hrun cut 1
    rw [List.nil_append, outcomes_one, nextFrame_cut htext hcut hrest hafter] at hfirst
    rw [outcomes_eq hreads, hbytes, hlen]
    exact hfirst

/-- Brackets and an escaped quote inside a string, a read that ends behind a backslash, and a third text that breaks
    off inside a string behind a bracket that closes nothing. -/
theorem outcomes_of_stream_cut :
    let first := "[\"\x7d]\\\"\x7b\"] \n".toUTF8.data.toList
    let second := " \x7b\"a\":[1]\x7d".toUTF8.data.toList
    let third := "[\"]".toUTF8.data.toList
    IsText first (.arr [.str "\x7d]\"\x7b"]) ∧ IsText second (.obj [("a", .arr [.int ⟨1, by decide, by decide⟩])]) ∧
      outcomes 3 empty [first.take 5, first.drop 5 ++ second, third] =
        [.ok (some (.arr [.str "\x7d]\"\x7b"])), .ok (some (.obj [("a", .arr [.int ⟨1, by decide, by decide⟩])])),
          .error (.protocol .cutOff)] := by
  have hfirst : IsText "[\"\x7d]\\\"\x7b\"] \n".toUTF8.data.toList (.arr [.str "\x7d]\"\x7b"]) := ⟨rfl, rfl⟩
  have hsecond : IsText " \x7b\"a\":[1]\x7d".toUTF8.data.toList
      (.obj [("a", .arr [.int ⟨1, by decide, by decide⟩])]) := ⟨rfl, rfl⟩
  have hthird : IsText ("[\"]".toUTF8.data.toList ++ "\"]".toUTF8.data.toList) (.arr [.str "]"]) := ⟨rfl, rfl⟩
  exact ⟨hfirst, hsecond, (outcomes_of_stream (.cons hfirst (.cons hsecond .nil))).2 _ _ _ _ hthird
    (by decide) (by decide) (by decide) (by decide)⟩

end Framing.Reader
end Ovsdb
