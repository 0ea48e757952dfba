import Ovsdb.Session.Ledger
import Mathlib.Data.List.Nodup
import Mathlib.Logic.Relation

/-! The moves that the books of a session are made of, and how they keep the calls, the pending numbers and the
    journal in step with each other. -/

namespace Ovsdb

namespace Event

/-- The call that begins. -/
def called? : Event → Option Nat
  | .called n => some n
  | _ => none

/-- The call that goes away, by its end or because it is given up. -/
def left? : Event → Option Nat
  | .ended n _ => some n
  | .abandoned n => some n
  | _ => none

/-- Whether an event only tells what has been put somewhere or said to someone. -/
def IsRemark : Event → Prop
  | .queued _ => True
  | .finished .. => True
  | .callback .. => True
  | _ => False

variable {e : Event}

theorem isRemark_queued (item : Outbound) : IsRemark (.queued item) :=
  trivial

theorem isRemark_finished (ticket : Nat) (result : Except Error Answer) : IsRemark (.finished ticket result) :=
  trivial

theorem isRemark_callback (h : Handler) (n : Notification) : IsRemark (.callback h n) :=
  trivial

theorem IsRemark.called? (h : e.IsRemark) : e.called? = none := by
  cases e <;> first | rfl | exact h.elim

theorem IsRemark.left? (h : e.IsRemark) : e.left? = none := by
  cases e <;> first | rfl | exact h.elim

theorem IsRemark.ne_closed (h : e.IsRemark) : e ≠ .closed := by
  rintro rfl
  exact h

theorem IsRemark.ne_received (h : e.IsRemark) (m : Json) : e ≠ .received m := by
  rintro rfl
  exact h

end Event

namespace Ledger

/-! ### Moves -/

/-- Takes down a message, and takes it if it is a response. -/
def receive (m : Json) (l : Ledger) : Ledger :=
  match Message.ofJson m with
  | .ok (.response r) => (l.note (.received m)).complete r
  | _ => l.note (.received m)

/-- One change of the books of a session, apart from those by which it takes a message or is closed. -/
inductive Move : Ledger → Ledger → Prop where
  | remark {l : Ledger} {e : Event} (h : e.IsRemark) : Move l (l.note e)
  | begin {l : Ledger} (caller : Caller) (goal : Goal) (h : l.state = .opened) : Move l (l.begin caller goal)
  | refuse {l : Ledger} (h : l.state = .closed) : Move l l.refuse
  | place {l : Ledger} (number : Nat) : Move l (l.place number)
  | abandon {l : Ledger} {call : Call} (h : call ∈ l.calls) : Move l (l.abandon call.number)
  | conclude {l : Ledger} {call : Call} {reply : Except Error Json} (h : call ∈ l.calls)
      (queued : call.queued = true) (replied : call.reply = some reply) : Move l (l.finish call.number reply)
  | reject {l : Ledger} {call : Call} (h : call ∈ l.calls) (queued : call.queued = false)
      (closed : l.state = .closed) : Move l (l.finish call.number (.error .connectionClosed))

/-- A move, or the closing of an open session. -/
inductive Turn : Ledger → Ledger → Prop where
  | move {l l' : Ledger} (h : Move l l') : Turn l l'
  | close {l : Ledger} (h : l.state = .opened) : Turn l l.close

/-- `l'` says more than `l`, and nothing else has changed. -/
def Remarks (l l' : Ledger) : Prop :=
  ∃ events : List Event, (∀ e ∈ events, e.IsRemark) ∧ l' = { l with journal := l.journal ++ events }

/-- What one step of a run does to the books of a session: some turns, or the receipt of one message. -/
inductive Step : Ledger → Ledger → Prop where
  | turns {l l' : Ledger} (h : Relation.ReflTransGen Turn l l') : Step l l'
  | message {l l' : Ledger} (m : Json) (h : Remarks (l.receive m) l') : Step l l'

variable {l l' l'' : Ledger} {n : Nat} {x : Except Error Json} {call other : Call} {e : Event} {m : Json}

namespace Remarks

theorem refl (l : Ledger) : Remarks l l :=
  ⟨[], by simp, by rw [List.append_nil]⟩

theorem note (h : e.IsRemark) : Remarks l (l.note e) :=
  ⟨[e], by simpa using h, rfl⟩

theorem trans (h₁ : Remarks l l') (h₂ : Remarks l' l'') : Remarks l l'' := by
  obtain ⟨events, hs, rfl⟩ := h₁
  obtain ⟨more, hm, rfl⟩ := h₂
  refine ⟨events ++ more, ?_, by simp only [List.append_assoc]⟩
  intro e he
  rcases List.mem_append.mp he with he | he
  · exact hs e he
  · exact hm e he

theorem moves (h : Remarks l l') : Relation.ReflTransGen Move l l' := by
  obtain ⟨events, hs, rfl⟩ := h
  induction events generalizing l with
  | nil => rw [List.append_nil]
  | cons e events ih =>
    have first : Move l (l.note e) := .remark (hs e List.mem_cons_self)
    have rest := ih (l := l.note e) fun e' he' => hs e' (List.mem_cons_of_mem e he')
    rw [Ledger.note, List.append_assoc] at rest
    exact .head first rest

theorem state (h : Remarks l l') : l'.state = l.state := by
  obtain ⟨events, -, rfl⟩ := h
  rfl

theorem calls (h : Remarks l l') : l'.calls = l.calls := by
  obtain ⟨events, -, rfl⟩ := h
  rfl

end Remarks

theorem turns_of_moves (h : Relation.ReflTransGen Move l l') : Relation.ReflTransGen Turn l l' :=
  h.lift id fun _ _ => .move

/-! ### What the changes leave as it is -/

@[simp]
theorem answer_numbers (l : Ledger) (numbers : List Nat) (reply : Except Error Json) :
    (l.answer numbers reply).calls.map (·.number) = l.calls.map (·.number) := by
  rw [answer, List.map_map]
  apply List.map_congr_left
  intro c _
  simp only [Function.comp_apply]
  split <;> rfl

@[simp]
theorem place_numbers (l : Ledger) (n : Nat) : (l.place n).calls.map (·.number) = l.calls.map (·.number) := by
  rw [place, List.map_map]
  apply List.map_congr_left
  intro c _
  simp only [Function.comp_apply]
  split <;> rfl

theorem answer_nil (l : Ledger) (reply : Except Error Json) : l.answer [] reply = l := by
  simp [answer]

theorem mem_answer_of_notMem {numbers : List Nat} {reply : Except Error Json} (h : call ∈ l.calls)
    (hn : call.number ∉ numbers) : call ∈ (l.answer numbers reply).calls :=
  List.mem_map.mpr ⟨call, h, if_neg hn⟩

/-- A call after an answer was there before, and has got the reply if it is one of those answered. -/
theorem mem_answer {numbers : List Nat} {reply : Except Error Json} (h : call ∈ (l.answer numbers reply).calls) :
    (call ∈ l.calls ∧ call.number ∉ numbers) ∨
      ∃ c ∈ l.calls, c.number ∈ numbers ∧ call = { c with reply := some reply } := by
  obtain ⟨c, hc, rfl⟩ := List.mem_map.mp h
  by_cases hn : c.number ∈ numbers
  · exact Or.inr ⟨c, hc, hn, if_pos hn⟩
  · rw [if_neg hn]
    exact Or.inl ⟨hc, hn⟩

theorem mem_place (h : call ∈ (l.place n).calls) :
    ∃ c ∈ l.calls, call.number = c.number ∧ call.reply = c.reply ∧ (c.queued = true → call.queued = true) := by
  obtain ⟨c, hc, rfl⟩ := List.mem_map.mp h
  refine ⟨c, hc, ?_⟩
  split <;> simp

theorem mem_place_of_mem (h : call ∈ l.calls) :
    ∃ c ∈ (l.place n).calls, c.number = call.number ∧ c.reply = call.reply ∧
      (call.queued = true → c.queued = true) := by
  refine ⟨_, List.mem_map.mpr ⟨call, h, rfl⟩, ?_⟩
  split <;> simp

theorem mem_pendingWith {id : UInt64} : n ∈ l.pendingWith id ↔ n ∈ l.pending ∧ requestId n = id := by
  rw [pendingWith, List.mem_filter, decide_eq_true_iff]

theorem mem_pending_vacate {id : UInt64} : n ∈ (l.vacate id).pending ↔ n ∈ l.pending ∧ requestId n ≠ id := by
  rw [vacate, answer, List.mem_filter, decide_eq_true_iff, mem_pendingWith]
  exact and_congr_right fun hp => not_congr (and_iff_right hp)

theorem answer_callers (l : Ledger) (numbers : List Nat) (reply : Except Error Json) :
    (l.answer numbers reply).calls.map (·.caller) = l.calls.map (·.caller) := by
  rw [answer, List.map_map]
  apply List.map_congr_left
  intro c _
  simp only [Function.comp_apply]
  split <;> rfl

/-- The receipt of a message takes it down and fills the slots of some pending calls. -/
theorem receive_eq (m : Json) (l : Ledger) : ∃ numbers reply, (∀ k ∈ numbers, k ∈ l.pending) ∧
    l.receive m = (l.note (.received m)).answer numbers reply := by
  have ignored : ∃ numbers reply, (∀ k ∈ numbers, k ∈ l.pending) ∧
      l.note (.received m) = (l.note (.received m)).answer numbers reply :=
    ⟨[], .error .connectionClosed, by simp, (answer_nil _ _).symm⟩
  rw [receive]
  split
  · rw [complete]
    split
    · exact ignored
    · exact ⟨_, _, fun k hk => (mem_pendingWith.mp hk).1, rfl⟩
  · exact ignored

theorem receive_state (m : Json) (l : Ledger) : (l.receive m).state = l.state := by
  obtain ⟨numbers, reply, -, heq⟩ := receive_eq m l
  rw [heq]
  rfl

theorem receive_begun (m : Json) (l : Ledger) : (l.receive m).begun = l.begun := by
  obtain ⟨numbers, reply, -, heq⟩ := receive_eq m l
  rw [heq]
  rfl

theorem receive_callers (m : Json) (l : Ledger) : (l.receive m).calls.map (·.caller) = l.calls.map (·.caller) := by
  obtain ⟨numbers, reply, -, heq⟩ := receive_eq m l
  rw [heq]
  exact answer_callers _ _ _

theorem move_state (h : Move l l') : l'.state = l.state := by
  cases h <;> rfl

theorem moves_state (h : Relation.ReflTransGen Move l l') : l'.state = l.state := by
  induction h with
  | refl => rfl
  | tail _ h ih => exact (move_state h).trans ih

/-- Turns extend the journal, but not by messages. -/
theorem journal_turn (h : Turn l l') :
    ∃ events, l'.journal = l.journal ++ events ∧ ∀ m, .received m ∉ events := by
  rcases h with ⟨h⟩ | _
  · cases h with
    | @remark e he => exact ⟨[e], rfl, fun m hm => he.ne_received m (List.mem_singleton.mp hm).symm⟩
    | begin _ _ _ => exact ⟨[_], rfl, by simp⟩
    | refuse _ => exact ⟨[_, _], List.append_assoc _ _ _, by simp⟩
    | place _ => exact ⟨[], (List.append_nil _).symm, by simp⟩
    | abandon _ => exact ⟨[_], rfl, by simp⟩
    | conclude _ _ _ => exact ⟨[_], rfl, by simp⟩
    | reject _ _ _ => exact ⟨[_], rfl, by simp⟩
  · exact ⟨[_], rfl, by simp⟩

theorem journal_turns (h : Relation.ReflTransGen Turn l l') :
    ∃ events, l'.journal = l.journal ++ events ∧ ∀ m, .received m ∉ events := by
  induction h with
  | refl => exact ⟨[], (List.append_nil _).symm, by simp⟩
  | tail _ turn ih =>
    obtain ⟨events, said, silent⟩ := ih
    obtain ⟨more, said', silent'⟩ := journal_turn turn
    refine ⟨events ++ more, by rw [said', said, List.append_assoc], fun m hm => ?_⟩
    rcases List.mem_append.mp hm with hm | hm
    · exact silent m hm
    · exact silent' m hm

theorem step_journal (h : Step l l') : ∃ events, l'.journal = l.journal ++ events := by
  cases h with
  | turns ht =>
    obtain ⟨events, said, -⟩ := journal_turns ht
    exact ⟨events, said⟩
  | message m hr =>
    obtain ⟨numbers, reply, -, heq⟩ := receive_eq m l
    obtain ⟨events, -, rfl⟩ := hr
    rw [heq]
    exact ⟨.received m :: events, List.append_assoc _ _ _⟩

theorem turn_closed (h : Turn l l') (closed : l.state = .closed) : l'.state = .closed := by
  cases h with
  | move hm => exact (move_state hm).trans closed
  | close _ => rfl

theorem turns_closed (h : Relation.ReflTransGen Turn l l') (closed : l.state = .closed) : l'.state = .closed := by
  induction h with
  | refl => exact closed
  | tail _ ht ih => exact turn_closed ht ih

theorem step_closed (h : Step l l') (closed : l.state = .closed) : l'.state = .closed := by
  cases h with
  | turns ht => exact turns_closed ht closed
  | message m hr => exact hr.state.trans ((receive_state m l).trans closed)

/-! ### Soundness -/

/-- The pending numbers are those of the calls with an empty slot. -/
def Tallied (l : Ledger) : Prop :=
  ∀ n, n ∈ l.pending ↔ ∃ call ∈ l.calls, call.number = n ∧ call.reply = none

/-- The books are in order: the journal knows every call that has begun, each of them is there or has gone away
    once, and pending are those that wait for a reply, under different ids. -/
structure Sound (l : Ledger) : Prop where
  called : l.journal.filterMap Event.called? = List.range l.begun
  left : (l.journal.filterMap Event.left? ++ l.calls.map (·.number)).Perm (List.range l.begun)
  tallied : l.Tallied
  keys : (l.pending.map requestId).Nodup
  shut : l.state = .closed → l.pending = []
  closed : .closed ∈ l.journal ↔ l.state = .closed

namespace Sound

theorem empty : Sound .empty where
  called := rfl
  left := .refl _
  tallied := by intro n; simp [Ledger.empty]
  keys := .nil
  shut := by simp [Ledger.empty]
  closed := by simp [Ledger.empty]

theorem numbers (h : l.Sound) : (l.calls.map (·.number)).Nodup :=
  (List.nodup_append.mp (h.left.nodup_iff.mpr List.nodup_range)).2.1

theorem eq_of_number (h : l.Sound) (hc : call ∈ l.calls) (ho : other ∈ l.calls)
    (hn : call.number = other.number) : call = other :=
  List.inj_on_of_nodup_map h.numbers hc ho hn

theorem number_lt (h : l.Sound) (hc : call ∈ l.calls) : call.number < l.begun := by
  have inBooks : call.number ∈ l.journal.filterMap Event.left? ++ l.calls.map (·.number) :=
    List.mem_append_right _ (List.mem_map_of_mem hc)
  exact List.mem_range.mp (h.left.mem_iff.mp inBooks)

/-- A call that is there has not gone away. -/
theorem not_left (h : l.Sound) (hc : call ∈ l.calls) (he : e ∈ l.journal) : e.left? ≠ some call.number := by
  intro hl
  have nodup := h.left.nodup_iff.mpr List.nodup_range
  exact (List.nodup_append.mp nodup).2.2 _ (List.mem_filterMap.mpr ⟨e, he, hl⟩) _ (List.mem_map_of_mem hc) rfl

theorem pending_iff (h : l.Sound) (hc : call ∈ l.calls) : call.number ∈ l.pending ↔ call.reply = none := by
  constructor
  · intro hp
    obtain ⟨c, hc', hn, hr⟩ := (h.tallied _).mp hp
    rwa [h.eq_of_number hc hc' hn.symm]
  · intro hr
    exact (h.tallied _).mpr ⟨call, hc, rfl, hr⟩

/-! ### Keeping soundness -/

theorem note (h : l.Sound) (hc : e.called? = none) (hl : e.left? = none) (hs : e ≠ .closed) : (l.note e).Sound where
  called := by simp [Ledger.note, List.filterMap_append, hc, h.called]
  left := by simpa [Ledger.note, List.filterMap_append, hl] using h.left
  tallied := h.tallied
  keys := h.keys
  shut := h.shut
  closed := by simpa [Ledger.note, hs.symm] using h.closed

theorem remark (h : l.Sound) (he : e.IsRemark) : (l.note e).Sound :=
  h.note he.called? he.left? he.ne_closed

theorem answer (h : l.Sound) (numbers : List Nat) (reply : Except Error Json) : (l.answer numbers reply).Sound where
  called := h.called
  left := by
    rw [answer_numbers]
    exact h.left
  tallied := by
    intro n
    rw [show n ∈ (l.answer numbers reply).pending ↔ n ∈ l.pending ∧ n ∉ numbers by simp [Ledger.answer], h.tallied]
    constructor
    · rintro ⟨⟨call, hc, rfl, hr⟩, hn⟩
      exact ⟨call, mem_answer_of_notMem hc hn, rfl, hr⟩
    · rintro ⟨call, hc, rfl, hr⟩
      rcases mem_answer hc with ⟨hc, hn⟩ | ⟨c, -, -, rfl⟩
      · exact ⟨⟨call, hc, rfl, hr⟩, hn⟩
      · cases hr
  keys := h.keys.sublist (List.filter_sublist.map _)
  shut := by
    intro hs
    rw [Ledger.answer, h.shut hs, List.filter_nil]
  closed := h.closed

theorem tallied_forget (h : l.Sound) (n : Nat) : (l.forget n).Tallied := by
  intro k
  rw [forget, mem_pending_vacate, h.tallied]
  -- The call goes by its number, but the slot by its id: all who wait under that id are answered.
  constructor
  · rintro ⟨⟨call, hc, rfl, hr⟩, hk⟩
    refine ⟨call, mem_answer_of_notMem (List.mem_filter.mpr ⟨hc, ?_⟩) ?_, rfl, hr⟩
    · exact bne_iff_ne.mpr fun hn => hk (congrArg requestId hn)
    · exact fun hm => hk (mem_pendingWith.mp hm).2
  · rintro ⟨call, hc, rfl, hr⟩
    rcases mem_answer hc with ⟨hc, hn⟩ | ⟨c, -, -, rfl⟩
    · have there : call ∈ l.calls := (List.mem_filter.mp hc).1
      refine ⟨⟨call, there, rfl, hr⟩, fun hk => hn ?_⟩
      exact mem_pendingWith.mpr ⟨(h.pending_iff there).mpr hr, hk⟩
    · cases hr

theorem leave (h : l.Sound) (hc : call ∈ l.calls) (he : e.left? = some call.number) :
    ((l.forget call.number).note e).Sound where
  called := by
    have quiet : e.called? = none := by cases e <;> first | rfl | cases he
    simp [Ledger.note, forget, vacate, Ledger.answer, List.filterMap_append, quiet, h.called]
  left := by
    have rest : (l.forget call.number).calls.map (·.number) = (l.calls.map (·.number)).erase call.number := by
      rw [forget, vacate, answer_numbers, h.numbers.erase_eq_filter, List.filter_map]
      rfl
    have all : (l.calls.map (·.number)).Perm (call.number :: (l.calls.map (·.number)).erase call.number) :=
      List.perm_cons_erase (List.mem_map_of_mem hc)
    have said : (l.journal ++ [e]).filterMap Event.left? = l.journal.filterMap Event.left? ++ [call.number] := by
      simp [List.filterMap_append, he]
    -- The number goes over from the calls that are there to those that the journal says have gone away.
    change ((l.journal ++ [e]).filterMap Event.left? ++ (l.forget call.number).calls.map (·.number)).Perm _
    rw [said, rest, List.append_assoc]
    exact (all.symm.append_left _).trans h.left
  tallied := h.tallied_forget call.number
  keys := h.keys.sublist (List.filter_sublist.map _)
  shut := by
    intro hs
    change l.pending.filter _ = []
    rw [h.shut hs, List.filter_nil]
  closed := by
    have quiet : .closed ≠ e := by rintro rfl; cases he
    simpa [Ledger.note, forget, vacate, Ledger.answer, quiet] using h.closed

theorem refuse (h : l.Sound) : l.refuse.Sound where
  called := by
    simp [Ledger.refuse, count, Ledger.note, List.filterMap_append, Event.called?, h.called, List.range_succ]
  left := by
    have said : l.refuse.journal.filterMap Event.left? = l.journal.filterMap Event.left? ++ [l.begun] := by
      simp [Ledger.refuse, count, Ledger.note, List.filterMap_append, List.filterMap_cons, Event.left?]
    rw [said, List.append_assoc]
    change (_ ++ l.begun :: l.calls.map (·.number)).Perm (List.range (l.begun + 1))
    rw [List.range_succ]
    exact List.perm_middle.trans ((h.left.cons _).trans (List.perm_append_singleton _ _).symm)
  tallied := h.tallied
  keys := h.keys
  shut := h.shut
  closed := by simpa [Ledger.refuse, count, Ledger.note] using h.closed

theorem begin (h : l.Sound) (hs : l.state = .opened) (caller : Caller) (goal : Goal) :
    (l.begin caller goal).Sound where
  called := by
    simp [Ledger.begin, count, vacate, Ledger.answer, Ledger.note, List.filterMap_append, Event.called?, h.called,
      List.range_succ]
  left := by
    have said : (l.begin caller goal).journal.filterMap Event.left? = l.journal.filterMap Event.left? := by
      simp [Ledger.begin, count, vacate, Ledger.answer, Ledger.note, List.filterMap_append, Event.left?]
    have numbers : (l.begin caller goal).calls.map (·.number) = l.calls.map (·.number) ++ [l.begun] := by
      rw [Ledger.begin, List.map_append, vacate, answer_numbers]
      rfl
    rw [said, numbers, ← List.append_assoc]
    change (_ ++ [l.begun]).Perm (List.range (l.begun + 1))
    rw [List.range_succ]
    exact h.left.append_right _
  tallied := by
    -- The slot under the new id is taken away from whoever has it, before the new call gets one.
    have rest : (l.count.vacate (requestId l.begun)).Tallied :=
      (h.answer (l.pendingWith (requestId l.begun)) (.error .connectionClosed)).tallied
    intro n
    change n ∈ (l.count.vacate (requestId l.begun)).pending ++ [l.begun] ↔
      ∃ call ∈ (l.count.vacate (requestId l.begun)).calls ++ [Call.mk l.begun caller goal false none], _
    rw [List.mem_append, rest, List.mem_singleton]
    constructor
    · rintro (⟨call, hc, hn⟩ | rfl)
      · exact ⟨call, List.mem_append_left _ hc, hn⟩
      · exact ⟨_, List.mem_append_right _ (List.mem_singleton.mpr rfl), rfl, rfl⟩
    · rintro ⟨call, hc, hn, hr⟩
      rcases List.mem_append.mp hc with hc | hc
      · exact Or.inl ⟨call, hc, hn, hr⟩
      · rw [List.mem_singleton.mp hc] at hn
        exact Or.inr hn.symm
  keys := by
    change (((l.count.vacate (requestId l.begun)).pending ++ [l.begun]).map requestId).Nodup
    rw [List.map_append, List.nodup_append]
    refine ⟨h.keys.sublist (List.filter_sublist.map _), List.nodup_singleton _, ?_⟩
    rintro _ hold _ hnew rfl
    obtain ⟨n, hn, hid⟩ := List.mem_map.mp hold
    exact (mem_pending_vacate.mp hn).2 (hid.trans (List.mem_singleton.mp hnew))
  shut := by
    intro hc
    exact absurd (hs.symm.trans hc) (by simp)
  closed := by simpa [Ledger.begin, count, vacate, Ledger.answer, Ledger.note] using h.closed

theorem place (h : l.Sound) (n : Nat) : (l.place n).Sound where
  called := h.called
  left := by
    rw [place_numbers]
    exact h.left
  tallied := by
    intro k
    change k ∈ l.pending ↔ _
    rw [h.tallied]
    constructor
    · rintro ⟨call, hc, rfl, hr⟩
      obtain ⟨c, hc, hn, hr', -⟩ := mem_place_of_mem hc
      exact ⟨c, hc, hn, hr'.trans hr⟩
    · rintro ⟨call, hc, rfl, hr⟩
      obtain ⟨c, hc, hn, hr', -⟩ := mem_place hc
      exact ⟨c, hc, hn.symm, hr'.symm.trans hr⟩
  keys := h.keys
  shut := h.shut
  closed := h.closed

theorem close (h : l.Sound) : l.close.Sound where
  called := by simp [Ledger.close, Ledger.answer, Ledger.note, List.filterMap_append, Event.called?, h.called]
  left := by
    rw [Ledger.close, answer_numbers]
    simpa [Ledger.answer, Ledger.note, List.filterMap_append, List.filterMap_cons, Event.left?] using h.left
  tallied := (h.answer l.pending (.error .connectionClosed)).tallied
  keys := (h.answer l.pending (.error .connectionClosed)).keys
  shut := by
    intro _
    simp [Ledger.close, Ledger.answer, Ledger.note]
  closed := by simp [Ledger.close, Ledger.answer, Ledger.note]

theorem receive (h : l.Sound) (m : Json) : (l.receive m).Sound := by
  have noted : (l.note (.received m)).Sound := h.note rfl rfl (by simp)
  obtain ⟨numbers, reply, -, heq⟩ := receive_eq m l
  rw [heq]
  exact noted.answer numbers reply

theorem move (h : l.Sound) (hm : Move l l') : l'.Sound := by
  cases hm with
  | remark he => exact h.remark he
  | begin caller goal hs => exact h.begin hs caller goal
  | refuse _ => exact h.refuse
  | place n => exact h.place n
  | abandon hc => exact h.leave hc rfl
  | conclude hc _ _ => exact h.leave hc rfl
  | reject hc _ _ => exact h.leave hc rfl

theorem turn (h : l.Sound) (ht : Turn l l') : l'.Sound := by
  cases ht with
  | move hm => exact h.move hm
  | close _ => exact h.close

theorem turns (h : l.Sound) (ht : Relation.ReflTransGen Turn l l') : l'.Sound := by
  induction ht with
  | refl => exact h
  | tail _ ht ih => exact ih.turn ht

theorem step (h : l.Sound) (hs : Step l l') : l'.Sound := by
  cases hs with
  | turns ht => exact h.turns ht
  | message m hr => exact (h.receive m).turns (turns_of_moves hr.moves)

end Sound
end Ledger
end Ovsdb
