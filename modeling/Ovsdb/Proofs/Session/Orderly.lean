import Ovsdb.Session.State
import Ovsdb.Proofs.Session.Ledger
import Ovsdb.Proofs.Session.Wakening

/-! Sessions in order: the calls whose frames are not in the queue are those that wait for room in it, nobody waits
    for a writer that has ended, and writers end and shutdowns are asked for in closed sessions only. -/

namespace Ovsdb

/-- The call whose frame it is. -/
def Sender.call? : Sender → Option Nat
  | .call n => some n
  | _ => none

namespace Session

/-- What waits for room in the queue, invited or not. -/
def offers (s : Session) : List Waiting :=
  s.invited ++ s.waiting

/-- The calls among those that wait for room. -/
def offering (s : Session) : List Nat :=
  s.offers.filterMap (·.sender.call?)

/-- The calls whose frames are not in the queue yet. -/
def unplaced (s : Session) : List Nat :=
  (s.calls.filter fun c => !c.queued).map (·.number)

/-- What holds of a session at all times. -/
structure Orderly (s : Session) : Prop where
  books : s.toLedger.Sound
  offering : s.offering = s.unplaced
  spent : s.writer = .ended → s.state = .closed ∧ s.offers = []
  marked : ∀ ticket, .shutdown ticket ∈ s.queue → s.state = .closed
  offered : ∀ w ∈ s.offers, ∀ ticket, w.item = .shutdown ticket → s.state = .closed

/-- `t` comes from `s` by moves of its books, and is in order. No wakening is lost on the way. -/
structure Moved (s t : Session) : Prop where
  books : Relation.ReflTransGen Ledger.Move s.toLedger t.toLedger
  registry : t.registry = s.registry
  connection : t.connection = s.connection
  orderly : t.Orderly
  awake : s.Awake → t.Awake

/-- `t` comes from `s` by remarks in its books, is in order, and the same users hold on to it. -/
structure Quiet (s t : Session) : Prop where
  books : s.toLedger.Remarks t.toLedger
  registry : t.registry = s.registry
  connection : t.connection = s.connection
  handles : t.handles = s.handles
  closers : t.closers = s.closers
  orderly : t.Orderly
  awake : s.Awake → t.Awake

variable {s t u : Session} {n : Nat} {item : Outbound} {sender : Sender} {e : Event} {call : Call} {w : Waiting}
  {l : Ledger}

theorem mem_offering : n ∈ s.offering ↔ ∃ w ∈ s.offers, w.sender = .call n := by
  rw [offering, List.mem_filterMap]
  refine exists_congr fun w => and_congr_right fun _ => ?_
  cases w.sender <;> simp [Sender.call?]

/-- The two differ in nothing that order is about. -/
structure Alike (s t : Session) : Prop where
  books : t.toLedger = s.toLedger
  registry : t.registry = s.registry
  connection : t.connection = s.connection
  queue : t.queue = s.queue
  invited : t.invited = s.invited
  waiting : t.waiting = s.waiting
  writer : t.writer = s.writer
  ready : t.ready = s.ready

/-- The books move, and some of those that wait for room may go, as long as these are the calls that the books place
    or let go. -/
theorem Orderly.thinned (h : s.Orderly) (moves : Relation.ReflTransGen Ledger.Move s.toLedger t.toLedger)
    (registry : t.registry = s.registry) (connection : t.connection = s.connection)
    (writer : t.writer = .ended → s.writer = .ended) (queue : ∀ o ∈ t.queue, o ∈ s.queue)
    (offers : ∀ w ∈ t.offers, w ∈ s.offers) (placed : t.offering = t.unplaced) (awake : s.Awake → t.Awake) :
    s.Moved t := by
  have state : t.state = s.state := Ledger.moves_state moves
  have books := h.books.turns (Ledger.turns_of_moves moves)
  refine ⟨moves, registry, connection, ⟨books, placed, ?_, ?_, ?_⟩, awake⟩
  · intro spent
    obtain ⟨closed, nobody⟩ := h.spent (writer spent)
    refine ⟨state.trans closed, List.eq_nil_iff_forall_not_mem.mpr fun w hw => ?_⟩
    have there := offers w hw
    rw [nobody] at there
    exact absurd there List.not_mem_nil
  · intro ticket hm
    exact state.trans (h.marked ticket (queue _ hm))
  · intro w hw ticket hm
    exact state.trans (h.offered w (offers w hw) ticket hm)

theorem Orderly.alike (h : s.Orderly) (a : s.Alike t) : s.Moved t := by
  have offers : t.offers = s.offers := by rw [Session.offers, a.invited, a.waiting]; rfl
  refine h.thinned (a.books ▸ .refl) a.registry a.connection (a.writer ▸ id) ?_ ?_ ?_ ?_
  · rw [a.queue]
    exact fun _ => id
  · rw [offers]
    exact fun _ => id
  · rw [Session.offering, offers, unplaced, a.books]
    exact h.offering
  · exact (Wakes.same a.ready (a.invited ▸ fun _ => id) (a.books ▸ rfl)).awake

theorem Orderly.alike_quiet (h : s.Orderly) (a : s.Alike t) (handles : t.handles = s.handles)
    (closers : t.closers = s.closers) : s.Quiet t :=
  have moved := h.alike a
  ⟨a.books ▸ .refl _, a.registry, a.connection, handles, closers, moved.orderly, moved.awake⟩

theorem Moved.refl (h : s.Orderly) : s.Moved s :=
  ⟨.refl, rfl, rfl, h, id⟩

theorem Moved.trans (h₁ : s.Moved t) (h₂ : t.Moved u) : s.Moved u :=
  ⟨h₁.books.trans h₂.books, h₂.registry.trans h₁.registry, h₂.connection.trans h₁.connection, h₂.orderly,
    h₂.awake ∘ h₁.awake⟩

theorem Moved.state (h : s.Moved t) : t.state = s.state :=
  Ledger.moves_state h.books

theorem Quiet.refl (h : s.Orderly) : s.Quiet s :=
  ⟨.refl _, rfl, rfl, rfl, rfl, h, id⟩

theorem Quiet.trans (h₁ : s.Quiet t) (h₂ : t.Quiet u) : s.Quiet u :=
  ⟨h₁.books.trans h₂.books, h₂.registry.trans h₁.registry, h₂.connection.trans h₁.connection,
    h₂.handles.trans h₁.handles, h₂.closers.trans h₁.closers, h₂.orderly, h₂.awake ∘ h₁.awake⟩

theorem Quiet.moved (h : s.Quiet t) : s.Moved t :=
  ⟨h.books.moves, h.registry, h.connection, h.orderly, h.awake⟩

theorem Quiet.state (h : s.Quiet t) : t.state = s.state :=
  h.books.state

theorem Quiet.holders (h : s.Quiet t) : t.holders = s.holders := by
  rw [Session.holders, Session.holders, h.handles, h.closers, h.books.calls]

/-! ### Wakening -/

theorem Orderly.update (h : s.Orderly) (books : l.Sound) (state : l.state = s.state)
    (placed : (l.calls.filter fun c => !c.queued).map (·.number) = s.unplaced) : (s.update l).Orderly := by
  obtain ⟨ready, heq⟩ := s.update_eq l
  rw [heq]
  refine ⟨books, h.offering.trans placed.symm, ?_, ?_, ?_⟩
  · intro hw
    exact ⟨state.trans (h.spent hw).1, (h.spent hw).2⟩
  · intro ticket hm
    exact state.trans (h.marked ticket hm)
  · intro w hw ticket hm
    exact state.trans (h.offered w hw ticket hm)

namespace Orderly

theorem wake (h : s.Orderly) (t : Task) : s.Quiet (s.wake t) := by
  have awake := (Wakes.wake s t).awake
  obtain ⟨ready, heq⟩ := s.wake_eq t
  rw [heq] at awake ⊢
  exact ⟨.refl _, rfl, rfl, rfl, rfl, ⟨h.books, h.offering, h.spent, h.marked, h.offered⟩, awake⟩

theorem stream_wake (h : s.Orderly) (stream : Stream) (task : Task) :
    s.Moved ({ s with stream := stream }.wake task) := by
  have same : s.Moved { s with stream := stream } := h.alike ⟨rfl, rfl, rfl, rfl, rfl, rfl, rfl, rfl⟩
  exact same.trans (same.orderly.wake task).moved

theorem rest (h : s.Orderly) {t : Task} {now : Nat} (idle : s.canGoOn now t = false) : s.Quiet (s.rest t) :=
  ⟨.refl _, rfl, rfl, rfl, rfl, ⟨h.books, h.offering, h.spent, h.marked, h.offered⟩, fun awake => awake.rest idle⟩

theorem wakeDue (h : s.Orderly) (now : Nat) : s.Quiet (s.wakeDue now) := by
  have each (tasks : List Nat) (t : Session) (ht : t.Orderly) :
      t.Quiet (tasks.foldl (fun s k => s.wake (.tick k)) t) := by
    induction tasks generalizing t with
    | nil => exact .refl ht
    | cons k tasks ih =>
      have first := ht.wake (.tick k)
      exact first.trans (ih _ first.orderly)
  exact each _ s h

theorem note (h : s.Orderly) (he : e.IsRemark) : s.Quiet (s.note e) :=
  ⟨.note he, rfl, rfl, rfl, rfl,
    ⟨h.books.remark he, h.offering, h.spent, h.marked, h.offered⟩, (Wakes.same rfl (fun _ => id) rfl).awake⟩

theorem fail (h : s.Orderly) (caller : Caller) : s.Quiet (s.fail caller) := by
  cases caller with
  | user ticket => exact h.note (Event.isRemark_finished ticket _)
  | keepalive k => exact .refl h

end Orderly

/-! ### Callers that wait for room -/

theorem filter_ne_eq_self {numbers : List Nat} (hn : n ∉ numbers) : numbers.filter (· ≠ n) = numbers := by
  rw [List.filter_eq_self]
  intro k hk
  have other : k ≠ n := by
    rintro rfl
    exact hn hk
  simpa using other

/-- Taking back what a call wanted to put into the queue. -/
theorem filterMap_call?_filter (n : Nat) (offers : List Waiting) :
    (offers.filter (·.sender ≠ .call n)).filterMap (·.sender.call?) =
      (offers.filterMap (·.sender.call?)).filter (· ≠ n) := by
  induction offers with
  | nil => rfl
  | cons w offers ih =>
    obtain ⟨item, sender⟩ := w
    cases sender with
    | call k => by_cases hk : k = n <;> simp_all [Sender.call?]
    | dispatcher => simpa [Sender.call?, List.filter_cons, List.filterMap_cons] using ih
    | closer ticket => simpa [Sender.call?, List.filter_cons, List.filterMap_cons] using ih

/-- Taking back what another sender wanted to put there. -/
theorem filterMap_call?_filter_other (hs : sender.call? = none) (offers : List Waiting) :
    (offers.filter (·.sender ≠ sender)).filterMap (·.sender.call?) = offers.filterMap (·.sender.call?) := by
  induction offers with
  | nil => rfl
  | cons w offers ih =>
    by_cases hw : w.sender = sender
    · rw [List.filter_cons_of_neg (by simpa using hw), ih, List.filterMap_cons_none (hw ▸ hs)]
    · rw [List.filter_cons_of_pos (by simpa using hw), List.filterMap_cons, List.filterMap_cons, ih]

/-- The calls that are unplaced after one frame has got into the queue. -/
theorem unplaced_place (l : Ledger) (n : Nat) :
    ((l.place n).calls.filter fun c => !c.queued).map (·.number) =
      ((l.calls.filter fun c => !c.queued).map (·.number)).filter (· ≠ n) := by
  rw [Ledger.place]
  induction l.calls with
  | nil => rfl
  | cons c calls ih =>
    by_cases hn : c.number = n <;> cases hq : c.queued <;> simp_all

theorem unplaced_answer (l : Ledger) (numbers : List Nat) (reply : Except Error Json) :
    ((l.answer numbers reply).calls.filter fun c => !c.queued).map (·.number) =
      (l.calls.filter fun c => !c.queued).map (·.number) := by
  rw [Ledger.answer]
  induction l.calls with
  | nil => rfl
  | cons c calls ih =>
    by_cases hn : c.number ∈ numbers <;> cases hq : c.queued <;> simp_all

theorem unplaced_forget (l : Ledger) (n : Nat) :
    ((l.forget n).calls.filter fun c => !c.queued).map (·.number) =
      ((l.calls.filter fun c => !c.queued).map (·.number)).filter (· ≠ n) := by
  rw [Ledger.forget, Ledger.vacate, unplaced_answer]
  induction l.calls with
  | nil => rfl
  | cons c calls ih =>
    by_cases hn : c.number = n <;> cases hq : c.queued <;> simp_all

namespace Orderly

theorem mem_unplaced (h : s.Orderly) (hc : call ∈ s.calls) : call.number ∈ s.unplaced ↔ call.queued = false := by
  rw [unplaced, List.mem_map]
  constructor
  · rintro ⟨c, hc', hn⟩
    obtain ⟨hc', hq⟩ := List.mem_filter.mp hc'
    rw [← h.books.eq_of_number hc' hc hn]
    simpa using hq
  · intro hq
    exact ⟨call, List.mem_filter.mpr ⟨hc, by simp [hq]⟩, rfl⟩

theorem nodup_offering (h : s.Orderly) : s.offering.Nodup := by
  rw [h.offering]
  exact h.books.numbers.sublist (List.filter_sublist.map _)

end Orderly

/-! ### The queue -/

namespace Orderly

theorem marked_append (h : s.Orderly) (hi : ∀ ticket, item = .shutdown ticket → s.state = .closed) :
    ∀ ticket, .shutdown ticket ∈ s.queue ++ [item] → s.state = .closed := by
  intro ticket hm
  rcases List.mem_append.mp hm with hm | hm
  · exact h.marked ticket hm
  · exact hi ticket (List.mem_singleton.mp hm).symm

theorem offered_append (h : s.Orderly) (hi : ∀ ticket, item = .shutdown ticket → s.state = .closed) :
    ∀ w ∈ s.invited ++ (s.waiting ++ [Waiting.mk item sender]), ∀ ticket, w.item = .shutdown ticket →
      s.state = .closed := by
  intro w hw ticket hm
  rw [← List.append_assoc] at hw
  rcases List.mem_append.mp hw with hw | hw
  · exact h.offered w hw ticket hm
  · rw [List.mem_singleton.mp hw] at hm
    exact hi ticket hm

theorem enqueue (h : s.Orderly) (hi : ∀ ticket, item = .shutdown ticket → s.state = .closed) :
    s.Quiet (s.enqueue item) := by
  have said : s.Quiet ({ s with queue := s.queue ++ [item] }.note (.queued item)) := by
    have told := Event.isRemark_queued item
    exact ⟨.note told, rfl, rfl, rfl, rfl,
      ⟨h.books.remark told, h.offering, h.spent, h.marked_append hi, h.offered⟩,
      (Wakes.same rfl (fun _ => id) rfl).awake⟩
  exact said.trans (said.orderly.wake .write)

theorem wait (h : s.Orderly) (hs : sender.call? = none) (hw : s.writer ≠ .ended)
    (hi : ∀ ticket, item = .shutdown ticket → s.state = .closed) : s.Quiet (s.wait item sender) := by
  have same : (s.wait item sender).offering = s.offering := by
    simp [Session.wait, Session.offering, offers, List.filterMap_append, hs]
  exact ⟨.refl _, rfl, rfl, rfl, rfl,
    ⟨h.books, same.trans h.offering, fun spent => absurd spent hw, h.marked, h.offered_append hi⟩,
    (Wakes.same rfl (fun _ => id) rfl).awake⟩

theorem invite (h : s.Orderly) : s.Quiet s.invite := by
  rw [Session.invite]
  split
  · exact .refl h
  case h_2 w rest hw =>
    split
    · -- Whoever is invited keeps its place among those that wait.
      have same : s.invited ++ [w] ++ rest = s.offers := by
        rw [offers, hw, List.append_assoc]
        rfl
      have awake := (Wakes.invite s w rest).awake
      obtain ⟨ready, heq⟩ := wake_eq { s with waiting := rest, invited := s.invited ++ [w] } w.sender.task
      rw [heq] at awake ⊢
      refine ⟨.refl _, rfl, rfl, rfl, rfl, ⟨h.books, ?_, ?_, h.marked, ?_⟩, awake⟩
      · exact (congrArg (List.filterMap fun w : Waiting => w.sender.call?) same).trans h.offering
      · exact fun spent => ⟨(h.spent spent).1, same.trans (h.spent spent).2⟩
      · intro w hw
        exact h.offered w (same ▸ hw)
    · exact .refl h

theorem rejected (h : s.Orderly) (hs : sender.call? = none) : s.Moved (s.rejected sender) := by
  cases sender with
  | call n => cases hs
  | dispatcher =>
    have running : s.Moved { s with dispatcher := .running } := h.alike ⟨rfl, rfl, rfl, rfl, rfl, rfl, rfl, rfl⟩
    exact running.trans (running.orderly.wake .dispatch).moved
  | closer ticket =>
    rw [Session.rejected]
    split
    · have fewer : s.Moved { s with closers := s.closers.filter (· != ticket) } :=
        h.alike ⟨rfl, rfl, rfl, rfl, rfl, rfl, rfl, rfl⟩
      exact fewer.trans (fewer.orderly.note (Event.isRemark_finished ticket _)).moved
    · exact .refl h

theorem accepted (h : s.Orderly) (hs : sender.call? = none) : s.Moved (s.accepted sender) := by
  cases sender with
  | call n => cases hs
  | dispatcher => exact h.alike ⟨rfl, rfl, rfl, rfl, rfl, rfl, rfl, rfl⟩
  | closer ticket => exact .refl h

/-- The dispatcher or a closer puts something into the queue, or waits for room. -/
theorem offer (h : s.Orderly) (hs : sender.call? = none) (hi : ∀ ticket, item = .shutdown ticket → s.state = .closed) :
    s.Moved (s.offer item sender) := by
  rw [Session.offer]
  split
  · exact h.rejected hs
  case h_2 spent =>
    split
    · have entered := (h.enqueue hi).moved
      exact entered.trans (entered.orderly.accepted hs)
    · exact (h.wait hs spent hi).moved

end Orderly

/-- A response of the dispatcher's changes nothing else. -/
theorem Orderly.respond (h : s.Orderly) (r : Response) : s.Quiet (s.respond r) := by
  rw [Session.respond, Session.offer]
  split
  · have running : s.Quiet { s with dispatcher := .running } :=
      h.alike_quiet ⟨rfl, rfl, rfl, rfl, rfl, rfl, rfl, rfl⟩ rfl rfl
    exact running.trans (running.orderly.wake .dispatch)
  case h_2 spent =>
    split
    · have entered : s.Quiet (s.enqueue (.frame r.toJson)) := h.enqueue (by simp)
      exact entered.trans (entered.orderly.alike_quiet ⟨rfl, rfl, rfl, rfl, rfl, rfl, rfl, rfl⟩ rfl rfl)
    · exact h.wait rfl spent (by simp)

/-! ### Taking turns -/

theorem offers_uninvite (s : Session) (sender : Sender) :
    ∀ w ∈ s.invited.filter (·.sender ≠ sender) ++ s.waiting, w ∈ s.offers := by
  intro w hw
  rcases List.mem_append.mp hw with hw | hw
  · exact List.mem_append_left _ (List.mem_filter.mp hw).1
  · exact List.mem_append_right _ hw

namespace Orderly

/-- Without the offer of a call that has been invited, the others wait as before. -/
theorem offering_uninvite (h : s.Orderly) (hw : w ∈ s.invited) (hs : w.sender = .call n) :
    (s.invited.filter (·.sender ≠ .call n) ++ s.waiting).filterMap (·.sender.call?) = s.offering.filter (· ≠ n) := by
  have once := h.nodup_offering
  rw [Session.offering, offers, List.filterMap_append, List.nodup_append] at once
  have invited : n ∈ s.invited.filterMap (·.sender.call?) := List.mem_filterMap.mpr ⟨w, hw, by rw [hs]; rfl⟩
  -- The call waits once, so it is not among those that are still to be invited.
  have elsewhere : n ∉ s.waiting.filterMap (·.sender.call?) := fun hn => once.2.2 n invited n hn rfl
  rw [List.filterMap_append, filterMap_call?_filter, Session.offering, offers, List.filterMap_append,
    List.filter_append, filter_ne_eq_self elsewhere]

theorem enter_call (h : s.Orderly) (hw : w ∈ s.invited) (hs : w.sender = .call n) :
    s.Moved (({ s with invited := s.invited.filter (·.sender ≠ Sender.call n) }.enqueue w.item).accepted
      (.call n)) := by
  obtain ⟨ready, heq⟩ := wake_eq ({ s with
    invited := s.invited.filter (·.sender ≠ Sender.call n), queue := s.queue ++ [w.item] }.note
      (.queued w.item)) .write
  have there : w ∈ s.offers := List.mem_append_left _ hw
  have told := Event.isRemark_queued w.item
  have awake := fun awake : s.Awake => awake.enter_call hw hs
  rw [Session.enqueue, heq] at awake ⊢
  refine ⟨.tail (.single (.remark told)) (.place n), rfl, rfl,
    ⟨(h.books.remark told).place n, ?_, ?_, h.marked_append (h.offered w there), ?_⟩, awake⟩
  · refine (h.offering_uninvite hw hs).trans ?_
    rw [h.offering]
    exact (unplaced_place (s.toLedger.note (.queued w.item)) n).symm
  · intro spent
    rw [(h.spent spent).2] at there
    exact absurd there List.not_mem_nil
  · intro v hv
    exact h.offered v (s.offers_uninvite (.call n) v hv)

theorem enter (h : s.Orderly) (sender : Sender) : s.Moved (s.enter sender) := by
  rw [Session.enter]
  split
  · exact .refl h
  case h_2 w hw =>
    have invited := List.mem_of_find?_eq_some hw
    have itself : w.sender = sender := by simpa using List.find?_some hw
    cases hs : sender.call? with
    | some n =>
      cases sender with
      | call k => exact h.enter_call invited itself
      | dispatcher => cases hs
      | closer ticket => cases hs
    | none =>
      -- No call is among those that go, so the calls that wait are the same.
      have fewer : s.Moved { s with invited := s.invited.filter (·.sender ≠ sender) } := by
        refine h.thinned .refl rfl rfl id (fun _ => id) (s.offers_uninvite sender) ?_ ?_
        · rw [Session.offering, offers, List.filterMap_append, filterMap_call?_filter_other hs,
            ← List.filterMap_append]
          exact h.offering
        · exact (Wakes.uninvite s sender).awake
      have entered := (fewer.orderly.enqueue (h.offered w (List.mem_append_left _ invited))).moved
      exact (fewer.trans entered).trans (entered.orderly.accepted hs)

end Orderly
end Session
end Ovsdb
