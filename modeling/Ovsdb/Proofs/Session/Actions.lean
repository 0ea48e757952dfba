import Ovsdb.Proofs.Session.Orderly

/-! What sessions do keeps them in order, and comes down to moves of their books. -/

namespace Ovsdb.Session

variable {s t : Session} {n k now : Nat} {item : Outbound} {sender : Sender} {senders : List Sender} {e : Event}
  {c : Call} {w : Waiting} {l : Ledger} {caller : Caller} {goal : Goal} {x : Except Error Json}

theorem eq_of_find? {calls : List Call} (h : calls.find? (·.number == n) = some c) :
    c ∈ calls ∧ c.number = n :=
  ⟨List.mem_of_find?_eq_some h, by simpa using List.find?_some h⟩

/-! ### The end of the writer -/

/-- A closed session whose writer has ended, while these senders have still to learn so: they are those of the calls
    that are unplaced. -/
structure Ending (s : Session) (senders : List Sender) : Prop where
  books : s.toLedger.Sound
  closed : s.state = .closed
  queue : s.queue = []
  offers : s.offers = []
  unplaced : s.unplaced = senders.filterMap Sender.call?

namespace Ending

/-- What one sender does when it learns that nothing takes its item any more. -/
structure Learns (s t : Session) (senders : List Sender) : Prop where
  books : Relation.ReflTransGen Ledger.Move s.toLedger t.toLedger
  registry : t.registry = s.registry
  connection : t.connection = s.connection
  ending : t.Ending senders
  awake : s.Awake → t.Awake

theorem call (h : s.Ending (.call n :: senders)) : Learns s (s.rejected (.call n)) senders := by
  have waits : n ∈ s.unplaced := by
    rw [h.unplaced]
    exact List.mem_cons_self
  -- A call that waits for room is there, and no other one has its number.
  obtain ⟨call, hc, rfl⟩ := List.mem_map.mp waits
  obtain ⟨there, free⟩ := List.mem_filter.mp hc
  have unique : s.unplaced.Nodup := h.books.numbers.sublist (List.filter_sublist.map _)
  have found : s.calls.find? (·.number == call.number) = some call := by
    cases hf : s.calls.find? (·.number == call.number) with
    | none => exact absurd (List.find?_eq_none.mp hf call there) (by simp)
    | some c => rw [h.books.eq_of_number (eq_of_find? hf).1 there (eq_of_find? hf).2]
  have move : Ledger.Move s.toLedger (s.finish call.number (.error .connectionClosed)) :=
    .reject there (by simpa using free) h.closed
  have awake := (Wakes.update (s := s) (l := s.finish call.number (.error .connectionClosed))
    fun _ => Ledger.replied_forget).awake
  obtain ⟨ready, heq⟩ := s.update_eq (s.finish call.number (.error .connectionClosed))
  have ending : Ending (s.update (s.finish call.number (.error .connectionClosed))) senders := by
    rw [heq]
    refine ⟨h.books.move move, h.closed, h.queue, h.offers, (unplaced_forget s.toLedger call.number).trans ?_⟩
    change s.unplaced.filter (· ≠ call.number) = _
    rw [h.unplaced, List.filterMap_cons_some (f := Sender.call?) rfl] at unique ⊢
    rw [List.filter_cons_of_neg (by simp), filter_ne_eq_self (List.nodup_cons.mp unique).1]
  rw [heq] at ending awake
  simp only [rejected, found, heq]
  cases call.caller with
  | keepalive _ => exact ⟨.single move, rfl, rfl, ending, awake⟩
  | user ticket =>
    have told := Event.isRemark_finished ticket (.error .connectionClosed)
    exact ⟨.tail (.single move) (.remark told), rfl, rfl,
      ⟨ending.books.remark told, ending.closed, ending.queue, ending.offers, ending.unplaced⟩, awake⟩

theorem other (h : s.Ending (sender :: senders)) (hs : sender.call? = none) :
    Learns s (s.rejected sender) senders := by
  have rest : s.unplaced = senders.filterMap Sender.call? := h.unplaced.trans (List.filterMap_cons_none hs)
  cases sender with
  | call n => cases hs
  | dispatcher =>
    have awake := (Wakes.wake { s with dispatcher := .running } .dispatch).awake
    obtain ⟨ready, heq⟩ := wake_eq { s with dispatcher := .running } .dispatch
    rw [heq] at awake
    rw [rejected, heq]
    exact ⟨.refl, rfl, rfl, ⟨h.books, h.closed, h.queue, h.offers, rest⟩, awake⟩
  | closer ticket =>
    rw [rejected]
    split
    · have told := Event.isRemark_finished ticket (.ok .nothing)
      exact ⟨.single (.remark told), rfl, rfl, ⟨h.books.remark told, h.closed, h.queue, h.offers, rest⟩, id⟩
    · exact ⟨.refl, rfl, rfl, ⟨h.books, h.closed, h.queue, h.offers, rest⟩, id⟩

/-- When all senders have learnt it, no call is left unplaced. -/
theorem foldl_rejected (h : s.Ending senders) : s.Moved (senders.foldl rejected s) := by
  induction senders generalizing s with
  | nil =>
    refine .refl ⟨h.books, ?_, fun _ => ⟨h.closed, h.offers⟩, fun _ _ => h.closed, fun _ _ _ _ => h.closed⟩
    rw [offering, h.offers, h.unplaced]
    rfl
  | cons sender senders ih =>
    have first : Learns s (s.rejected sender) senders := by
      cases hs : sender.call? with
      | none => exact h.other hs
      | some n =>
        cases sender <;> cases hs
        exact h.call
    have rest := ih first.ending
    exact ⟨first.books.trans rest.books, rest.registry.trans first.registry, rest.connection.trans first.connection,
      rest.orderly, rest.awake ∘ first.awake⟩

end Ending

namespace Orderly

/-- The writer goes on, and takes things from its queue at most. -/
theorem written (h : s.Orderly) (books : t.toLedger = s.toLedger) (registry : t.registry = s.registry)
    (connection : t.connection = s.connection) (invited : t.invited = s.invited) (waiting : t.waiting = s.waiting)
    (ready : t.ready = s.ready) (live : t.writer ≠ .ended) (queue : ∀ o ∈ t.queue, o ∈ s.queue) : s.Moved t := by
  have offers : t.offers = s.offers := by rw [Session.offers, invited, waiting]; rfl
  refine h.thinned (books ▸ .refl) registry connection (fun spent => absurd spent live) queue ?_ ?_ ?_
  · rw [offers]
    exact fun _ => id
  · rw [Session.offering, offers, Session.unplaced, books]
    exact h.offering
  · exact (Wakes.same ready (invited ▸ fun _ => id) (books ▸ rfl)).awake

/-- In a closed session the writer can end: all who wait for it learn so. -/
theorem endWriter (h : s.Orderly) (closed : s.state = .closed) : s.Moved s.endWriter := by
  have ending : Ending { s with writer := .ended, queue := [], waiting := [], invited := [] }
      ((s.invited ++ s.waiting).map (·.sender) ++ s.closers.map .closer) := by
    refine ⟨h.books, closed, rfl, rfl, h.offering.symm.trans ?_⟩
    have closers : (s.closers.map Sender.closer).filterMap Sender.call? = [] := by
      rw [List.filterMap_map, List.filterMap_eq_nil_iff]
      exact fun _ _ => rfl
    rw [List.filterMap_append, closers, List.append_nil, List.filterMap_map]
    rfl
  have uninvited : s.Wakes { s with writer := .ended, queue := [], waiting := [], invited := [] } :=
    .same rfl (fun _ hw => absurd hw List.not_mem_nil) rfl
  have ended := ending.foldl_rejected
  exact ⟨ended.books, ended.registry, ended.connection, ended.orderly, ended.awake ∘ uninvited.awake⟩

/-! ### Calls -/

theorem unplaced_begin (l : Ledger) (caller : Caller) (goal : Goal) :
    ((l.begin caller goal).calls.filter fun c => !c.queued).map (·.number) =
      (l.calls.filter fun c => !c.queued).map (·.number) ++ [l.begun] := by
  rw [Ledger.begin, List.filter_append, List.map_append, Ledger.vacate, unplaced_answer]
  rfl

/-- The frame of a new call gets into the queue at once if there is room. -/
theorem begin_enqueue (h : s.Orderly) (opened : s.state = .opened) (live : s.writer ≠ .ended) {ready : List Task}
    (woken : s.Wakes { s with toLedger := s.begin caller goal, ready := ready }) (frame : Json) :
    s.Moved (({ s with toLedger := s.begin caller goal, ready := ready }.enqueue (.frame frame)).accepted
      (.call s.begun)) := by
  have fresh : s.begun ∉ s.unplaced := by
    intro hk
    obtain ⟨c, hc, hn⟩ := List.mem_map.mp hk
    exact Nat.ne_of_lt (h.books.number_lt (List.mem_filter.mp hc).1) hn
  have begun := h.books.begin opened caller goal
  have told := Event.isRemark_queued (.frame frame)
  obtain ⟨ready', heq⟩ := wake_eq ({ s with
    toLedger := s.begin caller goal, ready := ready, queue := s.queue ++ [Outbound.frame frame] }.note
      (.queued (.frame frame))) .write
  have awake := fun awake : s.Awake => awake.begin_enqueue h.books opened woken (.frame frame)
  rw [Session.enqueue, heq] at awake ⊢
  refine ⟨.tail (.tail (.single (.begin caller goal opened)) (.remark told)) (.place s.begun), rfl, rfl,
    ⟨(begun.remark told).place s.begun, ?_, fun spent => absurd spent live, h.marked_append (by simp), h.offered⟩,
    awake⟩
  -- The new call is the last of those that are unplaced, and goes from there again as it is placed.
  refine h.offering.trans (Eq.symm ((unplaced_place ((s.begin caller goal).note _) s.begun).trans ?_))
  change (((s.begin caller goal).calls.filter fun c => !c.queued).map (·.number)).filter _ = _
  rw [unplaced_begin, List.filter_append, List.filter_cons_of_neg (by simp), List.filter_nil, List.append_nil]
  exact filter_ne_eq_self fresh

/-- Otherwise it waits for room behind all that do already. -/
theorem begin_wait (h : s.Orderly) (opened : s.state = .opened) (live : s.writer ≠ .ended) {ready : List Task}
    (woken : s.Wakes { s with toLedger := s.begin caller goal, ready := ready }) (frame : Json) :
    s.Moved ({ s with toLedger := s.begin caller goal, ready := ready }.wait (.frame frame) (.call s.begun)) := by
  refine ⟨.single (.begin caller goal opened), rfl, rfl,
    ⟨h.books.begin opened caller goal, ?_, fun spent => absurd spent live, h.marked, h.offered_append (by simp)⟩,
    woken.awake⟩
  refine Eq.trans ?_ (unplaced_begin s.toLedger caller goal).symm
  change (s.invited ++ (s.waiting ++ [_])).filterMap _ = s.unplaced ++ [s.begun]
  rw [← List.append_assoc, List.filterMap_append, ← h.offering]
  rfl

theorem begin_offer (h : s.Orderly) (opened : s.state = .opened) (caller : Caller) (goal : Goal) (frame : Json) :
    s.Moved ((s.update (s.begin caller goal)).offer (.frame frame) (.call s.begun)) := by
  have live : s.writer ≠ .ended := by
    intro spent
    rw [(h.spent spent).1] at opened
    cases opened
  have woken : s.Wakes (s.update (s.begin caller goal)) := .update fun _ => Ledger.replied_begin caller goal
  obtain ⟨ready, heq⟩ := s.update_eq (s.begin caller goal)
  rw [heq] at woken
  rw [heq, Session.offer]
  split
  case h_1 spent => exact absurd spent live
  case h_2 =>
    split
    · exact h.begin_enqueue opened live woken frame
    · exact h.begin_wait opened live woken frame

/-- A call keeps the session in order: it is refused if the session is closed. -/
theorem call (h : s.Orderly) (caller : Caller) (method : String) (params : Json) (goal : Goal) :
    s.Moved (s.call caller method params goal) := by
  rw [Session.call]
  cases hs : s.state with
  | closed =>
    have refused : s.Moved { s with toLedger := s.refuse } :=
      ⟨.single (.refuse hs), rfl, rfl, ⟨h.books.refuse, h.offering, h.spent, h.marked, h.offered⟩, id⟩
    exact refused.trans (refused.orderly.fail caller).moved
  | opened => exact h.begin_offer hs caller goal _

theorem invoke (h : s.Orderly) (ticket : Nat) (i : Invocation) : s.Moved (s.invoke ticket i) := by
  rw [Session.invoke]
  split
  · exact h.call _ _ _ _
  · exact (h.note (Event.isRemark_finished ticket _)).moved

theorem abandon_call (h : s.Orderly) (hc : c ∈ s.calls) :
    s.Moved ((s.update (s.toLedger.abandon c.number)).withdraw (.call c.number)) := by
  have woken : s.Wakes (s.update (s.toLedger.abandon c.number)) := .update fun _ => Ledger.replied_forget
  obtain ⟨ready, heq⟩ := s.update_eq (s.toLedger.abandon c.number)
  rw [heq] at woken
  have withdrawn : s.Moved { s with
      toLedger := s.toLedger.abandon c.number
      ready := ready
      waiting := s.waiting.filter (·.sender ≠ Sender.call c.number)
      invited := s.invited.filter (·.sender ≠ Sender.call c.number) } := by
    refine h.thinned (.single (.abandon hc)) rfl rfl id (fun _ => id) ?_ ?_ ?_
    · intro w hw
      rw [offers, ← List.filter_append] at hw
      exact (List.mem_filter.mp hw).1
    · rw [Session.offering, offers, ← List.filter_append, filterMap_call?_filter]
      exact (congrArg _ h.offering).trans (unplaced_forget s.toLedger c.number).symm
    · exact (woken.trans (.uninvite _ (.call c.number))).awake
  rw [heq, Session.withdraw]
  exact withdrawn.trans withdrawn.orderly.invite.moved

theorem abandon_closer (h : s.Orderly) (ticket : Nat) :
    s.Moved ({ s with closers := s.closers.filter (· != ticket) }.withdraw (.closer ticket)) := by
  have withdrawn : s.Moved { s with
      closers := s.closers.filter (· != ticket)
      waiting := s.waiting.filter (·.sender ≠ Sender.closer ticket)
      invited := s.invited.filter (·.sender ≠ Sender.closer ticket) } := by
    refine h.thinned .refl rfl rfl id (fun _ => id) ?_ ?_ ?_
    · intro w hw
      rw [offers, ← List.filter_append] at hw
      exact (List.mem_filter.mp hw).1
    · rw [Session.offering, offers, ← List.filter_append, filterMap_call?_filter_other rfl]
      exact h.offering
    · exact (Wakes.uninvite s (.closer ticket)).awake
  exact withdrawn.trans withdrawn.orderly.invite.moved

theorem abandon (h : s.Orderly) (ticket : Nat) : s.Moved (s.abandon ticket) := by
  rw [Session.abandon]
  split
  case h_1 c hc => exact h.abandon_call (List.mem_of_find?_eq_some hc)
  case h_2 => exact h.abandon_closer ticket

/-! ### Keepalives -/

theorem fire (h : s.Orderly) (k : Nat) : s.Moved (s.fire k) := by
  rw [Session.fire]
  split
  · exact .refl h
  · have later : s.Moved { s with
        keepalives := s.keepalives.modify k fun a => { a with next := a.next + a.period } } :=
      h.alike ⟨rfl, rfl, rfl, rfl, rfl, rfl, rfl, rfl⟩
    exact later.trans (later.orderly.call _ _ _ _)

theorem await (h : s.Orderly) (k now : Nat) : s.Moved (s.await k now) := by
  rw [Session.await]
  split
  · exact .refl h
  · split
    · exact h.fire k
    · exact h.alike ⟨rfl, rfl, rfl, rfl, rfl, rfl, rfl, rfl⟩

theorem keepAlive (h : s.Orderly) (period now : Nat) : s.Moved (s.keepAlive period now) := by
  have started : s.Moved { s with keepalives := s.keepalives ++ [Keepalive.mk period (now + period)] } :=
    h.alike ⟨rfl, rfl, rfl, rfl, rfl, rfl, rfl, rfl⟩
  exact started.trans (started.orderly.await _ now)

theorem tick (h : s.Orderly) (k : Nat) : s.Moved (s.tick k) := by
  have taken : s.Moved { s with timers := s.timers.filter (· != k) } := h.alike ⟨rfl, rfl, rfl, rfl, rfl, rfl, rfl, rfl⟩
  exact taken.trans (taken.orderly.fire k)

/-! ### Results -/

theorem remember (h : s.Orderly) (goal : Goal) (result : Except Error Answer) : s.Moved (s.remember goal result) := by
  rw [Session.remember.eq_def]
  split
  · exact h.alike ⟨rfl, rfl, rfl, rfl, rfl, rfl, rfl, rfl⟩
  · exact .refl h

theorem report (h : s.Orderly) (caller : Caller) (goal : Goal) (now : Nat) (result : Except Error Answer) :
    s.Moved (s.report caller goal now result) := by
  rw [Session.report.eq_def]
  split
  · have kept := h.remember goal result
    exact kept.trans (kept.orderly.note (Event.isRemark_finished _ _)).moved
  · exact h.await _ now
  · split
    · exact .refl h
    · exact h.await _ now

/-- A call whose frame is in the queue ends with its reply. -/
theorem update_finish (h : s.Orderly) (hc : c ∈ s.calls) (hq : c.queued = true) (hr : c.reply = some x) :
    s.Moved (s.update (s.finish c.number x)) := by
  have awake := (Wakes.update (s := s) (l := s.finish c.number x) fun _ => Ledger.replied_forget).awake
  obtain ⟨ready, heq⟩ := s.update_eq (s.finish c.number x)
  have placed : c.number ∉ s.unplaced := by
    rw [h.mem_unplaced hc, hq]
    simp
  rw [heq] at awake ⊢
  refine h.thinned (.single (.conclude hc hq hr)) rfl rfl id (fun _ => id) (fun _ => id) ?_ awake
  exact h.offering.trans ((unplaced_forget s.toLedger c.number).trans (filter_ne_eq_self placed)).symm

theorem conclude (h : s.Orderly) (n now : Nat) : s.Moved (s.conclude n now) := by
  rw [Session.conclude]
  split
  case h_1 number caller goal queued reply hf =>
    have there := List.mem_of_find?_eq_some hf
    obtain ⟨rfl, hq⟩ : number = n ∧ queued = true := by simpa using List.find?_some hf
    have ended := h.update_finish there hq rfl
    exact ended.trans (ended.orderly.report caller goal now _)
  case h_2 => exact .refl h

/-! ### Messages and the closing -/

end Orderly

/-- `t` comes from `s` by the receipt of a message; the same users hold on to it. -/
structure Takes (m : Json) (s t : Session) : Prop where
  books : (s.toLedger.receive m).Remarks t.toLedger
  registry : t.registry = s.registry
  connection : t.connection = s.connection
  handles : t.handles = s.handles
  closers : t.closers = s.closers
  orderly : t.Orderly
  awake : s.Awake → t.Awake

theorem Takes.trans {m : Json} {u : Session} (h₁ : Takes m s t) (h₂ : t.Quiet u) : Takes m s u :=
  ⟨h₁.books.trans h₂.books, h₂.registry.trans h₁.registry, h₂.connection.trans h₁.connection,
    h₂.handles.trans h₁.handles, h₂.closers.trans h₁.closers, h₂.orderly, h₂.awake ∘ h₁.awake⟩

theorem Takes.after {m : Json} {u : Session} (h₁ : s.Quiet t) (books : t.toLedger = s.toLedger) (h₂ : Takes m t u) :
    Takes m s u :=
  ⟨books ▸ h₂.books, h₂.registry.trans h₁.registry, h₂.connection.trans h₁.connection,
    h₂.handles.trans h₁.handles, h₂.closers.trans h₁.closers, h₂.orderly, h₂.awake ∘ h₁.awake⟩

theorem Takes.state {m : Json} (h : Takes m s t) : t.state = s.state :=
  h.books.state.trans (Ledger.receive_state m s.toLedger)

theorem holders_eq (s : Session) : s.holders =
    s.handles + s.closers.length + (s.calls.map (·.caller)).countP fun caller => caller matches .user _ := by
  rw [Session.holders, List.countP_map, List.countP_eq_length_filter]
  rfl

theorem Takes.holders {m : Json} (h : Takes m s t) : t.holders = s.holders := by
  rw [holders_eq, holders_eq, h.handles, h.closers, h.books.calls, Ledger.receive_callers]

namespace Orderly

theorem received (h : s.Orderly) (m : Json) : (s.note (.received m)).Orderly :=
  ⟨h.books.note rfl rfl (by simp), h.offering, h.spent, h.marked, h.offered⟩

theorem note_received (h : s.Orderly) {m : Json} (hm : ∀ r, Message.ofJson m ≠ .ok (.response r)) :
    Takes m s (s.note (.received m)) := by
  have taken : s.toLedger.receive m = s.toLedger.note (.received m) := by
    rw [Ledger.receive]
    split
    case h_1 r hr => exact absurd hr (hm r)
    case h_2 => rfl
  exact ⟨taken ▸ .refl _, rfl, rfl, rfl, rfl, h.received m, id⟩

theorem complete (h : s.Orderly) {m : Json} {r : Response} (hm : Message.ofJson m = .ok (.response r)) :
    Takes m s ((s.note (.received m)).complete r) := by
  have taken : s.toLedger.receive m = (s.note (.received m)).toLedger.complete r := by
    rw [Ledger.receive, hm]
    rfl
  have placed : ((s.note (.received m)).complete r).Orderly := by
    refine (h.received m).update (taken ▸ h.books.receive m) (taken ▸ Ledger.receive_state m s.toLedger) ?_
    rw [Ledger.complete]
    split
    · rfl
    · exact unplaced_answer _ _ _
  have awake := (Wakes.update (s := s.note (.received m)) fun _ => Ledger.replied_complete r).awake
  obtain ⟨ready, heq⟩ := (s.note (.received m)).update_eq ((s.note (.received m)).toLedger.complete r)
  rw [Session.complete, heq] at placed ⊢
  rw [heq] at awake
  exact ⟨taken ▸ .refl _, rfl, rfl, rfl, rfl, placed, awake⟩

/-- Closing a session does not touch its queue, and wakes the calls that fail with it. -/
theorem close (h : s.Orderly) : s.close.Orderly ∧ s.close.toLedger = s.toLedger.close ∧
    s.close.registry = s.registry ∧ s.close.connection = s.connection ∧ (s.Awake → s.close.Awake) := by
  have woken : s.Wakes (s.update s.toLedger.close) := .update fun _ => Ledger.replied_answer fun _ => id
  obtain ⟨ready, heq⟩ := s.update_eq s.toLedger.close
  rw [heq] at woken
  rw [Session.close, heq]
  refine ⟨⟨h.books.close, ?_, fun spent => ⟨rfl, (h.spent spent).2⟩, fun _ _ => rfl, fun _ _ _ _ => rfl⟩,
    rfl, rfl, rfl, woken.awake⟩
  exact h.offering.trans (unplaced_answer _ _ _).symm

end Orderly
end Ovsdb.Session
