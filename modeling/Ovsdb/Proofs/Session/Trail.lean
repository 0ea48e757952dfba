import Ovsdb.Proofs.Session.Actions
import Ovsdb.Proofs.Session.Changes

/-! What befalls a session in the course of a run: handlers that are set, messages that are taken, notifications that
    are handed over, and the closing. Between these a session goes through changes of its own. -/

namespace Ovsdb

/-- What befalls a session from outside. A notice is a notification that has not come as a message. -/
inductive Incident where
  | handler (h : Handler)
  | message (m : Json)
  | notice (n : Notification)
  | closing

namespace Session

/-- Calls the handler for a notification, as long as the session is open. -/
def notify (s : Session) (n : Notification) : Session :=
  match s.state with
  | .opened => s.note (.callback s.handler n)
  | .closed => s

/-- What a request leads to: the reply that is owed, or a callback for what is told. -/
def heed (s : Session) (q : Request) : Session :=
  match q.reply?, q.notification? with
  | some r, _ => s.respond r
  | none, some n => s.notify n
  | none, none => s

/-- What a message leads to, read off the message. -/
def hear (s : Session) (m : Json) : Session :=
  let t := s.note (.received m)
  match Response.ofMessage? m, Request.ofMessage? m with
  | some r, _ => t.complete r
  | none, some q => t.heed q
  | none, none => t

/-- What becomes of a session by an incident. -/
inductive Befalls : Incident → Session → Session → Prop where
  | handler (s : Session) (h : Handler) : Befalls (.handler h) s { s with handler := h }
  | message {s : Session} (m : Json) (running : s.dispatcher = .running) : Befalls (.message m) s (s.hear m)
  | notice (s : Session) (n : Notification) : Befalls (.notice n) s (s.notify n)
  | closing {s : Session} (opened : s.state = .opened) : Befalls .closing s s.close

/-- `t` comes from `s` by these incidents, in this order, and by changes before, between and after them. -/
inductive Trail : List Incident → Session → Session → Prop where
  | refl (s : Session) : Trail [] s s
  | change {incidents : List Incident} {s t u : Session} (first : Change s t) (rest : Trail incidents t u) :
    Trail incidents s u
  | incident {i : Incident} {incidents : List Incident} {s t u : Session} (first : Befalls i s t)
    (rest : Trail incidents t u) : Trail (i :: incidents) s u

variable {s t u : Session} {is js : List Incident} {i : Incident}

namespace Trail

theorem trans (h₁ : Trail is s t) (h₂ : Trail js t u) : Trail (is ++ js) s u := by
  induction h₁ with
  | refl s => exact h₂
  | change first _ ih => exact .change first (ih h₂)
  | incident first _ ih => exact .incident first (ih h₂)

theorem changes (h : s.Changes t) : Trail [] s t := by
  induction h using Relation.ReflTransGen.head_induction_on with
  | refl => exact .refl t
  | head first _ ih => exact .change first ih

theorem single (h : Befalls i s t) : Trail [i] s t :=
  .incident h (.refl t)

end Trail
end Session

/-! ### The journal -/

/-- Whether an event tells of what a session does between incidents. -/
def Event.IsOwn : Event → Prop
  | .received _ | .closed | .callback .. => False
  | _ => True

/-- The message that an event tells of. -/
def Event.message? : Event → Option Json
  | .received m => some m
  | _ => none

theorem Event.IsOwn.message? {e : Event} (h : e.IsOwn) : e.message? = none := by
  cases e <;> first | rfl | exact h.elim

/-- The messages that a session has taken, in order. -/
def Session.messages (s : Session) : List Json :=
  s.journal.filterMap Event.message?

namespace Session
variable {s t u : Session} {is : List Incident} {r : Response} {m : Json}

theorem Change.journal (h : Change s t) :
    ∃ events : List Event, t.journal = s.journal ++ events ∧ ∀ e ∈ events, e.IsOwn := by
  have silent {s' t' : Session} (same : t'.journal = s'.journal) :
      ∃ events : List Event, t'.journal = s'.journal ++ events ∧ ∀ e ∈ events, e.IsOwn :=
    ⟨[], by rw [same, List.append_nil], by simp⟩
  cases h with
  | books h | post _ h =>
    obtain ⟨entries, journal, kind⟩ := h.journal
    refine ⟨entries, journal, fun e he => ?_⟩
    have entry := kind e he
    cases e <;> trivial
  | tell ticket result => exact ⟨[_], rfl, by simp [Event.IsOwn]⟩
  | put | enter => exact ⟨[_], rfl, by simp [Event.IsOwn]⟩
  | withdraw | take => exact silent (congrArg (·.journal) (toLedger_invite _))
  | aside | rouse | rest | learn | wait | write | spend | unblock | leave => exact silent rfl

theorem messages_append {events : List Event} (journal : t.journal = s.journal ++ events) :
    t.messages = s.messages ++ events.filterMap Event.message? := by
  rw [messages, journal, List.filterMap_append]
  rfl

theorem messages_received {events : List Event} (journal : t.journal = s.journal ++ .received m :: events)
    (aside : ∀ e ∈ events, e.message? = none) : t.messages = s.messages ++ [m] := by
  rw [messages_append journal, List.filterMap_cons_some (f := Event.message?) rfl,
    List.filterMap_eq_nil_iff.mpr aside]

theorem messages_same {events : List Event} (journal : t.journal = s.journal ++ events)
    (aside : ∀ e ∈ events, e.message? = none) : t.messages = s.messages := by
  rw [messages_append journal, List.filterMap_eq_nil_iff.mpr aside, List.append_nil]

theorem messages_note {e : Event} (h : e.message? = none) : (s.note e).messages = s.messages :=
  messages_same rfl (List.forall_mem_singleton.mpr h)

/-- Between incidents no message is taken. -/
theorem Change.messages (h : Change s t) : t.messages = s.messages := by
  obtain ⟨events, journal, own⟩ := h.journal
  exact messages_same journal fun e he => (own e he).message?

/-- Nothing but a change of the session's own state opens or closes it, or sets its handler. -/
theorem Change.state (h : Change s t) : t.state = s.state := by
  cases h with
  | books h | post _ h => exact h.state
  | withdraw | take => exact congrArg (·.state) (toLedger_invite _)
  | _ => rfl

theorem Changes.state (h : s.Changes t) : t.state = s.state := by
  induction h with
  | refl => rfl
  | tail _ change ih => exact change.state.trans ih

theorem handler_invite (s : Session) : s.invite.handler = s.handler := by
  obtain ⟨waiting, invited, ready, heq, -⟩ := s.invite_eq
  rw [heq]

theorem Change.handler (h : Change s t) : t.handler = s.handler := by
  cases h with
  | withdraw | take => exact handler_invite _
  | _ => rfl

/-! ### Messages -/

theorem complete_eq (s : Session) (r : Response) : ∃ ready,
    s.complete r = { s with toLedger := s.toLedger.complete r, ready := ready } :=
  s.update_eq (s.toLedger.complete r)

theorem close_eq (s : Session) : ∃ ready, s.close = { s with toLedger := s.toLedger.close, ready := ready } :=
  s.update_eq s.toLedger.close

/-- A response answers calls, and changes nothing else in the books. -/
theorem ledger_complete_eq (l : Ledger) (r : Response) :
    ∃ calls pending, l.complete r = { l with calls := calls, pending := pending } := by
  rw [Ledger.complete]
  split
  · exact ⟨l.calls, l.pending, rfl⟩
  · exact ⟨_, _, rfl⟩

/-- A response of the dispatcher's gets into the queue if there is room, and waits for room otherwise; a writer that
    has ended takes none. -/
theorem respond_cases (s : Session) (r : Response) :
    (s.writer = .ended ∧ ∃ ready, (∀ task ∈ s.ready, task ∈ ready) ∧
      s.respond r = { s with dispatcher := .running, ready := ready }) ∨
    (s.writer ≠ .ended ∧ s.admits = true ∧ ∃ ready, (∀ task ∈ s.ready, task ∈ ready) ∧ s.respond r =
      { s with
        journal := s.journal ++ [.queued (.frame r.toJson)]
        queue := s.queue ++ [.frame r.toJson]
        dispatcher := .running
        ready := ready }) ∨
    (s.writer ≠ .ended ∧ s.admits = false ∧ s.respond r =
      { s with waiting := s.waiting ++ [Waiting.mk (.frame r.toJson) .dispatcher], dispatcher := .blocked }) := by
  rw [Session.respond, offer]
  split
  case h_1 spent =>
    have awake := (Wakes.wake { s with dispatcher := .running } .dispatch).ready
    obtain ⟨ready, heq⟩ := wake_eq { s with dispatcher := .running } .dispatch
    rw [heq] at awake
    exact Or.inl ⟨spent, ready, awake, heq⟩
  case h_2 live =>
    split
    case isTrue room =>
      have awake := (Wakes.enqueue s (.frame r.toJson)).ready
      obtain ⟨ready, heq⟩ := wake_eq ({ s with queue := s.queue ++ [Outbound.frame r.toJson] }.note
        (.queued (.frame r.toJson))) .write
      rw [enqueue, heq] at awake
      refine Or.inr (Or.inl ⟨live, room, ready, awake, ?_⟩)
      rw [enqueue, heq]
      rfl
    case isFalse full => exact Or.inr (Or.inr ⟨live, Bool.eq_false_iff.mpr full, rfl⟩)

/-- What a message leads to is one of four things: a response answers calls, a request gets the reply that is owed, a
    notification is told, and anything else is taken down only. -/
theorem hear_cases (s : Session) (m : Json) :
    (∃ r, Response.ofMessage? m = some r ∧ Response.owed? m = none ∧ Notification.ofMessage? m = none ∧
      s.hear m = (s.note (.received m)).complete r) ∨
    Response.ofMessage? m = none ∧
      ((∃ r, Response.owed? m = some r ∧ Notification.ofMessage? m = none ∧
        s.hear m = (s.note (.received m)).respond r) ∨
      (∃ n, Response.owed? m = none ∧ Notification.ofMessage? m = some n ∧
        s.hear m = (s.note (.received m)).notify n) ∨
      (Response.owed? m = none ∧ Notification.ofMessage? m = none ∧ s.hear m = s.note (.received m))) := by
  rw [hear, Response.owed?, Notification.ofMessage?]
  cases asked : Request.ofMessage? m with
  | none =>
    cases answered : Response.ofMessage? m with
    | some r => exact Or.inl ⟨r, rfl, rfl, rfl, rfl⟩
    | none => exact Or.inr ⟨rfl, Or.inr (Or.inr ⟨rfl, rfl, rfl⟩)⟩
  | some q =>
    rw [Response.ofMessage?_of_request asked]
    simp only [Option.bind_some, heed]
    refine Or.inr ⟨trivial, ?_⟩
    cases owed : q.reply? with
    | some r =>
      have unasked : q.tells = false := by
        cases told : q.tells with
        | false => rfl
        | true => rw [Request.reply?_of_tells told] at owed; cases owed
      exact Or.inl ⟨r, rfl, Request.notification?_of_not_tells unasked, rfl⟩
    | none =>
      cases q.notification? with
      | some n => exact Or.inr (Or.inl ⟨n, rfl, rfl, rfl⟩)
      | none => exact Or.inr (Or.inr ⟨rfl, rfl, rfl⟩)

theorem Orderly.notify (h : s.Orderly) (n : Notification) : s.Quiet (s.notify n) := by
  rw [Session.notify]
  split
  · exact h.note (Event.isRemark_callback _ n)
  · exact .refl h

theorem Orderly.hear (h : s.Orderly) (m : Json) : s.Takes m (s.hear m) := by
  have noted := h.received m
  have plain (unanswered : Response.ofMessage? m = none) : s.Takes m (s.note (.received m)) := by
    refine h.note_received fun r hr => ?_
    rw [Message.ofJson_eq_response.mp hr] at unanswered
    cases unanswered
  obtain ⟨r, answered, -, -, heq⟩ | ⟨unanswered, cases⟩ := s.hear_cases m
  · rw [heq]
    exact h.complete (Message.ofJson_eq_response.mpr answered)
  · obtain ⟨r, -, -, heq⟩ | ⟨n, -, -, heq⟩ | ⟨-, -, heq⟩ := cases <;> rw [heq]
    · exact (plain unanswered).trans (noted.respond r)
    · exact (plain unanswered).trans (noted.notify n)
    · exact plain unanswered

theorem respond_journal (s : Session) (r : Response) :
    ∃ events : List Event, (s.respond r).journal = s.journal ++ events ∧ ∀ e ∈ events, e.IsOwn := by
  obtain ⟨-, ready, -, heq⟩ | ⟨-, -, ready, -, heq⟩ | ⟨-, -, heq⟩ := s.respond_cases r <;> rw [heq]
  · exact ⟨[], (List.append_nil _).symm, by simp⟩
  · exact ⟨[_], rfl, by simp [Event.IsOwn]⟩
  · exact ⟨[], (List.append_nil _).symm, by simp⟩

/-- The callbacks that a session makes for what it is told. -/
def callsFor (s : Session) (told : List Notification) : List Event :=
  match s.state with
  | .opened => told.map (.callback s.handler)
  | .closed => []

theorem message?_callsFor (s : Session) (told : List Notification) : ∀ e ∈ s.callsFor told, e.message? = none := by
  rw [callsFor]
  split
  · simp [Event.message?]
  · simp

theorem callsFor_nil (s : Session) : s.callsFor [] = [] := by
  rw [callsFor]
  split <;> rfl

/-- A notification is taken down with its callback, and nothing else changes. -/
theorem notify_eq (s : Session) (n : Notification) :
    s.notify n = { s with journal := s.journal ++ s.callsFor [n] } := by
  rw [notify, callsFor]
  split
  · rfl
  · rw [List.append_nil]

/-- The journal tells of the message, of what is done about it, and of the callback if there is one. -/
theorem hear_journal (s : Session) (m : Json) : ∃ events : List Event,
    (s.hear m).journal = s.journal ++ .received m :: events ++ s.callsFor (Notification.ofMessage? m).toList ∧
      ∀ e ∈ events, e.IsOwn := by
  obtain ⟨r, -, -, silent, heq⟩ | ⟨-, cases⟩ := s.hear_cases m
  · obtain ⟨ready, completed⟩ := (s.note (.received m)).complete_eq r
    obtain ⟨calls, pending, answered⟩ := ledger_complete_eq (s.note (.received m)).toLedger r
    refine ⟨[], ?_, by simp⟩
    rw [heq, silent, completed, answered, Option.toList_none, callsFor_nil, List.append_nil]
    rfl
  · obtain ⟨r, -, silent, heq⟩ | ⟨n, -, told, heq⟩ | ⟨-, silent, heq⟩ := cases
    · obtain ⟨events, journal, own⟩ := (s.note (.received m)).respond_journal r
      refine ⟨events, ?_, own⟩
      rw [heq, silent, journal, Option.toList_none, callsFor_nil, List.append_nil]
      exact List.append_assoc _ _ _
    · refine ⟨[], ?_, by simp⟩
      rw [heq, told, notify_eq]
      rfl
    · refine ⟨[], ?_, by simp⟩
      rw [heq, silent, Option.toList_none, callsFor_nil, List.append_nil]
      rfl

theorem hear_messages (s : Session) (m : Json) : (s.hear m).messages = s.messages ++ [m] := by
  obtain ⟨events, journal, own⟩ := s.hear_journal m
  rw [List.append_assoc] at journal
  refine messages_received journal (List.forall_mem_append.mpr ⟨fun e he => (own e he).message?, ?_⟩)
  exact s.message?_callsFor _

/-- No message opens or closes the session, or sets its handler. -/
theorem hear_keeps (s : Session) (m : Json) : (s.hear m).state = s.state ∧ (s.hear m).handler = s.handler := by
  obtain ⟨r, -, -, -, heq⟩ | ⟨-, ⟨r, -, -, heq⟩ | ⟨n, -, -, heq⟩ | ⟨-, -, heq⟩⟩ := s.hear_cases m <;> rw [heq]
  · obtain ⟨ready, completed⟩ := (s.note (.received m)).complete_eq r
    obtain ⟨calls, pending, answered⟩ := ledger_complete_eq (s.note (.received m)).toLedger r
    rw [completed, answered]
    exact ⟨rfl, rfl⟩
  · obtain ⟨-, ready, -, sent⟩ | ⟨-, -, ready, -, sent⟩ | ⟨-, -, sent⟩ := (s.note (.received m)).respond_cases r <;>
      rw [sent] <;> exact ⟨rfl, rfl⟩
  · rw [notify_eq]
    exact ⟨rfl, rfl⟩
  · exact ⟨rfl, rfl⟩

/-- A session that is closed stays closed. -/
theorem Trail.closed (h : Trail is s t) (closed : s.state = .closed) : t.state = .closed := by
  induction h with
  | refl s => exact closed
  | change first _ ih => exact ih (first.state.trans closed)
  | @incident _ _ s _ _ first _ ih =>
    cases first with
    | handler _ h => exact ih closed
    | message m running => exact ih ((s.hear_keeps m).1.trans closed)
    | notice _ n =>
      rw [notify_eq] at ih
      exact ih closed
    | closing opened => exact nomatch closed.symm.trans opened

end Session

/-! ### Incidents in the journal -/

/-- Whether the journal of the session tells of an incident. -/
def Incident.isNoted : Incident → Bool
  | .message _ | .closing => true
  | .handler _ | .notice _ => false

/-- The incident that an event tells of. -/
def Event.incident? : Event → Option Incident
  | .received m => some (.message m)
  | .closed => some .closing
  | _ => none

theorem Event.IsOwn.incident? {e : Event} (h : e.IsOwn) : e.incident? = none := by
  cases e <;> first | rfl | exact h.elim

namespace Session
variable {s t u : Session} {is : List Incident} {i : Incident}

theorem incidents_of_own {events : List Event} (own : ∀ e ∈ events, e.IsOwn) :
    events.filterMap Event.incident? = [] :=
  List.filterMap_eq_nil_iff.mpr fun e he => (own e he).incident?

theorem incidents_of_callsFor (s : Session) (told : List Notification) :
    (s.callsFor told).filterMap Event.incident? = [] := by
  rw [callsFor]
  split
  · rw [List.filterMap_map]
    exact List.filterMap_eq_nil_iff.mpr fun _ _ => rfl
  · rfl

theorem Befalls.journal (h : Befalls i s t) : ∃ events : List Event, t.journal = s.journal ++ events ∧
    events.filterMap Event.incident? = [i].filter (·.isNoted) := by
  cases h with
  | handler h => exact ⟨[], (List.append_nil _).symm, rfl⟩
  | message m running =>
    obtain ⟨events, journal, own⟩ := s.hear_journal m
    refine ⟨_, by rw [journal, List.append_assoc], ?_⟩
    rw [List.cons_append, List.filterMap_cons, List.filterMap_append, incidents_of_own own, incidents_of_callsFor]
    rfl
  | notice _ n => exact ⟨_, congrArg (·.journal) (s.notify_eq n), incidents_of_callsFor s [n]⟩
  | closing opened =>
    obtain ⟨ready, closed⟩ := s.close_eq
    exact ⟨[.closed], by rw [closed]; rfl, rfl⟩

/-- The journal tells of the messages and of the closing on a trail, in their order, and of no others. -/
theorem Trail.journal (h : Trail is s t) : ∃ events : List Event, t.journal = s.journal ++ events ∧
    events.filterMap Event.incident? = is.filter (·.isNoted) := by
  induction h with
  | refl s => exact ⟨[], (List.append_nil _).symm, rfl⟩
  | change first _ ih =>
    obtain ⟨events, journal, own⟩ := first.journal
    obtain ⟨more, journal', noted⟩ := ih
    refine ⟨events ++ more, by rw [journal', journal, List.append_assoc], ?_⟩
    rw [List.filterMap_append, incidents_of_own own, noted, List.nil_append]
  | @incident i is s t u first _ ih =>
    obtain ⟨events, journal, noted⟩ := first.journal
    obtain ⟨more, journal', noted'⟩ := ih
    refine ⟨events ++ more, by rw [journal', journal, List.append_assoc], ?_⟩
    rw [List.filterMap_append, noted, noted', ← List.filter_append]
    rfl

end Session
end Ovsdb
