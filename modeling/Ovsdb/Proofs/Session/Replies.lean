import Ovsdb.Proofs.Session.Room

/-! The replies that a session owes its server are the ones that it gives, in the order of the requests: each goes into
    the queue, or is held for want of room there as the only one, until it has its turn and gets in. -/

namespace Ovsdb

/-- The message that an incident is. -/
def Incident.message? : Incident → Option Json
  | .message m => some m
  | _ => none

/-- The reply that an event tells of: a frame that gets into the queue and is a response. -/
def Event.reply? : Event → Option Json
  | .queued (.frame j) => (Response.ofMessage? j).map fun _ => j
  | _ => none

/-- The reply that waits for room in the queue, if it is the dispatcher who waits. -/
def Waiting.reply? : Waiting → Option Json
  | ⟨.frame j, .dispatcher⟩ => some j
  | _ => none

theorem Sender.Sends.reply?_queued {sender : Sender} {item : Outbound} (sends : sender.Sends item)
    (own : sender ≠ .dispatcher) : (Event.queued item).reply? = none := by
  cases sender with
  | call n =>
    obtain ⟨q, rfl⟩ := sends
    rw [Event.reply?, Response.ofMessage?_of_request (Request.ofMessage?_toJson q), Option.map_none]
  | dispatcher => exact absurd rfl own
  | closer ticket =>
    cases sends
    rfl

namespace Waiting

theorem reply?_of_other {w : Waiting} (other : w.sender ≠ .dispatcher) : w.reply? = none := by
  obtain ⟨item, sender⟩ := w
  cases sender with
  | dispatcher => exact absurd rfl other
  | call n => cases item <;> rfl
  | closer ticket => cases item <;> rfl

theorem sender_of_reply? {w : Waiting} {j : Json} (h : w.reply? = some j) : w.sender = .dispatcher := by
  by_contra other
  rw [reply?_of_other other] at h
  cases h

theorem filterMap_reply?_filter {sender : Sender} (other : sender ≠ .dispatcher) (offers : List Waiting) :
    (offers.filter (·.sender ≠ sender)).filterMap reply? = offers.filterMap reply? := by
  induction offers with
  | nil => rfl
  | cons w offers ih =>
    by_cases itself : w.sender = sender
    · rw [List.filter_cons_of_neg (by simpa using itself), ih,
        List.filterMap_cons_none (reply?_of_other (itself ▸ other))]
    · rw [List.filter_cons_of_pos (by simpa using itself), List.filterMap_cons, List.filterMap_cons, ih]

theorem filterMap_reply?_filter_self (offers : List Waiting) :
    (offers.filter (·.sender ≠ .dispatcher)).filterMap reply? = [] :=
  List.filterMap_eq_nil_iff.mpr fun w hw => reply?_of_other (by simpa using (List.mem_filter.mp hw).2)

end Waiting

/-- The frame of the reply that is owed for a message. -/
def Response.owedFrame? (m : Json) : Option Json :=
  (owed? m).map toJson

namespace Session

/-- The replies that a session has put into its queue, in order. -/
def replies (s : Session) : List Json :=
  s.journal.filterMap Event.reply?

/-- The replies that wait for room in the queue. -/
def held (s : Session) : List Json :=
  s.offers.filterMap Waiting.reply?

/-- As long as there is a writer, the replies are those that are owed, up to the one that still waits for room. -/
def Replying (s : Session) : Prop :=
  s.writer ≠ .ended → s.replies ++ s.held = s.messages.filterMap Response.owedFrame?

variable {s t : Session} {i : Incident} {is : List Incident} {item : Outbound} {sender : Sender} {w : Waiting}
  {events : List Event} {m : Json}

theorem replies_append (journal : t.journal = s.journal ++ events) :
    t.replies = s.replies ++ events.filterMap Event.reply? := by
  rw [replies, journal, List.filterMap_append]
  rfl

theorem replies_same (journal : t.journal = s.journal ++ events) (aside : ∀ e ∈ events, e.reply? = none) :
    t.replies = s.replies := by
  rw [replies_append journal, List.filterMap_eq_nil_iff.mpr aside, List.append_nil]

theorem replies_of_books {l : Ledger} (h : s.toLedger.Books l) : l.journal.filterMap Event.reply? = s.replies := by
  obtain ⟨entries, journal, kind⟩ := h.journal
  refine replies_same (t := { s with toLedger := l }) journal fun e he => ?_
  have entry := kind e he
  cases e <;> first | rfl | exact entry.elim

/-! ### The reply that is held -/

theorem held_append {offers : List Waiting} (there : t.offers = s.offers ++ offers)
    (other : ∀ w ∈ offers, w.sender ≠ .dispatcher) : t.held = s.held := by
  rw [held, there, List.filterMap_append,
    List.filterMap_eq_nil_iff.mpr fun w hw => Waiting.reply?_of_other (other w hw), List.append_nil]
  rfl

theorem offer_of_held (held : s.held ≠ []) : ∃ w ∈ s.offers, w.sender = .dispatcher := by
  obtain ⟨j, there⟩ := List.exists_mem_of_ne_nil _ held
  obtain ⟨w, offered, reply⟩ := List.mem_filterMap.mp there
  exact ⟨w, offered, Waiting.sender_of_reply? reply⟩

namespace Lined

theorem held_eq_nil (h : s.Lined) (free : s.dispatcher ≠ .blocked) : s.held = [] :=
  List.filterMap_eq_nil_iff.mpr fun w hw => Waiting.reply?_of_other (h.unblocked free w hw)

theorem held_length (h : s.Lined) : s.held.length ≤ 1 := by
  -- What is held is from the dispatcher, and no two that wait are.
  have apart : s.held.Pairwise fun _ _ => False := by
    refine List.pairwise_filterMap.mpr (h.apart.imp fun {v w} apart j hj k hk => ?_)
    obtain ⟨ticket, closer⟩ := apart ((Waiting.sender_of_reply? hj).trans (Waiting.sender_of_reply? hk).symm)
    rw [Waiting.sender_of_reply? hj] at closer
    cases closer
  match s.held, apart with
  | [], _ => exact Nat.zero_le 1
  | [_], _ => exact Nat.le_refl 1
  | _ :: _ :: _, apart => exact (List.rel_of_pairwise_cons apart List.mem_cons_self).elim

/-- The dispatcher waits with the reply that is held. -/
theorem held_of_offer (h : s.Lined) (offered : w ∈ s.offers) (own : w.sender = .dispatcher) :
    ∃ r : Response, w.item = .frame r.toJson ∧ s.held = [r.toJson] := by
  have sends := h.sends w offered
  rw [own] at sends
  obtain ⟨r, item⟩ := sends
  have there : r.toJson ∈ s.held := by
    refine List.mem_filterMap.mpr ⟨w, offered, ?_⟩
    obtain ⟨_, _⟩ := w
    cases own
    cases item
    rfl
  have once := h.held_length
  obtain ⟨j, only⟩ := List.length_eq_one_iff.mp (Nat.le_antisymm once (List.length_pos_of_mem there))
  rw [only, List.mem_singleton] at there
  exact ⟨r, item, there ▸ only⟩

/-- Without the dispatcher's own, those that are left hold no reply. -/
theorem settled_of_invited (h : s.Lined) (invited : w ∈ s.invited) (own : w.sender = .dispatcher) :
    (s.invited.filter (·.sender ≠ w.sender) ++ s.waiting).filterMap Waiting.reply? = [] := by
  have elsewhere := h.elsewhere invited (by simp [own])
  rw [List.filterMap_append, own, Waiting.filterMap_reply?_filter_self,
    List.filterMap_eq_nil_iff.mpr fun v hv => Waiting.reply?_of_other (own ▸ elsewhere v hv)]
  rfl

end Lined

/-! ### Changes -/

namespace Replying

theorem initial (registry connection capacity : Nat) : (Session.initial registry connection capacity).Replying :=
  fun _ => rfl

/-- Nothing changes that is about messages and replies. -/
theorem keeps (h : s.Replying) (writer : s.writer = .ended → t.writer = .ended) (messages : t.messages = s.messages)
    (replies : t.replies = s.replies) (held : t.held = s.held) : t.Replying := by
  intro live
  rw [messages, replies, held]
  exact h (mt writer live)

/-- The reply that is held gets into the queue. -/
theorem entered (h : s.Replying) {r : Response} (journal : t.journal = s.journal ++ [.queued (.frame r.toJson)])
    (messages : t.messages = s.messages) (waits : s.held = [r.toJson]) (settled : t.held = [])
    (writer : t.writer = s.writer) : t.Replying := by
  intro live
  have replies : t.replies = s.replies ++ [r.toJson] := by
    rw [replies_append journal]
    simp [Event.reply?]
  rw [messages, replies, settled, List.append_nil, ← waits]
  exact h (writer ▸ live)

end Replying

theorem Change.replying (h : Change s t) (lined : s.Lined) (replying : s.Replying) : t.Replying := by
  have messages := h.messages
  cases h with
  | aside | rouse | rest | learn | leave => exact replying.keeps id messages rfl rfl
  | unblock => exact replying.keeps id messages rfl rfl
  | books h => exact replying.keeps id messages (replies_of_books h) rfl
  | tell ticket result => exact replying.keeps id messages (replies_same rfl (by simp [Event.reply?])) rfl
  | put sends own =>
    exact replying.keeps id messages (replies_same rfl (List.forall_mem_singleton.mpr (sends.reply?_queued own))) rfl
  | post q h =>
    refine replying.keeps id messages (replies_of_books h) (held_append (List.append_assoc _ _ _).symm ?_)
    exact List.forall_mem_singleton.mpr (by simp)
  | wait ticket =>
    refine replying.keeps id messages rfl (held_append (List.append_assoc _ _ _).symm ?_)
    exact List.forall_mem_singleton.mpr (by simp)
  | @enter w invited =>
    by_cases own : w.sender = .dispatcher
    · obtain ⟨r, item, waits⟩ := lined.held_of_offer (List.mem_append_left _ invited) own
      have settled := lined.settled_of_invited invited own
      rw [item] at messages ⊢
      exact replying.entered rfl messages waits settled rfl
    · have sends := lined.sends w (List.mem_append_left _ invited)
      refine replying.keeps id messages (replies_same rfl ?_) ?_
      · exact List.forall_mem_singleton.mpr (sends.reply?_queued own)
      · rw [held, held, offers, offers, List.filterMap_append, List.filterMap_append]
        exact congrArg (· ++ _) (Waiting.filterMap_reply?_filter own _)
  | @withdraw sender own =>
    have fewer : (s.invited.filter (·.sender ≠ sender)) ++ s.waiting.filter (·.sender ≠ sender) =
        s.offers.filter (·.sender ≠ sender) := (List.filter_append _ _).symm
    obtain ⟨waiting, invited, ready, heq, same⟩ := invite_eq { s with
      waiting := s.waiting.filter (·.sender ≠ sender)
      invited := s.invited.filter (·.sender ≠ sender) }
    rw [Session.withdraw, heq] at messages ⊢
    refine replying.keeps id messages rfl ((congrArg (List.filterMap Waiting.reply?) (same.trans fewer)).trans ?_)
    exact Waiting.filterMap_reply?_filter own _
  | take idle first =>
    obtain ⟨waiting, invited, ready, heq, same⟩ := invite_eq { s with writer := .writing _, queue := _ }
    rw [heq] at messages ⊢
    exact replying.keeps (fun spent => absurd (idle.symm.trans spent) (by simp)) messages rfl
      (congrArg (List.filterMap Waiting.reply?) same)
  | write writing =>
    exact replying.keeps (fun spent => absurd (writing.symm.trans spent) (by simp)) messages rfl rfl
  | spend => exact fun live => absurd rfl live

/-! ### Messages -/

theorem reply?_callsFor (s : Session) (told : List Notification) : ∀ e ∈ s.callsFor told, e.reply? = none := by
  rw [callsFor]
  split
  · simp [Event.reply?]
  · simp

namespace Replying

/-- With a message, what is given or held grows by what is owed for it. -/
theorem received (h : s.Replying) (live : s.writer ≠ .ended) (messages : t.messages = s.messages ++ [m])
    (journal : t.journal = s.journal ++ .received m :: events)
    (owed : events.filterMap Event.reply? ++ t.held = s.held ++ (Response.owedFrame? m).toList) : t.Replying := by
  intro _
  have last : [m].filterMap Response.owedFrame? = (Response.owedFrame? m).toList := by
    rw [List.filterMap_cons, List.filterMap_nil]
    cases Response.owedFrame? m <;> rfl
  rw [messages, replies_append journal, List.filterMap_cons_none (f := Event.reply?) rfl, List.append_assoc, owed,
    ← List.append_assoc, h live, List.filterMap_append, last]

/-- A message that no reply is owed for. -/
theorem unowed (h : s.Replying) (messages : t.messages = s.messages ++ [m])
    (journal : t.journal = s.journal ++ .received m :: events) (aside : ∀ e ∈ events, e.reply? = none)
    (unowed : Response.owed? m = none) (held : t.held = s.held) (writer : t.writer = s.writer) : t.Replying := by
  intro live
  refine h.received (writer ▸ live) messages journal ?_ live
  rw [List.filterMap_eq_nil_iff.mpr aside, held, Response.owedFrame?, unowed]
  exact (List.append_nil _).symm

/-- A request that a reply is owed for gets it, or lets the dispatcher wait with it. -/
theorem respond (h : s.Replying) (settled : s.held = []) {r : Response} (owed : Response.owed? m = some r)
    (messages : ((s.note (.received m)).respond r).messages = s.messages ++ [m]) :
    ((s.note (.received m)).respond r).Replying := by
  obtain ⟨spent, ready, -, heq⟩ | ⟨live, -, ready, -, heq⟩ | ⟨live, -, heq⟩ :=
    (s.note (.received m)).respond_cases r <;> rw [heq] at messages ⊢
  · exact fun live => absurd spent live
  · refine h.received live messages (List.append_assoc _ _ _) ?_
    rw [settled, Response.owedFrame?, owed]
    exact congrArg (_ ++ ·) settled
  · have offers : s.invited ++ (s.waiting ++ [Waiting.mk (.frame r.toJson) .dispatcher]) = s.offers ++ [_] :=
      (List.append_assoc _ _ _).symm
    have held : (s.offers ++ [Waiting.mk (.frame r.toJson) .dispatcher]).filterMap Waiting.reply? =
        s.held ++ [r.toJson] := List.filterMap_append
    refine h.received live messages rfl ?_
    rw [Response.owedFrame?, owed, List.filterMap_nil, List.nil_append]
    exact (congrArg (List.filterMap Waiting.reply?) offers).trans held

theorem hear (h : s.Replying) (lined : s.Lined) (running : s.dispatcher = .running) (m : Json) :
    (s.hear m).Replying := by
  have messages := s.hear_messages m
  obtain ⟨r, -, unowed, -, heq⟩ | ⟨-, ⟨r, owed, -, heq⟩ | ⟨n, unowed, -, heq⟩ | ⟨unowed, -, heq⟩⟩ := s.hear_cases m <;>
    rw [heq] at messages ⊢
  · obtain ⟨ready, completed⟩ := (s.note (.received m)).complete_eq r
    obtain ⟨calls, pending, answered⟩ := ledger_complete_eq (s.note (.received m)).toLedger r
    rw [completed, answered] at messages ⊢
    exact h.unowed messages rfl (by simp) unowed rfl rfl
  -- A dispatcher that takes a message is not blocked, so that nothing has been held before.
  · exact h.respond (lined.held_eq_nil (by simp [running])) owed messages
  · rw [notify_eq] at messages ⊢
    exact h.unowed messages (List.append_assoc _ _ _) ((s.note (.received m)).reply?_callsFor [n]) unowed rfl rfl
  · exact h.unowed messages rfl (by simp) unowed rfl rfl

end Replying

theorem Befalls.replying (h : Befalls i s t) (lined : s.Lined) (replying : s.Replying) : t.Replying := by
  cases h with
  | handler _ h => exact replying.keeps id rfl rfl rfl
  | message m running => exact replying.hear lined running m
  | notice _ n =>
    rw [notify_eq]
    exact replying.keeps id (messages_same rfl (s.message?_callsFor [n])) (replies_same rfl (s.reply?_callsFor [n])) rfl
  | closing opened =>
    have messages : (s.note .closed).messages = s.messages := messages_note rfl
    have replies : (s.note .closed).replies = s.replies := replies_same rfl (by simp [Event.reply?])
    obtain ⟨ready, closed⟩ := s.close_eq
    rw [closed]
    exact replying.keeps id messages replies rfl

/-- The replies are right all along. -/
theorem Trail.replying (h : Trail is s t) (seated : s.Seated) (replying : s.Replying) : t.Replying := by
  induction h with
  | refl s => exact replying
  | change first _ ih => exact ih (first.seated seated) (first.replying seated.toLined replying)
  | incident first _ ih => exact ih (first.seated seated) (first.replying seated.toLined replying)

/-! ### Taking messages -/

theorem message?_eq (e : Event) : e.message? = e.incident?.bind Incident.message? := by
  cases e <;> rfl

theorem message?_of_noted (i : Incident) : (if i.isNoted then i.message? else none) = i.message? := by
  cases i <;> rfl

/-- On a trail, the session takes the messages that befall it. -/
theorem Trail.messages (h : Trail is s t) : t.messages = s.messages ++ is.filterMap Incident.message? := by
  obtain ⟨events, journal, noted⟩ := h.journal
  have taken : events.filterMap Event.message? = (events.filterMap Event.incident?).filterMap Incident.message? := by
    rw [List.filterMap_filterMap]
    exact congrArg (events.filterMap ·) (funext message?_eq)
  rw [messages_append journal, taken, noted, List.filterMap_filter]
  exact congrArg (_ ++ is.filterMap ·) (funext message?_of_noted)

end Session

/-- The id of the call that a message answers, if it is a response with an unsigned id. -/
def Response.answered? (m : Json) : Option UInt64 :=
  (ofMessage? m).bind (·.id.uint64?)

/-- A message takes away the call that it answers from those that wait for their replies, and no other one. -/
theorem Ledger.receive_pending (m : Json) (l : Ledger) : (l.receive m).pending =
    l.pending.filter fun n => Response.answered? m ≠ some (requestId n) := by
  have all (unanswered : Response.answered? m = none) :
      l.pending = l.pending.filter fun n => Response.answered? m ≠ some (requestId n) := by
    rw [unanswered]
    exact (List.filter_eq_self.mpr fun _ _ => rfl).symm
  rw [receive]
  split
  case h_1 r hr =>
    have answered : Response.answered? m = r.id.uint64? := by
      rw [Response.answered?, Message.ofJson_eq_response.mp hr, Option.bind_some]
    rw [complete]
    split
    case h_1 unnumbered => exact all (answered.trans unnumbered)
    case h_2 id numbered =>
      rw [answered, numbered]
      refine List.filter_congr fun n hn => decide_eq_decide.mpr (not_congr ?_)
      rw [mem_pendingWith, Option.some.injEq, and_iff_right hn]
      exact eq_comm
  case h_2 other =>
    refine all ?_
    cases answered : Response.ofMessage? m with
    | none => rw [Response.answered?, answered, Option.bind_none]
    | some r => exact absurd (Message.ofJson_eq_response.mpr answered) (other r)

namespace Client
variable {c d : Client} {i : Nat} {s t : Session} {m : Json} {a : Action}

/-- A message changes neither registries nor the state of the session nor the number that the next call gets, and no
    call stops to wait for its reply but the one that it answers. -/
structure Discreet (m : Json) (c d : Client) (s t : Session) : Prop where
  registries : d.registries = c.registries
  state : t.state = s.state
  begun : t.begun = s.begun
  pending : t.pending = s.pending.filter fun n => Response.answered? m ≠ some (requestId n)

theorem Hears.discreet (h : Hears i m c d) (order : s.Orderly) (hs : c.sessions[i]? = some s)
    (ht : d.sessions[i]? = some t) : Discreet m c d s t := by
  obtain ⟨s', inbound, stopping, ready, hs', -, -, rfl, -⟩ := h
  cases hs.symm.trans hs'
  rw [sessions_modify_self hs] at ht
  cases ht
  let u : Session := { s with inbound := inbound }
  have order : u.Orderly := (order.alike (t := u) ⟨rfl, rfl, rfl, rfl, rfl, rfl, rfl, rfl⟩).orderly
  obtain ⟨events, -, books⟩ := (order.hear m).books
  have state : (u.hear m).state = (s.receive m).state := congrArg (·.state) books
  have begun : (u.hear m).begun = (s.receive m).begun := congrArg (·.begun) books
  have pending : (u.hear m).pending = (s.receive m).pending := congrArg (·.pending) books
  exact ⟨rfl, state.trans (Ledger.receive_state m _), begun.trans (Ledger.receive_begun m _),
    pending.trans (Ledger.receive_pending m _)⟩

/-- A step that takes no message takes none in; one that does takes one, and is discreet about it. -/
theorem Invariant.takes_one (h : c.Invariant) (routed : c.Routed) (hs : c.sessions[i]? = some s)
    (ht : (c.step a).sessions[i]? = some t) :
    t.messages = s.messages ∨ ∃ m, t.messages = s.messages ++ [m] ∧ Discreet m c (c.step a) s t := by
  cases h.meets routed hs ht with
  | untold is trail handlers closings =>
    have none : ∀ x ∈ given i s a ++ is, x.message? = none := by
      refine List.forall_mem_append.mpr ⟨fun x hx => ?_, fun x hx => closings x hx ▸ rfl⟩
      obtain ⟨h, rfl⟩ := handlers x hx
      rfl
    exact Or.inl (by rw [trail.messages, List.filterMap_eq_nil_iff.mpr none, List.append_nil])
  | heard m _ heard =>
    obtain ⟨t', ht', trail⟩ := heard.own hs
    cases ht.symm.trans ht'
    exact Or.inr ⟨m, trail.messages, heard.discreet (h.sound.orderly i s hs) hs ht⟩
  | noticed n _ _ told =>
    have trail : Session.Trail [.notice n] s t := told ▸ .single (.notice s n)
    exact Or.inl (trail.messages.trans (List.append_nil _))

/-! ### Runs -/

/-- How the server is replied to on session `i`, which has come to `s` after `actions`. -/
structure Discipline (actions : List Action) (i : Nat) (s : Session) : Prop where
  /-- An open session has a writer that takes what is in the queue. -/
  live : s.state = .opened → s.writer ≠ .ended
  /-- As long as there is a writer, the replies are those that are owed, up to one that is held. -/
  replies : s.writer ≠ .ended → s.replies ++ s.held = s.messages.filterMap Response.owedFrame?
  /-- Only one reply is held at a time. -/
  single : s.held.length ≤ 1
  /-- No reply is held while the dispatcher is free to take a message. -/
  settled : s.dispatcher ≠ .blocked → s.held = []
  /-- The dispatcher is not blocked for anything but a reply that is held. -/
  blocked : s.writer ≠ .ended → s.dispatcher = .blocked → s.held ≠ []
  /-- On an open session a reply is held for want of room only, or has its turn already. -/
  room : s.state = .opened → s.held ≠ [] →
    s.isInvited .dispatcher = true ∨ s.queue.length + s.invited.length = Session.queueLimit
  /-- What waits for room gets into the queue in its turn, the reply that is held among it. -/
  served : Serves (initial.run actions) i s
  /-- When it has its turn the dispatcher has been woken, puts the reply into the queue and goes on. -/
  turn : s.isInvited .dispatcher = true → .dispatch ∈ s.ready ∧
    ∃ t, ((initial.run actions).step (.task i .dispatch)).sessions[i]? = some t ∧
      t.queue = s.queue ++ s.held.map .frame ∧ t.replies = s.replies ++ s.held ∧ t.held = [] ∧
      t.messages = s.messages ∧ t.dispatcher = .running
  /-- Until then it keeps its turn. -/
  lasting : s.isInvited .dispatcher = true → ∀ more t, ((initial.run actions).run more).sessions[i]? = some t →
    t.messages = s.messages → t.held ≠ [] → t.isInvited .dispatcher = true
  /-- A reply that is held behind `k` others has its turn by the time that the writer has taken one more item. -/
  bounded : ∀ k w, s.waiting[k]? = some w → w.sender = .dispatcher →
    ∀ more t, ((initial.run actions).run more).sessions[i]? = some t → t.messages = s.messages → t.held ≠ [] →
      ∃ takes, s.Advances takes t ∧ (k < takes → t.isInvited .dispatcher = true)
  /-- Messages come in one at a time, and change nothing besides. -/
  messages : ∀ a t, ((initial.run actions).step a).sessions[i]? = some t → t.messages = s.messages ∨
    ∃ m, t.messages = s.messages ++ [m] ∧ Discreet m (initial.run actions) ((initial.run actions).step a) s t

theorem replying_run (actions : List Action) (hs : (initial.run actions).sessions[i]? = some s) : s.Replying := by
  obtain ⟨s₀, trail, there | ⟨-, r, k, capacity, rfl⟩⟩ := Invariant.initial.trail_run .initial actions hs
  · exact nomatch there
  · exact trail.replying (.initial r k capacity) (.initial r k capacity)

/-- The turn of a dispatcher that has been invited puts the reply that is held into the queue. -/
theorem Serves.turn (h : Serves c i s) (lined : s.Lined) (invited : s.isInvited .dispatcher = true) :
    .dispatch ∈ s.ready ∧ ∃ t, (c.step (.task i .dispatch)).sessions[i]? = some t ∧
      t.queue = s.queue ++ s.held.map .frame ∧ t.replies = s.replies ++ s.held ∧ t.held = [] ∧
      t.messages = s.messages ∧ t.dispatcher = .running := by
  obtain ⟨w, invited, own⟩ := (s.isInvited_iff _).mp invited
  obtain ⟨r, item, held⟩ := lined.held_of_offer (List.mem_append_left _ invited) own
  obtain ⟨woken, t, ht, enters⟩ := h.enters w invited
  have journal : t.journal = s.journal ++ [.queued (.frame r.toJson)] := by
    rw [enters.books, Ledger.seat, own, item]
    rfl
  have settled := lined.settled_of_invited invited own
  rw [← enters.invited, ← enters.waiting] at settled
  rw [own] at woken ht
  refine ⟨woken, t, ht, ?_, ?_, settled, Session.messages_same journal (by simp [Event.message?]), ?_⟩
  · rw [enters.queue, item, held]
    rfl
  · rw [Session.replies_append journal, held]
    simp [Event.reply?]
  · rw [enters.dispatcher, if_pos own]

/-- In every run, every session gives its server the replies that it owes, in order, and no others. -/
theorem replies_owed (actions : List Action) (i : Nat) (s : Session)
    (hs : (initial.run actions).sessions[i]? = some s) : Discipline actions i s := by
  have reached := Invariant.initial.run actions
  have routed := Invariant.initial.routed_run .initial actions
  have seated := seated_run actions hs
  have lined := seated.toLined
  have served := served actions hs
  -- A dispatcher that has taken no message has nothing new to wait with.
  have old : ∀ t : Session, t.messages = s.messages → ¬ s.Newly t .dispatcher := by
    intro t same
    rw [Session.Newly, same]
    exact Nat.lt_irrefl _
  refine ⟨fun opened => reached.sound.live hs opened, replying_run actions hs, lined.held_length, lined.held_eq_nil,
    fun live blocked => ?_, fun opened held => ?_, served, served.turn lined, fun invited more t ht same held => ?_,
    fun k w there own more t ht same held => ?_, fun a t ht => reached.takes_one routed hs ht⟩
  · obtain ⟨w, offered, own⟩ := (lined.blocked live).mp blocked
    obtain ⟨r, -, held⟩ := lined.held_of_offer offered own
    simp [held]
  · obtain ⟨w, offered, own⟩ := Session.offer_of_held held
    exact own ▸ served.room opened offered
  · obtain ⟨w, invited, own⟩ := (s.isInvited_iff _).mp invited
    have offered := Session.offer_of_held held
    rw [← own] at offered ⊢
    exact served.lasting lined invited (by simp [own]) ht (own ▸ old t same) offered
  · have offered := Session.offer_of_held held
    rw [← own] at offered ⊢
    exact served.bounded lined there (by simp [own]) ht (own ▸ old t same) offered

/-- An echo, a notification with an id, an array, a request that looks like a response, and an echo without an id. -/
def assortment : List Json :=
  [(Request.mk "echo" (.arr [.str "x"]) (.str "a")).toJson,
    (Request.mk "locked" (.arr [.str "l"]) (.ofUInt64 1)).toJson, .arr [.str "echo"],
    .obj [("method", .str "steal"), ("result", .null), ("id", .ofUInt64 2)],
    (Request.notification "echo" .null).toJson]

/-- A call waits while the server sends all of these, and then the response to the call. -/
def inquiry : List Action :=
  [.open false 65536, .invoke 0 7 .listDbs,
    .send 0 (assortment.flatMap Json.bytes ++ (Response.success (.ofUInt64 0) .null).toJson.bytes)] ++
      List.replicate 6 (.task 0 .dispatch)

/-- An echo comes in while the queue is full. -/
def lateEcho : List Action :=
  .open false 65536 :: List.replicate Session.queueLimit (.invoke 0 7 .listDbs) ++
    [.send 0 (Request.mk "echo" (.arr [.str "x"]) (.str "a")).toJson.bytes, .task 0 .dispatch, .task 0 .dispatch]

set_option maxRecDepth 4000 in
/-- Two of the messages are replied to. The response comes last, and only the call that it answers waits no more. When
    the queue is full the reply is held, has its turn as soon as the writer takes a frame, and then gets in. -/
theorem replies_owed_inquiry : (∃ s t, (initial.run inquiry).sessions[0]? = some s ∧ s.state = .opened ∧
    s.messages = assortment ∧ s.pending = [0] ∧
    s.replies ++ s.held = [(Response.success (.str "a") (.arr [.str "x"])).toJson,
      (Response.failure (.ofUInt64 2) "unknown method: steal").toJson] ∧ s.held = [] ∧
    ((initial.run inquiry).step (.task 0 .dispatch)).sessions[0]? = some t ∧ t.pending = [] ∧ Discipline inquiry 0 s ∧
    ∃ m, t.messages = s.messages ++ [m] ∧
      Discreet m (initial.run inquiry) ((initial.run inquiry).step (.task 0 .dispatch)) s t) ∧
    ∃ s t u, (initial.run lateEcho).sessions[0]? = some s ∧ s.queue.length = Session.queueLimit ∧
      s.held = [(Response.success (.str "a") (.arr [.str "x"])).toJson] ∧
      (initial.run (lateEcho ++ [.task 0 .write])).sessions[0]? = some t ∧ t.isInvited .dispatcher = true ∧
      ((initial.run (lateEcho ++ [.task 0 .write])).step (.task 0 .dispatch)).sessions[0]? = some u ∧
      u.replies = [(Response.success (.str "a") (.arr [.str "x"])).toJson] ∧ u.held = [] := by
  refine ⟨?_, ?_⟩
  · have before : ((initial.run inquiry).sessions[0]?.map fun s => (s.state, s.dispatcher, s.messages, s.pending)) =
        some (.opened, .running, assortment, [0]) := rfl
    have after : (((initial.run inquiry).step (.task 0 .dispatch)).sessions[0]?.map fun t =>
        (t.messages.length, t.pending)) = some (6, []) := rfl
    obtain ⟨s, hs, seen⟩ := Option.map_eq_some_iff.mp before
    obtain ⟨t, ht, took⟩ := Option.map_eq_some_iff.mp after
    simp only [Prod.mk.injEq] at seen took
    obtain ⟨opened, running, messages, pending⟩ := seen
    have discipline := replies_owed inquiry 0 s hs
    have owed := discipline.replies (discipline.live opened)
    rw [messages] at owed
    have next : ∃ m, t.messages = s.messages ++ [m] ∧
        Discreet m (initial.run inquiry) ((initial.run inquiry).step (.task 0 .dispatch)) s t := by
      rcases discipline.messages _ t ht with same | next
      · rw [same, messages] at took
        exact absurd took.1 (by decide)
      · exact next
    have settled := discipline.settled (by simp [running])
    exact ⟨s, t, hs, opened, messages, pending, owed, settled, ht, took.2, discipline, next⟩
  · let echo : Json := (Request.mk "echo" (.arr [.str "x"]) (.str "a")).toJson
    have before : ((initial.run lateEcho).sessions[0]?.map fun s =>
        (s.state, s.queue.length, s.messages, s.held.length)) = some (.opened, Session.queueLimit, [echo], 1) := rfl
    have after : ((initial.run (lateEcho ++ [.task 0 .write])).sessions[0]?.map fun t =>
        (t.state, t.isInvited .dispatcher, t.messages)) = some (.opened, true, [echo]) := rfl
    obtain ⟨s, hs, seen⟩ := Option.map_eq_some_iff.mp before
    obtain ⟨t, ht, seen'⟩ := Option.map_eq_some_iff.mp after
    simp only [Prod.mk.injEq] at seen seen'
    obtain ⟨opened, full, messages, waits⟩ := seen
    obtain ⟨opened', invited, messages'⟩ := seen'
    have discipline := replies_owed lateEcho 0 s hs
    have owed := discipline.replies (discipline.live opened)
    rw [messages] at owed
    have held : s.held = [(Response.success (.str "a") (.arr [.str "x"])).toJson] := by
      obtain ⟨-, held⟩ | ⟨-, none⟩ := List.append_eq_singleton_iff.mp owed
      · exact held
      · rw [none] at waits
        cases waits
    have discipline' := replies_owed _ 0 t ht
    have owed' := discipline'.replies (discipline'.live opened')
    rw [messages'] at owed'
    obtain ⟨-, u, hu, -, given, settled, -⟩ := discipline'.turn invited
    exact ⟨s, t, u, hs, full, held, ht, invited, hu, given.trans owed', settled⟩

end Client
end Ovsdb
