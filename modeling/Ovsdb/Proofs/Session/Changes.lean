import Ovsdb.Proofs.Message
import Ovsdb.Proofs.Session.Orderly

/-! What a session does between the messages that it takes: the elementary changes that the turns of its tasks and the
    doings of its users are made of. None of them is a callback, none opens or closes the session, what gets into the
    queue is the sender's own, and nobody begins to wait but for want of room. -/

namespace Ovsdb

/-- What a sender has to put into the queue: calls have requests, the dispatcher has responses and closers have their
    shutdowns. -/
def Sender.Sends : Sender → Outbound → Prop
  | .call _, item => ∃ q : Request, item = .frame q.toJson
  | .dispatcher, item => ∃ r : Response, item = .frame r.toJson
  | .closer ticket, item => item = .shutdown ticket

/-- Whether an event is about the calls of a session only. -/
def Event.IsEntry : Event → Prop
  | .called _ | .abandoned _ | .ended .. => True
  | _ => False

/-- The books after an item has got into the queue. If it is the frame of a call, the call waits for room no more. -/
def Ledger.seat (l : Ledger) (w : Waiting) : Ledger :=
  match w.sender with
  | .call n => (l.note (.queued w.item)).place n
  | _ => l.note (.queued w.item)

/-- `l'` comes from `l` by what happens to the calls of the session. -/
structure Ledger.Books (l l' : Ledger) : Prop where
  state : l'.state = l.state
  begun : l.begun ≤ l'.begun
  journal : ∃ entries : List Event, l'.journal = l.journal ++ entries ∧ ∀ e ∈ entries, e.IsEntry

namespace Session

/-- Whether an item that is offered gets into the queue at once. -/
def admits (s : Session) : Bool :=
  s.waiting.isEmpty && s.hasRoom

/-- One change of a session. -/
inductive Change : Session → Session → Prop where
  | aside {s : Session} {closers : List Nat} {stopping : Bool} {inbound : Framing.Reader} {stream : Stream}
    {keepalives : List Keepalive} {timers : List Nat} {handles : Nat}
    (written : stream.written = s.stream.written) : Change s
      { s with
        closers := closers
        stopping := stopping
        inbound := inbound
        stream := stream
        keepalives := keepalives
        timers := timers
        handles := handles }
  | rouse {s : Session} {ready : List Task} (awake : ∀ task ∈ s.ready, task ∈ ready) :
    Change s { s with ready := ready }
  | rest {s : Session} {task : Task} {now : Nat} (idle : s.canGoOn now task = false) : Change s (s.rest task)
  | books {s : Session} {l : Ledger} (h : s.toLedger.Books l) : Change s { s with toLedger := l }
  | tell {s : Session} (ticket : Nat) (result : Except Error Answer) : Change s (s.note (.finished ticket result))
  | learn {s : Session} (db : String) (schema : DatabaseSchema) :
    Change s { s with schemas := s.schemas.insert db schema }
  | put {s : Session} {item : Outbound} {sender : Sender} (sends : sender.Sends item) (own : sender ≠ .dispatcher)
    (live : s.writer ≠ .ended) (room : s.admits = true) :
    Change s ({ s with queue := s.queue ++ [item] }.note (.queued item))
  | post {s : Session} {l : Ledger} (q : Request) (h : s.toLedger.Books l) (begun : s.begun < l.begun)
    (live : s.writer ≠ .ended) (full : s.admits = false) :
    Change s { s with toLedger := l, waiting := s.waiting ++ [Waiting.mk (.frame q.toJson) (.call s.begun)] }
  | wait {s : Session} (ticket : Nat) (closed : s.state = .closed) (live : s.writer ≠ .ended)
    (full : s.admits = false) :
    Change s { s with waiting := s.waiting ++ [Waiting.mk (.shutdown ticket) (.closer ticket)] }
  | enter {s : Session} {w : Waiting} (invited : w ∈ s.invited) : Change s
      ({ s with
        invited := s.invited.filter (·.sender ≠ w.sender)
        queue := s.queue ++ [w.item]
        dispatcher := if w.sender = Sender.dispatcher then .running else s.dispatcher }.note (.queued w.item))
  | withdraw {s : Session} {sender : Sender} (own : sender ≠ .dispatcher) : Change s (s.withdraw sender)
  | take {s : Session} {j : Json} {rest : List Outbound} (idle : s.writer = .idle)
    (first : s.queue = .frame j :: rest) :
    Change s { s with writer := .writing (Framing.frameBytes j), queue := rest }.invite
  | write {s : Session} {bytes : List UInt8} (writing : s.writer = .writing bytes) : Change s
      { s with
        stream := { s.stream with written := s.stream.written ++ bytes.take s.stream.room }
        writer := match bytes.drop s.stream.room with
          | [] => .idle
          | rest => .writing rest }
  | spend {s : Session} (shut : Bool) : Change s
      { s with
        writer := .ended
        queue := []
        waiting := []
        invited := []
        stream := { s.stream with shut := shut } }
  | unblock {s : Session} (spent : s.writer = .ended) : Change s { s with dispatcher := .running }
  | leave {s : Session} (running : s.dispatcher = .running) : Change s { s with dispatcher := .ended }

/-- `t` comes from `s` by changes. -/
abbrev Changes : Session → Session → Prop :=
  Relation.ReflTransGen Change

end Session

namespace Ledger.Books
variable {l l' : Ledger}

theorem of_journal (state : l'.state = l.state) (begun : l'.begun = l.begun) (journal : l'.journal = l.journal) :
    l.Books l' :=
  ⟨state, Nat.le_of_eq begun.symm, [], by rw [journal, List.append_nil], by simp⟩

theorem entries {entries : List Event} (state : l'.state = l.state) (begun : l.begun ≤ l'.begun)
    (journal : l'.journal = l.journal ++ entries) (h : ∀ e ∈ entries, e.IsEntry) : l.Books l' :=
  ⟨state, begun, entries, journal, h⟩

theorem place (l : Ledger) (n : Nat) : l.Books (l.place n) :=
  of_journal rfl rfl rfl

theorem begin (l : Ledger) (caller : Caller) (goal : Goal) : l.Books (l.begin caller goal) :=
  entries rfl (Nat.le_succ _) rfl (by simp [Event.IsEntry])

theorem refuse (l : Ledger) : l.Books l.refuse :=
  ⟨rfl, Nat.le_succ _, [.called l.begun, .ended l.begun (.error .connectionClosed)],
    by simp [Ledger.refuse, count, note], by simp [Event.IsEntry]⟩

theorem finish (l : Ledger) (n : Nat) (x : Except Error Json) : l.Books (l.finish n x) :=
  entries rfl (Nat.le_refl _) rfl (by simp [Event.IsEntry])

theorem abandon (l : Ledger) (n : Nat) : l.Books (l.abandon n) :=
  entries rfl (Nat.le_refl _) rfl (by simp [Event.IsEntry])

end Ledger.Books

namespace Session

/-- Whoever is invited is the first of those that wait, and has been woken. -/
theorem invite_cases (s : Session) : ((s.waiting = [] ∨ s.hasRoom = false) ∧ s.invite = s) ∨
    ∃ w rest ready, s.waiting = w :: rest ∧ s.hasRoom = true ∧ w.sender.task ∈ ready ∧
      (∀ task ∈ s.ready, task ∈ ready) ∧
      s.invite = { s with waiting := rest, invited := s.invited ++ [w], ready := ready } := by
  rw [invite]
  split
  case h_1 nobody => exact .inl ⟨.inl nobody, rfl⟩
  case h_2 w rest first =>
    split
    case isTrue room =>
      have woken := mem_wake { s with waiting := rest, invited := s.invited ++ [w] } w.sender.task
      obtain ⟨ready, heq⟩ := wake_eq { s with waiting := rest, invited := s.invited ++ [w] } w.sender.task
      rw [heq] at woken ⊢
      exact .inr ⟨w, rest, ready, first, room, (woken _).mpr (.inr rfl), fun task h => (woken task).mpr (.inl h), rfl⟩
    case isFalse full => exact .inl ⟨.inr (Bool.eq_false_iff.mpr full), rfl⟩

/-- Those that wait keep their places, invited or not. -/
theorem invite_eq (s : Session) : ∃ waiting invited ready,
    s.invite = { s with waiting := waiting, invited := invited, ready := ready } ∧ invited ++ waiting = s.offers := by
  obtain ⟨-, same⟩ | ⟨w, rest, ready, first, -, -, -, heq⟩ := s.invite_cases
  · exact ⟨s.waiting, s.invited, s.ready, same, rfl⟩
  · exact ⟨rest, s.invited ++ [w], ready, heq, by rw [offers, first, List.append_assoc]; rfl⟩

theorem toLedger_invite (s : Session) : s.invite.toLedger = s.toLedger := by
  obtain ⟨waiting, invited, ready, heq, -⟩ := s.invite_eq
  rw [heq]

/-- Whoever has been invited puts its item into the queue and goes on; nobody else does. -/
theorem enter_cases (s : Session) (sender : Sender) :
    ((∀ w ∈ s.invited, w.sender ≠ sender) ∧ s.enter sender = s) ∨
    ∃ w ready, w ∈ s.invited ∧ w.sender = sender ∧ (∀ task ∈ s.ready, task ∈ ready) ∧ s.enter sender =
      { s with
        toLedger := s.seat w
        queue := s.queue ++ [w.item]
        invited := s.invited.filter (·.sender ≠ sender)
        dispatcher := if sender = Sender.dispatcher then .running else s.dispatcher
        ready := ready } := by
  rw [enter]
  split
  case h_1 nobody => exact .inl ⟨by simpa using nobody, rfl⟩
  case h_2 w found =>
    obtain rfl : w.sender = sender := by simpa using List.find?_some found
    let t : Session := { s with invited := s.invited.filter (·.sender ≠ w.sender) }
    have awake := (Wakes.enqueue t w.item).ready
    obtain ⟨ready, heq⟩ := wake_eq ({ t with queue := t.queue ++ [w.item] }.note (.queued w.item)) .write
    rw [enqueue, heq] at awake ⊢
    refine .inr ⟨w, ready, List.mem_of_find?_eq_some found, rfl, awake, ?_⟩
    cases own : w.sender <;> simp [accepted, Ledger.seat, own, note, t]

end Session

namespace Session.Changes
variable {s : Session} {l : Ledger} {item : Outbound} {sender : Sender}

/-! ### Tasks and books -/

theorem wake (s : Session) (task : Task) : s.Changes (s.wake task) := by
  have awake := (Wakes.wake s task).ready
  obtain ⟨ready, heq⟩ := s.wake_eq task
  rw [heq] at awake ⊢
  exact .single (.rouse awake)

theorem stream_wake (s : Session) (stream : Stream) (task : Task) (written : stream.written = s.stream.written) :
    s.Changes ({ s with stream := stream }.wake task) :=
  .trans (.single (.aside written)) (wake _ _)

theorem wakeDue (s : Session) (now : Nat) : s.Changes (s.wakeDue now) := by
  have awake := s.ready_wakeDue now
  obtain ⟨ready, heq⟩ := s.wakeDue_eq now
  rw [heq] at awake ⊢
  exact .single (.rouse awake)

theorem update (h : s.toLedger.Books l) : s.Changes (s.update l) := by
  have awake := s.ready_update l
  obtain ⟨ready, heq⟩ := s.update_eq l
  rw [heq] at awake ⊢
  exact .tail (.single (.books h)) (.rouse awake)

theorem fail (s : Session) (caller : Caller) : s.Changes (s.fail caller) := by
  cases caller with
  | user ticket => exact .single (.tell ticket _)
  | keepalive k => exact .refl

/-! ### The queue -/

theorem enqueue (sends : sender.Sends item) (own : sender ≠ .dispatcher) (live : s.writer ≠ .ended)
    (room : s.admits = true) : s.Changes (s.enqueue item) :=
  .trans (.single (.put sends own live room)) (wake _ _)

theorem accepted (own : sender ≠ .dispatcher) : s.Changes (s.accepted sender) := by
  cases sender with
  | call n => exact .single (.books (.place _ n))
  | dispatcher => exact absurd rfl own
  | closer ticket => exact .refl

theorem acknowledge (s : Session) (ticket : Nat) : s.Changes (s.rejected (.closer ticket)) := by
  rw [Session.rejected]
  split
  · exact .tail (.single (.aside rfl)) (.tell ticket _)
  · exact .refl

theorem rejected (spent : s.writer = .ended) (sender : Sender) : s.Changes (s.rejected sender) := by
  cases sender with
  | call n =>
    rw [Session.rejected]
    split
    · exact .trans (update (.finish _ _ _)) (fail _ _)
    · exact .refl
  | dispatcher => exact .trans (.single (.unblock spent)) (wake _ _)
  | closer ticket => exact acknowledge s ticket

/-- One who closes the session puts its shutdown into the queue, or waits for room there. -/
theorem shutdown (closed : s.state = .closed) (ticket : Nat) :
    s.Changes (s.offer (.shutdown ticket) (.closer ticket)) := by
  rw [Session.offer]
  split
  case h_1 spent => exact rejected spent _
  case h_2 live =>
    split
    case isTrue room =>
      have sends : (Sender.closer ticket).Sends (.shutdown ticket) := rfl
      have own : Sender.closer ticket ≠ .dispatcher := by simp
      exact .trans (enqueue sends own live room) (accepted own)
    case isFalse full => exact .single (.wait ticket closed live (Bool.eq_false_iff.mpr full))

theorem enter (s : Session) (sender : Sender) : s.Changes (s.enter sender) := by
  obtain ⟨-, same⟩ | ⟨w, ready, invited, rfl, awake, heq⟩ := s.enter_cases sender
  · rw [same]
  · rw [heq]
    have entered : s.Changes _ := .tail (.single (.enter invited)) (.rouse awake)
    cases own : w.sender with
    | call n =>
      simp only [Ledger.seat, own] at entered ⊢
      exact .tail entered (.books (.place _ n))
    | dispatcher | closer ticket =>
      simp only [Ledger.seat, own] at entered ⊢
      exact entered

theorem writer_rejected (s : Session) (sender : Sender) : (s.rejected sender).writer = s.writer := by
  cases sender with
  | call n =>
    rw [Session.rejected]
    split
    case h_1 call _ =>
      obtain ⟨ready, heq⟩ := s.update_eq (s.finish n (.error .connectionClosed))
      rw [heq]
      cases call.caller <;> rfl
    case h_2 => rfl
  | dispatcher =>
    obtain ⟨ready, heq⟩ := wake_eq { s with dispatcher := .running } .dispatch
    rw [Session.rejected, heq]
  | closer ticket =>
    rw [Session.rejected]
    split <;> rfl

theorem foldl_rejected (senders : List Sender) (spent : s.writer = .ended) :
    s.Changes (senders.foldl Session.rejected s) := by
  induction senders generalizing s with
  | nil => exact .refl
  | cons sender senders ih => exact .trans (rejected spent sender) (ih ((writer_rejected s sender).trans spent))

theorem endWriter (s : Session) : s.Changes s.endWriter :=
  .trans (.single (.spend s.stream.shut)) (foldl_rejected _ rfl)

/-- The writer comes to a shutdown: it acknowledges it, and ends. -/
theorem shut (s : Session) (rest : List Outbound) (ticket : Nat) : s.Changes
    ({ s with queue := rest, stream := { s.stream with shut := true } }.rejected (.closer ticket)).endWriter := by
  rw [Session.rejected]
  split
  · exact .trans (.tail (.tail (.single (.spend true)) (.aside rfl)) (.tell ticket _)) (foldl_rejected _ rfl)
  · exact .trans (.single (.spend true)) (foldl_rejected _ rfl)

/-! ### Calls -/

/-- The frame of a call that begins gets into the queue at once, or waits for room from the beginning. -/
theorem call (s : Session) (caller : Caller) (method : String) (params : Json) (goal : Goal) :
    s.Changes (s.call caller method params goal) := by
  rw [Session.call]
  split
  case h_1 => exact .trans (.single (.books (.refuse _))) (fail _ _)
  case h_2 =>
    have begins : s.Changes (s.update (s.begin caller goal)) := update (.begin _ _ _)
    have awake := s.ready_update (s.begin caller goal)
    obtain ⟨ready, heq⟩ := s.update_eq (s.begin caller goal)
    rw [heq] at begins awake ⊢
    rw [Session.offer]
    split
    case h_1 spent => exact begins.trans (rejected spent _)
    case h_2 live =>
      split
      case isTrue room =>
        have sends : (Sender.call s.begun).Sends
          (.frame (Request.call method params (requestId s.begun)).toJson) := ⟨_, rfl⟩
        have own : Sender.call s.begun ≠ .dispatcher := by simp
        exact begins.trans (.trans (enqueue sends own live room) (accepted own))
      case isFalse full =>
        -- A call that has to wait begins and waits in one change; in between it would be nowhere.
        have full : s.admits = false := Bool.eq_false_iff.mpr full
        exact .tail (.single (.post _ (.begin _ caller goal) (Nat.lt_succ_self _) live full)) (.rouse awake)

theorem invoke (s : Session) (ticket : Nat) (i : Invocation) : s.Changes (s.invoke ticket i) := by
  rw [Session.invoke]
  split
  · exact call s _ _ _ _
  · exact .single (.tell ticket _)

theorem abandon (s : Session) (ticket : Nat) : s.Changes (s.abandon ticket) := by
  rw [Session.abandon]
  split
  · exact .tail (update (.abandon _ _)) (.withdraw (by simp))
  · exact .tail (.single (.aside rfl)) (.withdraw (by simp))

theorem fire (s : Session) (k : Nat) : s.Changes (s.fire k) := by
  rw [Session.fire]
  split
  · exact .refl
  · exact .trans (.single (.aside rfl)) (call _ _ _ _ _)

theorem await (s : Session) (k now : Nat) : s.Changes (s.await k now) := by
  rw [Session.await]
  split
  · exact .refl
  · split
    · exact fire s k
    · exact .single (.aside rfl)

theorem keepAlive (s : Session) (period now : Nat) : s.Changes (s.keepAlive period now) :=
  .trans (.single (.aside rfl)) (await _ _ now)

theorem tick (s : Session) (k : Nat) : s.Changes (s.tick k) :=
  .trans (.single (.aside rfl)) (fire _ k)

theorem remember (s : Session) (goal : Goal) (result : Except Error Answer) : s.Changes (s.remember goal result) := by
  rw [Session.remember.eq_def]
  split
  · exact .single (.learn _ _)
  · exact .refl

theorem report (s : Session) (caller : Caller) (goal : Goal) (now : Nat) (result : Except Error Answer) :
    s.Changes (s.report caller goal now result) := by
  rw [Session.report.eq_def]
  split
  · exact .tail (remember _ _ _) (.tell _ _)
  · exact await s _ _
  · split
    · exact .refl
    · exact await s _ _

theorem conclude (s : Session) (n now : Nat) : s.Changes (s.conclude n now) := by
  rw [Session.conclude]
  split
  · exact .trans (update (.finish _ _ _)) (report _ _ _ _ _)
  · exact .refl

end Session.Changes
end Ovsdb
