import Ovsdb.Proofs.Session.Steps
import Ovsdb.Proofs.Session.Throughout

/-! Whatever neither begins a call nor lets one go away. Most of what a session does is of that kind, its closing
    among it: a session is closed while a call goes away only if nobody holds it or the server is gone. -/

namespace Ovsdb

/-- Every call of `l'` has been one of `l`. -/
def Ledger.Inherits (l l' : Ledger) : Prop :=
  ∀ call ∈ l'.calls, ∃ c ∈ l.calls, call.number = c.number ∧ call.caller = c.caller ∧ call.goal = c.goal

/-- `l'` comes from `l`, and no call has begun or gone away. -/
structure Ledger.Idles (l l' : Ledger) : Prop where
  begun : l'.begun = l.begun
  calls : l.Inherits l'
  journal : ∃ events : List Event, l'.journal = l.journal ++ events ∧ ∀ e ∈ events, e.left? = none

/-- `t` comes from `s` in the same way, and the schemas are as before. -/
structure Session.Idles (s t : Session) : Prop where
  books : s.toLedger.Idles t.toLedger
  schemas : t.schemas = s.schemas

/-! ### Books -/

namespace Ledger
variable {l l' l'' : Ledger} {e : Event}

namespace Inherits

theorem same (h : l'.calls = l.calls) : l.Inherits l' :=
  fun call hc => ⟨call, h ▸ hc, rfl, rfl, rfl⟩

theorem trans (h₁ : l.Inherits l') (h₂ : l'.Inherits l'') : l.Inherits l'' := by
  intro call hc
  obtain ⟨c, hc, number, caller, goal⟩ := h₂ call hc
  obtain ⟨c₀, hc₀, number₀, caller₀, goal₀⟩ := h₁ c hc
  exact ⟨c₀, hc₀, number.trans number₀, caller.trans caller₀, goal.trans goal₀⟩

theorem answer (l : Ledger) (numbers : List Nat) (reply : Except Error Json) :
    l.Inherits (l.answer numbers reply) := by
  intro call hc
  obtain ⟨there, -⟩ | ⟨c, there, -, rfl⟩ := mem_answer hc
  · exact ⟨call, there, rfl, rfl, rfl⟩
  · exact ⟨c, there, rfl, rfl, rfl⟩

theorem place (l : Ledger) (n : Nat) : l.Inherits (l.place n) := by
  intro call hc
  obtain ⟨c, there, rfl⟩ := List.mem_map.mp hc
  refine ⟨c, there, ?_⟩
  split <;> exact ⟨rfl, rfl, rfl⟩

theorem forget (l : Ledger) (n : Nat) : l.Inherits (l.forget n) := by
  have fewer : l.Inherits { l with calls := l.calls.filter (·.number != n) } :=
    fun call hc => ⟨call, (List.mem_filter.mp hc).1, rfl, rfl, rfl⟩
  exact fewer.trans (answer _ _ _)

end Inherits

namespace Idles

theorem refl (l : Ledger) : l.Idles l :=
  ⟨rfl, .same rfl, [], (List.append_nil _).symm, nofun⟩

theorem trans (h₁ : l.Idles l') (h₂ : l'.Idles l'') : l.Idles l'' := by
  obtain ⟨events, said, silent⟩ := h₁.journal
  obtain ⟨more, said', silent'⟩ := h₂.journal
  refine ⟨h₂.begun.trans h₁.begun, h₁.calls.trans h₂.calls, events ++ more, ?_, ?_⟩
  · rw [said', said, List.append_assoc]
  · exact List.forall_mem_append.mpr ⟨silent, silent'⟩

theorem note (h : e.left? = none) : l.Idles (l.note e) :=
  ⟨rfl, .same rfl, [e], rfl, List.forall_mem_singleton.mpr h⟩

theorem answer (l : Ledger) (numbers : List Nat) (reply : Except Error Json) : l.Idles (l.answer numbers reply) :=
  ⟨rfl, .answer l numbers reply, [], (List.append_nil _).symm, nofun⟩

theorem place (l : Ledger) (n : Nat) : l.Idles (l.place n) :=
  ⟨rfl, .place l n, [], (List.append_nil _).symm, nofun⟩

theorem complete (l : Ledger) (r : Response) : l.Idles (l.complete r) := by
  rw [Ledger.complete]
  split
  · exact refl l
  · exact answer l _ _

theorem close (l : Ledger) : l.Idles l.close := by
  have said : l.Idles ({ l with state := .closed }.note .closed) :=
    ⟨rfl, .same rfl, [.closed], rfl, List.forall_mem_singleton.mpr rfl⟩
  exact said.trans (answer _ _ _)

end Idles

end Ledger

/-! ### Sessions -/

namespace Session
variable {s t u : Session} {l : Ledger} {e : Event} {sender : Sender} {item : Outbound} {R : Session → Session → Prop}

namespace Idles

theorem same (books : t.toLedger = s.toLedger) (schemas : t.schemas = s.schemas) : s.Idles t :=
  ⟨books ▸ .refl _, schemas⟩

theorem refl (s : Session) : s.Idles s :=
  same rfl rfl

theorem trans (h₁ : s.Idles t) (h₂ : t.Idles u) : s.Idles u :=
  ⟨h₁.books.trans h₂.books, h₂.schemas.trans h₁.schemas⟩

theorem note (h : e.left? = none) : s.Idles (s.note e) :=
  ⟨.note h, rfl⟩

theorem wake (s : Session) (task : Task) : s.Idles (s.wake task) := by
  obtain ⟨ready, heq⟩ := s.wake_eq task
  rw [heq]
  exact same rfl rfl

theorem update (h : s.toLedger.Idles l) : s.Idles (s.update l) := by
  obtain ⟨ready, heq⟩ := s.update_eq l
  rw [heq]
  exact ⟨h, rfl⟩

theorem complete (s : Session) (r : Response) : s.Idles (s.complete r) :=
  update (.complete _ r)

theorem close (s : Session) : s.Idles s.close :=
  update (.close _)

theorem enqueue (s : Session) (item : Outbound) : s.Idles (s.enqueue item) := by
  have queued : s.Idles { s with queue := s.queue ++ [item] } := same rfl rfl
  exact (queued.trans (note rfl)).trans (wake _ .write)

theorem accepted (s : Session) (sender : Sender) : s.Idles (s.accepted sender) := by
  cases sender with
  | call n => exact ⟨.place _ n, rfl⟩
  | dispatcher => exact same rfl rfl
  | closer ticket => exact refl s

theorem rejected (h : sender.call? = none) : s.Idles (s.rejected sender) := by
  cases sender with
  | call n => cases h
  | dispatcher =>
    have running : s.Idles { s with dispatcher := .running } := same rfl rfl
    exact running.trans (wake _ _)
  | closer ticket =>
    rw [Session.rejected]
    split
    · have fewer : s.Idles { s with closers := s.closers.filter (· != ticket) } := same rfl rfl
      exact fewer.trans (note rfl)
    · exact refl s

theorem offer (h : sender.call? = none) : s.Idles (s.offer item sender) := by
  rw [Session.offer]
  split
  · exact rejected h
  · split
    · exact (enqueue s item).trans (accepted _ sender)
    · exact same rfl rfl

theorem invite (s : Session) : s.Idles s.invite := by
  rw [Session.invite]
  split
  · exact refl s
  case h_2 w rest first =>
    split
    · have moved : s.Idles { s with waiting := rest, invited := s.invited ++ [w] } := same rfl rfl
      exact moved.trans (wake _ _)
    · exact refl s

theorem enter (s : Session) (sender : Sender) : s.Idles (s.enter sender) := by
  rw [Session.enter]
  split
  · exact refl s
  · have taken : s.Idles { s with invited := s.invited.filter (·.sender ≠ sender) } := same rfl rfl
    exact (taken.trans (enqueue _ _)).trans (accepted _ sender)

theorem withdraw (s : Session) (sender : Sender) : s.Idles (s.withdraw sender) := by
  have taken : s.Idles { s with
      waiting := s.waiting.filter (·.sender ≠ sender)
      invited := s.invited.filter (·.sender ≠ sender) } := same rfl rfl
  exact taken.trans (invite _)

end Idles

theorem idling : Lasting.Conversing Idles where
  refl := .refl
  trans := .trans
  aside books _ _ schemas := .same books schemas
  received _ _ := .note rfl
  callback _ _ _ := .note rfl
  close := .close
  complete := .complete
  respond _ _ := .offer rfl

/-- A relation that is kept to while no call begins or goes away is kept to throughout if calls that fail, or are given
    up, keep to it, and if echoes that begin do. -/
theorem thorough_of_idles (idle : ∀ {s t}, s.Idles t → R s t) (trans : ∀ {s t u}, R s t → R t u → R s u)
    (rejected : ∀ s n, R s (s.rejected (.call n))) (abandon : ∀ s n, R s (s.update (s.toLedger.abandon n)))
    (echo : ∀ s k, R s (s.call (.keepalive k) "echo" (.arr []) .value)) : Lasting.Thorough R where
  refl s := idle (.refl s)
  trans := trans
  aside books _ _ schemas := idle (.same books schemas)
  received _ _ := idle (.note rfl)
  callback _ _ _ := idle (.note rfl)
  close s := idle (.close s)
  complete s r := idle (.complete s r)
  respond _ _ := idle (.offer rfl)
  carry books _ schemas := idle (.same books schemas)
  invite s := idle (.invite s)
  enter s sender := idle (.enter s sender)
  acknowledge _ _ := idle (.rejected rfl)
  shutdown _ _ _ := idle (.offer rfl)
  endWriter s := by
    have learnt (senders : List Sender) (t : Session) : R t (senders.foldl Session.rejected t) := by
      induction senders generalizing t with
      | nil => exact idle (.refl t)
      | cons sender senders ih =>
        cases sender with
        | call n => exact trans (rejected t n) (ih _)
        | dispatcher | closer ticket => exact trans (idle (.rejected rfl)) (ih _)
    have spent : s.Idles { s with writer := .ended, queue := [], waiting := [], invited := [] } := .same rfl rfl
    exact trans (idle spent) (learnt _ _)
  echo := echo
  abandon s ticket := by
    rw [Session.abandon]
    split
    case h_1 call _ => exact trans (abandon s call.number) (idle (.withdraw _ _))
    case h_2 =>
      have fewer : s.Idles { s with closers := s.closers.filter (· != ticket) } := .same rfl rfl
      exact idle (fewer.trans (.withdraw _ _))

/-- The frame of a call is put into the queue or waits for room, unless the writer has ended. -/
theorem offer_cases (s : Session) (item : Outbound) (n : Nat) :
    s.offer item (.call n) = s.rejected (.call n) ∨ s.Idles (s.offer item (.call n)) := by
  rw [offer]
  split
  · exact .inl rfl
  · split
    · exact .inr ((Idles.enqueue s item).trans (.accepted _ _))
    · exact .inr (.same rfl rfl)

end Session

/-! ### Closings -/

namespace Client
variable {c : Client} {i : Nat} {s t : Session} {a : Action}

theorem holders_close (s : Session) : s.close.holders = s.holders := by
  obtain ⟨ready, heq⟩ := s.close_eq
  have callers : s.toLedger.close.calls.map (·.caller) = s.calls.map (·.caller) := Ledger.answer_callers _ _ _
  rw [heq, Session.holders_eq, Session.holders_eq]
  dsimp only
  rw [callers]

/-- A session is closed by its release only if nobody holds it. -/
theorem release_cases (hs : c.sessions[i]? = some s) (ht : (c.release i).sessions[i]? = some t) :
    t = s ∨ t.holders = 0 := by
  simp only [release, hs] at ht
  split at ht
  case isFalse => exact .inl (Option.some.inj (ht.symm.trans hs))
  case isTrue unheld =>
    right
    rw [stop, sessions_modify] at ht
    obtain ⟨u, hu, rfl⟩ := Option.map_eq_some_iff.mp ht
    have down : u.holders = s.holders := by
      cases state : s.state with
      | closed =>
        rw [tearDown_of_closed hs state, hs] at hu
        cases hu
        rfl
      | opened =>
        rw [sessions_tearDown hs state, hs, Option.map_some, if_pos rfl] at hu
        cases hu
        exact holders_close s
    obtain ⟨ready, -, stopped⟩ := stopping_eq u
    rw [if_pos rfl, stopped]
    exact down.trans unheld

/-- While the server is there, the writer does not close the session. -/
theorem state_write (hs : c.sessions[i]? = some s) (present : s.stream.serverPresent = true) :
    ∃ t, (c.write i s).sessions[i]? = some t ∧ t.state = s.state := by
  have here {f : Session → Session} (changes : s.Changes (f s)) :
      ∃ t, (c.modify i f).sessions[i]? = some t ∧ t.state = s.state :=
    ⟨_, sessions_modify_self hs f, changes.state⟩
  rw [Client.write.eq_def]
  split
  · exact ⟨s, hs, rfl⟩
  · split
    · exact here (Session.Changes.endWriter s)
    · exact ⟨s, hs, rfl⟩
  case h_3 idle first => exact here (.single (.take idle first))
  case h_4 ticket rest idle first => exact here (Session.Changes.shut s rest ticket)
  case h_5 bytes _ writing =>
    rw [if_pos present]
    exact here (.single (.write writing))

/-- What an action about a session does to it: it stays open or closed as it is, or no call goes away, or the writer
    finds that the server is gone. -/
theorem act_cases (hs : c.sessions[i]? = some s) (ha : Action.session? a = some i) :
    ∃ t, (c.act a).sessions[i]? = some t ∧
      (t.state = s.state ∨ s.Idles t ∨ a = .task i .write ∧ s.stream.serverPresent = false) := by
  have here {f : Session → Session} (changes : s.Changes (f s)) : ∃ t, (c.modify i f).sessions[i]? = some t ∧
      (t.state = s.state ∨ s.Idles t ∨ a = .task i .write ∧ s.stream.serverPresent = false) :=
    ⟨_, sessions_modify_self hs f, .inl changes.state⟩
  cases a <;> cases ha
  case clone | drop | serverReads => exact here (.single (.aside rfl))
  case handler h => exact ⟨_, sessions_modify_self hs _, .inl rfl⟩
  case invoke ticket invocation => exact here (Session.Changes.invoke s ticket invocation)
  case close ticket =>
    -- The calls that fail with the session go away in turns of their own, later.
    obtain ⟨t, ht, idle⟩ := Session.idling.keeps_stop c i i s hs
    have asked : t.Idles { t with closers := t.closers ++ [ticket] } := .same rfl rfl
    exact ⟨_, sessions_modify_self ht _, .inr (.inl ((idle.trans asked).trans (.offer rfl)))⟩
  case abandon ticket => exact here (Session.Changes.abandon s ticket)
  case keepalive period =>
    refine here ?_
    split
    · exact .refl
    · exact Session.Changes.keepAlive s period c.now
  case send bytes =>
    refine here ?_
    split
    · exact Session.Changes.stream_wake s _ _ rfl
    · exact .refl
  case serverEnds => exact here (Session.Changes.stream_wake s _ _ rfl)
  case serverDrops =>
    refine here (.trans (Session.Changes.stream_wake s _ .dispatch ?_) (Session.Changes.wake _ .write))
    rfl
  case task task =>
    simp only [act, perform, hs]
    split
    · cases task with
      | dispatch =>
        obtain ⟨t, ht, idle⟩ := Session.idling.keeps_dispatch c i s (fun s _ => .enter s _) i s hs
        exact ⟨t, ht, .inr (.inl idle)⟩
      | call k =>
        refine here ?_
        rw [proceed]
        split
        · exact Session.Changes.enter s _
        · exact Session.Changes.conclude s k c.now
      | closer ticket => exact here (Session.Changes.enter s _)
      | tick k => exact here (Session.Changes.tick s k)
      | write =>
        cases present : s.stream.serverPresent with
        | true =>
          obtain ⟨t, ht, state⟩ := state_write hs present
          exact ⟨t, ht, .inl state⟩
        | false =>
          obtain ⟨t, _, ht, -⟩ := (Follows.write hs).own s hs
          exact ⟨t, ht, .inr (.inr ⟨rfl, rfl⟩)⟩
      | serve | supply => exact here (Session.Changes.stream_wake s _ _ rfl)
    case isFalse idle => exact here (.single (.rest (Bool.eq_false_iff.mpr idle)))

/-- A step that closes a session while a call goes away is one after which nobody holds the session, or one in which the
    writer finds that the server is gone. -/
theorem Invariant.closes_step (h : c.Invariant) (hs : c.sessions[i]? = some s) (ht : (c.step a).sessions[i]? = some t)
    (opened : s.state = .opened) (closed : t.state = .closed) :
    s.Idles t ∨ t.holders = 0 ∨ a = .task i .write ∧ s.stream.serverPresent = false := by
  by_cases ha : Action.session? a = some i
  · rw [Client.step, ha] at ht
    obtain ⟨u, hu, state | idle | gone⟩ := act_cases hs ha
    · obtain rfl | unheld := release_cases hu ht
      · cases (state.trans opened).symm.trans closed
      · exact .inr (.inl unheld)
    · obtain ⟨t', ht', released⟩ := Session.idling.keeps_release (c.act a) i i u hu
      cases ht.symm.trans ht'
      exact .inl (idle.trans released)
    · exact .inr (.inr gone)
  · obtain ⟨t', ht', stepped⟩ := (h.steps a).2.sessions i s hs
    cases ht.symm.trans ht'
    cases ((stepped.quiet ha).state.trans opened).symm.trans closed

end Client
end Ovsdb
