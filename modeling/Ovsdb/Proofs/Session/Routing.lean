import Ovsdb.Proofs.Session.Incidents

/-! Notifications get to the handler of the session whose connection they have come on, and to no other one: the
    callbacks of a session are those that its history calls for, in order and up to the closing. -/

namespace Ovsdb

/-- The callback that an event tells of. -/
def Event.callback? : Event → Option (Handler × Notification)
  | .callback h n => some (h, n)
  | _ => none

theorem Event.IsOwn.callback? {e : Event} (h : e.IsOwn) : e.callback? = none := by
  cases e <;> first | rfl | exact h.elim

/-- The callbacks that incidents call for, until the session is closed: each notification is for the handler that has
    been set last, and `h` is the handler at first. -/
def Incident.callbacks (h : Handler) : List Incident → List (Handler × Notification)
  | [] => []
  | .handler h' :: rest => callbacks h' rest
  | .message m :: rest => (Notification.ofMessage? m).toList.map (h, ·) ++ callbacks h rest
  | .notice n :: rest => (h, n) :: callbacks h rest
  | .closing :: _ => []

namespace Session

/-- The callbacks that a session has made, in order, each with the handler that has been called. -/
def callbacks (s : Session) : List (Handler × Notification) :=
  s.journal.filterMap Event.callback?

variable {s t : Session} {is : List Incident} {i : Incident} {events : List Event}

theorem callbacks_append (journal : t.journal = s.journal ++ events) :
    t.callbacks = s.callbacks ++ events.filterMap Event.callback? := by
  rw [callbacks, journal, List.filterMap_append]
  rfl

theorem filterMap_callback?_own (own : ∀ e ∈ events, e.IsOwn) : events.filterMap Event.callback? = [] :=
  List.filterMap_eq_nil_iff.mpr fun e he => (own e he).callback?

theorem filterMap_callsFor (opened : s.state = .opened) (told : List Notification) :
    (s.callsFor told).filterMap Event.callback? = told.map (s.handler, ·) := by
  rw [callsFor, opened, List.filterMap_map]
  exact congrFun List.filterMap_eq_map told

theorem callsFor_of_closed (closed : s.state = .closed) (told : List Notification) : s.callsFor told = [] := by
  rw [callsFor, closed]

theorem Change.callbacks (h : Change s t) : t.callbacks = s.callbacks := by
  obtain ⟨events, journal, own⟩ := h.journal
  rw [callbacks_append journal, filterMap_callback?_own own, List.append_nil]

theorem hear_callbacks (s : Session) (m : Json) : (s.hear m).callbacks =
    s.callbacks ++ (s.callsFor (Notification.ofMessage? m).toList).filterMap Event.callback? := by
  obtain ⟨events, journal, own⟩ := s.hear_journal m
  rw [List.append_assoc] at journal
  rw [callbacks_append journal, List.cons_append, List.filterMap_cons_none (f := Event.callback?) rfl,
    List.filterMap_append, filterMap_callback?_own own, List.nil_append]

theorem close_callbacks (s : Session) : s.close.callbacks = s.callbacks := by
  obtain ⟨ready, closed⟩ := s.close_eq
  rw [closed]
  exact (callbacks_append (s := s) rfl).trans (List.append_nil _)

/-- A closed session makes no callbacks, whatever befalls it. -/
theorem Trail.callbacks_of_closed (h : Trail is s t) (closed : s.state = .closed) : t.callbacks = s.callbacks := by
  induction h with
  | refl s => rfl
  | change first _ ih => exact (ih (first.state.trans closed)).trans first.callbacks
  | @incident _ _ s _ _ first _ ih =>
    cases first with
    | handler _ h => exact ih closed
    | message m running =>
      refine (ih ((s.hear_keeps m).1.trans closed)).trans ?_
      rw [hear_callbacks, callsFor_of_closed closed]
      exact List.append_nil _
    | notice _ n =>
      rw [notify_eq, callsFor_of_closed closed, List.append_nil] at ih
      exact ih closed
    | closing opened => exact nomatch closed.symm.trans opened

/-- An open session makes the callbacks that its incidents call for. -/
theorem Trail.callbacks_of_opened (h : Trail is s t) (opened : s.state = .opened) :
    t.callbacks = s.callbacks ++ Incident.callbacks s.handler is := by
  induction h with
  | refl s => exact (List.append_nil _).symm
  | change first _ ih => rw [ih (first.state.trans opened), first.callbacks, first.handler]
  | @incident _ _ s _ _ first rest ih =>
    cases first with
    | handler _ h => exact ih opened
    | message m running =>
      obtain ⟨state, handler⟩ := s.hear_keeps m
      rw [ih (state.trans opened), hear_callbacks, filterMap_callsFor opened, handler, List.append_assoc]
      rfl
    | notice _ n =>
      rw [notify_eq] at ih
      rw [ih opened, callbacks_append (s := s) rfl, filterMap_callsFor opened, List.append_assoc]
      rfl
    | closing _ =>
      rw [rest.callbacks_of_closed (Client.state_close s), close_callbacks]
      exact (List.append_nil _).symm

theorem callbacks_of_untold (untold : ∀ x ∈ is, x = .closing ∨ ∃ h, x = .handler h) (h : Handler) :
    Incident.callbacks h is = [] := by
  induction is generalizing h with
  | nil => rfl
  | cons x is ih =>
    obtain ⟨first, rest⟩ := List.forall_mem_cons.mp untold
    obtain rfl | ⟨h', rfl⟩ := first
    · rfl
    · exact ih rest h'

/-- Neither a handler that is set nor the closing leads to a callback. -/
theorem Trail.callbacks_of_untold (h : Trail is s t) (untold : ∀ x ∈ is, x = .closing ∨ ∃ h, x = .handler h) :
    t.callbacks = s.callbacks := by
  cases state : s.state with
  | closed => exact h.callbacks_of_closed state
  | opened => rw [h.callbacks_of_opened state, Session.callbacks_of_untold untold, List.append_nil]

end Session

namespace Client
variable {c d : Client} {i j : Nat} {s t : Session} {m : Json} {n : Notification} {a : Action}

/-! ### Steps with callbacks -/

/-- Session `i` comes to `t`, and nothing changes but what it has read and what it has taken down. -/
def OnlyTells (i : Nat) (t : Session) (c d : Client) : Prop :=
  d = c.modify i fun s => { s with inbound := t.inbound, journal := t.journal }

theorem OnlyTells.of_modify (hs : c.sessions[i]? = some s) (heq : d = c.modify i fun _ => t)
    (told : t = { s with inbound := t.inbound, journal := t.journal }) : OnlyTells i t c d :=
  heq.trans (modify_congr fun s' hs' => by cases hs.symm.trans hs'; exact told)

theorem Hears.tells (h : Hears i m c d) (hs : c.sessions[i]? = some s) (ht : d.sessions[i]? = some t)
    (called : t.callbacks ≠ s.callbacks) : OnlyTells i t c d := by
  obtain ⟨s', inbound, stopping, ready, hs', -, -, heq, exactly⟩ := h
  cases hs.symm.trans hs'
  let u : Session := { s with inbound := inbound }
  have after : t.callbacks = (u.hear m).callbacks := by
    rw [heq, sessions_modify_self hs] at ht
    cases ht
    rfl
  rw [after, u.hear_callbacks] at called
  cases state : s.state with
  | closed =>
    rw [Session.callsFor_of_closed (s := u) state] at called
    exact absurd (List.append_nil _) called
  | opened =>
    have silent : Notification.ofMessage? m ≠ none := by
      intro silent
      rw [silent] at called
      exact called (by rw [Option.toList_none, Session.callsFor_nil]; exact List.append_nil _)
    have heard := exactly state
    rw [heard, sessions_modify_self hs] at ht
    cases ht
    refine .of_modify hs heard ?_
    obtain ⟨_, _, _, none, _⟩ | ⟨_, ⟨_, _, none, _⟩ | ⟨n, _, _, told⟩ | ⟨_, none, _⟩⟩ := u.hear_cases m
    · exact absurd none silent
    · exact absurd none silent
    · change u.hear m = { s with inbound := (u.hear m).inbound, journal := (u.hear m).journal }
      rw [told, Session.notify_eq]
      rfl
    · exact absurd none silent

/-- A step with a callback does nothing besides, whether the handler fails or not. -/
theorem Invariant.tells (h : c.Invariant) (routed : c.Routed) (hs : c.sessions[i]? = some s)
    (ht : (c.step a).sessions[i]? = some t) (called : t.callbacks ≠ s.callbacks) : OnlyTells i t c (c.step a) := by
  cases h.meets routed hs ht with
  | untold is trail handlers closings =>
    refine absurd (trail.callbacks_of_untold fun x hx => ?_) called
    rcases List.mem_append.mp hx with hx | hx
    · exact Or.inr (handlers x hx)
    · exact Or.inl (closings x hx)
  | heard m _ heard => exact heard.tells hs ht called
  | noticed n _ step told =>
    subst told
    refine .of_modify hs (step.trans (modify_congr fun s' hs' => by cases hs.symm.trans hs'; rfl)) ?_
    rw [Session.notify_eq]

/-! ### Runs -/

/-- How notifications are routed for session `i`, which has come to `s` after `actions`. -/
structure Routing (actions : List Action) (i : Nat) (s : Session) : Prop where
  /-- The callbacks are those that the history of the session calls for. -/
  callbacks : s.callbacks = Incident.callbacks .silent (initial.history i actions)
  /-- A step about another session, one that takes a message there included, leaves this one as it is. -/
  others : ∀ a j, Action.session? a = some j → i ≠ j → ((initial.run actions).step a).sessions[i]? = some s
  /-- After its closing a session makes no more callbacks, whatever happens. -/
  closed : s.state = .closed → ∀ more t, (initial.run (actions ++ more)).sessions[i]? = some t →
    t.callbacks = s.callbacks
  /-- No other session, open or closed, has ever had its connection. -/
  apart : ∀ j t, i ≠ j → (initial.run actions).sessions[j]? = some t → t.registry = s.registry →
    t.connection ≠ s.connection
  /-- Connections are counted up from zero, so that no more of them are used than there are sessions. -/
  number : s.connection < (initial.run actions).sessions.length
  /-- A callback changes no session, no call and no registration, whether the handler fails or not. -/
  tells : ∀ a t, ((initial.run actions).step a).sessions[i]? = some t → t.callbacks ≠ s.callbacks →
    OnlyTells i t (initial.run actions) ((initial.run actions).step a)

theorem Routed.apart (h : c.Routed) (hs : c.sessions[i]? = some s) (ht : c.sessions[j]? = some t) (hj : i ≠ j)
    (registry : t.registry = s.registry) : t.connection ≠ s.connection := by
  intro connection
  have same : c.places[i]? = c.places[j]? := by
    rw [getElem?_places, getElem?_places, hs, ht, Option.map_some, Option.map_some, registry, connection]
  have there : i < c.places.length := by
    rw [places, List.length_map]
    exact (List.getElem?_eq_some_iff.mp hs).1
  exact hj ((List.getElem?_inj there h.distinct).mp same)

/-- In every run, notifications are routed to the handlers of the sessions that they are for, and nowhere else. -/
theorem notifications_routed (actions : List Action) (i : Nat) (s : Session)
    (hs : (initial.run actions).sessions[i]? = some s) : Routing actions i s := by
  have reached := Invariant.initial.run actions
  have routed := Invariant.initial.routed_run .initial actions
  refine ⟨?_, ?_, ?_, ?_, ?_, ?_⟩
  · obtain ⟨s₀, trail, there | ⟨-, r, k, capacity, rfl⟩⟩ := Invariant.initial.trail_run .initial actions hs
    · exact nomatch there
    · exact trail.callbacks_of_opened rfl
  · intro a j ha hj
    exact (reached.others ha hj).trans hs
  · intro closed more t ht
    rw [run, List.foldl_append] at ht
    obtain ⟨s', trail, there | ⟨missing, -⟩⟩ := reached.trail_run routed more ht
    · cases hs.symm.trans there
      exact trail.callbacks_of_closed closed
    · exact nomatch hs.symm.trans missing
  · intro j t hj ht registry
    exact routed.apart hs ht hj registry
  · obtain ⟨r, hr, lt, -⟩ := reached.sound.located i s hs
    have counted := routed.counted s.registry r hr
    rw [places, List.length_map] at counted
    exact Nat.lt_of_lt_of_le lt counted
  · intro a t ht called
    exact reached.tells routed hs ht called

/-- What a server sends to tell of a lock. -/
def lockBytes (method lock : String) : List UInt8 :=
  (Request.notification method (.arr [.str lock])).toJson.bytes

/-- Two sessions of one registry. The first is told of a lock before it has a handler, and of its loss when it has one
    that fails; the second is told of another lock. Then the first one is closed. -/
def contention : List Action :=
  [.open false 65536, .open false 65536,
    .send 0 (lockBytes "locked" "a"), .task 0 .dispatch, .task 0 .dispatch, .handler 0 ⟨"h", true, true, true, true⟩,
    .send 0 (lockBytes "stolen" "a"), .task 0 .dispatch, .task 0 .dispatch,
    .send 1 (lockBytes "locked" "b"), .task 1 .dispatch, .task 1 .dispatch,
    .serverEnds 0, .task 0 .dispatch, .notify 0 (.locked ⟨"c", rfl⟩)]

/-- Each session hears of its own locks, and of none after its closing. -/
theorem notifications_routed_contention : ∃ s t, (initial.run contention).sessions[0]? = some s ∧ s.state = .closed ∧
    s.callbacks.map (fun c => (c.1.failure? c.2, c.2.line)) =
      [(none, "locked a"), (some "failed: h stolen a", "stolen a")] ∧
    (initial.run contention).sessions[1]? = some t ∧ t.callbacks.map (·.2.line) = ["locked b"] ∧
    t.connection ≠ s.connection ∧ Routing contention 0 s ∧ Routing contention 1 t := by
  have first : ((initial.run contention).sessions[0]?.map fun s =>
      (s.registry, s.state, s.callbacks.map fun c => (c.1.failure? c.2, c.2.line))) =
      some (0, .closed, [(none, "locked a"), (some "failed: h stolen a", "stolen a")]) := rfl
  have second : ((initial.run contention).sessions[1]?.map fun t => (t.registry, t.callbacks.map (·.2.line))) =
      some (0, ["locked b"]) := rfl
  obtain ⟨s, hs, seen⟩ := Option.map_eq_some_iff.mp first
  obtain ⟨t, ht, heard⟩ := Option.map_eq_some_iff.mp second
  simp only [Prod.mk.injEq] at seen heard
  have routing := notifications_routed contention 0 s hs
  exact ⟨s, t, hs, seen.2.1, seen.2.2, ht, heard.2, routing.apart 1 t (by decide) ht (heard.1.trans seen.1.symm),
    routing, notifications_routed contention 1 t ht⟩

end Client
end Ovsdb
