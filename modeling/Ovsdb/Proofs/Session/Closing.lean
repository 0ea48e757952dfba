import Ovsdb.Proofs.Session.Fate
import Ovsdb.Proofs.Session.Steps

/-! The closing of a session is final, and settles what becomes of its calls. -/

namespace Ovsdb.Client
open Ledger

variable {c d : Client} {i j n : Nat} {s t u : Session} {a : Action} {x y : Except Error Json} {call : Call}
  {P : Session → Prop}

/-! ### Registration -/

/-- The connection of a session is in its registry. -/
def Registered (c : Client) (s : Session) : Prop :=
  ∃ r, c.registries[s.registry]? = some r ∧ r.contains s.connection = true

theorem Located.registered_iff (h : c.Located i s) : c.Registered s ↔ s.state = .opened := by
  obtain ⟨r, hr, -, owner⟩ := h
  constructor
  · rintro ⟨r', hr', there⟩
    cases hr.symm.trans hr'
    rw [Registry.contains, owner] at there
    by_contra closed
    rw [if_neg closed] at there
    cases there
  · intro opened
    refine ⟨r, hr, ?_⟩
    rw [Registry.contains, owner, if_pos opened]
    rfl

/-- A step that is about another session, or about none, leaves a session as registered as it is. -/
theorem Invariant.registered_step (h : c.Invariant) (hs : c.sessions[i]? = some s) (ha : Action.session? a ≠ some i) :
    ∃ t, (c.step a).sessions[i]? = some t ∧ t.registry = s.registry ∧ t.connection = s.connection ∧
      ((c.step a).Registered t ↔ c.Registered s) := by
  obtain ⟨t, ht, stepped⟩ := (h.steps a).2.sessions i s hs
  have after := (h.step a).sound.located i t ht
  have before := h.sound.located i s hs
  refine ⟨t, ht, stepped.registry, stepped.connection, ?_⟩
  rw [after.registered_iff, before.registered_iff, (stepped.quiet ha).state]

/-! ### What comes after -/

/-- What holds of a session and is kept by its steps holds of it for good. -/
theorem Invariant.run_keeps (h : c.Invariant) (hs : c.sessions[i]? = some s) (hP : P s)
    (keep : ∀ s t : Session, s.Orderly → P s → Ledger.Step s.toLedger t.toLedger → P t) (more : List Action) :
    ∃ u, (c.run more).sessions[i]? = some u ∧ P u := by
  induction more generalizing c s with
  | nil => exact ⟨s, hs, hP⟩
  | cons a more ih =>
    obtain ⟨t, ht, stepped⟩ := (h.steps a).2.sessions i s hs
    exact ih (h.step a) ht (keep s t (h.sound.orderly i s hs) hP stepped.books)

/-- A closed session stays closed, and what has been written down stays. -/
theorem Invariant.run_closed (h : c.Invariant) (hs : c.sessions[i]? = some s) (closed : s.state = .closed)
    (more : List Action) : ∃ u, (c.run more).sessions[i]? = some u ∧ u.state = .closed ∧
      ∃ later, u.journal = s.journal ++ later := by
  refine h.run_keeps (P := fun u => u.state = .closed ∧ ∃ later, u.journal = s.journal ++ later) hs
    ⟨closed, [], (List.append_nil _).symm⟩ ?_ more
  rintro u v - ⟨closed, later, said⟩ books
  obtain ⟨events, said'⟩ := step_journal books
  exact ⟨step_closed books closed, later ++ events, by rw [said', said, List.append_assoc]⟩

/-! ### The turn of a call -/

/-- Only calls that are unplaced have been invited to put their frames into the queue. -/
theorem not_invited (h : s.Orderly) (hc : call ∈ s.calls) (hq : call.queued = true) :
    s.isInvited (.call call.number) = false := by
  rw [Session.isInvited, List.any_eq_false]
  intro w hw hn
  have offered : call.number ∈ s.offering :=
    List.mem_filterMap.mpr ⟨w, List.mem_append_left _ hw, by rw [of_decide_eq_true hn]; rfl⟩
  rw [h.offering, h.mem_unplaced hc, hq] at offered
  cases offered

theorem conclude_said (h : s.Orderly) (hc : call ∈ s.calls) (hq : call.queued = true) (hr : call.reply = some x)
    (now : Nat) : .ended call.number x ∈ (s.conclude call.number now).journal ∧
      ∀ ticket, call.caller = .user ticket →
        .finished ticket (x >>= call.goal.answer) ∈ (s.conclude call.number now).journal := by
  have found : (s.calls.find? fun c => c.number = call.number && c.queued) = some call := by
    cases hf : s.calls.find? fun c => c.number = call.number && c.queued with
    | none => exact absurd (List.find?_eq_none.mp hf call hc) (by simp [hq])
    | some c =>
      have itself := List.find?_some hf
      rw [Bool.and_eq_true, decide_eq_true_iff] at itself
      rw [h.books.eq_of_number (List.mem_of_find?_eq_some hf) hc itself.1]
  have ended := h.update_finish hc hq hr
  have concluded : s.conclude call.number now =
      (s.update (s.finish call.number x)).report call.caller call.goal now (x >>= call.goal.answer) := by
    obtain ⟨number, caller, goal, queued, reply⟩ := call
    cases hr
    rw [Session.conclude, found]
  have reported := ended.orderly.report call.caller call.goal now (x >>= call.goal.answer)
  rw [concluded]
  constructor
  · obtain ⟨ready, heq⟩ := s.update_eq (s.finish call.number x)
    obtain ⟨events, said, -⟩ := journal_turns (turns_of_moves reported.books)
    rw [said, heq]
    exact List.mem_append_left _ (List.mem_append_right _ List.mem_cons_self)
  · intro ticket user
    rw [user]
    exact List.mem_append_right _ List.mem_cons_self

/-- A call that is unplaced does not look at its slot: in its turn it puts its frame into the queue at most. -/
theorem proceed_keeps (h : s.Orderly) (hc : call ∈ s.calls) (hq : call.queued = false) (now : Nat) :
    ∃ c ∈ (proceed s call.number now).calls, c.number = call.number := by
  rw [proceed]
  split
  · rw [Session.enter]
    split
    · exact ⟨call, hc, rfl⟩
    case h_2 w hw =>
      obtain ⟨c, there, hn, -⟩ := mem_place_of_mem (n := call.number) hc
      obtain ⟨ready, heq⟩ := Session.wake_eq ({ s with
        invited := s.invited.filter (·.sender ≠ Sender.call call.number), queue := s.queue ++ [w.item] }.note
          (.queued w.item)) .write
      refine ⟨c, ?_, hn⟩
      rw [Session.enqueue, heq]
      exact there
  · rw [Session.conclude]
    split
    case h_1 number caller goal queued reply hf =>
      have itself := List.find?_some hf
      rw [Bool.and_eq_true, decide_eq_true_iff] at itself
      have same := h.books.eq_of_number (List.mem_of_find?_eq_some hf) hc itself.1
      rw [← same, itself.2] at hq
      cases hq
    case h_2 => exact ⟨call, hc, rfl⟩

/-- What the next turn of a call makes of its session. -/
def turnOf (s : Session) (n now : Nat) : Session :=
  if s.canGoOn now (.call n) then proceed s n now else s.rest (.call n)

theorem turnOf_moved (h : s.Orderly) (n now : Nat) : s.Moved (turnOf s n now) := by
  rw [turnOf]
  split
  case isTrue => exact proceed_moved h n now
  case isFalse idle => exact (h.rest (Bool.eq_false_iff.mpr idle)).moved

/-- In a closed session the turn of a call changes nothing but what it does itself. -/
theorem Invariant.step_call (h : c.Invariant) (hs : c.sessions[i]? = some s) (closed : s.state = .closed) (n : Nat) :
    ∃ t, (c.step (.task i (.call n))).sessions[i]? = some t ∧ (turnOf s n c.now).Quiet t := by
  obtain ⟨f, taken, turn⟩ : ∃ f, c.perform i (.call n) = c.modify i f ∧ f s = turnOf s n c.now := by
    simp only [perform, hs, turnOf]
    split
    · exact ⟨_, rfl, rfl⟩
    · exact ⟨_, rfl, rfl⟩
  have moved := turnOf_moved (h.sound.orderly i s hs) n c.now
  have spread : Spreads (About i) c (c.perform i (.call n)) := by
    rw [taken]
    refine h.sound.modify_moved fun s' hs' => ?_
    cases hs.symm.trans hs'
    exact turn ▸ moved
  have after : (c.perform i (.call n)).sessions[i]? = some (turnOf s n c.now) := by
    rw [taken, sessions_modify_self hs, turn]
  -- The session is closed already, so its release closes nothing.
  have released := spread.sound.release_quiet (i := i) fun u hu => by
    cases after.symm.trans hu
    exact fun _ => moved.state.trans closed
  exact released.sessions i _ after

/-- The turn of a call in a closed session ends it if, and only if, its frame has got into the queue. Then its user is
    told. -/
theorem Invariant.turn_ends_iff (h : c.Invariant) (hs : c.sessions[i]? = some s) (closed : s.state = .closed)
    (hc : call ∈ s.calls) (hr : call.reply = some x) :
    ∃ t, (c.step (.task i (.call call.number))).sessions[i]? = some t ∧
      (.ended call.number x ∈ t.journal ↔ call.queued = true) ∧
        (call.queued = true → ∀ ticket, call.caller = .user ticket →
          .finished ticket (x >>= call.goal.answer) ∈ t.journal) := by
  have order := h.sound.orderly i s hs
  obtain ⟨t, ht, quiet⟩ := h.step_call hs closed call.number
  refine ⟨t, ht, ?_⟩
  obtain ⟨events, remarks, books⟩ := quiet.books
  cases hq : call.queued with
  | true =>
    have goes : s.canGoOn c.now (.call call.number) = true :=
      (s.canGoOn_call c.now call.number).mpr (Or.inr ⟨call, hc, rfl, hq, by simp [hr]⟩)
    have said := conclude_said order hc hq hr c.now
    have turn : turnOf s call.number c.now = s.conclude call.number c.now := by
      rw [turnOf, if_pos goes, proceed, not_invited order hc hq]
      rfl
    rw [books, turn]
    exact ⟨⟨fun _ => rfl, fun _ => List.mem_append_left _ said.1⟩,
      fun _ ticket user => List.mem_append_left _ (said.2 ticket user)⟩
  | false =>
    -- The call is still there after its turn, and a call that is there has not ended.
    have kept : ∃ c' ∈ t.calls, c'.number = call.number := by
      rw [quiet.books.calls, turnOf]
      split
      · exact proceed_keeps order hc hq c.now
      · exact ⟨call, hc, rfl⟩
    obtain ⟨c', hc', hn⟩ := kept
    refine ⟨⟨fun ended => ?_, by simp⟩, by simp⟩
    exact absurd (congrArg some hn.symm) (quiet.orderly.books.not_left hc' ended)

/-! ### Later causes -/

theorem Invariant.registries_step (h : c.Invariant) (hs : c.sessions[i]? = some s) (closed : s.state = .closed)
    (ha : Action.session? a = some i) : (c.step a).registries = c.registries := by
  rcases h.step_cases ha with ⟨h, -, turns⟩ | ⟨-, turns | ⟨m, s, inbound, stopping, ready, -, -, -, heq, -⟩⟩
  · exact turns.idle { s with handler := h } (sessions_modify_self hs _) closed
  · exact turns.idle s hs closed
  · rw [heq]
    rfl

/-! ### Calls on a closed session -/

/-- A call that begins on a closed session fails at once: nothing is pending for it, and no frame of it is queued. -/
theorem step_invoke_of_closed (hs : c.sessions[i]? = some s) (closed : s.state = .closed) (ticket : Nat)
    {invocation : Invocation} {method : String} {params : Json} {goal : Goal}
    (hi : invocation.prepare = .request method params goal) :
    ∃ t, (c.step (.invoke i ticket invocation)).sessions[i]? = some t ∧
      t.journal = s.journal ++ [.called s.begun, .ended s.begun (.error .connectionClosed),
        .finished ticket (.error .connectionClosed)] ∧
      t.pending = s.pending ∧ t.calls = s.calls ∧ t.queue = s.queue ∧ t.offers = s.offers := by
  have failed : s.invoke ticket invocation = { s with toLedger := s.refuse }.fail (.user ticket) := by
    rw [Session.invoke, hi]
    simp only [Session.call, closed]
  have after : (c.modify i (·.invoke ticket invocation)).sessions[i]? =
      some ({ s with toLedger := s.refuse }.fail (.user ticket)) := by
    rw [sessions_modify_self hs, failed]
  obtain ⟨stopping, ready, released⟩ := step_of_held (a := .invoke i ticket invocation) rfl after fun _ => closed
  refine ⟨_, released, ?_, rfl, rfl, rfl, rfl⟩
  simp [Session.fail, Session.note, refuse, count, note]

/-! ### The closing -/

/-- What a call has coming to it whatever the run goes on with: it is there with this reply, has ended with it, or has
    been given up, and it ends with nothing else. While it is there, its next turn ends it if, and only if, its frame
    has got into the queue, and then it has been woken to take that turn; else its frame waits for room, and the writer
    has not ended. -/
def Fated (c : Client) (i n : Nat) (x : Except Error Json) : Prop :=
  ∀ more, ∃ u, (c.run more).sessions[i]? = some u ∧ u.toLedger.Destined n x ∧ (∀ y, .ended n y ∈ u.journal → y = x) ∧
    ∀ call ∈ u.calls, call.number = n →
      (∃ v, ((c.run more).step (.task i (.call n))).sessions[i]? = some v ∧
        (.ended n x ∈ v.journal ↔ call.queued = true) ∧
        (call.queued = true → ∀ ticket, call.caller = .user ticket →
          .finished ticket (x >>= call.goal.answer) ∈ v.journal)) ∧
      (call.queued = true → .call n ∈ u.ready) ∧
      (call.queued = false → u.writer ≠ .ended ∧ ∃ w ∈ u.offers, w.sender = .call n)

theorem offer_of_unplaced (h : s.Orderly) (hc : call ∈ s.calls) (hq : call.queued = false) :
    s.writer ≠ .ended ∧ ∃ w ∈ s.offers, w.sender = .call call.number := by
  have offered : call.number ∈ s.offering := by
    rw [h.offering]
    exact (h.mem_unplaced hc).mpr hq
  obtain ⟨w, hw, own⟩ := Session.mem_offering.mp offered
  refine ⟨fun spent => ?_, w, hw, own⟩
  rw [(h.spent spent).2] at hw
  exact absurd hw List.not_mem_nil

/-- In a closed session every call gets what it is destined to. -/
theorem Invariant.fated (h : c.Invariant) (hs : c.sessions[i]? = some s) (closed : s.state = .closed)
    (destined : s.toLedger.Destined n x) : Fated c i n x := by
  intro more
  obtain ⟨u, hu, destined, closed⟩ := h.run_keeps (P := fun s => s.toLedger.Destined n x ∧ s.state = .closed) hs
    ⟨destined, closed⟩ (fun s t order hP books => ⟨hP.1.step order.books books, step_closed books hP.2⟩) more
  have reached := h.run more
  have order := reached.sound.orderly i u hu
  refine ⟨u, hu, destined, fun y => destined.ended order.books, ?_⟩
  rintro call hc rfl
  have replied := (destined.reply_eq order.books hc).1
  refine ⟨reached.turn_ends_iff hu closed hc replied, fun queued => ?_, offer_of_unplaced order hc⟩
  exact reached.awake i u hu _ (Or.inr ⟨call, hc, rfl, queued, by simp [replied]⟩)

/-- What the closing of a session means, seen from a state that a run has come to. In the step that closes it the
    calls that wait get the closing coming to them, and those that have their reply get that; nothing that is done
    later, about this session or about another one, takes any of it back. -/
structure Closure (c : Client) (i : Nat) (s : Session) : Prop where
  registered : s.state = .opened ↔ c.Registered s
  pending : s.state = .closed → s.pending = []
  final : s.state = .closed → ∀ more, ∃ t, (c.run more).sessions[i]? = some t ∧ t.state = .closed ∧ t.pending = [] ∧
    ¬ (c.run more).Registered t ∧ (∃ later, t.journal = s.journal ++ later) ∧
    ∀ n x y, .ended n x ∈ s.journal → .ended n y ∈ t.journal → y = x
  idle : s.state = .closed → ∀ a, Action.session? a = some i → (c.step a).registries = c.registries
  closing : s.state = .opened → ∀ a t, (c.step a).sessions[i]? = some t → t.state = .closed → ∀ call ∈ s.calls,
    (call.reply = none → Fated (c.step a) i call.number (.error .connectionClosed)) ∧
    ∀ x, call.queued = true → call.reply = some x → Fated (c.step a) i call.number x
  refused : s.state = .closed → ∀ ticket (invocation : Invocation) method params goal,
    invocation.prepare = .request method params goal →
    ∃ t, (c.step (.invoke i ticket invocation)).sessions[i]? = some t ∧
      t.journal = s.journal ++ [.called s.begun, .ended s.begun (.error .connectionClosed),
        .finished ticket (.error .connectionClosed)] ∧
      t.pending = [] ∧ t.calls = s.calls ∧ t.queue = s.queue ∧ t.offers = s.offers
  apart : ∀ a, Action.session? a ≠ some i → ∃ t, (c.step a).sessions[i]? = some t ∧ t.registry = s.registry ∧
    t.connection = s.connection ∧ ((c.step a).Registered t ↔ c.Registered s)

theorem turns_of_closing {l l' : Ledger} (h : Ledger.Step l l') (opened : l.state = .opened)
    (closed : l'.state = .closed) : Relation.ReflTransGen Turn l l' := by
  cases h with
  | turns ht => exact ht
  | message m hr =>
    rw [hr.state, receive_state, opened] at closed
    cases closed

theorem Invariant.closure (h : c.Invariant) (hs : c.sessions[i]? = some s) : Closure c i s where
  registered := ((h.sound.located i s hs).registered_iff).symm
  pending := (h.sound.orderly i s hs).books.shut
  final := by
    intro closed more
    obtain ⟨t, ht, closed, later, said⟩ := h.run_closed hs closed more
    have reached := h.run more
    have books := (reached.sound.orderly i t ht).books
    refine ⟨t, ht, closed, books.shut closed, ?_, ⟨later, said⟩, ?_⟩
    · rw [(reached.sound.located i t ht).registered_iff, closed]
      simp
    · intro n x y hx hy
      have stays : Event.ended n x ∈ t.journal := said ▸ List.mem_append_left _ hx
      cases books.left_unique stays hy rfl rfl
      rfl
  idle closed a ha := h.registries_step hs closed ha
  closing := by
    intro opened a t ht closed call hc
    obtain ⟨t', ht', stepped⟩ := (h.steps a).2.sessions i s hs
    cases ht.symm.trans ht'
    have destined := destined_of_closing (h.sound.orderly i s hs).books
      (turns_of_closing stepped.books opened closed) closed hc
    exact ⟨fun waits => (h.step a).fated ht closed (destined.1 waits),
      fun x queued there => (h.step a).fated ht closed (destined.2 x queued there)⟩
  refused := by
    intro closed ticket invocation method params goal request
    obtain ⟨t, ht, journal, pending, rest⟩ := step_invoke_of_closed hs closed ticket request
    exact ⟨t, ht, journal, pending.trans ((h.sound.orderly i s hs).books.shut closed), rest⟩
  apart _ := h.registered_step hs

/-- Closing is final and clean in every run, but for the calls whose frames have not got into the queue: these learn of
    it only when their frames do, or when the writer ends. -/
theorem closed_for_good (actions : List Action) (i : Nat) (s : Session)
    (hs : (Client.initial.run actions).sessions[i]? = some s) : Closure (Client.initial.run actions) i s :=
  (Invariant.initial.run actions).closure hs

/-- Two calls, of which the second has its reply when the server writes no more. -/
def farewell : List Action :=
  [.open false 65536, .invoke 0 7 .listDbs, .invoke 0 8 (.echo .null),
    .send 0 (Response.success (.ofUInt64 1) .null).toJson.bytes, .task 0 .dispatch, .task 0 .dispatch, .serverEnds 0]

/-- The first call fails with the closing, and the second one gets its reply. -/
theorem closed_for_good_farewell : ∃ s t, (Client.initial.run farewell).sessions[0]? = some s ∧ s.state = .opened ∧
    ((Client.initial.run farewell).step (.task 0 .dispatch)).sessions[0]? = some t ∧ t.state = .closed ∧
    Fated ((Client.initial.run farewell).step (.task 0 .dispatch)) 0 0 (.error .connectionClosed) ∧
    Fated ((Client.initial.run farewell).step (.task 0 .dispatch)) 0 1 (.ok .null) := by
  have before : ((Client.initial.run farewell).sessions[0]?.map fun s => (s.state, s.calls)) =
      some (.opened, [⟨0, .user 7, .names, true, none⟩, ⟨1, .user 8, .value, true, some (.ok .null)⟩]) := rfl
  have after : (((Client.initial.run farewell).step (.task 0 .dispatch)).sessions[0]?.map (·.state)) =
      some .closed := rfl
  obtain ⟨s, hs, hbefore⟩ := Option.map_eq_some_iff.mp before
  obtain ⟨t, ht, closed⟩ := Option.map_eq_some_iff.mp after
  obtain ⟨opened, calls⟩ := Prod.mk.inj hbefore
  have closing := (closed_for_good farewell 0 s hs).closing opened _ t ht closed
  rw [calls] at closing
  exact ⟨s, t, hs, opened, ht, closed, (closing _ List.mem_cons_self).1 rfl,
    (closing _ (List.mem_cons_of_mem _ List.mem_cons_self)).2 _ rfl rfl⟩

/-- Nothing goes on in a session that nobody is invited in, whose tasks have nothing to do and whose calls all wait for
    room in the queue. -/
theorem canGoOn_eq_false {s : Session} (invited : s.invited = []) (timers : s.timers = [])
    (calls : ∀ call ∈ s.calls, call.queued = false) (dispatch : s.canDispatch = false) (write : s.canWrite = false)
    (serve : s.canServe = false) (supply : s.canSupply = false) (now : Nat) (task : Task) :
    s.canGoOn now task = false := by
  have nobody (sender : Sender) : s.isInvited sender = false := by
    rw [Session.isInvited, invited]
    rfl
  cases task with
  | dispatch => exact dispatch
  | call n =>
    rw [Session.canGoOn, nobody, Bool.false_or, List.any_eq_false]
    intro call hc
    rw [calls call hc, Bool.and_false]
    exact Bool.false_ne_true
  | closer ticket => exact nobody _
  | tick k =>
    rw [Session.canGoOn, Session.isDue, timers]
    rfl
  | write => exact write
  | serve => exact serve
  | supply => exact supply

/-- 66 calls on a stream that takes 16 bytes and that the server does not read; then the server writes no more. -/
def congestion : List Action :=
  [.open false 16, .serverReads 0 false, .invoke 0 0 .listDbs, .task 0 .write, .task 0 .write] ++
    (List.range 65).map (fun n => .invoke 0 (n + 1) .listDbs) ++ [.serverEnds 0]

/-- The session is closed, and then every call has a turn. -/
def aftermath : List Action :=
  .task 0 .dispatch :: (List.range 66).map fun n => .task 0 (.call n)

/-- A call that waits when the session is closed does not end, though everybody has had a turn and nobody can go on. -/
theorem congestion_outlives_closing : ∃ s t u call, (Client.initial.run congestion).sessions[0]? = some s ∧
    s.state = .opened ∧ call ∈ s.calls ∧ call.reply = none ∧
    ((Client.initial.run congestion).step (.task 0 .dispatch)).sessions[0]? = some t ∧ t.state = .closed ∧
    ((Client.initial.run congestion).run aftermath).sessions[0]? = some u ∧
    (∀ x, .ended call.number x ∉ u.journal) ∧ ∀ now task, u.canGoOn now task = false := by
  have seen : ((Client.initial.run congestion).sessions[0]?.map fun s =>
        (s.state, s.calls[65]?.map fun c => (c.number, c.reply.isNone))) = some (.opened, some (65, true)) ∧
      (((Client.initial.run congestion).step (.task 0 .dispatch)).sessions[0]?.map (·.state)) = some .closed ∧
      (((Client.initial.run congestion).run aftermath).sessions[0]?.map fun u =>
        (u.calls.map fun c => (c.number, c.queued), u.invited.isEmpty && u.timers.isEmpty,
          u.canDispatch || u.canWrite || u.canServe || u.canSupply)) = some ([(65, false)], true, false) := by
    decide +kernel
  obtain ⟨before, closing, after⟩ := seen
  obtain ⟨s, hs, there⟩ := Option.map_eq_some_iff.mp before
  obtain ⟨t, ht, closed⟩ := Option.map_eq_some_iff.mp closing
  obtain ⟨u, hu, stuck⟩ := Option.map_eq_some_iff.mp after
  simp only [Prod.mk.injEq, Bool.or_eq_false_iff, Bool.and_eq_true, List.isEmpty_iff] at there stuck
  obtain ⟨opened, there⟩ := there
  obtain ⟨call, hc, waits⟩ := Option.map_eq_some_iff.mp there
  obtain ⟨number, waits⟩ := Prod.mk.inj waits
  obtain ⟨left, ⟨invited, timers⟩, ⟨⟨dispatch, write⟩, serve⟩, supply⟩ := stuck
  obtain ⟨c, hl, hn⟩ := List.map_eq_singleton_iff.mp left
  obtain ⟨hn, hq⟩ := Prod.mk.inj hn
  have stays : c ∈ u.calls := hl ▸ List.mem_singleton.mpr rfl
  refine ⟨s, t, u, call, hs, opened, List.mem_of_getElem? hc, Option.isNone_iff_eq_none.mp waits, ht, closed, hu,
    ?_, ?_⟩
  · intro x ended
    have reached := (Invariant.initial.run congestion).run aftermath
    exact (reached.sound.orderly 0 u hu).books.not_left stays ended (congrArg some (hn ▸ number))
  · refine canGoOn_eq_false invited timers (fun k hk => ?_) dispatch write serve supply
    rw [hl, List.mem_singleton] at hk
    rw [hk, hq]

end Ovsdb.Client
