import Ovsdb.Proofs.Operation.Validation
import Ovsdb.Proofs.Sequence
import Ovsdb.Proofs.Session.Calls
import Ovsdb.Proofs.Session.Closing
import Ovsdb.Proofs.Session.Pursuit
import Ovsdb.Proofs.Session.Room

/-! A transaction is sent whole or not at all: all of its operations are encoded before anything else happens, and then
    it is one request, whose reply is decoded for as many operations as have been sent. -/

namespace Ovsdb
open Journal

/-! ### Preparation -/

section
variable {db : String} {operations : List Operation} {encoded : List Json} {e : Error}

/-- The wire forms of valid operations, in order. -/
abbrev Operation.Encodes (operations : List Operation) (encoded : List Json) : Prop :=
  List.Forall₂ (fun o j => o.toJson = .ok j) operations encoded

/-- All operations are valid, or there is a first one that is not. -/
theorem Operation.encodes_or_firstFailure (operations : List Operation) :
    (∃ encoded, Encodes operations encoded) ∨ ∃ e, FirstFailure toJson operations e := by
  cases whole : operations.mapM toJson with
  | ok encoded => exact .inl ⟨encoded, mapM_eq_ok.mp whole⟩
  | error e => exact .inr ⟨e, mapM_eq_error.mp whole⟩

theorem Operation.isValidation_of_firstFailure (h : FirstFailure toJson operations e) : e.isValidation = true := by
  obtain ⟨_, o, _, -, -, failed⟩ := h
  rw [toJson_eq_demand] at failed
  obtain ⟨_, r, _, -, -, -, rfl⟩ := Requirement.demand_eq_error.mp failed
  exact r.isValidation_error o.kind

theorem Operation.serializeAll_eq (operations : List Operation) : serializeAll operations =
    .arr <$> (operations.mapM toJson).mapError fun e => .serialization (.refused e) :=
  congrArg (Json.arr <$> ·) (mapM_mapError toJson _ operations)

theorem Operation.serializeAll_eq_ok {j : Json} :
    serializeAll operations = .ok j ↔ ∃ encoded, Encodes operations encoded ∧ j = .arr encoded := by
  simp only [Encodes, ← mapM_eq_ok, serializeAll_eq]
  cases operations.mapM toJson with
  | ok encoded => simp [Except.mapError, eq_comm]
  | error e => simp [Except.mapError]

theorem Operation.serializeAll_eq_error : serializeAll operations = .error e ↔
    ∃ cause refusal, FirstFailure toJson operations cause ∧ e = .serialization refusal ∧ refusal = .refused cause ∧
      refusal.message = cause.message := by
  have worded (cause : Error) : (Mismatch.refused cause).message = cause.message := rfl
  simp only [← mapM_eq_error, serializeAll_eq]
  cases operations.mapM toJson with
  | ok encoded => simp [Except.mapError]
  | error cause => simp [Except.mapError, eq_comm, worded]

theorem Invocation.prepare_transact_invalid (h : FirstFailure Operation.toJson operations e) :
    (transact db operations).prepare = .settled (.error e) := by
  cases operations with
  | nil => exact absurd h firstFailure_nil
  | cons o operations => simp only [prepare, mapM_eq_error.mpr h]

theorem Invocation.prepare_transact_valid (filled : operations ≠ []) (h : Operation.Encodes operations encoded) :
    (transact db operations).prepare =
      .request "transact" (.arr (.str db :: encoded)) (.transaction operations.length) := by
  cases operations with
  | nil => exact absurd rfl filled
  | cons o operations => simp only [prepare, mapM_eq_ok.mpr h]

end

/-! ### The call -/

/-- A transaction that is sent under a number. -/
def Mission.transaction (number ticket : Nat) (few : number < UInt64.size) (db : String) (encoded : List Json)
    (operations : Nat) : Mission where
  number := number
  ticket := ticket
  goal := .transaction operations
  frame := .obj [("method", .str "transact"), ("params", .arr (.str db :: encoded)),
    ("id", .ofUInt64 (requestId number))]
  few := few
  isOf := Outbound.isOf_call.trans (decide_eq_true rfl)

/-- `t` comes from `s` by a request. A call begins, and its frame gets into the queue if there is room; otherwise it
    waits behind all that do already. -/
structure Session.Posts (s t : Session) (caller : Caller) (goal : Goal) (frame : Json) : Prop where
  begun : t.begun = s.begun + 1
  call : ⟨s.begun, caller, goal, s.admits, none⟩ ∈ t.calls
  journal : t.journal = s.journal ++ .called s.begun :: if s.admits then [.queued (.frame frame)] else []
  queue : t.queue = s.queue ++ if s.admits then [.frame frame] else []
  offers : t.offers = s.offers ++ if s.admits then [] else [⟨.frame frame, .call s.begun⟩]

theorem Session.posts_call {s : Session} (opened : s.state = .opened) (live : s.writer ≠ .ended) (caller : Caller)
    (method : String) (params : Json) (goal : Goal) :
    s.Posts (s.call caller method params goal) caller goal (Request.call method params (requestId s.begun)).toJson := by
  have new : ⟨s.begun, caller, goal, false, none⟩ ∈ (s.begin caller goal).calls :=
    List.mem_append_right _ (List.mem_singleton_self _)
  obtain ⟨ready, ⟨room, heq⟩ | ⟨full, heq⟩⟩ := s.call_cases opened live caller method params goal
  · rw [heq]
    refine ⟨rfl, ?_, ?_, ?_, ?_⟩ <;> rw [room]
    · exact List.mem_map.mpr ⟨_, new, if_pos rfl⟩
    · exact List.append_assoc _ _ _
    · rfl
    · exact (List.append_nil _).symm
  · rw [heq]
    refine ⟨rfl, ?_, ?_, ?_, ?_⟩ <;> rw [full]
    · exact new
    · rfl
    · exact (List.append_nil _).symm
    · exact (List.append_assoc _ _ _).symm

namespace Client
open Ledger
variable {c : Client} {i ticket : Nat} {s u : Session} {call : Call} {x : Except Error Json}

/-! ### Sessions that nobody holds -/

/-- Sessions that nobody holds any more have been told to stop. -/
def Dismissed (c : Client) : Prop :=
  ∀ (j : Nat) (s : Session), c.sessions[j]? = some s → s.holders = 0 → s.stopping = true

theorem stopping_release (hs : (c.release i).sessions[i]? = some s) (unheld : s.holders = 0) : s.stopping = true := by
  rw [Client.release] at hs
  split at hs
  case h_1 t ht =>
    split at hs
    · rw [stop, sessions_modify] at hs
      obtain ⟨u, -, rfl⟩ := Option.map_eq_some_iff.mp hs
      obtain ⟨ready, -, heq⟩ := stopping_eq u
      rw [if_pos rfl, heq]
    case isFalse held =>
      cases ht.symm.trans hs
      exact absurd unheld held
  case h_2 ht => cases ht.symm.trans hs

/-- An action about no session says more to sessions at most. -/
theorem Dismissed.act {a : Action} (dismissed : c.Dismissed) (ha : Action.session? a = none) :
    (c.act a).Dismissed := by
  intro j t ht unheld
  cases a <;> cases ha
  case «open» inPrivate capacity =>
    rcases getElem?_concat_cases ht with ht | ⟨-, rfl⟩
    · exact dismissed j t ht unheld
    · cases unheld
  case advance time =>
    obtain ⟨s, hs, rfl⟩ := Option.map_eq_some_iff.mp (List.getElem?_map.symm.trans ht)
    obtain ⟨ready, heq⟩ := s.wakeDue_eq (c.now + time)
    rw [heq] at unheld ⊢
    exact dismissed j s hs unheld
  case notify connection n =>
    rw [Client.act, deliver] at ht
    split at ht
    · exact dismissed j t ht unheld
    · rw [sessions_modify] at ht
      obtain ⟨s, hs, rfl⟩ := Option.map_eq_some_iff.mp ht
      split at unheld <;> split <;> exact dismissed j s hs unheld

theorem Invariant.dismissed_step (h : c.Invariant) (dismissed : c.Dismissed) (a : Action) : (c.step a).Dismissed := by
  intro j t ht unheld
  cases ha : Action.session? a with
  | some i =>
    by_cases hj : j = i
    · rw [Client.step, ha] at ht
      exact stopping_release (hj ▸ ht) unheld
    · exact dismissed j t ((h.others ha hj).symm.trans ht) unheld
  | none =>
    rw [Client.step, ha] at ht
    exact dismissed.act ha j t ht unheld

theorem Invariant.dismissed_run (h : c.Invariant) (dismissed : c.Dismissed) (actions : List Action) :
    (c.run actions).Dismissed := by
  induction actions generalizing c with
  | nil => exact dismissed
  | cons a actions ih => exact ih (h.step a) (h.dismissed_step dismissed a)

theorem dismissed_run (actions : List Action) : (initial.run actions).Dismissed :=
  Invariant.initial.dismissed_run (fun _ _ there => nomatch there) actions

/-- A session that is held, or that has been closed and told to stop, is left alone by its release. -/
theorem release_eq (hs : c.sessions[i]? = some s) (h : s.holders = 0 → s.state = .closed ∧ s.stopping = true) :
    c.release i = c := by
  simp only [Client.release, hs]
  split
  case isTrue unheld =>
    obtain ⟨closed, stopping⟩ := h unheld
    rw [stop, tearDown_of_closed hs closed]
    refine modify_id fun t ht => ?_
    cases hs.symm.trans ht
    exact if_pos stopping
  case isFalse => rfl

/-! ### Asking for a transaction -/

/-- An invocation that is settled without a request tells its user so, and does nothing else. -/
theorem Invariant.step_settled (h : c.Invariant) (dismissed : c.Dismissed) {invocation : Invocation}
    {result : Except Error Answer} (settled : invocation.prepare = .settled result) (i ticket : Nat) :
    c.step (.invoke i ticket invocation) = c.modify i (·.note (.finished ticket result)) := by
  have told : c.act (.invoke i ticket invocation) = c.modify i (·.note (.finished ticket result)) := by
    refine modify_congr fun s _ => ?_
    rw [Session.invoke, settled]
  change (c.act (.invoke i ticket invocation)).release i = _
  rw [told]
  cases hs : c.sessions[i]? with
  | none =>
    have nobody : (c.modify i (·.note (.finished ticket result))).sessions[i]? = none := by
      rw [sessions_modify, hs]
      rfl
    rw [Client.release, nobody]
  | some s =>
    refine release_eq (sessions_modify_self hs _) fun unheld => ?_
    exact ⟨h.held i s hs unheld, dismissed i s hs unheld⟩

theorem holders_of_user (hc : call ∈ s.calls) (user : call.caller = .user ticket) : s.holders ≠ 0 := by
  have there : call.caller ∈ s.calls.map (·.caller) := List.mem_map_of_mem hc
  rw [Session.holders_eq]
  refine Nat.ne_of_gt (Nat.lt_of_lt_of_le (List.countP_pos_iff.mpr ⟨_, there, ?_⟩) (Nat.le_add_left _ _))
  rw [user]

/-- On an open session an invocation that comes to a request is a call of the user's, and nothing else. -/
theorem Sound.step_requested (h : c.Sound) (hs : c.sessions[i]? = some s) (opened : s.state = .opened)
    {invocation : Invocation} {method : String} {params : Json} {goal : Goal}
    (request : invocation.prepare = .request method params goal) (ticket : Nat) :
    c.step (.invoke i ticket invocation) = c.modify i (·.call (.user ticket) method params goal) := by
  have asked : c.act (.invoke i ticket invocation) = c.modify i (·.call (.user ticket) method params goal) := by
    refine modify_congr fun s _ => ?_
    rw [Session.invoke, request]
  change (c.act (.invoke i ticket invocation)).release i = _
  rw [asked]
  have posts := Session.posts_call opened (h.live hs opened) (.user ticket) method params goal
  exact release_eq (sessions_modify_self hs _) fun unheld => absurd unheld (holders_of_user posts.call rfl)

/-! ### What becomes of it -/

/-- The next turn of a call that has its reply, with its frame in the queue, tells its user; and it has been woken for
    that turn. -/
theorem Invariant.turn_tells (h : c.Invariant) (hs : c.sessions[i]? = some s) (hc : call ∈ s.calls)
    (queued : call.queued = true) (reply : call.reply = some x) (user : call.caller = .user ticket) :
    .call call.number ∈ s.ready ∧ ∃ t, (c.step (.task i (.call call.number))).sessions[i]? = some t ∧
      .finished ticket (x >>= call.goal.answer) ∈ t.journal := by
  have order := h.sound.orderly i s hs
  have goes : s.Goes call.number := .inr ⟨call, hc, rfl, queued, by simp [reply]⟩
  refine ⟨h.awake i s hs _ goes, ?_⟩
  have turn : c.perform i (.call call.number) = c.modify i (proceed · call.number c.now) := by
    simp only [perform, hs, (s.canGoOn_call c.now call.number).mpr goes, if_true]
  have spread := h.sound.modify_moved (i := i) (f := (proceed · call.number c.now)) fun s hs =>
    proceed_moved (h.sound.orderly i s hs) call.number c.now
  have concluded : proceed s call.number c.now = s.conclude call.number c.now := by
    rw [proceed, not_invited order hc queued]
    rfl
  obtain ⟨t, ht, turned, -⟩ := (spread.sound.release i).sessions i _ (sessions_modify_self hs _)
  obtain ⟨events, said, -⟩ := journal_turns turned.books
  refine ⟨t, ?_, ?_⟩
  · change ((c.perform i (.call call.number)).release i).sessions[i]? = some t
    rw [turn]
    exact ht
  · rw [said, concluded]
    exact List.mem_append_left _ ((conclude_said order hc queued reply c.now).2 ticket user)

/-- What has become of a transaction in `u`, a state of session `i` in client `c`: its one frame waits for room or is
    in the queue, once, until the call ends or is given up. It waits for want of room only, and gets into the queue in
    its turn. What the call ends with goes back to the first response with its id, or else to the closing; a result is
    decoded for as many operations as have been sent, and the user is told at once. While the session is open the first
    response that comes in is the call's reply. -/
structure Course (m : Mission) (operations : Nat) (c : Client) (i : Nat) (u : Session) : Prop where
  stage : m.Stage (u.errand m.number)
  room : u.state = .opened → m.number ∈ u.offering →
    u.isInvited (.call m.number) = true ∨ u.queue.length + u.invited.length = Session.queueLimit
  served : Serves c i u
  /-- When it has its turn the call has been woken, and puts its frame into the queue. -/
  turn : u.isInvited (.call m.number) = true → .call m.number ∈ u.ready ∧
    ∃ v, (c.step (.task i (.call m.number))).sessions[i]? = some v ∧ v.queue = u.queue ++ [.frame m.frame] ∧
      v.errand m.number = ⟨[(.user m.ticket, m.goal, true)], [], [.frame m.frame], []⟩
  /-- Until then it keeps its turn, unless it is given up. -/
  lasting : u.isInvited (.call m.number) = true → ∀ more v, (c.run more).sessions[i]? = some v →
    m.number ∈ v.offering → v.isInvited (.call m.number) = true
  /-- Behind `k` others it has its turn by the time that the writer has taken one more item, unless it is given up. -/
  bounded : ∀ k w, u.waiting[k]? = some w → w.sender = .call m.number →
    ∀ more v, (c.run more).sessions[i]? = some v → m.number ∈ v.offering →
      ∃ takes, u.Advances takes v ∧ (k < takes → v.isInvited (.call m.number) = true)
  ended : ∀ before x after, u.journal = before ++ .ended m.number x :: after → Explains before m.number x ∧
    ∃ rest, after = .finished m.ticket (x >>= fun r => .transacted <$> TransactResult.ofReply r operations) :: rest
  answered : ∀ p, FirstReply u.journal m.number p → u.state = .opened →
    ∀ call ∈ u.calls, call.number = m.number → call.reply = some p.outcome
  returned : ∀ call ∈ u.calls, call.number = m.number → call.queued = true → ∀ r, call.reply = some (.ok r) →
    .call m.number ∈ u.ready ∧ ∃ v, (c.step (.task i (.call m.number))).sessions[i]? = some v ∧
      .finished m.ticket (.transacted <$> TransactResult.ofReply r operations) ∈ v.journal

/-- The next turn of a call that has been invited puts its frame into the queue, and has been woken for. -/
theorem Serves.turn_sends {m : Mission} (h : Serves c i u) (hu : c.sessions[i]? = some u) (pursues : u.Pursues m)
    (few : u.begun ≤ UInt64.size) (invited : u.isInvited (.call m.number) = true) : .call m.number ∈ u.ready ∧
      ∃ v, (c.step (.task i (.call m.number))).sessions[i]? = some v ∧ v.queue = u.queue ++ [.frame m.frame] ∧
        v.errand m.number = ⟨[(.user m.ticket, m.goal, true)], [], [.frame m.frame], []⟩ := by
  obtain ⟨w, invited, own⟩ := (u.isInvited_iff _).mp invited
  have there : w ∈ u.offered m.number :=
    List.mem_filter.mpr ⟨List.mem_append_left _ invited, by simp [Waiting.concerns, own]⟩
  obtain ⟨errand, rfl⟩ := pursues.stage.of_offered there
  obtain ⟨standing, -, unsent, unended⟩ := Errand.mk.inj errand
  obtain ⟨woken, v, hv, enters⟩ := h.enters _ invited
  refine ⟨woken, v, hv, enters.queue, ?_⟩
  -- The call comes to a stage in this turn too, and it is there with its frame in the queue.
  have begun := pursues.begun_of_standing (standing.trans_ne (List.cons_ne_nil _ _))
  obtain ⟨v', hv', heeds⟩ := Heeded.step (m := m) c (.task i (.call m.number)) i u hu
  cases hv.symm.trans hv'
  have same : v.begun = u.begun := congrArg (·.begun) enters.books
  have stage := (heeds.pursues (same ▸ few) (.inl begun) pursues).stage
  have placed : v.standing m.number = [(.user m.ticket, m.goal, true)] := by
    rw [enters.books]
    exact (Mission.placed standing unsent unended).1
  exact (stage.of_queued (placed ▸ List.mem_singleton_self _)).1

theorem Invariant.course (h : c.Invariant) {m : Mission} {operations : Nat}
    (goal : m.goal = .transaction operations) (hu : c.sessions[i]? = some u) (few : u.begun ≤ UInt64.size)
    (seated : u.Seated) (served : Serves c i u) (pursues : u.Pursues m) : Course m operations c i u where
  stage := pursues.stage
  room := by
    intro opened offering
    obtain ⟨w, offered, own⟩ := Session.mem_offering.mp offering
    exact own ▸ served.room opened offered
  served := served
  turn := served.turn_sends hu pursues few
  lasting := by
    intro invited more v hv offering
    obtain ⟨w, invited, own⟩ := (u.isInvited_iff _).mp invited
    have offered := Session.mem_offering.mp offering
    have begun := seated.begun w (List.mem_append_left _ invited) _ own
    rw [← own] at offered ⊢
    exact served.lasting seated.toLined invited (by simp [own]) hv (own ▸ Nat.not_le_of_lt begun) offered
  bounded := by
    intro k w there own more v hv offering
    have offered := Session.mem_offering.mp offering
    have begun := seated.begun w (List.mem_append_right _ (List.mem_of_getElem? there)) _ own
    rw [← own] at offered ⊢
    exact served.bounded seated.toLined there (by simp [own]) hv (own ▸ Nat.not_le_of_lt begun) offered
  ended := by
    intro before x after split
    refine ⟨(h.accounted i u hu few).ends before m.number x after split, ?_⟩
    obtain ⟨rest, told⟩ := pursues.told before x after split
    rw [goal] at told
    exact ⟨rest, told⟩
  answered := by
    intro p first opened call hc number
    have books := (h.sound.orderly i u hu).books
    have unclosed : .closed ∉ u.journal := fun closed => nomatch opened.symm.trans (books.closed.mp closed)
    exact ((h.accounted i u hu few).matched books few).replies call hc p (number ▸ first) unclosed
  returned := by
    intro call hc number queued r reply
    have stands : (call.caller, call.goal, true) ∈ u.standing m.number :=
      Ledger.mem_standing.mpr ⟨call, hc, number, rfl, rfl, queued⟩
    obtain ⟨-, user, same⟩ := pursues.stage.of_queued stands
    have tells := h.turn_tells hu hc queued reply user
    rw [number, same, goal] at tells
    exact tells

/-- What comes of it when session `i`, which is in state `s`, is asked for a transaction. -/
structure Transacting (c : Client) (i : Nat) (s : Session) (ticket : Nat) (db : String)
    (operations : List Operation) : Prop where
  decided : (∃ encoded, Operation.Encodes operations encoded) ∨ ∃ e, FirstFailure Operation.toJson operations e
  /-- Without operations, the result is empty and nothing else happens. -/
  empty : operations = [] → c.step (.invoke i ticket (.transact db operations)) =
    c.modify i (·.note (.finished ticket (.ok (.transacted .empty))))
  /-- The first operation that is invalid is the reason for a refusal, and nothing else happens. -/
  invalid : ∀ e, FirstFailure Operation.toJson operations e → e.isValidation = true ∧
    c.step (.invoke i ticket (.transact db operations)) = c.modify i (·.note (.finished ticket (.error e)))
  /-- Otherwise one call begins on an open session, with one frame. -/
  sent : operations ≠ [] → ∀ encoded, Operation.Encodes operations encoded → s.state = .opened →
    ∃ t, c.step (.invoke i ticket (.transact db operations)) = c.modify i (fun _ => t) ∧
      s.Posts t (.user ticket) (.transaction operations.length) (.obj [("method", .str "transact"),
        ("params", .arr (.str db :: encoded)), ("id", .ofUInt64 (requestId s.begun))])
  /-- Until the ids run out the id is a fresh one, and the call takes its course in every run. -/
  course : operations ≠ [] → ∀ encoded, Operation.Encodes operations encoded → s.state = .opened →
    ∀ few : s.begun < UInt64.size, (∀ n < s.begun, requestId n ≠ requestId s.begun) ∧
      ∀ more, let d := (c.step (.invoke i ticket (.transact db operations))).run more
        ∃ u, d.sessions[i]? = some u ∧ (u.begun ≤ UInt64.size →
          Course (.transaction s.begun ticket few db encoded operations.length) operations.length d i u)
  serialized : ∀ j, Operation.serializeAll operations = .ok j ↔
    ∃ encoded, Operation.Encodes operations encoded ∧ j = .arr encoded
  refused : ∀ e, Operation.serializeAll operations = .error e ↔
    ∃ cause refusal, FirstFailure Operation.toJson operations cause ∧ e = .serialization refusal ∧
      refusal = .refused cause ∧ refusal.message = cause.message

/-- A transaction is sent whole or not at all, in every state of every session. -/
theorem transaction_sent_whole (actions : List Action) (i : Nat) (s : Session)
    (hs : (initial.run actions).sessions[i]? = some s) (ticket : Nat) (db : String) (operations : List Operation) :
    Transacting (initial.run actions) i s ticket db operations := by
  have reached := Invariant.initial.run actions
  have dismissed := dismissed_run actions
  have live := reached.sound.live hs
  refine ⟨Operation.encodes_or_firstFailure operations, ?_, ?_, ?_, ?_, fun _ => Operation.serializeAll_eq_ok,
    fun _ => Operation.serializeAll_eq_error⟩
  · rintro rfl
    exact reached.step_settled dismissed rfl i ticket
  · intro e failed
    exact ⟨Operation.isValidation_of_firstFailure failed,
      reached.step_settled dismissed (Invocation.prepare_transact_invalid failed) i ticket⟩
  · intro filled encoded valid opened
    refine ⟨_, ?_, Session.posts_call opened (live opened) _ "transact" (.arr (.str db :: encoded)) _⟩
    rw [reached.sound.step_requested hs opened (Invocation.prepare_transact_valid filled valid)]
    exact modify_congr fun s' hs' => by cases hs.symm.trans hs'; rfl
  · intro filled encoded valid opened few
    refine ⟨fun n earlier same => ?_, fun more => ?_⟩
    · exact Nat.ne_of_lt earlier (requestId_inj (Nat.lt_trans earlier few) few same)
    · let m : Mission := .transaction s.begun ticket few db encoded operations.length
      let t : Session := s.call (.user ticket) "transact" (.arr (.str db :: encoded)) (.transaction operations.length)
      -- Until it begins there is nothing of the call, and from then on it is at one of its stages.
      have unbegun : s.Pursues m := pursues_unbegun actions hs (Nat.le_refl _)
      have asked : t.Pursues m := unbegun.call opened (live opened) rfl rfl
      have begun : m.number < t.begun := (s.begun_call _ _ _ _).symm ▸ Nat.lt_succ_self _
      have ht : ((initial.run actions).step (.invoke i ticket (.transact db operations))).sessions[i]? = some t := by
        rw [reached.sound.step_requested hs opened (Invocation.prepare_transact_valid filled valid)]
        exact sessions_modify_self hs _
      obtain ⟨u, hu, heeds⟩ := Heeded.run (m := m) _ more i t ht
      have there := run_append initial actions (.invoke i ticket (.transact db operations) :: more)
      have served := there ▸ served _ (there ▸ hu)
      have seated := seated_run _ (there ▸ hu)
      exact ⟨u, hu, fun within => ((reached.step _).run more).course rfl hu within seated served
        (heeds.pursues within (.inl begun) asked)⟩

/-- An open session. -/
def opening : Client :=
  initial.run [.open false 65536]

/-- A reply to two operations comes in. -/
def settlement : List Action :=
  [.send 0 (Response.success (.ofUInt64 0) (.arr [.obj [], .obj []])).toJson.bytes, .task 0 .dispatch,
    .task 0 .dispatch]

/-- An open session whose queue is full. -/
def crowd : List Action :=
  .open false 65536 :: List.replicate Session.queueLimit (.invoke 0 7 .listDbs)

set_option maxRecDepth 4000 in
/-- A transaction with an empty comment is refused, and one whose comment has a text is sent; when the reply has come
    in, the user is told what it says of both operations. On a session whose queue is full it waits until the writer
    takes a frame, and then gets in. -/
theorem transaction_sent_whole_comment : (∃ s t v, opening.sessions[0]? = some s ∧ s.state = .opened ∧
    opening.step (.invoke 0 7 (.transact "db" [.abort, .comment ""])) =
      opening.modify 0 (·.note (.finished 7 (.error (.missingField "comment" "comment")))) ∧
    opening.step (.invoke 0 7 (.transact "db" [.abort, .comment "x"])) = opening.modify 0 (fun _ => t) ∧
    t.queue = [.frame (.obj [("method", .str "transact"), ("params", .arr [.str "db", .obj [("op", .str "abort")],
      .obj [("op", .str "comment"), ("comment", .str "x")]]), ("id", .ofUInt64 0)])] ∧
    (((opening.step (.invoke 0 7 (.transact "db" [.abort, .comment "x"]))).run settlement).step
      (.task 0 (.call 0))).sessions[0]? = some v ∧
    .finished 7 (.ok (.transacted ⟨[.success (.obj []), .success (.obj [])], []⟩)) ∈ v.journal) ∧
    ∃ u v, (((initial.run crowd).step (.invoke 0 8 (.transact "db" [.abort]))).run [.task 0 .write]).sessions[0]? =
      some u ∧ u.isInvited (.call 64) = true ∧ .call 64 ∈ u.ready ∧
      ((((initial.run crowd).step (.invoke 0 8 (.transact "db" [.abort]))).run [.task 0 .write]).step
        (.task 0 (.call 64))).sessions[0]? = some v ∧
      v.queue = u.queue ++ [.frame (.obj [("method", .str "transact"),
        ("params", .arr [.str "db", .obj [("op", .str "abort")]]), ("id", .ofUInt64 64)])] := by
  refine ⟨?_, ?_⟩
  · have before : (opening.sessions[0]?.map fun s => (s.state, s.begun, s.queue, s.admits)) =
        some (.opened, 0, [], true) := rfl
    have after : (((opening.step (.invoke 0 7 (.transact "db" [.abort, .comment "x"]))).run
        settlement).sessions[0]?.map fun u => (u.begun, u.calls)) =
          some (1, [⟨0, .user 7, .transaction 2, true, some (.ok (.arr [.obj [], .obj []]))⟩]) := rfl
    obtain ⟨s, hs, seen⟩ := Option.map_eq_some_iff.mp before
    simp only [Prod.mk.injEq] at seen
    obtain ⟨opened, begun, idle, room⟩ := seen
    have refused := transaction_sent_whole [.open false 65536] 0 s hs 7 "db" [.abort, .comment ""]
    have accepted := transaction_sent_whole [.open false 65536] 0 s hs 7 "db" [.abort, .comment "x"]
    have failed : FirstFailure Operation.toJson [.abort, .comment ""] (.missingField "comment" "comment") :=
      ⟨[.abort], .comment "", [], rfl, List.forall_mem_singleton.mpr ⟨_, rfl⟩, rfl⟩
    have valid : Operation.Encodes [.abort, .comment "x"]
        [.obj [("op", .str "abort")], .obj [("op", .str "comment"), ("comment", .str "x")]] :=
      .cons rfl (.cons rfl .nil)
    obtain ⟨t, sent, posts⟩ := accepted.sent nofun _ valid opened
    have few : s.begun < UInt64.size := by rw [begun]; decide
    obtain ⟨u, hu, course⟩ := (accepted.course nofun _ valid opened few).2 settlement
    obtain ⟨u', hu', later⟩ := Option.map_eq_some_iff.mp after
    cases hu.symm.trans hu'
    obtain ⟨counted, calls⟩ := Prod.mk.inj later
    have there : ⟨0, .user 7, .transaction 2, true, some (.ok (.arr [.obj [], .obj []]))⟩ ∈ u.calls :=
      calls ▸ List.mem_singleton_self _
    obtain ⟨-, v, hv, told⟩ := (course (by rw [counted]; decide)).returned _ there begun.symm rfl _ rfl
    have queued := posts.queue
    rw [idle, room, begun] at queued
    rw [show Mission.number (.transaction s.begun _ _ _ _ _) = 0 from begun] at hv
    exact ⟨s, t, v, hs, opened, (refused.invalid _ failed).2, sent, queued, hv, told⟩
  · have before : ((initial.run crowd).sessions[0]?.map fun s => (s.state, s.begun)) = some (.opened, 64) := rfl
    have after : ((((initial.run crowd).step (.invoke 0 8 (.transact "db" [.abort]))).run
        [.task 0 .write]).sessions[0]?.map fun u => (u.begun, u.isInvited (.call 64))) = some (65, true) := rfl
    obtain ⟨s, hs, seen⟩ := Option.map_eq_some_iff.mp before
    obtain ⟨u, hu, seen'⟩ := Option.map_eq_some_iff.mp after
    obtain ⟨opened, begun⟩ := Prod.mk.inj seen
    obtain ⟨counted, invited⟩ := Prod.mk.inj seen'
    have valid : Operation.Encodes [.abort] [.obj [("op", .str "abort")]] := .cons rfl .nil
    have few : s.begun < UInt64.size := by rw [begun]; decide
    obtain ⟨u', hu', course⟩ :=
      ((transaction_sent_whole crowd 0 s hs 8 "db" [.abort]).course nofun _ valid opened few).2 [.task 0 .write]
    cases hu.symm.trans hu'
    have turn : u.isInvited (.call s.begun) = true := begun ▸ invited
    obtain ⟨woken, v, hv, queued, -⟩ := (course (by rw [counted]; decide)).turn turn
    rw [show Mission.number (.transaction s.begun _ _ _ _ _) = 64 from begun] at woken hv
    have id : Json.ofUInt64 (requestId s.begun) = .ofUInt64 64 := by
      rw [begun]
      rfl
    refine ⟨u, v, hu, invited, woken, hv, queued.trans ?_⟩
    simp only [Mission.transaction, id]

end Client
end Ovsdb
