import Ovsdb.Proofs.Session.Errand
import Ovsdb.Proofs.Session.Outflow

/-! How far a call can come, in every run. Its frame waits for room and gets into the queue once at most; the call is
    there until it ends or is given up, and its user is told at once what it ends with. -/

namespace Ovsdb

/-! ### Ends that are told -/

namespace Journal
variable {journal events : List Event} {n ticket : Nat} {goal : Goal}

/-- A user is told what a call ends with as soon as it ends. -/
def Tells (journal : List Event) (n ticket : Nat) (goal : Goal) : Prop :=
  ∀ before x after, journal = before ++ .ended n x :: after →
    ∃ rest, after = .finished ticket (x >>= goal.answer) :: rest

namespace Tells

theorem of_silent (h : ∀ x, .ended n x ∉ events) : Tells events n ticket goal := by
  rintro before x after rfl
  exact absurd (List.mem_append_right _ List.mem_cons_self) (h x)

theorem append (h : Tells journal n ticket goal) (h' : Tells events n ticket goal) :
    Tells (journal ++ events) n ticket goal := by
  intro before x after split
  obtain ⟨more, rfl, rest⟩ | ⟨more, rfl, rest⟩ := List.append_eq_append_iff.mp split
  · exact h' more x after rest
  · cases more with
    | nil => exact h' [] x after rest.symm
    | cons first more =>
      obtain ⟨rfl, rfl⟩ := List.cons.inj rest
      obtain ⟨told, rfl⟩ := h before x more rfl
      exact ⟨told ++ events, List.cons_append⟩

/-- An end that the user is told at once. -/
theorem ended (n ticket : Nat) (goal : Goal) (x : Except Error Json) :
    Tells [.ended n x, .finished ticket (x >>= goal.answer)] n ticket goal := by
  intro before y after split
  cases before with
  | nil => cases split; exact ⟨[], rfl⟩
  | cons first before =>
    have last : .ended n y ∈ [Event.finished ticket (x >>= goal.answer)] :=
      (List.cons.inj split).2 ▸ List.mem_append_right before List.mem_cons_self
    cases List.mem_singleton.mp last

end Tells
end Journal

/-! ### Stages -/

/-- A call of a user, by its number, with the ticket of the user, how its result is to be read, and its frame. -/
structure Mission where
  number : Nat
  ticket : Nat
  goal : Goal
  frame : Json
  few : number < UInt64.size
  isOf : (Outbound.frame frame).isOf number = true

/-- How far a call has come: its frame waits for room, or is in the queue; then the call ends, or is given up. If the
    writer ends before the frame gets into the queue the call ends without having been sent. -/
inductive Mission.Stage (m : Mission) : Errand → Prop where
  | waiting : Stage m ⟨[(.user m.ticket, m.goal, false)], [⟨.frame m.frame, .call m.number⟩], [], []⟩
  | sent : Stage m ⟨[(.user m.ticket, m.goal, true)], [], [.frame m.frame], []⟩
  | ended (x : Except Error Json) : Stage m ⟨[], [], [.frame m.frame], [x]⟩
  | unsent : Stage m ⟨[], [], [], [.error .connectionClosed]⟩
  | withdrawn : Stage m ⟨[], [], [], []⟩
  | abandoned : Stage m ⟨[], [], [.frame m.frame], []⟩

/-- The user is told what a call ends with as soon as it ends. -/
def Mission.Told (m : Mission) (journal : List Event) : Prop :=
  ∀ before x after, journal = before ++ .ended m.number x :: after →
    ∃ rest, after = .finished m.ticket (x >>= m.goal.answer) :: rest

/-- A call has come to one of its stages, or there is nothing of it since it has not begun. -/
structure Session.Pursues (m : Mission) (s : Session) : Prop where
  stage : m.Stage (s.errand m.number)
  unbegun : s.begun ≤ m.number → s.errand m.number = .none
  told : m.Told s.journal

/-- Whatever there is of a call goes on in `t` as `s` has left it, until the ids run out. The call itself has begun
    before, or has not begun yet. -/
structure Session.Heeds (m : Mission) (s t : Session) : Prop where
  begun : s.begun ≤ t.begun
  pursues : t.begun ≤ UInt64.size → m.number < s.begun ∨ t.begun ≤ m.number → s.Pursues m → t.Pursues m

namespace Mission
variable {m : Mission} {journal events : List Event} {e : Errand} {l : Ledger}

theorem Stage.own (h : m.Stage e) : ∀ w ∈ e.offered, w.sender = .call m.number := by
  cases h <;> simp

/-- A call that has something to put into the queue waits for room, and has not come further. -/
theorem Stage.of_offered {w : Waiting} (h : m.Stage e) (hw : w ∈ e.offered) :
    e = ⟨[(.user m.ticket, m.goal, false)], [w], [], []⟩ ∧ w = ⟨.frame m.frame, .call m.number⟩ := by
  cases h with
  | waiting => cases List.mem_singleton.mp hw; exact ⟨rfl, rfl⟩
  | _ => cases hw

/-- A call that is there with its frame in the queue has not ended. -/
theorem Stage.of_queued {caller : Caller} {goal : Goal} (h : m.Stage e) (hc : (caller, goal, true) ∈ e.standing) :
    e = ⟨[(.user m.ticket, m.goal, true)], [], [.frame m.frame], []⟩ ∧ caller = .user m.ticket ∧ goal = m.goal := by
  cases h with
  | waiting => cases List.mem_singleton.mp hc
  | sent => cases List.mem_singleton.mp hc; exact ⟨rfl, rfl, rfl⟩
  | _ => cases hc

/-- Once the call is gone and its frame is not offered any more, it has been given up at the latest. -/
theorem Stage.leave (h : m.Stage e) : m.Stage { e with standing := [], offered := [] } := by
  cases h with
  | waiting => exact .withdrawn
  | sent => exact .abandoned
  | ended x => exact .ended x
  | unsent => exact .unsent
  | withdrawn => exact .withdrawn
  | abandoned => exact .abandoned

theorem Told.of_silent (h : ∀ x, .ended m.number x ∉ events) : m.Told events :=
  Journal.Tells.of_silent h

theorem Told.append (h : m.Told journal) (h' : m.Told events) : m.Told (journal ++ events) :=
  Journal.Tells.append h h'

/-- An end that the user is told at once. -/
theorem Told.ended (m : Mission) (x : Except Error Json) :
    m.Told [.ended m.number x, .finished m.ticket (x >>= m.goal.answer)] :=
  Journal.Tells.ended m.number m.ticket m.goal x

/-- The frame of a call that is there gets into the queue. -/
theorem placed {queued : Bool} (standing : l.standing m.number = [(.user m.ticket, m.goal, queued)])
    (unsent : l.sent m.number = []) (unended : l.results m.number = []) :
    let l' := (l.note (.queued (.frame m.frame))).place m.number
    l'.standing m.number = [(.user m.ticket, m.goal, true)] ∧ l'.sent m.number = [.frame m.frame] ∧
      l'.results m.number = [] := by
  refine ⟨?_, (l.sent_note _ _).trans ?_, (l.results_note _ _).trans ?_⟩
  · rw [Ledger.standing_place_self, show (l.note _).standing m.number = _ from standing]
    rfl
  · rw [unsent]
    simp [Event.item?, m.isOf]
  · rw [unended]
    rfl

/-- A call ends, and its user is told. -/
theorem finished (x : Except Error Json) (told : m.Told l.journal) (unended : l.results m.number = []) :
    let l' := (l.finish m.number x).note (.finished m.ticket (x >>= m.goal.answer))
    m.Told l'.journal ∧ l'.sent m.number = l.sent m.number ∧ l'.results m.number = [x] := by
  intro l'
  have said : l'.journal = l.journal ++ [.ended m.number x, .finished m.ticket (x >>= m.goal.answer)] :=
    List.append_assoc _ _ _
  refine ⟨said ▸ told.append (.ended m x), ?_, ?_⟩
  · rw [Ledger.sent_note, Ledger.sent_finish]
    exact List.append_nil _
  · rw [Ledger.results_note, Ledger.results_finish_self, unended]
    rfl

end Mission

namespace Session
variable {m : Mission} {s t u : Session}

theorem Calm.told (h : s.Calm m.number t) (told : m.Told s.journal) : m.Told t.journal := by
  obtain ⟨events, said, silent⟩ := h.books.journal
  rw [said]
  exact told.append (.of_silent fun x ended => silent _ ended rfl)

theorem Calm.pursues (h : s.Calm m.number t) (hs : s.Pursues m) : t.Pursues m :=
  ⟨h.errand ▸ hs.stage, fun later => h.errand.trans (hs.unbegun (Nat.le_trans h.books.begun later)), h.told hs.told⟩

namespace Heeds

theorem calm (h : s.Calm m.number t) : s.Heeds m t :=
  ⟨h.books.begun, fun _ _ => h.pursues⟩

theorem refl (s : Session) : s.Heeds m s :=
  calm (.refl s)

theorem trans (h₁ : s.Heeds m t) (h₂ : t.Heeds m u) : s.Heeds m u := by
  refine ⟨Nat.le_trans h₁.begun h₂.begun, fun few aside hs => ?_⟩
  have before := h₁.pursues (Nat.le_trans h₂.begun few) (aside.imp_right (Nat.le_trans h₂.begun)) hs
  exact h₂.pursues few (aside.imp_left fun earlier => Nat.lt_of_lt_of_le earlier h₁.begun) before

/-- Another call begins. -/
theorem call (s : Session) (caller : Caller) (method : String) (params : Json) (goal : Goal) :
    s.Heeds m (s.call caller method params goal) := by
  have begun := s.begun_call caller method params goal
  refine ⟨by omega, fun few aside hs => Calm.pursues (.call ?_ m.few ?_) hs⟩ <;> omega

theorem invoke (s : Session) (ticket : Nat) (i : Invocation) : s.Heeds m (s.invoke ticket i) := by
  rw [Session.invoke]
  split
  · exact call s _ _ _ _
  · exact calm (.note id)

end Heeds

/-! ### The queue -/

section
variable {sender : Sender} {n : Nat} {offers : List Waiting}

/-- What others take back is none of the call's. -/
theorem filter_without (own : ∀ w ∈ offers, w.concerns n = true → w.sender = .call n) (h : sender ≠ .call n) :
    (offers.filter (·.sender ≠ sender)).filter (·.concerns n) = offers.filter (·.concerns n) := by
  rw [List.filter_filter]
  refine List.filter_congr fun w hw => ?_
  cases there : w.concerns n with
  | false => rfl
  | true => simp [own w hw there, h.symm]

theorem filter_own (own : ∀ w ∈ offers, w.concerns n = true → w.sender = .call n) :
    (offers.filter (·.sender ≠ .call n)).filter (·.concerns n) = [] := by
  rw [List.filter_eq_nil_iff]
  intro w hw mine
  obtain ⟨there, other⟩ := List.mem_filter.mp hw
  exact (of_decide_eq_true other) (own w there mine)

namespace Pursues

theorem own (hs : s.Pursues m) : ∀ w ∈ s.offers, w.concerns m.number = true → w.sender = .call m.number :=
  fun w hw mine => hs.stage.own w (List.mem_filter.mpr ⟨hw, mine⟩)

theorem own_invited (hs : s.Pursues m) : ∀ w ∈ s.invited, w.concerns m.number = true → w.sender = .call m.number :=
  fun w hw => hs.own w (List.mem_append_left _ hw)

theorem calm_uninvite (hs : s.Pursues m) (h : sender ≠ .call m.number) :
    s.Calm m.number { s with invited := s.invited.filter (·.sender ≠ sender) } := by
  refine ⟨.refl _, ?_⟩
  rw [Session.offered, Session.offers, List.filter_append, filter_without hs.own_invited h, ← List.filter_append]
  rfl

theorem calm_enter (hs : s.Pursues m) (h : sender ≠ .call m.number) : s.Calm m.number (s.enter sender) := by
  rw [Session.enter]
  split
  · exact .refl s
  case h_2 w found =>
    have there := List.mem_of_find?_eq_some found
    have itself : w.sender = sender := by simpa using List.find?_some found
    have stranger : w.item.isOf m.number = false := by
      rw [Bool.eq_false_iff]
      intro mine
      exact h (itself ▸ hs.own_invited w there (by rw [Waiting.concerns, mine, Bool.or_true]))
    exact ((hs.calm_uninvite h).trans (.enqueue stranger)).trans (.accepted h)

theorem calm_withdraw (hs : s.Pursues m) (h : sender ≠ .call m.number) : s.Calm m.number (s.withdraw sender) := by
  have withdrawn : s.Calm m.number { s with
      waiting := s.waiting.filter (·.sender ≠ sender)
      invited := s.invited.filter (·.sender ≠ sender) } := by
    refine ⟨.refl _, ?_⟩
    rw [Session.offered, Session.offers, ← List.filter_append]
    exact filter_without hs.own h
  exact withdrawn.trans (.invite _)

end Pursues

/-! ### Turns of the call itself -/

/-- A call begins, and its frame gets into the queue if there is room; otherwise it waits. -/
theorem call_cases (opened : s.state = .opened) (live : s.writer ≠ .ended) (caller : Caller) (method : String)
    (params : Json) (goal : Goal) : ∃ ready,
    s.admits = true ∧ s.call caller method params goal = { s with
      toLedger := ((s.begin caller goal).note
        (.queued (.frame (Request.call method params (requestId s.begun)).toJson))).place s.begun
      queue := s.queue ++ [.frame (Request.call method params (requestId s.begun)).toJson]
      ready := ready } ∨
    s.admits = false ∧ s.call caller method params goal = { s with
      toLedger := s.begin caller goal
      waiting := s.waiting ++ [⟨.frame (Request.call method params (requestId s.begun)).toJson, .call s.begun⟩]
      ready := ready } := by
  obtain ⟨ready, heq⟩ := s.update_eq (s.begin caller goal)
  rw [call, opened]
  simp only
  rw [heq, offer]
  split
  case h_1 spent => exact absurd spent live
  case h_2 =>
    split
    case isTrue room =>
      obtain ⟨woken, heq⟩ := wake_eq ({ s with
        toLedger := s.begin caller goal
        queue := s.queue ++ [Outbound.frame (Request.call method params (requestId s.begun)).toJson]
        ready := ready }.note (.queued (.frame (Request.call method params (requestId s.begun)).toJson))) .write
      rw [enqueue, heq]
      exact ⟨woken, .inl ⟨room, rfl⟩⟩
    case isFalse full => exact ⟨ready, .inr ⟨Bool.eq_false_iff.mpr full, rfl⟩⟩

theorem remember_eq (s : Session) (goal : Goal) (result : Except Error Answer) :
    ∃ schemas, s.remember goal result = { s with schemas := schemas } := by
  rw [Session.remember.eq_def]
  split
  · exact ⟨_, rfl⟩
  · exact ⟨s.schemas, rfl⟩

theorem offers_rejected (s : Session) (sender : Sender) : (s.rejected sender).offers = s.offers := by
  cases sender with
  | call k =>
    rw [rejected]
    split
    case h_1 call _ =>
      obtain ⟨ready, heq⟩ := s.update_eq (s.finish k (.error .connectionClosed))
      rw [heq]
      cases call.caller <;> rfl
    case h_2 => rfl
  | dispatcher =>
    obtain ⟨ready, heq⟩ := wake_eq { s with dispatcher := .running } .dispatch
    rw [rejected, heq]
    rfl
  | closer ticket =>
    rw [rejected]
    split <;> rfl

namespace Pursues

/-- A call that is there has begun. -/
theorem begun_of_standing (hs : s.Pursues m) (there : s.standing m.number ≠ []) : m.number < s.begun :=
  Nat.lt_of_not_le fun later => there (congrArg Errand.standing (hs.unbegun later))

/-- A call that has begun comes to a stage. -/
theorem at_stage {e : Errand} (stage : m.Stage e) (begun : m.number < t.begun) (told : m.Told t.journal)
    (standing : t.standing m.number = e.standing) (offered : t.offered m.number = e.offered)
    (sent : t.sent m.number = e.sent) (results : t.results m.number = e.results) : t.Pursues m := by
  refine ⟨?_, fun later => absurd begun (Nat.not_lt_of_le later), told⟩
  rw [Session.errand, standing, offered, sent, results]
  exact stage

/-- The call begins. -/
theorem call {method : String} {params : Json} (hs : s.Pursues m) (opened : s.state = .opened)
    (live : s.writer ≠ .ended) (new : m.number = s.begun)
    (frame : m.frame = (Request.call method params (requestId s.begun)).toJson) :
    (s.call (.user m.ticket) method params m.goal).Pursues m := by
  obtain ⟨standing, offered, sent, results⟩ := Errand.mk.inj (hs.unbegun new.ge : Errand.mk _ _ _ _ = ⟨_, _, _, _⟩)
  let l : Ledger := s.begin (.user m.ticket) m.goal
  have stands : l.standing m.number = [(.user m.ticket, m.goal, false)] := by
    have nobody : s.toLedger.standing s.begun = [] := new ▸ standing
    rw [new, Ledger.standing_begin_self, nobody]
    rfl
  have begun : m.number < l.begun := new ▸ Nat.lt_succ_self _
  have silent : m.Told [.called s.begun] := .of_silent (by simp)
  have told : m.Told l.journal := hs.told.append silent
  have unsent : l.sent m.number = [] := (s.toLedger.sent_note (.called s.begun) _).trans (by rw [sent]; rfl)
  have unended : l.results m.number = [] := (s.toLedger.results_note (.called s.begun) _).trans (by rw [results]; rfl)
  obtain ⟨ready, ⟨-, heq⟩ | ⟨-, heq⟩⟩ := s.call_cases opened live (.user m.ticket) method params m.goal
  · obtain ⟨placed, sent, results⟩ := Mission.placed stands unsent unended
    rw [heq, ← frame, ← new]
    exact .at_stage .sent begun (told.append (.of_silent (by simp))) placed offered sent results
  · have waits : (s.invited ++ (s.waiting ++ [Waiting.mk (.frame m.frame) (.call m.number)])).filter
        (·.concerns m.number) = [⟨.frame m.frame, .call m.number⟩] := by
      have nothing : (s.invited ++ s.waiting).filter (·.concerns m.number) = [] := offered
      rw [← List.append_assoc, List.filter_append, nothing]
      simp [Waiting.concerns]
    rw [heq, ← frame, ← new]
    exact .at_stage .waiting begun told stands waits unsent unended

/-- The frame of the call gets into the queue. -/
theorem enter (hs : s.Pursues m) : (s.enter (.call m.number)).Pursues m := by
  rw [Session.enter]
  split
  case h_1 => exact hs
  case h_2 w found =>
    have there := List.mem_of_find?_eq_some found
    have itself : w.sender = .call m.number := by simpa using List.find?_some found
    have mine : w.concerns m.number = true := by simp [Waiting.concerns, itself]
    obtain ⟨errand, rfl⟩ := hs.stage.of_offered (List.mem_filter.mpr ⟨List.mem_append_left _ there, mine⟩)
    obtain ⟨standing, once, unsent, unended⟩ := Errand.mk.inj errand
    have begun := hs.begun_of_standing (standing.trans_ne (List.cons_ne_nil _ _))
    -- The call waits once, so it is not among those that are still to be invited.
    have elsewhere : s.waiting.filter (·.concerns m.number) = [] := by
      rw [Session.offered, offers, List.filter_append] at once
      obtain ⟨none, -⟩ | ⟨-, none⟩ := List.append_eq_singleton_iff.mp once
      · exact absurd (none ▸ List.mem_filter.mpr ⟨there, mine⟩) List.not_mem_nil
      · exact none
    have offered : (s.invited.filter (·.sender ≠ .call m.number) ++ s.waiting).filter (·.concerns m.number) = [] := by
      rw [List.filter_append, filter_own hs.own_invited, elsewhere]
      rfl
    obtain ⟨placed, sent, results⟩ := Mission.placed standing unsent unended
    obtain ⟨ready, heq⟩ := wake_eq ({ s with
      invited := s.invited.filter (·.sender ≠ Sender.call m.number)
      queue := s.queue ++ [Outbound.frame m.frame] }.note (.queued (.frame m.frame))) .write
    rw [Session.enqueue, heq]
    exact .at_stage .sent begun (hs.told.append (.of_silent (by simp))) placed offered sent results

/-- The call ends with its reply, and its user is told. -/
theorem conclude (hs : s.Pursues m) (now : Nat) : (s.conclude m.number now).Pursues m := by
  rw [Session.conclude]
  split
  case h_1 number caller goal queued reply found =>
    have there := List.mem_of_find?_eq_some found
    obtain ⟨rfl, rfl⟩ : number = m.number ∧ queued = true := by simpa using List.find?_some found
    have stands : (caller, goal, true) ∈ s.standing m.number :=
      Ledger.mem_standing.mpr ⟨_, there, rfl, rfl, rfl, rfl⟩
    obtain ⟨errand, rfl, rfl⟩ := hs.stage.of_queued stands
    obtain ⟨-, offered, sent, unended⟩ := Errand.mk.inj errand
    have begun := hs.begun_of_standing (List.ne_nil_of_mem stands)
    obtain ⟨told, kept, results⟩ := Mission.finished reply hs.told unended
    obtain ⟨ready, heq⟩ := s.update_eq (s.finish m.number reply)
    obtain ⟨schemas, remembered⟩ := remember_eq (s.update (s.finish m.number reply)) m.goal (reply >>= m.goal.answer)
    rw [report, remembered, heq]
    exact .at_stage (.ended reply) begun told (s.standing_forget_self m.number) offered (kept.trans sent) results
  case h_2 => exact hs

/-- The user gives the call up. -/
theorem abandon (hs : s.Pursues m) (begun : m.number < s.begun) :
    ((s.update (s.toLedger.abandon m.number)).withdraw (.call m.number)).Pursues m := by
  have offered : (s.invited.filter (·.sender ≠ .call m.number) ++
      s.waiting.filter (·.sender ≠ .call m.number)).filter (·.concerns m.number) = [] := by
    rw [← List.filter_append]
    exact filter_own hs.own
  obtain ⟨ready, heq⟩ := s.update_eq (s.toLedger.abandon m.number)
  rw [heq, Session.withdraw]
  refine Calm.pursues (.invite _) ?_
  exact .at_stage hs.stage.leave begun (hs.told.append (.of_silent (by simp))) (s.standing_forget_self m.number)
    offered (s.sent_abandon _ _) (s.results_abandon _ _)

/-- A call that is there when the writer has ended ends with the closing. -/
theorem rejected {queued : Bool} (begun : m.number < s.begun) (told : m.Told s.journal)
    (standing : s.standing m.number = [(.user m.ticket, m.goal, queued)]) (offered : s.offered m.number = [])
    (sent : s.sent m.number = [] ∨ s.sent m.number = [.frame m.frame]) (unended : s.results m.number = []) :
    (s.rejected (.call m.number)).Pursues m := by
  rw [Session.rejected]
  split
  case h_1 call found =>
    have stands := Ledger.mem_standing_of_find? found
    rw [standing, List.mem_singleton] at stands
    obtain ⟨caller, -⟩ := Prod.mk.inj stands
    obtain ⟨told, kept, results⟩ := Mission.finished (.error .connectionClosed) told unended
    obtain ⟨ready, heq⟩ := s.update_eq (s.finish m.number (.error .connectionClosed))
    rw [heq, caller]
    rcases sent with sent | sent
    · exact .at_stage .unsent begun told (s.standing_forget_self m.number) offered (kept.trans sent) results
    · exact .at_stage (.ended _) begun told (s.standing_forget_self m.number) offered (kept.trans sent) results
  case h_2 missing =>
    -- The call is there, so it is found.
    have stands : (.user m.ticket, m.goal, queued) ∈ s.standing m.number := standing ▸ List.mem_singleton_self _
    obtain ⟨call, there, itself, -⟩ := Ledger.mem_standing.mp stands
    exact absurd (List.find?_eq_none.mp missing call there) (by simp [itself])

/-- A call that is gone does not learn anything. -/
theorem rejected_of_gone (gone : s.standing n = []) : s.rejected (.call n) = s := by
  rw [Session.rejected]
  split
  case h_1 call found =>
    have stands := Ledger.mem_standing_of_find? found
    rw [gone] at stands
    cases stands
  case h_2 => rfl

/-- Once nothing waits for room any more, the call learns that the writer has ended if it is still there. -/
theorem rejected_own (hs : s.Pursues m) (empty : s.offers = []) : (s.rejected (.call m.number)).Pursues m := by
  have none : s.offered m.number = [] := by rw [Session.offered, empty]; rfl
  have stage := hs.stage
  generalize errand : s.errand m.number = e at stage
  obtain ⟨standing, offered, sent, results⟩ := Errand.mk.inj (errand : Errand.mk _ _ _ _ = ⟨e.1, e.2, e.3, e.4⟩)
  cases stage with
  | waiting => cases none.symm.trans offered
  | sent =>
    have begun := hs.begun_of_standing (standing.trans_ne (List.cons_ne_nil _ _))
    exact rejected begun hs.told standing none (.inr sent) results
  | _ =>
    rw [rejected_of_gone standing]
    exact hs

/-- The call is there, and its frame was among what had waited for room when the writer ended. -/
structure Bereft (m : Mission) (s : Session) : Prop where
  begun : m.number < s.begun
  told : m.Told s.journal
  errand : s.errand m.number = ⟨[(.user m.ticket, m.goal, false)], [], [], []⟩

/-- Those who learn that the writer has ended leave the call at one of its stages; if its frame has not got into the
    queue the call is among them. -/
theorem foldl_rejected (senders : List Sender) (empty : s.offers = [])
    (h : s.Pursues m ∨ Sender.call m.number ∈ senders ∧ Bereft m s) : (senders.foldl Session.rejected s).Pursues m := by
  induction senders generalizing s with
  | nil =>
    obtain hs | ⟨there, -⟩ := h
    · exact hs
    · exact absurd there List.not_mem_nil
  | cons sender senders ih =>
    refine ih ((s.offers_rejected sender).trans empty) ?_
    by_cases own : sender = .call m.number
    · subst own
      left
      obtain hs | ⟨-, bereft⟩ := h
      · exact hs.rejected_own empty
      · obtain ⟨standing, offered, sent, results⟩ := Errand.mk.inj bereft.errand
        exact rejected bereft.begun bereft.told standing offered (.inl sent) results
    · have calm : s.Calm m.number (s.rejected sender) := .rejected own
      refine h.imp calm.pursues fun ⟨there, bereft⟩ => ⟨(List.mem_cons.mp there).resolve_left (Ne.symm own), ?_⟩
      exact ⟨Nat.lt_of_lt_of_le bereft.begun calm.books.begun, calm.told bereft.told, calm.errand.trans bereft.errand⟩

/-- The writer ends: what waits for room is gone, and who has offered it learns so. -/
theorem endWriter (hs : s.Pursues m) : s.endWriter.Pursues m := by
  refine foldl_rejected _ rfl ?_
  have stage := hs.stage
  generalize errand : s.errand m.number = e at stage
  obtain ⟨standing, offered, sent, results⟩ := Errand.mk.inj (errand : Errand.mk _ _ _ _ = ⟨e.1, e.2, e.3, e.4⟩)
  let ended : Session := { s with writer := .ended, queue := [], waiting := [], invited := [] }
  have emptied : ended.errand m.number = { e with offered := [] } := by
    rw [← errand]
    rfl
  cases stage with
  | waiting =>
    have there : Waiting.mk (.frame m.frame) (.call m.number) ∈ s.offers :=
      (List.mem_filter.mp (offered ▸ List.mem_singleton_self _ : _ ∈ s.offered m.number)).1
    have begun := hs.begun_of_standing (standing.trans_ne (List.cons_ne_nil _ _))
    exact .inr ⟨List.mem_append_left _ (List.mem_map.mpr ⟨_, there, rfl⟩), begun, hs.told, emptied⟩
  | _ =>
    refine .inl ⟨?_, fun later => ?_, hs.told⟩
    · rw [emptied, ← errand]
      exact errand ▸ hs.stage
    · exact emptied.trans (errand.symm.trans (hs.unbegun later))

end Pursues

namespace Heeds

theorem endWriter (s : Session) : s.Heeds m s.endWriter :=
  ⟨s.begun_endWriter.ge, fun _ _ hs => hs.endWriter⟩

theorem enter (s : Session) (sender : Sender) : s.Heeds m (s.enter sender) := by
  refine ⟨(s.begun_enter sender).ge, fun _ _ hs => ?_⟩
  by_cases own : sender = .call m.number
  · exact own ▸ hs.enter
  · exact (hs.calm_enter own).pursues hs

theorem withdraw (s : Session) (ticket : Nat) : s.Heeds m (s.withdraw (.closer ticket)) := by
  have other : Sender.closer ticket ≠ .call m.number := nofun
  exact ⟨(s.begun_withdraw _).ge, fun _ _ hs => (hs.calm_withdraw other).pursues hs⟩

theorem abandon (s : Session) (ticket : Nat) : s.Heeds m (s.abandon ticket) := by
  rw [Session.abandon]
  split
  case h_1 call found =>
    have kept : (s.update (s.toLedger.abandon call.number)).begun = s.begun := s.begun_update _
    refine ⟨((begun_withdraw _ _).trans kept).ge, fun _ _ hs => ?_⟩
    by_cases own : call.number = m.number
    · have there := List.mem_of_find?_eq_some found
      have stands := Ledger.mem_standing.mpr ⟨call, there, own, rfl, rfl, rfl⟩
      exact own ▸ hs.abandon (hs.begun_of_standing (List.ne_nil_of_mem stands))
    · have given : s.Calm m.number (s.update (s.toLedger.abandon call.number)) := .update (.abandon own)
      have left := given.pursues hs
      exact (left.calm_withdraw fun same => own (Sender.call.inj same)).pursues left
  case h_2 =>
    have fewer : s.Heeds m { s with closers := s.closers.filter (· != ticket) } := calm (.same rfl rfl)
    exact fewer.trans (withdraw _ ticket)

/-- A shutdown is no request. -/
theorem shutdown (s : Session) (ticket k : Nat) : s.Heeds m (s.offer (.shutdown ticket) (.closer k)) :=
  calm (.offer nofun rfl)

end Heeds

/-- Whatever there is of a call goes on, whatever is done but for calls that end. -/
theorem heeding (m : Mission) : Lasting.Thorough (Heeds m) where
  refl := .refl
  trans := .trans
  aside books _ offers _ := .calm (.same books offers)
  received _ _ := .calm (.note id)
  callback _ _ _ := .calm (.note id)
  close s := .calm (.close s)
  complete s r := .calm (.complete s r)
  respond s r := .calm (.respond s r)
  carry books offers _ := .calm (.same books offers)
  invite s := .calm (.invite s)
  enter := .enter
  acknowledge _ _ := .calm (.rejected nofun)
  shutdown := .shutdown
  endWriter := .endWriter
  echo s _ := .call s _ _ _ _
  abandon := .abandon

namespace Heeds

theorem report (s : Session) (caller : Caller) (goal : Goal) (now : Nat) (result : Except Error Answer) :
    s.Heeds m (s.report caller goal now result) := by
  cases caller with
  | user ticket => exact calm ((Calm.remember s goal result).trans (.note id))
  | keepalive k => exact (heeding m).report_keepalive s k goal now result

theorem conclude (s : Session) (k now : Nat) : s.Heeds m (s.conclude k now) := by
  by_cases own : k = m.number
  · refine ⟨?_, fun _ _ hs => own ▸ hs.conclude now⟩
    rw [Session.conclude]
    split
    case h_1 number caller goal queued reply _ =>
      have ended : (s.update (s.finish k reply)).begun = s.begun := begun_update _ _
      exact ended ▸ (report (m := m) _ caller goal now _).begun
    case h_2 => exact Nat.le_refl _
  · rw [Session.conclude]
    split
    case h_1 number caller goal queued reply _ =>
      have ended : s.Calm m.number (s.update (s.finish k reply)) := .update (.finish own)
      exact (calm ended).trans (report _ caller goal now _)
    case h_2 => exact refl s

end Heeds
end
end Session

/-! ### Runs -/

namespace Client
variable {m : Mission} {c : Client} {i : Nat} {s : Session}

/-- In every session, whatever there is of the call goes on. -/
abbrev Heeded (m : Mission) : Client → Client → Prop :=
  Keeps (Session.Heeds m)

namespace Heeded

theorem step (c : Client) (a : Action) : Heeded m c (c.step a) :=
  (Session.heeding m).keeps_step c a (fun _ ticket invocation _ s _ => .invoke s ticket invocation)
    fun _ k _ s _ => .conclude s k c.now

theorem run (c : Client) (actions : List Action) : Heeded m c (c.run actions) := by
  induction actions generalizing c with
  | nil => exact (Session.heeding m).keeps_refl c
  | cons a actions ih => exact (Session.heeding m).keeps_trans (step c a) (ih _)

end Heeded

/-- There is nothing of a call before it has begun. -/
theorem pursues_unbegun (actions : List Action) (hs : (initial.run actions).sessions[i]? = some s)
    (later : s.begun ≤ m.number) : s.Pursues m := by
  induction actions using List.reverseRecOn generalizing s with
  | nil => cases hs
  | append_singleton actions a ih =>
    rw [run_concat] at hs
    rcases ((Invariant.initial.run actions).steps a).2.origin i s hs with ⟨r, hr, -⟩ | ⟨_, _, _, rfl⟩
    · obtain ⟨t, ht, heeds⟩ := Heeded.step (m := m) (initial.run actions) a i r hr
      cases hs.symm.trans ht
      exact heeds.pursues (Nat.le_trans later m.few.le) (.inr later) (ih hr (Nat.le_trans heeds.begun later))
    · exact ⟨.withdrawn, fun _ => rfl, .of_silent nofun⟩

end Client
end Ovsdb
