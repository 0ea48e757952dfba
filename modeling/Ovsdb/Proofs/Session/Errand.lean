import Ovsdb.Proofs.Message
import Ovsdb.Proofs.Session.History
import Ovsdb.Proofs.Session.Outlet

/-! What there is of one call in a session: the call itself, its frame and its result. Whatever does not concern the
    call leaves all of this alone. -/

namespace Ovsdb

/-! ### Traces of a call -/

/-- The id of the request that an item is. -/
def Outbound.requestId? : Outbound → Option UInt64
  | .frame j => (Request.ofMessage? j).bind (·.id.uint64?)
  | .shutdown _ => none

/-- Whether an item is a request under the id of a call. -/
def Outbound.isOf (n : Nat) (item : Outbound) : Bool :=
  item.requestId? = some (Ovsdb.requestId n)

/-- The result that a call ends with. -/
def Event.resultOf? (n : Nat) : Event → Option (Except Error Json)
  | .ended k x => if k = n then some x else none
  | _ => none

/-- Whether an event is the end of a call, or a request under its id that gets into the queue. -/
def Event.Concerns (n : Nat) : Event → Prop
  | .ended k _ => k = n
  | .queued item => item.isOf n = true
  | _ => False

/-- Who waits for a call, how its result will be read, and whether its frame has got into the queue. -/
def Call.standing? (n : Nat) (c : Call) : Option (Caller × Goal × Bool) :=
  if c.number = n then some (c.caller, c.goal, c.queued) else none

/-- Whether what waits for room in the queue is from a call or under its id. -/
def Waiting.concerns (n : Nat) (w : Waiting) : Bool :=
  w.sender = .call n || w.item.isOf n

/-- What there is of one call: the call itself while it is there, what waits for room in the queue and is from it or
    under its id, the requests under its id that have got into the queue, and the results that it has ended with. -/
structure Errand where
  standing : List (Caller × Goal × Bool)
  offered : List Waiting
  sent : List Outbound
  results : List (Except Error Json)

/-- There is nothing of a call. -/
def Errand.none : Errand := ⟨[], [], [], []⟩

namespace Ledger

/-- What the books have of a call: who it is for, what it is to find out, and whether its frame is in the queue. -/
def standing (l : Ledger) (n : Nat) : List (Caller × Goal × Bool) :=
  l.calls.filterMap (·.standing? n)

/-- The requests under the id of a call that have got into the queue. -/
def sent (l : Ledger) (n : Nat) : List Outbound :=
  l.items.filter (·.isOf n)

/-- The results that a call has ended with. -/
def results (l : Ledger) (n : Nat) : List (Except Error Json) :=
  l.journal.filterMap (·.resultOf? n)

/-- `l'` comes from `l` by what does not concern a call. -/
structure Calm (n : Nat) (l l' : Ledger) : Prop where
  begun : l.begun ≤ l'.begun
  standing : l'.standing n = l.standing n
  journal : ∃ events : List Event, l'.journal = l.journal ++ events ∧ ∀ e ∈ events, ¬ e.Concerns n

end Ledger

namespace Session

/-- What waits for room from a call, or under its id. -/
def offered (s : Session) (n : Nat) : List Waiting :=
  s.offers.filter (·.concerns n)

/-- How far a session has got with a call. -/
def errand (s : Session) (n : Nat) : Errand where
  standing := s.standing n
  offered := s.offered n
  sent := s.sent n
  results := s.results n

/-- `t` comes from `s` by what does not concern a call. -/
structure Calm (n : Nat) (s t : Session) : Prop where
  books : s.toLedger.Calm n t.toLedger
  offered : t.offered n = s.offered n

end Session

/-! ### Books -/

namespace Ledger
variable {l l' l'' : Ledger} {n k : Nat} {e : Event} {x : Except Error Json} {caller : Caller} {goal : Goal}

theorem mem_standing {queued : Bool} : (caller, goal, queued) ∈ l.standing n ↔
    ∃ c ∈ l.calls, c.number = n ∧ c.caller = caller ∧ c.goal = goal ∧ c.queued = queued := by
  rw [standing, List.mem_filterMap]
  refine exists_congr fun c => and_congr_right fun _ => ?_
  by_cases hn : c.number = n <;> simp [Call.standing?, hn]

theorem mem_standing_of_find? {c : Call} (found : l.calls.find? (·.number == n) = some c) :
    (c.caller, c.goal, c.queued) ∈ l.standing n := by
  have itself : c.number = n := by simpa using List.find?_some found
  exact mem_standing.mpr ⟨c, List.mem_of_find?_eq_some found, itself, rfl, rfl, rfl⟩

theorem standing_answer (l : Ledger) (numbers : List Nat) (reply : Except Error Json) (n : Nat) :
    (l.answer numbers reply).standing n = l.standing n := by
  rw [standing, answer, List.filterMap_map]
  refine List.filterMap_congr fun c _ => ?_
  rw [Function.comp_apply]
  split <;> rfl

theorem standing_place_self (l : Ledger) (n : Nat) :
    (l.place n).standing n = (l.standing n).map fun (caller, goal, _) => (caller, goal, true) := by
  rw [standing, place, List.filterMap_map, standing, List.map_filterMap]
  refine List.filterMap_congr fun c _ => ?_
  by_cases hn : c.number = n <;> simp [Call.standing?, hn]

theorem standing_place_other (h : k ≠ n) : (l.place k).standing n = l.standing n := by
  rw [standing, place, List.filterMap_map]
  refine List.filterMap_congr fun c _ => ?_
  by_cases hk : c.number = k <;> simp [Call.standing?, hk, h]

theorem standing_forget_self (l : Ledger) (n : Nat) : (l.forget n).standing n = [] := by
  rw [forget, vacate, standing_answer, standing, List.filterMap_eq_nil_iff]
  intro c hc
  have other : c.number ≠ n := bne_iff_ne.mp (List.mem_filter.mp hc).2
  exact if_neg other

theorem standing_forget_other (h : k ≠ n) : (l.forget k).standing n = l.standing n := by
  rw [forget, vacate, standing_answer, standing, List.filterMap_filter]
  refine List.filterMap_congr fun c _ => ?_
  by_cases hk : c.number = k <;> simp [Call.standing?, hk, h]

theorem standing_begin_self (l : Ledger) (caller : Caller) (goal : Goal) :
    (l.begin caller goal).standing l.begun = l.standing l.begun ++ [(caller, goal, false)] := by
  have new : Call.standing? l.begun ⟨l.begun, caller, goal, false, none⟩ = some (caller, goal, false) := if_pos rfl
  rw [standing, begin, List.filterMap_append, List.filterMap_cons_some new, List.filterMap_nil]
  exact congrArg (· ++ _) (standing_answer l.count _ _ l.begun)

theorem standing_begin (h : n ≠ l.begun) : (l.begin caller goal).standing n = l.standing n := by
  have new : Call.standing? n ⟨l.begun, caller, goal, false, none⟩ = none := if_neg h.symm
  rw [standing, begin, List.filterMap_append, List.filterMap_cons_none new, List.filterMap_nil, List.append_nil]
  exact standing_answer l.count _ _ n

theorem sent_note (l : Ledger) (e : Event) (n : Nat) :
    (l.note e).sent n = l.sent n ++ e.item?.toList.filter (·.isOf n) := by
  rw [sent, items, note, List.filterMap_append, List.filter_append]
  cases h : e.item? <;> simp [h, sent, items]

theorem results_note (l : Ledger) (e : Event) (n : Nat) :
    (l.note e).results n = l.results n ++ (e.resultOf? n).toList := by
  rw [results, note, List.filterMap_append]
  cases h : e.resultOf? n <;> simp [h, results]

theorem sent_finish (l : Ledger) (k : Nat) (x : Except Error Json) (n : Nat) : (l.finish k x).sent n = l.sent n :=
  ((l.forget k).sent_note _ n).trans (List.append_nil _)

theorem results_finish_self (l : Ledger) (n : Nat) (x : Except Error Json) :
    (l.finish n x).results n = l.results n ++ [x] := by
  rw [finish, results_note, Event.resultOf?, if_pos rfl]
  rfl

theorem sent_abandon (l : Ledger) (k n : Nat) : (l.abandon k).sent n = l.sent n :=
  ((l.forget k).sent_note _ n).trans (List.append_nil _)

theorem results_abandon (l : Ledger) (k n : Nat) : (l.abandon k).results n = l.results n :=
  ((l.forget k).results_note _ n).trans (List.append_nil _)

namespace Calm

theorem refl (l : Ledger) : l.Calm n l :=
  ⟨Nat.le_refl _, rfl, [], (List.append_nil _).symm, by simp⟩

theorem trans (h₁ : l.Calm n l') (h₂ : l'.Calm n l'') : l.Calm n l'' := by
  obtain ⟨events, said, silent⟩ := h₁.journal
  obtain ⟨more, said', silent'⟩ := h₂.journal
  refine ⟨Nat.le_trans h₁.begun h₂.begun, h₂.standing.trans h₁.standing, events ++ more, ?_, ?_⟩
  · rw [said', said, List.append_assoc]
  · exact List.forall_mem_append.mpr ⟨silent, silent'⟩

theorem sent (h : l.Calm n l') : l'.sent n = l.sent n := by
  obtain ⟨events, said, silent⟩ := h.journal
  have none : (events.filterMap Event.item?).filter (·.isOf n) = [] := by
    rw [List.filter_eq_nil_iff]
    intro item mem
    obtain ⟨e, he, queued⟩ := List.mem_filterMap.mp mem
    cases e with
    | queued _ => cases queued; exact silent _ he
    | _ => cases queued
  rw [Ledger.sent, items, said, List.filterMap_append, List.filter_append, none, List.append_nil]
  rfl

theorem results (h : l.Calm n l') : l'.results n = l.results n := by
  obtain ⟨events, said, silent⟩ := h.journal
  have none : events.filterMap (·.resultOf? n) = [] := by
    rw [List.filterMap_eq_nil_iff]
    intro e he
    cases e with
    | ended k x => exact if_neg (silent _ he)
    | _ => rfl
  rw [Ledger.results, said, List.filterMap_append, none, List.append_nil]
  rfl

theorem note (h : ¬ e.Concerns n) : l.Calm n (l.note e) :=
  ⟨Nat.le_refl _, rfl, [e], rfl, List.forall_mem_singleton.mpr h⟩

theorem answer (l : Ledger) (numbers : List Nat) (reply : Except Error Json) : l.Calm n (l.answer numbers reply) :=
  ⟨Nat.le_refl _, standing_answer l numbers reply n, [], (List.append_nil _).symm, by simp⟩

theorem complete (l : Ledger) (r : Response) : l.Calm n (l.complete r) := by
  rw [Ledger.complete]
  split
  · exact refl l
  · exact answer l _ _

theorem close (l : Ledger) : l.Calm n l.close :=
  have said : l.Calm n ({ l with state := .closed }.note .closed) :=
    ⟨Nat.le_refl _, rfl, [.closed], rfl, by simp [Event.Concerns]⟩
  said.trans (answer _ _ _)

theorem place (h : k ≠ n) : l.Calm n (l.place k) :=
  ⟨Nat.le_refl _, standing_place_other h, [], (List.append_nil _).symm, by simp⟩

theorem forget (h : k ≠ n) : l.Calm n (l.forget k) :=
  ⟨Nat.le_refl _, standing_forget_other h, [], (List.append_nil _).symm, by simp⟩

theorem finish (h : k ≠ n) : l.Calm n (l.finish k x) :=
  trans (forget h) (note h)

theorem abandon (h : k ≠ n) : l.Calm n (l.abandon k) :=
  trans (forget h) (note id)

theorem begin (h : n ≠ l.begun) : l.Calm n (l.begin caller goal) :=
  ⟨Nat.le_succ _, standing_begin h, [.called l.begun], rfl, by simp [Event.Concerns]⟩

theorem refuse (h : n ≠ l.begun) : l.Calm n l.refuse :=
  have counted : l.Calm n l.count := ⟨Nat.le_succ _, rfl, [.called l.begun], rfl, by simp [Event.Concerns]⟩
  counted.trans (note h.symm)

end Calm
end Ledger

/-! ### Items -/

theorem Outbound.isOf_call {n k : Nat} {method : String} {params : Json} :
    (Outbound.frame (Request.call method params (Ovsdb.requestId k)).toJson).isOf n =
      decide (Ovsdb.requestId k = Ovsdb.requestId n) := by
  simp [isOf, requestId?, Request.call, Json.ofUInt64, Json.uint64?, WideInt.toUInt64?_ofUInt64]

theorem Outbound.isOf_response {n : Nat} (r : Response) : (Outbound.frame r.toJson).isOf n = false := by
  simp [isOf, requestId?, Response.toJson, Request.ofMessage?]

/-! ### Sessions -/

namespace Session
variable {s t u : Session} {n : Nat} {item : Outbound} {sender : Sender} {e : Event} {l : Ledger} {caller : Caller}
  {goal : Goal} {method : String} {params : Json}

theorem begun_update (s : Session) (l : Ledger) : (s.update l).begun = l.begun := by
  obtain ⟨ready, heq⟩ := s.update_eq l
  rw [heq]

theorem begun_fail (s : Session) (caller : Caller) : (s.fail caller).begun = s.begun := by
  cases caller <;> rfl

theorem begun_rejected (s : Session) (sender : Sender) : (s.rejected sender).begun = s.begun := by
  cases sender with
  | call k =>
    rw [rejected]
    split
    · rw [begun_fail, begun_update]
      rfl
    · rfl
  | dispatcher =>
    obtain ⟨ready, heq⟩ := wake_eq { s with dispatcher := .running } .dispatch
    rw [rejected, heq]
  | closer ticket =>
    rw [rejected]
    split <;> rfl

theorem begun_accepted (s : Session) (item : Outbound) (sender : Sender) :
    ((s.enqueue item).accepted sender).begun = s.begun := by
  have queued : (s.enqueue item).begun = s.begun := by rw [s.enqueue_toLedger item]; rfl
  rw [← queued]
  cases sender <;> rfl

theorem begun_offer (s : Session) (item : Outbound) (sender : Sender) : (s.offer item sender).begun = s.begun := by
  rw [offer]
  split
  · exact s.begun_rejected sender
  · split
    · exact s.begun_accepted item sender
    · rfl

theorem begun_enter (s : Session) (sender : Sender) : (s.enter sender).begun = s.begun := by
  rw [enter]
  split
  · rfl
  · exact begun_accepted _ _ sender

theorem begun_withdraw (s : Session) (sender : Sender) : (s.withdraw sender).begun = s.begun := by
  rw [withdraw, invite]
  split
  · rfl
  · split
    · rw [Session.wake]
      split <;> rfl
    · rfl

theorem begun_endWriter (s : Session) : s.endWriter.begun = s.begun := by
  have learnt (senders : List Sender) (t : Session) : (senders.foldl Session.rejected t).begun = t.begun := by
    induction senders generalizing t with
    | nil => rfl
    | cons sender senders ih => exact (ih _).trans (t.begun_rejected sender)
  exact learnt _ _

/-- A call takes a number, whether it is refused or not. -/
theorem begun_call (s : Session) (caller : Caller) (method : String) (params : Json) (goal : Goal) :
    (s.call caller method params goal).begun = s.begun + 1 := by
  rw [call]
  split
  · rw [begun_fail]
    rfl
  · rw [begun_offer, begun_update]
    rfl

namespace Calm

theorem refl (s : Session) : s.Calm n s :=
  ⟨.refl _, rfl⟩

theorem trans (h₁ : s.Calm n t) (h₂ : t.Calm n u) : s.Calm n u :=
  ⟨h₁.books.trans h₂.books, h₂.offered.trans h₁.offered⟩

theorem same (books : t.toLedger = s.toLedger) (offers : t.offers = s.offers) : s.Calm n t := by
  refine ⟨books ▸ .refl _, ?_⟩
  rw [Session.offered, offers]
  rfl

theorem note (h : ¬ e.Concerns n) : s.Calm n (s.note e) :=
  ⟨.note h, rfl⟩

theorem wake (s : Session) (task : Task) : s.Calm n (s.wake task) := by
  obtain ⟨ready, heq⟩ := s.wake_eq task
  rw [heq]
  exact same rfl rfl

theorem woken (task : Task) (books : t.toLedger = s.toLedger) (offers : t.offers = s.offers) :
    s.Calm n (t.wake task) :=
  (same books offers).trans (wake t task)

theorem update (h : s.toLedger.Calm n l) : s.Calm n (s.update l) := by
  obtain ⟨ready, heq⟩ := s.update_eq l
  rw [heq]
  exact ⟨h, rfl⟩

theorem enqueue (h : item.isOf n = false) : s.Calm n (s.enqueue item) := by
  have queued : s.Calm n { s with queue := s.queue ++ [item] } := same rfl rfl
  have silent : ¬ (Event.queued item).Concerns n := Bool.eq_false_iff.mp h
  exact (queued.trans (note silent)).trans (wake _ .write)

theorem accepted (h : sender ≠ .call n) : s.Calm n (s.accepted sender) := by
  cases sender with
  | call k => exact ⟨.place fun hk => h (congrArg Sender.call hk), rfl⟩
  | dispatcher => exact same rfl rfl
  | closer ticket => exact refl s

theorem fail (s : Session) (caller : Caller) : s.Calm n (s.fail caller) := by
  cases caller with
  | user ticket => exact note id
  | keepalive k => exact refl s

theorem rejected (h : sender ≠ .call n) : s.Calm n (s.rejected sender) := by
  cases sender with
  | call k =>
    rw [Session.rejected]
    split
    · exact (update (.finish fun hk => h (congrArg Sender.call hk))).trans (fail _ _)
    · exact refl s
  | dispatcher =>
    have running : s.Calm n { s with dispatcher := .running } := same rfl rfl
    exact running.trans (wake _ _)
  | closer ticket =>
    rw [Session.rejected]
    split
    · have fewer : s.Calm n { s with closers := s.closers.filter (· != ticket) } := same rfl rfl
      exact fewer.trans (note id)
    · exact refl s

theorem wait (h : sender ≠ .call n) (hi : item.isOf n = false) : s.Calm n (s.wait item sender) := by
  refine ⟨.refl _, ?_⟩
  simp [Session.offered, offers, Session.wait, List.filter_append, Waiting.concerns, h, hi]

theorem offer (h : sender ≠ .call n) (hi : item.isOf n = false) : s.Calm n (s.offer item sender) := by
  rw [Session.offer]
  split
  · exact rejected h
  · split
    · exact (enqueue hi).trans (accepted h)
    · exact wait h hi

theorem invite (s : Session) : s.Calm n s.invite := by
  rw [Session.invite]
  split
  · exact refl s
  case h_2 w rest first =>
    split
    · -- Whoever is invited keeps its place among those that wait.
      have moved : s.Calm n { s with waiting := rest, invited := s.invited ++ [w] } :=
        same rfl (by simp [offers, first])
      exact moved.trans (wake _ _)
    · exact refl s

theorem respond (s : Session) (r : Response) : s.Calm n (s.respond r) :=
  offer nofun (Outbound.isOf_response r)

theorem complete (s : Session) (r : Response) : s.Calm n (s.complete r) :=
  update (.complete _ r)

theorem close (s : Session) : s.Calm n s.close :=
  update (.close _)

/-! ### Calls -/

/-- Until the ids run out a new call has nothing to do with any other one. -/
theorem call (other : n ≠ s.begun) (hn : n < UInt64.size) (few : s.begun < UInt64.size) :
    s.Calm n (s.call caller method params goal) := by
  rw [Session.call]
  split
  · have refused : s.Calm n { s with toLedger := s.refuse } := ⟨.refuse other, rfl⟩
    exact refused.trans (fail _ _)
  · refine (update (.begin other)).trans (offer (fun same => other (Sender.call.inj same).symm) ?_)
    rw [Outbound.isOf_call, decide_eq_false_iff_not]
    exact fun same => other (Ledger.requestId_inj few hn same).symm

theorem remember (s : Session) (goal : Goal) (result : Except Error Answer) : s.Calm n (s.remember goal result) := by
  rw [Session.remember.eq_def]
  split
  · exact same rfl rfl
  · exact refl s

theorem errand (h : s.Calm n t) : t.errand n = s.errand n := by
  rw [Session.errand, h.books.standing, h.offered, h.books.sent, h.books.results]
  rfl

end Calm
end Session

end Ovsdb
