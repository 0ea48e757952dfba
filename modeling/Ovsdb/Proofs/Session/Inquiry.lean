import Ovsdb.Proofs.Session.Idle
import Ovsdb.Proofs.Session.Pursuit

/-! Users' calls for schemas. Their users are told at once what they end with, and a schema gets into the cache when
    such a call ends with it, and not otherwise. -/

namespace Ovsdb

/-! ### Inquiries -/

/-- A user's call for the schema of a database. -/
structure Inquiry where
  number : Nat
  ticket : Nat
  db : String

/-- The inquiry that a call is, if it is one. -/
def Inquiry.of? (number : Nat) : Caller → Goal → Option Inquiry
  | .user ticket, .schema db => some ⟨number, ticket, db⟩
  | _, _ => none

/-- What a call of a user's asks for, if it asks for a schema. -/
def Call.inquiry? (c : Call) : Option Inquiry :=
  Inquiry.of? c.number c.caller c.goal

/-- The schema that an inquiry ends with, by the name that has been asked for. -/
def Event.fetch? (asked : List Inquiry) : Event → Option (String × DatabaseSchema)
  | .ended n (.ok reply) =>
    match asked.find? (·.number = n), DatabaseSchema.decode reply with
    | some q, .ok schema => some (q.db, schema)
    | _, _ => none
  | _ => none

/-- What the user of an inquiry is told when it ends. -/
def Inquiry.outcome : Except Error Json → Except Error Answer
  | .error e => .error e
  | .ok reply =>
    match DatabaseSchema.decode reply with
    | .ok schema => .ok (.schema schema)
    | .error m => .error (.protocol (.unexpectedReply "get_schema" m))

/-- What the user of a call hears of its end. Nobody hears of the end of an echo. -/
def Caller.hears (result : Except Error Answer) : Caller → List Event
  | .user ticket => [.finished ticket result]
  | .keepalive _ => []

/-- `t` comes from `s`, no inquiry has ended with a schema, and the schemas are as before. -/
structure Session.Barren (asked : List Inquiry) (s t : Session) : Prop where
  schemas : t.schemas = s.schemas
  journal : ∃ events : List Event, t.journal = s.journal ++ events ∧ ∀ e ∈ events, e.fetch? asked = none

/-- The inquiries are those calls that have begun as such, and their users have been told at once what they have ended
    with. -/
structure Ledger.Attends (asked : List Inquiry) (l : Ledger) : Prop where
  standing : ∀ call ∈ l.calls, call.number < l.begun
  ended : ∀ n x, .ended n x ∈ l.journal → n < l.begun
  recent : ∀ q ∈ asked, q.number < l.begun
  once : (asked.map (·.number)).Nodup
  calls : ∀ call ∈ l.calls, ∀ q, q ∈ asked ∧ q.number = call.number ↔ call.inquiry? = some q
  told : ∀ q ∈ asked, Journal.Tells l.journal q.number q.ticket (.schema q.db)

/-- `t` comes from `s`, and is attentive to the inquiries if `s` is. -/
def Session.Minds (asked : List Inquiry) (s t : Session) : Prop :=
  s.toLedger.Attends asked → t.toLedger.Attends asked

section
variable {asked : List Inquiry} {q : Inquiry} {n : Nat} {caller : Caller} {goal : Goal}

theorem Inquiry.of?_eq_some :
    of? n caller goal = some q ↔ q.number = n ∧ caller = .user q.ticket ∧ goal = .schema q.db := by
  obtain ⟨number, ticket, db⟩ := q
  rw [of?.eq_def]
  split
  · simp [eq_comm]
  case h_2 other =>
    refine iff_of_false nofun ?_
    rintro ⟨-, rfl, rfl⟩
    exact other _ _ rfl rfl

theorem Inquiry.find?_number (once : (asked.map (·.number)).Nodup) :
    asked.find? (·.number = n) = some q ↔ q ∈ asked ∧ q.number = n := by
  constructor
  · intro found
    exact ⟨List.mem_of_find?_eq_some found, by simpa using List.find?_some found⟩
  · rintro ⟨hq, rfl⟩
    cases found : asked.find? (·.number = q.number) with
    | none => exact absurd (decide_eq_true rfl) (List.find?_eq_none.mp found q hq)
    | some p =>
      have same : p.number = q.number := by simpa using List.find?_some found
      rw [List.inj_on_of_nodup_map once (List.mem_of_find?_eq_some found) hq same]

theorem Event.fetch?_eq_some (once : (asked.map (·.number)).Nodup) {e : Event} {db : String} {schema : DatabaseSchema} :
    e.fetch? asked = some (db, schema) ↔
      ∃ q ∈ asked, ∃ reply, e = .ended q.number (.ok reply) ∧ q.db = db ∧ DatabaseSchema.decode reply = .ok schema := by
  constructor
  · intro fetched
    rw [fetch?.eq_def] at fetched
    split at fetched
    case h_1 n reply =>
      split at fetched
      case h_1 q schema' found decoded =>
        cases fetched
        obtain ⟨hq, rfl⟩ := (Inquiry.find?_number once).mp found
        exact ⟨q, hq, reply, rfl, rfl, decoded⟩
      case h_2 => cases fetched
    case h_2 => cases fetched
  · rintro ⟨q, hq, reply, rfl, rfl, decoded⟩
    simp only [fetch?, (Inquiry.find?_number once).mpr ⟨hq, rfl⟩, decoded]

theorem Goal.bind_answer_schema (x : Except Error Json) (db : String) :
    (x >>= (Goal.schema db).answer) = Inquiry.outcome x := by
  cases x with
  | error e => rfl
  | ok reply =>
    change (Answer.schema <$> Goal.typed "get_schema" DatabaseSchema.decode reply) = _
    rw [Goal.typed, Inquiry.outcome]
    cases DatabaseSchema.decode reply <;> rfl

/-- While no call goes away, nothing is brought. -/
theorem Event.fetch?_of_left? {e : Event} (h : e.left? = none) : e.fetch? asked = none := by
  cases e with
  | ended => cases h
  | _ => rfl

end

/-! ### Books -/

namespace Ledger
variable {asked : List Inquiry} {l l' l'' : Ledger} {n : Nat} {e : Event} {events : List Event} {caller : Caller}
  {goal : Goal} {call : Call} {x : Except Error Json}

namespace Attends

theorem empty : Attends [] .empty :=
  ⟨nofun, nofun, nofun, .nil, nofun, nofun⟩

/-- Calls that go on, and what is said of them meanwhile. -/
theorem more (h : l.Attends asked) (begun : l'.begun = l.begun) (calls : l.Inherits l')
    (journal : l'.journal = l.journal ++ events) (ended : ∀ n x, .ended n x ∈ events → n < l.begun)
    (told : ∀ q ∈ asked, Journal.Tells events q.number q.ticket (.schema q.db)) : l'.Attends asked where
  standing := by
    intro call hc
    obtain ⟨c, hc, number, -, -⟩ := calls call hc
    exact begun ▸ number ▸ h.standing c hc
  ended := by
    intro n x he
    rw [journal] at he
    exact begun ▸ (List.mem_append.mp he).elim (h.ended n x) (ended n x)
  recent := begun ▸ h.recent
  once := h.once
  calls := by
    intro call hc q
    obtain ⟨c, hc, number, caller, goal⟩ := calls call hc
    rw [Call.inquiry?, number, caller, goal]
    exact h.calls c hc q
  told := fun q hq => journal ▸ (h.told q hq).append (told q hq)

theorem silent (h : l.Attends asked) (begun : l'.begun = l.begun) (calls : l.Inherits l')
    (journal : l'.journal = l.journal ++ events) (silent : ∀ n x, .ended n x ∉ events) : l'.Attends asked :=
  h.more begun calls journal (fun n x he => absurd he (silent n x)) fun q _ => .of_silent (silent q.number)

theorem idle (h : l.Attends asked) (idle : l.Idles l') : l'.Attends asked := by
  obtain ⟨events, said, silent⟩ := idle.journal
  exact h.silent idle.begun idle.calls said fun _ _ he => nomatch silent _ he

theorem abandon (h : l.Attends asked) (n : Nat) : (l.abandon n).Attends asked :=
  h.silent rfl (.forget l n) rfl (by simp)

/-- The user of an inquiry is told what it ends with. -/
theorem tells_end {q : Inquiry} (own : q.number = n → Inquiry.of? n caller goal = some q) (x : Except Error Json) :
    Journal.Tells (.ended n x :: caller.hears (x >>= goal.answer)) q.number q.ticket (.schema q.db) := by
  by_cases hn : q.number = n
  · obtain ⟨rfl, rfl, rfl⟩ := Inquiry.of?_eq_some.mp (own hn)
    exact .ended _ _ _ x
  · refine .of_silent fun y he => ?_
    obtain same | heard := List.mem_cons.mp he
    · exact hn (Event.ended.inj same).1
    · cases caller with
      | user ticket => cases List.mem_singleton.mp heard
      | keepalive k => cases heard

theorem ended_hears {k : Nat} {y : Except Error Json} {answer : Except Error Answer}
    (he : .ended k y ∈ Event.ended n x :: caller.hears answer) : k = n := by
  obtain same | heard := List.mem_cons.mp he
  · exact (Event.ended.inj same).1
  · cases caller with
    | user ticket => cases List.mem_singleton.mp heard
    | keepalive i => cases heard

/-- A call ends, and its user is told. -/
theorem ends (h : l.Attends asked) (hc : call ∈ l.calls) (begun : l'.begun = l.begun) (calls : l.Inherits l')
    (journal : l'.journal = l.journal ++ .ended call.number x :: call.caller.hears (x >>= call.goal.answer)) :
    l'.Attends asked := by
  refine h.more begun calls journal (fun n y he => ?_) fun q hq => ?_
  · exact ended_hears he ▸ h.standing call hc
  · exact tells_end (fun number => (h.calls call hc q).mp ⟨hq, number⟩) x

/-- A call takes its number, and is asked for if it is an inquiry. -/
theorem count (h : l.Attends asked) (caller : Caller) (goal : Goal) :
    l.count.Attends (asked ++ (Inquiry.of? l.begun caller goal).toList) := by
  have new {q : Inquiry} (hq : q ∈ (Inquiry.of? l.begun caller goal).toList) : q.number = l.begun :=
    (Inquiry.of?_eq_some.mp (Option.mem_toList.mp hq)).1
  have later {n : Nat} (hn : n < l.begun) : n < l.count.begun := Nat.lt_succ_of_lt hn
  refine ⟨fun call hc => later (h.standing call hc), ?_, ?_, ?_, ?_, ?_⟩
  · intro n x he
    obtain he | he := List.mem_append.mp he
    · exact later (h.ended n x he)
    · cases List.mem_singleton.mp he
  · intro q hq
    obtain hq | hq := List.mem_append.mp hq
    · exact later (h.recent q hq)
    · exact new hq ▸ Nat.lt_succ_self _
  · rw [List.map_append, List.nodup_append]
    refine ⟨h.once, ?_, ?_⟩
    · cases Inquiry.of? l.begun caller goal <;> simp
    · rintro _ hn _ hk rfl
      obtain ⟨q, hq, number⟩ := List.mem_map.mp hn
      obtain ⟨p, hp, same⟩ := List.mem_map.mp hk
      exact Nat.ne_of_lt (h.recent q hq) (number.trans (same.symm.trans (new hp)))
  · intro call hc q
    rw [← h.calls call hc q, List.mem_append]
    refine and_congr_left fun number => or_iff_left fun hq => ?_
    exact Nat.ne_of_lt (h.standing call hc) (number.symm.trans (new hq))
  · intro q hq
    have called : Journal.Tells [.called l.begun] q.number q.ticket (.schema q.db) := .of_silent (by simp)
    obtain hq | hq := List.mem_append.mp hq
    · exact (h.told q hq).append called
    · refine .append (.of_silent fun x he => ?_) called
      exact Nat.ne_of_lt (h.ended _ x he) (new hq)

theorem begin (h : l.Attends asked) (caller : Caller) (goal : Goal) :
    (l.begin caller goal).Attends (asked ++ (Inquiry.of? l.begun caller goal).toList) := by
  have counted := (h.count caller goal).idle
    (.answer _ (l.count.pendingWith (requestId l.begun)) (.error .connectionClosed))
  refine ⟨?_, counted.ended, counted.recent, counted.once, ?_, counted.told⟩
  · intro call hc
    obtain hc | hc := List.mem_append.mp hc
    · exact counted.standing call hc
    · exact List.mem_singleton.mp hc ▸ Nat.lt_succ_self _
  · intro call hc q
    obtain hc | hc := List.mem_append.mp hc
    · exact counted.calls call hc q
    · rw [List.mem_singleton.mp hc]
      -- The new call is not among those that have been asked for before.
      constructor
      · rintro ⟨hq, number⟩
        obtain hq | hq := List.mem_append.mp hq
        · exact absurd number (Nat.ne_of_lt (h.recent q hq))
        · exact Option.mem_toList.mp hq
      · intro own
        exact ⟨List.mem_append_right _ (Option.mem_toList.mpr own), (Inquiry.of?_eq_some.mp own).1⟩

/-- A call on a closed session ends at once. -/
theorem refuse (h : l.Attends asked) (caller : Caller) (goal : Goal) (begun : l'.begun = l.begun + 1)
    (calls : l'.calls = l.calls) (journal : l'.journal =
      l.refuse.journal ++ caller.hears (.error .connectionClosed)) :
    l'.Attends (asked ++ (Inquiry.of? l.begun caller goal).toList) := by
  have said : l'.journal = l.count.journal ++
      .ended l.begun (.error .connectionClosed) :: caller.hears (.error .connectionClosed) :=
    journal.trans (List.append_assoc _ _ _)
  refine (h.count caller goal).more begun (.same calls) said (fun n y he => ?_) fun q hq => ?_
  · exact ended_hears he ▸ Nat.lt_succ_self _
  · have own (number : q.number = l.begun) : Inquiry.of? l.begun caller goal = some q := by
      obtain hq | hq := List.mem_append.mp hq
      · exact absurd number (Nat.ne_of_lt (h.recent q hq))
      · exact Option.mem_toList.mp hq
    exact tells_end own (.error .connectionClosed)

end Attends
end Ledger

/-! ### Sessions -/

namespace Session
variable {asked : List Inquiry} {s t u : Session} {l : Ledger} {e : Event} {sender : Sender} {item : Outbound}
  {R : Session → Session → Prop}

/-- A call that is there when the writer has ended fails, and its user is told. -/
theorem rejected_cases (s : Session) (n : Nat) : s.rejected (.call n) = s ∨
    ∃ call ∈ s.calls, call.number = n ∧ ∃ ready, s.rejected (.call n) =
      { s with toLedger := s.finish n (.error .connectionClosed), ready := ready }.fail call.caller := by
  rw [rejected]
  split
  case h_1 call found =>
    obtain ⟨ready, heq⟩ := s.update_eq (s.finish n (.error .connectionClosed))
    have itself : call.number = n := by simpa using List.find?_some found
    exact .inr ⟨call, List.mem_of_find?_eq_some found, itself, ready, by rw [heq]⟩
  case h_2 => exact .inl rfl

theorem fail_eq (s : Session) (caller : Caller) : s.fail caller =
    { s with journal := s.journal ++ caller.hears (.error .connectionClosed) } := by
  cases caller with
  | user ticket => rfl
  | keepalive k => exact congrArg (fun journal => { s with journal := journal }) (List.append_nil _).symm

/-! ### What fails -/

namespace Barren

theorem idle (h : s.Idles t) : s.Barren asked t := by
  obtain ⟨events, said, silent⟩ := h.books.journal
  exact ⟨h.schemas, events, said, fun e he => Event.fetch?_of_left? (silent e he)⟩

theorem trans (h₁ : s.Barren asked t) (h₂ : t.Barren asked u) : s.Barren asked u := by
  obtain ⟨events, said, barren⟩ := h₁.journal
  obtain ⟨more, said', barren'⟩ := h₂.journal
  refine ⟨h₂.schemas.trans h₁.schemas, events ++ more, ?_, List.forall_mem_append.mpr ⟨barren, barren'⟩⟩
  rw [said', said, List.append_assoc]

theorem note (h : e.fetch? asked = none) : s.Barren asked (s.note e) :=
  ⟨rfl, [e], rfl, List.forall_mem_singleton.mpr h⟩

theorem update {events : List Event} (journal : l.journal = s.journal ++ events)
    (barren : ∀ e ∈ events, e.fetch? asked = none) : s.Barren asked (s.update l) := by
  obtain ⟨ready, heq⟩ := s.update_eq l
  rw [heq]
  exact ⟨rfl, events, journal, barren⟩

theorem fail (s : Session) (caller : Caller) : s.Barren asked (s.fail caller) := by
  cases caller with
  | user ticket => exact note rfl
  | keepalive k => exact idle (.refl s)

theorem rejected (s : Session) (n : Nat) : s.Barren asked (s.rejected (.call n)) := by
  rw [Session.rejected]
  split
  · exact (update rfl (List.forall_mem_singleton.mpr rfl)).trans (fail _ _)
  · exact idle (.refl s)

/-- A call begins, or fails at once. -/
theorem call (s : Session) (caller : Caller) (method : String) (params : Json) (goal : Goal) :
    s.Barren asked (s.call caller method params goal) := by
  rw [Session.call]
  split
  · have refused : s.Barren asked { s with toLedger := s.refuse } := by
      refine ⟨rfl, [.called s.begun, .ended s.begun (.error .connectionClosed)], List.append_assoc _ _ _, ?_⟩
      simp [Event.fetch?]
    exact refused.trans (fail _ _)
  · have began : s.Barren asked (s.update (s.begin caller goal)) := update rfl (List.forall_mem_singleton.mpr rfl)
    obtain same | idles := (s.update (s.begin caller goal)).offer_cases
      (.frame (Request.call method params (requestId s.begun)).toJson) s.begun
    · exact same ▸ began.trans (rejected _ _)
    · exact began.trans (idle idles)

theorem invoke (s : Session) (ticket : Nat) (i : Invocation) : s.Barren asked (s.invoke ticket i) := by
  rw [Session.invoke]
  split
  · exact call s _ _ _ _
  · exact note rfl

end Barren

theorem barren (asked : List Inquiry) : Lasting.Thorough (Barren asked) :=
  thorough_of_idles .idle .trans .rejected
    (fun _ _ => .update rfl (List.forall_mem_singleton.mpr rfl)) fun s _ => .call s _ _ _ _

/-! ### What inquiries come to -/

theorem Minds.idle (h : s.Idles t) : s.Minds asked t :=
  fun hs => hs.idle h.books

theorem Minds.trans (h₁ : s.Minds asked t) (h₂ : t.Minds asked u) : s.Minds asked u :=
  h₂ ∘ h₁

theorem Minds.rejected (s : Session) (n : Nat) : s.Minds asked (s.rejected (.call n)) := by
  intro hs
  obtain same | ⟨call, hc, rfl, ready, heq⟩ := s.rejected_cases n
  · exact same.symm ▸ hs
  · rw [heq, fail_eq]
    exact hs.ends hc rfl (.forget _ _) (List.append_assoc _ _ _)

/-- A call is asked for from its beginning if it is an inquiry. -/
theorem attends_call (hs : s.toLedger.Attends asked) (caller : Caller) (method : String) (params : Json) (goal : Goal) :
    (s.call caller method params goal).Attends (asked ++ (Inquiry.of? s.begun caller goal).toList) := by
  rw [Session.call]
  split
  · rw [fail_eq]
    exact hs.refuse caller goal rfl rfl rfl
  · have began := hs.begin caller goal
    obtain ⟨ready, heq⟩ := s.update_eq (s.begin caller goal)
    rw [heq]
    obtain same | idles := Session.offer_cases { s with toLedger := s.begin caller goal, ready := ready }
      (.frame (Request.call method params (requestId s.begun)).toJson) s.begun
    · exact same ▸ Minds.rejected _ _ began
    · exact Minds.idle idles began

theorem minding (asked : List Inquiry) : Lasting.Thorough (Minds asked) :=
  thorough_of_idles .idle .trans .rejected
    (fun s n hs => by
      obtain ⟨ready, heq⟩ := s.update_eq (s.toLedger.abandon n)
      rw [heq]
      exact hs.abandon n)
    fun s k hs => by simpa [Inquiry.of?] using attends_call hs (.keepalive k) "echo" (.arr []) .value

/-! ### Calls that end -/

theorem remember_of_ne {goal : Goal} (other : ∀ db, goal ≠ .schema db) (s : Session) (result : Except Error Answer) :
    s.remember goal result = s := by
  rw [remember.eq_def]
  split
  case h_1 db _ => exact absurd rfl (other db)
  case h_2 => rfl

/-- The result of a call is told its user, and is remembered if it is a schema. -/
theorem conclude_cases (s : Session) (n now : Nat) : s.conclude n now = s ∨
    ∃ call ∈ s.calls, call.number = n ∧ ∃ reply ready, s.conclude n now =
      { s with toLedger := s.finish n reply, ready := ready }.report call.caller call.goal now
        (reply >>= call.goal.answer) := by
  rw [conclude]
  split
  case h_1 number caller goal queued reply found =>
    obtain ⟨ready, heq⟩ := s.update_eq (s.finish n reply)
    obtain ⟨rfl, -⟩ : number = n ∧ queued = true := by simpa using List.find?_some found
    exact .inr ⟨_, List.mem_of_find?_eq_some found, rfl, reply, ready, by rw [heq]⟩
  case h_2 => exact .inl rfl

theorem Minds.conclude (s : Session) (n now : Nat) : s.Minds asked (s.conclude n now) := by
  intro hs
  obtain same | ⟨⟨_, caller, goal, queued, slot⟩, hc, rfl, reply, ready, heq⟩ := s.conclude_cases n now
  · exact same.symm ▸ hs
  · rw [heq]
    cases caller with
    | user ticket =>
      obtain ⟨schemas, remembered⟩ := Session.remember_eq
        { s with toLedger := s.finish _ reply, ready := ready } goal (reply >>= goal.answer)
      rw [report, remembered]
      exact hs.ends hc rfl (.forget _ _) (List.append_assoc _ _ _)
    | keepalive k =>
      exact (minding asked).report_keepalive _ k goal now _ (hs.ends hc rfl (.forget _ _) rfl)

/-- `t` comes from `s` by the end of an inquiry with a schema, which is put into the cache by the name that has been
    asked for. No other call goes away. -/
def Brings (asked : List Inquiry) (s t : Session) : Prop :=
  ∃ q ∈ asked, ∃ reply schema rest, DatabaseSchema.decode reply = .ok schema ∧
    t.schemas = s.schemas.insert q.db schema ∧
    t.journal = s.journal ++ .ended q.number (.ok reply) :: .finished q.ticket (.ok (.schema schema)) :: rest ∧
    ∀ e ∈ rest, e.left? = none

theorem Brings.idle (h : s.Brings asked t) (idle : t.Idles u) : s.Brings asked u := by
  obtain ⟨q, hq, reply, schema, rest, decoded, cached, said, silent⟩ := h
  obtain ⟨events, more, silent'⟩ := idle.books.journal
  refine ⟨q, hq, reply, schema, rest ++ events, decoded, idle.schemas.trans cached, ?_, ?_⟩
  · rw [more, said, List.append_assoc]
    rfl
  · exact List.forall_mem_append.mpr ⟨silent, silent'⟩

/-- A call ends with a schema for the cache, or brings nothing. -/
theorem conclude_brings (hs : s.toLedger.Attends asked) (n now : Nat) :
    s.Barren asked (s.conclude n now) ∨ s.Brings asked (s.conclude n now) := by
  obtain same | ⟨call, hc, rfl, reply, ready, heq⟩ := s.conclude_cases n now
  · exact .inl (same.symm ▸ .idle (.refl s))
  have own := hs.calls call hc
  rw [heq]
  let ended : Session := { s with toLedger := s.finish call.number reply, ready := ready }
  have fails (barren : (Event.ended call.number reply).fetch? asked = none) : s.Barren asked ended :=
    ⟨rfl, _, rfl, List.forall_mem_singleton.mpr barren⟩
  cases inquiry : call.inquiry? with
  | none =>
    -- The call does not ask for a schema, and its number is nobody else's, so that its end tells of none.
    have unasked : asked.find? (·.number = call.number) = none := by
      refine List.find?_eq_none.mpr fun q hq number => ?_
      cases inquiry.symm.trans ((own q).mp ⟨hq, of_decide_eq_true number⟩)
    have barren := fails (by cases reply <;> simp [Event.fetch?, unasked])
    left
    cases caller : call.caller with
    | user ticket =>
      have other (db : String) : call.goal ≠ .schema db := by
        intro goal
        rw [Call.inquiry?, caller, goal] at inquiry
        cases inquiry
      rw [report, remember_of_ne other]
      exact barren.trans (.note rfl)
    | keepalive k => exact barren.trans ((Session.barren asked).report_keepalive _ k _ now _)
  | some q =>
    obtain ⟨number, user, goal⟩ := Inquiry.of?_eq_some.mp inquiry
    rw [user, goal, report, Goal.bind_answer_schema]
    cases reply with
    | error e => exact .inl ((fails rfl).trans (.note rfl))
    | ok result =>
      rw [Inquiry.outcome]
      cases decoded : DatabaseSchema.decode result with
      | error m =>
        left
        refine (fails ?_).trans (.note rfl)
        simp [Event.fetch?, decoded]
      | ok schema =>
        right
        refine ⟨q, ((own q).mpr inquiry).1, result, schema, [], decoded, rfl, ?_, List.forall_mem_nil _⟩
        rw [number]
        exact List.append_assoc _ _ _

end Session
end Ovsdb
