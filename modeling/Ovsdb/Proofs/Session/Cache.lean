import Ovsdb.Proofs.Json.Members
import Ovsdb.Proofs.Session.Inquiry
import Ovsdb.Proofs.Session.Steps

/-! The schema cache, in every run: it holds for each database the schema that the latest inquiry with success has ended
    with, and an inquiry that comes to nothing leaves both the cache and the session alone. -/

namespace Ovsdb

/-! ### Asking -/

/-- The inquiry that an invocation is, if it is one. -/
def Invocation.inquiry? (number ticket : Nat) : Invocation → Option Inquiry
  | .getSchema db => some ⟨number, ticket, db⟩
  | _ => none

namespace Client

/-- The inquiry that begins on session `i` with an action. -/
def inquiry? (c : Client) (i : Nat) : Action → Option Inquiry
  | .invoke j ticket invocation =>
    if j = i then c.sessions[i]?.bind fun s => invocation.inquiry? s.begun ticket else none
  | _ => none

/-- The inquiries that begin on session `i` in a run. -/
def inquiries (c : Client) (i : Nat) : List Action → List Inquiry
  | [] => []
  | a :: actions => (c.inquiry? i a).toList ++ (c.step a).inquiries i actions

end Client

namespace Invocation
variable {i : Invocation} {method : String} {params : Json} {goal : Goal} {result : Except Error Answer}

theorem inquiry?_of_request (h : i.prepare = .request method params goal) (n ticket : Nat) :
    Inquiry.of? n (.user ticket) goal = i.inquiry? n ticket := by
  cases i with
  | transact db operations =>
    cases operations with
    | nil => cases h
    | cons o operations =>
      simp only [prepare] at h
      split at h <;> cases h
      rfl
  | _ => cases h; rfl

theorem inquiry?_of_settled (h : i.prepare = .settled result) (n ticket : Nat) : i.inquiry? n ticket = none := by
  cases i with
  | getSchema db => cases h
  | _ => rfl

end Invocation

theorem Session.attends_invoke {asked : List Inquiry} {s : Session} (hs : s.toLedger.Attends asked) (ticket : Nat)
    (i : Invocation) : (s.invoke ticket i).Attends (asked ++ (i.inquiry? s.begun ticket).toList) := by
  rw [invoke]
  split
  case h_1 method params goal request =>
    rw [← Invocation.inquiry?_of_request request]
    exact attends_call hs _ method params goal
  case h_2 result settled =>
    rw [Invocation.inquiry?_of_settled settled, Option.toList_none, List.append_nil]
    exact Minds.idle (.note rfl) hs

namespace Client
variable {c : Client} {i : Nat} {s t u : Session} {a : Action} {asked : List Inquiry} {R : Session → Session → Prop}

theorem inquiry?_number (hs : c.sessions[i]? = some s) {q : Inquiry} (hq : q ∈ (c.inquiry? i a).toList) :
    q.number = s.begun := by
  have asked := Option.mem_toList.mp hq
  rw [inquiry?.eq_def] at asked
  split at asked
  case h_1 j ticket invocation =>
    split at asked
    · rw [hs, Option.bind_some] at asked
      cases invocation <;> cases asked
      rfl
    · cases asked
  case h_2 => cases asked

theorem inquiries_concat (c : Client) (i : Nat) (actions : List Action) (a : Action) :
    c.inquiries i (actions ++ [a]) = c.inquiries i actions ++ ((c.run actions).inquiry? i a).toList := by
  induction actions generalizing c with
  | nil => exact List.append_nil _
  | cons b actions ih =>
    rw [List.cons_append, inquiries, ih, ← List.append_assoc]
    rfl

/-- Nobody asks a session that is not there yet. -/
theorem inquiry?_of_missing (missing : c.sessions[i]? = none) : c.inquiry? i a = none := by
  rw [inquiry?.eq_def]
  split
  · rw [missing, Option.bind_none, ite_self]
  · rfl

theorem inquiries_of_missing (actions : List Action) (missing : (initial.run actions).sessions[i]? = none) :
    initial.inquiries i actions = [] := by
  induction actions using List.reverseRecOn with
  | nil => rfl
  | append_singleton actions a ih =>
    rw [run_concat] at missing
    have before : (initial.run actions).sessions[i]? = none := by
      cases hs : (initial.run actions).sessions[i]? with
      | none => rfl
      | some s =>
        obtain ⟨t, ht, -⟩ := ((Invariant.initial.run actions).steps a).2.sessions i s hs
        cases missing.symm.trans ht
    rw [inquiries_concat, ih before, inquiry?_of_missing before]
    rfl

/-! ### Steps -/

/-- A step keeps a session to a relation if the beginning and the end of the session's calls do. -/
theorem Invariant.keeps_own (h : c.Invariant) (thorough : Session.Lasting.Thorough R) (hs : c.sessions[i]? = some s)
    (ht : (c.step a).sessions[i]? = some t)
    (invoke : ∀ ticket invocation, a = .invoke i ticket invocation → R s (s.invoke ticket invocation))
    (conclude : ∀ k, a = .task i (.call k) → R s (s.conclude k c.now)) : R s t := by
  have own {j : Nat} {s' : Session} (hj : j = i) (hs' : c.sessions[j]? = some s') : s' = s :=
    Option.some.inj ((hj ▸ hs').symm.trans hs)
  by_cases other : ∃ j, Action.session? a = some j ∧ i ≠ j
  · obtain ⟨j, ha, hj⟩ := other
    rw [h.others ha hj, hs] at ht
    cases ht
    exact thorough.refl s
  · have itself (j : Nat) (ha : Action.session? a = some j) : j = i :=
      Decidable.byContradiction fun hj => other ⟨j, ha, Ne.symm hj⟩
    obtain ⟨t', ht', kept⟩ := thorough.keeps_step c a
      (fun j ticket invocation heq s' hs' => by
        obtain rfl := itself j (heq ▸ rfl)
        exact own rfl hs' ▸ invoke ticket invocation heq)
      (fun j k heq s' hs' => by
        obtain rfl := itself j (heq ▸ rfl)
        exact own rfl hs' ▸ conclude k heq) i s hs
    cases ht.symm.trans ht'
    exact kept

/-- Whoever begins to ask is attended to from then on. -/
theorem Invariant.attends_step (h : c.Invariant) (hs : c.sessions[i]? = some s) (attends : s.toLedger.Attends asked)
    (ht : (c.step a).sessions[i]? = some t) : t.toLedger.Attends (asked ++ (c.inquiry? i a).toList) := by
  by_cases asks : ∃ ticket invocation, a = .invoke i ticket invocation
  · obtain ⟨ticket, invocation, rfl⟩ := asks
    have inquiry : c.inquiry? i (.invoke i ticket invocation) = invocation.inquiry? s.begun ticket := by
      simp [inquiry?, hs]
    obtain ⟨t', ht', minds⟩ := (Session.minding (asked ++ (invocation.inquiry? s.begun ticket).toList)).keeps_release
      (c.modify i (·.invoke ticket invocation)) i i _ (sessions_modify_self hs _)
    cases ht.symm.trans ht'
    exact inquiry ▸ minds (Session.attends_invoke attends ticket invocation)
  · have nothing : c.inquiry? i a = none := by
      rw [inquiry?.eq_def]
      split
      case h_1 j ticket invocation => exact if_neg fun same => asks ⟨ticket, invocation, by rw [same]⟩
      case h_2 => rfl
    rw [nothing, Option.toList_none, List.append_nil]
    exact h.keeps_own (Session.minding asked) hs ht (fun ticket invocation heq => absurd ⟨_, _, heq⟩ asks)
      (fun k _ => .conclude s k c.now) attends

/-- A step puts at most one schema into the cache of a session, when an inquiry ends with it. -/
theorem Invariant.brings_step (h : c.Invariant) (hs : c.sessions[i]? = some s) (attends : s.toLedger.Attends asked)
    (ht : (c.step a).sessions[i]? = some t) :
    s.Barren (asked ++ (c.inquiry? i a).toList) t ∨ s.Brings (asked ++ (c.inquiry? i a).toList) t := by
  by_cases turn : ∃ k, a = .task i (.call k)
  · obtain ⟨k, rfl⟩ := turn
    obtain ⟨u, hu, turned⟩ : ∃ u, (c.perform i (.call k)).sessions[i]? = some u ∧
        (s.Barren asked u ∨ s.Brings asked u) := by
      simp only [perform, hs]
      split
      · refine ⟨_, sessions_modify_self hs _, ?_⟩
        rw [proceed]
        split
        · exact .inl (.idle (.enter s _))
        · exact Session.conclude_brings attends k c.now
      · exact ⟨_, sessions_modify_self hs _, .inl (.idle (.same rfl rfl))⟩
    obtain ⟨t', ht', idle⟩ := Session.idling.keeps_release (c.perform i (.call k)) i i u hu
    cases ht.symm.trans ht'
    have nothing : c.inquiry? i (.task i (.call k)) = none := rfl
    rw [nothing, Option.toList_none, List.append_nil]
    exact turned.imp (·.trans (.idle idle)) (·.idle idle)
  · exact .inl (h.keeps_own (Session.barren _) hs ht (fun ticket invocation _ => .invoke s ticket invocation)
      fun k heq => absurd ⟨k, heq⟩ turn)

end Client

/-! ### The cache -/

namespace Journal
variable {asked new : List Inquiry} {journal : List Event}

/-- The schemas that inquiries have ended with, in order. -/
def fetched (asked : List Inquiry) (journal : List Event) : List (String × DatabaseSchema) :=
  journal.filterMap (·.fetch? asked)

/-- What has ended before an inquiry begins is none of its ends. -/
theorem fetched_append_asked (later : ∀ n x, .ended n x ∈ journal → ∀ q ∈ new, q.number ≠ n) :
    fetched (asked ++ new) journal = fetched asked journal := by
  refine List.filterMap_congr fun e he => ?_
  rw [Event.fetch?.eq_def, Event.fetch?.eq_def]
  split
  case h_1 n reply =>
    have none : new.find? (·.number = n) = none :=
      List.find?_eq_none.mpr fun q hq same => later n _ he q hq (of_decide_eq_true same)
    rw [List.find?_append, none, Option.or_none]
  case h_2 => rfl

end Journal

/-- A session attends to the inquiries, and its cache holds what they have brought. -/
structure Session.Informed (asked : List Inquiry) (s : Session) : Prop where
  attends : s.toLedger.Attends asked
  cached : s.schemas = .ofList (Journal.fetched asked s.journal)

namespace Client
variable {c : Client} {i : Nat} {s t u : Session} {a : Action} {asked : List Inquiry}

theorem Invariant.informed_step (h : c.Invariant) (hs : c.sessions[i]? = some s) (informed : s.Informed asked)
    (ht : (c.step a).sessions[i]? = some t) : t.Informed (asked ++ (c.inquiry? i a).toList) := by
  have attends := h.attends_step hs informed.attends ht
  have before : Journal.fetched (asked ++ (c.inquiry? i a).toList) s.journal = Journal.fetched asked s.journal := by
    refine Journal.fetched_append_asked fun n x he q hq same => ?_
    exact Nat.ne_of_gt (informed.attends.ended n x he) ((inquiry?_number hs hq).symm.trans same)
  refine ⟨attends, ?_⟩
  obtain barren | ⟨q, hq, reply, schema, rest, decoded, cached, said, silent⟩ := h.brings_step hs informed.attends ht
  · obtain ⟨events, said, nothing⟩ := barren.journal
    rw [barren.schemas, informed.cached, said, Journal.fetched, Journal.fetched, List.filterMap_append,
      List.filterMap_eq_nil_iff.mpr nothing, List.append_nil, ← Journal.fetched, ← Journal.fetched, before]
  · have brought := (Event.fetch?_eq_some attends.once).mpr ⟨q, hq, reply, rfl, rfl, decoded⟩
    have nothing : rest.filterMap (·.fetch? (asked ++ (c.inquiry? i a).toList)) = [] :=
      List.filterMap_eq_nil_iff.mpr fun e he => Event.fetch?_of_left? (silent e he)
    rw [cached, informed.cached, said, ← before, Journal.fetched, Journal.fetched, List.filterMap_append,
      List.filterMap_cons_some brought, List.filterMap_cons_none rfl, nothing]
    exact (Dict.ofList_concat (s.journal.filterMap (·.fetch? (asked ++ (c.inquiry? i a).toList))) (q.db, schema)).symm

theorem informed_run (actions : List Action) (hs : (initial.run actions).sessions[i]? = some s) :
    s.Informed (initial.inquiries i actions) := by
  induction actions using List.reverseRecOn generalizing s with
  | nil => cases hs
  | append_singleton actions a ih =>
    have reached := Invariant.initial.run actions
    have after : ((initial.run actions).step a).sessions[i]? = some s := run_concat initial actions a ▸ hs
    cases hr : (initial.run actions).sessions[i]? with
    | some r =>
      rw [inquiries_concat]
      exact reached.informed_step hr (ih hr) after
    | none =>
      rcases (reached.steps a).2.origin i s after with ⟨r, there, -⟩ | ⟨_, _, _, rfl⟩
      · cases hr.symm.trans there
      · rw [inquiries_concat, inquiries_of_missing actions hr, inquiry?_of_missing hr]
        exact ⟨.empty, rfl⟩

/-- A message that comes in closes no session. -/
theorem Invariant.heard_step (h : c.Invariant) (hs : c.sessions[i]? = some s) (ht : (c.step a).sessions[i]? = some t)
    {events : List Event} (said : t.journal = s.journal ++ events) {m : Json} (heard : .received m ∈ events) :
    t.state = s.state := by
  obtain ⟨t', ht', stepped⟩ := (h.steps a).2.sessions i s hs
  cases ht.symm.trans ht'
  cases stepped.books with
  | turns turns =>
    obtain ⟨others, said', silent⟩ := Ledger.journal_turns turns
    exact absurd (List.append_cancel_left (said.symm.trans said') ▸ heard) (silent m)
  | message m told => exact told.state.trans (Ledger.receive_state m _)

end Client

/-! ### The last good schema -/

/-- An inquiry comes to nothing: it ends with an error or with a reply that is no schema, or its user gives it up. -/
inductive Inquiry.Fails (q : Inquiry) : Event → Prop where
  | error (e : Error) : Fails q (.ended q.number (.error e))
  | undecodable {reply : Json} {m : Mismatch} (h : DatabaseSchema.decode reply = .error m) :
    Fails q (.ended q.number (.ok reply))
  | abandoned : Fails q (.abandoned q.number)

/-- An inquiry for a database has ended with a schema. -/
def Journal.Fetches (asked : List Inquiry) (journal : List Event) (db : String) (schema : DatabaseSchema) : Prop :=
  ∃ q ∈ asked, ∃ reply, .ended q.number (.ok reply) ∈ journal ∧ q.db = db ∧ DatabaseSchema.decode reply = .ok schema

/-- What a session has made of the inquiries that have begun on it. -/
structure Session.Caches (asked : List Inquiry) (s : Session) : Prop where
  /-- The cache holds what the user of the latest inquiry with a schema has been told, by the name asked for. -/
  latest : ∀ db schema, s.schemas.find? db = some schema ↔ ∃ before q reply after,
    s.journal = before ++ .ended q.number (.ok reply) :: .finished q.ticket (.ok (.schema schema)) :: after ∧
      q ∈ asked ∧ q.db = db ∧ DatabaseSchema.decode reply = .ok schema ∧
      ∀ later, ¬ Journal.Fetches asked after db later
  missing : ∀ db, s.schemas.find? db = none ↔ ∀ schema, ¬ Journal.Fetches asked s.journal db schema
  told : ∀ q ∈ asked, ∀ before x after, s.journal = before ++ .ended q.number x :: after →
    ∃ rest, after = .finished q.ticket (Inquiry.outcome x) :: rest

/-- What a step makes of the schemas of session `i`, in view of what it takes down. -/
structure Session.Learns (asked : List Inquiry) (a : Action) (i : Nat) (s t : Session) (events : List Event) :
    Prop where
  journal : t.journal = s.journal ++ events
  /-- The cache stays as it is, or one inquiry ends with a schema, which is put in by the name that was asked for. -/
  schemas : t.schemas = s.schemas ∨ s.Brings asked t
  /-- An inquiry that comes to nothing leaves the cache as it is, and the session open unless its connection is closed:
      nobody holds it any more, or the writer finds that the server is gone. -/
  failed : ∀ q ∈ asked, ∀ e ∈ events, q.Fails e → t.schemas = s.schemas ∧ (s.state = .opened →
    t.state = .opened ∨ t.holders = 0 ∨ a = .task i .write ∧ s.stream.serverPresent = false)
  heard : ∀ m, .received m ∈ events → t.state = s.state

namespace Inquiry.Fails
variable {asked : List Inquiry} {q : Inquiry} {e : Event}

theorem left? (h : q.Fails e) : e.left? = some q.number := by
  cases h <;> rfl

/-- What fails brings nothing. -/
theorem fetch? (h : q.Fails e) : e.fetch? asked = none := by
  cases h with
  | undecodable failed => simp [Event.fetch?, failed]
  | _ => rfl

end Inquiry.Fails

namespace Journal
variable {asked : List Inquiry} {journal : List Event} {db : String} {schema : DatabaseSchema}

theorem mem_fetched (once : (asked.map (·.number)).Nodup) :
    (db, schema) ∈ fetched asked journal ↔ Fetches asked journal db schema := by
  rw [fetched, List.mem_filterMap]
  constructor
  · rintro ⟨e, he, brought⟩
    obtain ⟨q, hq, reply, rfl, named, decoded⟩ := (Event.fetch?_eq_some once).mp brought
    exact ⟨q, hq, reply, he, named, decoded⟩
  · rintro ⟨q, hq, reply, he, named, decoded⟩
    exact ⟨_, he, (Event.fetch?_eq_some once).mpr ⟨q, hq, reply, rfl, named, decoded⟩⟩

/-- What is kept of all that has been brought is the latest for each name. -/
theorem find?_fetched : (Dict.ofList (fetched asked journal)).find? db = some schema ↔ ∃ before e after,
    journal = before ++ e :: after ∧ e.fetch? asked = some (db, schema) ∧
      ∀ later, (db, later) ∉ fetched asked after := by
  rw [Dict.find?_ofList_eq_some]
  constructor
  · rintro ⟨before, key, after, split, rfl, others⟩
    obtain ⟨first, rest, rfl, rfl, ahead⟩ := List.filterMap_eq_append_iff.mp split
    obtain ⟨silent, e, behind, rfl, -, brought, rfl⟩ := List.filterMap_eq_cons_iff.mp ahead
    exact ⟨first ++ silent, e, behind, (List.append_assoc _ _ _).symm, brought, fun later mem => others _ mem rfl⟩
  · rintro ⟨before, e, after, rfl, brought, others⟩
    refine ⟨fetched asked before, db, fetched asked after, ?_, rfl, ?_⟩
    · rw [fetched, List.filterMap_append, List.filterMap_cons_some brought]
      rfl
    · rintro ⟨_, later⟩ mem rfl
      exact others later mem

end Journal

theorem Session.Informed.caches {asked : List Inquiry} {s : Session} (h : s.Informed asked) : s.Caches asked where
  latest := by
    intro db schema
    rw [h.cached, Journal.find?_fetched]
    constructor
    · rintro ⟨before, e, after, split, brought, others⟩
      obtain ⟨q, hq, reply, rfl, named, decoded⟩ := (Event.fetch?_eq_some h.attends.once).mp brought
      obtain ⟨rest, rfl⟩ := h.attends.told q hq before _ after split
      rw [Goal.bind_answer_schema, Inquiry.outcome, decoded] at split
      refine ⟨before, q, reply, rest, split, hq, named, decoded, fun later fetches => ?_⟩
      have there : (db, later) ∈ Journal.fetched asked rest := (Journal.mem_fetched h.attends.once).mpr fetches
      exact others later there
    · rintro ⟨before, q, reply, after, split, hq, named, decoded, others⟩
      refine ⟨before, _, _, split, (Event.fetch?_eq_some h.attends.once).mpr ⟨q, hq, reply, rfl, named, decoded⟩, ?_⟩
      intro later mem
      have there : (db, later) ∈ Journal.fetched asked after := mem
      exact others later ((Journal.mem_fetched h.attends.once).mp there)
  missing := by
    intro db
    rw [h.cached, Dict.find?_ofList_eq_none]
    constructor
    · exact fun others schema fetches => others _ ((Journal.mem_fetched h.attends.once).mpr fetches) rfl
    · rintro none ⟨_, schema⟩ mem rfl
      exact none schema ((Journal.mem_fetched h.attends.once).mp mem)
  told := by
    intro q hq before x after split
    obtain ⟨rest, told⟩ := h.attends.told q hq before x after split
    exact ⟨rest, Goal.bind_answer_schema x q.db ▸ told⟩

/-- Where an inquiry brings a schema, none fails. -/
theorem Session.Brings.not_fails {asked : List Inquiry} {s t : Session} {events : List Event} (h : s.Brings asked t)
    (once : (asked.map (·.number)).Nodup) (said : t.journal = s.journal ++ events) {q : Inquiry} {e : Event}
    (he : e ∈ events) : ¬ q.Fails e := by
  intro fails
  obtain ⟨p, hp, reply, schema, rest, decoded, -, said', silent⟩ := h
  have same := List.append_cancel_left (said.symm.trans said')
  subst same
  have left := fails.left?
  obtain rfl | he := List.mem_cons.mp he
  · cases fails.fetch?.symm.trans ((Event.fetch?_eq_some once).mpr ⟨p, hp, reply, rfl, rfl, decoded⟩)
  · obtain rfl | he := List.mem_cons.mp he
    · cases left
    · cases (silent e he).symm.trans left

namespace Client
variable {c : Client} {i : Nat} {s t : Session} {a : Action} {asked : List Inquiry}

theorem Invariant.learns_step (h : c.Invariant) (hs : c.sessions[i]? = some s) (informed : s.Informed asked)
    (ht : (c.step a).sessions[i]? = some t) :
    ∃ events, s.Learns (asked ++ (c.inquiry? i a).toList) a i t events := by
  obtain ⟨t', ht', stepped⟩ := (h.steps a).2.sessions i s hs
  cases ht.symm.trans ht'
  obtain ⟨events, said⟩ := Ledger.step_journal stepped.books
  have brings := h.brings_step hs informed.attends ht
  have once := (h.attends_step hs informed.attends ht).once
  refine ⟨events, said, brings.imp_left (·.schemas), fun q hq e he fails => ⟨?_, fun opened => ?_⟩, ?_⟩
  · exact brings.elim (·.schemas) fun brings => absurd fails (brings.not_fails once said he)
  · cases state : t.state with
    | opened => exact .inl rfl
    | closed =>
      right
      refine (h.closes_step hs ht opened state).resolve_left fun idle => ?_
      obtain ⟨others, said', silent⟩ := idle.books.journal
      have same := List.append_cancel_left (said.symm.trans said')
      cases (silent e (same ▸ he)).symm.trans fails.left?
  · exact fun m heard => h.heard_step hs ht said heard

/-- In every run, the cache of a session holds the last good schema of each database, and no step but the end of an
    inquiry with a schema changes it. -/
theorem cache_holds_last_schema (actions : List Action) (i : Nat) (s : Session)
    (hs : (initial.run actions).sessions[i]? = some s) :
    s.Caches (initial.inquiries i actions) ∧
      ∀ a, ∃ t events, ((initial.run actions).step a).sessions[i]? = some t ∧
        s.Learns (initial.inquiries i (actions ++ [a])) a i t events := by
  have informed := informed_run actions hs
  refine ⟨informed.caches, fun a => ?_⟩
  have reached := Invariant.initial.run actions
  obtain ⟨t, ht, -⟩ := (reached.steps a).2.sessions i s hs
  obtain ⟨events, learns⟩ := reached.learns_step hs informed ht
  exact ⟨t, events, ht, inquiries_concat initial i actions a ▸ learns⟩

/-- A schema without tables. -/
def emptySchema : DatabaseSchema :=
  ⟨⟨"other", rfl⟩, ⟨"1.0.0", rfl⟩, none, .empty⟩

/-- A schema is fetched; then it is asked for again, and the server answers with an error. -/
def refetching : List Action :=
  [.open false 65536, .invoke 0 7 (.getSchema "db"),
    .send 0 (Response.success (.ofUInt64 0) emptySchema.toJson).toJson.bytes, .task 0 .dispatch, .task 0 .dispatch,
    .task 0 (.call 0), .invoke 0 8 (.getSchema "db"),
    .send 0 (Response.failure (.ofUInt64 1) "unknown database").toJson.bytes, .task 0 .dispatch, .task 0 .dispatch]

/-- The schema is kept by the name that was asked for, and the error leaves it, and the session, as they are. -/
theorem cache_holds_last_schema_refetching : ∃ s t, (initial.run refetching).sessions[0]? = some s ∧
    s.schemas.find? "db" = some emptySchema ∧ s.schemas.find? emptySchema.name.text = none ∧
    ((initial.run refetching).step (.task 0 (.call 1))).sessions[0]? = some t ∧
    .finished 8 (.error (.rpc (.str "unknown database"))) ∈ t.journal ∧ t.schemas = s.schemas ∧ t.state = .opened := by
  let before : List Event :=
    [.called 0, .queued (.frame (Request.call "get_schema" (.arr [.str "db"]) 0).toJson),
      .received (Response.success (.ofUInt64 0) emptySchema.toJson).toJson]
  let after : List Event :=
    [.called 1, .queued (.frame (Request.call "get_schema" (.arr [.str "db"]) 1).toJson),
      .received (Response.failure (.ofUInt64 1) "unknown database").toJson]
  let failure : List Event :=
    [.ended 1 (.error (.rpc (.str "unknown database"))), .finished 8 (.error (.rpc (.str "unknown database")))]
  have asked : initial.inquiries 0 refetching = [⟨0, 7, "db"⟩, ⟨1, 8, "db"⟩] := rfl
  have held : ((initial.run refetching).sessions[0]?.map fun s => (s.state, s.journal)) = some (.opened,
      before ++ .ended 0 (.ok emptySchema.toJson) :: .finished 7 (.ok (.schema emptySchema)) :: after) := rfl
  have failed : (((initial.run refetching).step (.task 0 (.call 1))).sessions[0]?.map fun t => (t.holders, t.journal)) =
      some (1, before ++ .ended 0 (.ok emptySchema.toJson) :: .finished 7 (.ok (.schema emptySchema)) :: after ++
        failure) := rfl
  obtain ⟨s, hs, seen⟩ := Option.map_eq_some_iff.mp held
  obtain ⟨t, ht, seen'⟩ := Option.map_eq_some_iff.mp failed
  obtain ⟨opened, journal⟩ := Prod.mk.inj seen
  obtain ⟨held, journal'⟩ := Prod.mk.inj seen'
  obtain ⟨caches, steps⟩ := cache_holds_last_schema refetching 0 s hs
  obtain ⟨t', events, ht', learns⟩ := steps (.task 0 (.call 1))
  cases ht.symm.trans ht'
  have new : events = failure := List.append_cancel_left (learns.journal.symm.trans (journal ▸ journal'))
  have mine : (⟨1, 8, "db"⟩ : Inquiry) ∈ initial.inquiries 0 (refetching ++ [.task 0 (.call 1)]) :=
    List.mem_cons_of_mem _ List.mem_cons_self
  obtain ⟨kept, still⟩ := learns.failed _ mine _ (new ▸ List.mem_cons_self) (.error (.rpc (.str "unknown database")))
  refine ⟨s, t, hs, ?_, ?_, ht, ?_, kept, ?_⟩
  · refine (caches.latest "db" emptySchema).mpr ⟨before, ⟨0, 7, "db"⟩, _, after, journal, ?_, rfl, rfl, ?_⟩
    · exact asked ▸ List.mem_cons_self
    · rintro later ⟨q, -, reply, he, -⟩
      simp [after] at he
  · refine (caches.missing _).mpr ?_
    rintro schema ⟨q, hq, reply, -, named, -⟩
    rw [asked] at hq
    simp only [List.mem_cons, List.not_mem_nil, or_false] at hq
    rcases hq with rfl | rfl <;> exact absurd named (by decide)
  · rw [journal']
    simp [failure]
  · obtain still | unheld | ⟨writes, -⟩ := still opened
    · exact still
    · cases held.symm.trans unheld
    · cases writes

end Client
end Ovsdb
