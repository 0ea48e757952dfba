import Ovsdb.Proofs.Session.Steps

/-! What befalls each session in a run, step by step: what the actions give it, and the messages and the closing that
    its journal tells of. -/

namespace Ovsdb
namespace Client
open Session (Trail)

/-- What an action gives a session: a handler, or a notification for its connection in the shared registry. -/
def given (i : Nat) (s : Session) : Action → List Incident
  | .handler j h => if j = i then [.handler h] else []
  | .notify connection n => if s.registry = 0 ∧ s.connection = connection then [.notice n] else []
  | _ => []

/-- What befalls a session in a step: what the action gives it, and what it takes down in its journal. -/
def incidents (c : Client) (i : Nat) (a : Action) : List Incident :=
  match c.sessions[i]?, (c.step a).sessions[i]? with
  | some s, some t => given i s a ++ (t.journal.drop s.journal.length).filterMap Event.incident?
  | _, _ => []

/-- What befalls a session in a run. -/
def history (c : Client) (i : Nat) : List Action → List Incident
  | [] => []
  | a :: actions => c.incidents i a ++ (c.step a).history i actions

variable {c : Client} {i j k : Nat} {s t : Session} {n : Notification} {is : List Incident} {a : Action}

theorem given_unnoted (i : Nat) (s : Session) (a : Action) : (given i s a).filter (·.isNoted) = [] := by
  rw [given.eq_def]
  split
  · split <;> rfl
  · split <;> rfl
  · rfl

theorem given_of_other (ha : Action.session? a = some j) (hj : j ≠ i) : given i s a = [] := by
  cases a <;> cases ha
  case handler => exact if_neg hj
  all_goals rfl

theorem given_of_unset (ha : Action.session? a = some i) (unset : ∀ h, a ≠ .handler i h) : given i s a = [] := by
  cases a <;> cases ha
  case handler h => exact absurd rfl (unset h)
  all_goals rfl

/-- What a session takes down on its trail is what there is besides the given. -/
theorem incidents_eq (hs : c.sessions[i]? = some s) (ht : (c.step a).sessions[i]? = some t)
    (trail : Trail (given i s a ++ is) s t) (noted : ∀ x ∈ is, x.isNoted) : c.incidents i a = given i s a ++ is := by
  obtain ⟨events, journal, told⟩ := trail.journal
  rw [List.filter_append, given_unnoted, List.nil_append, List.filter_eq_self.mpr noted] at told
  simp only [incidents, hs, ht, journal, List.drop_left, told]

/-! ### Steps -/

theorem Hears.own {m : Json} {d : Client} (h : Hears i m c d) (hs : c.sessions[i]? = some s) :
    ∃ t, d.sessions[i]? = some t ∧ Trail [.message m] s t := by
  obtain ⟨s', inbound, stopping, ready, hs', running, awake, rfl, -⟩ := h
  cases hs.symm.trans hs'
  refine ⟨_, sessions_modify_self hs _, ?_⟩
  refine .change (.aside rfl) (.incident (.message m ?_) (.change (.rouse awake) (.change (.aside rfl) (.refl _))))
  exact running

/-- A notification that is handed over without a message gets to the session with that connection only. -/
theorem Invariant.deliver_cases (h : c.Invariant) (routed : c.Routed) (hs : c.sessions[i]? = some s) (k : Nat)
    (n : Notification) :
    (given i s (.notify k n) = [.notice n] ∧ (c.deliver 0 k n).1 = c.modify i (·.notify n)) ∨
    (given i s (.notify k n) = [] ∧ (c.deliver 0 k n).1.sessions[i]? = some s) := by
  by_cases place : s.registry = 0 ∧ s.connection = k
  · have handed := deliver_eq hs (h.sound.located i s hs) n
    rw [place.1, place.2] at handed
    exact Or.inl ⟨if_pos place, handed⟩
  · refine Or.inr ⟨if_neg place, ?_⟩
    rw [Client.deliver]
    split
    case h_1 => exact hs
    case h_2 j owner =>
      obtain ⟨r, hr, owned⟩ := Option.bind_eq_some_iff.mp owner
      have other : j ≠ i := by
        rintro rfl
        have there := routed.owned 0 r hr (k, j) (mem_of_owner? owned)
        rw [getElem?_places, hs] at there
        exact place (Prod.mk.inj (Option.some.inj there))
      exact (sessions_modify_other other.symm _).trans hs

/-- What a step is for a session: it goes through changes, with nothing but a given handler and its closing in
    between; it takes a message; or a notification is handed over to it. -/
inductive Meets (c : Client) (i : Nat) (a : Action) (s t : Session) : Prop where
  | untold (is : List Incident) (trail : Trail (given i s a ++ is) s t)
    (handlers : ∀ x ∈ given i s a, ∃ h, x = .handler h) (closings : ∀ x ∈ is, x = .closing)
  | heard (m : Json) (nothing : given i s a = []) (heard : Hears i m c (c.step a))
  | noticed (n : Notification) (given : given i s a = [.notice n]) (step : c.step a = c.modify i (·.notify n))
    (told : t = s.notify n)

theorem Meets.changes (nothing : given i s a = []) (h : s.Changes t) : Meets c i a s t :=
  .untold [] (by rw [nothing]; exact .changes h) (by simp [nothing]) (by simp)

theorem Invariant.meets_about (h : c.Invariant) (ha : Action.session? a = some i) (hs : c.sessions[i]? = some s)
    (ht : (c.step a).sessions[i]? = some t) : Meets c i a s t := by
  rcases h.step_cases ha with ⟨h, rfl, turns⟩ | ⟨unset, turns | ⟨m, heard⟩⟩
  · have set : (c.modify i fun s => { s with handler := h }).sessions[i]? = some { s with handler := h } :=
      sessions_modify_self hs _
    have handed : given i s (.handler i h) = [.handler h] := if_pos rfl
    obtain ⟨t', is, ht', trail, closings⟩ := turns.own _ set
    cases ht.symm.trans ht'
    exact .untold is (handed ▸ .incident (.handler s h) trail) (by simp [handed]) closings
  · have nothing := given_of_unset (s := s) ha unset
    obtain ⟨t', is, ht', trail, closings⟩ := turns.own s hs
    cases ht.symm.trans ht'
    exact .untold is (nothing ▸ trail) (by simp [nothing]) closings
  · exact .heard m (given_of_unset ha unset) heard

/-- Every step is one of these for every session there is. -/
theorem Invariant.meets (h : c.Invariant) (routed : c.Routed) (hs : c.sessions[i]? = some s)
    (ht : (c.step a).sessions[i]? = some t) : Meets c i a s t := by
  cases ha : Action.session? a with
  | some j =>
    by_cases hj : i = j
    · exact h.meets_about (hj ▸ ha) hs ht
    · rw [h.others ha hj, hs] at ht
      cases ht
      exact .changes (given_of_other ha (Ne.symm hj)) .refl
  | none =>
    have acted : c.step a = c.act a := by rw [Client.step, ha]
    rw [acted] at ht
    cases a with
    | «open» inPrivate capacity =>
      cases ((List.getElem?_append_left (List.getElem?_eq_some_iff.mp hs).1).trans hs).symm.trans ht
      exact .changes rfl .refl
    | advance time =>
      have woken : (c.sessions.map (·.wakeDue (c.now + time)))[i]? = some t := ht
      rw [List.getElem?_map, hs] at woken
      cases woken
      exact .changes rfl (Session.Changes.wakeDue s _)
    | notify k n =>
      obtain ⟨given, heq⟩ | ⟨given, same⟩ := h.deliver_cases routed hs k n
      · have told : (c.modify i (·.notify n)).sessions[i]? = some t := heq ▸ ht
        exact .noticed n given (acted.trans heq) (Option.some.inj (told.symm.trans (sessions_modify_self hs _)))
      · cases same.symm.trans ht
        exact .changes given .refl
    | _ => cases ha

/-- A step lets a session go through what befalls it in the step. -/
theorem Invariant.trail_step (h : c.Invariant) (routed : c.Routed) (hs : c.sessions[i]? = some s)
    (ht : (c.step a).sessions[i]? = some t) : Trail (c.incidents i a) s t := by
  obtain ⟨is, trail, noted⟩ : ∃ is, Trail (given i s a ++ is) s t ∧ ∀ x ∈ is, x.isNoted := by
    cases h.meets routed hs ht with
    | untold is trail _ closings => exact ⟨is, trail, fun x hx => closings x hx ▸ rfl⟩
    | heard m nothing heard =>
      obtain ⟨t', ht', trail⟩ := heard.own hs
      cases ht.symm.trans ht'
      exact ⟨[.message m], by rw [nothing]; exact trail, by simp [Incident.isNoted]⟩
    | noticed n given _ told => exact ⟨[], given ▸ told ▸ .single (.notice s n), by simp⟩
  exact incidents_eq hs ht trail noted ▸ trail

/-! ### Runs -/

theorem incidents_of_new (hs : c.sessions[i]? = none) : c.incidents i a = [] := by
  simp only [incidents, hs]

theorem incidents_of_missing (ht : (c.step a).sessions[i]? = none) : c.incidents i a = [] := by
  rw [incidents, ht]
  cases c.sessions[i]? <;> rfl

/-- A run lets a session go through its history, from the beginning if it is new. -/
theorem Invariant.trail_run (h : c.Invariant) (routed : c.Routed) (actions : List Action)
    (ht : (c.run actions).sessions[i]? = some t) : ∃ s, Trail (c.history i actions) s t ∧
      (c.sessions[i]? = some s ∨ c.sessions[i]? = none ∧ ∃ r k capacity, s = .initial r k capacity) := by
  induction actions generalizing c with
  | nil => exact ⟨t, .refl t, Or.inl ht⟩
  | cons a actions ih =>
    obtain ⟨u, rest, there | ⟨missing, fresh⟩⟩ := ih (h.step a) (h.routed_step routed a) ht
    · cases hs : c.sessions[i]? with
      | some s => exact ⟨s, (h.trail_step routed hs there).trans rest, Or.inl rfl⟩
      | none =>
        refine ⟨u, ?_, Or.inr ⟨rfl, ?_⟩⟩
        · rw [history, incidents_of_new hs]
          exact rest
        · rcases (h.steps a).2.origin i u there with ⟨s, hs', -⟩ | fresh
          · exact nomatch hs.symm.trans hs'
          · exact fresh
    · refine ⟨u, ?_, Or.inr ⟨?_, fresh⟩⟩
      · rw [history, incidents_of_missing missing]
        exact rest
      · cases hs : c.sessions[i]? with
        | none => rfl
        | some s =>
          obtain ⟨t', ht', -⟩ := (h.steps a).2.sessions i s hs
          exact nomatch missing.symm.trans ht'

end Client
end Ovsdb
