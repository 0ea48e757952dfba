import Ovsdb.Proofs.Session.Client
import Ovsdb.Proofs.Session.Trail

/-! What one step of a run does to the sessions, in full: a step that is about one session leaves the others exactly as
    they are, and either lets that session take a message or lets it go through changes, with its closing at most. -/

namespace Ovsdb

/-- Every registry is as before, but for connections that have been taken out. -/
def Thinned (before after : List Registry) : Prop :=
  ∀ (k : Nat) (r : Registry), after[k]? = some r → ∃ r₀, before[k]? = some r₀ ∧ r.next = r₀.next ∧
    ∀ e ∈ r.entries, e ∈ r₀.entries

namespace Thinned

theorem refl (registries : List Registry) : Thinned registries registries :=
  fun _ r hr => ⟨r, hr, rfl, fun _ => id⟩

theorem trans {r₁ r₂ r₃ : List Registry} (h₁ : Thinned r₁ r₂) (h₂ : Thinned r₂ r₃) : Thinned r₁ r₃ := by
  intro k r hr
  obtain ⟨r', hr', next, entries⟩ := h₂ k r hr
  obtain ⟨r₀, hr₀, next', entries'⟩ := h₁ k r' hr'
  exact ⟨r₀, hr₀, next.trans next', fun e he => entries' e (entries e he)⟩

theorem deregister (registries : List Registry) (k connection : Nat) :
    Thinned registries (registries.modify k (·.deregister connection)) := by
  intro l r hr
  rw [List.getElem?_modify] at hr
  obtain ⟨r₀, hr₀, rfl⟩ := Option.map_eq_some_iff.mp hr
  refine ⟨r₀, hr₀, ?_⟩
  split
  · exact ⟨rfl, fun e he => (List.mem_filter.mp he).1⟩
  · exact ⟨rfl, fun _ => id⟩

end Thinned

namespace Client
variable {c d e : Client} {f g : Session → Session} {i j : Nat} {s t : Session} {m : Json} {a : Action}

/-! ### Turns -/

/-- Only session `i` changes, without taking a message. Registries lose connections at most, and none after the
    closing. -/
structure Follows (i : Nat) (c d : Client) : Prop where
  others : ∀ j, j ≠ i → d.sessions[j]? = c.sessions[j]?
  own : ∀ s, c.sessions[i]? = some s →
    ∃ t is, d.sessions[i]? = some t ∧ Session.Trail is s t ∧ ∀ incident ∈ is, incident = .closing
  registries : Thinned c.registries d.registries
  idle : ∀ s, c.sessions[i]? = some s → s.state = .closed → d.registries = c.registries

namespace Follows

theorem refl (i : Nat) (c : Client) : Follows i c c :=
  ⟨fun _ _ => rfl, fun s hs => ⟨s, [], hs, .refl s, by simp⟩, .refl _, fun _ _ _ => rfl⟩

theorem trans (h₁ : Follows i c d) (h₂ : Follows i d e) : Follows i c e where
  others j hj := (h₂.others j hj).trans (h₁.others j hj)
  own := by
    intro s hs
    obtain ⟨t, is, ht, first, closings⟩ := h₁.own s hs
    obtain ⟨u, js, hu, rest, closings'⟩ := h₂.own t ht
    exact ⟨u, is ++ js, hu, first.trans rest, List.forall_mem_append.mpr ⟨closings, closings'⟩⟩
  registries := h₁.registries.trans h₂.registries
  idle := by
    intro s hs closed
    obtain ⟨t, is, ht, trail, -⟩ := h₁.own s hs
    exact (h₂.idle t ht (trail.closed closed)).trans (h₁.idle s hs closed)

theorem of_modify (sessions : d.sessions = c.sessions.modify i f) (registries : Thinned c.registries d.registries)
    (idle : ∀ s, c.sessions[i]? = some s → s.state = .closed → d.registries = c.registries)
    (hf : ∀ s, c.sessions[i]? = some s → ∃ is, Session.Trail is s (f s) ∧ ∀ incident ∈ is, incident = .closing) :
    Follows i c d := by
  refine ⟨fun j hj => ?_, fun s hs => ?_, registries, idle⟩
  · rw [sessions]
    exact sessions_modify_other hj f
  · obtain ⟨is, trail, closings⟩ := hf s hs
    have there : d.sessions[i]? = some (f s) := by
      rw [sessions]
      exact sessions_modify_self hs f
    exact ⟨f s, is, there, trail, closings⟩

theorem changes (hf : ∀ s, c.sessions[i]? = some s → s.Changes (f s)) : Follows i c (c.modify i f) :=
  of_modify rfl (.refl _) (fun _ _ _ => rfl) fun s hs => ⟨[], .changes (hf s hs), by simp⟩

/-- The closing of a session, if it is not closed yet. -/
theorem tearDown (i : Nat) (c : Client) : Follows i c (c.tearDown i) := by
  obtain ⟨same, -⟩ | ⟨s, hs, state⟩ := c.tearDown_cases i
  · rw [same]
    exact refl i c
  · rw [tearDown_eq hs state]
    have itself {s' : Session} (hs' : c.sessions[i]? = some s') : s'.state = .opened := by
      cases hs.symm.trans hs'
      exact state
    exact of_modify rfl (.deregister _ _ _) (fun _ hs' closed => nomatch closed.symm.trans (itself hs'))
      fun _ hs' => ⟨[.closing], .single (.closing (itself hs')), by simp⟩

theorem stop (i : Nat) (c : Client) : Follows i c (c.stop i) := by
  refine (tearDown i c).trans (changes fun s _ => ?_)
  split
  · exact .refl
  · exact .trans (.single (.aside rfl)) (Session.Changes.wake _ _)

theorem release (i : Nat) (c : Client) : Follows i c (c.release i) := by
  rw [Client.release]
  split
  · split
    · exact stop i c
    · exact refl i c
  · exact refl i c

/-- A dispatcher that is running ends, and the session with it. -/
theorem endDispatcher (hs : c.sessions[i]? = some s) (running : s.dispatcher = .running) :
    Follows i c (c.endDispatcher i) := by
  refine (tearDown i c).trans (changes fun t ht => .single (.leave ?_))
  cases state : s.state with
  | closed =>
    rw [tearDown_of_closed hs state, hs] at ht
    cases ht
    exact running
  | opened =>
    rw [sessions_tearDown hs state, hs, Option.map_some, if_pos rfl] at ht
    cases ht
    obtain ⟨ready, closed⟩ := s.close_eq
    rw [closed]
    exact running

theorem write (hs : c.sessions[i]? = some s) : Follows i c (c.write i s) := by
  have here {f : Session → Session} (hf : s.Changes (f s)) : Follows i c (c.modify i f) :=
    changes fun s' hs' => Option.some.inj (hs.symm.trans hs') ▸ hf
  rw [Client.write.eq_def]
  split
  · exact refl i c
  · split
    · exact here (Session.Changes.endWriter s)
    · exact refl i c
  case h_3 idle first => exact here (.single (.take idle first))
  case h_4 ticket rest idle first => exact here (Session.Changes.shut s rest ticket)
  case h_5 bytes _ writing =>
    split
    · exact here (.single (.write writing))
    · exact (stop i c).trans (changes fun s _ => Session.Changes.endWriter s)

end Follows

/-! ### Messages -/

theorem modify_congr (h : ∀ s, c.sessions[i]? = some s → f s = g s) : c.modify i f = c.modify i g := by
  refine congrArg (fun sessions => { c with sessions := sessions }) (List.ext_getElem? fun j => ?_)
  rw [List.getElem?_modify, List.getElem?_modify]
  cases hs : c.sessions[j]? with
  | none => rfl
  | some s =>
    by_cases hj : i = j
    · subst hj
      simp [h s hs]
    · simp [hj]

theorem modify_id (h : ∀ s, c.sessions[i]? = some s → f s = s) : c.modify i f = c := by
  rw [modify_congr (g := id) h, modify, List.modify_id]

/-- A notification is handed to the session whose connection it is for, and to no other one. -/
theorem deliver_eq (hs : c.sessions[i]? = some s) (h : c.Located i s) (n : Notification) :
    (c.deliver s.registry s.connection n).1 = c.modify i (·.notify n) := by
  obtain ⟨r, hr, -, owner⟩ := h
  cases state : s.state with
  | opened =>
    rw [state, if_pos rfl] at owner
    simp only [deliver, hr, Option.bind_some, owner]
    exact modify_congr fun s' hs' => by cases hs.symm.trans hs'; simp [Session.notify, state]
  | closed =>
    rw [state, if_neg (by decide)] at owner
    simp only [deliver, hr, Option.bind_some, owner]
    exact (modify_id fun s' hs' => by cases hs.symm.trans hs'; simp [Session.notify, state]).symm

theorem handle_eq (hs : c.sessions[i]? = some s) (h : c.Located i s) (q : Request) :
    c.handle i s.registry s.connection q = c.modify i (·.heed q) := by
  have same : ∀ {f : Session → Session}, (∀ t, f t = t.heed q) → c.modify i f = c.modify i (·.heed q) := fun hf =>
    modify_congr fun t _ => hf t
  have none : (∀ t : Session, t.heed q = t) → c = c.modify i (·.heed q) := fun hf => (modify_id fun t _ => hf t).symm
  rw [Client.handle]
  by_cases echo : q.method = "echo"
  · have silent : q.notification? = Option.none := by simp [Request.notification?, echo]
    rw [if_pos echo]
    split
    case isTrue unasked => exact none (by simp [Session.heed, Request.reply?_of_echo echo, unasked, silent])
    case isFalse asked => exact same (by simp [Session.heed, Request.reply?_of_echo echo, asked])
  · rw [if_neg echo]
    cases told : q.tells with
    | false =>
      have silent := Request.notification?_of_not_tells told
      simp only [Notification.ofMethod_of_not_tells told]
      split
      case isTrue unasked => exact none (by simp [Session.heed, Request.reply?_of_unknown told echo, unasked, silent])
      case isFalse asked => exact same (by simp [Session.heed, Request.reply?_of_unknown told echo, asked])
    | true =>
      cases read : q.notification? with
      | none =>
        obtain ⟨e, failed⟩ := Notification.ofMethod_of_none told read
        simp only [failed]
        exact none (by simp [Session.heed, Request.reply?_of_tells told, read])
      | some n =>
        simp only [Notification.ofMethod_of_some told read, deliver_eq hs h n]
        exact same (by simp [Session.heed, Request.reply?_of_tells told, read])

/-- Taking a message concerns the session that it has come to only. -/
theorem receive_eq (hs : c.sessions[i]? = some s) (h : c.Located i s) (m : Json) :
    c.receive i s.registry s.connection m = c.modify i (·.hear m) := by
  have noted : (c.modify i (·.note (.received m))).sessions[i]? = some (s.note (.received m)) :=
    sessions_modify_self hs _
  simp only [Client.receive]
  split
  case h_1 r hr =>
    rw [modify_modify]
    refine modify_congr fun t _ => ?_
    simp [Session.hear, Message.ofJson_eq_response.mp hr]
  case h_2 q hq =>
    have asked := Message.ofJson_eq_request.mp hq
    have handled := handle_eq noted (s := s.note (.received m)) h q
    refine handled.trans ((modify_modify _ _ _ _).trans (modify_congr fun t _ => ?_))
    simp [Session.hear, asked, Response.ofMessage?_of_request asked]
  case h_3 e he =>
    obtain ⟨unasked, unanswered⟩ := Message.ofJson_eq_error he
    exact modify_congr fun t _ => by simp [Session.hear, unasked, unanswered]

/-- Session `i` takes a message, and nothing else happens; one that is closed may be told to stop. -/
def Hears (i : Nat) (m : Json) (c d : Client) : Prop :=
  ∃ s inbound stopping ready, c.sessions[i]? = some s ∧ s.dispatcher = .running ∧
    (∀ task ∈ (({ s with inbound := inbound } : Session).hear m).ready, task ∈ ready) ∧
    (d = c.modify i fun _ =>
      { ({ s with inbound := inbound } : Session).hear m with stopping := stopping, ready := ready }) ∧
    (s.state = .opened → d = c.modify i fun _ => ({ s with inbound := inbound } : Session).hear m)

/-! ### Tasks and actions -/

theorem Sound.dispatch_cases (h : c.Sound) (hs : c.sessions[i]? = some s) :
    Follows i c (c.dispatch i s) ∨ ∃ m, Hears i m c (c.dispatch i s) := by
  have read (r : Framing.Reader) : (c.modify i fun s => { s with inbound := r }).sessions[i]? =
      some { s with inbound := r } := sessions_modify_self hs _
  have reads (r : Framing.Reader) : Follows i c (c.modify i fun s => { s with inbound := r }) :=
    .changes fun _ _ => .single (.aside rfl)
  rw [Client.dispatch.eq_def]
  split
  · exact Or.inl (.refl i c)
  · exact Or.inl (.changes fun s _ => Session.Changes.enter s .dispatcher)
  case h_3 running =>
    split
    · exact Or.inl (.endDispatcher hs running)
    · split
      case h_1 _ m r _ =>
        have taken : (c.modify i fun s => { s with inbound := r }).receive i s.registry s.connection m =
            c.modify i fun _ => ({ s with inbound := r } : Session).hear m := by
          rw [receive_eq (read r) (h.located i s hs) m, modify_modify]
          exact modify_congr fun s' hs' => by cases hs.symm.trans hs'; rfl
        exact Or.inr ⟨m, s, r, _, _, hs, running, fun _ => id, taken, fun _ => taken⟩
      case h_2 _ _ r _ => exact Or.inl ((reads r).trans (.endDispatcher (read r) running))
      case h_3 r _ _ =>
        refine Or.inl ?_
        simp only
        split
        · exact reads r
        · exact (reads r).trans (.endDispatcher (read r) running)
      case h_4 => exact Or.inl (.changes fun _ _ => .single (.aside rfl))

theorem Sound.perform_cases (h : c.Sound) (i : Nat) (task : Task) :
    Follows i c (c.perform i task) ∨ ∃ m, Hears i m c (c.perform i task) := by
  rw [Client.perform]
  split
  · exact Or.inl (.refl i c)
  case h_2 s hs =>
    split
    · cases task with
      | dispatch => exact h.dispatch_cases hs
      | call n =>
        refine Or.inl (.changes fun s _ => ?_)
        rw [proceed]
        split
        · exact Session.Changes.enter s _
        · exact Session.Changes.conclude s n c.now
      | closer ticket => exact Or.inl (.changes fun s _ => Session.Changes.enter s _)
      | tick k => exact Or.inl (.changes fun s _ => Session.Changes.tick s k)
      | write => exact Or.inl (.write hs)
      | serve => exact Or.inl (.changes fun s _ => Session.Changes.stream_wake s _ _ rfl)
      | supply => exact Or.inl (.changes fun s _ => Session.Changes.stream_wake s _ _ rfl)
    case isFalse idle =>
      refine Or.inl (.changes fun s' hs' => ?_)
      cases hs.symm.trans hs'
      have idle : s.canGoOn c.now task = false := Bool.eq_false_iff.mpr idle
      exact .single (.rest idle)

theorem Sound.act_cases (h : c.Sound) (ha : Action.session? a = some i) (unset : ∀ h, a ≠ .handler i h) :
    Follows i c (c.act a) ∨ ∃ m, Hears i m c (c.act a) := by
  cases a <;> cases ha
  case clone => exact Or.inl (.changes fun s _ => .single (.aside rfl))
  case drop => exact Or.inl (.changes fun s _ => .single (.aside rfl))
  case handler h => exact absurd rfl (unset h)
  case invoke ticket invocation => exact Or.inl (.changes fun s _ => Session.Changes.invoke s ticket invocation)
  case close ticket =>
    refine Or.inl ((Follows.stop i c).trans (.changes fun s hs => ?_))
    have closed : s.state = .closed := state_stop hs
    refine .trans (.single (.aside rfl)) (Session.Changes.shutdown ?_ ticket)
    exact closed
  case abandon ticket => exact Or.inl (.changes fun s _ => Session.Changes.abandon s ticket)
  case keepalive period =>
    refine Or.inl (.changes fun s _ => ?_)
    split
    · exact .refl
    · exact Session.Changes.keepAlive s period c.now
  case send bytes =>
    refine Or.inl (.changes fun s _ => ?_)
    split
    · exact Session.Changes.stream_wake s _ _ rfl
    · exact .refl
  case serverEnds => exact Or.inl (.changes fun s _ => Session.Changes.stream_wake s _ _ rfl)
  case serverDrops =>
    refine Or.inl (.changes fun s _ => ?_)
    have cut := Session.Changes.stream_wake s { s.stream with serverWrites := false, serverPresent := false }
      .dispatch rfl
    exact cut.trans (Session.Changes.wake _ _)
  case serverReads => exact Or.inl (.changes fun s _ => .single (.aside rfl))
  case task t => exact h.perform_cases i t

theorem stopping_eq (s : Session) : ∃ ready, (∀ task ∈ s.ready, task ∈ ready) ∧
    (if s.stopping then s else { s with stopping := true }.wake .dispatch) =
      { s with stopping := true, ready := ready } := by
  split
  case isTrue stopping => exact ⟨s.ready, fun _ => id, by rw [← stopping]⟩
  case isFalse =>
    have awake := (Session.Wakes.wake { s with stopping := true } .dispatch).ready
    obtain ⟨ready, heq⟩ := Session.wake_eq { s with stopping := true } .dispatch
    rw [heq] at awake
    exact ⟨ready, awake, heq⟩

/-- A session that is held, or closed already, is told to stop at most by its release. -/
theorem release_held (hs : c.sessions[i]? = some s) (held : Held s) : ∃ stopping ready,
    (∀ task ∈ s.ready, task ∈ ready) ∧
    (c.release i = c.modify i fun _ => { s with stopping := stopping, ready := ready }) ∧
    (s.state = .opened → c.release i = c) := by
  simp only [Client.release, hs]
  split
  case isTrue unheld =>
    have closed := held unheld
    obtain ⟨ready, awake, stopped⟩ := stopping_eq s
    refine ⟨true, ready, awake, ?_, fun opened => absurd (closed.symm.trans opened) (by simp)⟩
    rw [Client.stop, tearDown_of_closed hs closed]
    exact modify_congr fun s' hs' => by cases hs.symm.trans hs'; exact stopped
  case isFalse =>
    refine ⟨s.stopping, s.ready, fun _ => id, ?_, fun _ => rfl⟩
    exact (modify_id fun s' hs' => by cases hs.symm.trans hs'; rfl).symm

/-- The release at the end of a step changes nothing else in a session that is held, or closed already. -/
theorem step_of_held (ha : Action.session? a = some i) (hs : (c.act a).sessions[i]? = some s) (held : Held s) :
    ∃ stopping ready, (c.step a).sessions[i]? = some { s with stopping := stopping, ready := ready } := by
  obtain ⟨stopping, ready, -, released, -⟩ := release_held hs held
  refine ⟨stopping, ready, ?_⟩
  rw [Client.step, ha]
  simp only
  rw [released]
  exact sessions_modify_self hs _

/-- The release at the end of a step finds the session that has taken a message held, or closed already. -/
theorem Invariant.release_of_hears (h : c.Invariant) (heard : Hears i m c d) : Hears i m c (d.release i) := by
  obtain ⟨s, inbound, stopping, ready, hs, running, awake, rfl, exactly⟩ := heard
  let t : Session := { s with inbound := inbound }
  have order : t.Orderly := ((h.sound.orderly i s hs).alike (t := t) ⟨rfl, rfl, rfl, rfl, rfl, rfl, rfl, rfl⟩).orderly
  have takes := order.hear m
  let u : Session := { t.hear m with stopping := stopping, ready := ready }
  have there : (c.modify i fun _ => u).sessions[i]? = some u := sessions_modify_self hs _
  have held : Held u := fun unheld => takes.state.trans (h.held i s hs (takes.holders.symm.trans unheld))
  obtain ⟨stopping', ready', awake', released, opened'⟩ := release_held there held
  refine ⟨s, inbound, stopping', ready', hs, running, fun task h => awake' task (awake task h), ?_, fun opened => ?_⟩
  · exact released.trans (modify_modify c i _ _)
  · exact (opened' (takes.state.trans opened)).trans (exactly opened)

/-- A step about a session sets its handler, lets it go through changes or lets it take a message. -/
theorem Invariant.step_cases (h : c.Invariant) (ha : Action.session? a = some i) :
    (∃ h, a = .handler i h ∧ Follows i (c.modify i fun s => { s with handler := h }) (c.step a)) ∨
    (∀ h, a ≠ .handler i h) ∧ (Follows i c (c.step a) ∨ ∃ m, Hears i m c (c.step a)) := by
  by_cases set : ∃ h, a = .handler i h
  · obtain ⟨h, rfl⟩ := set
    exact Or.inl ⟨h, rfl, .release i _⟩
  · have unset := not_exists.mp set
    rw [Client.step, ha]
    rcases h.sound.act_cases ha unset with turns | ⟨m, heard⟩
    · exact Or.inr ⟨unset, Or.inl (turns.trans (.release i _))⟩
    · exact Or.inr ⟨unset, Or.inr ⟨m, h.release_of_hears heard⟩⟩

/-- A step about one session leaves the others exactly as they are. -/
theorem Invariant.others (h : c.Invariant) (ha : Action.session? a = some i) (hj : j ≠ i) :
    (c.step a).sessions[j]? = c.sessions[j]? := by
  rcases h.step_cases ha with ⟨h, -, turns⟩ | ⟨-, turns | ⟨m, s, inbound, stopping, ready, -, -, -, heq, -⟩⟩
  · exact (turns.others j hj).trans (sessions_modify_other hj _)
  · exact turns.others j hj
  · rw [heq]
    exact sessions_modify_other hj _

/-! ### Routes -/

theorem mem_of_owner? {r : Registry} {k : Nat} (h : r.owner? k = some i) : (k, i) ∈ r.entries := by
  obtain ⟨before, after, heq, -⟩ := List.lookup_eq_some_iff.mp h
  exact heq ▸ List.mem_append_right before List.mem_cons_self

/-- The registry and the connection of each session. -/
def places (c : Client) : List (Nat × Nat) :=
  c.sessions.map fun s => (s.registry, s.connection)

/-- Registries know sessions by their connections, and no connection of a registry is used twice. -/
structure Routed (c : Client) : Prop where
  owned : ∀ (k : Nat) (r : Registry), c.registries[k]? = some r → ∀ e ∈ r.entries, c.places[e.2]? = some (k, e.1)
  distinct : c.places.Nodup
  counted : ∀ (k : Nat) (r : Registry), c.registries[k]? = some r → r.next ≤ c.places.length

theorem getElem?_places (c : Client) (j : Nat) :
    c.places[j]? = (c.sessions[j]?).map fun s => (s.registry, s.connection) :=
  List.getElem?_map

theorem Spreads.places {P : Nat → Session → Session → Prop} (h : Spreads P c d)
    (kept : ∀ j s t, P j s t → t.registry = s.registry ∧ t.connection = s.connection) : d.places = c.places := by
  refine List.ext_getElem? fun j => ?_
  rw [getElem?_places, getElem?_places]
  cases hs : c.sessions[j]? with
  | none =>
    cases ht : d.sessions[j]? with
    | none => rfl
    | some t =>
      obtain ⟨s, there⟩ := h.back j t ht
      exact nomatch hs.symm.trans there
  | some s =>
    obtain ⟨t, ht, hp⟩ := h.sessions j s hs
    obtain ⟨registry, connection⟩ := kept j s t hp
    rw [ht, Option.map_some, Option.map_some, registry, connection]

namespace Routed

theorem initial : Client.initial.Routed where
  owned := by
    intro k r hr e he
    have only : [Registry.empty][k]? = some r := hr
    rw [List.mem_singleton.mp (List.mem_of_getElem? only)] at he
    cases he
  distinct := .nil
  counted := by
    intro k r hr
    have only : [Registry.empty][k]? = some r := hr
    rw [List.mem_singleton.mp (List.mem_of_getElem? only)]
    exact Nat.le_refl 0

theorem thinned (h : c.Routed) (registries : Thinned c.registries d.registries) (places : d.places = c.places) :
    d.Routed where
  owned := by
    intro k r hr e he
    obtain ⟨r₀, hr₀, -, entries⟩ := registries k r hr
    rw [places]
    exact h.owned k r₀ hr₀ e (entries e he)
  distinct := places ▸ h.distinct
  counted := by
    intro k r hr
    obtain ⟨r₀, hr₀, next, -⟩ := registries k r hr
    rw [places, next]
    exact h.counted k r₀ hr₀

theorem addRegistry (h : c.Routed) : Routed { c with registries := c.registries ++ [.empty] } where
  owned := by
    intro k r hr e he
    rcases getElem?_concat_cases hr with hr | ⟨-, rfl⟩
    · exact h.owned k r hr e he
    · cases he
  distinct := h.distinct
  counted := by
    intro k r hr
    rcases getElem?_concat_cases hr with hr | ⟨-, rfl⟩
    · exact h.counted k r hr
    · exact Nat.zero_le _

/-- A new session gets a connection that none has had before. -/
theorem register (h : c.Routed) (sound : c.Sound) {k : Nat} {r : Registry} (hr : c.registries[k]? = some r)
    (capacity : Nat) : Routed { c with
      registries := c.registries.modify k (·.register c.sessions.length)
      sessions := c.sessions ++ [.initial k r.next capacity] } := by
  let d : Client := { c with
    registries := c.registries.modify k (·.register c.sessions.length)
    sessions := c.sessions ++ [.initial k r.next capacity] }
  have after : d.places = c.places ++ [(k, r.next)] := List.map_append
  have length : c.sessions.length = c.places.length := (List.length_map _).symm
  change d.Routed
  refine ⟨?_, ?_, ?_⟩
  · intro l r' hr' e he
    rw [registries_modify] at hr'
    obtain ⟨r₀, hr₀, rfl⟩ := Option.map_eq_some_iff.mp hr'
    have old (he : e ∈ r₀.entries) : d.places[e.2]? = some (l, e.1) := by
      have there := h.owned l r₀ hr₀ e he
      rw [after, List.getElem?_append_left (List.getElem?_eq_some_iff.mp there).1]
      exact there
    split at he
    case isTrue same =>
      subst same
      cases hr.symm.trans hr₀
      rcases List.mem_append.mp he with he | he
      · exact old he
      · rw [List.mem_singleton.mp he, after, length, List.getElem?_concat_length]
    case isFalse => exact old he
  · rw [after]
    refine List.nodup_append.mpr ⟨h.distinct, List.nodup_singleton _, ?_⟩
    rintro place there _ new rfl
    -- The connections of the sessions there are have been given out already.
    obtain ⟨s, hs, heq⟩ := List.mem_map.mp there
    obtain ⟨rfl, taken⟩ := Prod.mk.inj (heq.trans (List.mem_singleton.mp new))
    obtain ⟨j, hj⟩ := List.mem_iff_getElem?.mp hs
    obtain ⟨r', hr', lt, -⟩ := sound.located j s hj
    cases hr.symm.trans hr'
    exact Nat.ne_of_lt lt taken
  · intro l r' hr'
    rw [registries_modify] at hr'
    obtain ⟨r₀, hr₀, rfl⟩ := Option.map_eq_some_iff.mp hr'
    have counted := h.counted l r₀ hr₀
    rw [after, List.length_append]
    split
    · exact Nat.add_le_add_right counted 1
    · exact Nat.le_add_right_of_le counted

theorem openSession (h : c.Routed) (sound : c.Sound) (inPrivate : Bool) (capacity : Nat) :
    (c.openSession inPrivate capacity).Routed := by
  cases inPrivate with
  | true =>
    have new : (c.registries ++ [Registry.empty])[c.registries.length]? = some .empty := by simp
    simp only [Client.openSession, if_true, new, Option.map_some, Option.getD_some]
    exact h.addRegistry.register sound.addRegistry new capacity
  | false =>
    obtain ⟨r, there⟩ : ∃ r, c.registries[0]? = some r := ⟨_, List.getElem?_eq_getElem sound.shared⟩
    simp only [Client.openSession, Bool.false_eq_true, if_false, there, Option.map_some, Option.getD_some]
    exact h.register sound there capacity

end Routed

/-- A step about a session takes connections out of their registries at most. -/
theorem Invariant.thinned (h : c.Invariant) (ha : Action.session? a = some i) :
    Thinned c.registries (c.step a).registries := by
  rcases h.step_cases ha with ⟨h, -, turns⟩ | ⟨-, turns | ⟨m, s, inbound, stopping, ready, -, -, -, heq, -⟩⟩
  · exact turns.registries
  · exact turns.registries
  · rw [heq]
    exact .refl _

theorem Invariant.routed_step (h : c.Invariant) (routed : c.Routed) (a : Action) : (c.step a).Routed := by
  cases ha : Action.session? a with
  | some i =>
    have spread := h.sound.step_about h.held ha
    refine routed.thinned (h.thinned ha) ?_
    rw [Client.step, ha]
    exact spread.places fun _ _ _ stepped => ⟨stepped.registry, stepped.connection⟩
  | none =>
    have still (registries : (c.act a).registries = c.registries)
        (spread : Spreads (fun _ => Session.Quiet) c (c.act a)) : (c.act a).Routed :=
      routed.thinned (registries ▸ .refl _) (spread.places fun _ _ _ quiet => ⟨quiet.registry, quiet.connection⟩)
    rw [Client.step, ha]
    cases a with
    | «open» inPrivate capacity => exact routed.openSession h.sound inPrivate capacity
    | advance time => exact still rfl (h.sound.advance time)
    | notify connection n => exact still (registries_deliver c 0 connection n) (h.sound.deliver 0 connection n)
    | _ => cases ha

theorem Invariant.routed_run (h : c.Invariant) (routed : c.Routed) (actions : List Action) :
    (c.run actions).Routed := by
  induction actions generalizing c with
  | nil => exact routed
  | cons a actions ih => exact ih (h.step a) (h.routed_step routed a)

end Client
end Ovsdb
