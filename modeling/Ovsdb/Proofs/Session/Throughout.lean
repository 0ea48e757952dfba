import Ovsdb.Proofs.Session.Client
import Ovsdb.Proofs.Session.Outlet

/-! Relations that every session of a client keeps to, each in its place. The closing of a session, the messages that
    it takes and the turns of its dispatcher are gone through once, for any relation that what they are made of keeps
    to. -/

namespace Ovsdb

/-- A relation between a session and what has come of it that is kept to by whatever leaves the books, the way out,
    what waits for room and the schemas alone, by what is taken down about messages, and by the closing. -/
structure Session.Lasting (R : Session → Session → Prop) : Prop where
  refl (s : Session) : R s s
  trans {s t u : Session} (first : R s t) (rest : R t u) : R s u
  aside {s t : Session} (books : t.toLedger = s.toLedger) (outlet : t.outlet = s.outlet)
    (offers : t.offers = s.offers) (schemas : t.schemas = s.schemas) : R s t
  received (s : Session) (m : Json) : R s (s.note (.received m))
  callback (s : Session) (h : Handler) (n : Notification) : R s (s.note (.callback h n))
  close (s : Session) : R s s.close

/-- Replies of the server and responses of the dispatcher's keep to the relation as well. -/
structure Session.Lasting.Conversing (R : Session → Session → Prop) : Prop extends Session.Lasting R where
  complete (s : Session) (r : Response) : R s (s.complete r)
  respond (s : Session) (r : Response) : R s (s.respond r)

/-- So does everything else that tasks and users do, except that users' calls begin and that calls end with their reply.
    The way out does not matter. -/
structure Session.Lasting.Thorough (R : Session → Session → Prop) : Prop extends Session.Lasting.Conversing R where
  carry {s t : Session} (books : t.toLedger = s.toLedger) (offers : t.offers = s.offers)
    (schemas : t.schemas = s.schemas) : R s t
  invite (s : Session) : R s s.invite
  enter (s : Session) (sender : Sender) : R s (s.enter sender)
  acknowledge (s : Session) (ticket : Nat) : R s (s.rejected (.closer ticket))
  shutdown (s : Session) (ticket k : Nat) : R s (s.offer (.shutdown ticket) (.closer k))
  endWriter (s : Session) : R s s.endWriter
  echo (s : Session) (k : Nat) : R s (s.call (.keepalive k) "echo" (.arr []) .value)
  abandon (s : Session) (ticket : Nat) : R s (s.abandon ticket)

theorem Session.Lasting.woken {R : Session → Session → Prop} {s t : Session} (h : Lasting R) (task : Task)
    (books : t.toLedger = s.toLedger) (outlet : t.outlet = s.outlet) (offers : t.offers = s.offers)
    (schemas : t.schemas = s.schemas) : R s (t.wake task) := by
  obtain ⟨ready, heq⟩ := t.wake_eq task
  rw [heq]
  exact h.aside books outlet offers schemas

namespace Client
variable {c d e : Client} {i : Nat} {f : Session → Session}

/-- Every session there is stays in its place, and goes on as `R` says. -/
def Throughout (R : Nat → Session → Session → Prop) (c d : Client) : Prop :=
  ∀ i s, c.sessions[i]? = some s → ∃ t, d.sessions[i]? = some t ∧ R i s t

namespace Throughout
variable {P Q R : Nat → Session → Session → Prop}

theorem trans (h₁ : Throughout P c d) (h₂ : Throughout Q d e) (hR : ∀ i s t u, P i s t → Q i t u → R i s u) :
    Throughout R c e := by
  intro i s hs
  obtain ⟨t, ht, first⟩ := h₁ i s hs
  obtain ⟨u, hu, rest⟩ := h₂ i t ht
  exact ⟨u, hu, hR i s t u first rest⟩

theorem mono (h : Throughout P c d) (hR : ∀ i s t, P i s t → R i s t) : Throughout R c d := by
  intro i s hs
  obtain ⟨t, ht, here⟩ := h i s hs
  exact ⟨t, ht, hR i s t here⟩

theorem then_modify (h : Throughout P c d) (others : ∀ j s t, j ≠ i → P j s t → R j s t)
    (own : ∀ s t, c.sessions[i]? = some s → P i s t → R i s (f t)) : Throughout R c (d.modify i f) := by
  intro j s hs
  obtain ⟨t, ht, here⟩ := h j s hs
  by_cases hj : j = i
  · subst hj
    exact ⟨f t, sessions_modify_self ht f, own s t hs here⟩
  · exact ⟨t, (sessions_modify_other hj f).trans ht, others j s t hj here⟩

theorem modify (others : ∀ j s, j ≠ i → R j s s) (own : ∀ s, c.sessions[i]? = some s → R i s (f s)) :
    Throughout R c (c.modify i f) := by
  have same : Throughout (fun _ s t => t = s) c c := fun _ s hs => ⟨s, hs, rfl⟩
  exact same.then_modify (fun j s _ hj heq => heq ▸ others j s hj) fun s _ hs heq => heq ▸ own s hs

end Throughout

/-- Every session keeps to a relation, wherever it is. -/
abbrev Keeps (R : Session → Session → Prop) : Client → Client → Prop :=
  Throughout fun _ => R

end Client

namespace Session.Lasting
open Client
variable {R : Session → Session → Prop} {c d e : Client} {i : Nat} {f : Session → Session}

theorem keeps_refl (h : Lasting R) (c : Client) : Keeps R c c :=
  fun _ s hs => ⟨s, hs, h.refl s⟩

theorem keeps_trans (h : Lasting R) (h₁ : Keeps R c d) (h₂ : Keeps R d e) : Keeps R c e :=
  h₁.trans h₂ fun _ _ _ _ => h.trans

theorem keeps_modify (h : Lasting R) (hf : ∀ s, c.sessions[i]? = some s → R s (f s)) : Keeps R c (c.modify i f) :=
  Throughout.modify (fun _ s _ => h.refl s) hf

/-! ### Life and death of sessions -/

theorem keeps_openSession (h : Lasting R) (c : Client) (inPrivate : Bool) (capacity : Nat) :
    Keeps R c (c.openSession inPrivate capacity) := by
  refine fun j s hs => ⟨s, ?_, h.refl s⟩
  exact (List.getElem?_append_left (List.getElem?_eq_some_iff.mp hs).1).trans hs

theorem keeps_tearDown (h : Lasting R) (c : Client) (i : Nat) : Keeps R c (c.tearDown i) := by
  obtain ⟨same, -⟩ | ⟨s, hs, state⟩ := c.tearDown_cases i
  · rw [same]
    exact h.keeps_refl c
  · rw [tearDown_eq hs state]
    exact h.keeps_modify fun s _ => h.close s

theorem keeps_stop (h : Lasting R) (c : Client) (i : Nat) : Keeps R c (c.stop i) := by
  refine h.keeps_trans (h.keeps_tearDown c i) (h.keeps_modify fun s _ => ?_)
  split
  · exact h.refl s
  · exact h.woken _ rfl rfl rfl rfl

theorem keeps_release (h : Lasting R) (c : Client) (i : Nat) : Keeps R c (c.release i) := by
  rw [Client.release]
  split
  · split
    · exact h.keeps_stop c i
    · exact h.keeps_refl c
  · exact h.keeps_refl c

theorem keeps_endDispatcher (h : Lasting R) (c : Client) (i : Nat) : Keeps R c (c.endDispatcher i) :=
  h.keeps_trans (h.keeps_tearDown c i) (h.keeps_modify fun _ _ => h.aside rfl rfl rfl rfl)

theorem keeps_advance (h : Lasting R) (c : Client) (time : Nat) : Keeps R c (c.act (.advance time)) := by
  intro j s hs
  refine ⟨s.wakeDue (c.now + time), List.getElem?_map.trans (congrArg (Option.map _) hs), ?_⟩
  obtain ⟨ready, heq⟩ := s.wakeDue_eq (c.now + time)
  rw [heq]
  exact h.aside rfl rfl rfl rfl

/-! ### Messages -/

theorem keeps_deliver (h : Lasting R) (c : Client) (registry connection : Nat) (n : Notification) :
    Keeps R c (c.deliver registry connection n).1 := by
  rw [Client.deliver]
  split
  · exact h.keeps_refl c
  · exact h.keeps_modify fun s _ => h.callback s s.handler n

namespace Conversing

theorem keeps_handle (h : Conversing R) (c : Client) (i registry connection : Nat) (q : Request) :
    Keeps R c (c.handle i registry connection q) := by
  have answered (r : Response) : Keeps R c (c.modify i (·.respond r)) := h.keeps_modify fun s _ => h.respond s r
  rw [Client.handle]
  split
  · split
    · exact h.keeps_refl c
    · exact answered _
  · split
    · exact h.keeps_deliver c registry connection _
    · split
      · exact h.keeps_refl c
      · exact answered _
    · exact h.keeps_refl c

theorem keeps_receive (h : Conversing R) (c : Client) (i registry connection : Nat) (m : Json) :
    Keeps R c (c.receive i registry connection m) := by
  have noted : Keeps R c (c.modify i (·.note (.received m))) := h.keeps_modify fun s _ => h.received s m
  rw [Client.receive]
  split
  · exact h.keeps_trans noted (h.keeps_modify fun s _ => h.complete s _)
  · exact h.keeps_trans noted (h.keeps_handle _ i registry connection _)
  · exact noted

/-- A turn of the dispatcher keeps to the relation if it does so when its response gets into the queue at last. -/
theorem keeps_dispatch (h : Conversing R) (c : Client) (i : Nat) (s : Session)
    (enter : ∀ s, c.sessions[i]? = some s → R s (s.enter .dispatcher)) : Keeps R c (c.dispatch i s) := by
  have read (r : Framing.Reader) : Keeps R c (c.modify i fun s => { s with inbound := r }) :=
    h.keeps_modify fun _ _ => h.aside rfl rfl rfl rfl
  rw [Client.dispatch.eq_def]
  split
  · exact h.keeps_refl c
  · exact h.keeps_modify enter
  · split
    · exact h.keeps_endDispatcher c i
    · split
      · exact h.keeps_trans (read _) (h.keeps_receive _ i _ _ _)
      · exact h.keeps_trans (read _) (h.keeps_endDispatcher _ i)
      · dsimp only
        split
        · exact read _
        · exact h.keeps_trans (read _) (h.keeps_endDispatcher _ i)
      · exact h.keeps_modify fun _ _ => h.aside rfl rfl rfl rfl

end Conversing

namespace Thorough

/-! ### Keepalives -/

theorem fire (h : Thorough R) (s : Session) (k : Nat) : R s (s.fire k) := by
  rw [Session.fire]
  split
  · exact h.refl s
  · have later : R s { s with keepalives := s.keepalives.modify k fun a => { a with next := a.next + a.period } } :=
      h.carry rfl rfl rfl
    exact h.trans later (h.echo _ k)

theorem await (h : Thorough R) (s : Session) (k now : Nat) : R s (s.await k now) := by
  rw [Session.await]
  split
  · exact h.refl s
  · split
    · exact h.fire s k
    · exact h.carry rfl rfl rfl

/-- A keepalive whose echo has ended goes on, or ends. -/
theorem report_keepalive (h : Thorough R) (s : Session) (k : Nat) (goal : Goal) (now : Nat)
    (result : Except Error Answer) : R s (s.report (.keepalive k) goal now result) := by
  cases result with
  | ok _ => exact h.await s k now
  | error e =>
    rw [Session.report]
    split
    · exact h.refl s
    · exact h.await s k now

theorem keepAlive (h : Thorough R) (s : Session) (period now : Nat) : R s (s.keepAlive period now) := by
  have started : R s { s with keepalives := s.keepalives ++ [Keepalive.mk period (now + period)] } :=
    h.carry rfl rfl rfl
  exact h.trans started (h.await _ _ now)

theorem tick (h : Thorough R) (s : Session) (k : Nat) : R s (s.tick k) := by
  have taken : R s { s with timers := s.timers.filter (· != k) } := h.carry rfl rfl rfl
  exact h.trans taken (h.fire _ k)

/-! ### Tasks -/

theorem keeps_write (h : Thorough R) (c : Client) (i : Nat) (s : Session) : Keeps R c (c.write i s) := by
  rw [Client.write.eq_def]
  split
  · exact h.keeps_refl c
  · split
    · exact h.keeps_modify fun s _ => h.endWriter s
    · exact h.keeps_refl c
  case h_3 j rest _ _ =>
    refine h.keeps_modify fun s _ => ?_
    have taken : R s { s with writer := .writing (Framing.frameBytes j), queue := rest } := h.carry rfl rfl rfl
    exact h.trans taken (h.invite _)
  case h_4 ticket rest _ _ =>
    refine h.keeps_modify fun s _ => ?_
    have taken : R s { s with queue := rest, stream := { s.stream with shut := true } } := h.carry rfl rfl rfl
    exact h.trans (h.trans taken (h.acknowledge _ ticket)) (h.endWriter _)
  · split
    · exact h.keeps_modify fun _ _ => h.carry rfl rfl rfl
    · exact h.keeps_trans (h.keeps_stop c i) (h.keeps_modify fun s _ => h.endWriter s)

/-- A turn of a task keeps to the relation if no call ends with its reply, or if that keeps to it. -/
theorem keeps_perform (h : Thorough R) (c : Client) (i : Nat) (task : Task)
    (conclude : ∀ k, task = .call k → ∀ s, c.sessions[i]? = some s → R s (s.conclude k c.now)) :
    Keeps R c (c.perform i task) := by
  rw [Client.perform]
  split
  · exact h.keeps_refl c
  case h_2 s _ =>
    split
    · cases task with
      | dispatch => exact h.keeps_dispatch c i s fun s _ => h.enter s .dispatcher
      | call k =>
        refine h.keeps_modify fun s hs => ?_
        rw [proceed]
        split
        · exact h.enter s _
        · exact conclude k rfl s hs
      | closer ticket => exact h.keeps_modify fun s _ => h.enter s (.closer ticket)
      | tick k => exact h.keeps_modify fun s _ => h.tick s k
      | write => exact h.keeps_write c i s
      | serve | supply => exact h.keeps_modify fun _ _ => h.woken _ rfl rfl rfl rfl
    · exact h.keeps_modify fun _ _ => h.aside rfl rfl rfl rfl

/-! ### Steps -/

/-- So does an action, if it begins no call of a user's or if that keeps to the relation as well. -/
theorem keeps_act (h : Thorough R) (c : Client) (a : Action)
    (invoke : ∀ i ticket invocation, a = .invoke i ticket invocation →
      ∀ s, c.sessions[i]? = some s → R s (s.invoke ticket invocation))
    (conclude : ∀ i k, a = .task i (.call k) → ∀ s, c.sessions[i]? = some s → R s (s.conclude k c.now)) :
    Keeps R c (c.act a) := by
  cases a with
  | «open» inPrivate capacity => exact h.keeps_openSession c inPrivate capacity
  | clone i | drop i | handler i _ | serverReads i on => exact h.keeps_modify fun _ _ => h.aside rfl rfl rfl rfl
  | invoke i ticket invocation => exact h.keeps_modify (invoke i ticket invocation rfl)
  | close i ticket =>
    have asked (s : Session) : R s { s with closers := s.closers ++ [ticket] } := h.carry rfl rfl rfl
    exact h.keeps_trans (h.keeps_stop c i)
      (h.keeps_modify fun s _ => h.trans (asked s) (h.shutdown _ ticket ticket))
  | abandon i ticket => exact h.keeps_modify fun s _ => h.abandon s ticket
  | keepalive i period =>
    refine h.keeps_modify fun s _ => ?_
    split
    · exact h.refl s
    · exact h.keepAlive s period c.now
  | advance time => exact h.keeps_advance c time
  | notify connection n => exact h.keeps_deliver c 0 connection n
  | send i bytes =>
    refine h.keeps_modify fun s _ => ?_
    split
    · exact h.woken _ rfl rfl rfl rfl
    · exact h.refl s
  | serverEnds i => exact h.keeps_modify fun _ _ => h.woken _ rfl rfl rfl rfl
  | serverDrops i =>
    refine h.keeps_modify fun s _ => ?_
    have dropped : R s
        ({ s with stream := { s.stream with serverWrites := false, serverPresent := false } }.wake .dispatch) := by
      obtain ⟨ready, heq⟩ := Session.wake_eq
        { s with stream := { s.stream with serverWrites := false, serverPresent := false } } .dispatch
      rw [heq]
      exact h.carry rfl rfl rfl
    exact h.trans dropped (h.woken _ rfl rfl rfl rfl)
  | task i t => exact h.keeps_perform c i t fun k heq => conclude i k (heq ▸ rfl)

theorem keeps_step (h : Thorough R) (c : Client) (a : Action)
    (invoke : ∀ i ticket invocation, a = .invoke i ticket invocation →
      ∀ s, c.sessions[i]? = some s → R s (s.invoke ticket invocation))
    (conclude : ∀ i k, a = .task i (.call k) → ∀ s, c.sessions[i]? = some s → R s (s.conclude k c.now)) :
    Keeps R c (c.step a) := by
  rw [Client.step]
  split
  · exact h.keeps_trans (h.keeps_act c a invoke conclude) (h.keeps_release _ _)
  · exact h.keeps_act c a invoke conclude

end Thorough
end Session.Lasting
end Ovsdb
