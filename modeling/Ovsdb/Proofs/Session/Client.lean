import Ovsdb.Session.Client
import Ovsdb.Proofs.Session.Actions
import Ovsdb.Proofs.Session.History

/-! What one step of a run does to each session: its books change by turns or by the receipt of one message, and a
    session is registered for as long as it is open. -/

namespace Ovsdb

namespace Registry

variable {r : Registry} {i k n : Nat}

/-- The connections that have been registered have numbers that have been given out. -/
def Fresh (r : Registry) : Prop :=
  ∀ e ∈ r.entries, e.1 < r.next

theorem owner?_deregister_self (r : Registry) (k : Nat) : (r.deregister k).owner? k = none := by
  rw [owner?, deregister, List.lookup_eq_none_iff]
  intro e he
  have other := bne_iff_ne.mp (List.mem_filter.mp he).2
  exact bne_iff_ne.mpr other.symm

theorem owner?_deregister_of_ne (r : Registry) (hn : n ≠ k) : (r.deregister k).owner? n = r.owner? n := by
  rw [owner?, deregister, owner?]
  induction r.entries with
  | nil => rfl
  | cons e entries ih =>
    by_cases he : e.1 = k
    · have other : (n == e.1) = false := beq_false_of_ne (he ▸ hn)
      rw [List.filter_cons_of_neg (by simp [he]), ih, List.lookup_cons, other]
    · rw [List.filter_cons_of_pos (by simp [he]), List.lookup_cons, List.lookup_cons, ih]

theorem owner?_register_self (h : r.Fresh) (i : Nat) : (r.register i).owner? r.next = some i := by
  have new : r.entries.lookup r.next = none := by
    rw [List.lookup_eq_none_iff]
    intro e he
    simpa using (Nat.ne_of_lt (h e he)).symm
  rw [owner?, register, List.lookup_append, new]
  simp

theorem owner?_register_of_lt (hn : n < r.next) : (r.register i).owner? n = r.owner? n := by
  have other : n ≠ r.next := Nat.ne_of_lt hn
  rw [owner?, register, List.lookup_append, owner?]
  simp [other]

theorem Fresh.register (h : r.Fresh) (i : Nat) : (r.register i).Fresh := by
  intro e he
  rcases List.mem_append.mp he with he | he
  · exact Nat.lt_succ_of_lt (h e he)
  · rw [List.mem_singleton.mp he]
    exact Nat.lt_succ_self _

theorem Fresh.deregister (h : r.Fresh) (k : Nat) : (r.deregister k).Fresh :=
  fun e he => h e (List.mem_filter.mp he).1

end Registry

namespace Client

/-- The session is registered under its connection as long as it is open, and not any more when it is closed. -/
def Located (c : Client) (i : Nat) (s : Session) : Prop :=
  ∃ r, c.registries[s.registry]? = some r ∧ s.connection < r.next ∧
    r.owner? s.connection = if s.state = .opened then some i else none

/-- What holds of a client while it takes a step. -/
structure Sound (c : Client) : Prop where
  shared : 0 < c.registries.length
  fresh : ∀ (k : Nat) (r : Registry), c.registries[k]? = some r → r.Fresh
  orderly : ∀ (i : Nat) (s : Session), c.sessions[i]? = some s → s.Orderly
  located : ∀ (i : Nat) (s : Session), c.sessions[i]? = some s → c.Located i s

/-- What every session comes to, while no session is added and the client stays sound. -/
structure Spreads (P : Nat → Session → Session → Prop) (c d : Client) : Prop where
  sound : d.Sound
  back : ∀ (j : Nat) (t : Session), d.sessions[j]? = some t → ∃ s, c.sessions[j]? = some s
  sessions : ∀ (j : Nat) (s : Session), c.sessions[j]? = some s → ∃ t, d.sessions[j]? = some t ∧ P j s t

/-- `t` comes from `s` by a turn of a task, or by the release after it. -/
structure Turned (s t : Session) : Prop where
  books : Relation.ReflTransGen Ledger.Turn s.toLedger t.toLedger
  registry : t.registry = s.registry
  connection : t.connection = s.connection
  awake : s.Awake → t.Awake

/-- The session that something is about takes turns, the others only say more. -/
def About (i j : Nat) (s t : Session) : Prop :=
  Turned s t ∧ (j ≠ i → s.Quiet t)

/-- The session that a message is for takes it, the others only say more. -/
def Told (m : Json) (i j : Nat) (s t : Session) : Prop :=
  (j = i → s.Takes m t) ∧ (j ≠ i → s.Quiet t)

variable {c d e : Client} {P Q R : Nat → Session → Session → Prop} {i j k : Nat} {m : Json} {s t u : Session}
  {f : Session → Session}

theorem Turned.trans (h₁ : Turned s t) (h₂ : Turned t u) : Turned s u :=
  ⟨h₁.books.trans h₂.books, h₂.registry.trans h₁.registry, h₂.connection.trans h₁.connection, h₂.awake ∘ h₁.awake⟩

theorem turned_of_moved (h : s.Moved t) : Turned s t :=
  ⟨Ledger.turns_of_moves h.books, h.registry, h.connection, h.awake⟩

namespace About

theorem quiet (h : s.Quiet t) : About i j s t :=
  ⟨turned_of_moved h.moved, fun _ => h⟩

theorem moved (h : s.Moved t) : About i i s t :=
  ⟨turned_of_moved h, fun hi => absurd rfl hi⟩

theorem trans (h₁ : About i j s t) (h₂ : About i j t u) : About i j s u :=
  ⟨h₁.1.trans h₂.1, fun hj => (h₁.2 hj).trans (h₂.2 hj)⟩

end About

namespace Spreads

theorem trans (hR : ∀ j s t u, P j s t → Q j t u → R j s u) (h₁ : Spreads P c d) (h₂ : Spreads Q d e) :
    Spreads R c e where
  sound := h₂.sound
  back := by
    intro j u hu
    obtain ⟨t, ht⟩ := h₂.back j u hu
    exact h₁.back j t ht
  sessions := by
    intro j s hs
    obtain ⟨t, ht, hp⟩ := h₁.sessions j s hs
    obtain ⟨u, hu, hq⟩ := h₂.sessions j t ht
    exact ⟨u, hu, hR j s t u hp hq⟩

theorem mono (h : Spreads P c d) (hQ : ∀ j s t, P j s t → Q j s t) : Spreads Q c d where
  sound := h.sound
  back := h.back
  sessions := by
    intro j s hs
    obtain ⟨t, ht, hp⟩ := h.sessions j s hs
    exact ⟨t, ht, hQ j s t hp⟩

theorem refl (h : c.Sound) (hP : ∀ j s, s.Orderly → P j s s) : Spreads P c c :=
  ⟨h, fun _ s hs => ⟨s, hs⟩, fun j s hs => ⟨s, hs, hP j s (h.orderly j s hs)⟩⟩

end Spreads

/-- A session that is in order stays in its place, open or closed as it is. -/
structure Stays (s t : Session) : Prop where
  orderly : t.Orderly
  state : t.state = s.state
  registry : t.registry = s.registry
  connection : t.connection = s.connection

theorem stays_of_moved (h : s.Moved t) : Stays s t :=
  ⟨h.orderly, h.state, h.registry, h.connection⟩

theorem stays_of_takes (h : s.Takes m t) : Stays s t :=
  ⟨h.orderly, h.state, h.registry, h.connection⟩

theorem Located.stays (h : c.Located i s) (hs : Stays s t) (registries : d.registries = c.registries) :
    d.Located i t := by
  rw [Located, registries, hs.registry, hs.connection, hs.state]
  exact h

/-- The sessions change without leaving their places. -/
theorem Sound.spreads (h : c.Sound) {g : Nat → Session → Session} (registries : d.registries = c.registries)
    (sessions : ∀ j : Nat, d.sessions[j]? = (c.sessions[j]?).map (g j))
    (hg : ∀ (j : Nat) (s : Session), c.sessions[j]? = some s → Stays s (g j s) ∧ P j s (g j s)) : Spreads P c d where
  sound := by
    have back : ∀ (j : Nat) (t : Session), d.sessions[j]? = some t → ∃ s, c.sessions[j]? = some s ∧ g j s = t := by
      intro j t ht
      rw [sessions] at ht
      exact Option.map_eq_some_iff.mp ht
    refine ⟨registries ▸ h.shared, registries ▸ h.fresh, ?_, ?_⟩
    · intro j t ht
      obtain ⟨s, hs, rfl⟩ := back j t ht
      exact (hg j s hs).1.orderly
    · intro j t ht
      obtain ⟨s, hs, rfl⟩ := back j t ht
      exact (h.located j s hs).stays (hg j s hs).1 registries
  back := by
    intro j t ht
    rw [sessions] at ht
    obtain ⟨s, hs, -⟩ := Option.map_eq_some_iff.mp ht
    exact ⟨s, hs⟩
  sessions := by
    intro j s hs
    exact ⟨g j s, by rw [sessions, hs]; rfl, (hg j s hs).2⟩

theorem sessions_modify (c : Client) (i : Nat) (f : Session → Session) (j : Nat) :
    (c.modify i f).sessions[j]? = (c.sessions[j]?).map fun s => if i = j then f s else s := by
  rw [modify, List.getElem?_modify]
  rfl

theorem sessions_modify_self (hs : c.sessions[i]? = some s) (f : Session → Session) :
    (c.modify i f).sessions[i]? = some (f s) := by
  rw [sessions_modify, hs, Option.map_some, if_pos rfl]

theorem sessions_modify_other (hj : j ≠ i) (f : Session → Session) :
    (c.modify i f).sessions[j]? = c.sessions[j]? := by
  rw [sessions_modify]
  simp [hj.symm]

theorem Sound.modify (h : c.Sound) (hP : ∀ j s, j ≠ i → s.Orderly → P j s s)
    (hf : ∀ s, c.sessions[i]? = some s → Stays s (f s) ∧ P i s (f s)) : Spreads P c (c.modify i f) := by
  refine h.spreads (g := fun j s => if i = j then f s else s) rfl (sessions_modify c i f) ?_
  intro j s hs
  by_cases hj : i = j
  · subst hj
    rw [if_pos rfl]
    exact hf s hs
  · rw [if_neg hj]
    have order := h.orderly j s hs
    exact ⟨stays_of_moved (.refl order), hP j s (Ne.symm hj) order⟩

theorem Sound.modify_moved (h : c.Sound) (hf : ∀ s, c.sessions[i]? = some s → s.Moved (f s)) :
    Spreads (About i) c (c.modify i f) :=
  h.modify (fun _ _ _ order => .quiet (.refl order)) fun s hs => ⟨stays_of_moved (hf s hs), .moved (hf s hs)⟩

theorem Sound.modify_quiet (h : c.Sound) (hf : ∀ s, c.sessions[i]? = some s → s.Quiet (f s)) :
    Spreads (fun _ => Session.Quiet) c (c.modify i f) :=
  h.modify (fun _ _ _ order => .refl order) fun s hs => ⟨stays_of_moved (hf s hs).moved, hf s hs⟩

/-- An open session has a writer. -/
theorem Sound.live (h : c.Sound) (hs : c.sessions[i]? = some s) (opened : s.state = .opened) : s.writer ≠ .ended := by
  intro spent
  cases opened.symm.trans ((h.orderly i s hs).spent spent).1

theorem Sound.still (h : c.Sound) (i : Nat) : Spreads (About i) c c :=
  .refl h fun _ _ order => .quiet (.refl order)

theorem Sound.silent (h : c.Sound) : Spreads (fun _ => Session.Quiet) c c :=
  .refl h fun _ _ order => .refl order

/-! ### Life and death of sessions -/

theorem registries_modify (c : Client) (k : Nat) (g : Registry → Registry) (l : Nat) :
    (c.registries.modify k g)[l]? = (c.registries[l]?).map fun r => if k = l then g r else r := by
  rw [List.getElem?_modify]
  rfl

theorem tearDown_eq (hs : c.sessions[i]? = some s) (opened : s.state = .opened) : c.tearDown i =
    { c with
      registries := c.registries.modify s.registry (·.deregister s.connection)
      sessions := c.sessions.modify i Session.close } := by
  simp only [tearDown, hs, opened]

theorem tearDown_of_closed (hs : c.sessions[i]? = some s) (closed : s.state = .closed) : c.tearDown i = c := by
  simp only [tearDown, hs, closed]

/-- A session that is not open is left as it is. -/
theorem tearDown_cases (c : Client) (i : Nat) :
    (c.tearDown i = c ∧ ∀ s, c.sessions[i]? = some s → s.state = .closed) ∨
    ∃ s, c.sessions[i]? = some s ∧ s.state = .opened := by
  cases hs : c.sessions[i]? with
  | none => exact Or.inl ⟨by simp only [tearDown, hs], fun _ there => by cases there⟩
  | some s =>
    cases state : s.state with
    | closed => exact Or.inl ⟨tearDown_of_closed hs state, fun _ there => by cases there; exact state⟩
    | opened => exact Or.inr ⟨s, rfl, state⟩

theorem sessions_tearDown (hs : c.sessions[i]? = some s) (opened : s.state = .opened) (j : Nat) :
    (c.tearDown i).sessions[j]? = (c.sessions[j]?).map fun t => if i = j then t.close else t := by
  rw [tearDown_eq hs opened]
  exact sessions_modify c i Session.close j

theorem state_close (s : Session) : s.close.state = .closed := by
  obtain ⟨ready, heq⟩ := s.update_eq s.toLedger.close
  rw [Session.close, heq]
  rfl

/-- Closing a session leaves the others where they are: no two share a connection. -/
theorem Located.deregister (h : c.Located i s) (ht : c.Located j t) (opened : s.state = .opened) (hj : j ≠ i) :
    Located { c with
      registries := c.registries.modify s.registry (·.deregister s.connection)
      sessions := c.sessions.modify i Session.close } j t := by
  obtain ⟨r, hr, lt, owner⟩ := ht
  obtain ⟨r', hr', -, owner'⟩ := h
  refine ⟨if s.registry = t.registry then r.deregister s.connection else r, ?_, ?_, ?_⟩
  · rw [registries_modify, hr]
    rfl
  · split <;> exact lt
  · split
    case isTrue same =>
      -- In one registry, one connection has one owner.
      have other : t.connection ≠ s.connection := by
        intro shared
        rw [same, hr] at hr'
        cases hr'
        rw [shared, owner', if_pos opened] at owner
        split at owner
        · exact hj (Option.some.inj owner).symm
        · cases owner
      rw [Registry.owner?_deregister_of_ne r other, owner]
    case isFalse => exact owner

/-- The session itself is not registered any more. -/
theorem Located.close (h : c.Located i s) (order : s.Orderly) :
    Located { c with
      registries := c.registries.modify s.registry (·.deregister s.connection)
      sessions := c.sessions.modify i Session.close } i s.close := by
  obtain ⟨-, books, registry, connection, -⟩ := order.close
  obtain ⟨r, hr, lt, -⟩ := h
  refine ⟨r.deregister s.connection, ?_, ?_, ?_⟩
  · rw [registry, registries_modify, hr]
    simp
  · rw [connection]
    exact lt
  · rw [connection, books, Registry.owner?_deregister_self]
    rfl

theorem Sound.tearDown_of_opened (h : c.Sound) (hs : c.sessions[i]? = some s) (opened : s.state = .opened) :
    Sound { c with
      registries := c.registries.modify s.registry (·.deregister s.connection)
      sessions := c.sessions.modify i Session.close } := by
  have after (j : Nat) : (c.sessions.modify i Session.close)[j]? =
      (c.sessions[j]?).map fun t => if i = j then t.close else t := sessions_modify c i Session.close j
  refine ⟨?_, ?_, ?_, ?_⟩
  · exact (List.length_modify _ _ _).symm ▸ h.shared
  · intro k r hr
    rw [registries_modify] at hr
    obtain ⟨r', hr', rfl⟩ := Option.map_eq_some_iff.mp hr
    split
    · exact (h.fresh k r' hr').deregister _
    · exact h.fresh k r' hr'
  · intro j t ht
    rw [after] at ht
    obtain ⟨t', ht', rfl⟩ := Option.map_eq_some_iff.mp ht
    split
    case isTrue => exact (h.orderly j t' ht').close.1
    case isFalse => exact h.orderly j t' ht'
  · intro j t ht
    rw [after] at ht
    obtain ⟨t', ht', rfl⟩ := Option.map_eq_some_iff.mp ht
    split
    case isTrue same =>
      subst same
      cases hs.symm.trans ht'
      exact (h.located i s hs).close (h.orderly i s hs)
    case isFalse other => exact (h.located i s hs).deregister (h.located j t' ht') opened (Ne.symm other)

theorem Sound.tearDown (h : c.Sound) (i : Nat) : Spreads (About i) c (c.tearDown i) := by
  obtain ⟨same, -⟩ | ⟨s, hs, state⟩ := c.tearDown_cases i
  · rw [same]
    exact h.still i
  · have sessions := sessions_tearDown hs state
    refine ⟨tearDown_eq hs state ▸ h.tearDown_of_opened hs state, ?_, ?_⟩
    · intro j t ht
      rw [sessions] at ht
      obtain ⟨t', ht', -⟩ := Option.map_eq_some_iff.mp ht
      exact ⟨t', ht'⟩
    · intro j t ht
      refine ⟨_, by rw [sessions, ht]; rfl, ?_⟩
      split
      case isTrue same =>
        subst same
        cases hs.symm.trans ht
        obtain ⟨-, books, registry, connection, awake⟩ := (h.orderly i s hs).close
        exact ⟨⟨books ▸ .single (.close state), registry, connection, awake⟩, fun hi => absurd rfl hi⟩
      case isFalse => exact .quiet (.refl (h.orderly j t ht))

theorem quiet_stopping (h : s.Orderly) :
    s.Quiet (if s.stopping then s else { s with stopping := true }.wake .dispatch) := by
  split
  · exact .refl h
  · have told : s.Quiet { s with stopping := true } := h.alike_quiet ⟨rfl, rfl, rfl, rfl, rfl, rfl, rfl, rfl⟩ rfl rfl
    exact told.trans (told.orderly.wake .dispatch)

theorem Sound.stop (h : c.Sound) (i : Nat) : Spreads (About i) c (c.stop i) := by
  have down := h.tearDown i
  have told := down.sound.modify_moved (i := i) fun s hs => (quiet_stopping (down.sound.orderly i s hs)).moved
  exact down.trans (fun _ _ _ _ => .trans) told

theorem state_tearDown (hs : (c.tearDown i).sessions[i]? = some s) : s.state = .closed := by
  obtain ⟨same, closed⟩ | ⟨t, ht, state⟩ := c.tearDown_cases i
  · rw [same] at hs
    exact closed s hs
  · rw [sessions_tearDown ht state, ht, Option.map_some, if_pos rfl] at hs
    cases hs
    exact state_close t

theorem state_stop (hs : (c.stop i).sessions[i]? = some s) : s.state = .closed := by
  rw [stop, sessions_modify] at hs
  obtain ⟨t, ht, rfl⟩ := Option.map_eq_some_iff.mp hs
  have closed := state_tearDown ht
  rw [if_pos rfl]
  split
  · exact closed
  · obtain ⟨ready, heq⟩ := Session.wake_eq { t with stopping := true } .dispatch
    rw [heq]
    exact closed

theorem Sound.release (h : c.Sound) (i : Nat) : Spreads (About i) c (c.release i) := by
  rw [Client.release]
  split
  · split
    · exact h.stop i
    · exact h.still i
  · exact h.still i

/-- Nobody is left who could do anything with a session that nobody holds. -/
def Held (s : Session) : Prop :=
  s.holders = 0 → s.state = .closed

theorem held_release (hs : (c.release i).sessions[i]? = some s) : Held s := by
  intro unheld
  rw [Client.release] at hs
  split at hs
  case h_1 t ht =>
    split at hs
    · exact state_stop hs
    case isFalse held =>
      cases ht.symm.trans hs
      exact absurd unheld held
  case h_2 ht =>
    rw [hs] at ht
    cases ht

/-- A session that is held, or closed already, is not closed by its release. -/
theorem Sound.release_quiet (h : c.Sound) (held : ∀ s, c.sessions[i]? = some s → Held s) :
    Spreads (fun _ => Session.Quiet) c (c.release i) := by
  rw [Client.release]
  split
  case h_1 s hs =>
    split
    case isTrue unheld =>
      rw [Client.stop, tearDown_of_closed hs (held s hs unheld)]
      exact h.modify_quiet fun s hs => quiet_stopping (h.orderly i s hs)
    · exact h.silent
  · exact h.silent

/-! ### Messages -/

theorem Sound.deliver (h : c.Sound) (registry connection : Nat) (n : Notification) :
    Spreads (fun _ => Session.Quiet) c (c.deliver registry connection n).1 := by
  rw [Client.deliver]
  split
  · exact h.silent
  · exact h.modify_quiet fun s hs => (h.orderly _ s hs).note (Event.isRemark_callback _ n)

theorem registries_deliver (c : Client) (registry connection : Nat) (n : Notification) :
    (c.deliver registry connection n).1.registries = c.registries := by
  rw [Client.deliver]
  split <;> rfl

theorem Sound.handle (h : c.Sound) (i registry connection : Nat) (q : Request) :
    Spreads (fun _ => Session.Quiet) c (c.handle i registry connection q) := by
  have answers (r : Response) : Spreads (fun _ => Session.Quiet) c (c.modify i (·.respond r)) :=
    h.modify_quiet fun s hs => (h.orderly i s hs).respond r
  rw [Client.handle]
  split
  · split
    · exact h.silent
    · exact answers _
  · split
    · exact h.deliver registry connection _
    · split
      · exact h.silent
      · exact answers _
    · exact h.silent

theorem modify_modify (c : Client) (i : Nat) (f g : Session → Session) :
    (c.modify i f).modify i g = c.modify i fun s => g (f s) := by
  rw [modify, modify, modify, List.modify_modify_eq]
  rfl

theorem Sound.receive (h : c.Sound) (i registry connection : Nat) (m : Json) :
    Spreads (Told m i) c (c.receive i registry connection m) := by
  have others : ∀ j s, j ≠ i → s.Orderly → Told m i j s s := fun j s hj order =>
    ⟨fun hi => absurd hi hj, fun _ => .refl order⟩
  have taken {f : Session → Session} (hf : ∀ s, s.Orderly → s.Takes m (f s)) :
      Spreads (Told m i) c (c.modify i f) :=
    h.modify others fun s hs =>
      have takes := hf s (h.orderly i s hs)
      ⟨stays_of_takes takes, fun _ => takes, fun hi => absurd rfl hi⟩
  simp only [Client.receive]
  split
  case h_1 r hr =>
    rw [modify_modify]
    exact taken fun s order => order.complete hr
  case h_2 q hq =>
    -- A request is taken down first; what it leads to is said by its session or by another one.
    have noted := taken fun s order => order.note_received (m := m) fun r hr => by rw [hr] at hq; cases hq
    refine noted.trans (fun j s t u hp hq => ⟨fun hi => (hp.1 hi).trans hq, fun hi => (hp.2 hi).trans hq⟩) ?_
    exact noted.sound.handle i registry connection q
  case h_3 e he => exact taken fun s order => order.note_received fun r hr => by rw [hr] at he; cases he

/-! ### Tasks -/

theorem Sound.inbound (h : c.Sound) (i : Nat) (r : Framing.Reader) :
    Spreads (fun _ s t => s.Quiet t ∧ t.toLedger = s.toLedger) c (c.modify i fun s => { s with inbound := r }) :=
  h.modify (fun _ _ _ order => ⟨.refl order, rfl⟩) fun s hs =>
    have quiet : s.Quiet { s with inbound := r } :=
      (h.orderly i s hs).alike_quiet ⟨rfl, rfl, rfl, rfl, rfl, rfl, rfl, rfl⟩ rfl rfl
    ⟨stays_of_moved quiet.moved, quiet, rfl⟩

theorem Sound.endDispatcher (h : c.Sound) (i : Nat) : Spreads (About i) c (c.endDispatcher i) := by
  have down := h.tearDown i
  have ended := down.sound.modify_moved (i := i) (f := fun s => { s with dispatcher := .ended }) fun s hs =>
    (down.sound.orderly i s hs).alike ⟨rfl, rfl, rfl, rfl, rfl, rfl, rfl, rfl⟩
  exact down.trans (fun _ _ _ _ => .trans) ended

/-- The dispatcher takes one message, or else does nothing that other turns could not do. -/
theorem Sound.dispatch (h : c.Sound) (i : Nat) (s : Session) :
    Spreads (About i) c (c.dispatch i s) ∨ ∃ m, Spreads (Told m i) c (c.dispatch i s) := by
  have read (r : Framing.Reader) : Spreads (About i) c (c.modify i fun s => { s with inbound := r }) :=
    (h.inbound i r).mono fun _ _ _ hp => .quiet hp.1
  rw [Client.dispatch.eq_def]
  split
  · exact Or.inl (h.still i)
  · exact Or.inl (h.modify_moved fun s hs => (h.orderly i s hs).enter .dispatcher)
  · split
    · exact Or.inl (h.endDispatcher i)
    · split
      case h_1 _ j r _ =>
        refine Or.inr ⟨j, (h.inbound i r).trans ?_ ((h.inbound i r).sound.receive i _ _ j)⟩
        intro k s t u hp hq
        exact ⟨fun hk => (hq.1 hk).after hp.1 hp.2, fun hk => hp.1.trans (hq.2 hk)⟩
      case h_2 _ _ r _ => exact Or.inl ((read r).trans (fun _ _ _ _ => .trans) ((read r).sound.endDispatcher i))
      case h_3 r _ _ =>
        refine Or.inl ?_
        simp only
        split
        · exact read r
        · exact (read r).trans (fun _ _ _ _ => .trans) ((read r).sound.endDispatcher i)
      case h_4 =>
        refine Or.inl (h.modify_moved fun s hs => ?_)
        exact (h.orderly i s hs).alike ⟨rfl, rfl, rfl, rfl, rfl, rfl, rfl, rfl⟩

/-- The writer does its next bit of work. It ends in closed sessions only. -/
theorem Sound.write (h : c.Sound) (hs : c.sessions[i]? = some s) (held : Held s) :
    Spreads (About i) c (c.write i s) := by
  have order := h.orderly i s hs
  have here {f : Session → Session} (hf : s.Moved (f s)) : Spreads (About i) c (c.modify i f) :=
    h.modify_moved fun s' hs' => Option.some.inj (hs.symm.trans hs') ▸ hf
  rw [Client.write.eq_def]
  split
  · exact h.still i
  · split
    case isTrue orphan =>
      -- An orphan is held by nobody, and has been closed for that.
      have unheld : s.holders = 0 := by
        rw [Session.isOrphan, decide_eq_true_iff] at orphan
        exact orphan.1
      exact here (order.endWriter (held unheld))
    · exact h.still i
  case h_3 j rest hw hq =>
    refine here ?_
    have taken : s.Moved { s with writer := .writing (Framing.frameBytes j), queue := rest } :=
      order.written rfl rfl rfl rfl rfl rfl (by simp) fun o ho => hq ▸ List.mem_cons_of_mem _ ho
    exact taken.trans taken.orderly.invite.moved
  case h_4 ticket rest hw hq =>
    refine here ?_
    -- Only a session that is closed has a shutdown in its queue.
    have closed : s.state = .closed := order.marked ticket (hq ▸ List.mem_cons_self)
    have taken : s.Moved { s with queue := rest, stream := { s.stream with shut := true } } :=
      order.written rfl rfl rfl rfl rfl rfl (by simp [hw]) fun o ho => hq ▸ List.mem_cons_of_mem _ ho
    have uncalled : (Sender.closer ticket).call? = none := rfl
    have learnt := taken.orderly.rejected uncalled
    have closed' := (learnt.state.trans taken.state).trans closed
    exact (taken.trans learnt).trans (learnt.orderly.endWriter closed')
  case h_5 bytes _ hw =>
    split
    · refine here (order.written rfl rfl rfl rfl rfl rfl ?_ fun o ho => ho)
      simp only
      split <;> simp
    · -- The stream fails: the session is closed before the writer ends.
      have stopped := h.stop i
      have ended := stopped.sound.modify_moved (i := i) fun t ht =>
        (stopped.sound.orderly i t ht).endWriter (state_stop ht)
      exact stopped.trans (fun _ _ _ _ => .trans) ended

theorem proceed_moved (h : s.Orderly) (n now : Nat) : s.Moved (proceed s n now) := by
  rw [proceed]
  split
  · exact h.enter _
  · exact h.conclude n now

theorem Sound.perform (h : c.Sound) (held : ∀ (j : Nat) (s : Session), c.sessions[j]? = some s → Held s) (i : Nat)
    (t : Task) :
    Spreads (About i) c (c.perform i t) ∨ ∃ m, Spreads (Told m i) c (c.perform i t) := by
  have here {f : Session → Session} (hf : ∀ s, s.Orderly → s.Moved (f s)) : Spreads (About i) c (c.modify i f) :=
    h.modify_moved fun s hs => hf s (h.orderly i s hs)
  rw [Client.perform]
  split
  · exact Or.inl (h.still i)
  case h_2 s hs =>
    split
    case isTrue =>
      cases t with
      | dispatch => exact h.dispatch i s
      | call n => exact Or.inl (here fun s order => proceed_moved order n c.now)
      | closer ticket => exact Or.inl (here fun s order => order.enter _)
      | tick k => exact Or.inl (here fun s order => order.tick k)
      | write => exact Or.inl (h.write hs (held i s hs))
      | serve => exact Or.inl (here fun s order => order.stream_wake _ .write)
      | supply => exact Or.inl (here fun s order => order.stream_wake _ .dispatch)
    case isFalse idle =>
      refine Or.inl (h.modify_moved fun s' hs' => ?_)
      cases hs.symm.trans hs'
      exact ((h.orderly i s hs).rest (Bool.eq_false_iff.mpr idle)).moved

/-! ### Actions -/

theorem orderly_initial (registry connection capacity : Nat) :
    (Session.initial registry connection capacity).Orderly where
  books := .empty
  offering := rfl
  spent := by simp [Session.initial]
  marked := by simp [Session.initial]
  offered := by simp [Session.initial, Session.offers]

theorem getElem?_concat_cases {α : Type} {l : List α} {x y : α} (h : (l ++ [x])[k]? = some y) :
    l[k]? = some y ∨ (k = l.length ∧ y = x) := by
  rcases Nat.lt_or_ge k l.length with hk | hk
  · exact Or.inl ((List.getElem?_append_left hk).symm.trans h)
  · rw [List.getElem?_append_right hk] at h
    obtain ⟨lt, rfl⟩ := List.getElem?_eq_some_iff.mp h
    have last : k = l.length := by
      rw [List.length_singleton] at lt
      omega
    exact Or.inr ⟨last, by simp⟩

theorem Sound.addRegistry (h : c.Sound) : Sound { c with registries := c.registries ++ [.empty] } where
  shared := by simp
  fresh := by
    intro k r hr
    rcases getElem?_concat_cases hr with hr | ⟨-, rfl⟩
    · exact h.fresh k r hr
    · simp [Registry.Fresh, Registry.empty]
  orderly := h.orderly
  located := by
    intro i s hs
    obtain ⟨r, hr, rest⟩ := h.located i s hs
    exact ⟨r, (List.getElem?_append_left (List.getElem?_eq_some_iff.mp hr).1).trans hr, rest⟩

/-- A new session is registered, and the others stay where they are. -/
theorem Sound.admit (h : c.Sound) {r : Registry} (hr : c.registries[k]? = some r) (capacity : Nat) : Sound { c with
    registries := c.registries.modify k (·.register c.sessions.length)
    sessions := c.sessions ++ [.initial k r.next capacity] } := by
  refine ⟨?_, ?_, ?_, ?_⟩
  · exact (List.length_modify _ _ _).symm ▸ h.shared
  · intro l r' hr'
    rw [registries_modify] at hr'
    obtain ⟨r₀, h₀, rfl⟩ := Option.map_eq_some_iff.mp hr'
    split
    · exact (h.fresh l r₀ h₀).register _
    · exact h.fresh l r₀ h₀
  · intro j t ht
    rcases getElem?_concat_cases ht with ht | ⟨-, rfl⟩
    · exact h.orderly j t ht
    · exact orderly_initial k r.next capacity
  · intro j t ht
    rcases getElem?_concat_cases ht with ht | ⟨rfl, rfl⟩
    · obtain ⟨r', hr', lt, owner⟩ := h.located j t ht
      refine ⟨if k = t.registry then r'.register c.sessions.length else r', ?_, ?_, ?_⟩
      · rw [registries_modify, hr']
        rfl
      · split
        · exact Nat.lt_succ_of_lt lt
        · exact lt
      · split
        · rw [Registry.owner?_register_of_lt lt, owner]
        · exact owner
    · refine ⟨r.register c.sessions.length, ?_, Nat.lt_succ_self _, Registry.owner?_register_self (h.fresh k r hr) _⟩
      change (c.registries.modify k _)[k]? = _
      rw [registries_modify, hr, Option.map_some, if_pos rfl]

theorem Sound.openSession (h : c.Sound) (inPrivate : Bool) (capacity : Nat) :
    (c.openSession inPrivate capacity).Sound := by
  cases inPrivate with
  | true =>
    have new : (c.registries ++ [Registry.empty])[c.registries.length]? = some .empty := by simp
    simp only [Client.openSession, if_true, new, Option.map_some, Option.getD_some]
    exact h.addRegistry.admit new capacity
  | false =>
    obtain ⟨r, there⟩ : ∃ r, c.registries[0]? = some r := ⟨_, List.getElem?_eq_getElem h.shared⟩
    simp only [Client.openSession, Bool.false_eq_true, if_false, there, Option.map_some, Option.getD_some]
    exact h.admit there capacity

/-- An action that is about a session lets it take turns or a message, and leaves the others alone. -/
theorem Sound.act (h : c.Sound) (held : ∀ (j : Nat) (s : Session), c.sessions[j]? = some s → Held s) {a : Action}
    (ha : Action.session? a = some i) :
    Spreads (About i) c (c.act a) ∨ ∃ m, Spreads (Told m i) c (c.act a) := by
  have here {f : Session → Session} (hf : ∀ s, s.Orderly → s.Moved (f s)) : Spreads (About i) c (c.modify i f) :=
    h.modify_moved fun s hs => hf s (h.orderly i s hs)
  cases a <;> cases ha
  case clone => exact Or.inl (here fun s order => order.alike ⟨rfl, rfl, rfl, rfl, rfl, rfl, rfl, rfl⟩)
  case drop => exact Or.inl (here fun s order => order.alike ⟨rfl, rfl, rfl, rfl, rfl, rfl, rfl, rfl⟩)
  case handler => exact Or.inl (here fun s order => order.alike ⟨rfl, rfl, rfl, rfl, rfl, rfl, rfl, rfl⟩)
  case invoke ticket invocation => exact Or.inl (here fun s order => order.invoke ticket invocation)
  case close ticket =>
    have stopped := h.stop i
    have asked (s : Session) (hs : (c.stop i).sessions[i]? = some s) :
        s.Moved ({ s with closers := s.closers ++ [ticket] }.offer (.shutdown ticket) (.closer ticket)) := by
      have more : s.Moved { s with closers := s.closers ++ [ticket] } :=
        (stopped.sound.orderly i s hs).alike ⟨rfl, rfl, rfl, rfl, rfl, rfl, rfl, rfl⟩
      have closed : s.state = .closed := state_stop hs
      exact more.trans (more.orderly.offer rfl fun _ _ => closed)
    exact Or.inl (stopped.trans (fun _ _ _ _ => .trans) (stopped.sound.modify_moved asked))
  case abandon ticket => exact Or.inl (here fun s order => order.abandon ticket)
  case keepalive period =>
    refine Or.inl (here fun s order => ?_)
    split
    · exact .refl order
    · exact order.keepAlive period c.now
  case send bytes =>
    refine Or.inl (here fun s order => ?_)
    split
    · exact order.stream_wake _ .dispatch
    · exact .refl order
  case serverEnds => exact Or.inl (here fun s order => order.stream_wake _ .dispatch)
  case serverDrops =>
    refine Or.inl (here fun s order => ?_)
    have woken := order.stream_wake { s.stream with serverWrites := false, serverPresent := false } .dispatch
    exact woken.trans (woken.orderly.wake .write).moved
  case serverReads => exact Or.inl (here fun s order => order.alike ⟨rfl, rfl, rfl, rfl, rfl, rfl, rfl, rfl⟩)
  case task t => exact h.perform held i t

/-! ### Steps -/

/-- What holds of a client between steps. -/
structure Invariant (c : Client) : Prop where
  sound : c.Sound
  held : ∀ (j : Nat) (s : Session), c.sessions[j]? = some s → Held s
  accounted : ∀ (j : Nat) (s : Session), c.sessions[j]? = some s → s.toLedger.Accounted
  awake : ∀ (j : Nat) (s : Session), c.sessions[j]? = some s → s.Awake

/-- `t` comes from `s`, the session at position `j`, by the step for `a`. -/
structure Stepped (a : Action) (j : Nat) (s t : Session) : Prop where
  books : Ledger.Step s.toLedger t.toLedger
  registry : t.registry = s.registry
  connection : t.connection = s.connection
  awake : s.Awake → t.Awake
  quiet : Action.session? a ≠ some j → s.Quiet t

theorem stepped_of_quiet {a : Action} (h : s.Quiet t) : Stepped a j s t :=
  ⟨.turns (turned_of_moved h.moved).books, h.registry, h.connection, h.awake, fun _ => h⟩

/-- What a session has come to by turns, or by a message, is not changed further by its release. -/
theorem Sound.step_about (h : c.Sound) (held : ∀ (j : Nat) (s : Session), c.sessions[j]? = some s → Held s)
    {a : Action} (ha : Action.session? a = some i) : Spreads (Stepped a) c ((c.act a).release i) := by
  rcases h.act held ha with turns | ⟨m, message⟩
  · have released : Spreads (About i) c ((c.act a).release i) :=
      turns.trans (fun _ _ _ _ => .trans) (turns.sound.release i)
    refine released.mono fun j s t about => ?_
    refine ⟨.turns about.1.books, about.1.registry, about.1.connection, about.1.awake, fun hj => about.2 ?_⟩
    rintro rfl
    exact hj ha
  · have kept (t : Session) (ht : (c.act a).sessions[i]? = some t) : Held t := by
      obtain ⟨s, hs⟩ := message.back i t ht
      obtain ⟨t', ht', told⟩ := message.sessions i s hs
      cases ht.symm.trans ht'
      have takes := told.1 rfl
      exact fun unheld => takes.state.trans (held i s hs (takes.holders ▸ unheld))
    refine message.trans ?_ (message.sound.release_quiet kept)
    intro j s t u told quiet
    by_cases hj : j = i
    · have takes := (told.1 hj).trans quiet
      refine ⟨.message m takes.books, takes.registry, takes.connection, takes.awake, fun other => ?_⟩
      exact absurd (hj ▸ ha) other
    · exact stepped_of_quiet ((told.2 hj).trans quiet)

/-- What an action comes to: every session there is takes one step, and one that is new has done nothing yet. -/
structure Steps (a : Action) (c d : Client) : Prop where
  sessions : ∀ (j : Nat) (s : Session), c.sessions[j]? = some s → ∃ t, d.sessions[j]? = some t ∧ Stepped a j s t
  origin : ∀ (j : Nat) (t : Session), d.sessions[j]? = some t →
    (∃ s, c.sessions[j]? = some s ∧ Stepped a j s t) ∨ ∃ r connection capacity, t = .initial r connection capacity

theorem Spreads.steps {a : Action} (h : Spreads (Stepped a) c d) : Steps a c d where
  sessions := h.sessions
  origin := by
    intro j t ht
    obtain ⟨s, hs⟩ := h.back j t ht
    obtain ⟨t', ht', stepped⟩ := h.sessions j s hs
    cases ht.symm.trans ht'
    exact Or.inl ⟨s, hs, stepped⟩

theorem Invariant.initial : Client.initial.Invariant := by
  have nobody {i : Nat} {s : Session} : Client.initial.sessions[i]? ≠ some s := by simp [Client.initial]
  refine ⟨⟨Nat.zero_lt_one, ?_, fun _ _ hs => absurd hs nobody, fun _ _ hs => absurd hs nobody⟩,
    fun _ _ hs => absurd hs nobody, fun _ _ hs => absurd hs nobody, fun _ _ hs => absurd hs nobody⟩
  intro k r hr
  have only : [Registry.empty][k]? = some r := hr
  simp [List.mem_singleton.mp (List.mem_of_getElem? only), Registry.Fresh, Registry.empty]

/-- Nobody lets go of a session without closing it, in a step that is about another session or about none. -/
theorem Invariant.held_of_steps (h : c.Invariant) {a : Action} (steps : Steps a c d) (ht : d.sessions[j]? = some t)
    (ha : Action.session? a ≠ some j) : Held t := by
  rcases steps.origin j t ht with ⟨s, hs, stepped⟩ | ⟨_, _, _, rfl⟩
  · have quiet := stepped.quiet ha
    exact fun unheld => quiet.state.trans (h.held j s hs (quiet.holders ▸ unheld))
  · exact fun unheld => absurd unheld Nat.one_ne_zero

theorem Invariant.accounted_of_steps (h : c.Invariant) {a : Action} (steps : Steps a c d)
    (ht : d.sessions[j]? = some t) :
    t.toLedger.Accounted := by
  rcases steps.origin j t ht with ⟨s, hs, stepped⟩ | ⟨_, _, _, rfl⟩
  · exact (h.accounted j s hs).step (h.sound.orderly j s hs).books stepped.books
  · exact fun _ => .empty

theorem awake_initial (registry connection capacity : Nat) :
    (Session.initial registry connection capacity).Awake := by
  rintro n (⟨w, hw, -⟩ | ⟨call, hc, -⟩)
  · cases hw
  · cases hc

theorem Invariant.awake_of_steps (h : c.Invariant) {a : Action} (steps : Steps a c d)
    (ht : d.sessions[j]? = some t) : t.Awake := by
  rcases steps.origin j t ht with ⟨s, hs, stepped⟩ | ⟨_, _, _, rfl⟩
  · exact stepped.awake (h.awake j s hs)
  · exact awake_initial _ _ _

theorem Sound.advance (h : c.Sound) (time : Nat) : Spreads (fun _ => Session.Quiet) c (c.act (.advance time)) := by
  refine h.spreads (g := fun _ s => s.wakeDue (c.now + time)) rfl (fun j => List.getElem?_map) ?_
  intro j s hs
  have quiet := (h.orderly j s hs).wakeDue (c.now + time)
  exact ⟨stays_of_moved quiet.moved, quiet⟩

/-- An action that is about no session leaves all of them alone. -/
theorem Invariant.act_none (h : c.Invariant) {a : Action} (ha : Action.session? a = none) :
    (c.act a).Sound ∧ Steps a c (c.act a) := by
  have hushed (spread : Spreads (fun _ => Session.Quiet) c (c.act a)) : (c.act a).Sound ∧ Steps a c (c.act a) :=
    ⟨spread.sound, (spread.mono fun _ _ _ => stepped_of_quiet).steps⟩
  cases a <;> cases ha
  case «open» inPrivate capacity =>
    have same {j : Nat} {s : Session} (hs : c.sessions[j]? = some s) : Stepped (.open inPrivate capacity) j s s :=
      stepped_of_quiet (.refl (h.sound.orderly j s hs))
    refine ⟨h.sound.openSession inPrivate capacity, ?_, ?_⟩
    · intro j s hs
      exact ⟨s, (List.getElem?_append_left (List.getElem?_eq_some_iff.mp hs).1).trans hs, same hs⟩
    · intro j t ht
      rcases getElem?_concat_cases ht with ht | ⟨-, rfl⟩
      · exact Or.inl ⟨t, ht, same ht⟩
      · exact Or.inr ⟨_, _, _, rfl⟩
  case advance time => exact hushed (h.sound.advance time)
  case notify connection n => exact hushed (h.sound.deliver 0 connection n)

theorem Invariant.steps (h : c.Invariant) (a : Action) : (c.step a).Sound ∧ Steps a c (c.step a) := by
  rw [Client.step]
  split
  case h_1 i ha =>
    have spread := h.sound.step_about h.held ha
    exact ⟨spread.sound, spread.steps⟩
  case h_2 ha => exact h.act_none ha

/-- Every step keeps the invariant. -/
theorem Invariant.step (h : c.Invariant) (a : Action) : (c.step a).Invariant := by
  obtain ⟨sound, steps⟩ := h.steps a
  refine ⟨sound, ?_, fun j t ht => h.accounted_of_steps steps ht, fun j t ht => h.awake_of_steps steps ht⟩
  intro j t ht
  -- The release at the end of a step sees to the session that the step is about.
  by_cases ha : Action.session? a = some j
  · rw [Client.step, ha] at ht
    exact held_release ht
  · exact h.held_of_steps steps ht ha

/-- So does every run. -/
theorem Invariant.run (h : c.Invariant) (actions : List Action) : (c.run actions).Invariant := by
  induction actions generalizing c with
  | nil => exact h
  | cons a actions ih => exact ih (h.step a)

end Client
end Ovsdb
