import Ovsdb.Proofs.Framing.Texts
import Ovsdb.Proofs.Session.Changes
import Ovsdb.Proofs.Session.Orderly

/-! The way out of a session: its queue, its writer and what has been written. Whatever a session does goes into the
    queue behind what is there already, or makes the writer take the first that is there. -/

namespace Ovsdb

/-- The item that gets into the queue. -/
def Event.item? : Event → Option Outbound
  | .queued item => some item
  | _ => none

/-- The items that have got into the queue so far, in order. -/
def Ledger.items (l : Ledger) : List Outbound :=
  l.journal.filterMap Event.item?

/-- Whether a frame is one text on its own. -/
def Outbound.IsWhole : Outbound → Prop
  | .frame j => j.isContainer = true
  | .shutdown _ => True

/-- What is left of the frame that is being written. -/
def Writer.rest : Writer → List UInt8
  | .writing rest => rest
  | _ => []

/-- What a session has put into its queue and what has become of it. `offers` waits for room in the queue. As long as
    the server is `present` writes do not fail; the end of the stream is written when it is `shut`. -/
structure Outlet where
  writer : Writer
  written : List UInt8
  present : Bool
  shut : Bool
  queue : List Outbound
  items : List Outbound
  offers : List Outbound
  closers : List Nat

/-- What a session has for its writer, and what that has done with it. -/
def Session.outlet (s : Session) : Outlet where
  writer := s.writer
  written := s.stream.written
  present := s.stream.serverPresent
  shut := s.stream.shut
  queue := s.queue
  items := s.items
  offers := s.offers.map (·.item)
  closers := s.closers

namespace Outlet

/-- More gets into the queue, or waits for that, as long as there is a writer; the writer does nothing. Those who
    wait for it to shut down go on waiting. -/
structure Feeds (o p : Outlet) : Prop where
  writer : p.writer = o.writer
  written : p.written = o.written
  present : p.present = true → o.present = true
  shut : p.shut = o.shut
  items : ∃ more, p.queue = o.queue ++ more ∧ p.items = o.items ++ more ∧ (o.writer = .ended → more = []) ∧
    ∀ item ∈ more ++ p.offers, item ∈ o.offers ∨ item.IsWhole
  closers : ∀ ticket ∈ o.closers, ticket ∈ p.closers ∨ o.writer = .ended

variable {o p q : Outlet}

namespace Feeds

theorem refl (o : Outlet) : o.Feeds o :=
  ⟨rfl, rfl, id, rfl, ⟨[], (List.append_nil _).symm, (List.append_nil _).symm, fun _ => rfl, fun _ => .inl⟩,
    fun _ => .inl⟩

theorem of_eq (h : p = o) : o.Feeds p :=
  h ▸ refl o

theorem trans (h₁ : o.Feeds p) (h₂ : p.Feeds q) : o.Feeds q where
  writer := h₂.writer.trans h₁.writer
  written := h₂.written.trans h₁.written
  present := h₁.present ∘ h₂.present
  shut := h₂.shut.trans h₁.shut
  items := by
    obtain ⟨more, queue, items, spent, whole⟩ := h₁.items
    obtain ⟨more', queue', items', spent', whole'⟩ := h₂.items
    refine ⟨more ++ more', ?_, ?_, fun ended => ?_, ?_⟩
    · rw [queue', queue, List.append_assoc]
    · rw [items', items, List.append_assoc]
    · rw [spent ended, spent' (h₁.writer.trans ended)]
      rfl
    · intro item mem
      rw [List.append_assoc] at mem
      rcases List.mem_append.mp mem with mem | mem
      · exact whole item (List.mem_append_left _ mem)
      · exact (whole' item mem).elim (fun there => whole item (List.mem_append_right _ there)) .inr
  closers := by
    intro ticket mem
    rcases h₁.closers ticket mem with mem | ended
    · exact (h₂.closers ticket mem).imp id fun ended => h₁.writer.symm.trans ended
    · exact .inr ended

end Feeds

/-! ### Steps -/

/-- What one step does to the way out of a session, unless somebody gives up: the writer takes a frame or goes on
    writing it, or it ends, at a shutdown, because a write fails, or when the session is `alone`, with nobody left
    who could give it anything. -/
inductive Step (alone : Prop) : Outlet → Outlet → Prop where
  | feed {o p : Outlet} (feeds : o.Feeds p) : Step alone o p
  | take {o : Outlet} {j : Json} {rest : List Outbound} (idle : o.writer = .idle) (first : o.queue = .frame j :: rest) :
    Step alone o { o with writer := .writing (Framing.frameBytes j), queue := rest }
  | write {o : Outlet} {bytes : List UInt8} (room : Nat) (writing : o.writer = .writing bytes) : Step alone o
      { o with
        written := o.written ++ bytes.take room
        writer := match bytes.drop room with
          | [] => .idle
          | rest => .writing rest }
  | shut {o : Outlet} {ticket : Nat} {rest : List Outbound} {closers : List Nat} (idle : o.writer = .idle)
    (first : o.queue = .shutdown ticket :: rest) :
    Step alone o { o with writer := .ended, shut := true, queue := [], offers := [], closers := closers }
  | expire {o : Outlet} {closers : List Nat} (last : alone) (idle : o.writer = .idle) (nothing : o.queue = []) :
    Step alone o { o with writer := .ended, queue := [], offers := [], closers := closers }
  | fail {o : Outlet} {bytes : List UInt8} {closers : List Nat} (writing : o.writer = .writing bytes)
    (absent : o.present = false) :
    Step alone o { o with writer := .ended, queue := [], offers := [], closers := closers }

/-- Somebody gives up, and takes back what has not got into the queue. The others go on waiting. -/
def Resigns (ticket : Nat) (o p : Outlet) : Prop :=
  ∃ offers closers, p = { o with offers := offers, closers := closers } ∧ (∀ item ∈ offers, item ∈ o.offers) ∧
    ∀ k ∈ o.closers, k ≠ ticket → k ∈ closers

/-- What has got into the queue stays written down, and what has been written stays written. Nothing follows the end
    of the writer. -/
structure Grows (o p : Outlet) : Prop where
  items : o.items <+: p.items
  written : o.written <+: p.written
  present : p.present = true → o.present = true
  shut : o.shut = true → p.shut = true
  spent : o.writer = .ended → p.writer = .ended ∧ p.written = o.written ∧ p.items = o.items

theorem Grows.refl (o : Outlet) : o.Grows o :=
  ⟨List.prefix_rfl, List.prefix_rfl, id, id, fun spent => ⟨spent, rfl, rfl⟩⟩

theorem Grows.trans (h₁ : o.Grows p) (h₂ : p.Grows q) : o.Grows q where
  items := h₁.items.trans h₂.items
  written := h₁.written.trans h₂.written
  present := h₁.present ∘ h₂.present
  shut := h₂.shut ∘ h₁.shut
  spent := by
    intro spent
    obtain ⟨spent', written, items⟩ := h₁.spent spent
    obtain ⟨spent'', written', items'⟩ := h₂.spent spent'
    exact ⟨spent'', written'.trans written, items'.trans items⟩

theorem Feeds.grows (h : o.Feeds p) : o.Grows p := by
  obtain ⟨more, -, items, nothing, -⟩ := h.items
  refine ⟨⟨more, items.symm⟩, ⟨[], ?_⟩, h.present, fun shut => h.shut.trans shut, fun spent => ?_⟩
  · rw [h.written, List.append_nil]
  · rw [h.writer, h.written, items, nothing spent, List.append_nil]
    exact ⟨spent, rfl, rfl⟩

theorem Resigns.grows {ticket : Nat} (h : Resigns ticket o p) : o.Grows p := by
  obtain ⟨offers, closers, rfl, -⟩ := h
  exact ⟨List.prefix_rfl, List.prefix_rfl, id, id, fun spent => ⟨spent, rfl, rfl⟩⟩

section
variable {alone : Prop}

theorem Step.grows (h : Step alone o p) : o.Grows p := by
  cases h with
  | feed feeds => exact feeds.grows
  | take idle first => exact ⟨List.prefix_rfl, List.prefix_rfl, id, id, fun spent => nomatch idle.symm.trans spent⟩
  | write room writing =>
    exact ⟨List.prefix_rfl, List.prefix_append _ _, id, id, fun spent => nomatch writing.symm.trans spent⟩
  | shut idle first => exact ⟨List.prefix_rfl, List.prefix_rfl, id, fun _ => rfl, fun _ => ⟨rfl, rfl, rfl⟩⟩
  | expire | fail => exact ⟨List.prefix_rfl, List.prefix_rfl, id, id, fun _ => ⟨rfl, rfl, rfl⟩⟩

/-- Who waits for the writer to shut down goes on waiting until it ends. -/
theorem Step.closers (h : Step alone o p) {ticket : Nat} (mem : ticket ∈ o.closers) :
    ticket ∈ p.closers ∨ p.writer = .ended := by
  cases h with
  | feed feeds => exact (feeds.closers ticket mem).imp id feeds.writer.trans
  | take | write => exact .inl mem
  | shut | expire | fail => exact .inr rfl

/-- A writer that ends without a failure writes the end of the stream, unless it is left alone. -/
theorem Step.ends (h : Step alone o p) (live : o.writer ≠ .ended) (spent : p.writer = .ended)
    (present : p.present = true) : p.shut = true ∨ alone := by
  cases h with
  | feed feeds => exact absurd (feeds.writer.symm.trans spent) live
  | take => cases spent
  | write =>
    dsimp only at spent
    split at spent <;> cases spent
  | shut => exact .inl rfl
  | expire last => exact .inr last
  | fail writing absent => exact nomatch absent.symm.trans present

end

/-! ### What is to be written -/

/-- The frames before the first shutdown. -/
def commissioned : List Outbound → List Json
  | .frame j :: rest => j :: commissioned rest
  | _ => []

/-- The text of so many frames. -/
def frameText (frames : List Json) : List UInt8 :=
  frames.flatMap Framing.frameBytes

section
variable {j : Json} {rest frames : List Json} {items more : List Outbound} {ticket : Nat}

theorem commissioned_frames (frames : List Json) (items : List Outbound) :
    commissioned (frames.map .frame ++ items) = frames ++ commissioned items := by
  induction frames with
  | nil => rfl
  | cons j frames ih => rw [List.map_cons, List.cons_append, commissioned, ih, List.cons_append]

/-- Behind a shutdown nothing is commissioned any more. -/
theorem commissioned_append (marked : ∃ ticket, .shutdown ticket ∈ items) (more : List Outbound) :
    commissioned (items ++ more) = commissioned items := by
  obtain ⟨ticket, mem⟩ := marked
  induction items with
  | nil => exact absurd mem List.not_mem_nil
  | cons item items ih =>
    cases item with
    | shutdown k => rfl
    | frame j =>
      rw [List.cons_append, commissioned, commissioned, ih ((List.mem_cons.mp mem).resolve_left (by simp))]

theorem mem_commissioned {items : List Outbound} (h : j ∈ commissioned items) : .frame j ∈ items := by
  induction items with
  | nil => exact absurd h List.not_mem_nil
  | cons item items ih =>
    cases item with
    | shutdown k => exact absurd h List.not_mem_nil
    | frame k =>
      rcases List.mem_cons.mp h with rfl | there
      · exact List.mem_cons_self
      · exact List.mem_cons_of_mem _ (ih there)

theorem frameText_append (frames more : List Json) : frameText (frames ++ more) = frameText frames ++ frameText more :=
  List.flatMap_append

end

/-- What has been written is the text of the frames that have been taken, up to where the writer is in the last of
    them. A writer that has ended without a failure has written all that was commissioned. -/
structure Sound (o : Outlet) : Prop where
  whole : ∀ item ∈ o.items ++ o.offers, item.IsWhole
  live : o.writer ≠ .ended → ∃ taken : List Json, o.items = taken.map .frame ++ o.queue ∧
    o.written ++ o.writer.rest = frameText taken
  spent : o.writer = .ended → o.queue = [] ∧ o.written <+: frameText (commissioned o.items) ∧
    (o.present = true → o.written = frameText (commissioned o.items))

namespace Sound

theorem feeds (h : o.Sound) (feeds : o.Feeds p) : p.Sound := by
  obtain ⟨more, queue, items, nothing, whole⟩ := feeds.items
  refine ⟨?_, fun live => ?_, fun spent => ?_⟩
  · intro item mem
    rw [items, List.append_assoc] at mem
    rcases List.mem_append.mp mem with old | new
    · exact h.whole item (List.mem_append_left _ old)
    · exact (whole item new).elim (fun waits => h.whole item (List.mem_append_right _ waits)) id
  · rw [feeds.writer] at live
    obtain ⟨taken, there, text⟩ := h.live live
    exact ⟨taken, by rw [items, there, queue, List.append_assoc], by rw [feeds.written, feeds.writer, text]⟩
  · rw [feeds.writer] at spent
    obtain ⟨empty, cut, complete⟩ := h.spent spent
    rw [queue, items, feeds.written, nothing spent, List.append_nil, List.append_nil]
    exact ⟨empty, cut, complete ∘ feeds.present⟩

/-- What is missing is the rest of the frame that is being written, and the frames in the queue. -/
theorem reached (h : o.Sound) (intact : o.writer = .ended → o.present = true) :
    o.written ++ o.writer.rest ++ frameText (commissioned o.queue) = frameText (commissioned o.items) := by
  by_cases spent : o.writer = .ended
  · obtain ⟨empty, -, all⟩ := h.spent spent
    rw [spent, empty, all (intact spent)]
    simp [Writer.rest, commissioned, frameText]
  · obtain ⟨taken, items, text⟩ := h.live spent
    rw [text, items, commissioned_frames, frameText_append]

/-- Nothing else is written than what is commissioned. -/
theorem cut (h : o.Sound) : o.written <+: frameText (commissioned o.items) := by
  by_cases spent : o.writer = .ended
  · exact (h.spent spent).2.1
  · exact ⟨_, (List.append_assoc _ _ _).symm.trans (h.reached fun ended => absurd ended spent)⟩

/-- The writer ends when it has written all frames that it has taken, and has reached the end or a shutdown. -/
theorem ends (h : o.Sound) (idle : o.writer = .idle) (behind : commissioned o.queue = []) (shut : Bool)
    (closers : List Nat) :
    Sound { o with writer := .ended, shut := shut, queue := [], offers := [], closers := closers } := by
  have all : o.written = frameText (commissioned o.items) := by
    rw [← h.reached (fun spent => nomatch idle.symm.trans spent), idle, behind]
    simp [Writer.rest, frameText]
  refine ⟨fun item mem => h.whole item ?_, fun live => absurd rfl live, fun _ => ⟨rfl, h.cut, fun _ => all⟩⟩
  exact List.mem_append_left _ (by simpa using mem)

theorem step {alone : Prop} (h : o.Sound) (step : Step alone o p) : p.Sound := by
  cases step with
  | feed feeds => exact h.feeds feeds
  | @take j rest idle first =>
    obtain ⟨taken, items, text⟩ := h.live (by simp [idle])
    refine ⟨h.whole, fun _ => ⟨taken ++ [j], ?_, ?_⟩, fun spent => by cases spent⟩
    · rw [items, first, List.map_append, List.append_assoc]
      rfl
    · rw [frameText_append, ← text, idle, frameText, List.flatMap_singleton]
      exact congrArg (· ++ Framing.frameBytes j) (List.append_nil o.written).symm
  | @write bytes room writing =>
    obtain ⟨taken, items, text⟩ := h.live (by simp [writing])
    have rest : Writer.rest (match bytes.drop room with | [] => .idle | rest => .writing rest) = bytes.drop room := by
      cases bytes.drop room <;> rfl
    refine ⟨h.whole, fun _ => ⟨taken, items, ?_⟩, fun spent => ?_⟩
    · rw [rest, List.append_assoc, List.take_append_drop, ← text, writing]
      rfl
    · dsimp only at spent
      split at spent <;> cases spent
  | @shut ticket rest closers idle first => exact h.ends idle (by rw [first]; rfl) true closers
  | @expire closers last idle nothing => exact h.ends idle (by rw [nothing]; rfl) o.shut closers
  | @fail bytes closers writing absent =>
    refine ⟨fun item mem => h.whole item ?_, fun live => absurd rfl live, fun _ => ⟨rfl, h.cut, fun present => ?_⟩⟩
    · exact List.mem_append_left _ (by simpa using mem)
    · rw [absent] at present
      cases present

theorem resigns {ticket : Nat} (h : o.Sound) (resigns : Resigns ticket o p) : p.Sound := by
  obtain ⟨offers, closers, rfl, fewer, -⟩ := resigns
  refine ⟨?_, h.live, h.spent⟩
  exact List.forall_mem_append.mpr ⟨fun item mem => h.whole item (List.mem_append_left _ mem),
    fun item mem => h.whole item (List.mem_append_right _ (fewer item mem))⟩

end Sound
end Outlet

/-! ### What leaves the way out as it is -/

namespace Ledger
variable {l l' : Ledger}

theorem items_append (events : List Event) (journal : l'.journal = l.journal ++ events) :
    l'.items = l.items ++ events.filterMap Event.item? := by
  rw [items, journal, List.filterMap_append]
  rfl

theorem Books.items (h : l.Books l') : l'.items = l.items := by
  obtain ⟨entries, journal, own⟩ := h.journal
  have none : entries.filterMap Event.item? = [] :=
    List.filterMap_eq_nil_iff.mpr fun e mem => by cases e <;> first | rfl | exact absurd (own _ mem) id
  rw [items_append entries journal, none, List.append_nil]

end Ledger

namespace Session
variable {s t : Session} {l : Ledger} {item : Outbound} {sender : Sender} {e : Event}

/-- The way out of `t` is what has come of that of `s`. -/
abbrev Feeds (s t : Session) : Prop := s.outlet.Feeds t.outlet

@[simp]
theorem outlet_wake (s : Session) (task : Task) : (s.wake task).outlet = s.outlet := by
  obtain ⟨ready, heq⟩ := s.wake_eq task
  rw [heq]
  rfl

theorem items_note (h : e.item? = none) : (s.note e).items = s.items := by
  rw [Ledger.items_append (l := s.toLedger) [e] rfl, List.filterMap_cons_none h, List.filterMap_nil, List.append_nil]

theorem outlet_note (h : e.item? = none) : (s.note e).outlet = s.outlet := by
  rw [outlet, items_note h]
  rfl

theorem outlet_update (h : l.items = s.items) : (s.update l).outlet = s.outlet := by
  obtain ⟨ready, heq⟩ := s.update_eq l
  rw [heq, outlet, outlet]
  exact congrArg (Outlet.mk _ _ _ _ _ · _ _) h

theorem outlet_fail (s : Session) (caller : Caller) : (s.fail caller).outlet = s.outlet := by
  cases caller with
  | user ticket => exact outlet_note rfl
  | keepalive k => rfl

theorem outlet_accepted (s : Session) (sender : Sender) : (s.accepted sender).outlet = s.outlet := by
  cases sender <;> rfl

theorem outlet_invite (s : Session) : s.invite.outlet = s.outlet := by
  rw [invite]
  split
  · rfl
  · next w rest first =>
    split
    · rw [outlet_wake, outlet, outlet, offers, offers, first, List.append_assoc]
      rfl
    · rfl

theorem outlet_remember (s : Session) (goal : Goal) (result : Except Error Answer) :
    (s.remember goal result).outlet = s.outlet := by
  unfold remember
  split <;> rfl

theorem outlet_complete (s : Session) (r : Response) : (s.complete r).outlet = s.outlet := by
  refine outlet_update ?_
  rw [Ledger.complete]
  split <;> rfl

theorem outlet_close (s : Session) : s.close.outlet = s.outlet := by
  refine outlet_update ?_
  rw [Ledger.close, Ledger.answer, Ledger.items_append (l := s.toLedger) [.closed] rfl]
  exact List.append_nil _

/-! ### What goes into the queue -/

theorem outlet_enqueue (s : Session) (item : Outbound) :
    (s.enqueue item).outlet = { s.outlet with queue := s.queue ++ [item], items := s.items ++ [item] } := by
  have items : ({ s with queue := s.queue ++ [item] }.note (.queued item)).items = s.items ++ [item] :=
    Ledger.items_append (l := s.toLedger) [.queued item] rfl
  rw [enqueue, outlet_wake, outlet, items]
  rfl

/-- Who is rejected does not wait for the writer any more. -/
theorem outlet_rejected (s : Session) (sender : Sender) :
    ∃ closers, (s.rejected sender).outlet = { s.outlet with closers := closers } := by
  cases sender with
  | call n =>
    refine ⟨s.closers, ?_⟩
    rw [rejected]
    split
    · rw [outlet_fail, outlet_update (Ledger.Books.finish s.toLedger n _).items]
      rfl
    · rfl
  | dispatcher => exact ⟨s.closers, outlet_wake _ _⟩
  | closer ticket =>
    rw [rejected]
    split
    · exact ⟨_, outlet_note rfl⟩
    · exact ⟨s.closers, rfl⟩

theorem outlet_foldl_rejected (senders : List Sender) (s : Session) :
    ∃ closers, (senders.foldl rejected s).outlet = { s.outlet with closers := closers } := by
  induction senders generalizing s with
  | nil => exact ⟨s.closers, rfl⟩
  | cons sender senders ih =>
    obtain ⟨first, hfirst⟩ := s.outlet_rejected sender
    obtain ⟨closers, rest⟩ := ih (s.rejected sender)
    exact ⟨closers, by rw [List.foldl_cons, rest, hfirst]⟩

theorem outlet_endWriter (s : Session) : ∃ closers, s.endWriter.outlet =
    { s.outlet with writer := .ended, queue := [], offers := [], closers := closers } := by
  obtain ⟨closers, rejected⟩ := outlet_foldl_rejected ((s.invited ++ s.waiting).map (·.sender) ++ s.closers.map .closer)
    { s with writer := .ended, queue := [], waiting := [], invited := [] }
  exact ⟨closers, rejected⟩

theorem feeds_rejected (spent : s.writer = .ended) (sender : Sender) : s.Feeds (s.rejected sender) := by
  obtain ⟨closers, same⟩ := s.outlet_rejected sender
  rw [Feeds, same]
  exact ⟨rfl, rfl, id, rfl, (Outlet.Feeds.refl s.outlet).items, fun _ _ => .inr spent⟩

/-- An item goes into the queue at once, or behind those that wait for room. -/
theorem feeds_offer (whole : item.IsWhole) (sender : Sender) : s.Feeds (s.offer item sender) := by
  unfold offer
  split
  · next spent => exact feeds_rejected spent sender
  · next live =>
    split
    · rw [Feeds, outlet_accepted, outlet_enqueue]
      refine ⟨rfl, rfl, id, rfl, ⟨[item], rfl, rfl, fun spent => absurd spent live, ?_⟩, fun _ => .inl⟩
      exact List.forall_mem_append.mpr ⟨by simpa using .inr whole, fun _ => .inl⟩
    · refine ⟨rfl, rfl, id, rfl, ⟨[], (List.append_nil _).symm, (List.append_nil _).symm, fun _ => rfl, ?_⟩,
        fun _ => .inl⟩
      show ∀ other ∈ ((s.invited ++ (s.waiting ++ [Waiting.mk item sender])).map (·.item)), _
      rw [← List.append_assoc, List.map_append]
      exact List.forall_mem_append.mpr ⟨fun _ => .inl, by simpa using .inr whole⟩

/-- What is invited gets into the queue; nothing is, once the writer has ended. -/
theorem Orderly.feeds_enter (h : s.Orderly) (sender : Sender) : s.Feeds (s.enter sender) := by
  rw [Session.enter]
  split
  · exact .refl _
  · next w found =>
    have invited := List.mem_of_find?_eq_some found
    have live : s.writer ≠ .ended := fun spent =>
      List.ne_nil_of_mem (List.mem_append_left s.waiting invited) (h.spent spent).2
    rw [Feeds, outlet_accepted, outlet_enqueue]
    refine ⟨rfl, rfl, id, rfl, ⟨[w.item], rfl, rfl, fun spent => absurd spent live, ?_⟩, fun _ => .inl⟩
    refine List.forall_mem_append.mpr ⟨?_, fun item mem => ?_⟩
    · rw [List.forall_mem_singleton]
      exact .inl (List.mem_map_of_mem (List.mem_append_left s.waiting invited))
    · obtain ⟨v, there, rfl⟩ := List.mem_map.mp mem
      exact .inl (List.mem_map_of_mem (s.offers_uninvite sender v there))

/-- Who gives up takes away what waits for room, and nothing else. -/
theorem outlet_withdraw (s : Session) (sender : Sender) : ∃ offers,
    (s.withdraw sender).outlet = { s.outlet with offers := offers } ∧ ∀ item ∈ offers, item ∈ s.outlet.offers := by
  refine ⟨_, outlet_invite _, fun item mem => ?_⟩
  obtain ⟨w, there, rfl⟩ := List.mem_map.mp mem
  refine List.mem_map_of_mem ?_
  rw [offers, ← List.filter_append] at there
  exact (List.mem_filter.mp there).1

/-! ### What sessions do -/

theorem feeds_respond (s : Session) (r : Response) : s.Feeds (s.respond r) :=
  feeds_offer (show (Outbound.frame r.toJson).IsWhole from rfl) _

theorem feeds_call (s : Session) (caller : Caller) (method : String) (params : Json) (goal : Goal) :
    s.Feeds (s.call caller method params goal) := by
  rw [call]
  split
  · refine .of_eq ((outlet_fail _ caller).trans ?_)
    exact congrArg (Outlet.mk _ _ _ _ _ · _ _) (Ledger.Books.refuse s.toLedger).items
  · have begun := outlet_update (Ledger.Books.begin s.toLedger caller goal).items
    exact .trans (.of_eq begun) (feeds_offer (show (Outbound.frame (Request.toJson _)).IsWhole from rfl) _)

theorem feeds_invoke (s : Session) (ticket : Nat) (i : Invocation) : s.Feeds (s.invoke ticket i) := by
  rw [invoke]
  split
  · exact feeds_call s _ _ _ _
  · exact .of_eq (outlet_note rfl)

theorem feeds_fire (s : Session) (k : Nat) : s.Feeds (s.fire k) := by
  rw [fire]
  split
  · exact .refl _
  · exact feeds_call { s with keepalives := s.keepalives.modify k _ } _ _ _ _

theorem feeds_await (s : Session) (k now : Nat) : s.Feeds (s.await k now) := by
  rw [await]
  split
  · exact .refl _
  · split
    · exact feeds_fire s k
    · exact .of_eq rfl

theorem feeds_keepAlive (s : Session) (period now : Nat) : s.Feeds (s.keepAlive period now) :=
  feeds_await { s with keepalives := s.keepalives ++ [Keepalive.mk period (now + period)] } _ now

theorem feeds_tick (s : Session) (k : Nat) : s.Feeds (s.tick k) :=
  feeds_fire { s with timers := s.timers.filter (· != k) } k

theorem feeds_report (s : Session) (caller : Caller) (goal : Goal) (now : Nat) (result : Except Error Answer) :
    s.Feeds (s.report caller goal now result) := by
  unfold report
  split
  · exact .of_eq ((outlet_note rfl).trans (outlet_remember s goal result))
  · exact feeds_await s _ now
  · split
    · exact .refl _
    · exact feeds_await s _ now

theorem feeds_conclude (s : Session) (n now : Nat) : s.Feeds (s.conclude n now) := by
  unfold conclude
  split
  · exact .trans (.of_eq (outlet_update (Ledger.Books.finish s.toLedger n _).items)) (feeds_report _ _ _ _ _)
  · exact .refl _

/-- A user gives up a call or a close. What is in the queue stays there, and so does what is being written. -/
theorem resigns_abandon (s : Session) (ticket : Nat) : Outlet.Resigns ticket s.outlet (s.abandon ticket).outlet := by
  rw [abandon]
  split
  · next call _ =>
    obtain ⟨offers, same, fewer⟩ := (s.update (s.toLedger.abandon call.number)).outlet_withdraw (.call call.number)
    rw [outlet_update (Ledger.Books.abandon s.toLedger call.number).items] at same fewer
    exact ⟨offers, s.closers, same, fewer, fun _ mem _ => mem⟩
  · obtain ⟨offers, same, fewer⟩ := Session.outlet_withdraw
      { s with closers := s.closers.filter (· != ticket) } (.closer ticket)
    exact ⟨offers, _, same, fewer, fun k mem other => List.mem_filter.mpr ⟨mem, bne_iff_ne.mpr other⟩⟩

end Session
end Ovsdb
