import Mathlib.Data.List.Nodup
import Mathlib.Data.List.Pairwise
import Ovsdb.Proofs.Session.Incidents
import Ovsdb.Proofs.Session.Outflow

/-! Room in the queue. Nothing waits but for want of room; whenever the writer takes a frame the first that waits is
    invited, and the next turn of its sender, for which it has been woken, puts its item into the queue. Those that
    wait keep their order. -/

namespace Ovsdb

/-- Two that wait are from different senders, unless they are from one who closes the session. -/
def Waiting.Apart (v w : Waiting) : Prop :=
  v.sender = w.sender → ∃ ticket, v.sender = .closer ticket

instance : Std.Symm Waiting.Apart where
  symm _ _ apart same := (apart same.symm).imp fun _ closer => same.trans closer

namespace Session

/-! ### Who waits -/

/-- Who waits for room in the queue: calls that have begun, each with one item, the dispatcher when it is blocked, and
    nobody who closes the session as long as it is open. Nobody waits for a writer that has ended. -/
structure Lined (s : Session) : Prop where
  sends : ∀ w ∈ s.offers, w.sender.Sends w.item
  begun : ∀ w ∈ s.offers, ∀ n, w.sender = .call n → n < s.begun
  apart : s.offers.Pairwise Waiting.Apart
  closing : s.state = .opened → ∀ w ∈ s.offers, ∀ ticket, w.sender ≠ .closer ticket
  blocked : s.writer ≠ .ended → (s.dispatcher = .blocked ↔ ∃ w ∈ s.offers, w.sender = .dispatcher)
  spent : s.writer = .ended → s.offers = []

variable {s t u : Session} {i : Incident} {is : List Incident} {item : Outbound} {sender : Sender} {v w : Waiting}

namespace Lined

theorem initial (registry connection capacity : Nat) : (Session.initial registry connection capacity).Lined :=
  ⟨nofun, nofun, .nil, fun _ => nofun, fun _ => ⟨nofun, nofun⟩, nofun⟩

/-- Some of those that wait have gone. -/
theorem fewer (h : s.Lined) (state : t.state = s.state) (begun : s.begun ≤ t.begun)
    (writer : t.writer = .ended ↔ s.writer = .ended) (offers : t.offers.Sublist s.offers)
    (blocked : t.writer ≠ .ended → (t.dispatcher = .blocked ↔ ∃ w ∈ t.offers, w.sender = .dispatcher)) : t.Lined where
  sends w hw := h.sends w (offers.subset hw)
  begun w hw n own := Nat.lt_of_lt_of_le (h.begun w (offers.subset hw) n own) begun
  apart := h.apart.sublist offers
  closing opened w hw := h.closing (state.symm.trans opened) w (offers.subset hw)
  blocked := blocked
  spent ended := List.sublist_nil.mp (h.spent (writer.mp ended) ▸ offers)

/-- The same wait as before. -/
theorem still (h : s.Lined) (state : t.state = s.state) (begun : s.begun ≤ t.begun)
    (writer : t.writer = .ended ↔ s.writer = .ended) (offers : t.offers = s.offers)
    (dispatcher : t.dispatcher = s.dispatcher) : t.Lined := by
  refine h.fewer state begun writer (offers ▸ List.Sublist.refl _) fun live => ?_
  rw [offers, dispatcher]
  exact h.blocked (mt writer.mpr live)

/-- Another one begins to wait. -/
theorem joined (h : s.Lined) (state : t.state = s.state) (begun : s.begun ≤ t.begun) (live : t.writer ≠ .ended)
    (offers : t.offers = s.offers ++ [w]) (sends : w.sender.Sends w.item) (own : ∀ n, w.sender = .call n → n < t.begun)
    (new : ∀ v ∈ s.offers, v.Apart w) (closing : s.state = .opened → ∀ ticket, w.sender ≠ .closer ticket)
    (blocked : t.dispatcher = .blocked ↔ ∃ v ∈ t.offers, v.sender = .dispatcher) : t.Lined where
  sends := by
    rw [offers]
    exact List.forall_mem_append.mpr ⟨h.sends, List.forall_mem_singleton.mpr sends⟩
  begun := by
    rw [offers]
    refine List.forall_mem_append.mpr ⟨fun v hv n same => ?_, List.forall_mem_singleton.mpr own⟩
    exact Nat.lt_of_lt_of_le (h.begun v hv n same) begun
  apart := by
    rw [offers]
    exact List.pairwise_append.mpr ⟨h.apart, List.pairwise_singleton _ _, by simpa using new⟩
  closing opened := by
    have opened := state.symm.trans opened
    rw [offers]
    exact List.forall_mem_append.mpr ⟨h.closing opened, List.forall_mem_singleton.mpr (closing opened)⟩
  blocked _ := blocked
  spent ended := absurd ended live

/-- Those that wait with the same sender wait with the same item. -/
theorem eq_of_sender (h : s.Lined) (hv : v ∈ s.offers) (hw : w ∈ s.offers) (same : v.sender = w.sender) : v = w := by
  by_contra other
  obtain ⟨ticket, closer⟩ := h.apart.forall hv hw other same
  have sends := h.sends v hv
  have sends' := h.sends w hw
  rw [closer] at sends
  rw [← same, closer] at sends'
  refine other ?_
  obtain ⟨_, _⟩ := v
  obtain ⟨_, _⟩ := w
  cases sends
  cases sends'
  cases same
  rfl

/-- On an open session every sender waits once. -/
theorem nodup (h : s.Lined) (opened : s.state = .opened) : (s.offers.map (·.sender)).Nodup := by
  refine List.pairwise_map.mpr (h.apart.imp_of_mem fun {v w} hv _ apart same => ?_)
  obtain ⟨ticket, closer⟩ := apart same
  exact h.closing opened v hv ticket closer

/-- Without the one offer of a sender, there is one less at most among those who have been invited. -/
theorem length_uninvite (h : s.Lined) (opened : s.state = .opened) (sender : Sender) :
    s.invited.length ≤ (s.invited.filter (·.sender ≠ sender)).length + 1 := by
  have once : (s.invited.map (·.sender)).Nodup := (h.nodup opened).sublist (List.sublist_append_left _ _ |>.map _)
  -- As nobody is there twice, to leave a sender out is to erase it once.
  have erased : (s.invited.filter (·.sender ≠ sender)).map (·.sender) = (s.invited.map (·.sender)).erase sender := by
    rw [once.erase_eq_filter, List.filter_map]
    exact congrArg _ (List.filter_congr fun w _ => Bool.eq_iff_iff.mpr (by simp))
  have fewer := congrArg List.length erased
  rw [List.length_map, List.length_erase, List.length_map] at fewer
  split at fewer <;> omega

theorem invite (h : s.Lined) : s.invite.Lined := by
  obtain ⟨waiting, invited, ready, heq, same⟩ := s.invite_eq
  rw [heq]
  exact h.still rfl (Nat.le_refl _) Iff.rfl same rfl

/-- A dispatcher that is not blocked does not wait. -/
theorem unblocked (h : s.Lined) (free : s.dispatcher ≠ .blocked) : ∀ w ∈ s.offers, w.sender ≠ .dispatcher := by
  intro w hw own
  by_cases spent : s.writer = .ended
  · rw [h.spent spent] at hw
    cases hw
  · exact free ((h.blocked spent).mpr ⟨w, hw, own⟩)

theorem blocked_of_invited (h : s.Lined) (invited : w ∈ s.invited) (own : w.sender = .dispatcher) :
    s.dispatcher = .blocked := by
  have offered : w ∈ s.offers := List.mem_append_left _ invited
  by_contra free
  exact h.unblocked free w offered own

/-- Who has been invited does not wait for an invitation as well, unless it closes the session. -/
theorem elsewhere (h : s.Lined) (invited : w ∈ s.invited) (own : ∀ ticket, w.sender ≠ .closer ticket) :
    ∀ v ∈ s.waiting, v.sender ≠ w.sender := by
  intro v hv same
  obtain ⟨ticket, closer⟩ := (List.pairwise_append.mp h.apart).2.2 w invited v hv same.symm
  exact own ticket closer

/-- The dispatcher begins to wait with a response of its own. -/
theorem responds (h : s.Lined) (r : Response) (running : s.dispatcher = .running) (state : t.state = s.state)
    (begun : s.begun ≤ t.begun) (live : t.writer ≠ .ended)
    (offers : t.offers = s.offers ++ [⟨.frame r.toJson, .dispatcher⟩]) (blocked : t.dispatcher = .blocked) :
    t.Lined := by
  have nobody := h.unblocked (by simp [running])
  refine h.joined state begun live offers ⟨r, rfl⟩ (by simp) (fun v hv own => absurd own (nobody v hv)) (by simp) ?_
  rw [offers]
  exact iff_of_true blocked ⟨_, List.mem_append_right _ (List.mem_singleton_self _), rfl⟩

/-- Somebody else begins to wait. -/
theorem follows (h : s.Lined) (state : t.state = s.state) (begun : s.begun ≤ t.begun) (live : s.writer ≠ .ended)
    (writer : t.writer = s.writer) (offers : t.offers = s.offers ++ [w]) (sends : w.sender.Sends w.item)
    (own : ∀ n, w.sender = .call n → s.begun ≤ n ∧ n < t.begun) (other : w.sender ≠ .dispatcher)
    (closing : s.state = .opened → ∀ ticket, w.sender ≠ .closer ticket) (dispatcher : t.dispatcher = s.dispatcher) :
    t.Lined := by
  refine h.joined state begun (writer ▸ live) offers sends (fun n same => (own n same).2) (fun v hv same => ?_)
    closing ?_
  · cases who : w.sender with
    | call n => exact absurd (h.begun v hv n (same.trans who)) (Nat.not_lt_of_le (own n who).1)
    | dispatcher => exact absurd who other
    | closer ticket => exact ⟨ticket, same.trans who⟩
  · rw [dispatcher, h.blocked live, offers]
    simp [or_and_right, exists_or, other]

end Lined

/-- Whether the dispatcher waits does not depend on others. -/
theorem exists_dispatcher_filter (other : sender ≠ .dispatcher) (offers : List Waiting) :
    (∃ w ∈ offers.filter (·.sender ≠ sender), w.sender = .dispatcher) ↔ ∃ w ∈ offers, w.sender = .dispatcher := by
  refine exists_congr fun w => and_congr_left fun own => ?_
  simp [own, other.symm]

/-- The dispatcher goes on when its own item gets into the queue. -/
theorem Lined.blocked_enter (h : s.Lined) (invited : w ∈ s.invited) (live : s.writer ≠ .ended) :
    (if w.sender = .dispatcher then Dispatcher.running else s.dispatcher) = .blocked ↔
      ∃ v ∈ s.invited.filter (·.sender ≠ w.sender) ++ s.waiting, v.sender = .dispatcher := by
  by_cases own : w.sender = .dispatcher
  · rw [if_pos own]
    refine iff_of_false (by simp) ?_
    rintro ⟨v, hv, same⟩
    rcases List.mem_append.mp hv with hv | hv
    · exact of_decide_eq_true (List.mem_filter.mp hv).2 (same.trans own.symm)
    · exact h.elsewhere invited (by simp [own]) v hv (same.trans own.symm)
  · rw [if_neg own, h.blocked live]
    simp only [offers, List.mem_append, or_and_right, exists_or, exists_dispatcher_filter own]

theorem Change.lined (h : Change s t) (lined : s.Lined) : t.Lined := by
  cases h with
  | aside | rouse | rest | tell | learn | put => exact lined.still rfl (Nat.le_refl _) Iff.rfl rfl rfl
  | books h => exact lined.still h.state h.begun Iff.rfl rfl rfl
  | post q h begun live full =>
    refine lined.follows h.state h.begun live rfl (List.append_assoc _ _ _).symm ⟨q, rfl⟩ ?_ nofun (by simp) rfl
    intro n same
    cases same
    exact ⟨Nat.le_refl _, begun⟩
  | wait ticket closed live full =>
    refine lined.follows rfl (Nat.le_refl _) live rfl (List.append_assoc _ _ _).symm rfl nofun nofun ?_ rfl
    exact fun opened => nomatch opened.symm.trans closed
  | @enter w invited =>
    have fewer : (s.invited.filter (·.sender ≠ w.sender) ++ s.waiting).Sublist s.offers :=
      List.filter_sublist.append (.refl _)
    exact lined.fewer rfl (Nat.le_refl _) Iff.rfl fewer (lined.blocked_enter invited)
  | @withdraw sender own =>
    have left : s.offers.filter (·.sender ≠ sender) =
        s.invited.filter (·.sender ≠ sender) ++ s.waiting.filter (·.sender ≠ sender) := List.filter_append _ _
    have others := exists_dispatcher_filter own s.offers
    rw [left] at others
    have fewer := left ▸ List.filter_sublist (l := s.offers)
    exact .invite (lined.fewer rfl (Nat.le_refl _) Iff.rfl fewer fun live => (lined.blocked live).trans others.symm)
  | take idle first => exact .invite (lined.still rfl (Nat.le_refl _) (by simp [idle]) rfl rfl)
  | write writing =>
    refine lined.still rfl (Nat.le_refl _) ?_ rfl rfl
    simp only [writing]
    split <;> simp
  | spend shut => exact ⟨nofun, nofun, .nil, fun _ => nofun, fun live => absurd rfl live, fun _ => rfl⟩
  | unblock spent => exact lined.fewer rfl (Nat.le_refl _) Iff.rfl (.refl _) fun live => absurd spent live
  | leave running =>
    have nobody := lined.unblocked (by simp [running])
    refine lined.fewer rfl (Nat.le_refl _) Iff.rfl (.refl _) fun _ => iff_of_false (by simp) ?_
    exact fun ⟨w, hw, own⟩ => nobody w hw own

/-! ### Who has room -/

/-- There is never more in the queue, or invited to it, than it has room for. On an open session nothing waits for an
    invitation unless there is no room, and whoever is invited has been woken. -/
structure Seated (s : Session) : Prop extends s.Lined where
  capacity : s.queue.length + s.invited.length ≤ queueLimit
  full : s.state = .opened → s.waiting ≠ [] → queueLimit ≤ s.queue.length + s.invited.length
  woken : ∀ w ∈ s.invited, w.sender.task ∈ s.ready

theorem isInvited_iff (s : Session) (sender : Sender) :
    s.isInvited sender = true ↔ ∃ w ∈ s.invited, w.sender = sender := by
  simp only [isInvited, List.any_eq_true, decide_eq_true_iff]

theorem isInvited_of_offer (offered : ∃ v ∈ s.offers, v.sender = sender)
    (absent : ∀ v ∈ s.waiting, v.sender ≠ sender) : s.isInvited sender = true := by
  obtain ⟨v, offered, same⟩ := offered
  rcases List.mem_append.mp offered with invited | waits
  · exact (s.isInvited_iff _).mpr ⟨v, invited, same⟩
  · exact absurd same (absent v waits)

theorem hasRoom_iff (s : Session) : s.hasRoom = true ↔ s.queue.length + s.invited.length < queueLimit :=
  decide_eq_true_iff

theorem admits_iff (s : Session) :
    s.admits = true ↔ s.waiting = [] ∧ s.queue.length + s.invited.length < queueLimit := by
  rw [admits, Bool.and_eq_true, List.isEmpty_iff, hasRoom_iff]

namespace Seated

theorem initial (registry connection capacity : Nat) : (Session.initial registry connection capacity).Seated :=
  ⟨.initial registry connection capacity, Nat.zero_le _, fun _ waits => absurd rfl waits, nofun⟩

/-- Nothing changes in the queue and before it. -/
theorem still (h : s.Seated) (state : t.state = s.state) (begun : s.begun ≤ t.begun)
    (writer : t.writer = .ended ↔ s.writer = .ended) (queue : t.queue = s.queue) (invited : t.invited = s.invited)
    (waiting : t.waiting = s.waiting) (dispatcher : t.dispatcher = s.dispatcher)
    (awake : ∀ task ∈ s.ready, task ∈ t.ready) : t.Seated where
  toLined := h.toLined.still state begun writer (by rw [offers, offers, invited, waiting]) dispatcher
  capacity := by
    rw [queue, invited]
    exact h.capacity
  full opened waits := by
    rw [queue, invited]
    exact h.full (state.symm.trans opened) (waiting ▸ waits)
  woken w hw := awake _ (h.woken w (invited ▸ hw))

/-- An item gets into the queue at once. -/
theorem admitted (h : s.Seated) (room : s.admits = true) (lined : t.Lined) (queue : t.queue = s.queue ++ [item])
    (invited : t.invited = s.invited) (waiting : t.waiting = s.waiting) (awake : ∀ task ∈ s.ready, task ∈ t.ready) :
    t.Seated := by
  obtain ⟨nobody, room⟩ := s.admits_iff.mp room
  refine ⟨lined, ?_, fun _ waits => absurd (waiting.trans nobody) waits, fun w hw => ?_⟩
  · rw [queue, invited, List.length_append, List.length_singleton]
    omega
  · exact awake _ (h.woken w (invited ▸ hw))

/-- An item has to wait. -/
theorem waits (h : s.Seated) (full : s.admits = false) (lined : t.Lined) (state : t.state = s.state)
    (queue : t.queue = s.queue) (invited : t.invited = s.invited) (ready : t.ready = s.ready) : t.Seated := by
  refine ⟨lined, ?_, fun opened _ => ?_, fun w hw => ready ▸ h.woken w (invited ▸ hw)⟩
  · rw [queue, invited]
    exact h.capacity
  · rw [queue, invited]
    by_cases nobody : s.waiting = []
    · refine Nat.le_of_not_lt fun room => ?_
      rw [s.admits_iff.mpr ⟨nobody, room⟩] at full
      cases full
    · exact h.full (state.symm.trans opened) nobody

/-- Where there is room for one at most, the first that waits is invited to it. -/
theorem invite (lined : s.invite.Lined) (capacity : s.queue.length + s.invited.length ≤ queueLimit)
    (nearly : s.state = .opened → s.waiting ≠ [] → queueLimit ≤ s.queue.length + s.invited.length + 1)
    (woken : ∀ w ∈ s.invited, w.sender.task ∈ s.ready) : s.invite.Seated := by
  obtain ⟨nobody | full, same⟩ | ⟨w, rest, ready, first, room, awake, kept, heq⟩ := s.invite_cases
  · rw [same] at lined ⊢
    exact ⟨lined, capacity, fun _ waits => absurd nobody waits, woken⟩
  · rw [same] at lined ⊢
    refine ⟨lined, capacity, fun _ _ => Nat.le_of_not_lt fun room => ?_, woken⟩
    rw [s.hasRoom_iff.mpr room] at full
    cases full
  · rw [heq] at lined ⊢
    have room := s.hasRoom_iff.mp room
    have one : (s.invited ++ [w]).length = s.invited.length + 1 := List.length_append
    refine ⟨lined, ?_, fun opened _ => ?_, ?_⟩
    · exact (one ▸ room : s.queue.length + (s.invited ++ [w]).length ≤ queueLimit)
    · have nearly := nearly opened (first ▸ List.cons_ne_nil w rest)
      exact (one ▸ nearly : queueLimit ≤ s.queue.length + (s.invited ++ [w]).length)
    · exact List.forall_mem_append.mpr ⟨fun v hv => kept _ (woken v hv), List.forall_mem_singleton.mpr awake⟩

/-- A task that can go on is not put to rest. -/
theorem canGoOn (h : s.Seated) (now : Nat) (invited : w ∈ s.invited) : s.canGoOn now w.sender.task = true := by
  have there : s.isInvited w.sender = true := (s.isInvited_iff _).mpr ⟨w, invited, rfl⟩
  cases own : w.sender with
  | call n =>
    rw [own] at there
    simp [Sender.task, Session.canGoOn, there]
  | closer ticket =>
    rw [own] at there
    exact there
  | dispatcher =>
    rw [own] at there
    simp [Sender.task, Session.canGoOn, canDispatch, h.blocked_of_invited invited own, there]

end Seated

theorem Change.seated (h : Change s t) (seated : s.Seated) : t.Seated := by
  have lined := h.lined seated.toLined
  cases h with
  | aside | tell | learn => exact seated.still rfl (Nat.le_refl _) Iff.rfl rfl rfl rfl rfl fun _ => id
  | rouse awake => exact seated.still rfl (Nat.le_refl _) Iff.rfl rfl rfl rfl rfl awake
  | @rest task now idle =>
    refine ⟨lined, seated.capacity, seated.full, fun w hw => List.mem_filter.mpr ⟨seated.woken w hw, ?_⟩⟩
    -- Whoever has been invited can go on, so that it is another task that is put to rest.
    have other : w.sender.task ≠ task := by
      rintro rfl
      rw [seated.canGoOn now hw] at idle
      cases idle
    exact decide_eq_true other
  | books h => exact seated.still h.state h.begun Iff.rfl rfl rfl rfl rfl fun _ => id
  | put sends own live room => exact seated.admitted room lined rfl rfl rfl fun _ => id
  | post _ h _ _ full => exact seated.waits full lined h.state rfl rfl rfl
  | wait _ _ _ full => exact seated.waits full lined rfl rfl rfl rfl
  | @enter w invited =>
    -- One less is invited and one more is in the queue, since nobody is invited twice to an open session.
    let others := s.invited.filter (·.sender ≠ w.sender)
    have queue : (s.queue ++ [w.item]).length = s.queue.length + 1 := List.length_append
    refine ⟨lined, ?_, fun opened waits => ?_, fun v hv => seated.woken v (List.mem_filter.mp hv).1⟩
    · have fewer : others.length < s.invited.length :=
        List.length_filter_lt_length_iff_exists.mpr ⟨w, invited, by simp⟩
      have moved : (s.queue ++ [w.item]).length + others.length ≤ s.queue.length + s.invited.length := by omega
      exact Nat.le_trans moved seated.capacity
    · have once : s.invited.length ≤ others.length + 1 := seated.length_uninvite opened w.sender
      have moved : s.queue.length + s.invited.length ≤ (s.queue ++ [w.item]).length + others.length := by omega
      exact Nat.le_trans (seated.full opened waits) moved
  | @withdraw sender own =>
    -- Whoever withdraws leaves one place at most, and `invite` gives it to the first that waits.
    refine .invite lined ?_ (fun opened waits => ?_) fun w hw => seated.woken w (List.mem_filter.mp hw).1
    · exact Nat.le_trans (Nat.add_le_add_left (List.length_filter_le _ _) _) seated.capacity
    · have before : s.waiting ≠ [] := fun nobody => waits (by rw [nobody]; rfl)
      exact Nat.le_trans (seated.full opened before) (Nat.add_le_add_left (seated.length_uninvite opened sender) _)
  | @take j rest idle first =>
    have capacity := seated.capacity
    have full := seated.full
    rw [first, List.length_cons, Nat.add_right_comm] at capacity full
    exact .invite lined (Nat.le_of_succ_le capacity) full seated.woken
  | write writing =>
    refine seated.still rfl (Nat.le_refl _) ?_ rfl rfl rfl rfl fun _ => id
    simp only [writing]
    split <;> simp
  | spend shut => exact ⟨lined, Nat.zero_le _, fun _ waits => absurd rfl waits, nofun⟩
  | unblock | leave => exact ⟨lined, seated.capacity, seated.full, seated.woken⟩

namespace Seated

/-- New books that keep the state of the session change nothing in the queue and before it. -/
theorem update (h : s.Seated) {l : Ledger} (state : l.state = s.state) (begun : s.begun ≤ l.begun) :
    (s.update l).Seated := by
  have awake := s.ready_update l
  obtain ⟨ready, heq⟩ := s.update_eq l
  rw [heq] at awake ⊢
  exact h.still state begun Iff.rfl rfl rfl rfl rfl awake

/-- A response of a dispatcher's that is running gets into the queue at once, or the dispatcher has to wait. -/
theorem respond (h : s.Seated) (running : s.dispatcher = .running) (r : Response) : (s.respond r).Seated := by
  obtain ⟨spent, ready, awake, heq⟩ | ⟨live, room, ready, awake, heq⟩ | ⟨live, full, heq⟩ := s.respond_cases r <;>
    rw [heq]
  · exact h.still rfl (Nat.le_refl _) Iff.rfl rfl rfl rfl running.symm awake
  · exact h.admitted room (h.toLined.still rfl (Nat.le_refl _) Iff.rfl rfl running.symm) rfl rfl rfl awake
  · have lined := h.responds (t := s.wait (.frame r.toJson) .dispatcher) r running rfl (Nat.le_refl _) live
      (List.append_assoc _ _ _).symm rfl
    exact h.waits full lined rfl rfl rfl rfl

theorem hear (h : s.Seated) (running : s.dispatcher = .running) (m : Json) : (s.hear m).Seated := by
  have noted : (s.note (.received m)).Seated := h.still rfl (Nat.le_refl _) Iff.rfl rfl rfl rfl rfl fun _ => id
  obtain ⟨r, -, -, -, heq⟩ | ⟨-, ⟨r, -, -, heq⟩ | ⟨n, -, -, heq⟩ | ⟨-, -, heq⟩⟩ := s.hear_cases m <;> rw [heq]
  · obtain ⟨calls, pending, answered⟩ := ledger_complete_eq (s.note (.received m)).toLedger r
    exact noted.update (by rw [answered]) (by rw [answered])
  · exact noted.respond running r
  · rw [notify_eq]
    exact noted.still rfl (Nat.le_refl _) Iff.rfl rfl rfl rfl rfl fun _ => id
  · exact noted

end Seated

theorem Befalls.seated (h : Befalls i s t) (seated : s.Seated) : t.Seated := by
  cases h with
  | handler _ h => exact seated.still rfl (Nat.le_refl _) Iff.rfl rfl rfl rfl rfl fun _ => id
  | message m running => exact seated.hear running m
  | notice _ n =>
    rw [notify_eq]
    exact seated.still rfl (Nat.le_refl _) Iff.rfl rfl rfl rfl rfl fun _ => id
  | closing opened =>
    have awake := s.ready_update s.toLedger.close
    obtain ⟨ready, closed⟩ := s.close_eq
    rw [← Session.close, closed] at awake
    rw [closed]
    have shut : s.toLedger.close.state ≠ .opened := by simp [Ledger.close, Ledger.answer, Ledger.note]
    refine ⟨?_, seated.capacity, fun opened => absurd opened shut, fun w hw => awake _ (seated.woken w hw)⟩
    exact ⟨seated.sends, seated.begun, seated.apart, fun opened => absurd opened shut, seated.blocked, seated.spent⟩

/-- There is room for what gets into the queue, and nothing else waits but for want of room, all along. -/
theorem Trail.seated (h : Trail is s t) (seated : s.Seated) : t.Seated := by
  induction h with
  | refl s => exact seated
  | change first _ ih => exact ih (first.seated seated)
  | incident first _ ih => exact ih (first.seated seated)

/-- When the writer takes something from the queue, the first that waits is invited. -/
theorem Seated.invite_taken (h : s.Seated) {rest : List Outbound} (first : s.queue = item :: rest) (writer : Writer) :
    ∃ ready, (∀ task ∈ s.ready, task ∈ ready) ∧ ({ s with writer := writer, queue := rest } : Session).invite =
      { s with
        writer := writer
        queue := rest
        waiting := s.waiting.drop 1
        invited := s.invited ++ s.waiting.take 1
        ready := ready } := by
  have capacity := h.capacity
  rw [first, List.length_cons, Nat.add_right_comm] at capacity
  have room : ({ s with writer := writer, queue := rest } : Session).hasRoom = true := (hasRoom_iff _).mpr capacity
  obtain ⟨nobody | full, same⟩ | ⟨w, others, ready, next, -, -, awake, heq⟩ :=
    invite_cases { s with writer := writer, queue := rest }
  · have nobody : s.waiting = [] := nobody
    exact ⟨s.ready, fun _ => id, by rw [same, nobody, List.take_nil, List.drop_nil, List.append_nil, ← nobody]⟩
  · rw [room] at full
    cases full
  · have next : s.waiting = w :: others := next
    exact ⟨ready, awake, by rw [heq, next]; rfl⟩

/-! ### In their turn -/

/-- Whether a sender has something new to put into the queue in `t` that it did not have in `s`: a call has begun since,
    and the dispatcher has taken a message. -/
def Newly (s t : Session) : Sender → Prop
  | .call n => s.begun ≤ n
  | .dispatcher => s.messages.length < t.messages.length
  | .closer _ => True

/-- `t` comes from `s` while the writer takes so many items from the queue. Of those that have been waiting as many
    have had their turn; the others that are still there keep their order, and only newcomers wait behind them. -/
structure Advances (takes : Nat) (s t : Session) : Prop where
  spent : s.writer = .ended → t.writer = .ended
  begun : s.begun ≤ t.begun
  heard : s.messages.length ≤ t.messages.length
  taken : t.writer ≠ .ended → t.items.length + s.queue.length = s.items.length + t.queue.length + takes
  waiting : ∃ kept new, t.waiting = kept ++ new ∧ kept.Sublist (s.waiting.drop takes) ∧ ∀ w ∈ new, s.Newly t w.sender

theorem items_queued (l : Ledger) (item : Outbound) : (l.note (.queued item)).items = l.items ++ [item] :=
  Ledger.items_append [.queued item] rfl

namespace Advances
variable {k l : Nat}

theorem refl (s : Session) : s.Advances 0 s :=
  ⟨id, Nat.le_refl _, Nat.le_refl _, fun _ => Nat.add_comm _ _ ▸ rfl, s.waiting, [], (List.append_nil _).symm, .refl _,
    List.forall_mem_nil _⟩

theorem newly (first : s.Advances k t) (rest : t.Advances l u) (h : s.Newly t sender ∨ t.Newly u sender) :
    s.Newly u sender := by
  cases sender with
  | call n => exact h.elim id (Nat.le_trans first.begun)
  | dispatcher =>
    exact h.elim (Nat.lt_of_lt_of_le · rest.heard) (Nat.lt_of_le_of_lt first.heard)
  | closer ticket => trivial

theorem trans (h₁ : s.Advances k t) (h₂ : t.Advances l u) : s.Advances (k + l) u where
  spent := h₂.spent ∘ h₁.spent
  begun := Nat.le_trans h₁.begun h₂.begun
  heard := Nat.le_trans h₁.heard h₂.heard
  taken live := by
    have first := h₁.taken (mt h₂.spent live)
    have rest := h₂.taken live
    omega
  waiting := by
    obtain ⟨kept, new, first, before, since⟩ := h₁.waiting
    obtain ⟨kept', new', rest, still, since'⟩ := h₂.waiting
    -- Of the newcomers some may have had their turn meanwhile, after all who had been there before.
    rw [first, List.drop_append, List.sublist_append_iff] at still
    obtain ⟨old, later, rfl, old_sub, later_sub⟩ := still
    refine ⟨old, later ++ new', by rw [rest, List.append_assoc], old_sub.trans ?_, ?_⟩
    · rw [← List.drop_drop]
      exact before.drop l
    · refine List.forall_mem_append.mpr ⟨fun w hw => h₁.newly h₂ (.inl ?_), fun w hw => h₁.newly h₂ (.inr ?_)⟩
      · exact since w (List.mem_of_mem_drop (later_sub.subset hw))
      · exact since' w hw

/-- The writer takes nothing, and more gets into the queue. -/
theorem fed {more : List Outbound} (spent : s.writer = .ended → t.writer = .ended) (begun : s.begun ≤ t.begun)
    (heard : s.messages.length ≤ t.messages.length) (queue : t.queue = s.queue ++ more)
    (items : t.items = s.items ++ more) (waiting : t.waiting.Sublist s.waiting) : s.Advances 0 t := by
  refine ⟨spent, begun, heard, fun _ => ?_, t.waiting, [], (List.append_nil _).symm, waiting, List.forall_mem_nil _⟩
  rw [queue, items, List.length_append, List.length_append]
  omega

/-- Nothing gets into the queue or out of it. -/
theorem still (spent : s.writer = .ended → t.writer = .ended) (begun : s.begun ≤ t.begun)
    (heard : s.messages.length ≤ t.messages.length) (queue : t.queue = s.queue) (items : t.items = s.items)
    (waiting : t.waiting.Sublist s.waiting) : s.Advances 0 t :=
  fed spent begun heard (queue.trans (List.append_nil _).symm) (items.trans (List.append_nil _).symm) waiting

theorem noted {e : Event} (item : e.item? = none) (message : e.message? = none) : s.Advances 0 (s.note e) :=
  .still id (Nat.le_refl _) (messages_note message ▸ Nat.le_refl _) rfl (items_note item) (.refl _)

/-- Another one begins to wait, behind all that do already. -/
theorem joined (spent : s.writer = .ended → t.writer = .ended) (begun : s.begun ≤ t.begun)
    (heard : s.messages.length ≤ t.messages.length) (queue : t.queue = s.queue) (items : t.items = s.items)
    (waiting : t.waiting = s.waiting ++ [w]) (new : s.Newly t w.sender) : s.Advances 0 t := by
  refine ⟨spent, begun, heard, fun _ => ?_, s.waiting, [w], waiting, .refl _, List.forall_mem_singleton.mpr new⟩
  rw [queue, items]
  rfl

end Advances

theorem Change.advances (h : Change s t) (seated : s.Seated) : ∃ takes, s.Advances takes t := by
  have heard := (congrArg List.length h.messages).ge
  cases h with
  | aside | rouse | rest | learn | leave => exact ⟨0, .still id (Nat.le_refl _) heard rfl rfl (.refl _)⟩
  | tell ticket result => exact ⟨0, .noted rfl rfl⟩
  | unblock spent => exact ⟨0, .still id (Nat.le_refl _) heard rfl rfl (.refl _)⟩
  | books h => exact ⟨0, .still id h.begun heard rfl h.items (.refl _)⟩
  | put | enter => exact ⟨0, .fed id (Nat.le_refl _) heard rfl (items_queued _ _) (.refl _)⟩
  | post q h => exact ⟨0, .joined id h.begun heard rfl h.items rfl (Nat.le_refl _)⟩
  | wait ticket => exact ⟨0, .joined id (Nat.le_refl _) heard rfl rfl rfl trivial⟩
  | @withdraw sender own =>
    -- The writer takes nothing: some have gone, and the first of the others may be invited.
    have fewer : (s.waiting.filter (·.sender ≠ sender)).Sublist s.waiting := List.filter_sublist
    rw [Session.withdraw] at heard ⊢
    obtain ⟨-, same⟩ | ⟨w, rest, ready, first, -, -, -, heq⟩ := invite_cases { s with
      waiting := s.waiting.filter (·.sender ≠ sender)
      invited := s.invited.filter (·.sender ≠ sender) }
    · rw [same] at heard ⊢
      exact ⟨0, .still id (Nat.le_refl _) heard rfl rfl fewer⟩
    · rw [heq] at heard ⊢
      have later : rest.Sublist s.waiting := (List.sublist_cons_self w rest).trans (first ▸ fewer)
      exact ⟨0, .still id (Nat.le_refl _) heard rfl rfl later⟩
  | @take j rest idle first =>
    -- This is the one change in which the writer takes something, and the first that waits has its turn.
    obtain ⟨ready, -, heq⟩ := seated.invite_taken first (.writing (Framing.frameBytes j))
    have taken : s.items.length + s.queue.length = s.items.length + rest.length + 1 := by
      rw [first, List.length_cons, Nat.add_assoc]
    have live : s.writer ≠ .ended := by simp [idle]
    rw [heq] at heard ⊢
    refine ⟨1, fun spent => absurd spent live, Nat.le_refl _, heard, fun _ => taken, s.waiting.drop 1, [], ?_⟩
    exact ⟨(List.append_nil _).symm, .refl _, List.forall_mem_nil _⟩
  | write writing =>
    have live : s.writer ≠ .ended := by simp [writing]
    exact ⟨0, .still (fun spent => absurd spent live) (Nat.le_refl _) heard rfl rfl (.refl _)⟩
  | spend =>
    refine ⟨0, fun _ => rfl, Nat.le_refl _, heard, fun live => absurd rfl live, [], [], rfl, ?_⟩
    exact ⟨List.nil_sublist _, List.forall_mem_nil _⟩

/-- A message is taken, and the dispatcher may begin to wait with a response to it. -/
theorem Advances.hear (s : Session) (m : Json) : s.Advances 0 (s.hear m) := by
  have taken : s.messages.length < (s.hear m).messages.length := by
    rw [s.hear_messages m, List.length_append]
    exact Nat.lt_succ_self _
  have heard := Nat.le_of_lt taken
  have items : (s.note (.received m)).items = s.items := items_note rfl
  obtain ⟨r, -, -, -, heq⟩ | ⟨-, ⟨r, -, -, heq⟩ | ⟨n, -, -, heq⟩ | ⟨-, -, heq⟩⟩ := s.hear_cases m <;>
    rw [heq] at taken heard ⊢
  · obtain ⟨ready, completed⟩ := (s.note (.received m)).complete_eq r
    obtain ⟨calls, pending, answered⟩ := ledger_complete_eq (s.note (.received m)).toLedger r
    rw [completed, answered] at heard ⊢
    exact .still id (Nat.le_refl _) heard rfl items (.refl _)
  · obtain ⟨-, ready, -, sent⟩ | ⟨-, -, ready, -, sent⟩ | ⟨-, -, sent⟩ := (s.note (.received m)).respond_cases r <;>
      rw [sent] at taken heard ⊢
    · exact .still id (Nat.le_refl _) heard rfl items (.refl _)
    · exact .fed id (Nat.le_refl _) heard rfl ((items_queued _ _).trans (congrArg (· ++ _) items)) (.refl _)
    · exact .joined id (Nat.le_refl _) heard rfl items rfl taken
  · have told : ((s.note (.received m)).notify n).items = s.items := by
      rw [notify]
      split
      · exact (items_note rfl).trans items
      · exact items
    rw [notify_eq] at heard told ⊢
    exact .still id (Nat.le_refl _) heard rfl told (.refl _)
  · exact .still id (Nat.le_refl _) heard rfl items (.refl _)

theorem Befalls.advances (h : Befalls i s t) : s.Advances 0 t := by
  cases h with
  | handler _ h => exact .still id (Nat.le_refl _) (Nat.le_refl _) rfl rfl (.refl _)
  | message m running => exact .hear s m
  | notice _ n =>
    rw [notify]
    split
    · exact .noted rfl rfl
    · exact .refl s
  | closing opened =>
    have items : s.close.items = s.items := congrArg Outlet.items s.outlet_close
    obtain ⟨ready, closed⟩ := s.close_eq
    rw [closed] at items ⊢
    have messages : (s.note .closed).messages = s.messages := messages_note rfl
    exact .still id (Nat.le_refl _) (messages ▸ Nat.le_refl _) rfl items (.refl _)

namespace Advances
variable {k takes : Nat}

/-- Those that have had their turn do not wait any more, unless they have something new. -/
theorem absent (h : s.Advances takes t) (old : ¬ s.Newly t sender)
    (gone : ∀ v ∈ s.waiting.drop takes, v.sender ≠ sender) : ∀ v ∈ t.waiting, v.sender ≠ sender := by
  obtain ⟨kept, new, waiting, before, since⟩ := h.waiting
  rw [waiting]
  exact List.forall_mem_append.mpr
    ⟨fun v hv => gone v (before.subset hv), fun v hv same => old (same ▸ since v hv)⟩

/-- Whoever has been invited does not wait for an invitation any more. -/
theorem uninvited (h : s.Advances takes t) (lined : s.Lined) (invited : w ∈ s.invited)
    (own : ∀ ticket, w.sender ≠ .closer ticket) (old : ¬ s.Newly t w.sender) : ∀ v ∈ t.waiting, v.sender ≠ w.sender :=
  h.absent old fun v hv => lined.elsewhere invited own v (List.mem_of_mem_drop hv)

/-- Whoever waits does so no more when the writer has taken an item for each one before it, and one for itself. -/
theorem reached (h : s.Advances takes t) (lined : s.Lined) (there : s.waiting[k]? = some w) (passed : k < takes)
    (own : ∀ ticket, w.sender ≠ .closer ticket) (old : ¬ s.Newly t w.sender) :
    ∀ v ∈ t.waiting, v.sender ≠ w.sender := by
  refine h.absent old fun v hv same => ?_
  have apart := (List.pairwise_append.mp lined.apart).2.1
  rw [← List.take_append_drop takes s.waiting] at apart
  -- Those that still wait stand behind `w`, and nobody does so with its sender.
  have first : w ∈ s.waiting.take takes := List.mem_of_getElem? ((List.getElem?_take_of_lt passed).trans there)
  obtain ⟨ticket, closer⟩ := (List.pairwise_append.mp apart).2.2 w first v hv same.symm
  exact own ticket closer

end Advances

/-- Those that wait have their turns in order, all along. -/
theorem Trail.advances (h : Trail is s t) (seated : s.Seated) : ∃ takes, s.Advances takes t := by
  induction h with
  | refl s => exact ⟨0, .refl s⟩
  | change first _ ih =>
    obtain ⟨takes, advances⟩ := first.advances seated
    obtain ⟨more, rest⟩ := ih (first.seated seated)
    exact ⟨takes + more, advances.trans rest⟩
  | incident first _ ih =>
    obtain ⟨more, rest⟩ := ih (first.seated seated)
    exact ⟨0 + more, first.advances.trans rest⟩

/-! ### Turns -/

/-- `t` comes from `s` by the turn of one who has been invited: its item is the last in the queue, and itself goes on.
    The others wait as before. -/
structure Enters (w : Waiting) (s t : Session) : Prop where
  books : t.toLedger = s.seat w
  queue : t.queue = s.queue ++ [w.item]
  invited : t.invited = s.invited.filter (·.sender ≠ w.sender)
  waiting : t.waiting = s.waiting
  dispatcher : t.dispatcher = if w.sender = .dispatcher then .running else s.dispatcher
  writer : t.writer = s.writer

/-- `t` comes from `s` when the writer takes the first frame of the queue: the first that waits is invited. -/
structure Invites (j : Json) (rest : List Outbound) (s t : Session) : Prop where
  books : t.toLedger = s.toLedger
  queue : t.queue = rest
  invited : t.invited = s.invited ++ s.waiting.take 1
  waiting : t.waiting = s.waiting.drop 1
  dispatcher : t.dispatcher = s.dispatcher
  writer : t.writer = .writing (Framing.frameBytes j)

theorem Seated.enters (h : s.Seated) (invited : w ∈ s.invited) : s.Enters w (s.enter w.sender) := by
  obtain ⟨nobody, -⟩ | ⟨v, ready, hv, same, -, heq⟩ := s.enter_cases w.sender
  · exact absurd rfl (nobody w invited)
  · obtain rfl := h.eq_of_sender (List.mem_append_left _ hv) (List.mem_append_left _ invited) same
    rw [heq]
    exact ⟨rfl, rfl, rfl, rfl, rfl, rfl⟩

theorem callers_seat (l : Ledger) (w : Waiting) : (l.seat w).calls.map (·.caller) = l.calls.map (·.caller) := by
  rw [Ledger.seat]
  split
  · rw [Ledger.place, List.map_map]
    refine List.map_congr_left fun c _ => ?_
    rw [Function.comp_apply]
    split <;> rfl
  · rfl

theorem holders_enter (s : Session) (sender : Sender) : (s.enter sender).holders = s.holders := by
  obtain ⟨-, same⟩ | ⟨w, ready, -, -, -, heq⟩ := s.enter_cases sender
  · rw [same]
  · simp only [heq, holders_eq, callers_seat]

end Session

namespace Client
variable {c : Client} {i : Nat} {s t : Session} {w : Waiting} {a : Action} {j : Json} {rest : List Outbound}

theorem seated_run (actions : List Action) (hs : (initial.run actions).sessions[i]? = some s) : s.Seated := by
  obtain ⟨s₀, trail, there | ⟨-, r, k, capacity, rfl⟩⟩ := Invariant.initial.trail_run .initial actions hs
  · exact nomatch there
  · exact trail.seated (.initial r k capacity)

/-- Whoever has been invited enters in its next turn. -/
theorem perform_invited (seated : s.Seated) (hs : c.sessions[i]? = some s) (invited : w ∈ s.invited) :
    c.perform i w.sender.task = c.modify i (·.enter w.sender) := by
  have there : s.isInvited w.sender = true := (s.isInvited_iff _).mpr ⟨w, invited, rfl⟩
  simp only [perform, hs, seated.canGoOn c.now invited, if_true]
  cases own : w.sender with
  | call n =>
    refine modify_congr fun s' hs' => ?_
    cases hs.symm.trans hs'
    rw [own] at there
    exact if_pos there
  | dispatcher => simp [Sender.task, dispatch, seated.blocked_of_invited invited own]
  | closer ticket => rfl

/-- Whoever has been invited puts its item into the queue in its next turn, and has been woken for that turn. -/
theorem Invariant.turn_enters (h : c.Invariant) (seated : s.Seated) (hs : c.sessions[i]? = some s)
    (invited : w ∈ s.invited) : w.sender.task ∈ s.ready ∧
      ∃ t, (c.step (.task i w.sender.task)).sessions[i]? = some t ∧ s.Enters w t := by
  have entered : (c.perform i w.sender.task).sessions[i]? = some (s.enter w.sender) := by
    rw [perform_invited seated hs invited]
    exact sessions_modify_self hs _
  -- A session that nobody holds has been closed before, so that the release leaves it as it is.
  have held : Held (s.enter w.sender) := fun unheld =>
    (Session.Changes.enter s w.sender).state.trans (h.held i s hs ((s.holders_enter w.sender).symm.trans unheld))
  obtain ⟨stopping, ready, there⟩ := step_of_held (a := .task i w.sender.task) rfl entered held
  have enters := seated.enters invited
  exact ⟨seated.woken w invited, _, there, enters.books, enters.queue, enters.invited, enters.waiting,
    enters.dispatcher, enters.writer⟩

/-- A writer that is idle takes the first frame of the queue in its next turn, and invites the first that waits. -/
theorem Invariant.turn_takes (h : c.Invariant) (seated : s.Seated) (hs : c.sessions[i]? = some s)
    (idle : s.writer = .idle) (first : s.queue = .frame j :: rest) :
    ∃ t, (c.step (.task i .write)).sessions[i]? = some t ∧ s.Invites j rest t := by
  obtain ⟨ready, -, heq⟩ := seated.invite_taken first (.writing (Framing.frameBytes j))
  have taken : (c.perform i .write).sessions[i]? = some ({ s with
      writer := .writing (Framing.frameBytes j), queue := rest } : Session).invite := by
    have able : s.canGoOn c.now .write = true := by simp [Session.canGoOn, Session.canWrite, idle, first]
    simp only [perform, hs, able, if_true, write, idle, first]
    exact sessions_modify_self hs _
  rw [heq] at taken
  obtain ⟨stopping, ready, there⟩ := step_of_held (a := .task i .write) rfl taken (h.held i s hs)
  exact ⟨_, there, rfl, rfl, rfl, rfl, rfl, rfl⟩

/-! ### Runs -/

/-- How what waits for room gets into the queue of session `i`, which is in state `s` of client `c`. -/
structure Serves (c : Client) (i : Nat) (s : Session) : Prop where
  /-- There is never more in the queue, or invited to it, than it has room for. -/
  capacity : s.queue.length + s.invited.length ≤ Session.queueLimit
  /-- On an open session nothing waits for an invitation but for want of room. -/
  full : s.state = .opened → s.waiting ≠ [] → s.queue.length + s.invited.length = Session.queueLimit
  /-- When the writer takes a frame, the first that waits is invited. -/
  takes : ∀ j rest, s.writer = .idle → s.queue = .frame j :: rest →
    ∃ t, (c.step (.task i .write)).sessions[i]? = some t ∧ s.Invites j rest t
  /-- Whoever has been invited has been woken, and puts its item into the queue in its next turn. -/
  enters : ∀ w ∈ s.invited, w.sender.task ∈ s.ready ∧
    ∃ t, (c.step (.task i w.sender.task)).sessions[i]? = some t ∧ s.Enters w t
  /-- Those that wait have their turns in order, and newcomers wait behind them. -/
  order : ∀ more t, (c.run more).sessions[i]? = some t → ∃ takes, s.Advances takes t

namespace Serves

/-- On an open session a sender waits for want of room only, or has been invited already. -/
theorem room (h : Serves c i s) (opened : s.state = .opened) (offered : w ∈ s.offers) :
    s.isInvited w.sender = true ∨ s.queue.length + s.invited.length = Session.queueLimit := by
  rcases List.mem_append.mp offered with invited | waits
  · exact .inl ((s.isInvited_iff _).mpr ⟨w, invited, rfl⟩)
  · exact .inr (h.full opened (List.ne_nil_of_mem waits))

/-- Whoever has been invited stays so as long as it waits, unless it comes with something new. -/
theorem lasting (h : Serves c i s) (lined : s.Lined) (invited : w ∈ s.invited)
    (own : ∀ ticket, w.sender ≠ .closer ticket) {more : List Action} (ht : (c.run more).sessions[i]? = some t)
    (old : ¬ s.Newly t w.sender) (offered : ∃ v ∈ t.offers, v.sender = w.sender) : t.isInvited w.sender = true := by
  obtain ⟨takes, advances⟩ := h.order more t ht
  exact Session.isInvited_of_offer offered (advances.uninvited lined invited own old)

/-- Whoever waits behind `k` others is invited by the time that the writer has taken one more item than that, unless it
    has gone or comes with something new. -/
theorem bounded (h : Serves c i s) (lined : s.Lined) {k : Nat} (there : s.waiting[k]? = some w)
    (own : ∀ ticket, w.sender ≠ .closer ticket) {more : List Action} (ht : (c.run more).sessions[i]? = some t)
    (old : ¬ s.Newly t w.sender) (offered : ∃ v ∈ t.offers, v.sender = w.sender) :
    ∃ takes, s.Advances takes t ∧ (k < takes → t.isInvited w.sender = true) := by
  obtain ⟨takes, advances⟩ := h.order more t ht
  refine ⟨takes, advances, fun passed => ?_⟩
  exact Session.isInvited_of_offer offered (advances.reached lined there passed own old)

end Serves

/-- In every run, what waits for room gets into the queue in its turn. -/
theorem served (actions : List Action) (hs : (initial.run actions).sessions[i]? = some s) :
    Serves (initial.run actions) i s := by
  have reached := Invariant.initial.run actions
  have routed := Invariant.initial.routed_run .initial actions
  have seated := seated_run actions hs
  refine ⟨seated.capacity, fun opened waits => ?_, fun j rest => reached.turn_takes seated hs,
    fun w => reached.turn_enters seated hs, fun more t ht => ?_⟩
  · exact Nat.le_antisymm seated.capacity (seated.full opened waits)
  · obtain ⟨s', trail, there | ⟨missing, -⟩⟩ := reached.trail_run routed more ht
    · cases hs.symm.trans there
      exact trail.advances seated
    · exact nomatch hs.symm.trans missing

end Client
end Ovsdb
