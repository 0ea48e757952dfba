import Ovsdb.Proofs.Session.Ledger

/-! What a call has coming to it: once its slot is filled it ends with that result or not at all, and a closing fills
    the slots of all calls that wait. -/

namespace Ovsdb.Ledger

variable {l l' : Ledger} {n : Nat} {m : Json} {x y : Except Error Json} {call : Call}

/-- Nothing but this can come of a call any more: it is there with this reply, has ended with it, or has been given
    up. The reply of a call whose frame is not in the queue yet can still be overtaken by the closing. -/
def Destined (l : Ledger) (n : Nat) (x : Except Error Json) : Prop :=
  (∃ call ∈ l.calls, call.number = n ∧ call.reply = some x ∧ (call.queued = true ∨ x = .error .connectionClosed)) ∨
    .ended n x ∈ l.journal ∨ .abandoned n ∈ l.journal

/-- A call waits for its reply, or has the closing coming to it. -/
def Exposed (l : Ledger) (n : Nat) : Prop :=
  (∃ call ∈ l.calls, call.number = n ∧ call.reply = none) ∨ l.Destined n (.error .connectionClosed)

/-- A call goes away once. -/
theorem Sound.left_unique {e e' : Event} (h : l.Sound) (he : e ∈ l.journal) (he' : e' ∈ l.journal)
    (hn : e.left? = some n) (hn' : e'.left? = some n) : e = e' := by
  have nodup := (List.nodup_append.mp (h.left.nodup_iff.mpr List.nodup_range)).1
  obtain ⟨before, after, split⟩ := List.append_of_mem he
  rw [split, List.filterMap_append, List.filterMap_cons_some hn, List.nodup_middle, List.nodup_cons,
    List.mem_append] at nodup
  rw [split, List.mem_append, List.mem_cons] at he'
  rcases he' with he' | rfl | he'
  · exact absurd (Or.inl (List.mem_filterMap.mpr ⟨e', he', hn'⟩)) nodup.1
  · rfl
  · exact absurd (Or.inr (List.mem_filterMap.mpr ⟨e', he', hn'⟩)) nodup.1

namespace Destined

/-- A call ends as it is destined to. -/
theorem ended (h : l.Destined n x) (hs : l.Sound) (he : .ended n y ∈ l.journal) : y = x := by
  rcases h with ⟨call, hc, rfl, -⟩ | hx | hx
  · exact absurd rfl (hs.not_left hc he)
  · cases hs.left_unique he hx rfl rfl
    rfl
  · cases hs.left_unique he hx rfl rfl

theorem more (h : l.Destined n x) (calls : ∀ c ∈ l.calls, c ∈ l'.calls) (events : List Event)
    (journal : l'.journal = l.journal ++ events) : l'.Destined n x := by
  rw [Destined, journal]
  rcases h with ⟨call, hc, h⟩ | h | h
  · exact Or.inl ⟨call, calls call hc, h⟩
  · exact Or.inr (Or.inl (List.mem_append_left _ h))
  · exact Or.inr (Or.inr (List.mem_append_left _ h))

theorem note (h : l.Destined n x) (e : Event) : (l.note e).Destined n x :=
  h.more (fun _ => id) [e] rfl

theorem answer (h : l.Destined n x) (hs : l.Sound) {numbers : List Nat} (hp : ∀ k ∈ numbers, k ∈ l.pending)
    (reply : Except Error Json) : (l.answer numbers reply).Destined n x := by
  rcases h with ⟨call, hc, rfl, hr, hq⟩ | h
  · have filled : call.number ∉ numbers := by
      intro hn
      rw [(hs.pending_iff hc).mp (hp _ hn)] at hr
      cases hr
    exact Or.inl ⟨call, mem_answer_of_notMem hc filled, rfl, hr, hq⟩
  · exact Or.inr h

theorem place (h : l.Destined n x) (k : Nat) : (l.place k).Destined n x := by
  rcases h with ⟨call, hc, hn, hr, hq⟩ | h
  · obtain ⟨c, hc, hn', hr', hq'⟩ := mem_place_of_mem hc
    exact Or.inl ⟨c, hc, hn'.trans hn, hr'.trans hr, hq.imp_left hq'⟩
  · exact Or.inr h

theorem forget (h : l.Destined n x) (hs : l.Sound) {k : Nat} (hk : k ≠ n) : (l.forget k).Destined n x := by
  rcases h with ⟨call, hc, rfl, hr, hq⟩ | h
  · refine Or.inl ⟨call, mem_answer_of_notMem (List.mem_filter.mpr ⟨hc, bne_iff_ne.mpr hk.symm⟩) ?_, rfl, hr, hq⟩
    intro hn
    rw [(hs.pending_iff hc).mp (mem_pendingWith.mp hn).1] at hr
    cases hr
  · exact Or.inr h

theorem finish (h : l.Destined n x) (hs : l.Sound) {k : Nat} (hy : k = n → y = x) : (l.finish k y).Destined n x := by
  by_cases hn : k = n
  · refine Or.inr (Or.inl (List.mem_append_right _ ?_))
    rw [← hn, hy hn]
    exact List.mem_cons_self
  · exact (h.forget hs hn).note _

theorem abandon (h : l.Destined n x) (hs : l.Sound) (k : Nat) : (l.abandon k).Destined n x := by
  by_cases hn : k = n
  · refine Or.inr (Or.inr (List.mem_append_right _ ?_))
    rw [← hn]
    exact List.mem_cons_self
  · exact (h.forget hs hn).note _

theorem reply_eq (h : l.Destined call.number x) (hs : l.Sound) (hc : call ∈ l.calls) :
    call.reply = some x ∧ (call.queued = true ∨ x = .error .connectionClosed) := by
  rcases h with ⟨c, hc', hn, hr⟩ | hx | hx
  · rwa [hs.eq_of_number hc' hc hn] at hr
  · exact absurd rfl (hs.not_left hc hx)
  · exact absurd rfl (hs.not_left hc hx)

theorem move (h : l.Destined n x) (hs : l.Sound) (hm : Move l l') : l'.Destined n x := by
  cases hm with
  | remark _ => exact h.note _
  | begin caller goal _ =>
    have vacant : (l.vacate (requestId l.begun)).Destined n x := h.answer hs (fun k hk => (mem_pendingWith.mp hk).1) _
    exact vacant.more (fun c hc => List.mem_append_left _ hc) [.called l.begun] rfl
  | refuse _ => exact h.more (fun _ => id) _ (List.append_assoc _ _ _)
  | place k => exact h.place k
  | abandon _ => exact h.abandon hs _
  | conclude hc _ hr =>
    -- A call ends with the reply in its slot.
    refine h.finish hs fun hn => ?_
    subst hn
    exact Option.some.inj (hr.symm.trans (h.reply_eq hs hc).1)
  | reject hc hq _ =>
    -- A call that is rejected is not in the queue, so it is destined to the closing and to nothing else.
    refine h.finish hs fun hn => ?_
    subst hn
    rcases (h.reply_eq hs hc).2 with queued | closed
    · exact absurd (queued.symm.trans hq) (by simp)
    · exact closed.symm

theorem turn (h : l.Destined n x) (hs : l.Sound) (ht : Turn l l') : l'.Destined n x := by
  cases ht with
  | move hm => exact h.move hs hm
  | close _ =>
    have filled : (l.answer l.pending (.error .connectionClosed)).Destined n x := h.answer hs (fun _ => id) _
    exact filled.more (fun _ => id) [.closed] rfl

theorem turns (h : l.Destined n x) (hs : l.Sound) (ht : Relation.ReflTransGen Turn l l') : l'.Destined n x := by
  induction ht with
  | refl => exact h
  | tail before ht ih => exact ih.turn (hs.turns before) ht

theorem receive (h : l.Destined n x) (hs : l.Sound) (m : Json) : (l.receive m).Destined n x := by
  have sound : (l.note (.received m)).Sound := hs.note rfl rfl (by simp)
  obtain ⟨numbers, reply, waits, heq⟩ := receive_eq m l
  rw [heq]
  exact (h.note (.received m)).answer sound waits reply

/-- Every step leaves calls what they are destined to. -/
theorem step (h : l.Destined n x) (hs : l.Sound) (step : Step l l') : l'.Destined n x := by
  cases step with
  | turns ht => exact h.turns hs ht
  | message m hr => exact (h.receive hs m).turns (hs.receive m) (turns_of_moves hr.moves)

end Destined

/-! ### Waiting for a closing -/

theorem destined_of_reply (hc : call ∈ l.calls) (hq : call.queued = true) (hr : call.reply = some x) :
    l.Destined call.number x :=
  Or.inl ⟨call, hc, rfl, hr, Or.inl hq⟩

namespace Exposed

/-- A slot that is empty gets nothing but the closing here. -/
theorem answer (hc : call ∈ l.calls) (hr : call.reply = none) (numbers : List Nat) :
    (l.answer numbers (.error .connectionClosed)).Exposed call.number := by
  by_cases hn : call.number ∈ numbers
  · exact Or.inr (Or.inl ⟨_, List.mem_map.mpr ⟨call, hc, if_pos hn⟩, rfl, rfl, Or.inr rfl⟩)
  · exact Or.inl ⟨call, mem_answer_of_notMem hc hn, rfl, hr⟩

theorem more (h : l.Exposed n) (calls : ∀ c ∈ l.calls, c ∈ l'.calls) (events : List Event)
    (journal : l'.journal = l.journal ++ events) : l'.Exposed n := by
  rcases h with ⟨call, hc, h⟩ | h
  · exact Or.inl ⟨call, calls call hc, h⟩
  · exact Or.inr (h.more calls events journal)

theorem forget (hc : call ∈ l.calls) (hr : call.reply = none) {k : Nat} (hk : k ≠ call.number) :
    (l.forget k).Exposed call.number :=
  answer (l := { l with calls := l.calls.filter (·.number != k) })
    (List.mem_filter.mpr ⟨hc, bne_iff_ne.mpr hk.symm⟩) hr _

/-- Until its session is closed, a call that waits stays exposed whatever move is made. -/
theorem move (h : l.Exposed n) (hs : l.Sound) (hm : Move l l') : l'.Exposed n := by
  obtain ⟨call, hc, rfl, hr⟩ | h := h
  · cases hm with
    | remark _ => exact more (Or.inl ⟨call, hc, rfl, hr⟩) (fun _ => id) _ rfl
    | begin caller goal _ =>
      have vacant : (l.vacate (requestId l.begun)).Exposed call.number := answer hc hr _
      exact vacant.more (fun c hc => List.mem_append_left _ hc) [.called l.begun] rfl
    | refuse _ => exact more (Or.inl ⟨call, hc, rfl, hr⟩) (fun _ => id) _ (List.append_assoc _ _ _)
    | place k =>
      obtain ⟨c, hc', hn, hr', -⟩ := mem_place_of_mem hc
      exact Or.inl ⟨c, hc', hn, hr'.trans hr⟩
    | @abandon other _ =>
      by_cases hn : other.number = call.number
      · refine Or.inr (Or.inr (Or.inr (List.mem_append_right _ ?_)))
        rw [hn]
        exact List.mem_cons_self
      · exact (forget hc hr hn).more (fun _ => id) _ rfl
    | @conclude other y ho _ hy =>
      -- The one that ends has its reply, so it is another call.
      have hn : other.number ≠ call.number := by
        intro hn
        rw [hs.eq_of_number ho hc hn, hr] at hy
        cases hy
      exact (forget hc hr hn).more (fun _ => id) _ rfl
    | @reject other _ _ _ =>
      by_cases hn : other.number = call.number
      · refine Or.inr (Or.inr (Or.inl (List.mem_append_right _ ?_)))
        rw [hn]
        exact List.mem_cons_self
      · exact (forget hc hr hn).more (fun _ => id) _ rfl
  · exact Or.inr (h.move hs hm)

theorem turn (h : l.Exposed n) (hs : l.Sound) (ht : Turn l l') : l'.Exposed n := by
  cases ht with
  | move hm => exact h.move hs hm
  | close opened =>
    obtain ⟨call, hc, rfl, hr⟩ | h := h
    · exact (answer hc hr l.pending).more (fun _ => id) [.closed] rfl
    · exact Or.inr (h.turn hs (.close opened))

theorem turns (h : l.Exposed n) (hs : l.Sound) (ht : Relation.ReflTransGen Turn l l') : l'.Exposed n := by
  induction ht with
  | refl => exact h
  | tail before ht ih => exact ih.turn (hs.turns before) ht

theorem destined (h : l.Exposed n) (hs : l.Sound) (closed : l.state = .closed) :
    l.Destined n (.error .connectionClosed) := by
  rcases h with ⟨call, hc, rfl, hr⟩ | h
  · have waits := (hs.pending_iff hc).mpr hr
    rw [hs.shut closed] at waits
    exact absurd waits List.not_mem_nil
  · exact h

end Exposed

/-- What the closing of a session means for its calls: those that wait are destined to fail with it, and those that
    have their reply while their frame is in the queue are destined to that. -/
theorem destined_of_closing (hs : l.Sound) (ht : Relation.ReflTransGen Turn l l') (closed : l'.state = .closed)
    (hc : call ∈ l.calls) :
    (call.reply = none → l'.Destined call.number (.error .connectionClosed)) ∧
      ∀ x, call.queued = true → call.reply = some x → l'.Destined call.number x := by
  constructor
  · intro hr
    have exposed : l.Exposed call.number := Or.inl ⟨call, hc, rfl, hr⟩
    exact (exposed.turns hs ht).destined (hs.turns ht) closed
  · intro x hq hr
    exact (destined_of_reply hc hq hr).turns hs ht

end Ovsdb.Ledger
