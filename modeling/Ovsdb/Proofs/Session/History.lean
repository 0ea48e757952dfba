import Ovsdb.Proofs.Session.Ledger

/-! Why calls end as they do: what fills the reply slot of a call, and what a call ends with, goes back to the first
    response with its id that comes in after the call has begun, or else to the closing of the session. -/

namespace Ovsdb

namespace Journal

/-- The message is this response, and carries the id of the call. -/
def Answers (m : Json) (n : Nat) (p : Response) : Prop :=
  Message.ofJson m = .ok (.response p) ∧ p.id.uint64? = some (requestId n)

/-- Among the events there is no response with the id of the call. -/
def Silent (events : List Event) (n : Nat) : Prop :=
  ∀ m p, .received m ∈ events → ¬ Answers m n p

/-- The call has begun, and no response with its id has come in since. -/
def Unanswered (journal : List Event) (n : Nat) : Prop :=
  ∃ before after, journal = before ++ .called n :: after ∧ Silent after n

/-- The call has begun, and the first response with its id that has come in since is this one. -/
def FirstReply (journal : List Event) (n : Nat) (p : Response) : Prop :=
  ∃ before between m after, journal = before ++ .called n :: (between ++ .received m :: after) ∧ Silent between n ∧
    Answers m n p

/-- What accounts for the result of a call: its first reply, or the closing of the session. -/
def Explains (journal : List Event) (n : Nat) (x : Except Error Json) : Prop :=
  (∃ p, FirstReply journal n p ∧ p.outcome = x) ∨ (x = .error .connectionClosed ∧ .closed ∈ journal)

variable {journal more events : List Event} {n k : Nat} {m : Json} {p q : Response} {x : Except Error Json} {e : Event}

theorem Answers.eq_response (h : Answers m n p) (hq : Message.ofJson m = .ok (.response q)) : p = q := by
  have := h.1.symm.trans hq
  cases this
  rfl

theorem Silent.note (h : Silent events n) (he : ∀ m p, e = .received m → ¬ Answers m n p) :
    Silent (events ++ [e]) n := by
  intro m p hm
  rcases List.mem_append.mp hm with hm | hm
  · exact h m p hm
  · exact he m p (List.mem_singleton.mp hm).symm

theorem Unanswered.note (h : Unanswered journal n) (he : ∀ m p, e = .received m → ¬ Answers m n p) :
    Unanswered (journal ++ [e]) n := by
  obtain ⟨before, after, rfl, silent⟩ := h
  exact ⟨before, after ++ [e], by simp, silent.note he⟩

theorem Unanswered.reply (h : Unanswered journal n) (hm : Answers m n p) :
    FirstReply (journal ++ [.received m]) n p := by
  obtain ⟨before, after, rfl, silent⟩ := h
  exact ⟨before, after, m, [], by simp, silent, hm⟩

theorem FirstReply.append (h : FirstReply journal n p) (more : List Event) : FirstReply (journal ++ more) n p := by
  obtain ⟨before, between, m, after, rfl, silent, hm⟩ := h
  exact ⟨before, between, m, after ++ more, by simp, silent, hm⟩

theorem Explains.append (h : Explains journal n x) (more : List Event) : Explains (journal ++ more) n x := by
  rcases h with ⟨p, hp, hx⟩ | ⟨hx, hc⟩
  · exact Or.inl ⟨p, hp.append more, hx⟩
  · exact Or.inr ⟨hx, List.mem_append_left _ hc⟩

theorem called_inj {before before' after after' : List Event} (once : (journal.filterMap Event.called?).Nodup)
    (h : journal = before ++ .called n :: after) (h' : journal = before' ++ .called n :: after') : after = after' := by
  have called : ∀ {events : List Event}, .called n ∈ events → n ∈ events.filterMap Event.called? :=
    fun he => List.mem_filterMap.mpr ⟨_, he, rfl⟩
  subst h
  rw [List.filterMap_append, List.filterMap_cons_some (f := Event.called?) rfl, List.nodup_middle, List.nodup_cons,
    List.mem_append] at once
  have notBefore : .called n ∉ before := fun he => once.1 (Or.inl (called he))
  have notAfter : .called n ∉ after := fun he => once.1 (Or.inr (called he))
  exact ((List.append_cons_inj_of_notMem notBefore notAfter).mp h').2.2

theorem FirstReply.answered (h : FirstReply journal n p) (once : (journal.filterMap Event.called?).Nodup) :
    ¬ Unanswered journal n := by
  rintro ⟨before', after', h', silent⟩
  obtain ⟨before, between, m, after, h, -, hm⟩ := h
  have same := called_inj once h h'
  exact silent m p (same ▸ List.mem_append_right _ List.mem_cons_self) hm

end Journal

namespace Ledger
open Journal

/-- The slots of the calls and the results that calls have ended with are accounted for. -/
structure Explained (l : Ledger) : Prop where
  waits : ∀ call ∈ l.calls, call.reply = none → Unanswered l.journal call.number
  slots : ∀ call ∈ l.calls, ∀ x, call.reply = some x → Explains l.journal call.number x
  ends : ∀ before n x after, l.journal = before ++ .ended n x :: after → Explains before n x

variable {l l' : Ledger} {n k : Nat} {m : Json} {p : Response} {x reply : Except Error Json} {call : Call} {e : Event}
  {numbers : List Nat}

theorem requestId_inj (hn : n < UInt64.size) (hk : k < UInt64.size) (h : requestId n = requestId k) : n = k := by
  have := congrArg UInt64.toNat h
  rwa [requestId, requestId, UInt64.toNat_ofNat_of_lt' hn, UInt64.toNat_ofNat_of_lt' hk] at this

/-- Until the ids run out, no other call waits under the id of a call. -/
theorem pendingWith_requestId (h : l.Sound) (hn : n < UInt64.size) (hb : l.begun ≤ UInt64.size)
    (hk : k ∈ l.pendingWith (requestId n)) : k = n := by
  obtain ⟨hp, hid⟩ := mem_pendingWith.mp hk
  obtain ⟨call, hc, rfl, -⟩ := (h.tallied k).mp hp
  exact requestId_inj (Nat.lt_of_lt_of_le (h.number_lt hc) hb) hn hid

namespace Explained

theorem empty : Explained .empty where
  waits := by simp [Ledger.empty]
  slots := by simp [Ledger.empty]
  ends := by
    intro before n x after h
    exact absurd h (by simp [Ledger.empty])

theorem ends_note (h : l.Explained) (he : ∀ n x, e = .ended n x → Explains l.journal n x) :
    ∀ before n x after, l.journal ++ [e] = before ++ .ended n x :: after → Explains before n x := by
  intro before n x after heq
  rcases List.eq_nil_or_concat after with rfl | ⟨after, last, rfl⟩
  · -- The new event is the end of the call.
    obtain ⟨rfl, hlast⟩ := List.append_inj' heq rfl
    exact he n x (List.singleton_inj.mp hlast)
  · rw [List.concat_eq_append, ← List.cons_append, ← List.append_assoc] at heq
    exact h.ends before n x after (List.append_inj' heq rfl).1

theorem note (h : l.Explained)
    (hr : ∀ call ∈ l.calls, call.reply = none → ∀ m p, e = .received m → ¬ Answers m call.number p)
    (he : ∀ n x, e = .ended n x → Explains l.journal n x) : (l.note e).Explained where
  waits call hc hn := (h.waits call hc hn).note (hr call hc hn)
  slots call hc x hx := (h.slots call hc x hx).append [e]
  ends := h.ends_note he

theorem remark (h : l.Explained) (he : e.IsRemark) : (l.note e).Explained :=
  h.note (fun _ _ _ m _ hm => absurd hm (he.ne_received m)) fun _ _ hx => absurd he (hx ▸ id)

theorem answer (h : l.Explained)
    (hx : ∀ call ∈ l.calls, call.number ∈ numbers → Explains l.journal call.number reply) :
    (l.answer numbers reply).Explained where
  waits := by
    intro call hc hn
    rcases mem_answer hc with ⟨hc, -⟩ | ⟨c, -, -, rfl⟩
    · exact h.waits call hc hn
    · cases hn
  slots := by
    intro call hc x hs
    rcases mem_answer hc with ⟨hc, -⟩ | ⟨c, there, hn, rfl⟩
    · exact h.slots call hc x hs
    · cases hs
      exact hx c there hn
  ends := h.ends

theorem place (h : l.Explained) (n : Nat) : (l.place n).Explained where
  waits := by
    intro call hc hn
    obtain ⟨c, hc, hnum, hr, -⟩ := mem_place hc
    exact hnum ▸ h.waits c hc (hr.symm.trans hn)
  slots := by
    intro call hc x hs
    obtain ⟨c, hc, hnum, hr, -⟩ := mem_place hc
    exact hnum ▸ h.slots c hc x (hr.symm.trans hs)
  ends := h.ends

/-- Taking a call away leaves the slots of all the others alone, since no other one waits under its id. -/
theorem forget (h : l.Explained) (hs : l.Sound) (hn : n < l.begun) (hb : l.begun ≤ UInt64.size) :
    (l.forget n).Explained := by
  have fewer : Explained { l with calls := l.calls.filter (·.number != n) } :=
    ⟨fun call hc => h.waits call (List.mem_filter.mp hc).1,
      fun call hc => h.slots call (List.mem_filter.mp hc).1, h.ends⟩
  -- The slot under the id is the call's own, and the call is gone.
  refine fewer.answer fun call hc hk => ?_
  have same := pendingWith_requestId hs (Nat.lt_of_lt_of_le hn hb) hb hk
  exact absurd same (bne_iff_ne.mp (List.mem_filter.mp hc).2)

theorem finish (h : l.Explained) (hs : l.Sound) (hn : n < l.begun) (hb : l.begun ≤ UInt64.size)
    (hx : Explains l.journal n x) : (l.finish n x).Explained := by
  refine (h.forget hs hn hb).note (by simp) ?_
  rintro _ _ ⟨⟩
  exact hx

theorem abandon (h : l.Explained) (hs : l.Sound) (hn : n < l.begun) (hb : l.begun ≤ UInt64.size) :
    (l.abandon n).Explained :=
  (h.forget hs hn hb).note (by simp) (by simp)

theorem count (h : l.Explained) : l.count.Explained :=
  have counted : Explained { l with begun := l.begun + 1 } := ⟨h.waits, h.slots, h.ends⟩
  counted.note (by simp) (by simp)

theorem refuse (h : l.Explained) (hs : l.Sound) (closed : l.state = .closed) : l.refuse.Explained := by
  refine h.count.note (by simp) ?_
  rintro _ _ ⟨⟩
  exact Or.inr ⟨rfl, List.mem_append_left _ (hs.closed.mpr closed)⟩

theorem begin (h : l.Explained) (hs : l.Sound) (hb : l.begun < UInt64.size) (caller : Caller) (goal : Goal) :
    (l.begin caller goal).Explained := by
  have rest : (l.count.vacate (requestId l.begun)).Explained := by
    refine h.count.answer fun call hc hk => ?_
    have same : call.number = l.begun := pendingWith_requestId hs hb (Nat.le_of_lt hb) hk
    exact absurd same (Nat.ne_of_lt (hs.number_lt hc))
  refine ⟨?_, ?_, rest.ends⟩
  · intro call hc hn
    rcases List.mem_append.mp hc with hc | hc
    · exact rest.waits call hc hn
    · rw [List.mem_singleton.mp hc]
      exact ⟨l.journal, [], rfl, by simp [Silent]⟩
  · intro call hc x hx
    rcases List.mem_append.mp hc with hc | hc
    · exact rest.slots call hc x hx
    · rw [List.mem_singleton.mp hc] at hx
      cases hx

theorem close (h : l.Explained) : l.close.Explained := by
  have said : Explained ({ l with state := .closed }.note .closed) :=
    Explained.note (l := { l with state := .closed }) ⟨h.waits, h.slots, h.ends⟩ (by simp) (by simp)
  exact said.answer fun call _ _ => Or.inr ⟨rfl, List.mem_append_right _ List.mem_cons_self⟩

theorem receive (h : l.Explained) (hs : l.Sound) (m : Json) : (l.receive m).Explained := by
  rw [Ledger.receive]
  split
  case h_2 _ other =>
    refine h.note ?_ (by simp)
    rintro call - - _ p ⟨⟩ hp
    exact other p hp.1
  case h_1 p hp =>
    rw [complete]
    split
    case h_1 hid =>
      -- The response has no id that could be one of a call.
      refine h.note ?_ (by simp)
      rintro call - - _ q ⟨⟩ hq
      rw [← hq.eq_response hp, hq.2] at hid
      cases hid
    case h_2 id hid =>
      refine ⟨?_, ?_, h.ends_note (by simp)⟩
      · intro call hc hn
        rcases mem_answer hc with ⟨there, other⟩ | ⟨c, -, -, rfl⟩
        · -- A call that the response answers is pending under its id, and not left waiting.
          refine (h.waits call there hn).note ?_
          rintro _ q ⟨⟩ hq
          rw [← hq.eq_response hp, hq.2] at hid
          cases hid
          exact other (mem_pendingWith.mpr ⟨(hs.pending_iff there).mpr hn, rfl⟩)
        · cases hn
      · intro call hc x hx
        rcases mem_answer hc with ⟨there, -⟩ | ⟨c, there, hn, rfl⟩
        · exact (h.slots call there x hx).append _
        · cases hx
          obtain ⟨hw, rfl⟩ := mem_pendingWith.mp hn
          have waits := h.waits c there ((hs.pending_iff there).mp hw)
          exact Or.inl ⟨p, waits.reply ⟨hp, hid⟩, rfl⟩

theorem move (h : l.Explained) (hs : l.Sound) (hm : Move l l') (hb : l'.begun ≤ UInt64.size) : l'.Explained := by
  cases hm with
  | remark he => exact h.remark he
  | begin caller goal _ => exact h.begin hs hb caller goal
  | refuse closed => exact h.refuse hs closed
  | place n => exact h.place n
  | abandon hc => exact h.abandon hs (hs.number_lt hc) hb
  | conclude hc _ hr => exact h.finish hs (hs.number_lt hc) hb (h.slots _ hc _ hr)
  | reject hc _ closed => exact h.finish hs (hs.number_lt hc) hb (Or.inr ⟨rfl, hs.closed.mpr closed⟩)

theorem turn (h : l.Explained) (hs : l.Sound) (ht : Turn l l') (hb : l'.begun ≤ UInt64.size) : l'.Explained := by
  cases ht with
  | move hm => exact h.move hs hm hb
  | close _ => exact h.close

end Explained

/-! ### Whole runs -/

theorem begun_le_turn (h : Turn l l') : l.begun ≤ l'.begun := by
  rcases h with ⟨⟨⟩⟩ | _ <;> first | exact Nat.le_refl _ | exact Nat.le_succ _

/-- Everything is accounted for as long as the ids have not run out. -/
def Accounted (l : Ledger) : Prop :=
  l.begun ≤ UInt64.size → l.Explained

theorem Accounted.turns (h : l.Accounted) (hs : l.Sound) (ht : Relation.ReflTransGen Turn l l') : l'.Accounted := by
  induction ht with
  | refl => exact h
  | tail before ht ih =>
    intro hb
    exact (ih (Nat.le_trans (begun_le_turn ht) hb)).turn (hs.turns before) ht hb

theorem Accounted.step (h : l.Accounted) (hs : l.Sound) (step : Step l l') : l'.Accounted := by
  cases step with
  | turns ht => exact h.turns hs ht
  | message m hr =>
    have taken : (l.receive m).Accounted := fun hb => (h (receive_begun m l ▸ hb)).receive hs m
    exact taken.turns (hs.receive m) (turns_of_moves hr.moves)

end Ledger
end Ovsdb
