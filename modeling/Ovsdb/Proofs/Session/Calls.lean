import Ovsdb.Proofs.Session.Client

/-! Calls and their replies, in every run: no two are crossed, none is lost, and none counts twice. -/

namespace Ovsdb

namespace Journal

variable {journal : List Event} {n : Nat} {m : Json} {p q : Response}

theorem FirstReply.unique (h : FirstReply journal n p) (h' : FirstReply journal n q)
    (once : (journal.filterMap Event.called?).Nodup) : p = q := by
  obtain ⟨before, between, m, after, split, silent, hm⟩ := h
  obtain ⟨before', between', m', after', split', silent', hm'⟩ := h'
  have tails := called_inj once split split'
  clear split split'
  -- Whichever of the two came in first would be a reply before the other.
  induction between generalizing between' with
  | nil =>
    cases between' with
    | nil =>
      cases tails
      exact hm.eq_response hm'.1
    | cons e between' =>
      cases tails
      exact absurd hm (silent' m p List.mem_cons_self)
  | cons e between ih =>
    cases between' with
    | nil =>
      cases tails
      exact absurd hm' (silent m' q List.mem_cons_self)
    | cons e' between' =>
      refine ih (fun k r hk => silent k r (List.mem_cons_of_mem e hk)) between'
        (fun k r hk => silent' k r (List.mem_cons_of_mem e' hk)) ?_
      exact (List.cons.inj tails).2

end Journal

namespace Ledger
open Journal

/-- Calls and replies in the books of a session are matched.

    All calls carry different ids. Pending are the ids of those calls that have begun and have not been answered, given
    up or failed by the closing. A call goes away once. What a call ends with, as a result or as an error of the
    server's, is what the first response with its id says that has come in since the call began; and a call whose first
    response has come in has got it, as long as the session is open. -/
structure Matched (l : Ledger) : Prop where
  ids : ((l.journal.filterMap Event.called?).map requestId).Nodup
  keys : (l.pending.map requestId).Nodup
  pending : ∀ id, id ∈ l.pending.map requestId ↔
    ∃ n, requestId n = id ∧ Unanswered l.journal n ∧ .abandoned n ∉ l.journal ∧ .closed ∉ l.journal
  once : (l.journal.filterMap Event.left?).Nodup
  results : ∀ before n r after, l.journal = before ++ .ended n (.ok r) :: after →
    ∃ p, FirstReply before n p ∧ p.error = .null ∧ p.result = r
  errors : ∀ before n e after, l.journal = before ++ .ended n (.error (.rpc e)) :: after →
    ∃ p, FirstReply before n p ∧ p.error = e ∧ e ≠ .null
  replies : ∀ call ∈ l.calls, ∀ p, FirstReply l.journal call.number p → .closed ∉ l.journal →
    call.reply = some p.outcome

variable {l l' : Ledger} {n : Nat} {m : Json} {p : Response} {x : Except Error Json} {call : Call}

theorem outcome_eq_ok {r : Json} (h : p.outcome = .ok r) : p.error = .null ∧ p.result = r := by
  rw [Response.outcome] at h
  split at h
  case isTrue none_ =>
    refine ⟨?_, Except.ok.inj h⟩
    cases he : p.error <;> rw [he] at none_ <;> first | rfl | cases none_
  case isFalse => cases h

theorem outcome_eq_rpc {e : Json} (h : p.outcome = .error (.rpc e)) : p.error = e ∧ e ≠ .null := by
  rw [Response.outcome] at h
  split at h
  case isTrue => cases h
  case isFalse some_ =>
    cases h
    refine ⟨rfl, fun none_ => some_ ?_⟩
    rw [none_]
    rfl

namespace Explained

/-- A call is pending until it is answered, given up or failed by the closing. -/
theorem mem_pending_iff (h : l.Explained) (hs : l.Sound) :
    n ∈ l.pending ↔ Unanswered l.journal n ∧ .abandoned n ∉ l.journal ∧ .closed ∉ l.journal := by
  have once : (l.journal.filterMap Event.called?).Nodup := hs.called ▸ List.nodup_range
  constructor
  · intro hn
    obtain ⟨call, hc, rfl, hr⟩ := (hs.tallied n).mp hn
    refine ⟨h.waits call hc hr, fun left => hs.not_left hc left rfl, fun closed => ?_⟩
    rw [hs.shut (hs.closed.mp closed)] at hn
    exact absurd hn List.not_mem_nil
  · rintro ⟨waits, kept, opened⟩
    have unexplained {before after : List Event} (x : Except Error Json) (split : l.journal = before ++ after) :
        ¬ Explains before n x := by
      rintro (⟨p, hp, -⟩ | ⟨-, closed⟩)
      · exact (split ▸ hp.append after).answered once waits
      · exact opened (split ▸ List.mem_append_left _ closed)
    have begun : n ∈ List.range l.begun := by
      obtain ⟨before, after, split, -⟩ := waits
      rw [← hs.called, split]
      exact List.mem_filterMap.mpr ⟨.called n, List.mem_append_right _ List.mem_cons_self, rfl⟩
    -- A call that has begun is there or has gone away; it cannot have gone away without a reason.
    rcases List.mem_append.mp (hs.left.mem_iff.mpr begun) with left | there
    · obtain ⟨e, he, hn⟩ := List.mem_filterMap.mp left
      cases e with
      | ended k x =>
        cases hn
        obtain ⟨before, after, split⟩ := List.append_of_mem he
        exact absurd (h.ends before n x after split) (unexplained x split)
      | abandoned k =>
        cases hn
        exact absurd he kept
      | _ => cases hn
    · obtain ⟨call, hc, rfl⟩ := List.mem_map.mp there
      cases hr : call.reply with
      | none => exact (hs.pending_iff hc).mpr hr
      | some x => exact absurd (h.slots call hc x hr) (unexplained x (List.append_nil _).symm)

theorem matched (h : l.Explained) (hs : l.Sound) (few : l.begun ≤ UInt64.size) : l.Matched where
  ids := by
    rw [hs.called]
    refine List.nodup_range.map_on fun n hn k hk same => ?_
    have hn' := Nat.lt_of_lt_of_le (List.mem_range.mp hn) few
    have hk' := Nat.lt_of_lt_of_le (List.mem_range.mp hk) few
    exact requestId_inj hn' hk' same
  keys := hs.keys
  pending := by
    intro id
    rw [List.mem_map]
    constructor
    · rintro ⟨n, hn, hid⟩
      exact ⟨n, hid, (h.mem_pending_iff hs).mp hn⟩
    · rintro ⟨n, hid, hn⟩
      exact ⟨n, (h.mem_pending_iff hs).mpr hn, hid⟩
  once := (List.nodup_append.mp (hs.left.nodup_iff.mpr List.nodup_range)).1
  results := by
    intro before n r after split
    rcases h.ends before n _ after split with ⟨p, hp, hx⟩ | ⟨hx, -⟩
    · exact ⟨p, hp, outcome_eq_ok hx⟩
    · cases hx
  errors := by
    intro before n e after split
    rcases h.ends before n _ after split with ⟨p, hp, hx⟩ | ⟨hx, -⟩
    · exact ⟨p, hp, outcome_eq_rpc hx⟩
    · cases hx
  replies := by
    intro call hc p hp opened
    -- A call begins once, so that there is one first response to it, and a filled slot holds that one.
    have once : (l.journal.filterMap Event.called?).Nodup := hs.called ▸ List.nodup_range
    cases hr : call.reply with
    | none => exact absurd (h.waits call hc hr) (hp.answered once)
    | some x =>
      rcases h.slots call hc x hr with ⟨q, hq, rfl⟩ | ⟨-, closed⟩
      · rw [hp.unique hq once]
      · exact absurd closed opened

end Explained

/-! ### Other calls -/

/-- Nothing has happened to a call: it is there as it was, and has not gone away. -/
def Untouched (n : Nat) (l l' : Ledger) : Prop :=
  (∀ call : Call, call.number = n → (call ∈ l'.calls ↔ call ∈ l.calls)) ∧
    ∀ e : Event, e.left? = some n → (e ∈ l'.journal ↔ e ∈ l.journal)

theorem Remarks.untouched (h : Remarks l l') (n : Nat) : Untouched n l l' := by
  obtain ⟨events, remarks, rfl⟩ := h
  refine ⟨fun _ _ => Iff.rfl, fun e he => ?_⟩
  rw [List.mem_append, or_iff_left]
  exact fun said => absurd ((remarks e said).left?.symm.trans he) (by simp)

theorem note_untouched {e : Event} (he : e.left? = none) (n : Nat) : Untouched n l (l.note e) := by
  refine ⟨fun _ _ => Iff.rfl, fun e' he' => ?_⟩
  rw [note, List.mem_append, or_iff_left]
  intro said
  rw [List.mem_singleton.mp said, he] at he'
  cases he'

theorem Untouched.trans {l'' : Ledger} (h₁ : Untouched n l l') (h₂ : Untouched n l' l'') : Untouched n l l'' :=
  ⟨fun call hc => (h₂.1 call hc).trans (h₁.1 call hc), fun e he => (h₂.2 e he).trans (h₁.2 e he)⟩

theorem answer_untouched {numbers : List Nat} (hn : n ∉ numbers) (reply : Except Error Json) :
    Untouched n l (l.answer numbers reply) := by
  refine ⟨fun call hc => ⟨fun there => ?_, fun there => mem_answer_of_notMem there (hc ▸ hn)⟩, fun _ _ => Iff.rfl⟩
  rcases mem_answer there with ⟨there, -⟩ | ⟨c, -, filled, rfl⟩
  · exact there
  · exact absurd (hc ▸ filled) hn

/-- A message touches no call but the one that it answers. -/
theorem receive_untouched (hn : ∀ p, ¬ Answers m n p) : Untouched n l (l.receive m) := by
  have noted : Untouched n l (l.note (.received m)) := note_untouched rfl n
  rw [receive]
  split
  case h_1 p hp =>
    rw [complete]
    split
    case h_1 => exact noted
    case h_2 id hid =>
      refine noted.trans (answer_untouched (fun filled => ?_) _)
      exact hn p ⟨hp, hid.trans (congrArg some (mem_pendingWith.mp filled).2.symm)⟩
  case h_2 => exact noted

theorem Step.untouched (h : Step l l') (hm : .received m ∈ l'.journal.drop l.journal.length)
    (hn : ∀ p, ¬ Answers m n p) : Untouched n l l' := by
  cases h with
  | turns ht =>
    obtain ⟨events, said, silent⟩ := journal_turns ht
    rw [said, List.drop_left] at hm
    exact absurd hm (silent m)
  | message k hr =>
    have same : m = k := by
      obtain ⟨numbers, reply, -, heq⟩ := receive_eq k l
      obtain ⟨events, remarks, rfl⟩ := hr
      rw [heq] at hm
      change Event.received m ∈ ((l.journal ++ [Event.received k]) ++ events).drop l.journal.length at hm
      rw [List.append_assoc, List.drop_left] at hm
      rcases List.mem_cons.mp hm with hm | hm
      · cases hm
        rfl
      · exact absurd rfl ((remarks _ hm).ne_received m)
    subst same
    exact (receive_untouched hn).trans (hr.untouched n)

end Ledger

namespace Client
open Ledger Journal

/-- In every run, and for every session that has not begun more calls than there are ids, calls and replies are
    matched; and when a message comes in, no call is touched but the one of that session whose id it carries. -/
theorem calls_matched (actions : List Action) (i : Nat) (s : Session)
    (hs : (Client.initial.run actions).sessions[i]? = some s) (few : s.begun ≤ UInt64.size) :
    s.toLedger.Matched ∧
      ∀ (a : Action) (t : Session), ((Client.initial.run actions).step a).sessions[i]? = some t →
        ∀ m, .received m ∈ t.journal.drop s.journal.length →
          (∀ n, (∀ p, ¬ Answers m n p) → Untouched n s.toLedger t.toLedger) ∧
            ∀ (j : Nat) (u v : Session), j ≠ i → (Client.initial.run actions).sessions[j]? = some u →
              ((Client.initial.run actions).step a).sessions[j]? = some v →
                ∀ n, Untouched n u.toLedger v.toLedger := by
  have reached := Invariant.initial.run actions
  refine ⟨(reached.accounted i s hs few).matched (reached.sound.orderly i s hs).books few, ?_⟩
  intro a t ht m hm
  obtain ⟨t', ht', stepped⟩ := (reached.steps a).2.sessions i s hs
  cases ht.symm.trans ht'
  refine ⟨fun n hn => stepped.books.untouched hm hn, ?_⟩
  intro j u v hj hu hv n
  obtain ⟨v', hv', other⟩ := (reached.steps a).2.sessions j u hu
  cases hv.symm.trans hv'
  -- A session into which a message comes is the one that the step is about.
  have about : Action.session? a = some i := by
    by_contra ha
    obtain ⟨events, remarks, heq⟩ := (stepped.quiet ha).books
    rw [heq] at hm
    change Event.received m ∈ (s.journal ++ events).drop s.journal.length at hm
    rw [List.drop_left] at hm
    exact (remarks _ hm).ne_received m rfl
  exact (other.quiet fun ha => hj (Option.some.inj (ha.symm.trans about))).books.untouched n

/-- Three calls, of which one is given up, and a reply to the second that comes in before the one to the first. -/
def exchange : List Action :=
  [.open false 65536, .invoke 0 7 .listDbs, .invoke 0 8 (.echo .null), .invoke 0 9 .listDbs, .abandon 0 9,
    .send 0 (Response.success (.ofUInt64 1) .null).toJson.bytes, .task 0 .dispatch]

/-- The reply to the second call is taken, and the first one is not touched by it. -/
theorem calls_matched_exchange : ∃ s t m, (Client.initial.run exchange).sessions[0]? = some s ∧
    s.begun = 3 ∧ s.pending = [0, 1] ∧ s.toLedger.Matched ∧
    ((Client.initial.run exchange).step (.task 0 .dispatch)).sessions[0]? = some t ∧ .received m ∈ t.journal ∧
    t.pending = [0] ∧ Untouched 0 s.toLedger t.toLedger := by
  have before : ((Client.initial.run exchange).sessions[0]?.map fun s => (s.begun, s.pending, s.journal.length)) =
      some (3, [0, 1], 7) := rfl
  have after : (((Client.initial.run exchange).step (.task 0 .dispatch)).sessions[0]?.map fun t =>
      (t.pending, t.journal.drop 7)) = some ([0], [.received (Response.success (.ofUInt64 1) .null).toJson]) := rfl
  obtain ⟨s, hs, hbefore⟩ := Option.map_eq_some_iff.mp before
  obtain ⟨t, ht, hafter⟩ := Option.map_eq_some_iff.mp after
  simp only [Prod.mk.injEq] at hbefore hafter
  obtain ⟨matched, others⟩ := calls_matched exchange 0 s hs (by rw [hbefore.1]; decide)
  have there : Event.received (Response.success (.ofUInt64 1) .null).toJson ∈ t.journal.drop s.journal.length := by
    rw [hbefore.2.2, hafter.2]
    exact List.mem_singleton.mpr rfl
  have other : ∀ p, ¬ Answers (Response.success (.ofUInt64 1) .null).toJson 0 p := by
    rintro p ⟨hp, hid⟩
    cases hp
    exact absurd (Option.some.inj hid) (by decide)
  exact ⟨s, t, _, hs, hbefore.1, hbefore.2.1, matched, ht, List.mem_of_mem_drop there, hafter.1,
    (others _ t ht _ there).1 0 other⟩

end Client
end Ovsdb
