import Ovsdb.Session.State
import Ovsdb.Proofs.Session.Ledger

/-! No wakening is lost: whatever lets a call go on wakes its task, which is not put to rest before it has gone on. -/

namespace Ovsdb

/-! ### Calls that have their reply -/

namespace Ledger

variable {l : Ledger} {n k : Nat} {numbers : List Nat} {reply : Except Error Json}

/-- The frame of the call is in the queue, and its slot is filled. -/
def Replied (l : Ledger) (n : Nat) : Prop :=
  ∃ call ∈ l.calls, call.number = n ∧ call.queued = true ∧ call.reply.isSome = true

/-- Only calls that wait for a reply get one. -/
theorem replied_answer (hp : ∀ k ∈ numbers, k ∈ l.pending) (h : (l.answer numbers reply).Replied n) :
    n ∈ l.pending ∨ l.Replied n := by
  obtain ⟨call, hc, rfl, hq, hr⟩ := h
  rcases mem_answer hc with ⟨hc, -⟩ | ⟨c, -, hn, rfl⟩
  · exact Or.inr ⟨call, hc, rfl, hq, hr⟩
  · exact Or.inl (hp _ hn)

theorem replied_begin (caller : Caller) (goal : Goal) (h : (l.begin caller goal).Replied n) :
    n ∈ l.pending ∨ l.Replied n := by
  obtain ⟨call, hc, hn, hq, hr⟩ := h
  rcases List.mem_append.mp hc with hc | hc
  · exact replied_answer (l := l.count) (fun k hk => (mem_pendingWith.mp hk).1) ⟨call, hc, hn, hq, hr⟩
  · rw [List.mem_singleton.mp hc] at hr
    cases hr

theorem replied_forget (h : (l.forget k).Replied n) : n ∈ l.pending ∨ l.Replied n := by
  rcases replied_answer (fun k hk => (mem_pendingWith.mp hk).1) h with waits | ⟨call, hc, rest⟩
  · exact Or.inl waits
  · exact Or.inr ⟨call, (List.mem_filter.mp hc).1, rest⟩

theorem replied_complete (r : Response) (h : (l.complete r).Replied n) : n ∈ l.pending ∨ l.Replied n := by
  rw [complete] at h
  split at h
  · exact Or.inr h
  · exact replied_answer (fun k hk => (mem_pendingWith.mp hk).1) h

/-- Where one frame gets into the queue, the others stay where they are. -/
theorem replied_place (h : (l.place k).Replied n) : n = k ∨ l.Replied n := by
  obtain ⟨call, hc, rfl, hq, hr⟩ := h
  obtain ⟨c, there, rfl⟩ := List.mem_map.mp hc
  by_cases hk : c.number = k
  · exact Or.inl (by rw [if_pos hk]; exact hk)
  · rw [if_neg hk] at hq hr ⊢
    exact Or.inr ⟨c, there, rfl, hq, hr⟩

/-- A call that has only just begun has no reply. -/
theorem not_replied_begun (h : l.Sound) (opened : l.state = .opened) (caller : Caller) (goal : Goal) :
    ¬ ((l.begin caller goal).place l.begun).Replied l.begun := by
  rintro ⟨call, hc, hn, -, hr⟩
  obtain ⟨c, hc, number, same, -⟩ := mem_place hc
  have waits : c.number ∈ (l.begin caller goal).pending := by
    rw [← number, hn]
    exact List.mem_append_right _ List.mem_cons_self
  rw [same, ((h.begin opened caller goal).pending_iff hc).mp waits] at hr
  cases hr

end Ledger

/-! ### Tasks that are awake -/

namespace Session

/-- The call can go on: it has been invited to put its frame into the queue, or its frame is there and its slot is
    filled. -/
def Goes (s : Session) (n : Nat) : Prop :=
  (∃ w ∈ s.invited, w.sender = .call n) ∨ s.toLedger.Replied n

/-- Every call that can go on has been woken. -/
def Awake (s : Session) : Prop :=
  ∀ n, s.Goes n → .call n ∈ s.ready

/-- Tasks that are awake stay so, and whoever lets a call go on wakes it. -/
structure Wakes (s t : Session) : Prop where
  ready : ∀ task ∈ s.ready, task ∈ t.ready
  goes : ∀ n, t.Goes n → s.Goes n ∨ .call n ∈ t.ready

variable {s t u : Session} {n : Nat} {task : Task} {w : Waiting} {l : Ledger}

theorem canGoOn_call (s : Session) (now n : Nat) : s.canGoOn now (.call n) = true ↔ s.Goes n := by
  simp only [canGoOn, isInvited, Bool.or_eq_true, List.any_eq_true, Bool.and_eq_true, decide_eq_true_iff, Goes,
    Ledger.Replied, and_assoc]

theorem wake_eq (s : Session) (t : Task) : ∃ ready, s.wake t = { s with ready := ready } := by
  rw [wake]
  split
  · exact ⟨s.ready, rfl⟩
  · exact ⟨_, rfl⟩

theorem foldl_wake_eq {α : Type} (f : α → Task) (tasks : List α) (s : Session) :
    ∃ ready, tasks.foldl (fun s a => s.wake (f a)) s = { s with ready := ready } := by
  induction tasks generalizing s with
  | nil => exact ⟨s.ready, rfl⟩
  | cons a tasks ih =>
    obtain ⟨ready, first⟩ := s.wake_eq (f a)
    obtain ⟨ready', rest⟩ := ih (s.wake (f a))
    exact ⟨ready', by rw [List.foldl_cons, rest, first]⟩

theorem update_eq (s : Session) (l : Ledger) : ∃ ready, s.update l = { s with toLedger := l, ready := ready } :=
  foldl_wake_eq _ _ _

theorem wakeDue_eq (s : Session) (now : Nat) : ∃ ready, s.wakeDue now = { s with ready := ready } :=
  foldl_wake_eq _ _ _

theorem mem_wake (s : Session) (t task : Task) : task ∈ (s.wake t).ready ↔ task ∈ s.ready ∨ task = t := by
  rw [wake]
  split
  case isTrue there =>
    refine ⟨Or.inl, ?_⟩
    rintro (h | rfl)
    · exact h
    · exact there
  case isFalse => exact List.mem_append.trans (or_congr_right List.mem_singleton)

theorem mem_foldl_wake {α : Type} (f : α → Task) (tasks : List α) (s : Session) (task : Task) :
    task ∈ (tasks.foldl (fun s a => s.wake (f a)) s).ready ↔ task ∈ s.ready ∨ ∃ a ∈ tasks, task = f a := by
  induction tasks generalizing s with
  | nil => simp
  | cons a tasks ih => rw [List.foldl_cons, ih, mem_wake, List.exists_mem_cons_iff, or_assoc]

theorem ready_update (s : Session) (l : Ledger) : ∀ task ∈ s.ready, task ∈ (s.update l).ready :=
  fun task h => (mem_foldl_wake _ _ _ task).mpr (Or.inl h)

theorem ready_wakeDue (s : Session) (now : Nat) : ∀ task ∈ s.ready, task ∈ (s.wakeDue now).ready :=
  fun task h => (mem_foldl_wake _ _ _ task).mpr (Or.inl h)

namespace Wakes

theorem trans (h₁ : s.Wakes t) (h₂ : t.Wakes u) : s.Wakes u where
  ready task h := h₂.ready task (h₁.ready task h)
  goes := by
    intro n goes
    rcases h₂.goes n goes with goes | woken
    · exact (h₁.goes n goes).imp_right (h₂.ready _)
    · exact Or.inr woken

theorem awake (h : s.Wakes t) (hs : s.Awake) : t.Awake := by
  intro n goes
  rcases h.goes n goes with goes | woken
  · exact h.ready _ (hs n goes)
  · exact woken

/-- Nobody is invited and nothing happens to a call. -/
theorem same (ready : t.ready = s.ready) (invited : ∀ w ∈ t.invited, w ∈ s.invited) (calls : t.calls = s.calls) :
    s.Wakes t where
  ready task h := ready ▸ h
  goes := by
    intro n goes
    rw [Goes, Ledger.Replied, calls] at goes
    exact Or.inl (goes.imp_left fun ⟨w, hw, hn⟩ => ⟨w, invited w hw, hn⟩)

theorem wake (s : Session) (t : Task) : s.Wakes (s.wake t) := by
  refine ⟨fun task h => (s.mem_wake t task).mpr (Or.inl h), ?_⟩
  intro n goes
  obtain ⟨ready, heq⟩ := s.wake_eq t
  rw [heq] at goes
  exact Or.inl goes

/-- New books wake the calls that have got their reply with them. -/
theorem update (replied : ∀ n, l.Replied n → n ∈ s.pending ∨ s.toLedger.Replied n) : s.Wakes (s.update l) := by
  have woken := mem_foldl_wake (fun c : Call => Task.call c.number)
    (l.calls.filter fun c => c.queued && c.reply.isSome && s.pending.contains c.number) { s with toLedger := l }
  refine ⟨s.ready_update l, ?_⟩
  intro n goes
  obtain ⟨ready, heq⟩ := s.update_eq l
  have goes' : (∃ w ∈ s.invited, w.sender = .call n) ∨ l.Replied n := by
    rw [heq] at goes
    exact goes
  rcases goes' with invited | there
  · exact Or.inl (Or.inl invited)
  · rcases replied n there with waits | before
    · obtain ⟨call, hc, rfl, hq, hr⟩ := there
      refine Or.inr ((woken _).mpr (Or.inr ⟨call, List.mem_filter.mpr ⟨hc, ?_⟩, rfl⟩))
      simp [hq, hr, waits]
    · exact Or.inl (Or.inr before)

theorem uninvite (s : Session) (sender : Sender) :
    s.Wakes { s with invited := s.invited.filter (·.sender ≠ sender) } :=
  same rfl (fun _ hw => (List.mem_filter.mp hw).1) rfl

theorem enqueue (s : Session) (item : Outbound) : s.Wakes (s.enqueue item) := by
  have said : s.Wakes ({ s with queue := s.queue ++ [item] }.note (.queued item)) := same rfl (fun _ => id) rfl
  exact said.trans (wake _ .write)

/-- Whoever is invited is woken. -/
theorem invite (s : Session) (w : Waiting) (rest : List Waiting) :
    s.Wakes ({ s with waiting := rest, invited := s.invited ++ [w] }.wake w.sender.task) := by
  have woken := mem_wake { s with waiting := rest, invited := s.invited ++ [w] } w.sender.task
  refine ⟨fun task h => (woken task).mpr (Or.inl h), ?_⟩
  obtain ⟨ready, heq⟩ := wake_eq { s with waiting := rest, invited := s.invited ++ [w] } w.sender.task
  rintro n (⟨v, hv, hn⟩ | replied)
  · rw [heq] at hv
    rcases List.mem_append.mp hv with hv | hv
    · exact Or.inl (Or.inl ⟨v, hv, hn⟩)
    · have itself : Task.call n = w.sender.task := by rw [← List.mem_singleton.mp hv, hn]; rfl
      exact Or.inr ((woken _).mpr (Or.inr itself))
  · rw [heq] at replied
    exact Or.inl (Or.inr replied)

end Wakes

/-- A task is not put to rest while it can go on. -/
theorem Awake.rest (h : s.Awake) {now : Nat} (idle : s.canGoOn now task = false) : (s.rest task).Awake := by
  intro n goes
  refine List.mem_filter.mpr ⟨h n goes, ?_⟩
  have other : Task.call n ≠ task := by
    rintro rfl
    rw [(s.canGoOn_call now n).mpr goes] at idle
    cases idle
  simpa using other

/-- When its frame gets into the queue a call may go on at once. It is awake then, or has no reply yet. -/
theorem Awake.place (h : s.Awake) (hn : .call n ∈ s.ready ∨ ¬ (s.place n).Replied n) :
    (s.accepted (.call n)).Awake := by
  rintro k (invited | replied)
  · exact h k (Or.inl invited)
  · rcases Ledger.replied_place replied with rfl | before
    · exact hn.resolve_right fun waits => waits replied
    · exact h k (Or.inr before)

theorem Awake.enter_call (h : s.Awake) (hw : w ∈ s.invited) (hs : w.sender = .call n) :
    (({ s with invited := s.invited.filter (·.sender ≠ Sender.call n) }.enqueue w.item).accepted (.call n)).Awake := by
  have entered := (Wakes.uninvite s (.call n)).trans (.enqueue _ w.item)
  exact (entered.awake h).place (Or.inl (entered.ready _ (h n (Or.inl ⟨w, hw, hs⟩))))

theorem enqueue_toLedger (s : Session) (item : Outbound) :
    (s.enqueue item).toLedger = s.toLedger.note (.queued item) := by
  obtain ⟨ready, heq⟩ := wake_eq ({ s with queue := s.queue ++ [item] }.note (.queued item)) .write
  rw [enqueue, heq]
  rfl

theorem Awake.begin_enqueue (h : s.Awake) (hs : s.toLedger.Sound) (opened : s.state = .opened) {caller : Caller}
    {goal : Goal} {ready : List Task} (woken : s.Wakes { s with toLedger := s.begin caller goal, ready := ready })
    (item : Outbound) :
    (({ s with toLedger := s.begin caller goal, ready := ready }.enqueue item).accepted (.call s.begun)).Awake := by
  have entered := woken.trans (.enqueue _ item)
  refine (entered.awake h).place (Or.inr ?_)
  rw [enqueue_toLedger]
  exact Ledger.not_replied_begun hs opened caller goal

end Session
end Ovsdb
