import Mathlib.Data.List.Induction
import Ovsdb.Proofs.Framing.Written
import Ovsdb.Proofs.Session.Throughout

/-! What leaves a session in the course of a run: whole frames, in the order in which they have got into the queue,
    up to the first shutdown. The server reads back what has been written. -/

namespace Ovsdb
open Outlet (commissioned frameText)

/-- The frame of a call is legible if its parameters are. -/
theorem Request.legible_call {d : Nat} {params : Json} (h : Json.Legible d params) (method : String) (id : UInt64) :
    Json.Legible (d + 1) (call method params id).toJson := by
  refine .obj (show ["method", "params", "id"].Nodup by decide) ?_
  simp only [call, List.forall_mem_cons]
  exact ⟨.str method, h, .int _, fun _ mem => absurd mem List.not_mem_nil⟩

/-- Whether an action is neither a close, which begins to wait for the writer, nor the giving up of something. -/
def Action.IsPlain : Action → Prop
  | .close .. | .abandon .. => False
  | _ => True

namespace Client
variable {c d : Client} {i : Nat} {s t : Session} {a : Action}

/-! ### Ways out -/

/-- The ways out are fed at most. -/
abbrev Fed : Client → Client → Prop :=
  Keeps Session.Feeds

theorem resting : Session.Lasting fun s t => t.outlet = s.outlet where
  refl _ := rfl
  trans first rest := rest.trans first
  aside _ outlet _ _ := outlet
  received _ _ := Session.outlet_note rfl
  callback _ _ _ := Session.outlet_note rfl
  close s := s.outlet_close

theorem feeding : Session.Lasting.Conversing Session.Feeds where
  refl s := .refl s.outlet
  trans := .trans
  aside _ outlet _ _ := .of_eq outlet
  received s m := .of_eq (resting.received s m)
  callback s h n := .of_eq (resting.callback s h n)
  close s := .of_eq (resting.close s)
  complete s r := .of_eq (s.outlet_complete r)
  respond s r := s.feeds_respond r

/-! ### Tasks -/

theorem feeds_proceed (h : s.Orderly) (n now : Nat) : s.Feeds (proceed s n now) := by
  rw [proceed]
  split
  · exact h.feeds_enter _
  · exact s.feeds_conclude n now

/-- What one step makes of the ways out of sessions, if nobody begins to wait for the writer and nobody gives up. -/
abbrev Flows : Client → Client → Prop :=
  Throughout fun _ s t => Outlet.Step (s.isOrphan = true) s.outlet t.outlet

theorem Fed.flows (h : Fed c d) : Flows c d :=
  Throughout.mono h fun _ _ _ => .feed

/-- The writer does its next bit of work. -/
theorem flows_write (hs : c.sessions[i]? = some s) : Flows c (c.write i s) := by
  have here {f : Session → Session} (step : Outlet.Step (s.isOrphan = true) s.outlet (f s).outlet) :
      Flows c (c.modify i f) :=
    Throughout.modify (fun _ s _ => .feed (.refl s.outlet)) fun s' hs' => Option.some.inj (hs.symm.trans hs') ▸ step
  rw [Client.write.eq_def]
  split
  · exact Fed.flows (feeding.keeps_refl c)
  case h_2 idle nothing =>
    split
    case isTrue orphan =>
      obtain ⟨closers, ended⟩ := s.outlet_endWriter
      exact here (ended ▸ .expire orphan idle nothing)
    case isFalse => exact Fed.flows (feeding.keeps_refl c)
  case h_3 idle first =>
    refine here ?_
    rw [Session.outlet_invite]
    exact .take idle first
  case h_4 ticket rest idle first =>
    let shut : Session := { s with queue := rest, stream := { s.stream with shut := true } }
    obtain ⟨others, acknowledged⟩ := shut.outlet_rejected (.closer ticket)
    obtain ⟨closers, ended⟩ := (shut.rejected (.closer ticket)).outlet_endWriter
    rw [acknowledged] at ended
    exact here (ended ▸ .shut idle first)
  case h_5 bytes _ writing =>
    split
    case isTrue => exact here (.write s.stream.room writing)
    case isFalse absent =>
      have stopped := resting.keeps_stop c i
      refine stopped.then_modify (fun _ _ _ _ same => .feed (.of_eq same)) fun s' t hs' same => ?_
      cases hs.symm.trans hs'
      obtain ⟨closers, ended⟩ := t.outlet_endWriter
      rw [same] at ended
      exact ended ▸ .fail writing (Bool.eq_false_of_not_eq_true absent)

theorem Sound.flows_perform (h : c.Sound) (i : Nat) (task : Task) : Flows c (c.perform i task) := by
  rw [Client.perform]
  split
  · exact Fed.flows (feeding.keeps_refl c)
  case h_2 s hs =>
    split
    · cases task with
      | dispatch => exact Fed.flows (feeding.keeps_dispatch c i s fun s hs => (h.orderly i s hs).feeds_enter _)
      | call n => exact Fed.flows (feeding.keeps_modify fun s hs => feeds_proceed (h.orderly i s hs) n c.now)
      | closer ticket => exact Fed.flows (feeding.keeps_modify fun s hs => (h.orderly i s hs).feeds_enter _)
      | tick k => exact Fed.flows (feeding.keeps_modify fun s _ => s.feeds_tick k)
      | write => exact flows_write hs
      | serve | supply => exact Fed.flows (feeding.keeps_modify fun _ _ => feeding.woken _ rfl rfl rfl rfl)
    · exact Fed.flows (feeding.keeps_modify fun _ _ => feeding.aside rfl rfl rfl rfl)

/-! ### Steps -/

/-- What an action makes of the way out of session `i`. A close begins to wait for the writer, and whoever gives up
    takes back at most what has not got into the queue. -/
inductive Moves (a : Action) (i : Nat) (s t : Session) : Prop where
  | step (unasked : ∀ ticket, a ≠ .close i ticket) (kept : ∀ ticket, a ≠ .abandon i ticket)
    (step : Outlet.Step (s.isOrphan = true) s.outlet t.outlet)
  | close {ticket : Nat} (asked : a = .close i ticket)
    (feeds : Outlet.Feeds { s.outlet with closers := s.closers ++ [ticket] } t.outlet)
  | abandon {ticket : Nat} (given : a = .abandon i ticket) (resigns : Outlet.Resigns ticket s.outlet t.outlet)

theorem Flows.moves (h : Flows c d) (plain : a.IsPlain) : Throughout (Moves a) c d := by
  refine Throughout.mono h fun i s t => .step (fun ticket heq => ?_) (fun ticket heq => ?_) <;>
  · rw [heq] at plain
    exact plain

theorem Sound.moves_act (h : c.Sound) (a : Action) : Throughout (Moves a) c (c.act a) := by
  have fed (fed : Fed c (c.act a)) (plain : a.IsPlain) : Throughout (Moves a) c (c.act a) := fed.flows.moves plain
  cases a with
  | «open» inPrivate capacity => exact fed (feeding.keeps_openSession c inPrivate capacity) trivial
  | clone i | drop i | handler i h | serverReads i on =>
    exact fed (feeding.keeps_modify fun _ _ => feeding.aside rfl rfl rfl rfl) trivial
  | invoke i ticket invocation => exact fed (feeding.keeps_modify fun s _ => s.feeds_invoke ticket invocation) trivial
  | close i ticket =>
    refine Throughout.then_modify (resting.keeps_stop c i) (fun j s t hj same => ?_) fun s t _ same => ?_
    · exact .step (fun k heq => hj (Action.close.inj heq).1.symm) (fun k heq => by cases heq) (.feed (.of_eq same))
    · refine .close rfl ?_
      have asked : { t with closers := t.closers ++ [ticket] }.outlet =
          { s.outlet with closers := s.closers ++ [ticket] } := by
        rw [← same, ← show t.closers = s.closers from congrArg Outlet.closers same]
        rfl
      rw [← asked]
      exact Session.feeds_offer (show (Outbound.shutdown ticket).IsWhole from trivial) _
  | abandon i ticket =>
    refine Throughout.modify (fun j s hj => ?_) fun s _ => .abandon rfl (s.resigns_abandon ticket)
    exact .step (fun k heq => by cases heq) (fun k heq => hj (Action.abandon.inj heq).1.symm) (.feed (.refl _))
  | keepalive i period =>
    refine fed (feeding.keeps_modify fun s _ => ?_) trivial
    split
    · exact .refl _
    · exact s.feeds_keepAlive period c.now
  | advance time => exact fed (feeding.keeps_advance c time) trivial
  | notify connection n => exact fed (feeding.keeps_deliver c 0 connection n) trivial
  | send i bytes =>
    refine fed (feeding.keeps_modify fun s _ => ?_) trivial
    split
    · exact feeding.woken _ rfl rfl rfl rfl
    · exact .refl _
  | serverEnds i => exact fed (feeding.keeps_modify fun _ _ => feeding.woken _ rfl rfl rfl rfl) trivial
  | serverDrops i =>
    refine fed (feeding.keeps_modify fun s _ => ?_) trivial
    rw [Session.Feeds, Session.outlet_wake, Session.outlet_wake]
    exact { Outlet.Feeds.refl s.outlet with present := fun there => absurd there Bool.false_ne_true }
  | task i t => exact (h.flows_perform i t).moves trivial

theorem Sound.moves_step (h : c.Sound) (a : Action) : Throughout (Moves a) c (c.step a) := by
  have released {i : Nat} : Throughout (Moves a) c ((c.act a).release i) := by
    refine Throughout.trans (h.moves_act a) (resting.keeps_release _ i) fun j s t u moves same => ?_
    cases moves with
    | step unasked kept step => exact .step unasked kept (same ▸ step)
    | close asked feeds => exact .close asked (same ▸ feeds)
    | abandon given resigns => exact .abandon given (same ▸ resigns)
  rw [Client.step]
  split
  · exact released
  · exact h.moves_act a

namespace Moves
variable {ticket : Nat}

theorem grows (h : Moves a i s t) : s.outlet.Grows t.outlet := by
  cases h with
  | step _ _ step => exact step.grows
  | close _ feeds =>
    have grows := feeds.grows
    exact ⟨grows.items, grows.written, grows.present, grows.shut, grows.spent⟩
  | abandon _ resigns => exact resigns.grows

theorem sound (h : Moves a i s t) (sound : s.outlet.Sound) : t.outlet.Sound := by
  cases h with
  | step _ _ step => exact sound.step step
  | @close ticket _ feeds =>
    have asked : Outlet.Sound { s.outlet with closers := s.closers ++ [ticket] } :=
      ⟨sound.whole, sound.live, sound.spent⟩
    exact asked.feeds feeds
  | abandon _ resigns => exact sound.resigns resigns

/-- A writer that ends without a failure writes the end of the stream, unless nobody holds the session any more. -/
theorem ends (h : Moves a i s t) (live : s.writer ≠ .ended) (spent : t.writer = .ended)
    (present : t.stream.serverPresent = true) : t.stream.shut = true ∨ s.isOrphan = true := by
  cases h with
  | step _ _ step => exact step.ends live spent present
  | close _ feeds => exact absurd (feeds.writer.symm.trans spent) live
  | abandon _ resigns =>
    obtain ⟨offers, closers, same, -⟩ := resigns
    exact absurd ((congrArg Outlet.writer same).symm.trans spent) live

/-- A close returns when the writer has ended. -/
theorem returned (h : Moves a i s t) (awaited : ticket ∈ s.closers ∨ a = .close i ticket) (back : ticket ∉ t.closers)
    (kept : a ≠ .abandon i ticket) : t.writer = .ended := by
  cases h with
  | step unasked _ step => exact (step.closers (awaited.resolve_right (unasked ticket))).resolve_left back
  | @close k asked feeds =>
    have waits : ticket ∈ s.closers ++ [k] := by
      rcases awaited with mem | same
      · exact List.mem_append_left _ mem
      · cases asked.symm.trans same
        exact List.mem_append_right _ (List.mem_singleton_self ticket)
    exact feeds.writer.trans ((feeds.closers ticket waits).resolve_left back)
  | @abandon k given resigns =>
    obtain ⟨offers, closers, same, -, others⟩ := resigns
    have waits : ticket ∈ s.closers := awaited.resolve_right fun asked => nomatch given.symm.trans asked
    have stays := others ticket waits fun heq => kept (heq ▸ given)
    exact absurd (show ticket ∈ t.outlet.closers from same ▸ stays) back

/-- Who gives up leaves the queue alone, and the frame that is being written. -/
theorem abandoned (h : Moves (.abandon i ticket) i s t) :
    t.items = s.items ∧ t.queue = s.queue ∧ t.writer = s.writer ∧ t.stream.written = s.stream.written := by
  cases h with
  | step _ kept _ => exact absurd rfl (kept ticket)
  | close asked _ => cases asked
  | abandon _ resigns =>
    obtain ⟨offers, closers, same, -⟩ := resigns
    exact ⟨congrArg Outlet.items same, congrArg Outlet.queue same, congrArg Outlet.writer same,
      congrArg Outlet.written same⟩

end Moves

/-! ### Runs -/

theorem sound_initial (registry connection capacity : Nat) :
    (Session.initial registry connection capacity).outlet.Sound where
  whole := nofun
  live _ := ⟨[], rfl, rfl⟩
  spent := nofun

/-- A session has done nothing yet, or goes on as it was. -/
theorem Invariant.comes (h : c.Invariant) (ht : (c.step a).sessions[i]? = some t) :
    (∃ s, c.sessions[i]? = some s ∧ Moves a i s t) ∨ ∃ r k capacity, t = .initial r k capacity := by
  refine ((h.steps a).2.origin i t ht).imp (fun ⟨s, hs, _⟩ => ?_) id
  obtain ⟨t', ht', moves⟩ := h.sound.moves_step a i s hs
  cases ht.symm.trans ht'
  exact ⟨s, hs, moves⟩

theorem Invariant.sound_run (h : c.Invariant)
    (sound : ∀ (i : Nat) (s : Session), c.sessions[i]? = some s → s.outlet.Sound)
    (actions : List Action) (ht : (c.run actions).sessions[i]? = some t) : t.outlet.Sound := by
  induction actions generalizing c with
  | nil => exact sound i t ht
  | cons a actions ih =>
    refine ih (h.step a) (fun j u hu => ?_) ht
    rcases h.comes hu with ⟨s, hs, moves⟩ | ⟨r, k, capacity, rfl⟩
    · exact moves.sound (sound j s hs)
    · exact sound_initial r k capacity

theorem Invariant.grows_run (h : c.Invariant) (hs : c.sessions[i]? = some s) (more : List Action) :
    ∃ t, (c.run more).sessions[i]? = some t ∧ s.outlet.Grows t.outlet := by
  induction more generalizing c s with
  | nil => exact ⟨s, hs, .refl _⟩
  | cons a more ih =>
    obtain ⟨t, ht, moves⟩ := h.sound.moves_step a i s hs
    obtain ⟨u, hu, grows⟩ := ih (h.step a) ht
    exact ⟨u, hu, moves.grows.trans grows⟩

/-- At some time of a run nobody was left who could put anything into the queue of session `i`. -/
def Deserted (actions : List Action) (i : Nat) : Prop :=
  ∃ earlier s, earlier <+: actions ∧ (initial.run earlier).sessions[i]? = some s ∧ s.isOrphan = true

theorem run_append (c : Client) (actions more : List Action) : c.run (actions ++ more) = (c.run actions).run more :=
  List.foldl_append

theorem run_concat (c : Client) (actions : List Action) (a : Action) :
    c.run (actions ++ [a]) = (c.run actions).step a :=
  run_append c actions [a]

/-- When the writer has ended without a failure, the end of the stream is written, unless nobody held the session. -/
theorem shut_or_deserted (actions : List Action) (hs : (initial.run actions).sessions[i]? = some s)
    (spent : s.writer = .ended) (present : s.stream.serverPresent = true) :
    s.stream.shut = true ∨ Deserted actions i := by
  induction actions using List.reverseRecOn generalizing s with
  | nil => cases hs
  | append_singleton actions a ih =>
    rw [run_concat] at hs
    rcases (Invariant.initial.run actions).comes hs with ⟨r, hr, moves⟩ | ⟨_, _, _, rfl⟩
    · by_cases before : r.writer = .ended
      · rcases ih hr before (moves.grows.present present) with shut | ⟨earlier, u, early, hu, orphan⟩
        · exact .inl (moves.grows.shut shut)
        · exact .inr ⟨earlier, u, early.trans (List.prefix_append _ _), hu, orphan⟩
      · exact (moves.ends before spent present).imp id fun orphan => ⟨actions, r, List.prefix_append _ _, hr, orphan⟩
    · cases spent

/-- All that session `i` had to write is written, once and for all, and the server can read it back. -/
structure Delivered (actions : List Action) (i : Nat) (s : Session) : Prop where
  complete : s.stream.written = frameText (commissioned s.items)
  /-- The end of the stream follows, unless nobody was left at some time who held the session. -/
  ended : s.stream.shut = true ∨ Deserted actions i
  final : ∀ more, ∃ t, ((initial.run actions).run more).sessions[i]? = some t ∧ t.items = s.items ∧
    t.stream.written = s.stream.written
  readable : (∀ j ∈ commissioned s.items, Json.Legible Json.maxDepth j) →
    ∀ reads : List (List UInt8), (∀ read ∈ reads, read ≠ []) → reads.flatten = s.stream.written →
      Framing.Reader.outcomes ((commissioned s.items).length + 1) .empty reads =
        (commissioned s.items).map (.ok ∘ some) ++ [.ok none]

/-- How the frames of session `i` leave it, which has come to `s` after `actions`. -/
structure Outflow (actions : List Action) (i : Nat) (s : Session) : Prop where
  /-- Nothing is written but the frames that have got into the queue before the first shutdown, once each and in
      order. -/
  written : s.stream.written <+: frameText (commissioned s.items)
  /-- As long as writes do not fail, what is missing is the rest of the frame that is being written, and the frames
      that are in the queue. -/
  reached : s.stream.serverPresent = true →
    s.stream.written ++ s.writer.rest ++ frameText (commissioned s.queue) = frameText (commissioned s.items)
  /-- Nothing is taken back, and behind a shutdown nothing is added. -/
  later : ∀ more, ∃ t, ((initial.run actions).run more).sessions[i]? = some t ∧ s.items <+: t.items ∧
    s.stream.written <+: t.stream.written ∧
    ((∃ ticket, .shutdown ticket ∈ s.items) → commissioned t.items = commissioned s.items)
  /-- Who gives up leaves the queue alone, and the frame that is being written. -/
  abandoned : ∀ ticket, ∃ t, ((initial.run actions).step (.abandon i ticket)).sessions[i]? = some t ∧
    t.items = s.items ∧ t.queue = s.queue ∧ t.writer = s.writer ∧ t.stream.written = s.stream.written
  /-- A close returns when everything is written. -/
  closed : ∀ a ticket t, ((initial.run actions).step a).sessions[i]? = some t →
    ticket ∈ s.closers ∨ a = .close i ticket → ticket ∉ t.closers → a ≠ .abandon i ticket →
    t.stream.serverPresent = true → Delivered (actions ++ [a]) i t

theorem delivered (actions : List Action) (hs : (initial.run actions).sessions[i]? = some s) (sound : s.outlet.Sound)
    (spent : s.writer = .ended) (present : s.stream.serverPresent = true) : Delivered actions i s where
  complete := (sound.spent spent).2.2 present
  ended := shut_or_deserted actions hs spent present
  final := by
    intro more
    obtain ⟨t, ht, grows⟩ := (Invariant.initial.run actions).grows_run hs more
    exact ⟨t, ht, (grows.spent spent).2.2, (grows.spent spent).2.1⟩
  readable := by
    intro legible reads filled bytes
    have all := (sound.spent spent).2.2 present
    refine Framing.Reader.outcomes_frames (fun j mem => ?_) legible filled (bytes.trans all)
    exact sound.whole (.frame j) (List.mem_append_left _ (Outlet.mem_commissioned mem))

/-- In every run, every session writes whole frames, in the order in which they have got into its queue, and a close
    returns when all those before the first shutdown are written. -/
theorem frames_leave_whole (actions : List Action) (i : Nat) (s : Session)
    (hs : (initial.run actions).sessions[i]? = some s) : Outflow actions i s := by
  have reached := Invariant.initial.run actions
  have sounds {more : List Action} {j : Nat} {t : Session} (ht : (initial.run more).sessions[j]? = some t) :
      t.outlet.Sound := Invariant.initial.sound_run (fun _ _ there => nomatch there) more ht
  have sound := sounds hs
  refine ⟨sound.cut, fun present => sound.reached fun _ => present, fun more => ?_, fun ticket => ?_,
    fun a ticket t ht awaited back kept present => ?_⟩
  · obtain ⟨t, ht, grows⟩ := reached.grows_run hs more
    refine ⟨t, ht, grows.items, grows.written, fun marked => ?_⟩
    obtain ⟨added, items⟩ := grows.items
    exact (congrArg commissioned items.symm).trans (Outlet.commissioned_append marked added)
  · obtain ⟨t, ht, moves⟩ := reached.sound.moves_step (.abandon i ticket) i s hs
    exact ⟨t, ht, moves.abandoned⟩
  · obtain ⟨t', ht', moves⟩ := reached.sound.moves_step a i s hs
    cases ht.symm.trans ht'
    have there : (initial.run (actions ++ [a])).sessions[i]? = some t := run_concat initial actions a ▸ ht
    exact delivered _ there (sounds there) (moves.returned awaited back kept) present

/-- Two calls, of which the second is given up, and a close; the writer has written the frames of both. -/
def parting : List Action :=
  [.open false 65536, .invoke 0 7 .listDbs, .invoke 0 8 (.echo (.arr [.str "x"])), .abandon 0 8, .close 0 9] ++
    List.replicate 4 (.task 0 .write)

/-- When the close returns the server reads both frames, and then the end of the stream. -/
theorem frames_leave_whole_parting : ∃ s t, (initial.run parting).sessions[0]? = some s ∧ 9 ∈ s.closers ∧
    ((initial.run parting).step (.task 0 .write)).sessions[0]? = some t ∧ 9 ∉ t.closers ∧ t.stream.shut = true ∧
    Outflow parting 0 s ∧ Framing.Reader.outcomes 3 .empty [t.stream.written] =
      [.ok (some (Request.call "list_dbs" (.arr []) 0).toJson),
        .ok (some (Request.call "echo" (.arr [.str "x"]) 1).toJson), .ok none] := by
  have before : ((initial.run parting).sessions[0]?.map (·.closers)) = some [9] := rfl
  have after : (((initial.run parting).step (.task 0 .write)).sessions[0]?.map fun t =>
      (t.closers, t.stream.serverPresent, t.stream.shut, t.stream.written.isEmpty, commissioned t.items)) =
        some ([], true, true, false, [(Request.call "list_dbs" (.arr []) 0).toJson,
          (Request.call "echo" (.arr [.str "x"]) 1).toJson]) := rfl
  obtain ⟨s, hs, closers⟩ := Option.map_eq_some_iff.mp before
  obtain ⟨t, ht, seen⟩ := Option.map_eq_some_iff.mp after
  simp only [Prod.mk.injEq] at seen
  obtain ⟨back, present, shut, filled, frames⟩ := seen
  have waits : 9 ∈ s.closers := closers ▸ List.mem_singleton_self 9
  have gone : 9 ∉ t.closers := back ▸ List.not_mem_nil
  have outflow := frames_leave_whole parting 0 s hs
  have delivered := outflow.closed _ 9 t ht (.inl waits) gone nofun present
  have legible : ∀ j ∈ commissioned t.items, Json.Legible Json.maxDepth j := by
    have none : ∀ j ∈ ([] : List Json), Json.Legible 125 j := fun _ mem => absurd mem List.not_mem_nil
    rw [frames]
    refine List.forall_mem_cons.mpr ⟨Request.legible_call (.arr none) "list_dbs" 0, List.forall_mem_singleton.mpr ?_⟩
    exact Request.legible_call (.arr (List.forall_mem_singleton.mpr (.str "x"))) "echo" 1
  have read := delivered.readable legible [t.stream.written] (by simpa using filled) (by simp)
  rw [frames] at read
  exact ⟨s, t, hs, waits, ht, gone, shut, outflow, read⟩

end Client
end Ovsdb
