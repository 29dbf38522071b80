import Walkthrough.Proofs.Playback.Timing

/-!
# Timers are punctual

A timer is due its delay after it was scheduled. Timers come out in order, so the clock, which a
timer takes to where it is due, never passes one that is still in the queue; and where the clock is
set, also back by an outer operation, nothing is due any more.

* `Clock.Punctual` — no timer is overdue; `Run.punctual`: none is in a run.
* `Machine.Schedules` — a machine schedules a timer at the present time; `Run.scheduling`: every
  timer in the queue has been scheduled.
* `Run.launching` — every call in flight has been launched under its timer.
* `fires_on_time` — timers fire when they are due, their delay after they were scheduled; calls that
  had to wait are scheduled where they are replayed.
-/

set_option autoImplicit false

namespace Walkthrough

namespace Clock

variable {c c' : Clock} {t : Timer} {target : Duration}

/-- No timer in the queue is overdue. -/
def Punctual (c : Clock) : Prop := ∀ t ∈ c.queue, c.now ≤ t.due

theorem Punctual.schedule (h : c.Punctual) (id : Nat) (delay : Duration) :
    (c.schedule id delay).Punctual := by
  intro t ht
  show c.now ≤ t.due
  rcases List.mem_cons.1 ((schedule_perm id delay c).mem_iff.1 ht) with rfl | ht
  · exact Nat.le_add_right _ _
  · exact h t ht

theorem Ordered.punctual_popDue? (h : c.Ordered) (hpop : c.popDue? target = some (t, c')) :
    c'.Punctual := by
  obtain ⟨q, hq, _, rfl⟩ := popDue?_eq_some_iff.1 hpop
  have hsorted := h.sorted
  rw [hq] at hsorted
  intro u hu
  exact Timer.due_le_of_before ((List.pairwise_cons.1 hsorted).1 u hu)

theorem Ordered.punctual_reach (h : c.Ordered) (hpop : c.popDue? target = none) :
    ({ c with now := target } : Clock).Punctual := by
  intro t ht
  exact Nat.le_of_lt ((popDue?_eq_none_iff h).1 hpop t ht)

end Clock

/-! ## Turns of the timers -/

section

variable {f : Frame} {s s' : Stage} {es : List Event}

theorem TimerTurn.punctual (h : TimerTurn f s s' es) (hordered : s.clock.Ordered)
    (hs : s.clock.Punctual) : s'.clock.Punctual := by
  cases h with
  | kept h =>
      rw [h.clock]
      exact hs
  | launched _ _ hclock _ _ =>
      rw [hclock]
      exact hs.schedule _ _
  | scheduled _ hclock _ _ =>
      rw [hclock]
      exact hs.schedule _ _
  | fired _ hclock _ _ =>
      rw [hclock]
      exact hs
  | elapsed _ hpop _ _ => exact hordered.punctual_popDue? hpop
  | reached _ hpop hstage =>
      rw [hstage]
      exact hordered.punctual_reach hpop

/-- A timer in the queue was there before, or is scheduled at the present time. -/
theorem TimerTurn.mem_queue (h : TimerTurn f s s' es) {t : Timer} (ht : t ∈ s'.clock.queue) :
    t ∈ s.clock.queue ∨ ∃ delay, .scheduled t.seq t.id s.clock.now delay ∈ es ∧
      t.due = s.clock.now + delay := by
  have hschedule {id : Nat} {delay : Duration} (ht : t ∈ (s.clock.schedule id delay).queue) :
      t = s.clock.timer id delay ∨ t ∈ s.clock.queue :=
    List.mem_cons.1 ((Clock.schedule_perm id delay s.clock).mem_iff.1 ht)
  cases h with
  | kept h =>
      rw [h.clock] at ht
      exact .inl ht
  | @launched d _ _ hclock _ _ =>
      rw [hclock] at ht
      rcases hschedule ht with rfl | ht
      · exact .inr ⟨d.delay, .tail _ (.head _), rfl⟩
      · exact .inl ht
  | @scheduled timer delay _ _ hclock _ _ =>
      rw [hclock] at ht
      rcases hschedule ht with rfl | ht
      · exact .inr ⟨delay, .head _, rfl⟩
      · exact .inl ht
  | fired _ hclock _ _ =>
      rw [hclock] at ht
      exact .inl ht
  | elapsed _ hpop _ _ =>
      obtain ⟨q, hq, _, hclock⟩ := Clock.popDue?_eq_some_iff.1 hpop
      rw [hclock] at ht
      rw [hq]
      exact .inl (List.mem_cons_of_mem _ ht)
  | reached _ _ hstage =>
      rw [hstage] at ht
      exact .inl ht

/-- In a turn at most one timer is scheduled, at the present time. -/
theorem TimerTurn.of_scheduled (h : TimerTurn f s s' es) {seq id : Nat} {now delay : Duration}
    (he : .scheduled seq id now delay ∈ es) :
    now = s.clock.now ∧ ∀ seq' id' now' delay', .scheduled seq' id' now' delay' ∈ es →
      id' = id ∧ now' = now ∧ delay' = delay := by
  cases h with
  | kept _ => cases he
  | launched _ _ _ _ _ =>
      simp only [List.mem_cons, reduceCtorEq, Event.scheduled.injEq, List.not_mem_nil, or_false,
        false_or] at he ⊢
      obtain ⟨rfl, rfl, rfl, rfl⟩ := he
      refine ⟨rfl, ?_⟩
      rintro seq' id' now' delay' ⟨rfl, rfl, rfl, rfl⟩
      exact ⟨rfl, rfl, rfl⟩
  | scheduled _ _ _ _ =>
      simp only [List.mem_cons, Event.scheduled.injEq, List.not_mem_nil, or_false] at he ⊢
      obtain ⟨rfl, rfl, rfl, rfl⟩ := he
      refine ⟨rfl, ?_⟩
      rintro seq' id' now' delay' ⟨rfl, rfl, rfl, rfl⟩
      exact ⟨rfl, rfl, rfl⟩
  | fired _ _ _ _ => cases he
  | elapsed _ _ _ _ => cases he with | tail _ he => cases he
  | reached _ _ _ => cases he

/-- A call that is put in flight is scheduled with its delay, while the session plays. -/
theorem TimerTurn.of_launched (h : TimerTurn f s s' es) {ticket timer : Nat}
    (he : .launched ticket timer ∈ es) :
    (∃ d, s.status = .playing ∧ s.Source s' d ∧ d.call.ticket = ticket ∧
      .scheduled s.clock.seq timer s.clock.now d.delay ∈ es) ∧
      ∀ ticket' timer', .launched ticket' timer' ∈ es → ticket' = ticket := by
  cases h with
  | kept _ => cases he
  | @launched d hplay hsource _ _ _ =>
      simp only [List.mem_cons, reduceCtorEq, Event.launched.injEq, List.not_mem_nil,
        or_false] at he
      obtain ⟨rfl, rfl⟩ := he
      refine ⟨⟨d, hplay, hsource, rfl, .tail _ (.head _)⟩, ?_⟩
      intro ticket' timer' he'
      simp only [List.mem_cons, reduceCtorEq, Event.launched.injEq, List.not_mem_nil,
        or_false] at he'
      exact he'.1
  | scheduled _ _ _ _ => cases he with | tail _ he => cases he
  | fired _ _ _ _ => cases he
  | elapsed _ _ _ _ => cases he with | tail _ he => cases he
  | reached _ _ _ => cases he

/-- A timer that elapses comes out of the queue, which takes the clock to where it is due. -/
theorem TimerTurn.of_elapsed (h : TimerTurn f s s' es) {seq id : Nat} {now : Duration}
    (he : .elapsed seq id now ∈ es) :
    ∃ target fired next t, f = .clock target fired next ∧
      s.clock.popDue? target = some (t, s'.clock) ∧ t.seq = seq ∧ t.id = id ∧ t.due = now := by
  cases h with
  | kept _ => cases he
  | launched _ _ _ _ _ => simp at he
  | scheduled _ _ _ _ => simp at he
  | fired _ _ _ _ => cases he
  | @elapsed target fired next t hf hpop _ _ =>
      simp only [List.mem_cons, Event.elapsed.injEq, List.not_mem_nil, or_false] at he
      obtain ⟨rfl, rfl, rfl⟩ := he
      exact ⟨target, fired, next, t, hf, hpop, rfl, rfl, rfl⟩
  | reached _ _ _ => cases he

/-- A call in flight was so before, or is put in flight. -/
theorem TimerTurn.mem_inFlight (h : TimerTurn f s s' es) {p : Nat × Call}
    (hp : p ∈ s'.player.inFlight) :
    p ∈ s.player.inFlight ∨ .launched p.2.ticket p.1 ∈ es := by
  cases h with
  | kept h =>
      rw [h.inFlight] at hp
      exact .inl hp
  | launched _ _ _ hflight _ =>
      rw [hflight] at hp
      rcases List.mem_append.1 hp with hp | hp
      · exact .inl hp
      · rw [List.mem_singleton.1 hp]
        exact .inr (.head _)
  | scheduled _ _ hflight _ =>
      rw [hflight] at hp
      exact .inl hp
  | fired _ _ hflight _ =>
      rw [hflight] at hp
      exact .inl (List.mem_of_mem_filter hp)
  | elapsed _ _ hflight _ =>
      rw [hflight] at hp
      exact .inl (List.mem_of_mem_filter hp)
  | reached _ _ hstage =>
      rw [hstage] at hp
      exact .inl hp

end

namespace Machine

variable {past : List Machine} {m m' x y : Machine} {t : Timer}

theorem Run.punctual (h : Run past m) : m.stage.clock.Punctual := by
  induction h with
  | new h =>
      cases Stage.eq_of_new h
      exact nofun
  | host r _ ih => exact ih
  | user text _ ih => exact ih
  | step hrun hm ih =>
      obtain ⟨_, _, _, _, _, hturn⟩ := step_timers hm
      exact hturn.punctual hrun.ordered ih

/-! ## Where timers were scheduled -/

/-- In its next step a machine schedules a timer, which is due after a delay. -/
def Schedules (x : Machine) (seq id : Nat) (delay : Duration) : Prop :=
  .scheduled seq id x.stage.clock.now delay ∈ x.events

/-- Every timer in the queue was scheduled, and is due its delay after that. -/
theorem Run.scheduling (h : Run past m) (ht : t ∈ m.stage.clock.queue) :
    ∃ x ∈ past, ∃ delay, x.Schedules t.seq t.id delay ∧ t.due = x.stage.clock.now + delay := by
  induction h with
  | new h =>
      cases Stage.eq_of_new h
      cases ht
  | host r _ ih => exact ih ht
  | user text _ ih => exact ih ht
  | @step past m m' hrun hm ih =>
      obtain ⟨_, _, _, _, rfl, hturn⟩ := step_timers hm
      rcases hturn.mem_queue ht with ht | ⟨delay, hevent, hdue⟩
      · obtain ⟨x, hx, hscheduled⟩ := ih ht
        exact ⟨x, List.mem_append_left _ hx, hscheduled⟩
      · exact ⟨m, by simp, delay, (Event.mem_timing rfl).1 hevent, hdue⟩

/-- A place in the queue is given to one timer only. -/
theorem Run.schedules_unique (h : Run past m) (hx : x ∈ past) (hy : y ∈ past) {seq id id' : Nat}
    {delay delay' now' : Duration} (hs : x.Schedules seq id delay)
    (hs' : .scheduled seq id' now' delay' ∈ y.events) : y = x ∧ id' = id ∧ delay' = delay := by
  obtain rfl : y = x := once h.places hy hx (List.mem_filterMap.2 ⟨_, hs', rfl⟩)
    (List.mem_filterMap.2 ⟨_, hs, rfl⟩)
  obtain ⟨_, x', _, _, hstep⟩ := h.steps hx
  obtain ⟨_, _, _, _, rfl, hturn⟩ := step_timers hstep
  obtain ⟨hid, _, hdelay⟩ := (hturn.of_scheduled ((Event.mem_timing rfl).2 hs)).2 _ _ _ _
    ((Event.mem_timing rfl).2 hs')
  exact ⟨rfl, hid, hdelay⟩

/-! ## Where calls were launched -/

/-- Every call in flight was launched under its timer. -/
theorem Run.launching (h : Run past m) {p : Nat × Call} (hp : p ∈ m.stage.player.inFlight) :
    .launched p.2.ticket p.1 ∈ happened past := by
  induction h with
  | new h =>
      cases Stage.eq_of_new h
      cases hp
  | host r _ ih => exact ih hp
  | user text _ ih => exact ih hp
  | step _ hm ih =>
      obtain ⟨_, _, _, _, rfl, hturn⟩ := step_timers hm
      rw [happened, List.flatMap_append, List.mem_append]
      rcases hturn.mem_inFlight hp with hp | hevent
      · exact .inl (ih hp)
      · refine .inr ?_
        rw [List.flatMap_singleton]
        exact (Event.mem_timing rfl).1 hevent

/-- A timer is allotted to one call only. -/
theorem Run.launched_unique (h : Run past m) {ticket ticket' timer : Nat}
    (he : .launched ticket timer ∈ happened past) (he' : .launched ticket' timer ∈ happened past) :
    ticket' = ticket := by
  obtain ⟨x, hx, hlaunched⟩ := mem_happened.1 he
  obtain ⟨y, hy, hlaunched'⟩ := mem_happened.1 he'
  obtain rfl : y = x := once h.allotted hy hx (List.mem_filterMap.2 ⟨_, hlaunched', rfl⟩)
    (List.mem_filterMap.2 ⟨_, hlaunched, rfl⟩)
  obtain ⟨_, x', _, _, hstep⟩ := h.steps hx
  obtain ⟨_, _, _, _, rfl, hturn⟩ := step_timers hstep
  exact (hturn.of_launched ((Event.mem_timing rfl).2 hlaunched)).2 _ _
    ((Event.mem_timing rfl).2 hlaunched')

/-- A call is requested with one delay. -/
theorem Run.requested_unique (h : Run past m) {ticket : Nat} {delay delay' : Duration}
    (he : .requested ticket delay ∈ happened past)
    (he' : .requested ticket delay' ∈ happened past) : delay' = delay := by
  have hnodup : (((happened past).filterMap Event.requested?).map Prod.fst).Nodup := by
    rw [h.requests]
    exact List.nodup_range
  exact congrArg Prod.snd (List.inj_on_of_nodup_map hnodup (Event.mem_requested.2 he')
    (Event.mem_requested.2 he) rfl)

/-- A call is deferred in the step in which it is requested, and only there is it requested. -/
theorem Run.eq_of_deferred (h : Run past m) (hx : x ∈ past) (hy : y ∈ past) {ticket : Nat}
    {delay : Duration} (he : .requested ticket delay ∈ x.events)
    (hd : .deferred ticket ∈ y.events) : x = y ∧ y.stage.status ≠ .playing := by
  obtain ⟨_, y', _, _, hstep⟩ := h.steps hy
  -- the ticket is the next one, and this step gives it out
  obtain ⟨rfl, htickets, hplay⟩ := tickets_of_deferred hstep hd
  have hcounts := step_requests hstep
  rw [htickets, List.map_filterMap] at hcounts
  have hlist := hcounts.range
  rw [List.range_succ, List.append_right_inj] at hlist
  have hrequests := h.requests
  rw [List.map_filterMap] at hrequests
  refine ⟨once hrequests hx hy (a := y.stage.tickets) ?_ ?_, hplay⟩
  · exact List.mem_filterMap.2 ⟨_, he, rfl⟩
  · rw [hlist]
    exact List.mem_singleton_self _

/-- A call is put in flight with the delay that it was requested with, and by a replay if it had to
wait. -/
theorem Run.launch (h : Run past m) (hx : x ∈ past) {ticket timer : Nat}
    (he : .launched ticket timer ∈ x.events) :
    x.stage.status = .playing ∧ ∃ delay, x.Schedules x.stage.clock.seq timer delay ∧
      .requested ticket delay ∈ happened past ∧
      (.deferred ticket ∈ happened past → .replayed ticket ∈ x.events) := by
  obtain ⟨before, x', hrun, hpre, hstep⟩ := h.steps hx
  obtain ⟨_, _, _, _, rfl, hturn⟩ := step_timers hstep
  obtain ⟨d, hplay, hsource, rfl, hscheduled⟩ :=
    (hturn.of_launched ((Event.mem_timing rfl).2 he)).1
  refine ⟨hplay, d.delay, (Event.mem_timing rfl).1 hscheduled, ?_⟩
  cases hsource with
  | requested hticket hnotes =>
      have hrequested : .requested d.call.ticket d.delay ∈ x.events := by
        rw [← Event.mem_requested, events_filterMap hstep hnotes, hticket]
        exact List.mem_singleton_self _
      refine ⟨mem_happened.2 ⟨x, hx, hrequested⟩, ?_⟩
      intro hd
      -- it would have been deferred in this step, but the session plays
      obtain ⟨y, hy, hd⟩ := mem_happened.1 hd
      obtain ⟨rfl, hnot⟩ := h.eq_of_deferred hx hy hrequested hd
      exact absurd hplay hnot
  | replayed hpending hnotes =>
      have hmem : d.call.ticket ∈ x.events.filterMap Event.replayed? := by
        rw [events_filterMap hstep hnotes]
        exact List.mem_singleton_self _
      obtain ⟨e, hreplayed, heq⟩ := List.mem_filterMap.1 hmem
      cases e <;> cases heq
      refine ⟨?_, fun _ => hreplayed⟩
      obtain ⟨y, hy, hrequested⟩ :=
        mem_happened.1 (hrun.mem_journal.1 (hrun.asked d hpending))
      exact mem_happened.2 ⟨y, hpre.subset hy, hrequested⟩

/-! ## On time -/

/-- Where a timer elapses, it was scheduled its delay ago, and its call starts next. -/
theorem Run.elapsing (h : Run past m) {seq id : Nat} {now : Duration}
    (he : .elapsed seq id now ∈ m.events) :
    (∃ m', m.step = some m' ∧ m'.stage.clock.now = now ∧
      ∀ call, m.stage.player.inFlight.lookup id = some call →
        m'.frames.head? = some (.run call.body)) ∧
      ∃ x ∈ past, ∃ delay, x.Schedules seq id delay ∧ now = x.stage.clock.now + delay := by
  obtain ⟨m', hm⟩ := step_of_mem_events he
  obtain ⟨f, rest, _, hframes, rfl, hturn⟩ := step_timers hm
  obtain ⟨target, fired, next, t, rfl, hpop, rfl, rfl, rfl⟩ :=
    hturn.of_elapsed ((Event.mem_timing rfl).2 he)
  obtain ⟨q, hq, _, hclock⟩ := Clock.popDue?_eq_some_iff.1 hpop
  refine ⟨⟨m', hm, by rw [hclock], ?_⟩, h.scheduling (by rw [hq]; exact List.mem_cons_self)⟩
  intro call hcall
  obtain ⟨m₁, hm₁, hticks⟩ := step_ticks hframes
  rw [hm] at hm₁
  cases hm₁
  cases hticks with
  | popped hpop' _ _ hframes' =>
      rw [hpop] at hpop'
      cases hpop'
      rw [hframes', Stage.dueCall, hcall]
      rfl
  | reached hnone _ _ =>
      rw [hpop] at hnone
      cases hnone

/-- **Timers fire on time.** No timer is ever overdue. A timer fires exactly its delay after the one
moment at which it was scheduled, and that is the time at which its call starts. A call that is put
in flight is scheduled at that moment, with the one delay that it was requested with; if it had to
wait this is the moment of its replay, however long it had waited. -/
theorem fires_on_time (h : Run past m) :
    (∀ t ∈ m.stage.clock.queue, m.stage.clock.now ≤ t.due) ∧
    (∀ seq id now, .elapsed seq id now ∈ m.events →
      (∃ m', m.step = some m' ∧ m'.stage.clock.now = now ∧
        ∀ call, m.stage.player.inFlight.lookup id = some call →
          m'.frames.head? = some (.run call.body)) ∧
      ∃ x ∈ past, ∃ delay, x.Schedules seq id delay ∧ now = x.stage.clock.now + delay ∧
        ∀ y ∈ past, ∀ id' now' delay', .scheduled seq id' now' delay' ∈ y.events →
          y = x ∧ id' = id ∧ delay' = delay) ∧
    ∀ x ∈ past, ∀ ticket id, .launched ticket id ∈ x.events →
      ∃ seq delay, x.Schedules seq id delay ∧
        (∀ d, .requested ticket d ∈ happened past ↔ d = delay) ∧
        (.deferred ticket ∈ happened past →
          .replayed ticket ∈ x.events ∧ x.stage.status = .playing) ∧
        ∀ id' now, .elapsed seq id' now ∈ m.events →
          id' = id ∧ now = x.stage.clock.now + delay ∧
            ∀ call, m.stage.player.inFlight.lookup id = some call → call.ticket = ticket := by
  refine ⟨h.punctual, ?_, ?_⟩
  · intro seq id now he
    obtain ⟨hnext, x, hx, delay, hscheduled, hnow⟩ := h.elapsing he
    refine ⟨hnext, x, hx, delay, hscheduled, hnow, ?_⟩
    intro y hy id' now' delay' he'
    exact h.schedules_unique hx hy hscheduled he'
  · intro x hx ticket id he
    obtain ⟨hplay, delay, hscheduled, hrequested, hdeferred⟩ := h.launch hx he
    refine ⟨x.stage.clock.seq, delay, hscheduled, ?_, fun hd => ⟨hdeferred hd, hplay⟩, ?_⟩
    · intro d
      constructor
      · exact h.requested_unique hrequested
      · rintro rfl
        exact hrequested
    · intro id' now he'
      obtain ⟨_, y, hy, delay', hscheduled', hnow⟩ := h.elapsing he'
      obtain ⟨rfl, rfl, rfl⟩ := h.schedules_unique hx hy hscheduled hscheduled'
      refine ⟨rfl, hnow, ?_⟩
      intro call hcall
      have hmem := (Stage.unfly_perm h.kept.timers hcall).mem_iff.2 List.mem_cons_self
      exact h.launched_unique (mem_happened.2 ⟨_, hx, he⟩) (h.launching hmem)

end Machine

/-! ## An example -/

/-- A call that lets time pass by itself and then requests another call. -/
def tarry : Routine := .perform (.elapse 20) fun _ => .request "late" 4 .done .done

/-- A host that defers this call, lets time pass before it goes on, and lets time pass again. -/
def intermission : Routine :=
  .perform (.loadDocument ⟨"let a = 1;", [⟨"step", .text "0", none⟩]⟩) fun _ =>
    .perform (.command .play) fun _ => .perform (.command .pause) fun _ =>
      .request "tarry" 5 tarry (.perform (.elapse 7) fun _ => .perform (.command .play) fun _ =>
        .perform (.elapse 10) fun _ => .perform (.elapse 30) fun _ => .done)

/-- The intermission after some steps. -/
def intermitted (steps : Nat) : Machine := Machine.run steps ⟨.plain, [.run intermission]⟩

namespace Machine

/-- The call that was deferred at 0 is replayed at 7 and starts at 12. It takes the clock to 32,
where it requests another call, which is due at 36; this one is not overdue when the host's
operation takes the clock back to 17, and starts at 36. -/
theorem intermission_on_time :
    (.deferred 0 ∈ (intermitted 6).events ∧ .replayed 0 ∈ (intermitted 11).events ∧
      (intermitted 11).stage.clock.now = 7 ∧ (intermitted 11).Schedules 0 0 5 ∧
        .elapsed 0 0 12 ∈ (intermitted 15).events ∧ (intermitted 16).stage.clock.now = 12) ∧
      ((intermitted 19).stage.clock.now = 32 ∧ (intermitted 22).stage.clock.now = 17 ∧
        ∀ t ∈ (intermitted 22).stage.clock.queue, 17 ≤ t.due) ∧
      .elapsed 1 1 36 ∈ (intermitted 24).events ∧ (intermitted 25).stage.clock.now = 36 := by
  have hrun (n : Nat) : Run (trace n ⟨.plain, [.run intermission]⟩) (intermitted n) :=
    ((Run.new Stage.plain_new).host intermission).trace n
  have hdeferred : .deferred 0 ∈ (intermitted 6).events := .tail _ (.head _)
  have hlaunched : .launched 0 0 ∈ (intermitted 11).events := .tail _ (.head _)
  have hfirst : .elapsed 0 0 12 ∈ (intermitted 15).events := .head _
  have hlast : .elapsed 1 1 36 ∈ (intermitted 24).events := .head _
  refine ⟨⟨hdeferred, ?_⟩, ⟨rfl, rfl, (fires_on_time (hrun 22)).1⟩, hlast, ?_⟩
  · have hpast : trace 15 ⟨.plain, [.run intermission]⟩ =
        trace 6 ⟨.plain, [.run intermission]⟩ ++ intermitted 6 :: trace 4 (intermitted 7) ++
          intermitted 11 :: trace 3 (intermitted 12) := rfl
    have hmem : intermitted 6 ∈ trace 15 ⟨.plain, [.run intermission]⟩ ∧
        intermitted 11 ∈ trace 15 ⟨.plain, [.run intermission]⟩ := by
      rw [hpast]
      simp
    obtain ⟨_, hfires, hcalls⟩ := fires_on_time (hrun 15)
    obtain ⟨_, delay, _, hrequested, hreplayed, _⟩ := hcalls _ hmem.2 0 0 hlaunched
    obtain rfl : 5 = delay := (hrequested 5).1 (mem_happened.2 ⟨_, hmem.1, .head _⟩)
    obtain ⟨hreplayed, _⟩ := hreplayed (mem_happened.2 ⟨_, hmem.1, hdeferred⟩)
    obtain ⟨⟨m', hm', hnow, _⟩, _⟩ := hfires 0 0 12 hfirst
    cases hm'
    exact ⟨hreplayed, rfl, .tail _ (.tail _ (.head _)), hfirst, hnow⟩
  · obtain ⟨_, hfires, _⟩ := fires_on_time (hrun 24)
    obtain ⟨⟨m', hm', hnow, _⟩, _⟩ := hfires 1 1 36 hlast
    cases hm'
    exact hnow

end Machine

end Walkthrough
