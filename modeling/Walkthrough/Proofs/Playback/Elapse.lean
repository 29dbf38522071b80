import Walkthrough.Proofs.Playback.Clock

/-!
# Moving the clock on

The clock moves on to a time by firing the timers that are due by then, one after the other. The
calls that it fires may schedule further timers, which take part.

* `Machine.scheduled`, `Machine.popped` — the timers that went into the queue and came out of it.
* `Stage.Calm` — what every other step does to the clock: nothing, or it schedules a timer.
* `Stage.Ticks` — what a step of the clock does.
* `Machine.Underway` — from the operation to its reply the timers come out in order.
* `Machine.Elapsing` — an operation is at work that does not move the clock anew meanwhile.
* `elapse_fires_due` — the timers that come out are those that are due, in order.
-/

set_option autoImplicit false

namespace Walkthrough

namespace Event

/-- The timer that an event schedules. -/
def scheduled? : Event → Option Timer
  | .scheduled seq id now delay => some ⟨now + delay, seq, id⟩
  | _ => none

/-- The timer that comes out of the clock's queue in an event, at the time where it is due. -/
def popped? : Event → Option Timer
  | .elapsed seq id now => some ⟨now, seq, id⟩
  | _ => none

/-- The events in which no timer goes in or comes out. -/
def isTimeless : Event → Bool
  | .scheduled .. | .elapsed .. => false
  | _ => true

theorem scheduled?_eq_none (e : Event) (h : e.isTimeless = true) : e.scheduled? = none := by
  cases e with
  | scheduled seq id now delay => cases h
  | _ => rfl

theorem popped?_eq_none (e : Event) (h : e.isTimeless = true) : e.popped? = none := by
  cases e with
  | elapsed seq id now => cases h
  | _ => rfl

theorem isTimeless_of_ofCommand (e : Event) (h : e.ofCommand = true) : e.isTimeless = true := by
  cases e with
  | scheduled seq id now delay => cases h
  | elapsed seq id now => cases h
  | _ => rfl

end Event

namespace Frame

/-- Whether a frame moves the clock on. -/
def isClock : Frame → Bool
  | .clock .. => true
  | _ => false

/-- Whether a frame performs the operation that moves the clock on. -/
def elapses : Frame → Bool
  | .run (.perform (.elapse _) _) => true
  | _ => false

end Frame

namespace Machine

/-- The timers scheduled in the steps of machines, in order. -/
def scheduled (ms : List Machine) : List Timer := (happened ms).filterMap Event.scheduled?

/-- The timers that came out of the clock's queue in the steps of machines, in order. -/
def popped (ms : List Machine) : List Timer := (happened ms).filterMap Event.popped?

/-- A machine is at work on an operation that was begun above the frames `rest`: the operation has
not given its reply, and the clock is not moved anew. -/
structure Elapsing (rest : List Frame) (m : Machine) : Prop where
  unanswered : ∀ reply next, m.frames ≠ .answer reply next :: rest
  flat : ∀ f ∈ m.frames.head?, f.elapses = false

end Machine

/-! ## Steps beside the clock -/

namespace Stage

/-- The clock is left alone. -/
structure SameTime (s s' : Stage) : Prop where
  clock : s'.clock = s.clock
  writes : Writes Event.isTimeless s s'

/-- The clock is left alone or a timer is scheduled, as is written down. -/
inductive Timely (s s' : Stage) : Prop where
  | same : SameTime s s' → Timely s s'
  | scheduled (id : Nat) (delay : Duration) : s'.clock = s.clock.schedule id delay →
      Notes Event.scheduled? s s' [s.clock.timer id delay] → Notes Event.popped? s s' [] →
      Timely s s'

/-- What a step does that is not one of the clock. -/
structure Calm (s : Stage) (r : Stage × List Frame) : Prop where
  timely : Timely s r.1
  frames : r.2.all (! ·.isClock) = true

section

variable {s t u : Stage}

theorem SameTime.refl (s : Stage) : SameTime s s := ⟨rfl, .of_journal_eq rfl⟩

theorem SameTime.trans (h : SameTime s t) (h' : SameTime t u) : SameTime s u :=
  ⟨h'.clock.trans h.clock, h.writes.trans h'.writes⟩

theorem SameTime.scheduled (h : SameTime s t) : Notes Event.scheduled? s t [] :=
  h.writes.notes Event.scheduled?_eq_none

theorem SameTime.popped (h : SameTime s t) : Notes Event.popped? s t [] :=
  h.writes.notes Event.popped?_eq_none

theorem Timely.after (h : SameTime s t) (h' : Timely t u) : Timely s u := by
  cases h' with
  | same h' => exact .same (h.trans h')
  | scheduled id delay hclock hscheduled hpopped =>
      have hscheduled := h.scheduled.trans hscheduled
      have hpopped := h.popped.trans hpopped
      rw [h.clock] at hclock hscheduled
      exact .scheduled id delay hclock hscheduled hpopped

theorem Calm.after {r : Stage × List Frame} (h : SameTime s t) (h' : Calm t r) : Calm s r :=
  ⟨.after h h'.timely, h'.frames⟩

theorem Calm.append {r : Stage × List Frame} {f : Frame} (h : Calm s r) (hf : f.isClock = false) :
    Calm s (r.1, r.2 ++ [f]) := by
  refine ⟨h.timely, ?_⟩
  rw [List.all_append, h.frames]
  simp [hf]

theorem Calm.of_sameTime {fs : List Frame} (h : SameTime s t)
    (hfs : fs.all (! ·.isClock) = true) : Calm s (t, fs) := ⟨.same h, hfs⟩

end

theorem record_sameTime {e : Event} (h : e.isTimeless = true) (s : Stage) :
    SameTime s (s.record e) := ⟨rfl, .record h s⟩

theorem command_calm (c : Command) (s : Stage) : Calm s (s.command c) := by
  refine ⟨.same ⟨command_clock c s, ?_⟩, ?_⟩
  · exact (command_writes c s).mono Event.isTimeless_of_ofCommand
  · rw [command_frames]
    split <;> rfl

theorem schedule_timely (timer : Nat) (delay : Duration) (s : Stage) :
    Timely s (s.schedule timer delay) :=
  .scheduled timer delay rfl ⟨[.scheduled _ _ _ _], rfl, rfl⟩ ⟨[.scheduled _ _ _ _], rfl, rfl⟩

theorem launch_calm (d : Deferred Call) (s : Stage) : Calm s (s.launch d) := by
  refine ⟨?_, ?_⟩
  · unfold launch
    split
    · exact .same (record_sameTime rfl s)
    · split
      · exact .same (record_sameTime rfl s)
      · refine .after ?_ (schedule_timely _ _ _)
        exact ⟨rfl, [.launched _ _], rfl, rfl⟩
  · rw [launch_frames]
    split <;> rfl

theorem request_calm (label : String) (delay : Duration) (body : Routine) (s : Stage) :
    Calm s (s.request label delay body) := by
  have hticketed : SameTime s (s.ticketed delay) := ⟨rfl, [.requested s.tickets delay], rfl, rfl⟩
  by_cases hs : s.status = .playing
  · rw [request_playing hs]
    exact .after hticketed (launch_calm _ _)
  · rw [request_deferred hs]
    exact .of_sameTime ⟨rfl, [.requested s.tickets delay, .deferred s.tickets], rfl, rfl⟩ rfl

theorem fire_sameTime (timer : Nat) (s : Stage) : SameTime s (s.fire timer).1 := by
  unfold fire
  split
  · exact .refl s
  · exact ⟨rfl, [.started _ _], rfl, rfl⟩

/-- The call that is in flight under a timer, to be run. -/
def dueCall (timer : Nat) (s : Stage) : List Frame :=
  (s.player.inFlight.lookup timer).toList.map fun call => .run call.body

theorem fire_frames (timer : Nat) (s : Stage) : (s.fire timer).2 = s.dueCall timer := by
  unfold fire dueCall
  split <;> rename_i h <;> rw [h] <;> rfl

theorem dueCall_calm (timer : Nat) (s : Stage) : (s.dueCall timer).all (! ·.isClock) = true := by
  simp [dueCall, Frame.isClock]

theorem fire_calm (timer : Nat) (s : Stage) : Calm s (s.fire timer) := by
  refine ⟨.same (fire_sameTime timer s), ?_⟩
  rw [fire_frames]
  exact dueCall_calm timer s

theorem Touched.sameTime {s s' : Stage} (h : s.Touched s') : SameTime s s' := by
  cases h with
  | same => exact .refl s
  | presented tooltip => exact ⟨rfl, .of_journal_eq rfl⟩
  | flagged value => exact ⟨rfl, [.flagged value], rfl, rfl⟩

theorem Deed.calm {op : Operation} {s : Stage} {r : Stage × List Frame} (h : s.Deed op r) :
    Calm s r := by
  cases h with
  | touched h _ => exact .of_sameTime h.sameTime rfl
  | moved cursor h _ => exact .of_sameTime (h.sameTime.trans ⟨rfl, .of_journal_eq rfl⟩) rfl
  | loaded document _ => exact .of_sameTime ⟨rfl, [.surface _], rfl, rfl⟩ rfl
  | edited text _ => exact .of_sameTime ⟨rfl, .of_journal_eq rfl⟩ rfl
  | scheduled _ => exact ⟨schedule_timely _ _ s, rfl⟩
  | @fired timer _ => exact fire_calm timer s
  | @commanded _ c h _ => exact .after h.sameTime (command_calm c _)

/-- Only `elapse` begins to move the clock. -/
theorem perform_calm (op : Operation) (next : Reply → Routine) (s : Stage)
    (h : (Frame.run (.perform op next)).elapses = false) : Calm s (s.perform op next) := by
  obtain ⟨time, rfl⟩ | ⟨r, reply, hdeed, hperform⟩ := s.perform_deed op next
  · cases h
  · rw [hperform]
    exact hdeed.calm.append rfl

/-- What is played is calm, unless it moves the clock or begins to. -/
theorem play_calm {f : Frame} {s : Stage} {r : Stage × List Frame} (h : f.Play s r)
    (hf : f.isClock = false) (he : f.elapses = false) : Calm s r := by
  cases h with
  | control rs _ => exact .of_sameTime (.refl s) (by simp [Frame.isClock])
  | performed op next => exact s.perform_calm op next he
  | requested label delay body next => exact (s.request_calm label delay body).append rfl
  | @replayed d ds _ _ =>
      have hdequeue : SameTime s (s.dequeue d ds) := ⟨rfl, [.replayed _], rfl, rfl⟩
      exact (Calm.after hdequeue (launch_calm d _)).append rfl
  | drained _ => exact .of_sameTime (.refl s) rfl
  | notified notice => exact .of_sameTime (record_sameTime rfl s) rfl
  | popped fired next _ => cases hf
  | reached fired next _ => cases hf
  | answered reply next => exact .of_sameTime (record_sameTime rfl s) rfl

/-- What a step of the clock on its way to `target` does, with `fired` timers popped before. -/
inductive Ticks (target : Duration) (fired : Nat) (next : Reply → Routine) (rest : List Frame)
    (s : Stage) (m : Machine) : Prop where
  /-- the first timer comes out, and the call that is in flight under it is to be run -/
  | popped {t : Timer} : s.clock.popDue? target = some (t, m.stage.clock) →
      Notes Event.scheduled? s m.stage [] → Notes Event.popped? s m.stage [t] →
      m.frames = s.dueCall t.id ++ .clock target (fired + 1) next :: rest →
      Ticks target fired next rest s m
  /-- no timer is due any more -/
  | reached : s.clock.popDue? target = none → m.stage = { s with clock.now := target } →
      m.frames = .answer (.count fired) next :: rest → Ticks target fired next rest s m

theorem stepClock_ticks (target : Duration) (fired : Nat) (next : Reply → Routine) (s : Stage)
    (rest : List Frame) :
    Ticks target fired next rest s (Machine.stepClock target fired next s rest) := by
  obtain ⟨p, hstep, hplay⟩ := Machine.stepClock_play target fired next s rest
  rw [hstep]
  cases hplay with
  | reached _ _ hpop => exact .reached hpop rfl rfl
  | @popped _ t clock _ _ hpop =>
      have hfire := fire_sameTime t.id (s.tick t clock)
      have hscheduled : Notes Event.scheduled? s (s.tick t clock) [] := ⟨[_], rfl, rfl⟩
      -- the event carries the time of the clock, which is where the timer is due
      have hpopped : Notes Event.popped? s (s.tick t clock) [t] := by
        obtain ⟨q, _, _, rfl⟩ := Clock.popDue?_eq_some_iff.1 hpop
        exact ⟨[.elapsed t.seq t.id t.due], rfl, rfl⟩
      refine .popped (t := t) ?_ (hscheduled.trans hfire.scheduled) (hpopped.trans hfire.popped) ?_
      · rw [hpop]
        exact congrArg (fun c => some (t, c)) hfire.clock.symm
      · rw [Machine.follow, fire_frames, List.append_assoc]
        rfl

end Stage

/-- A calm step goes on with the timer that it schedules. -/
theorem Stage.Timely.advanced {s s' : Stage} {target : Duration} {c₀ : Clock} {xs ys : List Timer}
    (h : s.Timely s') (ha : c₀.Advanced target s.clock xs ys) :
    ∃ ts, s.Notes Event.scheduled? s' ts ∧ s.Notes Event.popped? s' [] ∧
      c₀.Advanced target s'.clock (xs ++ ts) ys := by
  cases h with
  | same h =>
      refine ⟨[], h.scheduled, h.popped, ?_⟩
      rw [h.clock, List.append_nil]
      exact ha
  | scheduled id delay hclock hscheduled hpopped =>
      refine ⟨_, hscheduled, hpopped, ?_⟩
      rw [hclock]
      exact ha.schedule id delay

/-! ## On the way -/

namespace Machine

/-- A step that is not one of the clock is calm, and leaves the frames below as they are. -/
theorem step_calm {f : Frame} {rest : List Frame} {s : Stage} {m' : Machine}
    (h : (⟨s, f :: rest⟩ : Machine).step = some m') (hf : f.isClock = false)
    (he : f.elapses = false) :
    ∃ fs, m'.frames = fs ++ rest ∧ s.Calm (m'.stage, fs) := by
  obtain ⟨_, _, r, hm, rfl, hplay⟩ := step_play h
  cases hm
  exact ⟨r.2, rfl, Stage.play_calm hplay hf he⟩

theorem step_ticks {target : Duration} {fired : Nat} {next : Reply → Routine} {rest : List Frame}
    {m : Machine} (h : m.frames = .clock target fired next :: rest) :
    ∃ m', m.step = some m' ∧ m.stage.Ticks target fired next rest m' := by
  refine ⟨stepClock target fired next m.stage rest, ?_, m.stage.stepClock_ticks _ _ _ _⟩
  unfold step
  rw [h]

/-- Only the innermost frame stands right above the frames `rest`. -/
theorem top_eq {fs rest : List Frame} {f g : Frame} (h : fs ++ f :: rest = g :: rest) :
    fs = [] ∧ f = g := by
  have happend : fs ++ [f] ++ rest = [] ++ [g] ++ rest := by
    rw [← List.append_cons]
    exact h
  exact List.append_singleton_inj.1 (List.append_cancel_right happend)

/-- The clock is on its way to `target` above the frames `rest`: it fires timers, or it has reached
the time and replies with the number of the timers that came out. -/
inductive Underway (target : Duration) (next : Reply → Routine) (rest : List Frame) (c₀ : Clock)
    (scheduled popped : List Timer) (m : Machine) : Prop where
  | firing {fs : List Frame} : m.frames = fs ++ .clock target popped.length next :: rest →
      fs.all (! ·.isClock) = true → c₀.Advanced target m.stage.clock scheduled popped →
      Underway target next rest c₀ scheduled popped m
  | reached : m.frames = .answer (.count popped.length) next :: rest →
      c₀.Advanced target m.stage.clock scheduled popped → m.stage.clock.now = target →
      (∀ t ∈ m.stage.clock.queue, target < t.due) → Underway target next rest c₀ scheduled popped m

section

variable {target : Duration} {next : Reply → Routine} {rest : List Frame} {c₀ : Clock}
  {xs ys : List Timer} {m m' : Machine}

theorem Underway.of_ticks (h : m.stage.Ticks target ys.length next rest m')
    (hm : m.step = some m') (ha : c₀.Advanced target m.stage.clock xs ys)
    (hordered : m.stage.clock.Ordered) :
    Underway target next rest c₀ (xs ++ m.events.filterMap Event.scheduled?)
      (ys ++ m.events.filterMap Event.popped?) m' := by
  cases h with
  | @popped t hpop hscheduled hpopped hframes =>
      rw [events_filterMap hm hscheduled, events_filterMap hm hpopped, List.append_nil]
      refine .firing ?_ (m.stage.dueCall_calm t.id) (ha.pop hordered hpop)
      rw [hframes, List.length_append, List.length_singleton]
  | reached hpop hstage hframes =>
      have hjournal : m'.stage.journal = m.stage.journal := by rw [hstage]
      have hclock : m'.stage.clock = { m.stage.clock with now := target } := by rw [hstage]
      rw [events_filterMap hm (.of_journal_eq hjournal),
        events_filterMap hm (.of_journal_eq hjournal), List.append_nil, List.append_nil]
      refine .reached hframes ?_ ?_ ?_
      · rw [hclock]
        exact ha.reach
      · rw [hclock]
      · rw [hclock]
        exact (Clock.popDue?_eq_none_iff hordered).1 hpop

theorem Underway.of_clock {fired : Nat} {next' : Reply → Routine}
    (h : Underway target next rest c₀ xs ys m)
    (hframes : m.frames = .clock target fired next' :: rest) :
    ys.length = fired ∧ next = next' := by
  cases h with
  | firing hframes' _ _ =>
      rw [hframes'] at hframes
      cases (top_eq hframes).2
      exact ⟨rfl, rfl⟩
  | reached hframes' _ _ _ =>
      rw [hframes'] at hframes
      cases hframes

theorem Underway.step (h : Underway target next rest c₀ xs ys m) (hm : m.step = some m')
    (hx : m.Elapsing rest) (hordered : m.stage.clock.Ordered) :
    Underway target next rest c₀ (xs ++ m.events.filterMap Event.scheduled?)
      (ys ++ m.events.filterMap Event.popped?) m' := by
  cases h with
  | @firing fs hframes hfs ha =>
      cases fs with
      | nil =>
          obtain ⟨m₁, hm₁, hticks⟩ := step_ticks hframes
          rw [hm] at hm₁
          cases hm₁
          exact .of_ticks hticks hm ha hordered
      | cons f fs =>
          obtain ⟨s, frames⟩ := m
          cases hframes
          rw [List.all_cons, Bool.and_eq_true] at hfs
          obtain ⟨gs, hgs, hcalm⟩ := step_calm hm (by simpa using hfs.1) (hx.flat f rfl)
          obtain ⟨ts, hscheduled, hpopped, ha⟩ := hcalm.timely.advanced ha
          rw [events_filterMap hm hscheduled, events_filterMap hm hpopped, List.append_nil]
          refine .firing (hgs.trans (List.append_assoc gs fs _).symm) ?_ ha
          rw [List.all_append, hcalm.frames, hfs.2]
          rfl
  | reached hframes _ _ _ => exact absurd hframes (hx.unanswered _ _)

theorem scheduled_concat (ms : List Machine) (m : Machine) :
    scheduled (ms ++ [m]) = scheduled ms ++ m.events.filterMap Event.scheduled? :=
  filterMap_happened_concat _ ms m

theorem popped_concat (ms : List Machine) (m : Machine) :
    popped (ms ++ [m]) = popped ms ++ m.events.filterMap Event.popped? :=
  filterMap_happened_concat _ ms m

variable {before inside : List Machine} {c : Machine} {time : Duration}

/-- From the operation to its reply the clock is on its way. -/
theorem Run.underway (h : Run (before ++ c :: inside) m)
    (hc : c.frames = .run (.perform (.elapse time) next) :: rest)
    (hin : ∀ x ∈ inside, x.Elapsing rest) :
    Underway (c.stage.clock.now + time) next rest c.stage.clock (scheduled inside) (popped inside)
      m := by
  revert hin
  refine Run.since_induction (P := fun inside m => (∀ x ∈ inside, x.Elapsing rest) →
    Underway (c.stage.clock.now + time) next rest c.stage.clock (scheduled inside) (popped inside)
      m) ?_ ?_ ?_ ?_ h
  · intro m _ hm _
    obtain ⟨s, frames⟩ := c
    cases hc
    cases hm
    have hframes : (⟨s, [.clock (s.clock.now + time) 0 next] ++ rest⟩ : Machine).frames =
        [] ++ .clock (s.clock.now + time) 0 next :: rest := rfl
    exact .firing hframes rfl (.start _ _)
  · intro inside s r ih hin
    -- something is left to do, so no activity begins
    cases ih hin with
    | firing hframes _ _ => simp at hframes
    | reached hframes _ _ _ => cases hframes
  · intro inside m text ih hin
    cases ih hin with
    | firing hframes hfs ha => exact .firing hframes hfs ha
    | reached hframes ha hnow hlate => exact .reached hframes ha hnow hlate
  · intro inside m m' hrun ih hm hin
    have hunder := ih fun x hx => hin x (List.mem_append_left _ hx)
    rw [scheduled_concat, popped_concat]
    exact hunder.step hm (hin m (by simp)) hrun.ordered

/-- **Moving the clock on fires the timers that are due**, those scheduled on the way included. They
come out in firing order, each of them once. When a call has come back, one more timer comes out and
its call is run, or else the reply is given; and by then all timers that were due have come out. -/
theorem elapse_fires_due (h : Run (before ++ c :: inside) m)
    (hc : c.frames = .run (.perform (.elapse time) next) :: rest)
    (hin : ∀ x ∈ inside, x.Elapsing rest) :
    let target := c.stage.clock.now + time
    let known := c.stage.clock.queue ++ scheduled inside
    (popped inside).Pairwise (fun t u => t.before u = true) ∧ (popped inside).Nodup ∧
      (popped inside ++ m.stage.clock.queue).Perm known ∧ (∀ t ∈ popped inside, t.due ≤ target) ∧
      (∀ fired next', m.frames = .clock target fired next' :: rest → ∃ m', m.step = some m' ∧
        ((∃ t, popped (inside ++ [m]) = popped inside ++ [t] ∧
            m'.frames = m.stage.dueCall t.id ++ .clock target (fired + 1) next :: rest) ∨
          m'.frames = .answer (.count fired) next :: rest)) ∧
      ∀ reply next', m.frames = .answer reply next' :: rest →
        reply = .count (popped inside).length ∧ next' = next ∧
          (popped inside).Perm (known.filter fun t => t.due ≤ target) ∧
          m.stage.clock.now = target ∧ ∀ t ∈ m.stage.clock.queue, target < t.due := by
  intro target known
  have hunder := h.underway hc hin
  have ha : c.stage.clock.Advanced target m.stage.clock (scheduled inside) (popped inside) := by
    cases hunder with
    | firing _ _ ha => exact ha
    | reached _ ha _ _ => exact ha
  refine ⟨ha.sorted, ha.nodup, ha.conserved, ha.due, ?_, ?_⟩
  · intro fired next' hframes
    obtain ⟨rfl, rfl⟩ := hunder.of_clock hframes
    obtain ⟨m', hm, hticks⟩ := step_ticks hframes
    refine ⟨m', hm, ?_⟩
    cases hticks with
    | @popped t _ _ hpopped hframes' =>
        refine .inl ⟨t, ?_, hframes'⟩
        rw [popped_concat, events_filterMap hm hpopped]
    | reached _ _ hframes' => exact .inr hframes'
  · intro reply next' hframes
    cases hunder with
    | firing hframes' _ _ =>
        -- the frame that fires is still there, so this is no reply above `rest`
        rw [hframes'] at hframes
        cases (top_eq hframes).2
    | reached hframes' _ hnow hlate =>
        rw [hframes'] at hframes
        cases hframes
        exact ⟨rfl, rfl, ha.popped_perm hlate, hnow, hlate⟩

end

end Machine

/-! ## An example -/

/-- A call that schedules a timer at the present time and requests another call. -/
def chain : Routine := .perform (.schedule 9 0) fun _ => .request "next" 2 .done .done

/-- A host that requests this call, another one at the same time and a late one, and waits. -/
def countdown : Routine :=
  .perform (.loadDocument ⟨"let a = 1;", [⟨"step", .text "0", none⟩]⟩) fun _ =>
    .perform (.command .play) fun _ =>
      .request "chain" 5 chain (.request "tie" 5 .done (.request "late" 20 .done
        (.perform (.elapse 10) fun _ => .done)))

/-- The countdown after some steps. -/
def counted (steps : Nat) : Machine := Machine.run steps ⟨.plain, [.run countdown]⟩

namespace Machine

/-- Whether a reply is all that is left to be given. -/
def answers (m : Machine) : Bool :=
  match m.frames with
  | [.answer _ _] => true
  | _ => false

/-- The countdown from the moment where it waits. The timers of the call that is fired first come
out after the one at the same time, and the late one is left. -/
theorem countdown_elapses :
    (counted 7).frames = [.run (.perform (.elapse 10) fun _ => .done)] ∧
      (∀ x ∈ trace 11 (counted 8), x.Elapsing []) ∧
      (popped (trace 11 (counted 8))).Perm [⟨5, 0, 0⟩, ⟨5, 1, 1⟩, ⟨5, 3, 9⟩, ⟨7, 4, 3⟩] ∧
      (popped (trace 11 (counted 8))).Pairwise (fun t u => t.before u = true) ∧
      (counted 19).frames = [.answer (.count 4) fun _ => .done] ∧
      (counted 19).stage.clock.now = 10 ∧ ∀ t ∈ (counted 19).stage.clock.queue, 10 < t.due := by
  have hrun : Run (trace 7 ⟨.plain, [.run countdown]⟩ ++ counted 7 :: trace 11 (counted 8))
      (counted 19) := ((Run.new Stage.plain_new).host countdown).trace 19
  have hin : ∀ x ∈ trace 11 (counted 8), x.Elapsing [] := by
    have hunanswered : (trace 11 (counted 8)).all (! ·.answers) = true := rfl
    have hflat : (trace 11 (counted 8)).all (·.frames.head?.all (! ·.elapses)) = true := rfl
    intro x hx
    refine ⟨?_, ?_⟩
    · intro reply next hframes
      have hcheck := List.all_eq_true.1 hunanswered x hx
      rw [answers, hframes] at hcheck
      cases hcheck
    · intro f hf
      have hcheck := List.all_eq_true.1 hflat x hx
      rw [hf] at hcheck
      simpa using hcheck
  obtain ⟨hsorted, _, _, _, _, hreply⟩ := elapse_fires_due hrun rfl hin
  obtain ⟨_, _, hperm, hnow, hlate⟩ := hreply (.count 4) _ rfl
  exact ⟨rfl, hin, hperm, hsorted, rfl, hnow, hlate⟩

end Machine

end Walkthrough
