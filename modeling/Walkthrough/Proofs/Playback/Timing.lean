import Walkthrough.Proofs.Playback.Elapse
import Walkthrough.Proofs.Playback.Record

/-!
# What a step does to the timers

A timer is known in two places. The player holds the call that is in flight under it, and the clock
holds it in its queue. A step leaves both alone, or allots a timer to a call, schedules a timer by
itself, fires one by itself, lets one come out of the queue, or sets the clock.

* `TimerTurn` — these are all the things that a step can do; `step_timers`: and it writes them down.
* `Stage.Source` — where a call comes from that a timer is allotted to.
* `Run.allotted`, `Run.places` — timers are numbered as they are allotted to calls, and the places
  in the queue as they are given out.
-/

set_option autoImplicit false

namespace Walkthrough

namespace Event

/-- The events in which a timer is allotted, goes into the clock's queue or comes out of it. -/
def isTiming : Event → Bool
  | .launched .. | .scheduled .. | .elapsed .. => true
  | _ => false

/-- The event, if it is one of those. -/
def timing? (e : Event) : Option Event := if e.isTiming then some e else none

/-- The timer that an event allots to a call. -/
def allotted? : Event → Option Nat
  | .launched _ timer => some timer
  | _ => none

/-- The place in the queue that an event gives out. -/
def place? : Event → Option Nat
  | .scheduled seq _ _ _ => some seq
  | _ => none

theorem isTimeless_of_not_isTiming (e : Event) (h : (!e.isTiming) = true) :
    e.isTimeless = true := by
  cases e <;> first | rfl | cases h

theorem not_isTiming_of_ofCommand (e : Event) (h : e.ofCommand = true) : (!e.isTiming) = true := by
  cases e <;> first | rfl | cases h

theorem timing?_eq_none (e : Event) (h : (!e.isTiming) = true) : e.timing? = none := by
  rw [Bool.not_eq_true'] at h
  rw [timing?, h]
  rfl

theorem allotted?_eq_none (e : Event) (h : (!e.isTiming) = true) : e.allotted? = none := by
  cases e with
  | launched ticket timer => cases h
  | _ => rfl

theorem place?_eq (e : Event) : e.place? = e.scheduled?.map Timer.seq := by
  cases e <;> rfl

theorem place?_eq_none (e : Event) (h : (!e.isTiming) = true) : e.place? = none := by
  rw [place?_eq, scheduled?_eq_none e (isTimeless_of_not_isTiming e h), Option.map_none]

/-- Of the events of timers a function keeps what it keeps of all events, if it knows no others. -/
theorem filterMap_timing {α : Type} {f : Event → Option α}
    (hf : ∀ e, (!e.isTiming) = true → f e = none) (es : List Event) :
    (es.filterMap timing?).filterMap f = es.filterMap f := by
  rw [List.filterMap_filterMap]
  refine List.filterMap_congr fun e _ => ?_
  cases he : e.isTiming with
  | true =>
      rw [timing?, he]
      rfl
  | false =>
      rw [timing?, he, hf e (by rw [he]; rfl)]
      rfl

theorem mem_timing {e : Event} {es : List Event} (h : e.isTiming = true) :
    e ∈ es.filterMap timing? ↔ e ∈ es := by
  simp only [List.mem_filterMap, timing?]
  constructor
  · rintro ⟨e', he', heq⟩
    split at heq
    · cases heq
      exact he'
    · cases heq
  · intro he
    exact ⟨e, he, if_pos h⟩

end Event

namespace Stage

/-! ## Steps beside the timers -/

/-- The timers are left alone. -/
structure Untimed (s s' : Stage) : Prop where
  clock : s'.clock = s.clock
  inFlight : s'.player.inFlight = s.player.inFlight
  nextTimer : s'.player.nextTimer = s.player.nextTimer
  writes : Writes (fun e => !e.isTiming) s s'

section

variable {s t u : Stage}

theorem Untimed.refl (s : Stage) : Untimed s s := ⟨rfl, rfl, rfl, .of_journal_eq rfl⟩

theorem Untimed.trans (h : Untimed s t) (h' : Untimed t u) : Untimed s u :=
  ⟨h'.clock.trans h.clock, h'.inFlight.trans h.inFlight, h'.nextTimer.trans h.nextTimer,
    h.writes.trans h'.writes⟩

theorem Untimed.notes (h : Untimed s t) : Notes Event.timing? s t [] :=
  h.writes.notes Event.timing?_eq_none

end

theorem record_untimed {e : Event} (h : e.isTiming = false) (s : Stage) : Untimed s (s.record e) :=
  ⟨rfl, rfl, rfl, .record (by rw [h]; rfl) s⟩

theorem command_untimed (c : Command) (s : Stage) : Untimed s (s.command c).1 := by
  obtain ⟨hflight, hnext, _⟩ := command_keeps c s
  exact ⟨command_clock c s, hflight, hnext,
    (command_writes c s).mono Event.not_isTiming_of_ofCommand⟩

theorem Touched.untimed {s s' : Stage} (h : s.Touched s') : Untimed s s' := by
  cases h with
  | same => exact .refl s
  | presented tooltip => exact ⟨rfl, rfl, rfl, .of_journal_eq rfl⟩
  | flagged value => exact ⟨rfl, rfl, rfl, [.flagged value], rfl, rfl⟩

/-- Where the call `d` comes from that is launched: it is requested while the session plays, or is
taken from the queue by a replay. -/
inductive Source (s s' : Stage) (d : Deferred Call) : Prop where
  | requested : d.call.ticket = s.tickets →
      Notes Event.requested? s s' [(s.tickets, d.delay)] → Source s s' d
  | replayed : d ∈ s.pending → Notes Event.replayed? s s' [d.call.ticket] → Source s s' d

end Stage

/-! ## All that a step can do -/

/-- What becomes of the timers in a step of the frame `f`, and what is written down about them. -/
inductive TimerTurn (f : Frame) (s s' : Stage) : List Event → Prop where
  /-- the timers are left alone -/
  | kept : s.Untimed s' → TimerTurn f s s' []
  /-- a call is put in flight under a new timer, which is scheduled -/
  | launched {d : Deferred Call} : s.status = .playing → s.Source s' d →
      s'.clock = s.clock.schedule s.player.nextTimer d.delay →
      s'.player.inFlight = s.player.inFlight ++ [(s.player.nextTimer, d.call)] →
      s'.player.nextTimer = s.player.nextTimer + 1 →
      TimerTurn f s s' [.launched d.call.ticket s.player.nextTimer,
        .scheduled s.clock.seq s.player.nextTimer s.clock.now d.delay]
  /-- a timer is scheduled by itself -/
  | scheduled {timer : Nat} {delay : Duration} {next : Reply → Routine} :
      f = .run (.perform (.schedule timer delay) next) →
      s'.clock = s.clock.schedule timer delay →
      s'.player.inFlight = s.player.inFlight → s'.player.nextTimer = s.player.nextTimer →
      TimerTurn f s s' [.scheduled s.clock.seq timer s.clock.now delay]
  /-- a timer is fired by itself -/
  | fired {timer : Nat} {next : Reply → Routine} :
      f = .run (.perform (.fire timer) next) → s'.clock = s.clock →
      s'.player.inFlight = s.player.inFlight.filter (fun p => p.1 ≠ timer) →
      s'.player.nextTimer = s.player.nextTimer → TimerTurn f s s' []
  /-- the first timer comes out of the queue and is fired -/
  | elapsed {target : Duration} {fired : Nat} {next : Reply → Routine} {t : Timer} :
      f = .clock target fired next → s.clock.popDue? target = some (t, s'.clock) →
      s'.player.inFlight = s.player.inFlight.filter (fun p => p.1 ≠ t.id) →
      s'.player.nextTimer = s.player.nextTimer →
      TimerTurn f s s' [.elapsed t.seq t.id t.due]
  /-- no timer is due any more, and the clock is set -/
  | reached {target : Duration} {fired : Nat} {next : Reply → Routine} :
      f = .clock target fired next → s.clock.popDue? target = none →
      s' = { s with clock.now := target } → TimerTurn f s s' []

section

variable {f : Frame} {s s' : Stage} {es : List Event}

/-- A timer that is allotted is the next one. -/
theorem TimerTurn.allots (h : TimerTurn f s s' es) :
    Counts s.player.nextTimer s'.player.nextTimer (es.filterMap Event.allotted?) := by
  cases h with
  | kept h =>
      rw [h.nextTimer]
      exact .none
  | launched _ _ _ _ hnext =>
      rw [hnext]
      exact .next
  | scheduled _ _ _ hnext =>
      rw [hnext]
      exact .none
  | fired _ _ _ hnext =>
      rw [hnext]
      exact .none
  | elapsed _ _ _ hnext =>
      rw [hnext]
      exact .none
  | reached _ _ hstage =>
      rw [hstage]
      exact .none

/-- A timer that goes into the queue is given the next place. -/
theorem TimerTurn.places (h : TimerTurn f s s' es) :
    Counts s.clock.seq s'.clock.seq (es.filterMap Event.place?) := by
  cases h with
  | kept h =>
      rw [h.clock]
      exact .none
  | launched _ _ hclock _ _ =>
      rw [hclock]
      exact .next
  | scheduled _ hclock _ _ =>
      rw [hclock]
      exact .next
  | fired _ hclock _ _ =>
      rw [hclock]
      exact .none
  | elapsed _ hpop _ _ =>
      obtain ⟨q, _, _, hclock⟩ := Clock.popDue?_eq_some_iff.1 hpop
      rw [hclock]
      exact .none
  | reached _ _ hstage =>
      rw [hstage]
      exact .none

end

namespace Stage

/-- The timers turn, as is written down. -/
def Timed (f : Frame) (s s' : Stage) : Prop :=
  ∃ es, Notes Event.timing? s s' es ∧ TimerTurn f s s' es

theorem Untimed.timed {f : Frame} {s s' : Stage} (h : Untimed s s') : Timed f s s' :=
  ⟨[], h.notes, .kept h⟩

/-- A launched call is started or given up, or else it is put in flight. -/
theorem launch_timing (d : Deferred Call) (s : Stage) :
    Untimed s (s.launch d).1 ∨
      Notes Event.timing? s (s.launch d).1 [.launched d.call.ticket s.player.nextTimer,
          .scheduled s.clock.seq s.player.nextTimer s.clock.now d.delay] ∧
        (s.launch d).1.clock = s.clock.schedule s.player.nextTimer d.delay ∧
        (s.launch d).1.player.inFlight = s.player.inFlight ++ [(s.player.nextTimer, d.call)] ∧
        (s.launch d).1.player.nextTimer = s.player.nextTimer + 1 := by
  unfold launch
  split
  · exact .inl (record_untimed rfl s)
  · split
    · exact .inl (record_untimed rfl s)
    · exact .inr ⟨⟨[.launched _ _, .scheduled _ _ _ _], rfl, rfl⟩, rfl, rfl, rfl⟩

/-- A call that comes from the stage `s` to be launched on the stage `s₀`. -/
theorem launch_timed {f : Frame} {s s₀ : Stage} {d : Deferred Call} (hs : s.status = .playing)
    (h : Untimed s s₀) (hsource : Source s (s₀.launch d).1 d) : Timed f s (s₀.launch d).1 := by
  rcases launch_timing d s₀ with hlaunch | ⟨hnotes, hclock, hflight, hnext⟩
  · exact (h.trans hlaunch).timed
  · have hnotes := h.notes.trans hnotes
    rw [h.clock, h.nextTimer] at hclock hnotes
    rw [h.inFlight, h.nextTimer] at hflight
    rw [h.nextTimer] at hnext
    exact ⟨_, hnotes, .launched hs hsource hclock hflight hnext⟩

theorem request_timed (label : String) (delay : Duration) (body next : Routine) (s : Stage) :
    Timed (.run (.request label delay body next)) s (s.request label delay body).1 := by
  have hticketed : Untimed s (s.ticketed delay) :=
    ⟨rfl, rfl, rfl, [.requested s.tickets delay], rfl, rfl⟩
  have hrequests := request_requests label delay body s
  by_cases hs : s.status = .playing
  · rw [request_playing hs] at hrequests ⊢
    exact launch_timed hs hticketed (.requested rfl hrequests)
  · rw [request_deferred hs]
    refine (hticketed.trans ?_).timed
    exact ⟨rfl, rfl, rfl, [.deferred s.tickets], rfl, rfl⟩

theorem replay_timed {d : Deferred Call} {ds : List (Deferred Call)} {s : Stage}
    (hs : s.status = .playing) (hp : s.pending = d :: ds) :
    Timed .replay s ((s.dequeue d ds).launch d).1 := by
  have hdequeue : Untimed s (s.dequeue d ds) := ⟨rfl, rfl, rfl, [.replayed _], rfl, rfl⟩
  refine launch_timed hs hdequeue (.replayed ?_ (replay_queue hs hp).1.2)
  rw [hp]
  exact List.mem_cons_self

/-- Firing a timer takes it from the calls in flight, if there is one under it. -/
theorem fire_inFlight (timer : Nat) (s : Stage) :
    (s.fire timer).1.player.inFlight = s.player.inFlight.filter fun p => p.1 ≠ timer := by
  cases h : s.player.inFlight.lookup timer with
  | some call =>
      rw [fire_eq h]
      rfl
  | none =>
      have hall : ∀ p ∈ s.player.inFlight, decide (p.1 ≠ timer) = true := by
        intro p hp
        have hne := List.lookup_eq_none_iff.1 h p hp
        simp only [bne_iff_ne, ne_eq] at hne
        exact decide_eq_true fun heq => hne heq.symm
      rw [List.filter_eq_self.2 hall]
      simp only [fire, h]

theorem fire_nextTimer (timer : Nat) (s : Stage) :
    (s.fire timer).1.player.nextTimer = s.player.nextTimer := by
  unfold fire
  split <;> rfl

theorem fire_notes (timer : Nat) (s : Stage) : Notes Event.timing? s (s.fire timer).1 [] := by
  unfold fire
  split
  · exact .of_journal_eq rfl
  · exact ⟨[.started _ _], rfl, rfl⟩

theorem perform_timed (op : Operation) (next : Reply → Routine) (s : Stage) :
    Timed (.run (.perform op next)) s (s.perform op next).1 := by
  obtain ⟨time, rfl⟩ | ⟨r, reply, hdeed, hperform⟩ := s.perform_deed op next
  · exact (Untimed.refl s).timed
  · rw [hperform]
    cases hdeed with
    | touched h _ => exact h.untimed.timed
    | @moved s₀ cursor h _ =>
        have hmoved : Untimed s₀ (s₀.setCursor cursor) := ⟨rfl, rfl, rfl, .of_journal_eq rfl⟩
        exact (h.untimed.trans hmoved).timed
    | loaded document _ =>
        have hloaded : Untimed s (s.loadDocument document) :=
          ⟨rfl, rfl, rfl, [.surface _], rfl, rfl⟩
        exact hloaded.timed
    | edited text _ =>
        have hedited : Untimed s (s.edit text) := ⟨rfl, rfl, rfl, .of_journal_eq rfl⟩
        exact hedited.timed
    | scheduled hop =>
        subst hop
        exact ⟨_, ⟨[.scheduled _ _ _ _], rfl, rfl⟩, .scheduled rfl rfl rfl rfl⟩
    | @fired timer hop =>
        subst hop
        exact ⟨[], fire_notes timer s, .fired rfl (fire_sameTime timer s).clock
          (fire_inFlight timer s) (fire_nextTimer timer s)⟩
    | commanded h _ => exact (h.untimed.trans (command_untimed _ _)).timed

theorem tick_timed {target : Duration} {t : Timer} {clock : Clock} {s : Stage}
    (hpop : s.clock.popDue? target = some (t, clock)) (fired : Nat) (next : Reply → Routine) :
    Timed (.clock target fired next) s ((s.tick t clock).fire t.id).1 := by
  have hclock := (fire_sameTime t.id (s.tick t clock)).clock
  -- the event carries the time of the clock, which is where the timer is due
  have hnow : clock.now = t.due := by
    obtain ⟨q, _, _, rfl⟩ := Clock.popDue?_eq_some_iff.1 hpop
    rfl
  have htick : Notes Event.timing? s (s.tick t clock) [.elapsed t.seq t.id t.due] := by
    rw [← hnow]
    exact .record _ (.elapsed t.seq t.id clock.now) { s with clock }
  refine ⟨_, htick.trans (fire_notes t.id _), .elapsed rfl ?_ (fire_inFlight t.id _)
    (fire_nextTimer t.id _)⟩
  rw [hclock]
  exact hpop

theorem play_timed {f : Frame} {s : Stage} {r : Stage × List Frame} (h : f.Play s r) :
    Timed f s r.1 := by
  cases h with
  | control rs _ => exact (Untimed.refl s).timed
  | performed op next => exact perform_timed op next s
  | requested label delay body next => exact request_timed label delay body next s
  | replayed hs hp => exact replay_timed hs hp
  | drained _ => exact (Untimed.refl s).timed
  | notified notice => exact (record_untimed rfl s).timed
  | popped fired next hpop => exact tick_timed hpop fired next
  | reached fired next hpop => exact ⟨[], .of_journal_eq rfl, .reached rfl hpop rfl⟩
  | answered reply next => exact (record_untimed rfl s).timed

end Stage

namespace Machine

variable {past : List Machine} {m m' : Machine}

/-- **A step turns the timers**, as it writes down. -/
theorem step_timers (h : m.step = some m') :
    ∃ f rest es, m.frames = f :: rest ∧ m.events.filterMap Event.timing? = es ∧
      TimerTurn f m.stage m'.stage es := by
  obtain ⟨f, rest, r, hf, rfl, hplay⟩ := step_play h
  obtain ⟨es, hes, hturn⟩ := Stage.play_timed hplay
  exact ⟨f, rest, es, hf, events_filterMap h hes, hturn⟩

/-- The timers allotted in a run are numbered in order. -/
theorem Run.allotted (h : Run past m) :
    (happened past).filterMap Event.allotted? = List.range m.stage.player.nextTimer := by
  refine h.counted (n := fun s => s.player.nextTimer) (fun _ _ _ _ => rfl) (fun _ _ => rfl) ?_
  intro m m' hm
  obtain ⟨_, _, _, _, rfl, hturn⟩ := step_timers hm
  have hcounts := hturn.allots
  rw [Event.filterMap_timing Event.allotted?_eq_none] at hcounts
  exact hcounts

/-- The places in the queue that are given out in a run are numbered in order. -/
theorem Run.places (h : Run past m) :
    (happened past).filterMap Event.place? = List.range m.stage.clock.seq := by
  refine h.counted (n := fun s => s.clock.seq) (fun _ _ _ _ => rfl) (fun _ _ => rfl) ?_
  intro m m' hm
  obtain ⟨_, _, _, _, rfl, hturn⟩ := step_timers hm
  have hcounts := hturn.places
  rw [Event.filterMap_timing Event.place?_eq_none] at hcounts
  exact hcounts

end Machine

end Walkthrough
