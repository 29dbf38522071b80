import Walkthrough.Proofs.Playback.Guise
import Walkthrough.Proofs.Playback.Return

/-!
# The same at a later time

Tickets, timers, places in the clock's queue and times are numbers that only go on. A player that
goes through a history again has other numbers the second time. Routines that look neither at the
time nor handle timers of their own do not notice: on a stage whose numbers have all moved on by
fixed amounts, everything happens as before, with numbers that have moved on by the same amounts.

* `Shift`, `Stage.later` — the amounts, and a stage with numbers that have moved on by them;
  `Guise.later`: it is a stage in a guise.
* `Routine.Discreet`, `Machine.Discreet` — nobody looks at the time or handles timers.
* `perform_later`, `step_later` — what is done later is done as before.
* `step_discreet` — discretion is kept.
* `Ends.later`, `Ends.sooner` — what comes to an end now does so later, and the other way round.
-/

set_option autoImplicit false

namespace Walkthrough

/-- How far the numbers have moved on. -/
structure Shift where
  tickets : Nat
  timers : Nat
  places : Nat
  time : Nat

section

variable (k : Shift)

def Call.later (c : Call) : Call := { c with ticket := c.ticket + k.tickets }

def Deferred.later (d : Deferred Call) : Deferred Call := { d with call := d.call.later k }

def Timer.later (t : Timer) : Timer := ⟨t.due + k.time, t.seq + k.places, t.id + k.timers⟩

def Clock.later (c : Clock) : Clock :=
  ⟨c.now + k.time, c.seq + k.places, c.queue.map (Timer.later k)⟩

def Event.later : Event → Event
  | .requested ticket delay => .requested (ticket + k.tickets) delay
  | .deferred ticket => .deferred (ticket + k.tickets)
  | .replayed ticket => .replayed (ticket + k.tickets)
  | .dropped ticket => .dropped (ticket + k.tickets)
  | .launched ticket timer => .launched (ticket + k.tickets) (timer + k.timers)
  | .started ticket label => .started (ticket + k.tickets) label
  | .scheduled seq timer now delay =>
    .scheduled (seq + k.places) (timer + k.timers) (now + k.time) delay
  | .elapsed seq timer now => .elapsed (seq + k.places) (timer + k.timers) (now + k.time)
  | e => e

def Playback.later (p : Playback Call) : Playback Call :=
  { p with pending := p.pending.map (Deferred.later k) }

/-- A call in flight with its timer. -/
def Call.aloft (p : Nat × Call) : Nat × Call := (p.1 + k.timers, p.2.later k)

def Player.later (p : Player) : Player :=
  { p with
    playback := p.playback.later k
    inFlight := p.inFlight.map (Call.aloft k)
    nextTimer := p.nextTimer + k.timers }

def Frame.later : Frame → Frame
  | .clock target fired next => .clock (target + k.time) fired next
  | f => f

/-- A stage with numbers that have moved on, after a history of its own. -/
def Stage.later (history : List Event) (s : Stage) : Stage :=
  { s with
    player := s.player.later k
    clock := s.clock.later k
    tickets := s.tickets + k.tickets
    journal := s.journal.map (Event.later k) ++ history }

/-- The same for what a step leaves. -/
def Stage.laterAll (history : List Event) (r : Stage × List Frame) : Stage × List Frame :=
  (r.1.later k history, r.2.map (Frame.later k))

/-- The guise of a stage with numbers that have moved on. -/
def Guise.later (history : List Event) : Guise where
  timers := id
  pending := List.map (Deferred.later k)
  inFlight := List.map (Call.aloft k)
  nextTimer n := n + k.timers
  clock := Clock.later k
  tickets n := n + k.tickets
  journal es := es.map (Event.later k) ++ history
  pending_nil := rfl
  journal_cons e es he := by
    cases e <;> first | rfl | cases he
  journal_dropped ds es := by
    simp [Event.later, Deferred.later, Call.later, List.map_reverse, Function.comp_def]

end

variable {k : Shift} {history : List Event} {s s' : Stage}

/-! ## Queues -/

namespace Clock

variable {t u : Timer} {c c' : Clock} {target : Duration}

theorem before_later : (t.later k).before (u.later k) = t.before u := by
  simp [Timer.before, Timer.later]

theorem insert_later (q : List Timer) :
    insert (t.later k) (q.map (Timer.later k)) = (insert t q).map (Timer.later k) := by
  induction q with
  | nil => rfl
  | cons u q ih =>
      simp only [List.map_cons, insert, before_later]
      split
      · rfl
      · rw [ih]
        rfl

theorem schedule_later (id : Nat) (delay : Duration) :
    (c.later k).schedule (id + k.timers) delay = (c.schedule id delay).later k := by
  have htimer : (c.later k).timer (id + k.timers) delay = (c.timer id delay).later k := by
    simp only [timer, Clock.later, Timer.later, Nat.add_right_comm]
  unfold schedule
  rw [htimer]
  simp only [Clock.later, insert_later, Nat.add_right_comm]

theorem popDue?_later : (c.later k).popDue? (target + k.time) =
    (c.popDue? target).map fun p => (p.1.later k, p.2.later k) := by
  obtain ⟨now, seq, queue⟩ := c
  cases queue with
  | nil => rfl
  | cons t queue =>
      simp only [popDue?, Clock.later, List.map_cons, Timer.later, Nat.add_le_add_iff_right]
      split <;> rfl

end Clock

theorem lookup_aloft (inFlight : List (Nat × Call)) (timer : Nat) :
    (inFlight.map (Call.aloft k)).lookup (timer + k.timers) =
      (inFlight.lookup timer).map (Call.later k) := by
  induction inFlight with
  | nil => rfl
  | cons p inFlight ih =>
      obtain ⟨u, call⟩ := p
      by_cases h : timer = u
      · subst h
        simp [Call.aloft]
      · have hne : (timer + k.timers == u + k.timers) = false := by simpa using h
        have hne' : (timer == u) = false := by simpa using h
        simp only [List.map_cons, Call.aloft, List.lookup_cons, hne, hne']
        exact ih

theorem filter_aloft (inFlight : List (Nat × Call)) (timer : Nat) :
    (inFlight.map (Call.aloft k)).filter (fun (t, _) => t ≠ timer + k.timers) =
      (inFlight.filter fun (t, _) => t ≠ timer).map (Call.aloft k) := by
  rw [List.filter_map]
  congr 1
  refine List.filter_congr fun p _ => ?_
  simp [Call.aloft]

/-! ## Operations -/

namespace Stage

theorem schedule_later (timer : Nat) (delay : Duration) :
    (s.later k history).schedule (timer + k.timers) delay =
      (s.schedule timer delay).later k history := by
  unfold schedule
  have hclock := Clock.schedule_later (k := k) (c := s.clock) timer delay
  simp only [Stage.later, hclock]
  rfl

/-- A call under the next timer. -/
def board (call : Call) (s : Stage) : Stage :=
  { s with
    player.inFlight := s.player.inFlight ++ [(s.player.nextTimer, call)]
    player.nextTimer := s.player.nextTimer + 1 }

theorem launch_keep {d : Deferred Call} (hdelay : d.delay ≠ 0) (hkeep : s.player.timers = .keep) :
    s.launch d = (((s.board d.call).record (.launched d.call.ticket s.player.nextTimer)).schedule
      s.player.nextTimer d.delay, []) := by
  unfold launch
  rw [if_neg hdelay, hkeep]
  rfl

theorem launch_discard {d : Deferred Call} (hdelay : d.delay ≠ 0)
    (hdiscard : s.player.timers = .discard) :
    s.launch d = (s.record (.dropped d.call.ticket), []) := by
  unfold launch
  rw [if_neg hdelay, hdiscard]

theorem board_later (call : Call) :
    (s.later k history).board (call.later k) = (s.board call).later k history := by
  simp only [board, Stage.later, Player.later, List.map_append, Call.aloft, List.map_cons,
    List.map_nil, Nat.add_right_comm]

theorem launch_later (d : Deferred Call) :
    (s.later k history).launch (d.later k) = laterAll k history (s.launch d) := by
  by_cases hdelay : d.delay = 0
  · unfold launch
    rw [if_pos hdelay, if_pos (show (d.later k).delay = 0 from hdelay)]
    rfl
  · have hdelay' : (d.later k).delay ≠ 0 := hdelay
    cases htimers : s.player.timers with
    | discard =>
        rw [launch_discard hdelay htimers,
          launch_discard (s := s.later k history) hdelay' htimers]
        rfl
    | keep =>
        rw [launch_keep hdelay htimers, launch_keep (s := s.later k history) hdelay' htimers]
        have hboard : (s.later k history).board (d.later k).call =
            (s.board d.call).later k history := board_later d.call
        rw [hboard]
        have hschedule (t : Stage) :
            (t.later k history).schedule (s.player.nextTimer + k.timers) d.delay =
              (t.schedule s.player.nextTimer d.delay).later k history := schedule_later _ _
        exact congrArg (·, [])
          (hschedule ((s.board d.call).record (.launched d.call.ticket s.player.nextTimer)))

theorem request_later (label : String) (delay : Duration) (body : Routine) :
    (s.later k history).request label delay body =
      laterAll k history (s.request label delay body) := by
  have hticketed : (s.later k history).ticketed delay = (s.ticketed delay).later k history := by
    simp only [ticketed, Stage.later, record, Nat.add_right_comm]
    rfl
  have hasked : (s.later k history).asked label delay body = (s.asked label delay body).later k :=
    rfl
  by_cases hs : s.status = .playing
  · rw [request_playing hs, request_playing (show (s.later k history).status = .playing from hs),
      hticketed, hasked]
    exact launch_later _
  · rw [request_deferred hs, request_deferred (show (s.later k history).status ≠ .playing from hs),
      hticketed, hasked]
    simp [laterAll, mapPlayback, Stage.later, Player.later, Playback.later, Playback.push, ticketed,
      record, Event.later]

theorem fire_later (timer : Nat) :
    (s.later k history).fire (timer + k.timers) = laterAll k history (s.fire timer) := by
  have hlookup : (s.later k history).player.inFlight.lookup (timer + k.timers) =
      (s.player.inFlight.lookup timer).map (Call.later k) := lookup_aloft _ _
  have hfilter := filter_aloft (k := k) s.player.inFlight timer
  cases h : s.player.inFlight.lookup timer with
  | none =>
      rw [h] at hlookup
      simp only [fire, h, hlookup, Option.map_none]
      rfl
  | some call =>
      rw [h] at hlookup
      rw [fire_eq h, fire_eq hlookup]
      simp only [Stage.later, Player.later, hfilter]
      rfl

end Stage

/-! ## Discretion -/

/-- Whether an operation handles no timers. The operations of the tooltip count as `tips` says. -/
def Operation.isDiscreet (tips : Bool) : Operation → Bool
  | .fire _ | .schedule .. => false
  | .tooltip _ | .align | .resetTooltip => tips
  | _ => true

/-- What can be seen without looking at the time. -/
def Snapshot.undated (s : Snapshot) : Snapshot := { s with now := 0, nextDue := none }

/-- A routine that neither looks at the time nor handles timers, and whose calls do not either. -/
inductive Routine.Discreet (tips : Bool) : Routine → Prop where
  | done : Discreet tips .done
  | look {next : Snapshot → Routine} :
      (∀ s, next s = next s.undated) → (∀ s, Discreet tips (next s)) → Discreet tips (.look next)
  | perform {op : Operation} {next : Reply → Routine} :
      op.isDiscreet tips = true → (∀ reply, Discreet tips (next reply)) →
      Discreet tips (.perform op next)
  | request {label : String} {delay : Duration} {body next : Routine} :
      Discreet tips body → Discreet tips next → Discreet tips (.request label delay body next)
  | invoke {name : String} {next : Routine} :
      Discreet tips next → Discreet tips (.invoke name next)

/-- The routines of a frame are discreet. -/
def Frame.Discreet (tips : Bool) : Frame → Prop
  | .run r => r.Discreet tips
  | .clock _ _ next | .answer _ next => ∀ reply, (next reply).Discreet tips
  | .replay | .notify _ => True

/-- The calls of a stage are discreet, and so are its routines. -/
structure Stage.Discreet (tips : Bool) (s : Stage) : Prop where
  pending : ∀ d ∈ s.pending, d.call.body.Discreet tips
  inFlight : ∀ p ∈ s.player.inFlight, p.2.body.Discreet tips
  routines : ∀ name r, s.routines name = some r → r.Discreet tips

/-- Nobody looks at the time or handles timers. -/
structure Machine.Discreet (tips : Bool) (m : Machine) : Prop where
  stage : m.stage.Discreet tips
  frames : ∀ f ∈ m.frames, f.Discreet tips

variable {tips : Bool}

/-! ## Steps -/

namespace Stage

theorem pending_later : (s.later k history).pending.length = s.pending.length := List.length_map _

theorem inFlight_later :
    (s.later k history).player.inFlight.length = s.player.inFlight.length := List.length_map _

theorem snapshot_later : (s.later k history).snapshot.undated = s.snapshot.undated := by
  have hscheduled : (s.later k history).clock.queue.length = s.clock.queue.length :=
    List.length_map _
  simp only [snapshot, Snapshot.undated, pending_later, inFlight_later, hscheduled]
  rfl

theorem summary_later : (s.later k history).summary = s.summary := by
  unfold summary
  rw [pending_later, inFlight_later]
  rfl

/-- What a heedless operation leaves to be done has no number. -/
theorem perform_frames_later {op : Operation} (hop : op.isHeedless = true)
    (next : Reply → Routine) :
    (s.perform op next).2.map (Frame.later k) = (s.perform op next).2 := by
  obtain ⟨time, rfl⟩ | ⟨r, reply, hdeed, hperform⟩ := s.perform_deed op next
  · cases hop
  · have hr : r.2.map (Frame.later k) = r.2 := by
      cases hdeed with
      | fired hfire =>
          subst hfire
          cases hop
      | commanded _ _ =>
          rw [command_frames]
          split <;> rfl
      | _ => rfl
    rw [hperform, List.map_append, hr]
    rfl

/-- What is done is done later in the same way. -/
theorem perform_later {op : Operation} (hop : op.isDiscreet tips = true) (next : Reply → Routine) :
    (s.later k history).perform op next = laterAll k history (s.perform op next) := by
  by_cases hheedless : op.isHeedless = true
  · rw [laterAll, perform_frames_later hheedless]
    exact (Guise.later k history).perform hheedless next
  · cases op with
    | fire timer => cases hop
    | schedule timer delay => cases hop
    | elapse time =>
        have htarget : s.clock.now + k.time + time = s.clock.now + time + k.time :=
          Nat.add_right_comm _ _ _
        show (s.later k history, [Frame.clock (s.clock.now + k.time + time) 0 next]) = _
        rw [htarget]
        rfl
    | ask query =>
        cases query with
        | summary =>
            simp only [perform, answer, summary_later]
            rfl
        | _ => exact absurd rfl hheedless
    | _ => exact absurd rfl hheedless

end Stage

namespace Machine

/-- A machine whose numbers have moved on, after a history of its own. -/
def later (k : Shift) (history : List Event) (m : Machine) : Machine :=
  ⟨m.stage.later k history, m.frames.map (Frame.later k)⟩

theorem follow_later (r : Stage × List Frame) (rest : List Frame) :
    follow (Stage.laterAll k history r) (rest.map (Frame.later k)) =
      (follow r rest).later k history := by
  simp only [follow, later, Stage.laterAll, List.map_append]

theorem stepRoutine_later {r : Routine} (hr : r.Discreet tips) (rest : List Frame) :
    stepRoutine (s.later k history) (rest.map (Frame.later k)) r =
      (stepRoutine s rest r).later k history := by
  cases hr with
  | done => rfl
  | @look next hnext _ =>
      have hsame : next (s.later k history).snapshot = next s.snapshot := by
        rw [hnext, Stage.snapshot_later, ← hnext]
      simp only [stepRoutine, hsame]
      rfl
  | perform hop _ =>
      simp only [stepRoutine, Stage.perform_later hop]
      exact follow_later _ _
  | request _ _ =>
      simp only [stepRoutine, Stage.request_later]
      exact follow_later _ (.run _ :: rest)
  | @invoke name next _ =>
      have hroutines : (s.later k history).routines name = s.routines name := rfl
      simp only [stepRoutine, hroutines]
      cases s.routines name <;> rfl

theorem stepReplay_later (rest : List Frame) :
    stepReplay (s.later k history) (rest.map (Frame.later k)) =
      (stepReplay s rest).later k history := by
  have hstatus : (s.later k history).status = s.status := rfl
  have hpop : (s.later k history).player.playback.pop? =
      s.player.playback.pop?.map fun p => (p.1.later k, p.2.later k) := by
    show (s.player.playback.later k).pop? = _
    simp only [Playback.pop?, Playback.later]
    cases s.player.playback.pending <;> rfl
  unfold stepReplay
  rw [hstatus, hpop]
  cases s.status with
  | idle => rfl
  | paused => rfl
  | playing =>
      cases s.player.playback.pop? with
      | none => rfl
      | some due =>
          obtain ⟨d, playback⟩ := due
          have hlaunch (t : Stage) : follow ((t.later k history).launch (d.later k))
              ((Frame.replay :: rest).map (Frame.later k)) =
                (follow (t.launch d) (.replay :: rest)).later k history := by
            rw [Stage.launch_later]
            exact follow_later _ _
          exact hlaunch
            (({ s with player := { s.player with playback } }).record (.replayed d.call.ticket))

theorem stepClock_later (target : Duration) (fired : Nat) (next : Reply → Routine)
    (rest : List Frame) :
    stepClock (target + k.time) fired next (s.later k history) (rest.map (Frame.later k)) =
      (stepClock target fired next s rest).later k history := by
  have hpop : (s.later k history).clock.popDue? (target + k.time) =
      (s.clock.popDue? target).map fun p => (p.1.later k, p.2.later k) := Clock.popDue?_later
  unfold stepClock
  rw [hpop]
  cases s.clock.popDue? target with
  | none => rfl
  | some due =>
      obtain ⟨t, clock⟩ := due
      have hfire (u : Stage) : follow ((u.later k history).fire (t.id + k.timers))
          ((Frame.clock target (fired + 1) next :: rest).map (Frame.later k)) =
            (follow (u.fire t.id) (.clock target (fired + 1) next :: rest)).later k history := by
        rw [Stage.fire_later]
        exact follow_later _ _
      exact hfire (s.tick t clock)

/-- **A step is done later in the same way.** -/
theorem step_later {m : Machine} (h : m.Discreet tips) :
    (m.later k history).step = m.step.map (later k history) := by
  obtain ⟨s, frames⟩ := m
  cases frames with
  | nil => rfl
  | cons f rest =>
      have hf := h.frames f List.mem_cons_self
      cases f with
      | run r => exact congrArg some (stepRoutine_later hf rest)
      | replay => exact congrArg some (stepReplay_later rest)
      | notify notice => rfl
      | clock target fired next => exact congrArg some (stepClock_later target fired next rest)
      | answer reply next => rfl

end Machine

/-! ## Discretion is kept -/

namespace Stage

theorem Discreet.congr (h : s.Discreet tips) (hpending : s'.pending = s.pending)
    (hinFlight : s'.player.inFlight = s.player.inFlight) (hroutines : s'.routines = s.routines) :
    s'.Discreet tips := by
  refine ⟨?_, ?_, ?_⟩
  · rw [hpending]
    exact h.pending
  · rw [hinFlight]
    exact h.inFlight
  · rw [hroutines]
    exact h.routines

theorem Discreet.command (h : s.Discreet tips) (c : Command) :
    (s.command c).1.Discreet tips ∧ ∀ f ∈ (s.command c).2, f.Discreet tips := by
  constructor
  · refine ⟨?_, ?_, ?_⟩
    · rw [command_pending]
      split
      · exact fun d hd => absurd hd List.not_mem_nil
      · exact h.pending
    · rw [(command_keeps c s).1]
      exact h.inFlight
    · have hroutines : (s.command c).1.routines = s.routines := by
        rw [command_eq]
        unfold carryOut
        split <;> rfl
      rw [hroutines]
      exact h.routines
  · rw [command_frames]
    split <;> simp [Frame.Discreet]

theorem Discreet.launch (h : s.Discreet tips) {d : Deferred Call} (hd : d.call.body.Discreet tips) :
    (s.launch d).1.Discreet tips ∧ ∀ f ∈ (s.launch d).2, f.Discreet tips := by
  constructor
  · unfold Stage.launch
    split
    · exact h.congr rfl rfl rfl
    · split
      · exact h.congr rfl rfl rfl
      · refine ⟨h.pending, ?_, h.routines⟩
        intro p hp
        rcases List.mem_append.1 hp with hp | hp
        · exact h.inFlight p hp
        · rw [List.mem_singleton.1 hp]
          exact hd
  · rw [launch_frames]
    split
    · intro f hf
      rw [List.mem_singleton.1 hf]
      exact hd
    · exact fun f hf => absurd hf List.not_mem_nil

theorem Discreet.request (h : s.Discreet tips) (label : String) (delay : Duration) {body : Routine}
    (hbody : body.Discreet tips) :
    (s.request label delay body).1.Discreet tips ∧
      ∀ f ∈ (s.request label delay body).2, f.Discreet tips := by
  have hticketed : (s.ticketed delay).Discreet tips := h.congr rfl rfl rfl
  by_cases hs : s.status = .playing
  · rw [request_playing hs]
    exact hticketed.launch hbody
  · rw [request_deferred hs]
    refine ⟨⟨?_, h.inFlight, h.routines⟩, fun f hf => absurd hf List.not_mem_nil⟩
    intro d hd
    rcases List.mem_append.1 hd with hd | hd
    · exact h.pending d hd
    · rw [List.mem_singleton.1 hd]
      exact hbody

theorem Discreet.fire (h : s.Discreet tips) (timer : Nat) :
    (s.fire timer).1.Discreet tips ∧ ∀ f ∈ (s.fire timer).2, f.Discreet tips := by
  cases hlookup : s.player.inFlight.lookup timer with
  | none =>
      simp only [Stage.fire, hlookup]
      exact ⟨h, fun f hf => absurd hf List.not_mem_nil⟩
  | some call =>
      rw [fire_eq hlookup]
      obtain ⟨before, after, hsplit, -⟩ := List.lookup_eq_some_iff.1 hlookup
      have hmem : (timer, call) ∈ s.player.inFlight := by
        rw [hsplit]
        exact List.mem_append_right before List.mem_cons_self
      refine ⟨⟨h.pending, ?_, h.routines⟩, ?_⟩
      · intro p hp
        exact h.inFlight p (List.mem_filter.1 hp).1
      · intro f hf
        rw [List.mem_singleton.1 hf]
        exact h.inFlight _ hmem

theorem Discreet.touched (h : s.Discreet tips) (ht : s.Touched s') : s'.Discreet tips := by
  cases ht <;> exact h.congr rfl rfl rfl

theorem Discreet.perform (h : s.Discreet tips) {op : Operation} {next : Reply → Routine}
    (hnext : ∀ reply, (next reply).Discreet tips) :
    (s.perform op next).1.Discreet tips ∧ ∀ f ∈ (s.perform op next).2, f.Discreet tips := by
  obtain ⟨time, rfl⟩ | ⟨r, reply, hdeed, hperform⟩ := s.perform_deed op next
  · refine ⟨h, fun f hf => ?_⟩
    rw [List.mem_singleton.1 hf]
    exact hnext
  · have hr : r.1.Discreet tips ∧ ∀ f ∈ r.2, f.Discreet tips := by
      cases hdeed with
      | touched ht _ => exact ⟨h.touched ht, fun f hf => absurd hf List.not_mem_nil⟩
      | moved cursor ht _ =>
          exact ⟨(h.touched ht).congr rfl rfl rfl, fun f hf => absurd hf List.not_mem_nil⟩
      | fired _ => exact h.fire _
      | commanded ht _ => exact (h.touched ht).command _
      | _ => exact ⟨h.congr rfl rfl rfl, fun f hf => absurd hf List.not_mem_nil⟩
    rw [hperform]
    refine ⟨hr.1, fun f hf => ?_⟩
    rcases List.mem_append.1 hf with hf | hf
    · exact hr.2 f hf
    · rw [List.mem_singleton.1 hf]
      exact hnext

end Stage

namespace Machine

theorem Discreet.follow {r : Stage × List Frame} {rest : List Frame}
    (hr : r.1.Discreet tips ∧ ∀ f ∈ r.2, f.Discreet tips) (hrest : ∀ f ∈ rest, f.Discreet tips) :
    (follow r rest).Discreet tips :=
  ⟨hr.1, fun f hf => (List.mem_append.1 hf).elim (hr.2 f) (hrest f)⟩

/-- What a routine goes on with without an effect is discreet. -/
theorem stepRoutine_discreet {r : Routine} {rest : List Frame} (hs : s.Discreet tips)
    (hr : r.Discreet tips) (hcontrol : r.isControl = true) (hrest : ∀ f ∈ rest, f.Discreet tips) :
    (stepRoutine s rest r).Discreet tips := by
  cases hr with
  | done => exact ⟨hs, hrest⟩
  | look _ hnext => exact ⟨hs, List.forall_mem_cons.2 ⟨hnext _, hrest⟩⟩
  | perform _ _ => cases hcontrol
  | request _ _ => cases hcontrol
  | @invoke name next hnext =>
      have hrun : (Frame.run next).Discreet tips := hnext
      have hrest := List.forall_mem_cons.2 ⟨hrun, hrest⟩
      cases hbody : s.routines name with
      | none =>
          simp only [stepRoutine, hbody]
          exact ⟨hs, hrest⟩
      | some body =>
          simp only [stepRoutine, hbody]
          exact ⟨hs, List.forall_mem_cons.2 ⟨hs.routines name body hbody, hrest⟩⟩

/-- **Discretion is kept.** -/
theorem step_discreet {m m' : Machine} (h : m.Discreet tips) (hm : m.step = some m') :
    m'.Discreet tips := by
  obtain ⟨f, rest, p, hframes, rfl, hplay⟩ := step_play hm
  obtain ⟨hf, hrest⟩ := List.forall_mem_cons.1 (hframes ▸ h.frames)
  cases hplay with
  | @control r rs hr =>
      have hstep : m.step = some (stepRoutine m.stage rest r) := by
        unfold step
        rw [hframes]
      rw [← Option.some.inj (hstep.symm.trans hm)]
      exact stepRoutine_discreet h.stage hf hr hrest
  | performed op next =>
      cases hf with
      | perform _ hnext => exact .follow (h.stage.perform hnext) hrest
  | requested label delay body next =>
      cases hf with
      | request hbody hnext =>
          obtain ⟨hs, hfs⟩ := h.stage.request label delay hbody
          refine .follow ⟨hs, List.forall_mem_append.2 ⟨hfs, ?_⟩⟩ hrest
          exact List.forall_mem_singleton.2 hnext
  | @replayed d ds _ hpending =>
      have hd := h.stage.pending d (hpending ▸ List.mem_cons_self)
      have hdequeue : (m.stage.dequeue d ds).Discreet tips :=
        ⟨fun e he => h.stage.pending e (hpending ▸ List.mem_cons_of_mem d he), h.stage.inFlight,
          h.stage.routines⟩
      obtain ⟨hs, hfs⟩ := hdequeue.launch hd
      exact .follow ⟨hs, List.forall_mem_append.2 ⟨hfs, List.forall_mem_singleton.2 hf⟩⟩ hrest
  | drained _ => exact ⟨h.stage, hrest⟩
  | notified notice => exact ⟨h.stage.congr rfl rfl rfl, hrest⟩
  | @popped target t clock fired next _ =>
      have htick : (m.stage.tick t clock).Discreet tips := h.stage.congr rfl rfl rfl
      obtain ⟨hs, hfs⟩ := htick.fire t.id
      exact .follow ⟨hs, List.forall_mem_append.2 ⟨hfs, List.forall_mem_singleton.2 hf⟩⟩ hrest
  | reached fired next _ =>
      exact ⟨h.stage.congr rfl rfl rfl, List.forall_mem_cons.2 ⟨hf, hrest⟩⟩
  | answered reply next =>
      exact ⟨h.stage.congr rfl rfl rfl, List.forall_mem_cons.2 ⟨hf reply, hrest⟩⟩

/-! ## What comes to an end -/

variable {fs : List Frame}

/-- A first step, and what it leads to, can be taken later as well. -/
theorem step_cons_later {f : Frame} {gs : List Frame} {s₁ : Stage}
    (hd : (⟨s, f :: fs⟩ : Machine).Discreet tips)
    (hstep : ∀ rest, (⟨s, f :: rest⟩ : Machine).step = some ⟨s₁, gs ++ rest⟩) (rest : List Frame) :
    (⟨s.later k history, f.later k :: rest⟩ : Machine).step =
      some ⟨s₁.later k history, gs.map (Frame.later k) ++ rest⟩ := by
  have hd' : (⟨s, [f]⟩ : Machine).Discreet tips :=
    ⟨hd.stage, List.forall_mem_singleton.2 (hd.frames f List.mem_cons_self)⟩
  have hlater : ((⟨s, [f]⟩ : Machine).later k history).step =
      (⟨s, [f]⟩ : Machine).step.map (later k history) := step_later hd'
  rw [hstep [], List.append_nil] at hlater
  exact step_append hlater rest

/-- What comes to an end does so later in the same way. -/
theorem Ends.later (h : Ends fs s s') (hd : (⟨s, fs⟩ : Machine).Discreet tips) :
    Ends (fs.map (Frame.later k)) (s.later k history) (s'.later k history) := by
  induction h with
  | nil s => exact .nil _
  | @cons f fs gs s s₁ s' hstep _ ih =>
      have hd₁ := step_discreet hd (hstep fs)
      refine .cons (step_cons_later hd hstep) ?_
      rw [← List.map_append]
      exact ih hd₁

/-- What comes to an end later does so sooner. -/
theorem Ends.sooner {t : Stage} (h : Ends (fs.map (Frame.later k)) (s.later k history) t)
    (hd : (⟨s, fs⟩ : Machine).Discreet tips) :
    ∃ s', t = s'.later k history ∧ Ends fs s s' := by
  generalize hgs : fs.map (Frame.later k) = gs at h
  generalize hu : s.later k history = u at h
  induction h generalizing fs s with
  | nil u =>
      obtain rfl := List.map_eq_nil_iff.1 hgs
      exact ⟨s, hu.symm, .nil s⟩
  | @cons g gs hs u u₁ t hstep _ ih =>
      cases fs with
      | nil => cases hgs
      | cons f fs =>
          obtain ⟨rfl, rfl⟩ := List.cons.inj hgs
          subst hu
          obtain ⟨s₁, fs₁, hstep₁⟩ := step_cons f s
          have hlater : (⟨s.later k history, [f.later k]⟩ : Machine).step =
              some ⟨s₁.later k history, fs₁.map (Frame.later k) ++ []⟩ :=
            step_cons_later hd hstep₁ []
          rw [hstep []] at hlater
          simp only [List.append_nil, Option.some.injEq, mk.injEq] at hlater
          obtain ⟨rfl, rfl⟩ := hlater
          obtain ⟨s', ht, hends⟩ := ih (step_discreet hd (hstep₁ fs)) List.map_append rfl
          exact ⟨s', ht, .cons hstep₁ hends⟩

end Machine

end Walkthrough
