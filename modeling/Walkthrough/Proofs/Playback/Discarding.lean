import Walkthrough.Proofs.Playback.Later
import Walkthrough.Proofs.Playback.Protocol

/-!
# A player that discards calls

A player may keep its calls with a delay in flight until the clock fires them, or discard them. If
the clock is never moved and nobody fires or schedules a timer, then no kept call is ever started,
and the two players differ only in what is in flight. To those who do not look at that, they are the
same.

* `Stage.discarding` — a stage whose calls in flight have been discarded instead.
* `Machine.Heedless` — nobody moves the clock, handles timers or looks at what is in flight.
* `launch_discarding`, `request_discarding`, `step_discarding` — what is done heedlessly is done in
  the same way where calls are discarded.
* `RunFrom.discarding`, `RunFrom.keeping` — a heedless run is one where calls are discarded, and the
  other way round.
-/

set_option autoImplicit false

namespace Walkthrough

/-! ## A stage where calls are discarded -/

/-- What is written down of an event where calls are discarded: no call is put in flight and no
timer is scheduled, but the call is given up. -/
def Event.discarded? : Event → Option Event
  | .launched ticket _ => some (.dropped ticket)
  | .scheduled .. => none
  | e => some e

/-- What shows of an event shows where calls are discarded. -/
theorem Event.shown?_discarded? (e : Event) : e.discarded?.bind shown? = e.shown? := by
  cases e <;> rfl

/-- The guise of a stage where calls are discarded. -/
def Guise.discarding : Guise where
  timers _ := .discard
  pending := id
  inFlight _ := []
  nextTimer _ := 0
  clock c := { c with seq := 0, queue := [] }
  tickets := id
  journal := List.filterMap Event.discarded?
  pending_nil := rfl
  journal_cons e es he := by
    cases e <;> first | rfl | cases he
  journal_dropped ds es := by
    simp [Event.discarded?, List.filterMap_append, List.filterMap_reverse, Function.comp_def]

namespace Stage

/-- A stage whose calls in flight have been discarded instead. -/
def discarding (s : Stage) : Stage := Guise.discarding.stage s

/-- The same for what a step leaves. -/
def discardingAll (r : Stage × List Frame) : Stage × List Frame := Guise.discarding.after r

variable {s s' : Stage}

/-- Where calls are discarded, a call with a delay is given up and not put in flight. -/
theorem launch_discarding (d : Deferred Call) :
    s.discarding.launch d = discardingAll (s.launch d) := by
  by_cases hdelay : d.delay = 0
  · unfold launch
    rw [if_pos hdelay, if_pos hdelay]
    rfl
  · rw [launch_discard (s := s.discarding) hdelay rfl]
    cases htimers : s.player.timers with
    | discard =>
        rw [launch_discard hdelay htimers]
        rfl
    | keep =>
        rw [launch_keep hdelay htimers]
        rfl

theorem request_discarding (label : String) (delay : Duration) (body : Routine) :
    s.discarding.request label delay body = discardingAll (s.request label delay body) := by
  by_cases hs : s.status = .playing
  · rw [request_playing hs, request_playing (show s.discarding.status = .playing from hs)]
    exact launch_discarding (s := s.ticketed delay) _
  · rw [request_deferred hs, request_deferred (show s.discarding.status ≠ .playing from hs)]
    rfl

end Stage

/-! ## Nobody heeds the timers -/

/-- Whether a frame neither moves the clock nor handles timers, and does not look at what is in
flight. The timers of the clock tell as much as the calls that wait for them. -/
def Frame.Heedless (s : Stage) : Frame → Prop
  | .run (.look next) =>
    ∀ inFlight scheduled nextDue,
      next { s.snapshot with inFlight, scheduled, nextDue } = next s.snapshot
  | .run (.perform op _) => op.isHeedless = true
  | .clock .. => False
  | _ => True

theorem Frame.heedless_discarding {f : Frame} {s : Stage} :
    f.Heedless s.discarding ↔ f.Heedless s := by
  cases f with
  | run r =>
      cases r with
      | look next =>
          have hsnapshot : s.discarding.snapshot =
              { s.snapshot with inFlight := 0, scheduled := 0, nextDue := none } := rfl
          simp only [Heedless, hsnapshot]
          -- Both sides speak of all numbers, but compare them with different ones.
          constructor
          · intro h n k due
            have hsame := h s.snapshot.inFlight s.snapshot.scheduled s.snapshot.nextDue
            exact (h n k due).trans hsame.symm
          · intro h n k due
            exact (h n k due).trans (h 0 0 none).symm
      | _ => rfl
  | _ => rfl

namespace Machine

/-- A machine whose calls in flight have been discarded instead. -/
def discarding (m : Machine) : Machine := ⟨m.stage.discarding, m.frames⟩

/-- The next step is heedless. -/
def Heedless (m : Machine) : Prop := ∀ f ∈ m.frames.head?, f.Heedless m.stage

theorem heedless_discarding {m : Machine} : m.discarding.Heedless ↔ m.Heedless :=
  forall₂_congr fun _ _ => Frame.heedless_discarding

variable {s : Stage}

theorem stepRoutine_discarding {r : Routine} (hr : (Frame.run r).Heedless s) (rest : List Frame) :
    stepRoutine s.discarding rest r = (stepRoutine s rest r).discarding := by
  cases r with
  | done => rfl
  | look next =>
      have hsame : next s.discarding.snapshot = next s.snapshot := hr 0 0 none
      simp only [stepRoutine, hsame]
      rfl
  | perform op next =>
      have hperform : s.discarding.perform op next = Stage.discardingAll (s.perform op next) :=
        Guise.discarding.perform hr next
      simp only [stepRoutine, hperform]
      rfl
  | request label delay body next =>
      simp only [stepRoutine, Stage.request_discarding]
      rfl
  | invoke name next =>
      have hroutines : s.discarding.routines name = s.routines name := rfl
      simp only [stepRoutine, hroutines]
      cases s.routines name <;> rfl

theorem stepReplay_discarding (rest : List Frame) :
    stepReplay s.discarding rest = (stepReplay s rest).discarding := by
  have hstatus : s.discarding.status = s.status := rfl
  have hpop : s.discarding.player.playback.pop? = s.player.playback.pop? := rfl
  unfold stepReplay
  rw [hstatus, hpop]
  cases s.status with
  | idle => rfl
  | paused => rfl
  | playing =>
      cases s.player.playback.pop? with
      | none => rfl
      | some due =>
          obtain ⟨d, playback⟩ := due
          exact congrArg (follow · (.replay :: rest)) <| Stage.launch_discarding
            (s := { s with player.playback := playback }.record (.replayed d.call.ticket)) d

/-- **A heedless step is taken in the same way where calls are discarded.** -/
theorem step_discarding {m : Machine} (h : m.Heedless) :
    m.discarding.step = m.step.map discarding := by
  obtain ⟨s, frames⟩ := m
  cases frames with
  | nil => rfl
  | cons f rest =>
      have hf : f.Heedless s := h f rfl
      cases f with
      | run r => exact congrArg some (stepRoutine_discarding hf rest)
      | replay => exact congrArg some (stepReplay_discarding rest)
      | notify notice => rfl
      | clock target fired next => exact hf.elim
      | answer reply next => rfl

/-! ## Runs -/

variable {s₀ : Stage} {past : List Machine} {m m' : Machine}

/-- A heedless run is one where calls are discarded. -/
theorem RunFrom.discarding (h : RunFrom s₀ past m) (hpast : ∀ x ∈ past, x.Heedless) :
    RunFrom s₀.discarding (past.map Machine.discarding) m.discarding := by
  induction h with
  | start => exact .start
  | host r _ ih => exact (ih hpast).host r
  | user text _ ih => exact (ih hpast).user text
  | @step past m m' _ hm ih =>
      obtain ⟨hpast, hlast⟩ := List.forall_mem_append.1 hpast
      have hstep := step_discarding (hlast m (List.mem_singleton_self m))
      rw [hm] at hstep
      rw [List.map_append]
      exact (ih hpast).step hstep

/-- A heedless run where calls are discarded is one where they are kept. -/
theorem RunFrom.keeping (h : RunFrom s₀.discarding past m) (hpast : ∀ x ∈ past, x.Heedless) :
    ∃ past' m', RunFrom s₀ past' m' ∧ past'.map Machine.discarding = past ∧ m'.discarding = m := by
  induction h with
  | start => exact ⟨[], ⟨s₀, []⟩, .start, rfl, rfl⟩
  | host r _ ih =>
      obtain ⟨past', ⟨s, frames⟩, hrun, hpast', hm'⟩ := ih hpast
      obtain ⟨rfl, rfl⟩ := Machine.mk.inj hm'
      exact ⟨past', _, hrun.host r, hpast', rfl⟩
  | user text _ ih =>
      obtain ⟨past', m', hrun, hpast', rfl⟩ := ih hpast
      exact ⟨past', _, hrun.user text, hpast', rfl⟩
  | @step past m m₁ _ hm ih =>
      obtain ⟨hpast, hlast⟩ := List.forall_mem_append.1 hpast
      obtain ⟨past', m', hrun, rfl, rfl⟩ := ih hpast
      have hheedless := heedless_discarding.1 (hlast _ (List.mem_singleton_self _))
      rw [step_discarding hheedless] at hm
      obtain ⟨m₁', hm', rfl⟩ := Option.map_eq_some_iff.1 hm
      exact ⟨past' ++ [m'], m₁', hrun.step hm', List.map_append, rfl⟩

end Machine

end Walkthrough
