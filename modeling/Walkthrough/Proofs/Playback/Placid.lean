import Walkthrough.Proofs.Playback.History
import Walkthrough.Proofs.Playback.Later

/-!
# Frames that do not look at the queue

Some frames issue no command, fire no timer and do not look at how many calls wait. What such a
frame does while the session runs depends neither on the queue nor on the tickets, and it leaves the
queue as it is.

* `Stage.bare`, `Event.outcome?` — what a stage is and what an event says, whatever waits in the
  queue and whatever the tickets are.
* `Frame.Placid` — the frames; `Placid.of_bare`: it does not matter what waits.
* `Stage.Mirrors` — what is done to a stage, as far as it does not depend on the queue and the
  tickets; `launch_mirrors`, `perform_mirrors`: operations do the same to the bare stage.
* `step_mirrors` — so does every placid frame.
-/

set_option autoImplicit false

namespace Walkthrough

/-! ## What does not depend on the queue -/

/-- What an event says of the surface, the host, the clock and the calls, whatever their tickets
are. Nothing is said of the queue and of commands, nor by replies that say nothing. -/
def Event.outcome? : Event → Option Event
  | .issued .. | .requested .. | .deferred _ | .replayed _ | .replied .nothing => none
  | .dropped _ => some (.dropped 0)
  | .launched _ timer => some (.launched 0 timer)
  | .started _ label => some (.started 0 label)
  | e => some e

/-- A call without its ticket. -/
def Call.bare (c : Call) : Call := { c with ticket := 0 }

namespace Stage

/-- A stage without the queue, the tickets and the journal. -/
def bare (s : Stage) : Stage :=
  { s with
    player.playback.pending := []
    player.inFlight := s.player.inFlight.map fun p => (p.1, p.2.bare)
    tickets := 0
    journal := [] }

/-- What has happened so far, the earliest first. -/
def outcomes (s : Stage) : List Event := s.journal.reverse.filterMap Event.outcome?

variable {s t : Stage}

theorem status_of_bare (h : t.bare = s.bare) : t.status = s.status :=
  show t.bare.status = s.bare.status from congrArg Stage.status h

theorem bare_snapshot (s : Stage) : s.bare.snapshot = { s.snapshot with pending := 0 } := by
  simp only [snapshot, bare, status, cursor, pending, List.length_nil, List.length_map]

end Stage

namespace Frame

variable {f : Frame} {s t : Stage}

/-- Whether a frame does not look at how many calls wait. -/
def Overlooks (s : Stage) : Frame → Prop
  | .run (.look next) => ∀ n, next { s.snapshot with pending := n } = next s.snapshot
  | .run (.perform (.ask .summary) _) | .replay => False
  | _ => True

/-- A frame that issues no command, fires no timer and does not look at the queue. -/
structure Placid (s : Stage) (f : Frame) : Prop where
  order : f.order? s = none
  fires : f.fires? s = none
  overlooks : f.Overlooks s

theorem bare_order? (f : Frame) (s : Stage) : f.order? s.bare = f.order? s := by
  cases f with
  | run r => cases r <;> rfl
  | _ => rfl

theorem bare_fires? (f : Frame) (s : Stage) : f.fires? s.bare = f.fires? s := by
  cases f with
  | run r =>
      cases r with
      | perform op next => cases op <;> rfl
      | _ => rfl
  | _ => rfl

theorem overlooks_bare : f.Overlooks s.bare ↔ f.Overlooks s := by
  cases f with
  | run r =>
      cases r with
      | look next =>
          simp only [Overlooks, Stage.bare_snapshot]
          -- Both sides speak of all numbers of calls, but compare them with different ones.
          constructor
          · intro h n
            exact (h n).trans (h s.snapshot.pending).symm
          · intro h n
            exact (h n).trans (h 0).symm
      | perform op next =>
          cases op with
          | ask query => cases query <;> rfl
          | _ => rfl
      | _ => rfl
  | _ => rfl

theorem placid_iff :
    f.Placid s ↔ f.order? s = none ∧ f.fires? s = none ∧ f.Overlooks s :=
  ⟨fun ⟨horder, hfires, hoverlooks⟩ => ⟨horder, hfires, hoverlooks⟩,
    fun ⟨horder, hfires, hoverlooks⟩ => ⟨horder, hfires, hoverlooks⟩⟩

theorem placid_bare : f.Placid s.bare ↔ f.Placid s := by
  simp only [placid_iff, bare_order?, bare_fires?, overlooks_bare]

theorem Placid.of_bare (h : f.Placid s) (hbare : t.bare = s.bare) : f.Placid t := by
  rw [← placid_bare, hbare, placid_bare]
  exact h

end Frame

/-! ## What is done on a bare stage -/

namespace Stage

variable {s : Stage} {r r' : Stage × List Frame}

/-- What is done to the stage `s` and leads to `r`, leads to `r'` on a stage without a journal: the
same happens, the same is to be done next, and the stages are the same afterwards but for the queue
and the tickets. The queue and the status stay. -/
structure Mirrors (s : Stage) (r r' : Stage × List Frame) : Prop where
  bare : r.1.bare = { r'.1 with journal := [] }
  frames : r.2 = r'.2
  notes : s.Notes Event.outcome? r.1 r'.1.outcomes
  pending : r.1.pending = s.pending
  status : r.1.status = s.status

theorem Mirrors.append (h : s.Mirrors r r') (fs : List Frame) :
    s.Mirrors (r.1, r.2 ++ fs) (r'.1, r'.2 ++ fs) :=
  { h with frames := congrArg (· ++ fs) h.frames }

theorem Mirrors.same (s : Stage) (fs : List Frame) : s.Mirrors (s, fs) (s.bare, fs) :=
  ⟨rfl, rfl, ⟨[], rfl, rfl⟩, rfl, rfl⟩

/-- It does not matter that a ticket was given out before. -/
theorem Mirrors.of_ticketed {delay : Duration} (h : (s.ticketed delay).Mirrors r r') :
    s.Mirrors r r' :=
  { h with notes := (Notes.record Event.outcome? (.requested s.tickets delay) s).trans h.notes }

theorem launch_mirrors (d : Deferred Call) (s : Stage) :
    s.Mirrors (s.launch d) (s.bare.launch { d with call := d.call.bare }) := by
  by_cases hdelay : d.delay = 0
  · have hdelay' : { d with call := d.call.bare }.delay = 0 := hdelay
    unfold launch
    rw [if_pos hdelay, if_pos hdelay']
    exact ⟨rfl, rfl, ⟨[.started _ _], rfl, rfl⟩, rfl, rfl⟩
  · have hdelay' : { d with call := d.call.bare }.delay ≠ 0 := hdelay
    cases htimers : s.player.timers with
    | discard =>
        rw [launch_discard hdelay htimers, launch_discard (s := s.bare) hdelay' htimers]
        exact ⟨rfl, rfl, ⟨[.dropped _], rfl, rfl⟩, rfl, rfl⟩
    | keep =>
        rw [launch_keep hdelay htimers, launch_keep (s := s.bare) hdelay' htimers]
        refine ⟨?_, rfl, ⟨[.launched _ _, .scheduled _ _ _ _], rfl, rfl⟩, rfl, rfl⟩
        simp [bare, board, record, schedule, Call.bare]

theorem perform_mirrors {op : Operation} {next : Reply → Routine}
    (horders : s.orders op = none) (hfires : ∀ timer, op ≠ .fire timer)
    (hask : op ≠ .ask .summary) :
    s.Mirrors (s.perform op next) (s.bare.perform op next) := by
  cases op with
  | command c => cases horders
  | toggle => cases horders
  | fire timer => exact absurd rfl (hfires timer)
  | follow value =>
      have hflag : ¬ value ≠ s.player.flag := by
        intro h
        simp only [orders, if_pos h] at horders
        cases horders
      have hflag' : ¬ value ≠ s.bare.player.flag := hflag
      simp only [perform, follow_unchanged hflag, follow_unchanged hflag']
      exact ⟨rfl, rfl, ⟨[.flagged value], rfl, rfl⟩, rfl, rfl⟩
  | loadDocument document => exact ⟨rfl, rfl, ⟨[.surface _], rfl, rfl⟩, rfl, rfl⟩
  | schedule timer delay => exact ⟨rfl, rfl, ⟨[.scheduled _ _ _ _], rfl, rfl⟩, rfl, rfl⟩
  | load text =>
      cases h : Document.parse s.player.config.separator text with
      | error cause =>
          have h' : Document.parse s.bare.player.config.separator text = .error cause := h
          simp only [perform, load, h, h']
          exact ⟨rfl, rfl, ⟨[], rfl, rfl⟩, rfl, rfl⟩
      | ok document =>
          have h' : Document.parse s.bare.player.config.separator text = .ok document := h
          simp only [perform, load, h, h']
          exact ⟨rfl, rfl, ⟨[.surface _], rfl, rfl⟩, rfl, rfl⟩
  | tooltip input =>
      have hreceive :
          s.bare.tooltip.receive input s.bare.cursor s.bare.player.document.actions.length =
            s.tooltip.receive input s.cursor s.player.document.actions.length := rfl
      simp only [perform, receive_eq, hreceive]
      simp only [orders] at horders
      generalize s.tooltip.receive input s.cursor s.player.document.actions.length = r at horders ⊢
      rcases r with ⟨tooltip, _ | ⟨cursor | c⟩⟩
      · exact ⟨rfl, rfl, ⟨[], rfl, rfl⟩, rfl, rfl⟩
      · exact ⟨rfl, rfl, ⟨[], rfl, rfl⟩, rfl, rfl⟩
      · cases horders
  | align =>
      simp only [perform, align, show s.bare.view = s.view from rfl]
      rcases s.view with cause | _ | view
      · exact ⟨rfl, rfl, ⟨[], rfl, rfl⟩, rfl, rfl⟩
      · exact ⟨rfl, rfl, ⟨[], rfl, rfl⟩, rfl, rfl⟩
      · exact ⟨rfl, rfl, ⟨[], rfl, rfl⟩, rfl, rfl⟩
  | ask query =>
      cases query with
      | summary => exact absurd rfl hask
      | _ => exact ⟨rfl, rfl, ⟨[], rfl, rfl⟩, rfl, rfl⟩
  | _ => exact ⟨rfl, rfl, ⟨[], rfl, rfl⟩, rfl, rfl⟩

/-- While the session runs, a call is launched as it is requested. -/
theorem request_mirrors (hs : s.status = .playing) (label : String) (delay : Duration)
    (body : Routine) :
    s.Mirrors (s.request label delay body) (s.bare.launch ⟨delay, ⟨0, label, body⟩⟩) := by
  rw [request_playing hs]
  exact (launch_mirrors (s.asked label delay body) (s.ticketed delay)).of_ticketed

end Stage

namespace Machine

open Stage

/-- **A placid frame does the same on all stages that are the same but for the queue, the tickets
and the journal.** -/
theorem step_mirrors (f : Frame) (u : Stage) :
    ∃ r', ∀ s, s.bare = u → f.Placid s → s.status = .playing →
      ∃ r, (∀ rest, (⟨s, f :: rest⟩ : Machine).step = some (follow r rest)) ∧ s.Mirrors r r' := by
  cases f with
  | run r =>
      cases r with
      | done =>
          refine ⟨(u, []), ?_⟩
          rintro s rfl _ _
          exact ⟨(s, []), fun _ => rfl, .same s []⟩
      | look next =>
          refine ⟨(u, [.run (next u.snapshot)]), ?_⟩
          rintro s rfl hf _
          have hnext : next s.bare.snapshot = next s.snapshot := by
            rw [bare_snapshot]
            exact hf.overlooks 0
          rw [hnext]
          exact ⟨(s, [.run (next s.snapshot)]), fun _ => rfl, .same s _⟩
      | perform op next =>
          refine ⟨u.perform op next, ?_⟩
          rintro s rfl hf _
          refine ⟨s.perform op next, fun _ => rfl, perform_mirrors hf.order ?_ ?_⟩
          · rintro timer rfl
            cases hf.fires
          · rintro rfl
            exact hf.overlooks
      | request label delay body next =>
          refine ⟨((u.launch ⟨delay, ⟨0, label, body⟩⟩).1,
            (u.launch ⟨delay, ⟨0, label, body⟩⟩).2 ++ [.run next]), ?_⟩
          rintro s rfl _ hs
          refine ⟨_, fun rest => ?_, (request_mirrors hs label delay body).append [.run next]⟩
          simp only [step, stepRoutine, follow, List.append_assoc, List.singleton_append]
      | invoke name next =>
          cases hname : u.routines name with
          | none =>
              refine ⟨(u, [.run next]), ?_⟩
              rintro s rfl _ _
              have hname : s.routines name = none := hname
              refine ⟨(s, [.run next]), fun rest => ?_, .same s _⟩
              simp only [step, stepRoutine, hname]
              rfl
          | some body =>
              refine ⟨(u, [.run body, .run next]), ?_⟩
              rintro s rfl _ _
              have hname : s.routines name = some body := hname
              refine ⟨(s, [.run body, .run next]), fun rest => ?_, .same s _⟩
              simp only [step, stepRoutine, hname]
              rfl
  | replay => exact ⟨(u, []), fun s _ hf _ => hf.overlooks.elim⟩
  | notify notice =>
      refine ⟨(u.record (.notified notice), []), ?_⟩
      rintro s rfl _ _
      exact ⟨(s.record (.notified notice), []), fun _ => rfl,
        ⟨rfl, rfl, ⟨[.notified notice], rfl, rfl⟩, rfl, rfl⟩⟩
  | clock target fired next =>
      refine ⟨({ u with clock.now := target }, [.answer (.count fired) next]), ?_⟩
      rintro s rfl hf _
      have hpop : s.clock.popDue? target = none := by
        simpa only [Frame.fires?, Option.map_eq_none_iff] using hf.fires
      refine ⟨({ s with clock.now := target }, [.answer (.count fired) next]), fun rest => ?_,
        ⟨rfl, rfl, ⟨[], rfl, rfl⟩, rfl, rfl⟩⟩
      simp only [step, stepClock, hpop]
      rfl
  | answer reply next =>
      refine ⟨(u.record (.replied reply), [.run (next reply)]), ?_⟩
      rintro s rfl _ _
      exact ⟨(s.record (.replied reply), [.run (next reply)]), fun _ => rfl,
        ⟨rfl, rfl, ⟨[.replied reply], rfl, rfl⟩, rfl, rfl⟩⟩

end Machine

end Walkthrough
