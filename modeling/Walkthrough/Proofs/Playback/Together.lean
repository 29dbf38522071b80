import Walkthrough.Proofs.Playback.Again
import Walkthrough.Proofs.Playback.Discarding

/-!
# Two players together

A player that discards its calls with a delay goes through the same as one that keeps them, as long
as nobody moves the clock, handles timers or looks at what is in flight. What the one discards is in
flight on the other.

* `Machine.delays?` — the call with a delay that a step launches.
* `Turn.launching` — a turn launches at most one call, and leaves alone what is in flight otherwise.
* `step_aloft`, `step_dropped` — the call that a step delays is put in flight or given up.
* `RunFrom.aloft` — in flight are the calls that were delayed, in order.
* `Machine.Alongside`, `Machine.Together` — two machines at the same moment, and two runs that are
  so throughout.
* `discarding_together` — the two players are together.
-/

set_option autoImplicit false

namespace Walkthrough

/-! ## Calls with a delay -/

/-- The call, if it has a delay. -/
def Deferred.delayed? (d : Deferred Call) : Option Call := if d.delay = 0 then none else some d.call

/-- The call that a frame launches, if any. -/
def Frame.launches? (s : Stage) : Frame → Option (Deferred Call)
  | .run (.request label delay body _) =>
    if s.status = .playing then some (s.asked label delay body) else none
  | .replay => if s.status = .playing then s.pending.head? else none
  | _ => none

/-- The call with a delay that a machine launches in its next step, if any. -/
def Machine.delays? (m : Machine) : Option Call :=
  m.frames.head?.bind fun f => (f.launches? m.stage).bind Deferred.delayed?

/-- Calls under timers that are numbered in order. -/
def numbered (cs : List Call) : List (Nat × Call) := cs.zipIdx.map Prod.swap

theorem numbered_concat (cs : List Call) (c : Call) :
    numbered (cs ++ [c]) = numbered cs ++ [(cs.length, c)] := by
  simp [numbered, List.zipIdx_append]

namespace Frame

variable {f : Frame} {s : Stage}

theorem launches?_eq_none (hrequest : f.isRequest = false) (hreplay : f.isReplay = false) :
    f.launches? s = none := by
  cases f with
  | run r =>
      cases r with
      | request label delay body next => cases hrequest
      | _ => rfl
  | replay => cases hreplay
  | _ => rfl

theorem launches?_discarding (f : Frame) (s : Stage) :
    f.launches? s.discarding = f.launches? s := by
  cases f with
  | run r => cases r <;> rfl
  | _ => rfl

theorem Heedless.fires?_eq_none (h : f.Heedless s) : f.fires? s = none := by
  cases f with
  | run r =>
      cases r with
      | perform op next =>
          cases op with
          | fire timer => cases h
          | _ => rfl
      | _ => rfl
  | clock target fired next => exact h.elim
  | _ => rfl

end Frame

theorem Machine.delays?_discarding (m : Machine) : m.discarding.delays? = m.delays? := by
  simp only [Machine.delays?, Machine.discarding, Frame.launches?_discarding]

namespace Stage

/-- From `s` to `s'` the calls in flight stay, and no call is given up. -/
structure Retains (s s' : Stage) : Prop where
  timers : s'.player.timers = s.player.timers
  inFlight : s'.player.inFlight = s.player.inFlight
  nextTimer : s'.player.nextTimer = s.player.nextTimer
  notes : Notes Event.dropped? s s' []

/-- The calls `cs` are in flight, under timers that are numbered in order. -/
structure Aloft (cs : List Call) (s : Stage) : Prop where
  inFlight : s.player.inFlight = numbered cs
  nextTimer : s.player.nextTimer = cs.length

variable {s s' : Stage} {cs : List Call}

theorem Aside.retains (h : s.Aside s') : s.Retains s' := by
  have hsame := h.sameSession
  exact ⟨hsame.timers, hsame.inFlight, hsame.nextTimer,
    h.writes.notes fun e he => by cases e <;> first | rfl | cases he⟩

theorem Aloft.congr (h : s.Aloft cs) (hinFlight : s'.player.inFlight = s.player.inFlight)
    (hnextTimer : s'.player.nextTimer = s.player.nextTimer) : s'.Aloft cs :=
  ⟨hinFlight.trans h.inFlight, hnextTimer.trans h.nextTimer⟩

/-- Where calls are kept, a launched call is in flight if it has a delay. -/
theorem Aloft.launch (h : s.Aloft cs) (hkeep : s.player.timers = .keep) (d : Deferred Call) :
    (s.launch d).1.Aloft (cs ++ d.delayed?.toList) := by
  unfold Deferred.delayed?
  by_cases hdelay : d.delay = 0
  · unfold Stage.launch
    rw [if_pos hdelay, if_pos hdelay, Option.toList_none, List.append_nil]
    exact h.congr rfl rfl
  · rw [launch_keep hdelay hkeep, if_neg hdelay]
    constructor
    · show s.player.inFlight ++ [(s.player.nextTimer, d.call)] = numbered (cs ++ [d.call])
      rw [h.inFlight, h.nextTimer, numbered_concat]
    · show s.player.nextTimer + 1 = (cs ++ [d.call]).length
      rw [h.nextTimer, List.length_append, List.length_singleton]

/-- Where calls are discarded, a launched call is given up if it has a delay. -/
theorem launch_dropped (hdiscard : s.player.timers = .discard) (d : Deferred Call) :
    s.Notes Event.dropped? (s.launch d).1 (d.delayed?.toList.map Call.ticket) := by
  unfold Deferred.delayed?
  by_cases hdelay : d.delay = 0
  · unfold launch
    rw [if_pos hdelay, if_pos hdelay]
    exact .record Event.dropped? (.started d.call.ticket d.call.label) s
  · rw [launch_discard hdelay hdiscard, if_neg hdelay]
    exact .record Event.dropped? (.dropped d.call.ticket) s

end Stage

/-- A turn that fires no timer launches the call of its frame, or leaves alone what is in flight. It
gives up no other call, unless it issues a command. -/
theorem Turn.launching {f : Frame} {s s' : Stage} {fs : List Frame} (h : Turn f s s' fs)
    (hf : f.fires? s = none) :
    (∃ d t, f.launches? s = some d ∧ s.Retains t ∧ s' = (t.launch d).1) ∨
      f.launches? s = none ∧ s'.player.inFlight = s.player.inFlight ∧
        s'.player.nextTimer = s.player.nextTimer ∧
        (f.order? s = none → s.Notes Event.dropped? s' []) := by
  cases h with
  | aside ha _ hrequest hreplay =>
      have hreplay : f.isReplay = false := by
        simp only [List.all_cons, Bool.and_eq_true, Bool.not_eq_true'] at hreplay
        exact hreplay.1
      have hretains := ha.retains
      exact .inr ⟨Frame.launches?_eq_none hrequest hreplay, hretains.inFlight, hretains.nextTimer,
        fun _ => hretains.notes⟩
  | @commanded op next _ c _ s₀ horders ha _ =>
      obtain ⟨hinFlight, hnextTimer, _⟩ := Stage.command_keeps c s₀
      have hretains := ha.retains
      refine .inr ⟨rfl, hinFlight.trans hretains.inFlight, hnextTimer.trans hretains.nextTimer, ?_⟩
      intro hnone
      cases horders.symm.trans hnone
  | requested label delay body next =>
      have hretains : s.Retains (s.ticketed delay) :=
        ⟨rfl, rfl, rfl, .record Event.dropped? (.requested s.tickets delay) _⟩
      by_cases hs : s.status = .playing
      · exact .inl ⟨_, _, if_pos hs, hretains, by rw [Stage.request_playing hs]⟩
      · rw [Stage.request_deferred hs]
        exact .inr ⟨if_neg hs, rfl, rfl, fun _ => ⟨[.requested _ _, .deferred _], rfl, rfl⟩⟩
  | @replayed d ds _ hs hpending =>
      have hretains : s.Retains (s.dequeue d ds) :=
        ⟨rfl, rfl, rfl, .record Event.dropped? (.replayed d.call.ticket) _⟩
      refine .inl ⟨d, _, ?_, hretains, rfl⟩
      rw [Frame.launches?, if_pos hs, hpending]
      rfl
  | drained hempty =>
      refine .inr ⟨?_, rfl, rfl, fun _ => .of_journal_eq rfl⟩
      by_cases hs : s.status = .playing
      · rw [Frame.launches?, if_pos hs, hempty hs]
        rfl
      · exact if_neg hs
  | fired hfires _ _ _ _ => cases hfires.symm.trans hf

namespace Machine

variable {s₀ : Stage} {past : List Machine} {m m' x : Machine} {cs : List Call}

/-- The same of a heedless step, with the call that it delays. -/
theorem Heedless.launching (h : m.Heedless) (hm : m.step = some m') :
    (∃ d t, m.delays? = d.delayed? ∧ m.stage.Retains t ∧ m'.stage = (t.launch d).1) ∨
      m.delays? = none ∧ m'.stage.player.inFlight = m.stage.player.inFlight ∧
        m'.stage.player.nextTimer = m.stage.player.nextTimer ∧
        (m.order? = none → m.stage.Notes Event.dropped? m'.stage []) := by
  obtain ⟨f, rest, fs, hframes, _, hturn⟩ := step_turn hm
  have hf : f.Heedless m.stage := h f (by rw [hframes]; rfl)
  have hdelays : m.delays? = (f.launches? m.stage).bind Deferred.delayed? := by
    rw [delays?, hframes]
    rfl
  have horder : m.order? = none → f.order? m.stage = none := by
    rw [order?, hframes]
    exact Option.map_eq_none_iff.1
  rw [hdelays]
  obtain ⟨d, t, hd, hretains, hstage⟩ | ⟨hnone, hinFlight, hnextTimer, hnotes⟩ :=
    hturn.launching hf.fires?_eq_none
  · exact .inl ⟨d, t, by rw [hd]; rfl, hretains, hstage⟩
  · exact .inr ⟨by rw [hnone]; rfl, hinFlight, hnextTimer, hnotes ∘ horder⟩

/-- A heedless step puts in flight the call that it delays, where calls are kept. -/
theorem step_aloft (h : m.Heedless) (hkeep : m.stage.player.timers = .keep)
    (hm : m.step = some m') (hs : m.stage.Aloft cs) : m'.stage.Aloft (cs ++ m.delays?.toList) := by
  obtain ⟨d, t, hdelays, hretains, hstage⟩ | ⟨hdelays, hinFlight, hnextTimer, _⟩ := h.launching hm
  · rw [hdelays, hstage]
    exact (hs.congr hretains.inFlight hretains.nextTimer).launch (hretains.timers.trans hkeep) d
  · rw [hdelays, Option.toList_none, List.append_nil]
    exact hs.congr hinFlight hnextTimer

/-- A heedless step gives up the call that it delays, where calls are discarded. -/
theorem step_dropped (h : m.Heedless) (hdiscard : m.stage.player.timers = .discard)
    (hm : m.step = some m') (horder : m.order? = none) :
    m.events.filterMap Event.dropped? = m.delays?.toList.map Call.ticket := by
  apply events_filterMap hm
  obtain ⟨d, t, hdelays, hretains, hstage⟩ | ⟨hdelays, _, _, hnotes⟩ := h.launching hm
  · rw [hdelays, hstage]
    exact hretains.notes.trans (Stage.launch_dropped (hretains.timers.trans hdiscard) d)
  · rw [hdelays]
    exact hnotes horder

theorem RunFrom.timers (h : RunFrom s₀ past m) : m.stage.player.timers = s₀.player.timers := by
  refine h.stage_induction (P := fun s => s.player.timers = s₀.player.timers) rfl ?_
  exact fun _ _ _ _ hturn hs => hturn.upholds.timers.trans hs

/-- **In flight are the calls that were delayed**, in order. -/
theorem RunFrom.aloft (h : RunFrom s₀ past m) (hkeep : s₀.player.timers = .keep)
    (hs₀ : s₀.Aloft []) (hpast : ∀ x ∈ past, x.Heedless) :
    m.stage.Aloft (past.filterMap delays?) := by
  induction h with
  | start => exact hs₀
  | host r _ ih => exact ih hpast
  | user text _ ih => exact (ih hpast).congr rfl rfl
  | @step past m m' hrun hm ih =>
      obtain ⟨hpast, hlast⟩ := List.forall_mem_append.1 hpast
      have hheedless := hlast m (List.mem_singleton_self m)
      rw [filterMap_concat]
      exact step_aloft hheedless (hrun.timers.trans hkeep) hm (ih hpast)

/-- A run has been at every moment of its past. -/
theorem RunFrom.moment (h : RunFrom s₀ past m) {i : Nat} (hi : (past ++ [m])[i]? = some x) :
    RunFrom s₀ (past.take i) x := by
  rcases Nat.lt_or_ge i past.length with hlt | hge
  · rw [List.getElem?_append_left hlt] at hi
    obtain ⟨_, rfl⟩ := List.getElem?_eq_some_iff.1 hi
    have hsplit : past = past.take i ++ past[i] :: past.drop (i + 1) := by
      rw [← List.drop_eq_getElem_cons hlt, List.take_append_drop]
    exact (h.at hsplit).1
  · rw [List.getElem?_append_right hge, List.getElem?_singleton] at hi
    obtain ⟨_, hx⟩ := Option.ite_none_right_eq_some.1 hi
    obtain rfl := Option.some.inj hx
    rw [List.take_of_length_le hge]
    exact h

/-! ## Two players -/

/-- The machine `x` has no call in flight, and on the machine `y` the calls `cs` are. For the rest
the same has shown of both, the session is the same, and the same is still to be done. -/
structure Alongside (cs : List Call) (x y : Machine) : Prop where
  shown : x.stage.journal.filterMap Event.shown? = y.stage.journal.filterMap Event.shown?
  status : x.stage.status = y.stage.status
  cursor : x.stage.cursor = y.stage.cursor
  document : x.stage.player.document = y.stage.player.document
  pending : x.stage.pending = y.stage.pending
  surface : x.stage.surface = y.stage.surface
  frames : x.frames = y.frames
  grounded : x.stage.player.inFlight = []
  aloft : y.stage.player.inFlight = numbered cs

/-- Two runs are alongside at every moment: what is in flight on the one are the calls that were
delayed on the other so far. -/
structure Together (past : List Machine) (m : Machine) (past' : List Machine) (m' : Machine) :
    Prop where
  length : past.length = past'.length
  alongside : ∀ i x y, (past ++ [m])[i]? = some x → (past' ++ [m'])[i]? = some y →
    Alongside ((past.take i).filterMap delays?) x y

theorem discarding_alongside (h : m.stage.Aloft cs) : Alongside cs m.discarding m where
  shown := by
    show (m.stage.journal.filterMap Event.discarded?).filterMap Event.shown? = _
    rw [List.filterMap_filterMap]
    exact List.filterMap_congr fun e _ => e.shown?_discarded?
  status := rfl
  cursor := rfl
  document := rfl
  pending := rfl
  surface := rfl
  frames := rfl
  grounded := rfl
  aloft := h.inFlight

/-- A heedless run is together with the one where calls are discarded. -/
theorem RunFrom.together (h : RunFrom s₀ past m) (hkeep : s₀.player.timers = .keep)
    (hs₀ : s₀.Aloft []) (hpast : ∀ x ∈ past, x.Heedless) :
    Together (past.map Machine.discarding) m.discarding past m where
  length := List.length_map _
  alongside := by
    intro i x y hx hy
    have hmap : past.map Machine.discarding ++ [m.discarding] =
        (past ++ [m]).map Machine.discarding := by
      rw [List.map_append, List.map_singleton]
    rw [hmap, List.getElem?_map, hy, Option.map_some] at hx
    obtain rfl := Option.some.inj hx
    have hdelays : ((past.map Machine.discarding).take i).filterMap delays? =
        (past.take i).filterMap delays? := by
      rw [← List.map_take, List.filterMap_map]
      exact List.filterMap_congr fun z _ => z.delays?_discarding
    rw [hdelays]
    refine discarding_alongside ((h.moment hy).aloft hkeep hs₀ fun z hz => ?_)
    exact hpast z (List.mem_of_mem_take hz)

/-- **Discarding calls is like never moving the clock.** Of two new players under one configuration
one discards its calls with a delay, and the other one keeps them. To every run of the one in which
nobody moves the clock, handles timers or looks at what is in flight there is one of the other, step
by step together with it: the same shows, and status, cursor, document and queue are the same. At
every moment the one has no call in flight, and the other one has just the calls with a delay that
the one was to launch so far. These it has given up, and apart from its commands it has given up no
other ones. -/
theorem discarding_together {config : Config} {surface : Surface}
    {routines : String → Option Routine} {s₀ t₀ : Stage}
    (hs : Stage.new config surface .discard routines = .ok s₀)
    (ht : Stage.new config surface .keep routines = .ok t₀) :
    (∀ past m, RunFrom s₀ past m → (∀ x ∈ past, x.Heedless) →
      ∃ past' m', RunFrom t₀ past' m' ∧ Together past m past' m') ∧
    (∀ past' m', RunFrom t₀ past' m' → (∀ y ∈ past', y.Heedless) →
      ∃ past m, RunFrom s₀ past m ∧ Together past m past' m') ∧
    ∀ past m, RunFrom s₀ past m → ∀ x ∈ past, x.Heedless → x.order? = none →
      x.events.filterMap Event.dropped? = x.delays?.toList.map Call.ticket := by
  cases Stage.eq_of_new hs
  cases Stage.eq_of_new ht
  refine ⟨?_, ?_, ?_⟩
  · intro past m hrun hpast
    have hrun : RunFrom (Stage.discarding { player := { config }, surface, routines }) past m :=
      hrun
    obtain ⟨past', m', hrun', rfl, rfl⟩ := hrun.keeping hpast
    refine ⟨past', m', hrun', hrun'.together rfl ⟨rfl, rfl⟩ fun y hy => ?_⟩
    exact heedless_discarding.1 (hpast _ (List.mem_map_of_mem hy))
  · intro past' m' hrun hpast
    exact ⟨_, _, hrun.discarding hpast, hrun.together rfl ⟨rfl, rfl⟩ hpast⟩
  · intro past m hrun x hx hheedless horder
    obtain ⟨before, after, hpast⟩ := List.append_of_mem hx
    obtain ⟨hrun', x', hstep⟩ := hrun.at hpast
    exact step_dropped hheedless hrun'.timers hstep horder

theorem Together.last {past' : List Machine} (h : Together past m past' m') :
    Alongside (past.filterMap delays?) m m' := by
  have hm : (past ++ [m])[past.length]? = some m := List.getElem?_concat_length
  have hm' : (past' ++ [m'])[past.length]? = some m' := by
    rw [h.length]
    exact List.getElem?_concat_length
  have halongside := h.alongside _ m m' hm hm'
  rwa [List.take_length] at halongside

end Machine

/-! ## An example -/

/-- A host that requests a call with a delay while the session runs, and another one during a pause.
-/
def reminders : Routine :=
  .perform (.loadDocument ⟨"let a = 1;", [⟨"step", .text "0", none⟩]⟩) fun _ =>
    .perform (.command .play) fun _ =>
      .request "soon" 3 .done <| .perform (.command .pause) fun _ =>
        .request "later" 5 .done <| .perform (.command .play) fun _ => .done

/-- A check that a frame is heedless, where it does not look at all. -/
def Frame.isHeedless : Frame → Bool
  | .run (.look _) | .clock .. => false
  | .run (.perform op _) => op.isHeedless
  | _ => true

theorem Frame.Heedless.of_isHeedless {s : Stage} {f : Frame} (h : f.isHeedless = true) :
    f.Heedless s := by
  unfold isHeedless at h
  unfold Heedless
  split <;> simp_all

namespace Machine

/-- The host with its reminders where calls are discarded. -/
def reminding : Machine := ⟨Stage.plain.discarding, [.run reminders]⟩

/-- The one reminder is discarded as it is requested and the other one in the replay; where they are
kept, both are in flight. -/
theorem reminders_together :
    (∀ x ∈ trace 13 reminding, x.Heedless) ∧ (reminding.run 13).stage.ticketsAt .dropped = [1, 0] ∧
      ∃ past' m', RunFrom .plain past' m' ∧ m'.frames = [] ∧ m'.stage.status = .playing ∧
        m'.stage.player.inFlight = [(0, ⟨0, "soon", .done⟩), (1, ⟨1, "later", .done⟩)] := by
  have hnew : Stage.new {} {} .discard (fun _ => none) = .ok Stage.plain.discarding := rfl
  have hrun : RunFrom Stage.plain.discarding (trace 13 reminding) (reminding.run 13) :=
    (RunFrom.start.host reminders).trace 13
  have hchecked : (trace 13 reminding).all (·.frames.head?.all Frame.isHeedless) = true := rfl
  have hpast : ∀ x ∈ trace 13 reminding, x.Heedless := fun x hx f hf =>
    .of_isHeedless ((Option.all_eq_true _ _).1 (List.all_eq_true.1 hchecked x hx) f hf)
  obtain ⟨past', m', hrun', htogether⟩ :=
    (discarding_together hnew Stage.plain_new).1 _ _ hrun hpast
  have hlast := htogether.last
  exact ⟨hpast, rfl, past', m', hrun', hlast.frames.symm, hlast.status.symm, hlast.aloft⟩

end Machine

end Walkthrough
