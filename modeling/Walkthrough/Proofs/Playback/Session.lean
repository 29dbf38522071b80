import Walkthrough.Proofs.Playback.Turn

/-!
# What the operations do to a session

A session has a status and calls, each call in one of four places.

* `Place`, `Stage.ticketsAt` — the places, and the tickets of the calls in each of them.
* `Stage.SameSession` — two stages with the same session; `Aside.sameSession`: changes beside the
  session leave it as it is.
* `command_status`, `command_pending`, `command_frames` — what a command does.
* `Stage.Adds` — one place holds a ticket more.
* `launch_…`, `request_…`, `fire_…` — what becomes of a call that is launched, requested or fired.
* `Stage.SameSetting` — two stages with the same flag and the same tooltip.
-/

set_option autoImplicit false

namespace Walkthrough

/-- Where a requested call may be. -/
inductive Place where
  | pending
  | inFlight
  | started
  | dropped
  deriving DecidableEq, Repr

/-- The ticket of a call that an event starts. -/
def Event.started? : Event → Option Nat
  | .started ticket _ => some ticket
  | _ => none

/-- The ticket of a call that an event gives up. -/
def Event.dropped? : Event → Option Nat
  | .dropped ticket => some ticket
  | _ => none

/-- The command that an event issues, with whether there were actions. -/
def Event.issued? : Event → Option (Command × Bool)
  | .issued c hasActions => some (c, hasActions)
  | _ => none

/-- Whether an effect gives up the deferred calls. -/
def Effect.clears : Option Effect → Bool
  | some .enter => true
  | some (.release _) => true
  | _ => false

namespace Stage

/-- The tickets of the calls at a place. -/
def ticketsAt (s : Stage) : Place → List Nat
  | .pending => s.pending.map fun d => d.call.ticket
  | .inFlight => s.player.inFlight.map fun p => p.2.ticket
  | .started => s.journal.filterMap Event.started?
  | .dropped => s.journal.filterMap Event.dropped?

/-- The commands written down so far, the latest first. -/
def issued (s : Stage) : List (Command × Bool) := s.journal.filterMap Event.issued?

/-- Where a call with a delay goes when it is launched. -/
def landing (delay : Duration) (s : Stage) : Place :=
  if delay = 0 then .started
  else
    match s.player.timers with
    | .keep => .inFlight
    | .discard => .dropped

/-- One place holds a ticket more. -/
def Adds (t : Nat) (place : Place) (s s' : Stage) : Prop :=
  ∀ p, (s'.ticketsAt p).Perm (if p = place then t :: s.ticketsAt p else s.ticketsAt p)

/-- Stages with the same session. -/
structure SameSession (s s' : Stage) : Prop where
  status : s'.status = s.status
  pending : s'.pending = s.pending
  inFlight : s'.player.inFlight = s.player.inFlight
  nextTimer : s'.player.nextTimer = s.player.nextTimer
  timers : s'.player.timers = s.player.timers
  tickets : s'.tickets = s.tickets
  issued : s'.issued = s.issued
  ticketsAt : ∀ p, s'.ticketsAt p = s.ticketsAt p

theorem SameSession.trans {s t u : Stage} (h : SameSession s t) (h' : SameSession t u) :
    SameSession s u :=
  ⟨h'.status.trans h.status, h'.pending.trans h.pending, h'.inFlight.trans h.inFlight,
    h'.nextTimer.trans h.nextTimer, h'.timers.trans h.timers, h'.tickets.trans h.tickets,
    h'.issued.trans h.issued,
    fun p => (h'.ticketsAt p).trans (h.ticketsAt p)⟩

theorem Aside.sameSession {s s' : Stage} (h : s.Aside s') : SameSession s s' := by
  induction h with
  | trans _ _ ih₁ ih₂ => exact ih₁.trans ih₂
  | _ => exact ⟨rfl, rfl, rfl, rfl, rfl, rfl, rfl, fun p => by cases p <;> rfl⟩

/-! ## Commands -/

/-- Carries a transition out. -/
def carryOut (t : Transition) (s : Stage) : Stage × List Frame :=
  match t.effect with
  | none => (s.setStatus t.status, [])
  | some .enter =>
    ((((s.dropPending.callSurface .revert).callSurface (.setReadOnly true)).callSurface
      .focus).setStatus t.status, [])
  | some .resume => ((s.callSurface .focus).setStatus t.status, [.replay])
  | some (.release notice) =>
    (((s.callSurface (.setReadOnly false)).dropPending.mapPlayback Playback.reset).setStatus
      t.status, [.notify notice])

/-- A command is written down and its transition carried out. -/
theorem command_eq (c : Command) (s : Stage) :
    s.command c =
      (s.record (.issued c s.hasActions)).carryOut (Transition.of s.status c s.hasActions) := rfl

theorem command_status (c : Command) (s : Stage) :
    (s.command c).1.status = (Transition.of s.status c s.hasActions).status := by
  rw [command_eq]
  unfold carryOut
  split <;> rfl

theorem command_pending (c : Command) (s : Stage) :
    (s.command c).1.pending =
      if Effect.clears (Transition.of s.status c s.hasActions).effect then [] else s.pending := by
  rw [command_eq]
  unfold carryOut
  split <;> rename_i h <;> rw [h] <;> rfl

theorem command_frames (c : Command) (s : Stage) :
    (s.command c).2 =
      match (Transition.of s.status c s.hasActions).effect with
      | some .resume => [.replay]
      | some (.release notice) => [.notify notice]
      | _ => [] := by
  rw [command_eq]
  unfold carryOut
  split <;> rename_i h <;> rw [h]

theorem dropPending_issued (s : Stage) : s.dropPending.issued = s.issued := by
  simp [issued, dropPending, mapPlayback, List.filterMap_append, Event.issued?]

theorem dropPending_started (s : Stage) :
    s.dropPending.ticketsAt .started = s.ticketsAt .started := by
  simp [ticketsAt, dropPending, mapPlayback, List.filterMap_append, Event.started?]

theorem dropPending_dropped (s : Stage) :
    s.dropPending.ticketsAt .dropped = (s.ticketsAt .pending).reverse ++ s.ticketsAt .dropped := by
  simp [ticketsAt, dropPending, mapPlayback, List.filterMap_append, Event.dropped?,
    Function.comp_def]

theorem command_issued (c : Command) (s : Stage) :
    (s.command c).1.issued = (c, s.hasActions) :: s.issued := by
  rw [command_eq]
  unfold carryOut
  split
  · rfl
  · exact dropPending_issued _
  · rfl
  · exact dropPending_issued _

theorem command_started (c : Command) (s : Stage) :
    (s.command c).1.ticketsAt .started = s.ticketsAt .started := by
  rw [command_eq]
  unfold carryOut
  split
  · rfl
  · exact dropPending_started _
  · rfl
  · exact dropPending_started _

theorem command_dropped (c : Command) (s : Stage) :
    (s.command c).1.ticketsAt .dropped =
      if Effect.clears (Transition.of s.status c s.hasActions).effect then
        (s.ticketsAt .pending).reverse ++ s.ticketsAt .dropped
      else s.ticketsAt .dropped := by
  rw [command_eq]
  unfold carryOut
  split <;> rename_i h <;> rw [h]
  · rfl
  · exact dropPending_dropped _
  · rfl
  · exact dropPending_dropped _

/-- No command touches the calls in flight. -/
theorem command_keeps (c : Command) (s : Stage) :
    (s.command c).1.player.inFlight = s.player.inFlight ∧
      (s.command c).1.player.nextTimer = s.player.nextTimer ∧
      (s.command c).1.tickets = s.tickets := by
  rw [command_eq]
  unfold carryOut
  split <;> exact ⟨rfl, rfl, rfl⟩

/-! ## Calls -/

theorem launch_session (d : Deferred Call) (s : Stage) :
    (s.launch d).1.status = s.status ∧ (s.launch d).1.pending = s.pending ∧
      (s.launch d).1.tickets = s.tickets ∧ (s.launch d).1.issued = s.issued := by
  unfold launch
  split
  · exact ⟨rfl, rfl, rfl, rfl⟩
  · split <;> exact ⟨rfl, rfl, rfl, rfl⟩

theorem launch_frames (d : Deferred Call) (s : Stage) :
    (s.launch d).2 = if d.delay = 0 then [.run d.call.body] else [] := by
  unfold launch
  split
  · rfl
  · split <;> rfl

/-- A launched call comes to the place where its delay takes it. -/
theorem launch_adds (d : Deferred Call) (s : Stage) :
    Adds d.call.ticket (s.landing d.delay) s (s.launch d).1 := by
  intro p
  unfold launch landing
  split
  · cases p <;> exact .refl _
  · split <;> rename_i h <;> rw [h]
    · cases p <;> exact .refl _
    · cases p
      case inFlight =>
        simp only [ticketsAt, record, schedule, List.map_append, List.map_cons, List.map_nil,
          ↓reduceIte]
        exact List.perm_append_singleton _ _
      all_goals exact .refl _

theorem launch_inFlight (d : Deferred Call) (s : Stage) :
    ((s.launch d).1.player.inFlight = s.player.inFlight ∧
        (s.launch d).1.player.nextTimer = s.player.nextTimer) ∨
      ((s.launch d).1.player.inFlight = s.player.inFlight ++ [(s.player.nextTimer, d.call)] ∧
        (s.launch d).1.player.nextTimer = s.player.nextTimer + 1) := by
  unfold launch
  split
  · exact .inl ⟨rfl, rfl⟩
  · split
    · exact .inl ⟨rfl, rfl⟩
    · exact .inr ⟨rfl, rfl⟩

/-- The call that a request makes. -/
def asked (label : String) (delay : Duration) (body : Routine) (s : Stage) : Deferred Call :=
  ⟨delay, ⟨s.tickets, label, body⟩⟩

/-- Gives out a ticket. -/
def ticketed (delay : Duration) (s : Stage) : Stage :=
  ({ s with tickets := s.tickets + 1 }).record (.requested s.tickets delay)

theorem request_playing {s : Stage} (h : s.status = .playing) (label : String) (delay : Duration)
    (body : Routine) :
    s.request label delay body = (s.ticketed delay).launch (s.asked label delay body) := by
  unfold request
  exact if_pos h

theorem request_deferred {s : Stage} (h : s.status ≠ .playing) (label : String) (delay : Duration)
    (body : Routine) :
    s.request label delay body =
      (((s.ticketed delay).mapPlayback (Playback.push (s.asked label delay body))).record
        (.deferred s.tickets), []) := by
  unfold request
  exact if_neg h

/-- A call that is deferred comes to the end of the queue. -/
theorem request_adds {s : Stage} (h : s.status ≠ .playing) (label : String) (delay : Duration)
    (body : Routine) :
    Adds s.tickets .pending s (s.request label delay body).1 := by
  intro p
  rw [request_deferred h]
  cases p
  case pending =>
    simp only [ticketsAt, pending, ticketed, mapPlayback, record, Playback.push, List.map_append,
      List.map_cons, List.map_nil, ↓reduceIte]
    exact List.perm_append_singleton _ _
  all_goals exact .refl _

theorem request_session (label : String) (delay : Duration) (body : Routine) (s : Stage) :
    (s.request label delay body).1.status = s.status ∧
      (s.request label delay body).1.tickets = s.tickets + 1 ∧
      (s.request label delay body).1.issued = s.issued := by
  by_cases h : s.status = .playing
  · rw [request_playing h]
    obtain ⟨hs, _, ht, hi⟩ := launch_session (s.asked label delay body) (s.ticketed delay)
    exact ⟨hs, ht, hi⟩
  · rw [request_deferred h]
    exact ⟨rfl, rfl, rfl⟩

theorem fire_eq {s : Stage} {timer : Nat} {call : Call}
    (h : s.player.inFlight.lookup timer = some call) :
    s.fire timer =
      (({ s with player :=
        { s.player with inFlight := s.player.inFlight.filter fun (t, _) => t ≠ timer } }).record
        (.started call.ticket call.label), [.run call.body]) := by
  unfold fire
  rw [h]

/-! ## The flag and the tooltip -/

/-- Stages with the same flag and the same tooltip. -/
structure SameSetting (s s' : Stage) : Prop where
  flag : s'.player.flag = s.player.flag
  tooltip : s'.tooltip = s.tooltip

theorem command_setting (c : Command) (s : Stage) : SameSetting s (s.command c).1 := by
  rw [command_eq]
  unfold carryOut
  split <;> exact ⟨rfl, rfl⟩

theorem launch_setting (d : Deferred Call) (s : Stage) : SameSetting s (s.launch d).1 := by
  unfold launch
  split
  · exact ⟨rfl, rfl⟩
  · split <;> exact ⟨rfl, rfl⟩

theorem request_setting (label : String) (delay : Duration) (body : Routine) (s : Stage) :
    SameSetting s (s.request label delay body).1 := by
  by_cases h : s.status = .playing
  · rw [request_playing h]
    obtain ⟨hflag, htooltip⟩ := launch_setting (s.asked label delay body) (s.ticketed delay)
    exact ⟨hflag, htooltip⟩
  · rw [request_deferred h]
    exact ⟨rfl, rfl⟩

theorem fire_setting (timer : Nat) (s : Stage) : SameSetting s (s.fire timer).1 := by
  unfold fire
  split <;> exact ⟨rfl, rfl⟩

theorem load_setting (text : String) (s : Stage) : SameSetting s (s.load text).2 := by
  unfold load
  split <;> exact ⟨rfl, rfl⟩

end Stage

end Walkthrough
