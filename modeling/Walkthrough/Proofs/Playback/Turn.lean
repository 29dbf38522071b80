import Walkthrough.Playback.Machine

/-!
# What a step can do

A step takes the innermost frame away, changes the stage and puts other frames in its place. Most
steps change the stage only beside the session; the others issue a command, request a call, replay
one or fire one.

* `Stage.orders`, `Frame.order?`, `Frame.fires?` — the command that an operation or a frame issues,
  and the timer that a frame fires.
* `Stage.Aside` — the changes beside the session, in which no command is issued and no call moves.
* `Stage.Deed` — what an operation does before it replies; `perform_deed`: every operation but
  `elapse` does one of these.
* `Frame.Play` — what a frame leads to in one step; `Machine.step_play`: every step of a machine
  plays its innermost frame, and what lies below does not matter.
* `Turn` — what that means for the session and its calls; `Machine.step_turn`: every step is a turn.
-/

set_option autoImplicit false

namespace Walkthrough

namespace Stage

/-- An edit by the user. -/
def edit (text : String) (s : Stage) : Stage := { s with surface := (s.surface.edit text).2 }

/-- Whether the loaded document has an action. -/
def hasActions (s : Stage) : Bool := !s.player.document.actions.isEmpty

/-- Takes the call `d` from the front of the queue; the calls `ds` stay in it. -/
def dequeue (d : Deferred Call) (ds : List (Deferred Call)) (s : Stage) : Stage :=
  (s.mapPlayback fun p => { p with pending := ds }).record (.replayed d.call.ticket)

/-- The command that an operation issues, if any. -/
def orders (op : Operation) (s : Stage) : Option Command :=
  match op with
  | .command c => some c
  | .toggle => some (if s.status = .playing then .pause else .play)
  | .follow value => if value ≠ s.player.flag then some (if value then .play else .pause) else none
  | .tooltip input =>
    match (s.tooltip.receive input s.cursor s.player.document.actions.length).2 with
    | some (.command c) => some c
    | _ => none
  | _ => none

/-- Changes of a stage beside its session. -/
inductive Aside : Stage → Stage → Prop where
  | same (s : Stage) : Aside s s
  | trans {s t u : Stage} : Aside s t → Aside t u → Aside s u
  | moved (cursor : Int) (s : Stage) : Aside s (s.setCursor cursor)
  | loaded (document : Document) (s : Stage) : Aside s (s.loadDocument document)
  | edited (text : String) (s : Stage) : Aside s (s.edit text)
  | scheduled (timer : Nat) (delay : Duration) (s : Stage) : Aside s (s.schedule timer delay)
  | elapsed {target : Duration} {timer : Timer} {clock : Clock} {s : Stage} :
      s.clock.popDue? target = some (timer, clock) →
      Aside s (({ s with clock }).record (.elapsed timer.seq timer.id clock.now))
  | reached {target : Duration} {s : Stage} :
      s.clock.popDue? target = none → Aside s { s with clock := { s.clock with now := target } }
  | presented (tooltip : Tooltip) (s : Stage) : Aside s { s with tooltip }
  | flagged (value : Bool) (s : Stage) :
      Aside s (({ s with player := { s.player with flag := value } }).record (.flagged value))
  | notified (notice : Notice) (s : Stage) : Aside s (s.record (.notified notice))
  | replied (reply : Reply) (s : Stage) : Aside s (s.record (.replied reply))

end Stage

namespace Frame

/-- The command that a frame issues, if any. -/
def order? (s : Stage) : Frame → Option Command
  | .run (.perform op _) => s.orders op
  | _ => none

/-- The timer that a frame fires, if any. -/
def fires? (s : Stage) : Frame → Option Nat
  | .run (.perform (.fire timer) _) => some timer
  | .clock target _ _ => (s.clock.popDue? target).map fun (timer, _) => timer.id
  | _ => none

/-- Whether a frame requests a call. -/
def isRequest : Frame → Bool
  | .run (.request ..) => true
  | _ => false

/-- Whether a frame replays the deferred calls. -/
def isReplay : Frame → Bool
  | .replay => true
  | _ => false

theorem isRequest_of_fires? {f : Frame} {s : Stage} {timer : Nat} (h : f.fires? s = some timer) :
    f.isRequest = false := by
  unfold fires? at h
  split at h
  · rfl
  · rfl
  · cases h

end Frame

/-- What becomes of a frame: the stage changes, and other frames take its place. -/
inductive Turn : Frame → Stage → Stage → List Frame → Prop where
  | aside {f : Frame} {s s' : Stage} {fs : List Frame} :
      s.Aside s' → f.order? s = none → f.isRequest = false → (f :: fs).all (! ·.isReplay) →
      Turn f s s' fs
  | commanded {op : Operation} {next : Reply → Routine} {reply : Reply} {c : Command}
      {s s₀ : Stage} :
      s.orders op = some c → s.Aside s₀ → s₀.hasActions = s.hasActions →
      Turn (.run (.perform op next)) s (s₀.command c).1 ((s₀.command c).2 ++ [.answer reply next])
  | requested (label : String) (delay : Duration) (body next : Routine) (s : Stage) :
      Turn (.run (.request label delay body next)) s (s.request label delay body).1
        ((s.request label delay body).2 ++ [.run next])
  | replayed {d : Deferred Call} {ds : List (Deferred Call)} {s : Stage} :
      s.status = .playing → s.pending = d :: ds →
      Turn .replay s ((s.dequeue d ds).launch d).1 (((s.dequeue d ds).launch d).2 ++ [.replay])
  | drained {s : Stage} : (s.status = .playing → s.pending = []) → Turn .replay s s []
  | fired {f : Frame} {timer : Nat} {call : Call} {s s₀ : Stage} {fs : List Frame} :
      f.fires? s = some timer → s.Aside s₀ → s₀.player.inFlight.lookup timer = some call →
      f.order? s = none → (f :: fs).all (! ·.isReplay) →
      Turn f s (s₀.fire timer).1 ((s₀.fire timer).2 ++ fs)

/-! ## What operations do -/

namespace Stage

/-- Keeps the host's flag in mind. -/
def flagged (value : Bool) (s : Stage) : Stage :=
  ({ s with player := { s.player with flag := value } }).record (.flagged value)

theorem follow_changed {value : Bool} {s : Stage} (h : value ≠ s.player.flag) :
    s.follow value = (s.flagged value).command (if value then .play else .pause) := by
  simp only [follow, h, ne_eq, not_false_eq_true, ↓reduceIte]
  rfl

theorem follow_unchanged {value : Bool} {s : Stage} (h : ¬ value ≠ s.player.flag) :
    s.follow value = (s.flagged value, []) := by
  simp only [follow, h, ↓reduceIte]
  rfl

/-- At most the tooltip or the host's flag is another one. -/
inductive Touched (s : Stage) : Stage → Prop where
  | same : Touched s s
  | presented (tooltip : Tooltip) : Touched s { s with tooltip }
  | flagged (value : Bool) : Touched s (s.flagged value)

/-- What the operation `op` does before it replies, with the frames that come first. The exception
is `elapse`, whose reply comes in the end. -/
inductive Deed (s : Stage) (op : Operation) : Stage × List Frame → Prop where
  | touched {s' : Stage} : Touched s s' → s.orders op = none → Deed s op (s', [])
  | moved {s₀ : Stage} (cursor : Int) : Touched s s₀ → s.orders op = none →
      Deed s op (s₀.setCursor cursor, [])
  | loaded (document : Document) : s.orders op = none → Deed s op (s.loadDocument document, [])
  | edited (text : String) : s.orders op = none → Deed s op (s.edit text, [])
  | scheduled {timer : Nat} {delay : Duration} :
      op = .schedule timer delay → Deed s op (s.schedule timer delay, [])
  | fired {timer : Nat} : op = .fire timer → Deed s op (s.fire timer)
  | commanded {s₀ : Stage} {c : Command} : Touched s s₀ → s.orders op = some c →
      Deed s op (s₀.command c)

theorem receive_deed (input : Tooltip.Input) (s : Stage) :
    s.Deed (.tooltip input) (s.receive input) := by
  have horders : s.orders (.tooltip input) =
      match (s.tooltip.receive input s.cursor s.player.document.actions.length).2 with
      | some (.command c) => some c
      | _ => none := rfl
  unfold receive
  rcases h : s.tooltip.receive input s.cursor s.player.document.actions.length with
    ⟨tooltip, reaction⟩
  rw [h] at horders
  cases reaction with
  | none => exact .touched (.presented tooltip) horders
  | some reaction =>
      cases reaction with
      | moveTo cursor => exact .moved cursor (.presented tooltip) horders
      | command c => exact .commanded (.presented tooltip) horders

theorem follow_deed (value : Bool) (s : Stage) : s.Deed (.follow value) (s.follow value) := by
  have horders : s.orders (.follow value) =
      if value ≠ s.player.flag then some (if value then .play else .pause) else none := rfl
  by_cases h : value ≠ s.player.flag
  · rw [if_pos h] at horders
    rw [follow_changed h]
    exact .commanded (.flagged value) horders
  · rw [if_neg h] at horders
    rw [follow_unchanged h]
    exact .touched (.flagged value) horders

theorem load_deed (text : String) (s : Stage) : s.Deed (.load text) ((s.load text).2, []) := by
  unfold load
  split
  · exact .touched .same rfl
  · exact .loaded _ rfl

theorem align_deed (s : Stage) : s.Deed .align (s.align.2, []) := by
  unfold align
  split
  · exact .touched .same rfl
  · exact .touched .same rfl
  · exact .touched (.presented _) rfl

/-- **Every operation but `elapse` does its deed and replies.** -/
theorem perform_deed (op : Operation) (next : Reply → Routine) (s : Stage) :
    (∃ time, op = .elapse time) ∨
      ∃ r reply, s.Deed op r ∧ s.perform op next = (r.1, r.2 ++ [.answer reply next]) := by
  cases op with
  | elapse time => exact .inl ⟨time, rfl⟩
  | command c => exact .inr ⟨_, _, .commanded .same rfl, rfl⟩
  | toggle => exact .inr ⟨_, _, .commanded .same rfl, rfl⟩
  | follow value => exact .inr ⟨_, _, follow_deed value s, rfl⟩
  | setCursor cursor => exact .inr ⟨_, _, .moved cursor .same rfl, rfl⟩
  | advance => exact .inr ⟨_, _, .moved _ .same rfl, rfl⟩
  | retreat => exact .inr ⟨_, _, .moved _ .same rfl, rfl⟩
  | load text => exact .inr ⟨_, _, load_deed text s, rfl⟩
  | loadDocument document => exact .inr ⟨_, _, .loaded document rfl, rfl⟩
  | edit text => exact .inr ⟨_, _, .edited text rfl, rfl⟩
  | fire timer => exact .inr ⟨_, _, .fired rfl, rfl⟩
  | schedule timer delay => exact .inr ⟨_, _, .scheduled rfl, rfl⟩
  | tooltip input => exact .inr ⟨_, _, receive_deed input s, rfl⟩
  | align => exact .inr ⟨_, _, align_deed s, rfl⟩
  | resetTooltip => exact .inr ⟨_, _, .touched (.presented {}) rfl, rfl⟩
  | ask query => exact .inr ⟨_, _, .touched .same rfl, rfl⟩

/-- The timer `t` comes out of the queue, which leaves `clock`. -/
def tick (t : Timer) (clock : Clock) (s : Stage) : Stage :=
  ({ s with clock }).record (.elapsed t.seq t.id clock.now)

end Stage

/-! ## What a step does -/

/-- Whether a routine goes on without an effect. -/
def Routine.isControl : Routine → Bool
  | .done | .look _ | .invoke .. => true
  | _ => false

/-- The stage that a frame leaves in one step, and the frames that take its place. -/
inductive Frame.Play (s : Stage) : Frame → Stage × List Frame → Prop where
  | control {r : Routine} (rs : List Routine) :
      r.isControl = true → Play s (.run r) (s, rs.map .run)
  | performed (op : Operation) (next : Reply → Routine) :
      Play s (.run (.perform op next)) (s.perform op next)
  | requested (label : String) (delay : Duration) (body next : Routine) :
      Play s (.run (.request label delay body next))
        ((s.request label delay body).1, (s.request label delay body).2 ++ [.run next])
  | replayed {d : Deferred Call} {ds : List (Deferred Call)} :
      s.status = .playing → s.pending = d :: ds →
      Play s .replay (((s.dequeue d ds).launch d).1, ((s.dequeue d ds).launch d).2 ++ [.replay])
  | drained : (s.status = .playing → s.pending = []) → Play s .replay (s, [])
  | notified (notice : Notice) : Play s (.notify notice) (s.record (.notified notice), [])
  | popped {target : Duration} {t : Timer} {clock : Clock} (fired : Nat) (next : Reply → Routine) :
      s.clock.popDue? target = some (t, clock) →
      Play s (.clock target fired next) (((s.tick t clock).fire t.id).1,
        ((s.tick t clock).fire t.id).2 ++ [.clock target (fired + 1) next])
  | reached {target : Duration} (fired : Nat) (next : Reply → Routine) :
      s.clock.popDue? target = none →
      Play s (.clock target fired next)
        ({ s with clock.now := target }, [.answer (.count fired) next])
  | answered (reply : Reply) (next : Reply → Routine) :
      Play s (.answer reply next) (s.record (.replied reply), [.run (next reply)])

namespace Machine

theorem stepRoutine_play (s : Stage) (rest : List Frame) (r : Routine) :
    ∃ p, stepRoutine s rest r = follow p rest ∧ (Frame.run r).Play s p := by
  cases r with
  | done => exact ⟨(s, []), rfl, .control [] rfl⟩
  | look next => exact ⟨(s, [_]), rfl, .control [next s.snapshot] rfl⟩
  | perform op next => exact ⟨_, rfl, .performed op next⟩
  | request label delay body next =>
      refine ⟨_, ?_, .requested label delay body next⟩
      simp only [stepRoutine, follow, List.append_assoc, List.singleton_append]
  | invoke name next =>
      simp only [stepRoutine]
      cases s.routines name with
      | none => exact ⟨(s, [_]), rfl, .control [next] rfl⟩
      | some body => exact ⟨(s, [_, _]), rfl, .control [body, next] rfl⟩

theorem stepReplay_play (s : Stage) (rest : List Frame) :
    ∃ p, stepReplay s rest = follow p rest ∧ Frame.replay.Play s p := by
  unfold stepReplay
  split
  · rename_i d playback hs hp
    obtain ⟨ds, hds, rfl⟩ :
        ∃ ds, s.pending = d :: ds ∧ { s.player.playback with pending := ds } = playback := by
      unfold Playback.pop? at hp
      split at hp
      · cases hp
      · rename_i ds h
        cases hp
        exact ⟨_, h, rfl⟩
    refine ⟨_, ?_, .replayed hs hds⟩
    simp only [follow, List.append_assoc, List.singleton_append]
    rfl
  · rename_i hn
    refine ⟨(s, []), rfl, .drained fun hs => ?_⟩
    cases hp : s.pending with
    | nil => rfl
    | cons d ds =>
        have hpop :
            s.player.playback.pop? = some (d, { s.player.playback with pending := ds }) := by
          unfold Playback.pop?
          rw [show s.player.playback.pending = d :: ds from hp]
        exact absurd hpop (hn d _ hs)

theorem stepClock_play (target : Duration) (fired : Nat) (next : Reply → Routine) (s : Stage)
    (rest : List Frame) :
    ∃ p, stepClock target fired next s rest = follow p rest ∧
      (Frame.clock target fired next).Play s p := by
  unfold stepClock
  cases h : s.clock.popDue? target with
  | none => exact ⟨_, rfl, .reached fired next h⟩
  | some due =>
      obtain ⟨t, clock⟩ := due
      refine ⟨_, ?_, .popped fired next h⟩
      simp only [follow, List.append_assoc, List.singleton_append]
      rfl

/-- **A step plays the innermost frame**, and leaves the frames below it as they are. -/
theorem step_play {m m' : Machine} (h : m.step = some m') :
    ∃ f rest p, m.frames = f :: rest ∧ m' = follow p rest ∧ f.Play m.stage p := by
  unfold step at h
  split at h
  · cases h
  · rename_i r rest hm
    cases h
    obtain ⟨p, hp, hplay⟩ := stepRoutine_play m.stage rest r
    exact ⟨_, rest, p, hm, hp, hplay⟩
  · rename_i rest hm
    cases h
    obtain ⟨p, hp, hplay⟩ := stepReplay_play m.stage rest
    exact ⟨_, rest, p, hm, hp, hplay⟩
  · rename_i notice rest hm
    cases h
    exact ⟨_, rest, _, hm, rfl, .notified notice⟩
  · rename_i target fired next rest hm
    cases h
    obtain ⟨p, hp, hplay⟩ := stepClock_play target fired next m.stage rest
    exact ⟨_, rest, p, hm, hp, hplay⟩
  · rename_i reply next rest hm
    cases h
    exact ⟨_, rest, _, hm, rfl, .answered reply next⟩

end Machine

namespace Stage

/-! ## Every step is a turn -/

theorem Touched.aside {s s' : Stage} (h : s.Touched s') : s.Aside s' := by
  cases h with
  | same => exact .same s
  | presented tooltip => exact .presented tooltip s
  | flagged value => exact .flagged value s

theorem Touched.hasActions {s s' : Stage} (h : s.Touched s') : s'.hasActions = s.hasActions := by
  cases h <;> rfl

theorem fire_turn {f : Frame} {timer : Nat} {s s₀ : Stage} {fs : List Frame}
    (hf : f.fires? s = some timer) (ha : s.Aside s₀) (ho : f.order? s = none)
    (hr : (f :: fs).all (! ·.isReplay)) :
    Turn f s (s₀.fire timer).1 ((s₀.fire timer).2 ++ fs) := by
  cases h : s₀.player.inFlight.lookup timer with
  | none =>
      have : s₀.fire timer = (s₀, []) := by simp only [fire, h]
      rw [this]
      exact .aside ha ho (Frame.isRequest_of_fires? hf) hr
  | some call => exact .fired hf ha h ho hr

theorem perform_turn (op : Operation) (next : Reply → Routine) (s : Stage) :
    Turn (.run (.perform op next)) s (s.perform op next).1 (s.perform op next).2 := by
  obtain ⟨time, rfl⟩ | ⟨r, reply, hdeed, hperform⟩ := s.perform_deed op next
  · exact .aside (.same s) rfl rfl rfl
  · rw [hperform]
    cases hdeed with
    | touched h horders => exact .aside h.aside horders rfl rfl
    | moved cursor h horders => exact .aside (h.aside.trans (.moved cursor _)) horders rfl rfl
    | loaded document horders => exact .aside (.loaded document s) horders rfl rfl
    | edited text horders => exact .aside (.edited text s) horders rfl rfl
    | @scheduled timer delay hop => exact .aside (.scheduled timer delay s) (hop ▸ rfl) rfl rfl
    | fired hop =>
        subst hop
        exact fire_turn rfl (.same s) rfl rfl
    | commanded h horders => exact .commanded horders h.aside h.hasActions

end Stage

theorem Frame.Play.turn {f : Frame} {s : Stage} {p : Stage × List Frame} (h : f.Play s p) :
    Turn f s p.1 p.2 := by
  cases h with
  | @control r rs hr =>
      have horder : (Frame.run r).order? s = none := by
        cases r <;> first | rfl | cases hr
      have hrequest : (Frame.run r).isRequest = false := by
        cases r <;> first | rfl | cases hr
      exact .aside (.same s) horder hrequest (by simp [Frame.isReplay])
  | performed op next => exact s.perform_turn op next
  | requested label delay body next => exact .requested label delay body next s
  | replayed hs hp => exact .replayed hs hp
  | drained hp => exact .drained hp
  | notified notice => exact .aside (.notified notice s) rfl rfl rfl
  | @popped target t clock fired next hpop =>
      have hfires : (Frame.clock target fired next).fires? s = some t.id := by
        simp only [Frame.fires?, hpop, Option.map_some]
      exact Stage.fire_turn hfires (.elapsed hpop) rfl rfl
  | reached fired next hpop => exact .aside (.reached hpop) rfl rfl rfl
  | answered reply next => exact .aside (.replied reply s) rfl rfl rfl

namespace Machine

/-- **Every step is a turn of the innermost frame**, and leaves the frames below it as they are. -/
theorem step_turn {m m' : Machine} (h : m.step = some m') :
    ∃ f rest fs, m.frames = f :: rest ∧ m'.frames = fs ++ rest ∧ Turn f m.stage m'.stage fs := by
  obtain ⟨f, rest, p, hm, rfl, hplay⟩ := step_play h
  exact ⟨f, rest, p.2, hm, rfl, hplay.turn⟩

end Machine

end Walkthrough
