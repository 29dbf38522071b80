import Walkthrough.Proofs.Playback.Later
import Walkthrough.Proofs.Playback.Protocol
import Walkthrough.Proofs.Tooltip.Leaving

/-!
# Sessions that are repeated

A player that is idle at the first action, with no calls and no timers left, has nothing of an
earlier session in it that would show. What a host does then, it can do again where it has come to
such a player with the same document, and the same shows.

Until a session is entered the surface may still be as the user has left it, which is not the same
both times; but then no call is started, and the entry takes the surface back. From there on the
two players differ in their numbers only.

* `Routine.Scripted` — a host that does the same whatever the replies are.
* `Stage.Clean` — nothing is left of a session.
* `Stage.Upholds` — what no step changes; `Turn.upholds`.
* `Stage.Alike` — players outside a session that may differ in what the user has done to the
  surface; `Stage.Twins` — players without calls that differ in their numbers only;
  `Stage.Matched` — either of them.
* `Stage.SameShown` — what shows of two players is the same.
* `Alike.command`, `Alike.perform` — as long as no session is entered the players stay alike, and
  where one is entered they become twins.
* `Twins.echo`, `scripted_echo` — what comes to an end on one comes to an end on the other.
* `ends_again` — what a host has done shows the same when it is done again.
-/

set_option autoImplicit false

namespace Walkthrough

/-- A routine that does the same whatever the replies are, with calls that are discreet. -/
inductive Routine.Scripted (tips : Bool) : Routine → Prop where
  | done : Scripted tips .done
  | perform {op : Operation} {next : Routine} :
      op.isDiscreet tips = true → Scripted tips next → Scripted tips (.perform op fun _ => next)
  | request {label : String} {delay : Duration} {body next : Routine} :
      body.Discreet tips → Scripted tips next → Scripted tips (.request label delay body next)

variable {tips : Bool}

theorem Routine.Scripted.discreet {r : Routine} (h : r.Scripted tips) : r.Discreet tips := by
  induction h with
  | done => exact .done
  | perform hop _ ih => exact .perform hop fun _ => ih
  | request hbody _ ih => exact .request hbody ih

/-- Tickets that have moved on while all other numbers have stayed. -/
def Shift.ofTickets (n : Nat) : Shift := ⟨n, 0, 0, 0⟩

/-- What shows has no numbers but tickets. -/
theorem Event.shown?_later {k k' : Shift} {n : Nat} (h : k'.tickets = k.tickets + n) (e : Event) :
    (e.later k').shown? = (e.later k).shown?.map (Event.later (.ofTickets n)) := by
  cases e with
  | started ticket label =>
      have hticket : ticket + k'.tickets = ticket + k.tickets + n := by omega
      simp only [Event.later, hticket]
      rfl
  | _ => rfl

namespace Stage

variable {s s' t a b a' b' : Stage}

/-- Nothing is left of a session: the player is idle at the first action, nothing is pending or in
flight, and no timer is to come. -/
structure Clean (s : Stage) : Prop where
  idle : s.status = .idle
  cursor : s.cursor = 0
  pending : s.pending = []
  inFlight : s.player.inFlight = []
  queue : s.clock.queue = []

theorem Clean.later (k : Shift) (history : List Event) : (s.later k history).Clean ↔ s.Clean := by
  have hpending : (s.later k history).pending = [] ↔ s.pending = [] := List.map_eq_nil_iff
  have hinFlight : (s.later k history).player.inFlight = [] ↔ s.player.inFlight = [] :=
    List.map_eq_nil_iff
  have hqueue : (s.later k history).clock.queue = [] ↔ s.clock.queue = [] := List.map_eq_nil_iff
  constructor
  · intro h
    exact ⟨h.idle, h.cursor, hpending.1 h.pending, hinFlight.1 h.inFlight, hqueue.1 h.queue⟩
  · intro h
    exact ⟨h.idle, h.cursor, hpending.2 h.pending, hinFlight.2 h.inFlight, hqueue.2 h.queue⟩

/-! ## What no step changes -/

/-- A document with actions has its source for the canonical content. -/
def Sourced (s : Stage) : Prop :=
  s.hasActions = true → s.surface.canonical = s.player.document.source

/-- From `s` to `s'` the configuration, the fate of timers, the routines and the sizes of characters
stay, what is loaded is canonical, and tickets are given out in order. -/
structure Upholds (s s' : Stage) : Prop where
  config : s'.player.config = s.player.config
  timers : s'.player.timers = s.player.timers
  routines : s'.routines = s.routines
  charWidth : s'.surface.charWidth = s.surface.charWidth
  lineHeight : s'.surface.lineHeight = s.surface.lineHeight
  sourced : s.Sourced → s'.Sourced
  tickets : s.tickets ≤ s'.tickets

theorem Upholds.refl (s : Stage) : s.Upholds s := ⟨rfl, rfl, rfl, rfl, rfl, id, Nat.le_refl _⟩

theorem Upholds.trans (h : s.Upholds s') (h' : s'.Upholds t) : s.Upholds t :=
  ⟨h'.config.trans h.config, h'.timers.trans h.timers, h'.routines.trans h.routines,
    h'.charWidth.trans h.charWidth, h'.lineHeight.trans h.lineHeight, h'.sourced ∘ h.sourced,
    Nat.le_trans h.tickets h'.tickets⟩

theorem edit_upholds (text : String) (s : Stage) : s.Upholds (s.edit text) := by
  unfold Stage.edit Surface.edit
  split <;> exact ⟨rfl, rfl, rfl, rfl, rfl, id, Nat.le_refl _⟩

theorem Aside.upholds (h : s.Aside s') : s.Upholds s' := by
  induction h with
  | trans _ _ ih ih' => exact ih.trans ih'
  | loaded document s => exact ⟨rfl, rfl, rfl, rfl, rfl, fun _ _ => rfl, Nat.le_refl _⟩
  | edited text s => exact edit_upholds text s
  | _ => exact ⟨rfl, rfl, rfl, rfl, rfl, id, Nat.le_refl _⟩

theorem command_upholds (c : Command) (s : Stage) : s.Upholds (s.command c).1 := by
  rw [command_eq]
  unfold carryOut
  split <;> exact ⟨rfl, rfl, rfl, rfl, rfl, id, Nat.le_refl _⟩

theorem launch_upholds (d : Deferred Call) (s : Stage) : s.Upholds (s.launch d).1 := by
  unfold launch
  split
  · exact ⟨rfl, rfl, rfl, rfl, rfl, id, Nat.le_refl _⟩
  · split <;> exact ⟨rfl, rfl, rfl, rfl, rfl, id, Nat.le_refl _⟩

theorem request_upholds (label : String) (delay : Duration) (body : Routine) (s : Stage) :
    s.Upholds (s.request label delay body).1 := by
  have hticketed : s.Upholds (s.ticketed delay) := ⟨rfl, rfl, rfl, rfl, rfl, id, Nat.le_succ _⟩
  by_cases hs : s.status = .playing
  · rw [request_playing hs]
    exact hticketed.trans (launch_upholds _ _)
  · rw [request_deferred hs]
    exact ⟨rfl, rfl, rfl, rfl, rfl, id, Nat.le_succ _⟩

theorem fire_upholds (timer : Nat) (s : Stage) : s.Upholds (s.fire timer).1 := by
  unfold fire
  split <;> exact ⟨rfl, rfl, rfl, rfl, rfl, id, Nat.le_refl _⟩

end Stage

theorem Turn.upholds {f : Frame} {s s' : Stage} {fs : List Frame} (h : Turn f s s' fs) :
    s.Upholds s' := by
  cases h with
  | aside ha _ _ _ => exact ha.upholds
  | commanded _ ha _ => exact ha.upholds.trans (Stage.command_upholds _ _)
  | requested label delay body next => exact Stage.request_upholds label delay body s
  | @replayed d ds _ _ _ =>
      have hdequeue : s.Upholds (s.dequeue d ds) := ⟨rfl, rfl, rfl, rfl, rfl, id, Nat.le_refl _⟩
      exact hdequeue.trans (Stage.launch_upholds _ _)
  | drained _ => exact .refl s
  | fired _ ha _ _ _ => exact ha.upholds.trans (Stage.fire_upholds _ _)

namespace Stage

variable {s s' t a b a' b' : Stage} {n : Nat}

/-! ## Players that are alike -/

/-- Players outside a session, without calls in flight and timers to come. Their surfaces may differ
in what the user has done to them, and as long as there are no actions also in the canonical
content. To `b` a number of tickets more was given out. -/
structure Alike (n : Nat) (a b : Stage) : Prop where
  idle : a.status = .idle ∧ b.status = .idle
  inFlight : a.player.inFlight = [] ∧ b.player.inFlight = []
  queue : a.clock.queue = [] ∧ b.clock.queue = []
  pending : b.pending.length = a.pending.length
  cursor : b.cursor = a.cursor
  document : b.player.document = a.player.document
  flag : b.player.flag = a.player.flag
  config : b.player.config = a.player.config
  timers : b.player.timers = a.player.timers
  routines : b.routines = a.routines
  tooltip : b.tooltip = a.tooltip
  charWidth : b.surface.charWidth = a.surface.charWidth
  lineHeight : b.surface.lineHeight = a.surface.lineHeight
  canonical : a.hasActions = true → b.surface.canonical = a.surface.canonical
  tickets : b.tickets = a.tickets + n

/-- The player at the start of all numbers, before all history. -/
def origin (s : Stage) : Stage :=
  { s with player.nextTimer := 0, clock := {}, tickets := 0, journal := [] }

/-- How far the numbers have come. -/
def numbers (s : Stage) : Shift := ⟨s.tickets, s.player.nextTimer, s.clock.seq, s.clock.now⟩

/-- Players without calls and timers that differ in their numbers and their history only. -/
structure Twins (n : Nat) (a b : Stage) : Prop where
  pending : a.pending = [] ∧ b.pending = []
  inFlight : a.player.inFlight = [] ∧ b.player.inFlight = []
  queue : a.clock.queue = [] ∧ b.clock.queue = []
  origin : b.origin = a.origin
  tickets : b.tickets = a.tickets + n

/-- A player without calls and timers has come from its origin. -/
theorem eq_later_origin (hpending : s.pending = []) (hinFlight : s.player.inFlight = [])
    (hqueue : s.clock.queue = []) : s = s.origin.later s.numbers s.journal := by
  obtain ⟨⟨config, timers, document, ⟨status, cursor, pending⟩, inFlight, nextTimer, flag⟩, surface,
    ⟨now, seq, queue⟩, tooltip, routines, tickets, journal⟩ := s
  obtain rfl : pending = [] := hpending
  obtain rfl : inFlight = [] := hinFlight
  obtain rfl : queue = [] := hqueue
  simp [origin, numbers, Stage.later, Player.later, Playback.later, Clock.later]

theorem Alike.record (h : Alike n a b) (e e' : Event) : Alike n (a.record e) (b.record e') :=
  { h with }

theorem Twins.record (h : Twins n a b) (e e' : Event) : Twins n (a.record e) (b.record e') :=
  { h with }

/-- Players that go the same way: they are outside a session and alike, or else twins. -/
def Matched (n : Nat) (a b : Stage) : Prop := Alike n a b ∨ Twins n a b

theorem Matched.record (h : Matched n a b) (e e' : Event) : Matched n (a.record e) (b.record e') :=
  Or.imp (fun h => h.record e e') (fun h => h.record e e') h

theorem Alike.hasActions (h : Alike n a b) : b.hasActions = a.hasActions := by
  unfold Stage.hasActions
  rw [h.document]

/-! ## What shows of two players -/

/-- From `a` to `a'` the same shows as from `b` to `b'`, apart from the tickets. -/
def SameShown (n : Nat) (a a' b b' : Stage) : Prop :=
  ∃ xs, Notes Event.shown? a a' xs ∧
    Notes Event.shown? b b' (xs.map (Event.later (.ofTickets n)))

theorem SameShown.silent (ha : Notes Event.shown? a a' []) (hb : Notes Event.shown? b b' []) :
    SameShown n a a' b b' :=
  ⟨[], ha, hb⟩

theorem SameShown.trans {a₁ b₁ : Stage} (h : SameShown n a a₁ b b₁)
    (h' : SameShown n a₁ a' b₁ b') : SameShown n a a' b b' := by
  obtain ⟨xs, ha, hb⟩ := h
  obtain ⟨ys, ha', hb'⟩ := h'
  refine ⟨xs ++ ys, ha.trans ha', ?_⟩
  rw [List.map_append]
  exact hb.trans hb'

/-! ## Before a session is entered -/

/-- Both players tell the host the same, and then stand as outside a session or at the beginning of
one; and the same has shown of both. -/
structure Paired (n : Nat) (a b : Stage) (r q : Stage × List Frame) : Prop where
  notices : ∃ ns : List Notice, r.2 = ns.map .notify ∧ q.2 = ns.map .notify
  shown : SameShown n a r.1 b q.1
  stages : Matched n r.1 q.1

variable {r q : Stage × List Frame}

theorem Alike.paired (h : Alike n a' b') (ha : Notes Event.shown? a a' [])
    (hb : Notes Event.shown? b b' []) : Paired n a b (a', []) (b', []) :=
  ⟨⟨[], rfl, rfl⟩, .silent ha hb, .inl h⟩

theorem Paired.after (h : Paired n a' b' r q) (ha : Notes Event.shown? a a' [])
    (hb : Notes Event.shown? b b' []) : Paired n a b r q :=
  { h with shown := (SameShown.silent ha hb).trans h.shown }

theorem Alike.release (h : Alike n a b) (notice : Notice) :
    Paired n a b (a.carryOut ⟨.idle, some (.release notice)⟩)
      (b.carryOut ⟨.idle, some (.release notice)⟩) := by
  have notes (s : Stage) : Notes Event.shown? s (s.carryOut ⟨.idle, some (.release notice)⟩).1
      [.surface (.setReadOnly false)] :=
    (callSurface_notes (.setReadOnly false) s).trans <|
      (dropPending_notes _).trans (.of_journal_eq rfl)
  refine ⟨⟨[notice], rfl, rfl⟩, ⟨_, notes a, notes b⟩, .inl ?_⟩
  exact { h with idle := ⟨rfl, rfl⟩, pending := rfl, cursor := rfl }

/-- Where a session is entered, the surface is taken back and the deferred calls are given up. So
nothing is left in which the players differ. -/
theorem Alike.enter (h : Alike n a b) (hactions : a.hasActions = true) :
    Paired n a b (a.carryOut ⟨.playing, some .enter⟩) (b.carryOut ⟨.playing, some .enter⟩) := by
  have notes (s : Stage) : Notes Event.shown? s (s.carryOut ⟨.playing, some .enter⟩).1
      [.surface .revert, .surface (.setReadOnly true), .surface .focus] :=
    (dropPending_notes s).trans <| (callSurface_notes .revert _).trans <|
      (callSurface_notes (.setReadOnly true) _).trans <| (callSurface_notes .focus _).trans <|
      .of_journal_eq rfl
  refine ⟨⟨[], rfl, rfl⟩, ⟨_, notes a, notes b⟩, .inr ?_⟩
  refine ⟨⟨rfl, rfl⟩, h.inFlight, h.queue, ?_, h.tickets⟩
  have hcanonical := h.canonical hactions
  obtain ⟨⟨config, timers, document, ⟨_, cursor, _⟩, inFlight, _, flag⟩,
    ⟨_, canonical, _, _, charWidth, lineHeight⟩, _, tooltip, routines, _, _⟩ := a
  obtain ⟨⟨config', timers', document', ⟨_, cursor', _⟩, inFlight', _, flag'⟩,
    ⟨_, canonical', _, _, charWidth', lineHeight'⟩, _, tooltip', routines', _, _⟩ := b
  obtain rfl : config' = config := h.config
  obtain rfl : timers' = timers := h.timers
  obtain rfl : document' = document := h.document
  obtain rfl : cursor' = cursor := h.cursor
  obtain rfl : inFlight' = inFlight := h.inFlight.2.trans h.inFlight.1.symm
  obtain rfl : flag' = flag := h.flag
  obtain rfl : canonical' = canonical := hcanonical
  obtain rfl : charWidth' = charWidth := h.charWidth
  obtain rfl : lineHeight' = lineHeight := h.lineHeight
  obtain rfl : tooltip' = tooltip := h.tooltip
  obtain rfl : routines' = routines := h.routines
  rfl

theorem Alike.idled (h : Alike n a b) : Alike n (a.setStatus .idle) (b.setStatus .idle) :=
  { h with idle := ⟨rfl, rfl⟩ }

theorem Alike.command (h : Alike n a b) (c : Command) :
    Paired n a b (a.command c) (b.command c) := by
  have hissued := h.record (.issued c a.hasActions) (.issued c b.hasActions)
  have notes (s : Stage) : Notes Event.shown? s (s.record (.issued c s.hasActions)) [] :=
    ⟨[_], rfl, rfl⟩
  rw [command_eq, command_eq, h.idle.1, h.idle.2, h.hasActions]
  rw [h.hasActions] at hissued
  refine Paired.after ?_ (notes a) (h.hasActions ▸ notes b)
  generalize hactions : a.hasActions = actions at hissued ⊢
  cases c with
  | play =>
      cases actions with
      | true => exact hissued.enter hactions
      | false => exact hissued.release .finished
  | pause => exact hissued.idled.paired (.of_journal_eq rfl) (.of_journal_eq rfl)
  | stop => exact hissued.release .stopped
  | finish => exact hissued.release .finished

theorem Alike.moved (h : Alike n a b) (cursor : Int) :
    Alike n (a.setCursor cursor) (b.setCursor cursor) :=
  { h with cursor := rfl }

theorem Alike.presented (h : Alike n a b) (tooltip : Tooltip) :
    Alike n { a with tooltip } { b with tooltip } :=
  { h with tooltip := rfl }

theorem Alike.loaded (h : Alike n a b) (document : Document) :
    Paired n a b (a.loadDocument document, []) (b.loadDocument document, []) := by
  refine ⟨⟨[], rfl, rfl⟩, ⟨[.surface _], ⟨[_], rfl, rfl⟩, ⟨[_], rfl, rfl⟩⟩, .inl ?_⟩
  exact { h with document := rfl, canonical := fun _ => rfl }

theorem Alike.flagged (h : Alike n a b) (value : Bool) :
    Alike n (a.flagged value) (b.flagged value) :=
  { h with flag := rfl }

theorem Alike.follow (h : Alike n a b) (value : Bool) :
    Paired n a b (a.follow value) (b.follow value) := by
  have hflagged := h.flagged value
  have notes (s : Stage) : Notes Event.shown? s (s.flagged value) [] := ⟨[_], rfl, rfl⟩
  by_cases hchanged : value ≠ a.player.flag
  · rw [follow_changed hchanged, follow_changed (h.flag ▸ hchanged)]
    exact (hflagged.command _).after (notes a) (notes b)
  · rw [follow_unchanged hchanged, follow_unchanged (h.flag ▸ hchanged)]
    exact hflagged.paired (notes a) (notes b)

/-- The user edits each surface as far as it lets him, and outside a session this does not show. -/
theorem Alike.edited (h : Alike n a b) (text : String) : Alike n (a.edit text) (b.edit text) := by
  have hedit (s : Stage) : (s.edit text).surface.charWidth = s.surface.charWidth ∧
      (s.edit text).surface.lineHeight = s.surface.lineHeight ∧
      (s.edit text).surface.canonical = s.surface.canonical := by
    unfold Stage.edit Surface.edit
    split <;> exact ⟨rfl, rfl, rfl⟩
  obtain ⟨hwidth, hheight, hcanonical⟩ := hedit a
  obtain ⟨hwidth', hheight', hcanonical'⟩ := hedit b
  refine { h with charWidth := ?_, lineHeight := ?_, canonical := ?_ }
  · rw [hwidth, hwidth', h.charWidth]
  · rw [hheight, hheight', h.lineHeight]
  · rw [hcanonical, hcanonical']
    exact h.canonical

theorem Alike.receive (h : Alike n a b) (input : Tooltip.Input) :
    Paired n a b (a.receive input) (b.receive input) := by
  rw [receive_eq, receive_eq, h.tooltip, h.cursor, h.document]
  generalize a.tooltip.receive input a.cursor a.player.document.actions.length = reacted
  obtain ⟨tooltip, reaction⟩ := reacted
  have hpresented := h.presented tooltip
  have notes (s : Stage) : Notes Event.shown? s { s with tooltip } [] := .of_journal_eq rfl
  cases reaction with
  | none => exact hpresented.paired (notes a) (notes b)
  | some reaction =>
      cases reaction with
      | moveTo cursor =>
          exact (hpresented.moved cursor).paired (.of_journal_eq rfl) (.of_journal_eq rfl)
      | command c => exact (hpresented.command c).after (notes a) (notes b)

theorem Alike.load (h : Alike n a b) (text : String) :
    Paired n a b ((a.load text).2, []) ((b.load text).2, []) := by
  unfold Stage.load
  rw [h.config]
  cases Document.parse a.player.config.separator text with
  | error cause => exact h.paired (.of_journal_eq rfl) (.of_journal_eq rfl)
  | ok document => exact h.loaded document

/-- Outside a session the tooltip has no view, so that it is not aligned. -/
theorem align_of_idle (h : s.status = .idle) : s.align.2 = s := by
  have hview : s.view = .ok none := by
    unfold view Tooltip.View.of
    rw [if_pos h]
  unfold align
  rw [hview]

/-- An operation does the same for both players, apart from its reply. The exception is `elapse`,
whose reply comes in the end. -/
theorem Alike.perform (h : Alike n a b) {op : Operation} (hop : op.isDiscreet tips = true)
    (next : Reply → Routine) :
    (∃ time, op = .elapse time) ∨ ∃ r q reply reply', Paired n a b r q ∧
      a.perform op next = (r.1, r.2 ++ [.answer reply next]) ∧
      b.perform op next = (q.1, q.2 ++ [.answer reply' next]) := by
  have hsame : Paired n a b (a, []) (b, []) := h.paired (.of_journal_eq rfl) (.of_journal_eq rfl)
  cases op with
  | elapse time => exact .inl ⟨time, rfl⟩
  | command c => exact .inr ⟨_, _, _, _, h.command c, rfl, rfl⟩
  | toggle =>
      have hplay (s : Stage) (hs : s.status = .idle) : s.perform .toggle next =
          ((s.command .play).1, (s.command .play).2 ++ [.answer .nothing next]) := by
        simp only [Stage.perform, hs]
        rfl
      exact .inr ⟨_, _, _, _, h.command .play, hplay a h.idle.1, hplay b h.idle.2⟩
  | follow value => exact .inr ⟨_, _, _, _, h.follow value, rfl, rfl⟩
  | setCursor cursor =>
      have hmoved := (h.moved cursor).paired (a := a) (b := b)
        (.of_journal_eq rfl) (.of_journal_eq rfl)
      exact .inr ⟨_, _, _, _, hmoved, rfl, rfl⟩
  | advance =>
      have hmoved := (h.moved (Playback.next a.cursor)).paired (a := a) (b := b)
        (.of_journal_eq rfl) (.of_journal_eq rfl)
      exact .inr ⟨_, _, _, _, hmoved, rfl, by rw [← h.cursor]; rfl⟩
  | retreat =>
      have hmoved := (h.moved (Playback.previous a.cursor)).paired (a := a) (b := b)
        (.of_journal_eq rfl) (.of_journal_eq rfl)
      exact .inr ⟨_, _, _, _, hmoved, rfl, by rw [← h.cursor]; rfl⟩
  | load text => exact .inr ⟨_, _, _, _, h.load text, rfl, rfl⟩
  | loadDocument document => exact .inr ⟨_, _, _, _, h.loaded document, rfl, rfl⟩
  | edit text =>
      have hedited := (h.edited text).paired (a := a) (b := b)
        (.of_journal_eq rfl) (.of_journal_eq rfl)
      exact .inr ⟨_, _, _, _, hedited, rfl, rfl⟩
  | fire timer => cases hop
  | schedule timer delay => cases hop
  | tooltip input => exact .inr ⟨_, _, _, _, h.receive input, rfl, rfl⟩
  | align =>
      have halign (s : Stage) (hs : s.status = .idle) : s.perform .align next =
          (s, [.answer s.align.1 next]) := congrArg (·, _) (align_of_idle hs)
      exact .inr ⟨_, _, _, _, hsame, halign a h.idle.1, halign b h.idle.2⟩
  | resetTooltip =>
      have hreset := (h.presented {}).paired (a := a) (b := b)
        (.of_journal_eq rfl) (.of_journal_eq rfl)
      exact .inr ⟨_, _, _, _, hreset, rfl, rfl⟩
  | ask query => exact .inr ⟨_, _, _, _, hsame, rfl, rfl⟩

theorem not_playing_of_idle (h : s.status = .idle) : s.status ≠ .playing := by
  rw [h]
  nofun

/-- A request outside a session is deferred. -/
theorem Alike.request (h : Alike n a b) (label : String) (delay : Duration) (body : Routine) :
    Alike n (a.request label delay body).1 (b.request label delay body).1 := by
  rw [request_deferred (not_playing_of_idle h.idle.1),
    request_deferred (not_playing_of_idle h.idle.2)]
  refine { h with pending := ?_, tickets := ?_ }
  · show (b.pending ++ [b.asked label delay body]).length =
      (a.pending ++ [a.asked label delay body]).length
    rw [List.length_append, List.length_append, h.pending]
    rfl
  · show b.tickets + 1 = a.tickets + 1 + n
    rw [h.tickets, Nat.add_right_comm]

/-- A clock without timers reaches any time. -/
theorem Alike.reached (h : Alike n a b) (time time' : Duration) :
    Alike n { a with clock.now := time } { b with clock.now := time' } :=
  { h with }

/-! ## What comes to an end on one comes to an end on the other -/

/-- From `a` to `a'` the same shows as from `b` to `b'`, and one end is as clean as the other, with
the same document and the same flag. -/
structure Echo (n : Nat) (a a' b b' : Stage) : Prop where
  shown : SameShown n a a' b b'
  clean : a'.Clean → b'.Clean
  document : b'.player.document = a'.player.document
  flag : b'.player.flag = a'.player.flag

theorem Alike.echo (h : Alike n a b) : Echo n a a b b := by
  refine ⟨.silent (.of_journal_eq rfl) (.of_journal_eq rfl), ?_, h.document, h.flag⟩
  intro ha
  have hpending : b.pending.length = 0 := by
    rw [h.pending, ha.pending]
    rfl
  exact ⟨h.idle.2, h.cursor.trans ha.cursor, List.length_eq_zero_iff.1 hpending, h.inFlight.2,
    h.queue.2⟩

theorem Echo.after {a₁ b₁ : Stage} (h : Echo n a₁ a' b₁ b') (hshown : SameShown n a a₁ b b₁) :
    Echo n a a' b b' :=
  { h with shown := hshown.trans h.shown }

theorem filterMap_shown?_later {k k' : Shift} (h : k'.tickets = k.tickets + n) (es : List Event) :
    (es.map (Event.later k')).filterMap Event.shown? =
      ((es.map (Event.later k)).filterMap Event.shown?).map (Event.later (.ofTickets n)) := by
  rw [List.filterMap_map, List.filterMap_map, List.map_filterMap]
  exact List.filterMap_congr fun e _ => Event.shown?_later h e

theorem journal_later (k : Shift) (history : List Event) (s : Stage) :
    (s.later k history).journal = (s.journal.reverse.map (Event.later k)).reverse ++ history := by
  rw [List.map_reverse, List.reverse_reverse]
  rfl

/-- Twins go the same way, each with its own numbers. -/
theorem Twins.echo (h : Twins n a b) {r : Routine} (hr : r.Discreet tips)
    (hroutines : ∀ name body, a.routines name = some body → body.Discreet tips)
    (hends : Machine.Ends [.run r] a a') :
    ∃ b', Machine.Ends [.run r] b b' ∧ Echo n a a' b b' := by
  have ha := eq_later_origin h.pending.1 h.inFlight.1 h.queue.1
  have hb := eq_later_origin h.pending.2 h.inFlight.2 h.queue.2
  rw [h.origin] at hb
  have horigin : (⟨a.origin, [.run r]⟩ : Machine).Discreet tips := by
    refine ⟨⟨?_, ?_, hroutines⟩, List.forall_mem_singleton.2 hr⟩
    · intro d hd
      rw [show a.origin.pending = [] from h.pending.1] at hd
      cases hd
    · intro p hp
      rw [show a.origin.player.inFlight = [] from h.inFlight.1] at hp
      cases hp
  have hends' : Machine.Ends ([.run r].map (Frame.later a.numbers))
      (a.origin.later a.numbers a.journal) a' := ha ▸ hends
  obtain ⟨o, rfl, ho⟩ := hends'.sooner horigin
  have hother : Machine.Ends ([.run r].map (Frame.later b.numbers))
      (a.origin.later b.numbers b.journal) (o.later b.numbers b.journal) := ho.later horigin
  rw [← hb] at hother
  refine ⟨_, hother, ⟨_, ⟨_, journal_later _ _ o, rfl⟩, ⟨_, journal_later _ _ o, ?_⟩⟩, ?_, rfl, rfl⟩
  · exact filterMap_shown?_later h.tickets _
  · intro hclean
    exact (Clean.later _ _).2 ((Clean.later _ _).1 hclean)

/-- The host is told. -/
def told (ns : List Notice) (s : Stage) : Stage :=
  ns.foldl (fun s notice => s.record (.notified notice)) s

theorem told_notes (ns : List Notice) (s : Stage) :
    Notes Event.shown? s (s.told ns) (ns.map .notified) := by
  induction ns generalizing s with
  | nil => exact .of_journal_eq rfl
  | cons notice ns ih =>
      have htold : Notes Event.shown? s (s.record (.notified notice)) [.notified notice] :=
        ⟨[_], rfl, rfl⟩
      exact htold.trans (ih _)

theorem told_sameShown (ns : List Notice) (a b : Stage) :
    SameShown n a (a.told ns) b (b.told ns) := by
  refine ⟨ns.map .notified, told_notes ns a, ?_⟩
  rw [List.map_map]
  exact told_notes ns b

theorem Matched.told (h : Matched n a b) (ns : List Notice) :
    Matched n (a.told ns) (b.told ns) := by
  induction ns generalizing a b with
  | nil => exact h
  | cons notice ns ih => exact ih (h.record _ _)

theorem told_routines (ns : List Notice) (s : Stage) : (s.told ns).routines = s.routines := by
  induction ns generalizing s with
  | nil => rfl
  | cons notice ns ih => exact ih _

end Stage

namespace Machine

open Stage

variable {n : Nat} {a a' a₁ b b' b₁ s s' s₁ : Stage} {f : Frame} {fs gs : List Frame}

theorem ends_cons_iff (hstep : ∀ rest, (⟨s, f :: rest⟩ : Machine).step = some ⟨s₁, gs ++ rest⟩) :
    Ends (f :: fs) s s' ↔ Ends (gs ++ fs) s₁ s' :=
  ⟨fun h => h.of_cons hstep, .cons hstep⟩

/-- The host is told, and whoever waits for the reply goes on. -/
theorem ends_told_iff (ns : List Notice) {reply : Reply} {next : Routine} :
    Ends (ns.map .notify ++ [.answer reply fun _ => next]) s s' ↔
      Ends [.run next] ((s.told ns).record (.replied reply)) s' := by
  induction ns generalizing s with
  | nil =>
      have hanswer (rest : List Frame) :
          (⟨s, .answer reply (fun _ => next) :: rest⟩ : Machine).step =
            some ⟨s.record (.replied reply), [.run next] ++ rest⟩ := rfl
      exact ends_cons_iff hanswer
  | cons notice ns ih =>
      have htell (rest : List Frame) : (⟨s, .notify notice :: rest⟩ : Machine).step =
          some ⟨s.record (.notified notice), [] ++ rest⟩ := rfl
      exact (ends_cons_iff htell).trans ih

theorem ends_perform_iff {op : Operation} {next : Reply → Routine} :
    Ends [.run (.perform op next)] s s' ↔ Ends (s.perform op next).2 (s.perform op next).1 s' := by
  have hperform (rest : List Frame) : (⟨s, .run (.perform op next) :: rest⟩ : Machine).step =
      some ⟨(s.perform op next).1, (s.perform op next).2 ++ rest⟩ := rfl
  rw [ends_cons_iff hperform, List.append_nil]

/-- Without timers a time is reached at once. -/
theorem ends_elapse_iff {time : Duration} {next : Routine} (hqueue : s.clock.queue = []) :
    Ends [.run (.perform (.elapse time) fun _ => next)] s s' ↔
      Ends [.run next]
        (({ s with clock.now := s.clock.now + time }).record (.replied (.count 0))) s' := by
  have hreach (rest : List Frame) :
      (⟨s, .clock (s.clock.now + time) 0 (fun _ => next) :: rest⟩ : Machine).step =
        some ⟨{ s with clock.now := s.clock.now + time },
          [.answer (.count 0) fun _ => next] ++ rest⟩ := by
    simp [step, stepClock, Clock.popDue?, hqueue]
  rw [ends_perform_iff]
  exact (ends_cons_iff hreach).trans (ends_told_iff [])

theorem ends_request_iff {label : String} {delay : Duration} {body next : Routine}
    (hs : s.status = .idle) :
    Ends [.run (.request label delay body next)] s s' ↔
      Ends [.run next] (s.request label delay body).1 s' := by
  have hrequest (rest : List Frame) :
      (⟨s, .run (.request label delay body next) :: rest⟩ : Machine).step =
        some ⟨(s.request label delay body).1, [.run next] ++ rest⟩ := by
    simp only [step, stepRoutine, request_deferred (not_playing_of_idle hs)]
    rfl
  exact ends_cons_iff hrequest

/-- What comes to an end from `r` on, on each of two stages, does so from `next` on, on stages of
which the same has shown since, and which are matched. -/
structure Parallel (n : Nat) (r next : Routine) (a b a₁ b₁ : Stage) : Prop where
  left : ∀ a', Ends [.run r] a a' ↔ Ends [.run next] a₁ a'
  right : ∀ b', Ends [.run r] b b' ↔ Ends [.run next] b₁ b'
  shown : SameShown n a a₁ b b₁
  routines : a₁.routines = a.routines
  stages : Matched n a₁ b₁

theorem parallel_perform (h : Alike n a b) {op : Operation} (hop : op.isDiscreet tips = true)
    (next : Routine) :
    ∃ a₁ b₁, Parallel n (.perform op fun _ => next) next a b a₁ b₁ := by
  obtain ⟨time, rfl⟩ | ⟨r, q, reply, reply', hpaired, ha, hb⟩ := h.perform hop fun _ => next
  · have hreached := (h.reached (a.clock.now + time) (b.clock.now + time)).record
      (.replied (.count 0)) (.replied (.count 0))
    have notes (s : Stage) : Notes Event.shown? s
        (({ s with clock.now := s.clock.now + time }).record (.replied (.count 0))) [] :=
      ⟨[_], rfl, rfl⟩
    exact ⟨_, _, fun _ => ends_elapse_iff h.queue.1, fun _ => ends_elapse_iff h.queue.2,
      .silent (notes a) (notes b), rfl, .inl hreached⟩
  · obtain ⟨⟨ns, hns, hns'⟩, hshown, hstages⟩ := hpaired
    have notes (s : Stage) (reply : Reply) : Notes Event.shown? s (s.record (.replied reply)) [] :=
      ⟨[_], rfl, rfl⟩
    have hroutines := (a.perform_turn op fun _ => next).upholds.routines
    rw [ha] at hroutines
    refine ⟨(r.1.told ns).record (.replied reply), (q.1.told ns).record (.replied reply'), ?_, ?_,
      ?_, ?_, ?_⟩
    · intro a'
      rw [ends_perform_iff, ha, hns]
      exact ends_told_iff ns
    · intro b'
      rw [ends_perform_iff, hb, hns']
      exact ends_told_iff ns
    · exact (hshown.trans (told_sameShown ns r.1 q.1)).trans (.silent (notes _ _) (notes _ _))
    · exact (told_routines ns r.1).trans hroutines
    · exact (hstages.told ns).record _ _

theorem parallel_request (h : Alike n a b) (label : String) (delay : Duration)
    (body next : Routine) :
    ∃ a₁ b₁, Parallel n (.request label delay body next) next a b a₁ b₁ := by
  have notes {s : Stage} (hs : s.status = .idle) :
      Notes Event.shown? s (s.request label delay body).1 [] := by
    rw [request_deferred (not_playing_of_idle hs)]
    exact ⟨[.requested _ _, .deferred _], rfl, rfl⟩
  exact ⟨_, _, fun _ => ends_request_iff h.idle.1, fun _ => ends_request_iff h.idle.2,
    .silent (notes h.idle.1) (notes h.idle.2), (request_upholds label delay body a).routines,
    .inl (h.request label delay body)⟩

/-- Two stages that go on in parallel end alike, if they do from where they have come to. -/
theorem Parallel.echo {r next : Routine} (h : Parallel n r next a b a₁ b₁)
    (hends : Ends [.run r] a a')
    (hnext : Ends [.run next] a₁ a' → ∃ b', Ends [.run next] b₁ b' ∧ Echo n a₁ a' b₁ b') :
    ∃ b', Ends [.run r] b b' ∧ Echo n a a' b b' := by
  obtain ⟨b', hends', hecho⟩ := hnext ((h.left a').1 hends)
  exact ⟨b', (h.right b').2 hends', hecho.after h.shown⟩

/-- A script goes the same way on two stages that are matched. The induction is on the script; it
ends where a session is entered, since from there on the stages are twins. -/
theorem scripted_echo {r : Routine} (hr : r.Scripted tips) (h : Matched n a b)
    (hroutines : ∀ name body, a.routines name = some body → body.Discreet tips)
    (hends : Ends [.run r] a a') : ∃ b', Ends [.run r] b b' ∧ Echo n a a' b b' := by
  induction hr generalizing a b with
  | done =>
      have hdone (s : Stage) (rest : List Frame) :
          (⟨s, .run .done :: rest⟩ : Machine).step = some ⟨s, [] ++ rest⟩ := rfl
      cases h with
      | inl halike =>
          cases (ends_cons_iff (hdone a)).1 hends
          exact ⟨b, (ends_cons_iff (hdone b)).2 (.nil b), halike.echo⟩
      | inr htwins => exact htwins.echo .done hroutines hends
  | @perform op next hop hnext ih =>
      cases h with
      | inl halike =>
          obtain ⟨a₁, b₁, hparallel⟩ := parallel_perform halike hop next
          exact hparallel.echo hends (ih hparallel.stages (hparallel.routines ▸ hroutines))
      | inr htwins => exact htwins.echo (.perform hop fun _ => hnext.discreet) hroutines hends
  | @request label delay body next hbody hnext ih =>
      cases h with
      | inl halike =>
          obtain ⟨a₁, b₁, hparallel⟩ := parallel_request halike label delay body next
          exact hparallel.echo hends (ih hparallel.stages (hparallel.routines ▸ hroutines))
      | inr htwins => exact htwins.echo (.request hbody hnext.discreet) hroutines hends

/-! ## The same again -/

theorem Ends.upholds (h : Ends fs s s') : s.Upholds s' := by
  induction h with
  | nil s => exact .refl s
  | cons hstep _ ih =>
      obtain ⟨_, _, _, _, _, hturn⟩ := step_turn (hstep [])
      exact hturn.upholds.trans ih

theorem Run.sourced {past : List Machine} {m : Machine} (h : Run past m) : m.stage.Sourced :=
  h.stage_induction (fun _ _ _ _ hactions => nomatch hactions) fun _ _ _ _ hturn =>
    hturn.upholds.sourced

/-- Where nobody uses the tooltip it stays as it is. -/
theorem step_tooltip {m m' : Machine} (h : m.Discreet false) (hm : m.step = some m') :
    m'.stage.tooltip = m.stage.tooltip := by
  obtain ⟨f, rest, p, hframes, rfl, hplay⟩ := step_play hm
  have hf := h.frames f (hframes ▸ List.mem_cons_self)
  cases hplay with
  | performed op next =>
      cases hf with
      | perform hop _ =>
          cases op with
          | command c => exact (command_setting c _).tooltip
          | toggle => exact (command_setting _ _).tooltip
          | follow value => exact follow_tooltip value _
          | load text => exact (load_setting text _).tooltip
          | fire timer => cases hop
          | tooltip input => cases hop
          | align => cases hop
          | resetTooltip => cases hop
          | _ => rfl
  | requested label delay body next => exact (request_setting label delay body _).tooltip
  | replayed _ _ => exact (launch_setting _ _).tooltip
  | popped fired next _ => exact (fire_setting _ _).tooltip
  | _ => rfl

theorem Ends.tooltip (h : Ends fs s s') (hd : (⟨s, fs⟩ : Machine).Discreet false) :
    s'.tooltip = s.tooltip := by
  induction h with
  | nil s => rfl
  | @cons f fs gs s s₁ s' hstep _ ih =>
      exact (ih (step_discreet hd (hstep fs))).trans (step_tooltip hd (hstep fs))

/-- **What a host has done shows the same when it is done again.** A script begins and ends with
nothing left of a session, with the same document and the same flag, and with the same tooltip where
it is used. Nobody looks at the time or handles timers. Then the script comes to an end again, with
nothing left again, and the same calls of the surface, the same notices and the same starts of calls
show as before; only the tickets of the calls have moved on. -/
theorem ends_again {past : List Machine} {r : Routine} (hrun : Run past ⟨s, []⟩) (hclean : s.Clean)
    (hroutines : ∀ name body, s.routines name = some body → body.Discreet tips)
    (hr : r.Scripted tips) (hends : Ends [.run r] s s') (hclean' : s'.Clean)
    (hdocument : s'.player.document = s.player.document)
    (hflag : s'.player.flag = s.player.flag) (htips : tips = true → s'.tooltip = s.tooltip) :
    ∃ s'', Ends [.run r] s' s'' ∧ s''.Clean ∧ s''.player.document = s.player.document ∧
      s''.player.flag = s.player.flag ∧
      (s''.since s').filterMap Event.shown? = ((s'.since s).filterMap Event.shown?).map
        (Event.later (.ofTickets (s'.tickets - s.tickets))) := by
  have hupholds := hends.upholds
  have htooltip : s'.tooltip = s.tooltip := by
    cases tips with
    | true => exact htips rfl
    | false =>
        refine hends.tooltip ⟨⟨?_, ?_, hroutines⟩, List.forall_mem_singleton.2 hr.discreet⟩
        · rw [hclean.pending]
          exact fun d hd => absurd hd List.not_mem_nil
        · rw [hclean.inFlight]
          exact fun p hp => absurd hp List.not_mem_nil
  have hcanonical : s.hasActions = true → s'.surface.canonical = s.surface.canonical := by
    intro hactions
    have hactions' : s'.hasActions = true := by
      unfold hasActions
      rw [hdocument]
      exact hactions
    rw [hupholds.sourced hrun.sourced hactions', hrun.sourced hactions, hdocument]
  have halike : Alike (s'.tickets - s.tickets) s s' :=
    { hupholds with
      idle := ⟨hclean.idle, hclean'.idle⟩
      inFlight := ⟨hclean.inFlight, hclean'.inFlight⟩
      queue := ⟨hclean.queue, hclean'.queue⟩
      pending := by rw [hclean.pending, hclean'.pending]
      cursor := hclean'.cursor.trans hclean.cursor.symm
      document := hdocument
      flag := hflag
      tooltip := htooltip
      canonical := hcanonical
      tickets := (Nat.add_sub_cancel' hupholds.tickets).symm }
  obtain ⟨s'', hends', ⟨xs, ⟨es, hjournal, hes⟩, es', hjournal', hes'⟩, hclean'', hdocument'',
    hflag''⟩ := scripted_echo hr (.inl halike) hroutines hends
  refine ⟨s'', hends', hclean'' hclean', hdocument''.trans hdocument, hflag''.trans hflag, ?_⟩
  rw [since_eq hjournal, since_eq hjournal', hes, hes']

end Machine

/-! ## An example -/

/-- A host that loads a document. -/
def rising : Routine :=
  .perform (.loadDocument ⟨"let a = 1;", [⟨"step", .text "0", none⟩]⟩) fun _ => .done

/-- A new player with a document loaded. -/
def premiere : Stage := (Machine.run 3 ⟨.plain, [.run rising]⟩).stage

/-- A host that edits the surface and requests a call too early, plays, requests a call that
requests another one, lets some time go by and stops. -/
def recital : Routine :=
  .perform (.edit "mine") fun _ => .request "early" 0 .done <| .perform (.command .play) fun _ =>
    .request "tick" 5 (.request "tock" 0 .done .done) <| .perform (.elapse 7) fun _ =>
      .perform (.command .stop) fun _ => .done

/-- The stage after a recital. -/
def recited : Stage := (Machine.run 30 ⟨premiere, [.run recital]⟩).stage

namespace Machine

/-- The numbers have moved on, and still the second recital shows what the first one has shown. -/
theorem recital_again :
    recited.numbers = ⟨3, 1, 1, 7⟩ ∧ ∃ s'', Ends [.run recital] recited s'' ∧
      (s''.since recited).filterMap Event.shown? =
        [.surface .revert, .surface (.setReadOnly true), .surface .focus, .started 4 "tick",
          .started 5 "tock", .surface (.setReadOnly false), .notified .stopped] := by
  obtain ⟨past, hrun⟩ : ∃ past, Run past ⟨premiere, []⟩ :=
    ((Run.new Stage.plain_new).host rising).exec 3
  have hends : Ends [.run recital] premiere recited :=
    Leads.ends (Leads.exec 30 ⟨premiere, [.run recital]⟩)
  have hscripted : recital.Scripted false :=
    .perform rfl <| .request .done <| .perform rfl <| .request (.request .done .done) <|
      .perform rfl <| .perform rfl .done
  obtain ⟨s'', hends', -, -, -, hshown⟩ := ends_again hrun ⟨rfl, rfl, rfl, rfl, rfl⟩
    (fun _ _ h => nomatch h) hscripted hends ⟨rfl, rfl, rfl, rfl, rfl⟩ rfl rfl nofun
  exact ⟨rfl, s'', hends', hshown.trans rfl⟩

end Machine

end Walkthrough
