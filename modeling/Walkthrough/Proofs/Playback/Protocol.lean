import Walkthrough.Proofs.Playback.Replay

/-!
# The protocol of a session

What shows outside a player is what it asks of its surface, what it tells its host and which calls
it starts. All of it comes in blocks. A session is entered by one block, in which the surface is
taken back, locked and focused, and left by another one, in which it is unlocked and the host is
told; while it is on, the surface may be focused again. Documents are loaded and calls are started
between the blocks, but never within one.

* `Block`, `Block.events` — the blocks, and what shows of each.
* `Phase`, `Phase.after?` — a player is closed or opened, and which blocks may occur then.
* `Stage.Shows` — what shows of a step: whole blocks, or a release whose notice is due.
* `step_shows` — nothing else shows of a step.
* `follows_protocol` — in every run the blocks follow the protocol.
-/

set_option autoImplicit false

namespace Walkthrough

/-- Whether an event shows outside: the surface is called, the host is told or a call is started. -/
def Event.isShown : Event → Bool
  | .surface _ | .notified _ | .started .. => true
  | _ => false

/-- The event, if it shows. -/
def Event.shown? (e : Event) : Option Event := if e.isShown then some e else none

/-- What shows together. -/
inductive Block where
  | entry
  | focus
  | release (notice : Notice)
  | load (text : String)
  | start (ticket : Nat) (label : String)
  deriving DecidableEq, Repr

/-- The events of a block. -/
def Block.events : Block → List Event
  | .entry => [.surface .revert, .surface (.setReadOnly true), .surface .focus]
  | .focus => [.surface .focus]
  | .release notice => [.surface (.setReadOnly false), .notified notice]
  | .load text => [.surface (.setContent text)]
  | .start ticket label => [.started ticket label]

theorem Block.eq_release_of_mem {notice : Notice} {b : Block} (h : .notified notice ∈ b.events) :
    b = .release notice := by
  cases b <;> simp [events] at h
  exact h ▸ rfl

/-- A player is opened by the entry of a session and closed by a release. -/
inductive Phase where
  | closed
  | opened
  deriving DecidableEq, Repr

/-- The phase after a block, if the block may occur. A closed player may be entered and released, an
opened one focused and released. Loads and starts may occur in both phases. -/
def Phase.after? : Phase → Block → Option Phase
  | phase, .load _ => some phase
  | phase, .start .. => some phase
  | _, .release _ => some .closed
  | .closed, .entry => some .opened
  | .opened, .focus => some .opened
  | _, _ => none

/-- The phase of a player with a status. -/
def Status.phase : Status → Phase
  | .idle => .closed
  | _ => .opened

/-- Whether a frame tells the host. -/
def Frame.isNotice : Frame → Bool
  | .notify _ => true
  | _ => false

/-- Whether the host is still to be told by one of the frames. -/
def telling (fs : List Frame) : Bool := fs.any (·.isNotice)

@[simp] theorem telling_cons (f : Frame) (fs : List Frame) :
    telling (f :: fs) = (f.isNotice || telling fs) := rfl

@[simp] theorem telling_append (fs gs : List Frame) :
    telling (fs ++ gs) = (telling fs || telling gs) := by
  simp [telling]

theorem telling_tail {fs : List Frame} (h : telling fs = false) : telling fs.tail = false := by
  cases fs with
  | nil => rfl
  | cons f fs => exact (Bool.or_eq_false_iff.1 h).2

/-- A command stays in the phase of its status where it has no effect, enters it, goes on with it or
releases it. -/
theorem Transition.phase_of (status : Status) (c : Command) (hasActions : Bool) :
    match Transition.of status c hasActions with
    | ⟨status', none⟩ => status'.phase = status.phase
    | ⟨status', some .enter⟩ => status.phase = .closed ∧ status'.phase = .opened
    | ⟨status', some .resume⟩ => status.phase = .opened ∧ status'.phase = .opened
    | ⟨status', some (.release _)⟩ => status' = .idle := by
  cases status <;> cases c <;> cases hasActions <;> simp [Transition.of, Status.phase]

namespace Stage

/-- A player that has been reset: idle, at the first action, with nothing deferred. -/
structure Reset (s : Stage) : Prop where
  status : s.status = .idle
  cursor : s.cursor = 0
  pending : s.pending = []

/-- From `s` to `s'` nothing shows, and the phase stays. -/
structure Silent (s s' : Stage) : Prop where
  phase : s'.status.phase = s.status.phase
  notes : Notes Event.shown? s s' []

/-- What shows where the stage `s` becomes `r.1` and the frames `r.2` come next. -/
inductive Shows (s : Stage) (r : Stage × List Frame) : Prop where
  /-- whole blocks, which may occur in the phase, and no release -/
  | blocks (bs : List Block) : (∀ notice, .release notice ∉ bs) →
      bs.foldlM Phase.after? s.status.phase = some r.1.status.phase →
      Notes Event.shown? s r.1 (bs.flatMap Block.events) → telling r.2 = false → Shows s r
  /-- a release; the host is told by the frame that comes next -/
  | release (notice : Notice) (fs : List Frame) : r.2 = .notify notice :: fs →
      Notes Event.shown? s r.1 [.surface (.setReadOnly false)] → r.1.Reset → telling fs = false →
      Shows s r

section

variable {s t u : Stage} {r : Stage × List Frame}

theorem Silent.refl (s : Stage) : Silent s s := ⟨rfl, .of_journal_eq rfl⟩

theorem Silent.trans (h : Silent s t) (h' : Silent t u) : Silent s u :=
  ⟨h'.phase.trans h.phase, h.notes.trans h'.notes⟩

theorem Silent.shows (h : Silent s r.1) (hr : telling r.2 = false) : Shows s r := by
  refine .blocks [] nofun ?_ h.notes hr
  rw [h.phase]
  rfl

theorem Shows.after (h : Shows t r) (ht : Silent s t) : Shows s r := by
  cases h with
  | blocks bs hbs hphase hnotes hr =>
      refine .blocks bs hbs ?_ (ht.notes.trans hnotes) hr
      rw [← ht.phase]
      exact hphase
  | release notice fs hr hnotes hreset hfs =>
      exact .release notice fs hr (ht.notes.trans hnotes) hreset hfs

theorem Shows.append (h : Shows s r) {fs : List Frame} (hfs : telling fs = false) :
    Shows s (r.1, r.2 ++ fs) := by
  cases h with
  | blocks bs hbs hphase hnotes hr =>
      refine .blocks bs hbs hphase hnotes ?_
      simp [hr, hfs]
  | release notice gs hr hnotes hreset hgs =>
      refine .release notice (gs ++ fs) ?_ hnotes hreset ?_
      · simp [hr]
      · simp [hgs, hfs]

end

/-! ## Commands -/

theorem record_silent {e : Event} (h : e.isShown = false) (s : Stage) : Silent s (s.record e) := by
  refine ⟨rfl, [e], rfl, ?_⟩
  simp [Event.shown?, h]

theorem dropPending_notes (s : Stage) : Notes Event.shown? s s.dropPending [] := by
  refine ⟨s.pending.map fun d => .dropped d.call.ticket, rfl, ?_⟩
  simp [Event.shown?, Event.isShown]

theorem callSurface_notes (call : SurfaceCall) (s : Stage) :
    Notes Event.shown? s (s.callSurface call) [.surface call] := ⟨[.surface call], rfl, rfl⟩

/-- A command shows as the block of its effect. -/
theorem command_shows (c : Command) (s : Stage) : Shows s (s.command c) := by
  have hissued : Silent s (s.record (.issued c s.hasActions)) := record_silent rfl s
  have hphase := Transition.phase_of s.status c s.hasActions
  rw [command_eq]
  refine Shows.after ?_ hissued
  generalize s.record (.issued c s.hasActions) = s₀ at hissued ⊢
  rw [← show s₀.status.phase = s.status.phase from hissued.phase] at hphase
  generalize Transition.of s.status c s.hasActions = t at hphase ⊢
  obtain ⟨status, effect⟩ := t
  cases effect with
  | none =>
      have hsilent : Silent s₀ (s₀.setStatus status) := ⟨hphase, .of_journal_eq rfl⟩
      exact hsilent.shows rfl
  | some effect =>
      cases effect with
      | enter =>
          refine .blocks [.entry] (by simp) ?_ ?_ rfl
          · rw [hphase.1]
            exact congrArg some hphase.2.symm
          · exact (dropPending_notes s₀).trans <| (callSurface_notes .revert _).trans <|
              (callSurface_notes (.setReadOnly true) _).trans <|
              (callSurface_notes .focus _).trans (.of_journal_eq rfl)
      | resume =>
          refine .blocks [.focus] (by simp) ?_ ?_ rfl
          · rw [hphase.1]
            exact congrArg some hphase.2.symm
          · exact (callSurface_notes .focus s₀).trans (.of_journal_eq rfl)
      | release notice =>
          refine .release notice [] rfl ?_ ⟨hphase, rfl, rfl⟩ rfl
          exact (callSurface_notes (.setReadOnly false) s₀).trans <|
            (dropPending_notes _).trans (.of_journal_eq rfl)

/-! ## Calls -/

theorem launch_shows (d : Deferred Call) (s : Stage) : Shows s (s.launch d) := by
  unfold launch
  split
  · exact .blocks [.start d.call.ticket d.call.label] (by simp) rfl ⟨[.started _ _], rfl, rfl⟩ rfl
  · split
    · exact (record_silent rfl s).shows rfl
    · refine Silent.shows ⟨rfl, ?_⟩ rfl
      exact ⟨[.launched _ _, .scheduled _ _ _ _], rfl, rfl⟩

theorem request_shows (label : String) (delay : Duration) (body : Routine) (s : Stage) :
    Shows s (s.request label delay body) := by
  have hticketed : Silent s (s.ticketed delay) :=
    ⟨rfl, [.requested s.tickets delay], rfl, rfl⟩
  by_cases hs : s.status = .playing
  · rw [request_playing hs]
    exact (launch_shows _ _).after hticketed
  · rw [request_deferred hs]
    refine Silent.shows (hticketed.trans ?_) rfl
    exact ⟨rfl, [.deferred s.tickets], rfl, rfl⟩

theorem fire_shows (timer : Nat) (s : Stage) : Shows s (s.fire timer) := by
  unfold fire
  split
  · exact (Silent.refl s).shows rfl
  · rename_i call _
    exact .blocks [.start call.ticket call.label] (by simp) rfl ⟨[.started _ _], rfl, rfl⟩ rfl

/-! ## Operations -/

theorem Touched.silent {s s' : Stage} (h : s.Touched s') : Silent s s' := by
  cases h with
  | same => exact .refl s
  | presented tooltip => exact ⟨rfl, .of_journal_eq rfl⟩
  | flagged value => exact ⟨rfl, [.flagged value], rfl, rfl⟩

theorem Deed.shows {op : Operation} {s : Stage} {r : Stage × List Frame} (h : s.Deed op r) :
    Shows s r := by
  cases h with
  | touched h _ => exact h.silent.shows rfl
  | @moved s₀ cursor h _ =>
      have hmoved : Silent s₀ (s₀.setCursor cursor) := ⟨rfl, .of_journal_eq rfl⟩
      exact (h.silent.trans hmoved).shows rfl
  | loaded document _ =>
      exact .blocks [.load document.source] (by simp) rfl ⟨[.surface _], rfl, rfl⟩ rfl
  | edited text _ =>
      have hedited : Silent s (s.edit text) := ⟨rfl, .of_journal_eq rfl⟩
      exact hedited.shows rfl
  | @scheduled timer delay _ =>
      have hscheduled : Silent s (s.schedule timer delay) := ⟨rfl, [.scheduled _ _ _ _], rfl, rfl⟩
      exact hscheduled.shows rfl
  | @fired timer _ => exact fire_shows timer s
  | @commanded _ c h _ => exact (command_shows c _).after h.silent

theorem perform_shows (op : Operation) (next : Reply → Routine) (s : Stage) :
    Shows s (s.perform op next) := by
  obtain ⟨time, rfl⟩ | ⟨r, reply, hdeed, hperform⟩ := s.perform_deed op next
  · exact (Silent.refl s).shows rfl
  · rw [hperform]
    exact hdeed.shows.append rfl

/-! ## Steps -/

/-- Apart from the frames that tell the host, what is played shows whole blocks, or a release whose
notice is due. -/
theorem play_shows {f : Frame} {s : Stage} {r : Stage × List Frame} (h : f.Play s r)
    (hf : f.isNotice = false) : Shows s r := by
  cases h with
  | control rs _ => exact (Silent.refl s).shows (by simp [telling, Frame.isNotice])
  | performed op next => exact perform_shows op next s
  | requested label delay body next => exact (request_shows label delay body s).append rfl
  | @replayed d ds _ _ =>
      have hdequeue : Silent s (s.dequeue d ds) := ⟨rfl, [.replayed _], rfl, rfl⟩
      exact ((launch_shows d _).after hdequeue).append rfl
  | drained _ => exact (Silent.refl s).shows rfl
  | notified notice => cases hf
  | @popped target t clock fired next _ =>
      have hticked : Silent s (s.tick t clock) := ⟨rfl, [.elapsed _ _ _], rfl, rfl⟩
      exact ((fire_shows t.id _).after hticked).append rfl
  | @reached target fired next _ =>
      have hreached : Silent s { s with clock.now := target } := ⟨rfl, .of_journal_eq rfl⟩
      exact hreached.shows rfl
  | answered reply next => exact (record_silent rfl s).shows rfl

end Stage

namespace Machine

variable {past : List Machine} {m m' : Machine}

/-- What shows in the steps of machines, in order. -/
def shown (ms : List Machine) : List Event := (happened ms).filterMap Event.shown?

/-- The notice that comes next, if the innermost frame tells the host. -/
def due (m : Machine) : List Event :=
  match m.frames with
  | .notify notice :: _ => [.notified notice]
  | _ => []

/-- A machine has shown whole blocks that follow the protocol, a notice that is due included. Only
the innermost frame may tell the host, and only of a player that has been reset. -/
structure Follows (past : List Machine) (m : Machine) : Prop where
  blocks : ∃ bs : List Block, bs.foldlM Phase.after? .closed = some m.stage.status.phase ∧
    shown past ++ m.due = bs.flatMap Block.events
  inner : telling m.frames.tail = false
  reset : ∀ notice rest, m.frames = .notify notice :: rest → m.stage.Reset

theorem due_eq_nil (h : telling m.frames = false) : m.due = [] := by
  unfold due
  split
  · rename_i heq
    rw [heq] at h
    cases h
  · rfl

theorem shown_concat (ms : List Machine) (m : Machine) :
    shown (ms ++ [m]) = shown ms ++ m.events.filterMap Event.shown? :=
  filterMap_happened_concat _ ms m

/-- **Of a step whole blocks show**, or a release whose notice is due; a notice that is due shows by
itself. -/
theorem step_shows (h : m.step = some m') :
    ∃ f rest, m.frames = f :: rest ∧
      ((∃ notice, f = .notify notice ∧ m' = ⟨m.stage.record (.notified notice), rest⟩) ∨
        f.isNotice = false ∧
          ∃ fs, m'.frames = fs ++ rest ∧ m.stage.Shows (m'.stage, fs)) := by
  obtain ⟨f, rest, r, hm, rfl, hplay⟩ := step_play h
  refine ⟨f, rest, hm, ?_⟩
  cases hf : f.isNotice with
  | false => exact .inr ⟨rfl, r.2, rfl, Stage.play_shows hplay hf⟩
  | true =>
      cases hplay with
      | notified notice => exact .inl ⟨notice, rfl, rfl⟩
      | _ => cases hf

/-- A step keeps to the protocol. -/
theorem Follows.step (h : Follows past m) (hm : m.step = some m') : Follows (past ++ [m]) m' := by
  obtain ⟨bs, hphase, hshown⟩ := h.blocks
  obtain ⟨f, rest, hf, hcases⟩ := step_shows hm
  have hrest : telling rest = false := by
    have hinner := h.inner
    rwa [hf] at hinner
  rcases hcases with ⟨notice, rfl, rfl⟩ | ⟨hquiet, fs, hfs, hshows⟩
  · -- the notice that was due has shown, and no other one is due
    have hevents : m.events.filterMap Event.shown? = m.due := by
      rw [events_filterMap hm (.record Event.shown? (.notified notice) m.stage), due, hf]
      rfl
    refine ⟨⟨bs, hphase, ?_⟩, telling_tail hrest, ?_⟩
    · have hdue : due ⟨m.stage.record (.notified notice), rest⟩ = [] := due_eq_nil hrest
      rw [shown_concat, hevents, hdue, List.append_nil]
      exact hshown
    · rintro notice' rest' rfl
      cases hrest
  · have hdue : m.due = [] := by
      apply due_eq_nil
      rw [hf, telling_cons, hquiet, hrest]
      rfl
    rw [hdue, List.append_nil] at hshown
    cases hshows with
    | blocks bs' _ hphase' hnotes hfs' =>
        have hframes : telling m'.frames = false := by
          rw [hfs, telling_append, hfs', hrest]
          rfl
        refine ⟨⟨bs ++ bs', ?_, ?_⟩, telling_tail hframes, ?_⟩
        · rw [List.foldlM_append, hphase]
          exact hphase'
        · rw [shown_concat, events_filterMap hm hnotes, due_eq_nil hframes, List.append_nil,
            List.flatMap_append, hshown]
        · rintro notice rest' heq
          rw [heq] at hframes
          cases hframes
    | release notice fs' hfs' hnotes hreset hfs'' =>
        have hframes : m'.frames = .notify notice :: (fs' ++ rest) := by
          rw [hfs, show fs = .notify notice :: fs' from hfs']
          rfl
        refine ⟨⟨bs ++ [.release notice], ?_, ?_⟩, ?_, fun _ _ _ => hreset⟩
        · rw [List.foldlM_append, hphase, hreset.status]
          cases m.stage.status <;> rfl
        · rw [shown_concat, events_filterMap hm hnotes, due, hframes, List.flatMap_append, hshown,
            List.append_assoc]
          rfl
        · rw [hframes, List.tail_cons, telling_append, hfs'', hrest]
          rfl

/-- The host is told only of a player that has been reset. -/
theorem Follows.reset_of_notified (h : Follows past m) {notice : Notice}
    (hnotice : .notified notice ∈ m.events) : m.stage.Reset := by
  obtain ⟨m', hm⟩ := step_of_mem_events hnotice
  obtain ⟨f, rest, hf, hcases⟩ := step_shows hm
  rcases hcases with ⟨notice', rfl, rfl⟩ | ⟨_, fs, _, hshows⟩
  · exact h.reset notice' rest hf
  · have hshown : .notified notice ∈ m.events.filterMap Event.shown? :=
      List.mem_filterMap.2 ⟨_, hnotice, rfl⟩
    cases hshows with
    | blocks bs hbs _ hnotes _ =>
        rw [events_filterMap hm hnotes] at hshown
        obtain ⟨b, hb, he⟩ := List.mem_flatMap.1 hshown
        rw [Block.eq_release_of_mem he] at hb
        exact absurd hb (hbs notice)
    | release _ _ _ hnotes _ _ =>
        rw [events_filterMap hm hnotes] at hshown
        simp at hshown

theorem Run.follows (h : Run past m) : Follows past m := by
  induction h with
  | new h =>
      cases Stage.eq_of_new h
      exact ⟨⟨[], rfl, rfl⟩, rfl, nofun⟩
  | host r _ ih => exact ⟨ih.blocks, rfl, nofun⟩
  | user text _ ih =>
      refine ⟨ih.blocks, ih.inner, ?_⟩
      intro notice rest hf
      obtain ⟨hstatus, hcursor, hpending⟩ := ih.reset notice rest hf
      exact ⟨hstatus, hcursor, hpending⟩
  | step _ hm ih => exact ih.step hm

/-- **What shows of a player follows one protocol.** At every moment of a run all that has shown so
far, with the notice that is due, is a sequence of whole blocks. A session is entered where the
player is closed, and focused only while it is opened; a release closes it. The player is opened
just while it is not idle. A notice that is due is what comes next, and whenever the host is told,
the player has been reset. -/
theorem follows_protocol (h : Run past m) :
    (∃ bs : List Block, bs.foldlM Phase.after? .closed = some m.stage.status.phase ∧
      shown past ++ m.due = bs.flatMap Block.events) ∧
    (∀ e ∈ m.due, m.events = [e]) ∧
    ∀ notice, .notified notice ∈ m.events →
      m.stage.status = .idle ∧ m.stage.cursor = 0 ∧ m.stage.pending = [] := by
  have hfollows := h.follows
  refine ⟨hfollows.blocks, ?_, ?_⟩
  · intro e he
    unfold due at he
    split at he
    · rename_i notice rest hm
      cases List.mem_singleton.1 he
      have hstep : m.step = some ⟨m.stage.record (.notified notice), rest⟩ := by
        unfold step
        rw [hm]
      exact events_eq hstep rfl
    · cases he
  · intro notice hnotice
    obtain ⟨hstatus, hcursor, hpending⟩ := hfollows.reset_of_notified hnotice
    exact ⟨hstatus, hcursor, hpending⟩

/-- The performance when the call that it replays has stopped the session: the host is still to be
told, and nothing else shows before. -/
theorem performance_keeps_protocol :
    (performed 11).due = [.notified .stopped] ∧ (performed 11).events = [.notified .stopped] ∧
      (∃ bs : List Block, bs.foldlM Phase.after? .closed = some .closed ∧
        shown (trace 11 ⟨.plain, [.run performance]⟩) ++ [.notified .stopped] =
          bs.flatMap Block.events) ∧
      (performed 11).stage.status = .idle ∧ (performed 11).stage.cursor = 0 ∧
        (performed 11).stage.pending = [] := by
  have hrun : Run (trace 11 ⟨.plain, [.run performance]⟩) (performed 11) :=
    ((Run.new Stage.plain_new).host performance).trace 11
  have hdue : (performed 11).due = [.notified .stopped] := rfl
  obtain ⟨⟨bs, hphase, hshown⟩, hnext, hreset⟩ := follows_protocol hrun
  have hevents : (performed 11).events = [.notified .stopped] := by
    apply hnext
    rw [hdue]
    exact List.mem_singleton_self _
  refine ⟨hdue, hevents, ⟨bs, hphase, ?_⟩, hreset .stopped ?_⟩
  · rw [← hdue]
    exact hshown
  · rw [hevents]
    exact List.mem_singleton_self _

end Machine

end Walkthrough
