import Walkthrough.Proofs.Tooltip.Leaving

/-!
# Walks that the tooltip guides

A player takes any cursor, inside the list of actions or not. The tooltip only moves it to where
there is an action, and the only other moves are those to the first action where a session ends. So
as long as nobody else moves the cursor or replaces the document, there is always a current action.

* `Stage.strays`, `Machine.strays` — the operations by which others move the cursor or replace the
  document.
* `Tooltip.receive_moveTo` — where an input lets the cursor move.
* `Stage.OnAction` — the cursor is on an action of the document; `step_onAction`: every other step
  keeps it there.
* `cursor_on_action` — so it is there throughout a run.
-/

set_option autoImplicit false

namespace Walkthrough

/-- An input moves the cursor only to where there is an action. -/
theorem Tooltip.receive_moveTo {t t' : Tooltip} {input : Tooltip.Input} {cursor cursor' : Int}
    {total : Nat} (hcursor : 0 ≤ cursor ∧ cursor < total)
    (h : t.receive input cursor total = (t', some (.moveTo cursor'))) :
    0 ≤ cursor' ∧ cursor' < total := by
  by_cases hleaving : t.leaving ∧ input ≠ .rest
  · rw [receive_of_leaving hleaving.1 hleaving.2] at h
    cases h
  · unfold receive at h
    rw [if_neg hleaving] at h
    cases input with
    | next =>
        obtain ⟨-, hmove⟩ := Prod.mk.inj h
        split at hmove <;> cases hmove
        omega
    | previous =>
        obtain ⟨-, hmove⟩ := Prod.mk.inj h
        split at hmove <;> cases hmove
        omega
    | jump target =>
        obtain ⟨-, hmove⟩ := Prod.mk.inj h
        split at hmove <;> cases hmove
        omega
    | close => cases h
    | finish => cases h
    | rest =>
        obtain ⟨-, hmove⟩ := Prod.mk.inj h
        split at hmove <;> cases hmove

namespace Stage

/-- Whether an operation moves the cursor past the tooltip or replaces the document. A text with a
fault replaces nothing. -/
def strays (op : Operation) (s : Stage) : Bool :=
  match op with
  | .setCursor _ | .advance | .retreat | .loadDocument _ => true
  | .load text => (Document.parse s.player.config.separator text).isOk
  | _ => false

/-- The cursor is on an action of the document `d`, which is loaded. -/
structure OnAction (d : Document) (s : Stage) : Prop where
  document : s.player.document = d
  nonneg : 0 ≤ s.cursor
  lt_length : s.cursor < d.actions.length

section

variable {d : Document} {s s' : Stage}

/-- There is a current action. -/
theorem OnAction.action (h : s.OnAction d) :
    ∃ action ∈ d.actions, s.player.document.action? s.cursor = some action := by
  have hlt : s.cursor.toNat < d.actions.length := by
    have := h.nonneg
    have := h.lt_length
    omega
  refine ⟨d.actions[s.cursor.toNat], List.getElem_mem hlt, ?_⟩
  rw [h.document, Document.action?, if_pos h.nonneg]
  exact List.getElem?_eq_getElem hlt

theorem OnAction.congr (h : s.OnAction d) (hdocument : s'.player.document = s.player.document)
    (hcursor : s'.cursor = s.cursor) : s'.OnAction d := by
  refine ⟨hdocument.trans h.document, ?_, ?_⟩
  · rw [hcursor]
    exact h.nonneg
  · rw [hcursor]
    exact h.lt_length

/-- A command leaves the cursor alone or takes it back to the first action. -/
theorem OnAction.command (h : s.OnAction d) (c : Command) : (s.command c).1.OnAction d := by
  have hnonneg := h.nonneg
  have hlt := h.lt_length
  rw [command_eq]
  unfold carryOut
  split
  · exact h.congr rfl rfl
  · exact h.congr rfl rfl
  · exact h.congr rfl rfl
  · refine ⟨h.document, ?_, ?_⟩
    · show (0 : Int) ≤ 0
      omega
    · show (0 : Int) < d.actions.length
      omega

theorem OnAction.launch (h : s.OnAction d) (call : Deferred Call) :
    (s.launch call).1.OnAction d := by
  unfold Stage.launch
  split
  · exact h.congr rfl rfl
  · split <;> exact h.congr rfl rfl

theorem OnAction.request (h : s.OnAction d) (label : String) (delay : Duration) (body : Routine) :
    (s.request label delay body).1.OnAction d := by
  by_cases hs : s.status = .playing
  · rw [request_playing hs]
    have hticketed : (s.ticketed delay).OnAction d := h.congr rfl rfl
    exact hticketed.launch _
  · rw [request_deferred hs]
    exact h.congr rfl rfl

theorem OnAction.fire (h : s.OnAction d) (timer : Nat) : (s.fire timer).1.OnAction d := by
  unfold Stage.fire
  split <;> exact h.congr rfl rfl

theorem OnAction.receive (h : s.OnAction d) (input : Tooltip.Input) :
    (s.receive input).1.OnAction d := by
  have hbounds := And.intro h.nonneg h.lt_length
  unfold Stage.receive
  rw [h.document]
  split
  rename_i tooltip reaction hreceive
  split
  · exact h.congr rfl rfl
  · obtain ⟨hnonneg, hlt⟩ := Tooltip.receive_moveTo hbounds hreceive
    exact ⟨h.document, hnonneg, hlt⟩
  · have hpresented : ({ s with tooltip } : Stage).OnAction d := h.congr rfl rfl
    exact hpresented.command _

theorem OnAction.follow (h : s.OnAction d) (value : Bool) : (s.follow value).1.OnAction d := by
  have hflagged : (s.flagged value).OnAction d := h.congr rfl rfl
  by_cases hchanged : value ≠ s.player.flag
  · rw [follow_changed hchanged]
    exact hflagged.command _
  · rw [follow_unchanged hchanged]
    exact hflagged

/-- An operation that does not stray keeps the cursor on an action. -/
theorem OnAction.perform (h : s.OnAction d) {op : Operation} (hop : s.strays op = false)
    (next : Reply → Routine) : (s.perform op next).1.OnAction d := by
  cases op with
  | command c => exact h.command c
  | toggle => exact h.command _
  | follow value => exact h.follow value
  | setCursor cursor => cases hop
  | advance => cases hop
  | retreat => cases hop
  | loadDocument document => cases hop
  | load text =>
      simp only [strays] at hop
      show (s.load text).2.OnAction d
      unfold load
      split
      · exact h
      · rename_i document hparse
        rw [hparse] at hop
        cases hop
  | fire timer => exact h.fire timer
  | tooltip input => exact h.receive input
  | align =>
      show s.align.2.OnAction d
      unfold align
      split <;> exact h.congr rfl rfl
  | _ => exact h.congr rfl rfl

end

end Stage

namespace Machine

/-- Whether the next step moves the cursor past the tooltip or replaces the document. -/
def strays (m : Machine) : Bool :=
  match m.frames with
  | .run (.perform op _) :: _ => m.stage.strays op
  | _ => false

variable {d : Document} {m m' : Machine}

/-- A step that does not stray keeps the cursor on an action. -/
theorem step_onAction (hm : m.step = some m') (h : m.stage.OnAction d)
    (hstrays : m.strays = false) : m'.stage.OnAction d := by
  obtain ⟨f, rest, r, hframes, rfl, hplay⟩ := step_play hm
  cases hplay with
  | control rs _ => exact h
  | performed op next =>
      simp only [strays, hframes] at hstrays
      exact h.perform hstrays next
  | requested label delay body next => exact h.request label delay body
  | @replayed call calls _ _ =>
      have hdequeue : (m.stage.dequeue call calls).OnAction d := h.congr rfl rfl
      exact hdequeue.launch call
  | drained _ => exact h
  | notified notice => exact h.congr rfl rfl
  | @popped target t clock fired next _ =>
      have htick : (m.stage.tick t clock).OnAction d := h.congr rfl rfl
      exact htick.fire t.id
  | reached fired next _ => exact h.congr rfl rfl
  | answered reply next => exact h.congr rfl rfl

theorem RunFrom.onAction {s₀ : Stage} {past : List Machine} (h : RunFrom s₀ past m)
    (hstart : s₀.OnAction d) (hstrays : ∀ x ∈ past, x.strays = false) : m.stage.OnAction d := by
  induction h with
  | start => exact hstart
  | host r _ ih => exact ih hstrays
  | user text _ ih => exact (ih hstrays).congr rfl rfl
  | @step past m m' _ hm ih =>
      obtain ⟨hpast, hlast⟩ := List.forall_mem_append.1 hstrays
      exact step_onAction hm (ih hpast) (hlast m (List.mem_singleton_self m))

/-- **A walk that the tooltip guides never leaves the list of actions.** A new player has a document
with an action loaded. As long as nobody but the tooltip moves the cursor and nobody replaces the
document, the cursor is on an action at every moment, in the host and in calls at whatever depth,
whatever the inputs, the phase of the tooltip and the commands are. -/
theorem cursor_on_action {config : Config} {surface : Surface} {timers : TimerPolicy}
    {routines : String → Option Routine} {s₀ : Stage} {past : List Machine}
    (hnew : Stage.new config surface timers routines = .ok s₀) (hactions : d.actions ≠ [])
    (h : RunFrom (s₀.loadDocument d) past m) (hstrays : ∀ x ∈ past, x.strays = false) :
    0 ≤ m.stage.cursor ∧ m.stage.cursor < m.stage.player.document.actions.length ∧
      m.stage.player.document = d ∧
      ∃ action ∈ d.actions, m.stage.player.document.action? m.stage.cursor = some action := by
  have hstart : (s₀.loadDocument d).OnAction d := by
    rw [Stage.eq_of_new hnew]
    refine ⟨rfl, ?_, ?_⟩
    · show (0 : Int) ≤ 0
      omega
    · have hlength := List.length_pos_iff.2 hactions
      show (0 : Int) < d.actions.length
      omega
  have hon := h.onAction hstart hstrays
  refine ⟨hon.nonneg, ?_, hon.document, hon.action⟩
  rw [hon.document]
  exact hon.lt_length

end Machine

/-! ## An example -/

/-- A document with two tooltips. -/
def twoTips : Document := ⟨"a\nb", [tooltipAt "one" "0:1", tooltipAt "two" "1:1"]⟩

/-- A host that plays and passes inputs on to the tooltip, some of them where there is no way on or
back, and finishes at the second tooltip. -/
def stroll : Routine :=
  .perform (.tooltip .previous) fun _ => .perform (.command .play) fun _ =>
    .perform (.tooltip .next) fun _ => .perform (.tooltip .next) fun _ =>
      .perform (.tooltip (.jump 2)) fun _ => .perform (.tooltip .finish) fun _ =>
        .perform (.tooltip .rest) fun _ => .done

/-- The stroll after some steps. -/
def strolled (steps : Nat) : Machine :=
  Machine.run steps ⟨Stage.plain.loadDocument twoTips, [.run stroll]⟩

namespace Machine

/-- The stroll comes to the second tooltip and stays there while there is no way on. Where the
session ends it is back at the first one. -/
theorem stroll_on_action :
    twoTips.actions ≠ [] ∧ (∀ x ∈ trace 11 (strolled 0), x.strays = false) ∧
      ((strolled 11).stage.cursor = 1 ∧ (strolled 16).stage.cursor = 0) ∧
      (strolled 11).stage.cursor < (strolled 11).stage.player.document.actions.length ∧
        ∃ action ∈ twoTips.actions,
          (strolled 11).stage.player.document.action? (strolled 11).stage.cursor = some action := by
  have hactions : twoTips.actions ≠ [] := List.cons_ne_nil _ _
  have hstrays : ∀ x ∈ trace 11 (strolled 0), x.strays = false := by decide
  have hrun : RunFrom (Stage.plain.loadDocument twoTips) (trace 11 (strolled 0)) (strolled 11) :=
    (RunFrom.start.host stroll).trace 11
  obtain ⟨_, hlt, _, haction⟩ := cursor_on_action Stage.plain_new hactions hrun hstrays
  exact ⟨hactions, hstrays, ⟨rfl, rfl⟩, hlt, haction⟩

end Machine

end Walkthrough
