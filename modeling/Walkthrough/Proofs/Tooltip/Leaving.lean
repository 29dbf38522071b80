import Walkthrough.Proofs.Playback.History

/-!
# Tooltips that leave

A tooltip that was closed or finished fades out first. When that animation has come to rest the
tooltip starts over, and the session is stopped or finished. Meanwhile further inputs arrive, the
host aligns the tooltip with its view, and others use the player. None of this keeps the session
from being ended, except that a tooltip forgets that it was leaving where it is aligned with a view
that has another anchor.

* `Input.exit?`, `Phase.exit?` — the command that ends the session behind an input or a phase.
* `Stage.Ending` — only the rest of the animation is waited for.
* `Stage.Meanwhile` — what may become of a stage before: inputs, views with the anchor that the
  tooltip has, and changes by others.
* `Run.meanwhile` — the steps of a run are such changes.
* `exit_kept` — a tooltip that was closed or finished ends the session.
* `receive_rest_of_moved` — but not after it was aligned with another anchor.
-/

set_option autoImplicit false

namespace Walkthrough

namespace Tooltip

/-- The command that ends the session in the end, where an input makes the tooltip leave. -/
def Input.exit? : Input → Option Command
  | .close => some .stop
  | .finish => some .finish
  | _ => none

/-- The command that ends the session when a leaving tooltip has come to rest. -/
def Phase.exit? : Phase → Option Command
  | .stopping => some .stop
  | .finishing => some .finish
  | _ => none

variable {t : Tooltip} {c : Command}

theorem leaving_of_exit? (h : t.phase.exit? = some c) : t.leaving = true := by
  unfold leaving
  cases hphase : t.phase <;> rw [hphase] at h <;> first | rfl | cases h

theorem rest_of_exit? (h : t.phase.exit? = some c) : t.rest = ({}, some (.command c)) := by
  unfold rest
  cases hphase : t.phase <;> rw [hphase] at h <;> cases h <;> rfl

theorem receive_of_leaving {input : Input} (ht : t.leaving = true) (hinput : input ≠ .rest)
    (cursor : Int) (total : Nat) : t.receive input cursor total = (t, none) := by
  unfold receive
  rw [if_pos ⟨ht, hinput⟩]

/-- A tooltip that does not leave yet is made to. -/
theorem receive_exit {input : Input} (hinput : input.exit? = some c) (ht : t.leaving = false)
    (cursor : Int) (total : Nat) :
    ∃ phase, phase.exit? = some c ∧ t.receive input cursor total = ({ t with phase }, none) := by
  cases input <;> cases hinput
  · exact ⟨.stopping, rfl, by simp [receive, ht]⟩
  · exact ⟨.finishing, rfl, by simp [receive, ht]⟩

end Tooltip

namespace Stage

/-- The tooltip waits for its animation to come to rest, and then the session is ended by a command.
No other input does anything. -/
structure Ending (c : Command) (s : Stage) : Prop where
  ignores : ∀ input, input ≠ .rest → s.receive input = (s, [])
  ends : s.receive .rest = ({ s with tooltip := {} }).command c

/-- What may become of a stage while a tooltip leaves: inputs arrive, the tooltip is aligned with
views that have its anchor, and others change all but the tooltip. -/
inductive Meanwhile (s : Stage) : Stage → Prop where
  | refl : Meanwhile s s
  | input {t : Stage} {input : Tooltip.Input} :
      Meanwhile s t → input ≠ .rest → Meanwhile s (t.receive input).1
  | sync {t : Stage} {v : Tooltip.View} :
      Meanwhile s t → v.anchor.same t.tooltip.target = true →
      Meanwhile s { t with tooltip := t.tooltip.align v }
  | others {t u : Stage} : Meanwhile s t → u.tooltip = t.tooltip → Meanwhile s u

variable {s t : Stage} {c : Command}

theorem ending_of_exit? (h : s.tooltip.phase.exit? = some c) : s.Ending c := by
  constructor
  · intro input hinput
    unfold receive
    rw [Tooltip.receive_of_leaving (Tooltip.leaving_of_exit? h) hinput]
  · simp [receive, Tooltip.receive, Tooltip.rest_of_exit? h]

/-- A leaving tooltip stays as it is. -/
theorem Meanwhile.tooltip_eq (h : Meanwhile s t) (hs : s.tooltip.leaving = true) :
    t.tooltip = s.tooltip := by
  induction h with
  | refl => rfl
  | @input t input _ hinput ih =>
      unfold receive
      rw [Tooltip.receive_of_leaving (ih ▸ hs) hinput]
      exact ih
  | @sync t v _ hsame ih =>
      have hstays : t.tooltip.align v = t.tooltip := if_pos hsame
      exact hstays.trans ih
  | others _ hothers ih => exact hothers.trans ih

/-- What an accepted input has begun lasts until the animation has come to rest. -/
theorem Meanwhile.ending {input : Tooltip.Input} (hinput : input.exit? = some c)
    (hs : s.tooltip.leaving = false) (h : Meanwhile (s.receive input).1 t) : t.Ending c := by
  obtain ⟨phase, hphase, hreceive⟩ :=
    Tooltip.receive_exit hinput hs s.cursor s.player.document.actions.length
  have htooltip : (s.receive input).1.tooltip = { s.tooltip with phase } := by
    unfold receive
    rw [hreceive]
  have hexit : (s.receive input).1.tooltip.phase.exit? = some c := by
    rw [htooltip]
    exact hphase
  apply ending_of_exit?
  rw [h.tooltip_eq (Tooltip.leaving_of_exit? hexit)]
  exact hexit

/-- **A tooltip that is aligned with another anchor forgets that it was leaving**: when its
animation has come to rest nothing happens. -/
theorem receive_rest_of_moved {v : Tooltip.View} (h : v.anchor.same s.tooltip.target = false) :
    ({ s with tooltip := s.tooltip.align v }).receive .rest =
      ({ s with tooltip := { phase := .shown, start := s.tooltip.target, target := v.anchor } },
        []) := by
  have hmoved : s.tooltip.align v =
      { phase := .appearing, start := s.tooltip.target, target := v.anchor } := if_neg (by simp [h])
  simp [receive, Tooltip.receive, Tooltip.rest, hmoved]

/-! ## The tooltip is left alone by others -/

theorem follow_tooltip (value : Bool) (s : Stage) : (s.follow value).1.tooltip = s.tooltip := by
  by_cases h : value ≠ s.player.flag
  · rw [follow_changed h]
    exact (command_setting _ _).tooltip
  · rw [follow_unchanged h]
    rfl

end Stage

/-- Whether an operation may come before the animation of a leaving tooltip has come to rest. -/
def Operation.waits : Operation → Bool
  | .tooltip .rest | .resetTooltip => false
  | _ => true

namespace Machine

/-- Whether the next step may come before the animation has come to rest. -/
def waits (m : Machine) : Bool :=
  match m.frames with
  | .run (.perform op _) :: _ => op.waits
  | _ => true

/-- Whether the next step leaves the anchor of the tooltip where it is. -/
def unmoved (m : Machine) : Bool :=
  match m.frames with
  | .run (.perform .align _) :: _ =>
    match m.stage.view with
    | .ok (some v) => v.anchor.same m.stage.tooltip.target
    | _ => true
  | _ => true

end Machine

namespace Stage

variable {s t : Stage}

/-- What an operation may make of a stage in the meantime. -/
theorem Meanwhile.perform (h : Meanwhile s t) {op : Operation} (hwaits : op.waits = true)
    (hanchor : ∀ v, op = .align → t.view = .ok (some v) →
      v.anchor.same t.tooltip.target = true) (next : Reply → Routine) :
    Meanwhile s (t.perform op next).1 := by
  cases op with
  | command c => exact h.others (command_setting c t).tooltip
  | toggle => exact h.others (command_setting _ t).tooltip
  | follow value => exact h.others (follow_tooltip value t)
  | load text => exact h.others (load_setting text t).tooltip
  | fire timer => exact h.others (fire_setting timer t).tooltip
  | tooltip input =>
      refine h.input ?_
      rintro rfl
      cases hwaits
  | align =>
      show Meanwhile s t.align.2
      unfold align
      split
      · exact h
      · exact h
      · rename_i v hview
        exact h.sync (hanchor v rfl hview)
  | resetTooltip => cases hwaits
  | _ => exact h.others rfl

end Stage

namespace Machine

variable {m m' : Machine} {s : Stage}

/-- The steps of a machine are such changes. -/
theorem step_meanwhile (hm : m.step = some m') (h : s.Meanwhile m.stage)
    (hwaits : m.waits = true) (hunmoved : m.unmoved = true) : s.Meanwhile m'.stage := by
  obtain ⟨f, rest, r, hframes, rfl, hplay⟩ := step_play hm
  cases hplay with
  | control rs _ => exact h
  | performed op next =>
      simp only [waits, hframes] at hwaits
      refine h.perform hwaits ?_ next
      rintro v rfl hview
      simpa only [unmoved, hframes, hview] using hunmoved
  | requested label delay body next =>
      exact h.others (Stage.request_setting label delay body _).tooltip
  | replayed _ _ => exact h.others (Stage.launch_setting _ _).tooltip
  | drained _ => exact h
  | notified notice => exact h.others rfl
  | popped fired next _ => exact h.others (Stage.fire_setting _ _).tooltip
  | reached fired next _ => exact h.others rfl
  | answered reply next => exact h.others rfl

/-- Since an input was received, a run has gone through such changes. -/
theorem Run.meanwhile {before inside : List Machine} {e : Machine} {input : Tooltip.Input}
    {next : Reply → Routine} {rest : List Frame} (h : Run (before ++ e :: inside) m)
    (he : e.frames = .run (.perform (.tooltip input) next) :: rest)
    (hinside : ∀ x ∈ inside, x.waits = true ∧ x.unmoved = true) :
    (e.stage.receive input).1.Meanwhile m.stage := by
  refine Run.since_induction (P := fun inside m =>
    (∀ x ∈ inside, x.waits = true ∧ x.unmoved = true) → (e.stage.receive input).1.Meanwhile m.stage)
    ?_ ?_ ?_ ?_ h hinside
  · intro m _ hm _
    cases e
    cases he
    cases hm
    exact .refl
  · intro _ _ _ ih hinside
    exact ih hinside
  · intro _ _ _ ih hinside
    exact (ih hinside).others rfl
  · intro inside m m' _ ih hm hinside
    obtain ⟨hinside, hlast⟩ := List.forall_mem_append.1 hinside
    obtain ⟨hwaits, hunmoved⟩ := hlast m (List.mem_singleton_self m)
    exact step_meanwhile hm (ih hinside) hwaits hunmoved

/-- **A tooltip that was closed or finished ends the session**, if it is not aligned with another
anchor before its animation has come to rest. Until then no input does anything, and the rest of
the animation issues the command once and resets the tooltip. This holds whatever else becomes of
the stage, and so in every run from the step on that has received the input. -/
theorem exit_kept {input : Tooltip.Input} {c : Command} (hinput : input.exit? = some c) :
    (∀ s t : Stage, s.tooltip.leaving = false → (s.receive input).1.Meanwhile t → t.Ending c) ∧
      ∀ before e inside m next rest, Run (before ++ e :: inside) m →
        e.frames = .run (.perform (.tooltip input) next) :: rest →
        e.stage.tooltip.leaving = false → (∀ x ∈ inside, x.waits = true ∧ x.unmoved = true) →
        m.stage.Ending c := by
  constructor
  · intro s t hs h
    exact h.ending hinput hs
  · intro before e inside m next rest h he hs hinside
    exact (h.meanwhile he hinside).ending hinput hs

end Machine

/-! ## An example -/

/-- A tooltip at a position. -/
def tooltipAt (text pos : String) : Action :=
  ⟨"tooltip", .structured (.obj [("pos", .str pos), ("text", .str text)]), none⟩

/-- A host that closes the first of two tooltips. Before the animation has come to rest it aligns
the tooltip, passes on another input, goes on to the second tooltip and aligns again. -/
def departure : Routine :=
  .perform (.loadDocument ⟨"a\nb", [tooltipAt "one" "0:1", tooltipAt "two" "1:1"]⟩) fun _ =>
    .perform (.command .play) fun _ => .perform .align fun _ => .perform (.tooltip .rest) fun _ =>
      .perform (.tooltip .close) fun _ => .perform .align fun _ =>
        .perform (.tooltip .next) fun _ => .perform .advance fun _ => .perform .align fun _ =>
          .perform (.tooltip .rest) fun _ => .done

/-- The departure after some steps. -/
def departed (steps : Nat) : Machine := Machine.run steps ⟨.plain, [.run departure]⟩

namespace Machine

/-- The departure has received the close, and goes on for some steps. -/
theorem departure_run (steps : Nat) :
    ∃ before, Run (before ++ departed 8 :: trace steps (departed 9)) (run steps (departed 9)) := by
  have hclose : Run (trace 8 ⟨.plain, [.run departure]⟩) (departed 8) :=
    ((Run.new Stage.plain_new).host departure).trace 8
  have hstep : (departed 8).step = some (departed 9) := rfl
  have hrun := (hclose.step hstep).trace steps
  rw [List.append_assoc] at hrun
  exact ⟨_, hrun⟩

/-- While the host has not aligned the tooltip with the second anchor, the close is kept. -/
theorem departure_kept :
    Tooltip.Input.exit? .close = some .stop ∧ (run 7 (departed 9)).stage.cursor = 1 ∧
      (run 7 (departed 9)).stage.Ending .stop := by
  obtain ⟨before, hrun⟩ := departure_run 7
  refine ⟨rfl, rfl, (exit_kept rfl).2 _ _ _ _ _ _ hrun rfl rfl ?_⟩
  decide +kernel

/-- **A close that was accepted is forgotten** when the host aligns the tooltip with the second
anchor before the animation has come to rest. -/
theorem departure_forgotten :
    ¬ ∀ before e inside m next rest, Run (before ++ e :: inside) m →
      e.frames = .run (.perform (.tooltip .close) next) :: rest →
      e.stage.tooltip.leaving = false → (∀ x ∈ inside, x.waits = true) → m.stage.Ending .stop := by
  intro hkept
  obtain ⟨before, hrun⟩ := departure_run 9
  have hending := hkept _ _ _ _ _ _ hrun rfl rfl (by decide +kernel)
  have hstatus : ((run 9 (departed 9)).stage.receive .rest).1.status = .idle := by
    rw [hending.ends]
    rfl
  exact absurd hstatus (by decide +kernel)

end Machine

end Walkthrough
