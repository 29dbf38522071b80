import Walkthrough.Proofs.Document.Sections
import Walkthrough.Proofs.Playback.Again

/-!
# Loading

A text is read before anything is written. Either it has a fault, and then nothing becomes of the
player, or it has a document, which is loaded as if it had been given. The separator was accepted
when the player was made, and no step changes it; so the fault is always one of an action's options.

* `Run.accepted` — the configuration of a player is an accepted one throughout a run.
* `loadDocument_eq` — what becomes of a stage where a document is loaded.
* `load_atomic` — a load fails and changes nothing, or loads the document of the text.
-/

set_option autoImplicit false

namespace Walkthrough

theorem Config.separator_ne_nil {c : Config} (h : c.validate = .ok ()) :
    c.separator.toList ≠ [] := by
  intro hnil
  unfold validate at h
  rw [if_pos hnil] at h
  cases h

/-- Loading a document makes it the content and the canonical content of the surface, and touches
nothing else. -/
theorem Stage.loadDocument_eq (d : Document) (s : Stage) :
    s.loadDocument d =
      { s with
        player.document := d
        surface := { s.surface with content := d.source, canonical := d.source }
        journal := .surface (.setContent d.source) :: s.journal } := rfl

namespace Machine

variable {past : List Machine} {m : Machine}

theorem RunFrom.config {s₀ : Stage} (h : RunFrom s₀ past m) :
    m.stage.player.config = s₀.player.config :=
  h.stage_induction (P := fun s => s.player.config = s₀.player.config) rfl
    fun _ _ _ _ hturn hs => hturn.upholds.config.trans hs

/-- The configuration of a player is an accepted one throughout a run. -/
theorem Run.accepted (h : Run past m) : m.stage.player.config.validate = .ok () := by
  obtain ⟨config, surface, timers, routines, s₀, hnew, h⟩ := run_iff.1 h
  rw [h.config, Stage.eq_of_new hnew]
  unfold Stage.new at hnew
  cases hvalid : config.validate with
  | error cause =>
      rw [hvalid] at hnew
      cases hnew
  | ok _ => rfl

/-- **A load is atomic.** At every moment of a run, inside calls and sessions too, a text that is
loaded has a fault or a document. A fault is one of an action's options, and then the load gives it
as its reply and leaves the stage as it was, without a call of the surface or a notice. With a
document the load does in one step what loading that document does: the surface is called once, its
content and its canonical content become the source, and nothing else changes. -/
theorem load_atomic (h : Run past m) (text : String) :
    (∃ line name cause,
      Document.parse m.stage.player.config.separator text =
          .error (.invalidOptions line name cause) ∧
        ∀ next rest, (⟨m.stage, .run (.perform (.load text) next) :: rest⟩ : Machine).step =
          some ⟨m.stage,
            .answer (.documentFault (.invalidOptions line name cause)) next :: rest⟩) ∨
      ∃ d, Document.parse m.stage.player.config.separator text = .ok d ∧
        ∀ next rest,
          (⟨m.stage, .run (.perform (.load text) next) :: rest⟩ : Machine).step =
              (⟨m.stage, .run (.perform (.loadDocument d) next) :: rest⟩ : Machine).step ∧
            (⟨m.stage, .run (.perform (.load text) next) :: rest⟩ : Machine).step =
              some ⟨{ m.stage with
                player.document := d
                surface := { m.stage.surface with content := d.source, canonical := d.source }
                journal := .surface (.setContent d.source) :: m.stage.journal },
                .answer .nothing next :: rest⟩ := by
  have hstep (next : Reply → Routine) (rest : List Frame) :
      (⟨m.stage, .run (.perform (.load text) next) :: rest⟩ : Machine).step =
        some ⟨(m.stage.load text).2, .answer (m.stage.load text).1 next :: rest⟩ := rfl
  cases hparse : Document.parse m.stage.player.config.separator text with
  | error fault =>
      obtain ⟨line, name, cause, rfl⟩ :=
        Document.parse_eq_error (Config.separator_ne_nil h.accepted) hparse
      have hload : m.stage.load text =
          (.documentFault (.invalidOptions line name cause), m.stage) := by
        rw [Stage.load, hparse]
      refine .inl ⟨line, name, cause, rfl, fun next rest => ?_⟩
      rw [hstep, hload]
  | ok d =>
      have hload : m.stage.load text = (.nothing, m.stage.loadDocument d) := by
        rw [Stage.load, hparse]
      refine .inr ⟨d, rfl, fun next rest => ?_⟩
      have hgiven : (⟨m.stage, .run (.perform (.loadDocument d) next) :: rest⟩ : Machine).step =
          some ⟨m.stage.loadDocument d, .answer .nothing next :: rest⟩ := rfl
      rw [hgiven, hstep, hload, Stage.loadDocument_eq]
      exact ⟨rfl, rfl⟩

/-- The inner call of the rehearsal, which has paused the session, loads two texts. -/
theorem rehearsal_loads :
    let s := (rehearsed 13).stage
    (s.status = .paused ∧ s.pending.length = 2) ∧
      (∀ next rest,
        (⟨s, .run (.perform (.load "x@@@step: \x7b") next) :: rest⟩ : Machine).step =
          some ⟨s, .answer (.documentFault (.invalidOptions 1 "step" .endInObject)) next :: rest⟩) ∧
      ∀ next rest, ∃ s',
        (⟨s, .run (.perform (.load "x@@@step: 1") next) :: rest⟩ : Machine).step =
            some ⟨s', .answer .nothing next :: rest⟩ ∧
          s'.surface.content = "x" ∧ s'.surface.canonical = "x" ∧ s'.pending = s.pending ∧
          s'.journal = .surface (.setContent "x") :: s.journal := by
  intro s
  obtain ⟨past, hrun⟩ := rehearsed_run 13
  have hseparator : s.player.config.separator = "@@@" := rfl
  have hfault : Document.parse s.player.config.separator "x@@@step: \x7b" =
      .error (.invalidOptions 1 "step" .endInObject) := by
    rw [hseparator]
    cbv
  have hdocument : Document.parse s.player.config.separator "x@@@step: 1" =
      .ok ⟨"x", [⟨"step", .text "1", none⟩]⟩ := by
    rw [hseparator]
    cbv
  refine ⟨⟨rfl, rfl⟩, ?_, ?_⟩
  · rcases load_atomic hrun "x@@@step: \x7b" with ⟨_, _, _, hparse, hfails⟩ | ⟨d, hparse, -⟩
    · cases hfault.symm.trans hparse
      exact hfails
    · cases hfault.symm.trans hparse
  · rcases load_atomic hrun "x@@@step: 1" with ⟨_, _, _, hparse, -⟩ | ⟨d, hparse, hloads⟩
    · cases hdocument.symm.trans hparse
    · cases hdocument.symm.trans hparse
      intro next rest
      exact ⟨_, (hloads next rest).2, rfl, rfl, rfl, rfl⟩

end Machine

end Walkthrough
