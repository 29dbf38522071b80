import Walkthrough.Proofs.Playback.History
import Walkthrough.Proofs.Playback.Lock
import Walkthrough.Proofs.Playback.Orders

/-!
# The surface is unlocked where a session ends

A configuration may ask for an editor that is locked while no session is on. A surface that is
locked from the beginning stays so before the first session and during each one. But the end of a
session unlocks it, whatever the configuration asks, and from then on it is locked during sessions
only.

* `Status.releases`, `Machine.releases` — the commands that let a session go, and the steps that
  issue one.
* `Stage.LockedWhile` — the surface is locked while a session is on, and besides as long as
  something holds.
* `LockedWhile.command`, `Turn.lockedWhile` — what becomes of the lock in a turn.
* `lock_until_release` — what becomes of it in a run.
* `exhibition_unlocked` — an edit that is accepted against the configuration.
-/

set_option autoImplicit false

namespace Walkthrough

/-- Whether a command lets the session go: a stop, a finish, or a play over an empty list of actions
while no session is on. -/
def Status.releases (status : Status) : Command × Bool → Bool
  | (.stop, _) | (.finish, _) => true
  | (.play, hasActions) => decide (status = .idle) && !hasActions
  | (.pause, _) => false

/-- These are the commands whose transition has the effect of a release. -/
theorem Status.releases_iff (status : Status) (c : Command) (hasActions : Bool) :
    status.releases (c, hasActions) = true ↔
      ∃ notice, (Transition.of status c hasActions).effect = some (.release notice) := by
  cases status <;> cases c <;> cases hasActions <;> simp [releases, Transition.of]

/-- Whether a frame issues a command that lets the session go. -/
def Frame.releases (s : Stage) (f : Frame) : Bool := (f.orderWith? s).any s.status.releases

namespace Stage

/-- The surface is locked while a session is on, and besides as long as `kept` holds. -/
def LockedWhile (kept : Prop) (s : Stage) : Prop :=
  s.surface.readOnly = true ↔ s.status ≠ .idle ∨ kept

section

variable {s s' : Stage} {kept : Prop}

theorem edit_readOnly (text : String) (s : Stage) :
    (s.edit text).surface.readOnly = s.surface.readOnly := by
  unfold Stage.edit Surface.edit
  split <;> rfl

/-- Beside its session the player does not lock or unlock the surface. -/
theorem Aside.readOnly (h : s.Aside s') : s'.surface.readOnly = s.surface.readOnly := by
  induction h with
  | trans _ _ ih₁ ih₂ => exact ih₂.trans ih₁
  | edited text s => exact edit_readOnly text s
  | _ => rfl

theorem LockedWhile.congr (h : s.LockedWhile kept)
    (hsurface : s'.surface.readOnly = s.surface.readOnly) (hstatus : s'.status = s.status) :
    s'.LockedWhile kept := by
  rw [LockedWhile, hsurface, hstatus]
  exact h

/-- A command that lets the session go unlocks the surface; no other command does. -/
theorem LockedWhile.command (h : s.LockedWhile kept) (c : Command) :
    (s.command c).1.LockedWhile (kept ∧ s.status.releases (c, s.hasActions) = false) := by
  have hsession := Transition.session_of s.status c s.hasActions
  have hreleases := Status.releases_iff s.status c s.hasActions
  rw [command_eq]
  generalize Transition.of s.status c s.hasActions = t at hsession hreleases ⊢
  obtain ⟨status, effect⟩ := t
  cases effect with
  | none =>
      have hkeeps : s.status.releases (c, s.hasActions) = false := by simpa using hreleases
      simp only [hkeeps, and_true]
      exact h.trans (or_congr_left (not_congr hsession).symm)
  | some effect =>
      cases effect with
      | enter => exact ⟨fun _ => .inl hsession, fun _ => rfl⟩
      | resume =>
          obtain ⟨hnew, hold⟩ := hsession
          exact ⟨fun _ => .inl hnew, fun _ => h.2 (.inl hold)⟩
      | release notice =>
          have hgone : s.status.releases (c, s.hasActions) = true := hreleases.2 ⟨notice, rfl⟩
          refine ⟨nofun, ?_⟩
          rintro (hon | ⟨_, hkeeps⟩)
          · exact absurd hsession hon
          · rw [hgone] at hkeeps
            cases hkeeps

end

end Stage

/-- **What becomes of the lock in a turn**: it outlasts the session until a command lets one go. -/
theorem Turn.lockedWhile {f : Frame} {s s' : Stage} {fs : List Frame} {kept : Prop}
    (h : Turn f s s' fs) (hs : s.LockedWhile kept) :
    s'.LockedWhile (kept ∧ f.releases s = false) := by
  -- Where no command is issued, the lock and the status stay.
  have hquiet : f.order? s = none → s'.surface.readOnly = s.surface.readOnly →
      s'.status = s.status → s'.LockedWhile (kept ∧ f.releases s = false) := by
    intro horder hsurface hstatus
    have hreleases : f.releases s = false := by rw [Frame.releases, Frame.orderWith?, horder]; rfl
    simp only [hreleases, and_true]
    exact hs.congr hsurface hstatus
  cases h with
  | aside ha ho _ _ => exact hquiet ho ha.readOnly ha.sameSession.status
  | @commanded op next reply c _ s₀ ho ha hd =>
      have hstatus := ha.sameSession.status
      have hreleases : Frame.releases s (.run (.perform op next)) =
          s₀.status.releases (c, s₀.hasActions) := by
        rw [Frame.releases, Frame.orderWith?, Frame.order?, ho, hstatus, hd]
        rfl
      rw [hreleases]
      exact (hs.congr ha.readOnly hstatus).command c
  | requested label delay body next =>
      have hscene := Stage.request_sameScene label delay body s
      exact hquiet rfl (congrArg Surface.readOnly hscene.surface) hscene.status
  | @replayed d ds _ _ _ =>
      have hscene := Stage.launch_sameScene d (s.dequeue d ds)
      exact hquiet rfl (congrArg Surface.readOnly hscene.surface) hscene.status
  | drained _ => exact hquiet rfl rfl rfl
  | @fired _ timer _ _ s₀ _ _ ha _ ho _ =>
      have hscene := Stage.fire_sameScene timer s₀
      have hsurface := congrArg Surface.readOnly hscene.surface
      exact hquiet ho (hsurface.trans ha.readOnly) (hscene.status.trans ha.sameSession.status)

namespace Machine

/-- Whether a machine lets the session go in its next step. -/
def releases (m : Machine) : Bool := m.order?.any m.stage.status.releases

/-- **What becomes of the lock in a run.** -/
theorem RunFrom.lockedWhile {s₀ : Stage} {past : List Machine} {m : Machine} {kept : Prop}
    (h : RunFrom s₀ past m) (hs : s₀.LockedWhile kept) :
    m.stage.LockedWhile (kept ∧ ∀ x ∈ past, x.releases = false) := by
  induction h with
  | start => simpa using hs
  | host r _ ih => exact ih
  | user text _ ih => exact ih.congr (Stage.edit_readOnly text _) rfl
  | @step past m m' _ hm ih =>
      obtain ⟨f, rest, fs, hf, _, hturn⟩ := step_turn hm
      have hreleases : m.releases = f.releases m.stage := by rw [releases, order?, hf]; rfl
      simp only [List.forall_mem_append, List.forall_mem_singleton, ← and_assoc, hreleases]
      exact hturn.lockedWhile ih

/-- **A surface that the configuration asks to be locked is locked until a session ends.** In a run
over a surface that is locked from the beginning just where the configuration asks for it, the
surface is locked while a session is on; while none is on it is locked if and only if the
configuration asks for it and no session has been let go so far. An edit is accepted where it is not
locked, and nowhere else. -/
theorem lock_until_release {config : Config} {surface : Surface} {timers : TimerPolicy}
    {routines : String → Option Routine} {s₀ : Stage} {past : List Machine} {m : Machine}
    (hnew : Stage.new config surface timers routines = .ok s₀)
    (hsurface : surface.readOnly = config.editor.readOnly) (h : RunFrom s₀ past m) :
    (m.stage.surface.readOnly = true ↔
      m.stage.status ≠ .idle ∨
        config.editor.readOnly = true ∧ ∀ x ∈ past, x.releases = false) ∧
      ∀ text, (m.stage.surface.edit text).1 = true ↔
        m.stage.status = .idle ∧
          (config.editor.readOnly = true → ∃ x ∈ past, x.releases = true) := by
  have hstart : s₀.LockedWhile (config.editor.readOnly = true) := by
    rw [Stage.eq_of_new hnew, ← hsurface]
    exact ⟨.inr, fun h => h.resolve_left fun hs => hs rfl⟩
  have hlock : m.stage.surface.readOnly = true ↔ m.stage.status ≠ .idle ∨
      config.editor.readOnly = true ∧ ∀ x ∈ past, x.releases = false := h.lockedWhile hstart
  refine ⟨hlock, fun text => ?_⟩
  have hedit : (m.stage.surface.edit text).1 = !m.stage.surface.readOnly := by
    unfold Surface.edit
    cases m.stage.surface.readOnly <;> rfl
  rw [hedit, Bool.not_eq_true', ← Bool.not_eq_true, hlock]
  simp

end Machine

/-! ## An example -/

/-- A configuration that asks for a locked editor. -/
def Config.glazed : Config := { editor := { readOnly := true } }

/-- A new player under this configuration, over a surface that is locked as it asks. -/
def Stage.glazed : Stage := { player := { config := .glazed }, surface := { readOnly := true } }

/-- The reading on this stage, after some steps. It has begun to play after four and has stopped
after eight. -/
def exhibited (steps : Nat) : Machine := Machine.run steps ⟨.glazed, [.run reading]⟩

namespace Machine

theorem glazed_new : Stage.new .glazed { readOnly := true } .keep (fun _ => none) = .ok .glazed :=
  rfl

theorem exhibited_run (steps : Nat) :
    RunFrom .glazed (trace steps ⟨.glazed, [.run reading]⟩) (exhibited steps) :=
  (RunFrom.start.host reading).trace steps

/-- Before the session and during it the surface is locked. -/
theorem exhibition_locked :
    ((exhibited 2).stage.status = .idle ∧ (exhibited 2).stage.surface.readOnly = true) ∧
      (exhibited 6).stage.status = .playing ∧ (exhibited 6).stage.surface.readOnly = true := by
  have hbefore := (lock_until_release glazed_new rfl (exhibited_run 2)).1
  have hduring := (lock_until_release glazed_new rfl (exhibited_run 6)).1
  refine ⟨⟨rfl, hbefore.2 (.inr ⟨rfl, ?_⟩)⟩, rfl, hduring.2 (.inl nofun)⟩
  decide +kernel

/-- **The end of a session unlocks the surface, though the configuration asks for a locked one**,
and the user's edit is accepted. -/
theorem exhibition_unlocked :
    ¬ ∀ (config : Config) (surface : Surface) (timers : TimerPolicy)
      (routines : String → Option Routine) (s₀ : Stage) (past : List Machine) (m : Machine),
      Stage.new config surface timers routines = .ok s₀ → config.editor.readOnly = true →
      surface.readOnly = true → RunFrom s₀ past m →
      m.stage.surface.readOnly = true ∧ ∀ text, (m.stage.surface.edit text).1 = false := by
  intro hlocked
  have hafter := (hlocked _ _ _ _ _ _ _ glazed_new rfl rfl (exhibited_run 8)).1
  exact absurd hafter (by decide +kernel)

end Machine

end Walkthrough
