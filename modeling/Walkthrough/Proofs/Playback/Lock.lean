import Walkthrough.Proofs.Playback.Run
import Walkthrough.Proofs.Playback.Session

/-!
# The surface is locked while a session is on

A session begins by taking back whatever the user has done to the surface, and locks it; when the
session ends the surface is unlocked. Documents are loaded at any moment, and what is loaded is
canonical at once. So while a session is on the surface shows the source of the loaded document,
whatever the user has tried before or since.

* `Surface.fresh` — a surface that nobody has used.
* `Stage.Locked` — how the surface, the document and the status belong together.
* `Transition.session_of` — where sessions begin and end.
* `Turn.keeps` — what a turn keeps of the scene; `Locked.command`, `Turn.locked`: every turn keeps
  the lock.
* `surface_locked` — in a run over a fresh surface the lock is right at every moment.
-/

set_option autoImplicit false

namespace Walkthrough

/-- A surface in which nothing was done, with the sizes of its characters. -/
def Surface.fresh (charWidth lineHeight : Float) : Surface := { charWidth, lineHeight }

/-- An effect begins a session, goes on with one or ends one; without an effect none begins or
ends. -/
theorem Transition.session_of (status : Status) (c : Command) (hasActions : Bool) :
    match Transition.of status c hasActions with
    | ⟨status', none⟩ => status' = .idle ↔ status = .idle
    | ⟨status', some .enter⟩ => status' ≠ .idle
    | ⟨status', some .resume⟩ => status' ≠ .idle ∧ status ≠ .idle
    | ⟨status', some (.release _)⟩ => status' = .idle := by
  cases status <;> cases c <;> cases hasActions <;> simp [Transition.of]

namespace Stage

/-- The surface is locked while a session is on, and then it shows the source of the document, which
is the canonical content at any time. -/
structure Locked (s : Stage) : Prop where
  readOnly : s.surface.readOnly = true ↔ s.status ≠ .idle
  canonical : s.surface.canonical = s.player.document.source
  content : s.status ≠ .idle → s.surface.content = s.player.document.source

/-- Stages with the same surface, the same document and the same status. -/
structure SameScene (s s' : Stage) : Prop where
  surface : s'.surface = s.surface
  document : s'.player.document = s.player.document
  status : s'.status = s.status

section

variable {s s' t : Stage}

theorem SameScene.trans (h : SameScene s s') (h' : SameScene s' t) : SameScene s t :=
  ⟨h'.surface.trans h.surface, h'.document.trans h.document, h'.status.trans h.status⟩

theorem SameScene.locked (h : SameScene s s') (hs : s.Locked) : s'.Locked := by
  refine ⟨?_, ?_, ?_⟩
  · rw [h.surface, h.status]
    exact hs.readOnly
  · rw [h.surface, h.document]
    exact hs.canonical
  · rw [h.surface, h.document, h.status]
    exact hs.content

/-- What is loaded is canonical and shown at once, also while the surface is locked. -/
theorem Locked.loadDocument (h : s.Locked) (document : Document) :
    (s.loadDocument document).Locked := ⟨h.readOnly, rfl, fun _ => rfl⟩

/-- The user edits the content only, and only while no session is on. -/
theorem Locked.edit (h : s.Locked) (text : String) : (s.edit text).Locked := by
  unfold Stage.edit Surface.edit
  split
  · exact h
  · rename_i hopen
    exact ⟨h.readOnly, h.canonical, fun hs => absurd (h.readOnly.2 hs) hopen⟩

theorem Aside.locked (h : s.Aside s') (hs : s.Locked) : s'.Locked := by
  induction h with
  | trans _ _ ih₁ ih₂ => exact ih₂ (ih₁ hs)
  | loaded document s => exact hs.loadDocument document
  | edited text s => exact hs.edit text
  | _ => exact ⟨hs.readOnly, hs.canonical, hs.content⟩

/-- A command locks the surface on its canonical content where a session begins, and unlocks it
where one ends. -/
theorem Locked.command (h : s.Locked) (c : Command) : (s.command c).1.Locked := by
  have hsession := Transition.session_of s.status c s.hasActions
  rw [command_eq]
  generalize Transition.of s.status c s.hasActions = t at hsession ⊢
  obtain ⟨status, effect⟩ := t
  cases effect with
  | none =>
      refine ⟨h.readOnly.trans (not_congr hsession).symm, h.canonical, ?_⟩
      intro hs
      exact h.content (mt hsession.2 hs)
  | some effect =>
      cases effect with
      | enter => exact ⟨⟨fun _ => hsession, fun _ => rfl⟩, h.canonical, fun _ => h.canonical⟩
      | resume =>
          obtain ⟨hnew, hold⟩ := hsession
          exact ⟨⟨fun _ => hnew, fun _ => h.readOnly.2 hold⟩, h.canonical, fun _ => h.content hold⟩
      | release notice =>
          refine ⟨⟨nofun, fun hs => absurd hsession hs⟩, h.canonical, ?_⟩
          intro hs
          exact absurd hsession hs

/-! ## Calls -/

theorem launch_sameScene (d : Deferred Call) (s : Stage) : SameScene s (s.launch d).1 := by
  unfold launch
  split
  · exact ⟨rfl, rfl, rfl⟩
  · split <;> exact ⟨rfl, rfl, rfl⟩

theorem request_sameScene (label : String) (delay : Duration) (body : Routine) (s : Stage) :
    SameScene s (s.request label delay body).1 := by
  have hticketed : SameScene s (s.ticketed delay) := ⟨rfl, rfl, rfl⟩
  by_cases hs : s.status = .playing
  · rw [request_playing hs]
    exact hticketed.trans (launch_sameScene _ _)
  · rw [request_deferred hs]
    exact ⟨rfl, rfl, rfl⟩

theorem fire_sameScene (timer : Nat) (s : Stage) : SameScene s (s.fire timer).1 := by
  unfold fire
  split <;> exact ⟨rfl, rfl, rfl⟩

end

end Stage

/-- What changes beside the session keep, as do commands and whatever leaves the scene as it is, is
kept by every turn. -/
theorem Turn.keeps {P : Stage → Prop} (haside : ∀ s s', s.Aside s' → P s → P s')
    (hscene : ∀ s s', s.SameScene s' → P s → P s') (hcommand : ∀ s c, P s → P (s.command c).1)
    {f : Frame} {s s' : Stage} {fs : List Frame} (h : Turn f s s' fs) (hs : P s) : P s' := by
  cases h with
  | aside ha _ _ _ => exact haside _ _ ha hs
  | commanded _ ha _ => exact hcommand _ _ (haside _ _ ha hs)
  | requested label delay body next =>
      exact hscene _ _ (Stage.request_sameScene label delay body s) hs
  | @replayed d ds _ _ _ =>
      have hdequeue : s.SameScene (s.dequeue d ds) := ⟨rfl, rfl, rfl⟩
      exact hscene _ _ (hdequeue.trans (Stage.launch_sameScene d _)) hs
  | drained _ => exact hs
  | @fired _ timer _ _ s₀ _ _ ha _ _ _ =>
      exact hscene _ _ (Stage.fire_sameScene timer s₀) (haside _ _ ha hs)

/-- **Every turn keeps the lock.** -/
theorem Turn.locked {f : Frame} {s s' : Stage} {fs : List Frame} (h : Turn f s s' fs)
    (hs : s.Locked) : s'.Locked :=
  h.keeps (fun _ _ ha => ha.locked) (fun _ _ hsame => hsame.locked) (fun _ c h => h.command c) hs

namespace Machine

/-- **The surface is locked on the loaded source exactly while a session is on.** A run over a fresh
surface finds it locked just where a session is on. Its canonical content is always the source of
the document; during a session the content is this source too, and edits are refused. -/
theorem surface_locked {config : Config} {charWidth lineHeight : Float} {timers : TimerPolicy}
    {routines : String → Option Routine} {s₀ : Stage} {past : List Machine} {m : Machine}
    (hnew : Stage.new config (.fresh charWidth lineHeight) timers routines = .ok s₀)
    (h : RunFrom s₀ past m) :
    (m.stage.surface.readOnly = true ↔ m.stage.status ≠ .idle) ∧
      m.stage.surface.canonical = m.stage.player.document.source ∧
      (m.stage.status ≠ .idle → m.stage.surface.content = m.stage.player.document.source ∧
        ∀ text, m.stage.surface.edit text = (false, m.stage.surface)) := by
  have hstart : s₀.Locked := by
    rw [Stage.eq_of_new hnew]
    exact ⟨⟨nofun, fun hs => absurd rfl hs⟩, rfl, fun _ => rfl⟩
  have hlocked : m.stage.Locked :=
    h.stage_induction hstart fun _ _ _ _ hturn hs => hturn.locked hs
  refine ⟨hlocked.readOnly, hlocked.canonical, fun hs => ⟨hlocked.content hs, ?_⟩⟩
  intro text
  exact if_pos (hlocked.readOnly.2 hs)

end Machine

/-! ## An example -/

/-- A host that loads a document and plays it, loads another one meanwhile, and stops. -/
def reading : Routine :=
  .perform (.loadDocument ⟨"let a = 1;", [⟨"step", .text "0", none⟩]⟩) fun _ =>
    .perform (.command .play) fun _ => .perform (.loadDocument ⟨"let b = 2;", []⟩) fun _ =>
      .perform (.command .stop) fun _ => .done

namespace Machine

/-- The user edits the surface. -/
def scribble (m : Machine) : Machine := { m with stage := m.stage.edit "mine" }

/-- The reading where the document is loaded, and the user has edited the surface. -/
def scribbled : Machine := (Machine.run 2 ⟨.plain, [.run reading]⟩).scribble

/-- Some steps after the session has begun, where the user has tried again. -/
def reread (steps : Nat) : Machine := (scribbled.run 2).scribble.run steps

/-- The edit before the session is gone where it begins, and no edit is accepted until the session
stops; what is loaded meanwhile is shown. -/
theorem reading_locked :
    (scribbled.stage.surface.readOnly = false ∧ scribbled.stage.surface.content = "mine") ∧
      ((reread 0).stage.surface.readOnly = true ∧
        (reread 0).stage.surface.content = "let a = 1;") ∧
      ((reread 2).stage.surface.content = "let b = 2;" ∧
        ((reread 2).stage.surface.edit "mine").1 = false) ∧
      (reread 4).stage.surface.readOnly = false := by
  have hnew : Stage.new {} (.fresh 8 18) .keep (fun _ => none) = .ok .plain := rfl
  obtain ⟨_, hloaded⟩ := ((RunFrom.start).host reading).exec 2
  obtain ⟨_, hplayed⟩ := (hloaded.user "mine").exec 2
  obtain ⟨_, hrun⟩ := (hplayed.user "mine").exec 2
  obtain ⟨_, hstopped⟩ := (hplayed.user "mine").exec 4
  obtain ⟨hlock, _, hsession⟩ := surface_locked hnew (hplayed.user "mine")
  obtain ⟨_, _, hsession'⟩ := surface_locked hnew hrun
  have hon : (reread 0).stage.status ≠ .idle := nofun
  have hon' : (reread 2).stage.status ≠ .idle := nofun
  refine ⟨⟨rfl, rfl⟩, ⟨hlock.2 hon, (hsession hon).1⟩, ⟨(hsession' hon').1, ?_⟩, ?_⟩
  · rw [show (reread 2).stage.surface.edit "mine" = _ from (hsession' hon').2 "mine"]
  · obtain ⟨hlock, _⟩ := surface_locked hnew hstopped
    rw [← Bool.not_eq_true]
    exact fun hlocked => hlock.1 hlocked rfl

end Machine

end Walkthrough
