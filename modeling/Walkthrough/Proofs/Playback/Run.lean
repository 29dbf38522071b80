import Walkthrough.Proofs.Playback.Turn

/-!
# Runs

A run begins with a new player. Whenever nothing is left to do the host begins an activity, the
machine steps through whatever that leads to, and the user may edit the surface at any moment.

* `Machine.Run` — a run, with the machines that have stepped so far.
* `Machine.Leads` — steps that leave alone the frames below an activity, at whatever depth it is
  performed.
* `Machine.RunFrom` — a run from a given stage; `run_iff`: a run is one from a new player's.
* `Run.stage_induction` — what turns keep holds throughout a run.
* `Run.exec`, `Leads.exec` — what the machine itself does, with any fuel, is a run.
* `Leads.above` — an activity goes the same way at any depth.
-/

set_option autoImplicit false

namespace Walkthrough

/-- A new stage has nothing but what it was given. -/
theorem Stage.eq_of_new {config : Config} {surface : Surface} {timers : TimerPolicy}
    {routines : String → Option Routine}
    {s : Stage} (h : Stage.new config surface timers routines = .ok s) :
    s = { player := { config, timers }, surface, routines } := by
  unfold Stage.new at h
  cases hv : config.validate with
  | error e => rw [hv] at h; cases h
  | ok u => rw [hv] at h; cases h; rfl

namespace Machine

/-- A run from a new player. The list holds the machines that have stepped so far, in order; the
machine is where the run has come to. -/
inductive Run : List Machine → Machine → Prop where
  | new {config : Config} {surface : Surface} {timers : TimerPolicy}
      {routines : String → Option Routine} {s : Stage} :
      Stage.new config surface timers routines = .ok s → Run [] ⟨s, []⟩
  | host {past : List Machine} {s : Stage} (r : Routine) : Run past ⟨s, []⟩ → Run past ⟨s, [.run r]⟩
  | user {past : List Machine} {m : Machine} (text : String) :
      Run past m → Run past { m with stage := m.stage.edit text }
  | step {past : List Machine} {m m' : Machine} :
      Run past m → m.step = some m' → Run (past ++ [m]) m'

/-- Above the frames `rest`, the frames `fs` on the stage `s` lead to the frames `fs'` on the stage
`s'`. -/
inductive Leads (rest : List Frame) : Stage → List Frame → Stage → List Frame → Prop where
  | refl (s : Stage) (fs : List Frame) : Leads rest s fs s fs
  | step {f : Frame} {fs gs fs' : List Frame} {s s₁ s' : Stage} :
      (⟨s, f :: fs ++ rest⟩ : Machine).step = some ⟨s₁, gs ++ rest⟩ → Leads rest s₁ gs s' fs' →
      Leads rest s (f :: fs) s' fs'

/-- A run from the stage `s₀`. -/
inductive RunFrom (s₀ : Stage) : List Machine → Machine → Prop where
  | start : RunFrom s₀ [] ⟨s₀, []⟩
  | host {past : List Machine} {s : Stage} (r : Routine) : RunFrom s₀ past ⟨s, []⟩ →
      RunFrom s₀ past ⟨s, [.run r]⟩
  | user {past : List Machine} {m : Machine} (text : String) :
      RunFrom s₀ past m → RunFrom s₀ past { m with stage := m.stage.edit text }
  | step {past : List Machine} {m m' : Machine} :
      RunFrom s₀ past m → m.step = some m' → RunFrom s₀ (past ++ [m]) m'

/-- A run is one from the stage of a new player. -/
theorem run_iff {past : List Machine} {m : Machine} :
    Run past m ↔ ∃ config surface timers routines s₀,
      Stage.new config surface timers routines = .ok s₀ ∧ RunFrom s₀ past m := by
  constructor
  · intro h
    induction h with
    | new h => exact ⟨_, _, _, _, _, h, .start⟩
    | host r _ ih =>
        obtain ⟨_, _, _, _, _, hnew, ih⟩ := ih
        exact ⟨_, _, _, _, _, hnew, ih.host r⟩
    | user text _ ih =>
        obtain ⟨_, _, _, _, _, hnew, ih⟩ := ih
        exact ⟨_, _, _, _, _, hnew, ih.user text⟩
    | step _ hm ih =>
        obtain ⟨_, _, _, _, _, hnew, ih⟩ := ih
        exact ⟨_, _, _, _, _, hnew, ih.step hm⟩
  · rintro ⟨_, _, _, _, _, hnew, h⟩
    induction h with
    | start => exact .new hnew
    | host r _ ih => exact ih.host r
    | user text _ ih => exact ih.user text
    | step _ hm ih => exact ih.step hm

theorem RunFrom.exec {s₀ : Stage} {past : List Machine} {m : Machine} (h : RunFrom s₀ past m)
    (fuel : Nat) : ∃ past', RunFrom s₀ past' (m.run fuel) := by
  induction fuel generalizing past m with
  | zero => exact ⟨past, h⟩
  | succ fuel ih =>
      unfold run
      split
      · exact ⟨past, h⟩
      · rename_i m' hm
        exact ih (h.step hm)

theorem Run.exec {past : List Machine} {m : Machine} (h : Run past m) (fuel : Nat) :
    ∃ past', Run past' (m.run fuel) := by
  obtain ⟨_, _, _, _, _, hnew, h⟩ := run_iff.1 h
  obtain ⟨past', h⟩ := h.exec fuel
  exact ⟨past', run_iff.2 ⟨_, _, _, _, _, hnew, h⟩⟩

/-- What holds of the first stage and is kept by every turn holds of every stage. -/
theorem RunFrom.stage_induction {P : Stage → Prop} {s₀ : Stage} (hstart : P s₀)
    (hturn : ∀ f s s' fs, Turn f s s' fs → P s → P s') {past : List Machine} {m : Machine}
    (h : RunFrom s₀ past m) : P m.stage := by
  induction h with
  | start => exact hstart
  | host r _ ih => exact ih
  | @user _ m text _ ih =>
      have hedit : Turn (.run .done) m.stage (m.stage.edit text) [] :=
        .aside (.edited text m.stage) rfl rfl rfl
      exact hturn _ _ _ _ hedit ih
  | step _ hm ih =>
      obtain ⟨f, rest, fs, _, _, ht⟩ := step_turn hm
      exact hturn f _ _ fs ht ih

/-- What holds of new stages and is kept by every turn holds of every stage of a run. -/
theorem Run.stage_induction {P : Stage → Prop}
    (hnew : ∀ config surface timers routines, P { player := { config, timers }, surface, routines })
    (hturn : ∀ f s s' fs, Turn f s s' fs → P s → P s') {past : List Machine} {m : Machine}
    (h : Run past m) : P m.stage := by
  obtain ⟨_, _, _, _, _, hs₀, h⟩ := run_iff.1 h
  refine h.stage_induction ?_ hturn
  rw [Stage.eq_of_new hs₀]
  exact hnew _ _ _ _

/-- The frames above `rest` step by turns, and `rest` stays. -/
theorem Leads.turn {rest fs gs : List Frame} {f : Frame} {s s₁ : Stage}
    (h : (⟨s, f :: fs ++ rest⟩ : Machine).step = some ⟨s₁, gs ++ rest⟩) :
    ∃ hs, gs = hs ++ fs ∧ Turn f s s₁ hs := by
  obtain ⟨f', rest', hs, hf, hg, ht⟩ := step_turn h
  simp only [List.cons_append, List.cons.injEq] at hf
  obtain ⟨rfl, rfl⟩ := hf
  refine ⟨hs, ?_, ht⟩
  simp only [← List.append_assoc] at hg
  exact List.append_cancel_right hg

theorem Leads.exec (fuel : Nat) (m : Machine) :
    Leads [] m.stage m.frames (m.run fuel).stage (m.run fuel).frames := by
  induction fuel generalizing m with
  | zero => exact .refl _ _
  | succ fuel ih =>
      unfold run
      split
      · exact .refl _ _
      · rename_i m' hm
        obtain ⟨f, rest, fs, hf, hf', _⟩ := step_turn hm
        have hstep : (⟨m.stage, f :: rest ++ []⟩ : Machine).step =
            some ⟨m'.stage, m'.frames ++ []⟩ := by
          rw [List.append_nil, List.append_nil, ← hf]
          exact hm
        rw [hf]
        exact .step hstep (ih m')

/-- A step does not look below its frame. -/
theorem step_append {f : Frame} {fs : List Frame} {s : Stage} {m' : Machine}
    (h : (⟨s, f :: fs⟩ : Machine).step = some m') (rest : List Frame) :
    (⟨s, f :: fs ++ rest⟩ : Machine).step = some ⟨m'.stage, m'.frames ++ rest⟩ := by
  cases f with
  | run r =>
      cases h
      cases r with
      | request label delay body next => simp [step, stepRoutine, follow]
      | perform op next => simp [step, stepRoutine, follow]
      | invoke name next =>
          simp only [List.cons_append, step, stepRoutine]
          split <;> rfl
      | _ => rfl
  | replay =>
      cases h
      simp only [List.cons_append, step, stepReplay]
      split <;> simp [follow]
  | notify notice =>
      cases h
      rfl
  | clock target fired next =>
      cases h
      simp only [List.cons_append, step, stepClock]
      split <;> simp [follow]
  | answer reply next =>
      cases h
      rfl

/-- An activity goes the same way at any depth. -/
theorem Leads.above {fs fs' : List Frame} {s s' : Stage} (h : Leads [] s fs s' fs')
    (rest : List Frame) :
    Leads rest s fs s' fs' := by
  induction h with
  | refl s fs => exact .refl s fs
  | step hm _ ih =>
      rw [List.append_nil, List.append_nil] at hm
      exact .step (step_append hm rest) ih

end Machine

/-! ## An example -/

/-- A new player under the default configuration. -/
def Stage.plain : Stage := { player := { config := {} } }

theorem Stage.plain_new : Stage.new {} {} .keep (fun _ => none) = .ok .plain := rfl

/-- A call that pauses, defers a call and goes on. -/
def interruption : Routine :=
  .perform (.command .pause) fun _ =>
    .request "late" 0 .done (.perform (.command .play) fun _ => .done)

/-- A host that plays, pauses, defers two calls and goes on. -/
def rehearsal : Routine :=
  .perform (.loadDocument ⟨"let a = 1;", [⟨"step", .text "0", none⟩]⟩) fun _ =>
    .perform (.command .play) fun _ => .perform (.command .pause) fun _ =>
      .request "early" 0 interruption
        (.request "next" 5 .done (.perform (.command .play) fun _ => .done))

/-- The rehearsal after some steps. -/
def rehearsed (steps : Nat) : Machine := Machine.run steps ⟨.plain, [.run rehearsal]⟩

theorem rehearsed_run (steps : Nat) : ∃ past, Machine.Run past (rehearsed steps) :=
  ((Machine.Run.new Stage.plain_new).host rehearsal).exec steps

end Walkthrough
