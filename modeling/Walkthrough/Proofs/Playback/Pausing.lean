import Walkthrough.Proofs.Playback.Course
import Walkthrough.Proofs.Playback.Lock
import Walkthrough.Proofs.Playback.Placid

/-!
# A pause does not show

Calls that are requested while a session runs are launched one by one as they are requested. Calls
that are requested during a pause wait, and are launched one by one when the session goes on. If
nothing that follows issues a command, fires a timer or looks at the queue, there is no difference:
with and without the pause everything is done in step.

* `Errand`, `requesting`, `interrupting` — calls to be requested, directly or during a pause.
* `Run.focused` — while a session is on, the surface has been focused.
* `requesting_deferred`, `leads_interrupting` — during a pause the calls come into the queue, and
  when the session goes on they are to be replayed.
* `Machine.Abreast` — a stage on which calls are still to be requested beside one on which they
  wait.
* `Abreast.step`, `Abreast.request` — a step on the one and a step on the other keep them abreast;
  `Abreast.leads`: so does an activity, and it comes to an end on both.
* `pause_transparent` — a pause shows by nothing but a further call that focuses the surface.
-/

set_option autoImplicit false

namespace Walkthrough

/-! ## Calls to be requested -/

/-- A call to be requested, with its delay. -/
structure Errand where
  label : String
  delay : Duration
  body : Routine

/-- The call that waits, without its ticket. -/
def Deferred.errand (d : Deferred Call) : Errand := ⟨d.call.label, d.delay, d.call.body⟩

/-- Requests calls one after the other, then goes on. -/
def requesting (es : List Errand) (next : Routine) : Routine :=
  es.foldr (fun e r => .request e.label e.delay e.body r) next

/-- Requests calls during a pause. -/
def interrupting (es : List Errand) : Routine :=
  .perform (.command .pause) fun _ => requesting es (.perform (.command .play) fun _ => .done)

/-! ## The surface is focused -/

namespace Stage

variable {s t : Stage}

/-- While a session is on, the surface has been focused. -/
def Focused (s : Stage) : Prop := s.status ≠ .idle → s.surface.focused = true

theorem Aside.focused (h : s.Aside t) (hs : s.Focused) : t.Focused := by
  induction h with
  | trans _ _ ih ih' => exact ih' (ih hs)
  | edited text s =>
      intro hsession
      unfold Stage.edit Surface.edit
      split <;> exact hs hsession
  | _ => exact hs

theorem SameScene.focused (h : SameScene s t) (hs : s.Focused) : t.Focused := by
  unfold Focused
  rw [h.surface, h.status]
  exact hs

/-- Where a session begins the surface is focused, and no command takes the focus away. -/
theorem Focused.command (hs : s.Focused) (c : Command) : (s.command c).1.Focused := by
  have hsession := Transition.session_of s.status c s.hasActions
  rw [command_eq]
  generalize Transition.of s.status c s.hasActions = t at hsession ⊢
  obtain ⟨status, _ | _ | _ | notice⟩ := t
  · intro hon
    exact hs (mt hsession.2 hon)
  · exact fun _ => rfl
  · exact fun _ => rfl
  · intro hon
    exact absurd hsession hon

end Stage

namespace Machine

open Stage

theorem Run.focused {past : List Machine} {m : Machine} (h : Run past m) : m.stage.Focused :=
  h.stage_induction (fun _ _ _ _ hs => absurd rfl hs) fun _ _ _ _ hturn =>
    hturn.keeps (fun _ _ ha => ha.focused) (fun _ _ hsame => hsame.focused) fun _ c hs =>
      hs.command c

/-! ## Calls that wait -/

variable {f : Frame} {fs gs rest : List Frame} {s s₁ s' t t₁ t' : Stage}

/-- While the session does not run, the calls that are requested wait in the queue. -/
theorem requesting_deferred (es : List Errand) (hs : s.status ≠ .playing) (next : Routine)
    (rest : List Frame) :
    ∃ t, Leads rest s [.run (requesting es next)] t [.run next] ∧ t.bare = s.bare ∧
      t.pending.map Deferred.errand = s.pending.map Deferred.errand ++ es ∧
      s.Notes Event.outcome? t [] := by
  induction es generalizing s with
  | nil => exact ⟨s, .refl _ _, rfl, (List.append_nil _).symm, .of_journal_eq rfl⟩
  | cons e es ih =>
      have hrequest := request_deferred hs e.label e.delay e.body
      generalize hu : (s.request e.label e.delay e.body).1 = u
      have hbare : u.bare = s.bare := by
        rw [← hu, hrequest]
        rfl
      have hqueue : u.pending.map Deferred.errand = s.pending.map Deferred.errand ++ [e] := by
        rw [← hu, hrequest]
        exact List.map_append
      have hnotes : s.Notes Event.outcome? u [] := by
        rw [← hu, hrequest]
        exact ⟨[.requested _ _, .deferred _], rfl, rfl⟩
      have hstatus : u.status ≠ .playing := by
        rw [status_of_bare hbare]
        exact hs
      obtain ⟨t, hleads, hbare', hqueue', hnotes'⟩ := ih hstatus
      refine ⟨t, .step ?_ hleads, hbare'.trans hbare, ?_, hnotes.trans hnotes'⟩
      · rw [← hu, hrequest]
        simp only [requesting, List.foldr_cons, List.cons_append, step, stepRoutine, hrequest]
        rfl
      · rw [hqueue', hqueue, List.append_assoc]
        rfl

/-- The calls `es` are still to be requested on the stage `s`, where the session runs and none
waits; they wait on the stage `t`, which is the same otherwise. -/
structure Abreast (es : List Errand) (s t : Stage) : Prop where
  playing : s.status = .playing
  pending : s.pending = []
  bare : t.bare = s.bare
  queue : t.pending.map Deferred.errand = es

/-- From `s` to `s'` the same happens as from `t` to `t'`. -/
def Concur (s s' t t' : Stage) : Prop :=
  ∃ xs, s.Notes Event.outcome? s' xs ∧ t.Notes Event.outcome? t' xs

theorem Concur.trans (h : Concur s s₁ t t₁) (h' : Concur s₁ s' t₁ t') : Concur s s' t t' := by
  obtain ⟨xs, hs, ht⟩ := h
  obtain ⟨ys, hs', ht'⟩ := h'
  exact ⟨xs ++ ys, hs.trans hs', ht.trans ht'⟩

theorem Abreast.mirrors {es : List Errand} {r q r' : Stage × List Frame} (h : Abreast es s t)
    (hs : s.Mirrors r r') (ht : t.Mirrors q r') :
    q.2 = r.2 ∧ Abreast es r.1 q.1 ∧ Concur s r.1 t q.1 := by
  refine ⟨ht.frames.trans hs.frames.symm, ⟨?_, ?_, ht.bare.trans hs.bare.symm, ?_⟩, _, hs.notes,
    ht.notes⟩
  · rw [hs.status, h.playing]
  · rw [hs.pending, h.pending]
  · rw [ht.pending, h.queue]

/-- A placid frame does the same on both stages. -/
theorem Abreast.step {es : List Errand} (h : Abreast es s t) (hf : f.Placid s)
    (hstep : ∀ rest, (⟨s, f :: rest⟩ : Machine).step = some ⟨s₁, gs ++ rest⟩) :
    ∃ t₁, (∀ rest, (⟨t, f :: rest⟩ : Machine).step = some ⟨t₁, gs ++ rest⟩) ∧
      Abreast es s₁ t₁ ∧ Concur s s₁ t t₁ := by
  obtain ⟨r', hmirrors⟩ := step_mirrors f s.bare
  obtain ⟨r, hr, hs⟩ := hmirrors s rfl hf h.playing
  have hplaying : t.status = .playing := (status_of_bare h.bare).trans h.playing
  obtain ⟨q, hq, ht⟩ := hmirrors t h.bare (hf.of_bare h.bare) hplaying
  obtain ⟨hframes, habreast, hconcur⟩ := h.mirrors hs ht
  have hunique := step_unique hstep (hr [])
  simp only [follow, List.append_nil, Machine.mk.injEq] at hunique
  obtain ⟨rfl, rfl⟩ := hunique
  rw [← hframes]
  exact ⟨q.1, hq, habreast, hconcur⟩

/-- The next call is requested on the one stage and replayed on the other. -/
theorem Abreast.request {e : Errand} {es : List Errand} (h : Abreast (e :: es) s t) :
    ∃ s₁ t₁ gs,
      (∀ rest, (⟨s, .run (requesting (e :: es) .done) :: rest⟩ : Machine).step =
        some ⟨s₁, (gs ++ [.run (requesting es .done)]) ++ rest⟩) ∧
      (∀ rest, (⟨t, .replay :: rest⟩ : Machine).step = some ⟨t₁, (gs ++ [.replay]) ++ rest⟩) ∧
      Abreast es s₁ t₁ ∧ Concur s s₁ t t₁ := by
  obtain ⟨d, ds, hqueue, rfl, rfl⟩ := List.map_eq_cons_iff.1 h.queue
  have hdequeue : Abreast (ds.map Deferred.errand) s (t.dequeue d ds) :=
    ⟨h.playing, h.pending, h.bare, rfl⟩
  have hs := request_mirrors h.playing d.call.label d.delay d.call.body
  have ht := launch_mirrors d (t.dequeue d ds)
  rw [show (t.dequeue d ds).bare = s.bare from h.bare] at ht
  obtain ⟨hframes, habreast, hconcur⟩ := hdequeue.mirrors hs ht
  have hreplayed : Concur s s t (t.dequeue d ds) :=
    ⟨[], .of_journal_eq rfl, Notes.record Event.outcome? (.replayed d.call.ticket) _⟩
  have hplaying : t.status = .playing := (status_of_bare h.bare).trans h.playing
  refine ⟨_, _, (s.request d.call.label d.delay d.call.body).2, fun rest => ?_, fun rest => ?_,
    habreast, hreplayed.trans hconcur⟩
  · rw [List.append_assoc]
    rfl
  · rw [step_replay hplaying hqueue, hframes]

/-- With nothing in the queue the replay is over. -/
theorem leads_drained (hpending : s.pending = []) (rest : List Frame) :
    Leads rest s [.replay, .answer .nothing fun _ => .done] (s.record (.replied .nothing)) [] :=
  .step (step_drained (fun _ => hpending) _) ((answer_ends .nothing s).leads [] rest)

/-- **What waits is launched in step with what is requested.** On the stage `s` the calls `es` are
still to be requested, on the stage `t` they wait and are being replayed; otherwise the stages are
the same and the same is to be done first. -/
theorem Abreast.leads {es : List Errand} (habreast : Abreast es s t) (fs rest : List Frame)
    (h : LeadsBy Frame.Placid s (fs ++ [.run (requesting es .done)]) s' gs) :
    ∃ t' hs, Leads rest t (fs ++ [.replay, .answer .nothing fun _ => .done]) t' hs ∧
      (gs = [] → hs = [] ∧ t'.pending = []) ∧ s'.pending = [] ∧ t'.bare = s'.bare ∧
      Concur s s' t t' := by
  generalize hfs : fs ++ [.run (requesting es .done)] = fs₀ at h
  induction h generalizing fs es t with
  | refl s fs₀ =>
      subst hfs
      refine ⟨t, _, .refl _ _, fun h => ?_, habreast.pending, habreast.bare, [],
        .of_journal_eq rfl, .of_journal_eq rfl⟩
      simp at h
  | @step f fs₀ gs₀ gs s s₁ s' hf hstep hleads ih =>
      cases fs with
      | cons g fs =>
          -- The frame comes before the requests, and is the same on both stages.
          obtain ⟨rfl, rfl⟩ := List.cons.inj hfs
          obtain ⟨t₁, hstep', habreast₁, hconcur⟩ := habreast.step hf hstep
          have hfs : (gs₀ ++ fs) ++ [.run (requesting es .done)] =
              gs₀ ++ (fs ++ [.run (requesting es .done)]) := List.append_assoc ..
          obtain ⟨t', hs, hleads', hend, hpending, hbare, hconcur'⟩ := ih habreast₁ _ hfs
          rw [List.append_assoc] at hleads'
          exact ⟨t', hs, .cons hstep' hleads', hend, hpending, hbare, hconcur.trans hconcur'⟩
      | nil =>
          obtain ⟨rfl, rfl⟩ := List.cons.inj hfs
          cases es with
          | nil =>
              -- No request is left: the direct requests are done, and the replay finds nothing.
              obtain ⟨rfl, rfl⟩ : s₁ = s ∧ gs₀ = [] := by
                have hdone (rest : List Frame) : (⟨s, .run .done :: rest⟩ : Machine).step =
                    some ⟨s, [] ++ rest⟩ := rfl
                simpa using step_unique hdone (hstep [])
              cases (show LeadsBy _ s₁ [] s' gs from hleads)
              have hpending : t.pending = [] := List.map_eq_nil_iff.1 habreast.queue
              exact ⟨t.record (.replied .nothing), [], leads_drained hpending rest,
                fun _ => ⟨rfl, hpending⟩, habreast.pending, habreast.bare, [], .of_journal_eq rfl,
                Notes.record Event.outcome? (.replied .nothing) t⟩
          | cons e es =>
              -- One call is requested on `s`, and the first of the queue is launched on `t`.
              obtain ⟨s₂, t₁, hs₁, hrequest, hreplay, habreast₁, hconcur⟩ := habreast.request
              obtain ⟨rfl, hframes⟩ := Machine.mk.inj (step_unique hrequest (hstep []))
              simp only [List.append_nil] at hframes
              subst hframes
              obtain ⟨t', hs, hleads', hend, hpending, hbare, hconcur'⟩ :=
                ih habreast₁ hs₁ (List.append_nil _).symm
              refine ⟨t', hs, .cons hreplay ?_, hend, hpending, hbare, hconcur.trans hconcur'⟩
              rw [List.append_assoc]
              exact hleads'

/-! ## The pause -/

theorem leads_command (c : Command) (next : Reply → Routine) (s : Stage) (rest : List Frame) :
    Leads rest s [.run (.perform (.command c) next)] (s.command c).1
      ((s.command c).2 ++ [.answer .nothing next]) := .step rfl (.refl _ _)

theorem leads_answer (reply : Reply) (next : Reply → Routine) (s : Stage) (rest : List Frame) :
    Leads rest s [.answer reply next] (s.record (.replied reply)) [.run (next reply)] :=
  .step rfl (.refl _ _)

theorem command_pause (hs : s.status = .playing) :
    s.command .pause = ((s.record (.issued .pause s.hasActions)).setStatus .paused, []) := by
  rw [command_eq, hs]
  rfl

theorem command_resume (hs : s.status = .paused) :
    s.command .play =
      (((s.record (.issued .play s.hasActions)).callSurface .focus).setStatus .playing,
        [.replay]) := by
  rw [command_eq, hs]
  rfl

/-- A stage that is paused and goes on is as before. -/
theorem resumed_bare (hs : s.status = .playing) (hfocused : s.surface.focused = true)
    (hbare : t.bare = (s.setStatus .paused).bare) :
    ((t.callSurface .focus).setStatus .playing).bare = s.bare := by
  have hsurface : s.surface.apply .focus = s.surface := by
    simp only [Surface.apply, ← hfocused]
  calc ((t.callSurface .focus).setStatus .playing).bare
    _ = { t.bare with
          surface := t.bare.surface.apply .focus, player.playback.status := .playing } := rfl
    _ = { s.bare with surface := s.surface.apply .focus, player.playback.status := .playing } := by
        rw [hbare]
        rfl
    _ = s.bare := by
        rw [hsurface, ← hs]
        rfl

/-- During a pause the calls wait, and when the session goes on they are to be replayed. -/
theorem leads_interrupting (es : List Errand) (hs : s.status = .playing) (hpending : s.pending = [])
    (hfocused : s.surface.focused = true) (rest : List Frame) :
    ∃ t, Leads rest s [.run (interrupting es)] t [.replay, .answer .nothing fun _ => .done] ∧
      Abreast es s t ∧ s.Notes Event.outcome? t [.surface .focus] := by
  have hpause := leads_command .pause
    (fun _ => requesting es (.perform (.command .play) fun _ => .done)) s rest
  rw [command_pause hs] at hpause
  have hpaused := hpause.trans (leads_answer _ _ _ rest)
  generalize hu : ((s.record (.issued .pause s.hasActions)).setStatus .paused).record
    (.replied .nothing) = u at hpaused
  have hstatus : u.status = .paused := by
    rw [← hu]
    rfl
  have hwaiting : u.status ≠ .playing := by
    rw [hstatus]
    nofun
  obtain ⟨v, hrequests, hbare, hqueue, hnotes⟩ :=
    requesting_deferred es hwaiting (.perform (.command .play) fun _ => .done) rest
  have hplay := leads_command .play (fun _ => .done) v rest
  rw [command_resume ((status_of_bare hbare).trans hstatus)] at hplay
  have hpausing : s.Notes Event.outcome? u [] := by
    rw [← hu]
    exact ⟨[.issued _ _, .replied .nothing], rfl, rfl⟩
  have hresuming : v.Notes Event.outcome?
      (((v.record (.issued .play v.hasActions)).callSurface .focus).setStatus .playing)
      [.surface .focus] := ⟨[.issued _ _, .surface .focus], rfl, rfl⟩
  refine ⟨_, hpaused.trans (hrequests.trans hplay), ⟨hs, hpending, ?_, ?_⟩,
    hpausing.trans (hnotes.trans hresuming)⟩
  · rw [← hu] at hbare
    exact resumed_bare hs hfocused (t := v.record _) hbare
  · have hempty : u.pending = [] := by
      rw [← hu]
      exact hpending
    rw [hempty] at hqueue
    exact hqueue

/-- **A pause does not show.** At any moment of a run where the session runs and no call waits,
calls are requested one after the other, directly or during a pause. If nothing that follows the
direct requests issues a command, fires a timer or looks at the queue, then as far as it goes the
pause leads to the same, and comes to its end with it: the same calls are started and the same
timers are scheduled in the same order, the surface, the host and the routines hear the same, and
the stage is the same but for the tickets and the journal. Only the surface is focused once more,
when the session goes on. -/
theorem pause_transparent {past : List Machine} {m : Machine} (hrun : Run past m)
    (hs : m.stage.status = .playing) (hpending : m.stage.pending = []) (es : List Errand)
    (h : LeadsBy Frame.Placid m.stage [.run (requesting es .done)] s' fs) :
    ∃ t gs, Leads [] m.stage [.run (interrupting es)] t gs ∧
      (fs = [] → gs = [] ∧ t.pending = []) ∧ s'.pending = [] ∧ t.bare = s'.bare ∧
      (t.since m.stage).filterMap Event.outcome? =
        .surface .focus :: (s'.since m.stage).filterMap Event.outcome? := by
  have hfocused : m.stage.surface.focused = true := by
    refine hrun.focused ?_
    rw [hs]
    nofun
  obtain ⟨t₀, hpause, habreast, hfocus⟩ :=
    leads_interrupting es hs hpending hfocused []
  obtain ⟨t, gs, hleads, hend, hpending', hbare, xs, ⟨es₁, hjournal₁, hxs₁⟩, hnotes₂⟩ :=
    habreast.leads [] [] h
  obtain ⟨es₂, hjournal₂, hxs₂⟩ := hfocus.trans hnotes₂
  refine ⟨t, gs, hpause.trans hleads, hend, hpending', hbare, ?_⟩
  rw [since_eq hjournal₁, since_eq hjournal₂, hxs₁, hxs₂]
  rfl

end Machine

/-! ## An example -/

/-- Two calls: one at once, which starts another one, asks for the content and requests a third one;
and one later. -/
def chores : List Errand :=
  [⟨"wash", 0, .request "rinse" 0 .done
      (.perform (.ask .content) fun _ => .request "dry" 3 .done .done)⟩,
    ⟨"rest", 5, .done⟩]

/-- A check that a frame is placid, where it does not look at all. -/
def Frame.isPlacid (s : Stage) (f : Frame) : Bool :=
  (f.order? s).isNone && (f.fires? s).isNone &&
    match f with
    | .run (.look _) | .run (.perform (.ask .summary) _) | .replay => false
    | _ => true

namespace Frame

theorem Placid.of_isPlacid {s : Stage} {f : Frame} (h : f.isPlacid s = true) : f.Placid s := by
  simp only [isPlacid, Bool.and_eq_true, Option.isNone_iff_eq_none] at h
  obtain ⟨⟨horder, hfires⟩, hlooks⟩ := h
  refine ⟨horder, hfires, ?_⟩
  unfold Overlooks
  split <;> simp_all

end Frame

namespace Machine

/-- The rehearsal where it plays, and the chores are requested next. -/
def choresAsked : Machine := ⟨(rehearsed 4).stage, [.run (requesting chores .done)]⟩

/-- The chores are done in one order, whether they are requested during a pause or not. -/
theorem chores_unseen :
    (choresAsked.stage.status = .playing ∧ choresAsked.stage.pending = []) ∧
      LeadsBy Frame.Placid choresAsked.stage [.run (requesting chores .done)]
        (choresAsked.run 9).stage [] ∧
      ∃ t, Ends [.run (interrupting chores)] choresAsked.stage t ∧
        t.bare = (choresAsked.run 9).stage.bare ∧
        (t.since choresAsked.stage).filterMap Event.outcome? =
          [.surface .focus, .started 0 "wash", .started 0 "rinse",
            .replied (.text "let a = 1;"), .launched 0 0, .scheduled 0 0 0 3, .launched 0 1,
            .scheduled 1 1 0 5] := by
  have hchores : LeadsBy Frame.Placid choresAsked.stage [.run (requesting chores .done)]
      (choresAsked.run 9).stage [] :=
    LeadsBy.of_trace (m := choresAsked) 9 (fun _ _ => Frame.Placid.of_isPlacid) rfl rfl
  obtain ⟨past, hrun⟩ := rehearsed_run 4
  obtain ⟨t, gs, hleads, hend, _, hbare, houtcome⟩ :=
    pause_transparent hrun rfl rfl chores hchores
  obtain ⟨rfl, _⟩ := hend rfl
  exact ⟨⟨rfl, rfl⟩, hchores, t, hleads.ends, hbare, houtcome⟩

end Machine

end Walkthrough
