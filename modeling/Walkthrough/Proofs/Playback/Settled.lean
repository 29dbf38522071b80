import Walkthrough.Proofs.Playback.Run
import Walkthrough.Proofs.Playback.Session

/-!
# No call is stranded while playing

Deferred calls wait for the session to go on. Once it does they are replayed, and a replay gives way
only when none is left or the session no longer plays. While a replay is under way the session plays
over a queue that need not be empty, and the calls it starts may pause, stop, begin a new session,
defer more calls or replay them in a replay of their own. What carries through all of this is that a
stranded call has a replay below it.

* `Stage.WhilePlaying`, `Stage.Settled` — what the queue is like, and that no call waits, while the
  session plays.
* `Turn.whilePlaying` — what holds of the queue while the session plays, and of the empty queue, a
  turn keeps, unless a replay is under way; `step_whilePlaying`, `Leads.whilePlaying`: so do a step
  and an activity.
* `settled_of_not_draining` — all stages of all runs are settled whenever no replay is under way.
-/

set_option autoImplicit false

namespace Walkthrough

/-- While the session plays, the queue is as `P` says. -/
def Stage.WhilePlaying (P : List (Deferred Call) → Prop) (s : Stage) : Prop :=
  s.status = .playing → P s.pending

/-- No call waits while the session plays. -/
def Stage.Settled (s : Stage) : Prop := s.status = .playing → s.pending = []

/-- Whether deferred calls are being replayed somewhere in a list of frames. -/
def draining (fs : List Frame) : Bool := fs.any (·.isReplay)

theorem draining_append (fs gs : List Frame) :
    draining (fs ++ gs) = (draining fs || draining gs) := by
  simp [draining]

/-- A transition to playing changes nothing, goes on with a paused session or begins a new one. -/
theorem Transition.to_playing {status : Status} {c : Command} {a : Bool}
    (h : (Transition.of status c a).status = .playing) :
    (status = .playing ∧ (Transition.of status c a).effect = none) ∨
      (Transition.of status c a).effect = some .resume ∨
      Effect.clears (Transition.of status c a).effect = true := by
  cases status <;> cases c <;> cases a <;> simp [Transition.of, Effect.clears] at h ⊢

section

variable {P : List (Deferred Call) → Prop} {s s' : Stage}

namespace Stage

theorem WhilePlaying.congr (h : s.WhilePlaying P) (hs : s'.status = s.status)
    (hp : s'.pending = s.pending) : s'.WhilePlaying P := by
  intro hplay
  rw [hp]
  exact h (hs ▸ hplay)

theorem WhilePlaying.of_not_playing (h : s.status ≠ .playing) : s.WhilePlaying P := by
  intro hs
  exact absurd hs h

theorem settled_of_not_playing (h : s.status ≠ .playing) : s.Settled :=
  WhilePlaying.of_not_playing (P := (· = [])) h

/-- A command that begins to play empties the queue, or replays the calls that it finds there. -/
theorem WhilePlaying.command (h : s.WhilePlaying P) (hnil : P []) (c : Command) :
    draining (s.command c).2 = true ∨ (s.command c).1.WhilePlaying P := by
  by_cases hplay : (s.command c).1.status = .playing
  · have ht := hplay
    rw [command_status] at ht
    rcases Transition.to_playing ht with ⟨hs, he⟩ | he | he
    · right
      intro _
      rw [command_pending, he]
      exact h hs
    · left
      rw [command_frames, he]
      rfl
    · right
      intro _
      rw [command_pending, if_pos he]
      exact hnil
  · exact .inr (.of_not_playing hplay)

theorem WhilePlaying.request (h : s.WhilePlaying P) (label : String) (delay : Duration)
    (body : Routine) : (s.request label delay body).1.WhilePlaying P := by
  by_cases hs : s.status = .playing
  · rw [request_playing hs]
    obtain ⟨hstatus, hpending, _⟩ := launch_session (s.asked label delay body) (s.ticketed delay)
    exact h.congr hstatus hpending
  · rw [request_deferred hs]
    exact .of_not_playing hs

end Stage

variable {f : Frame} {fs : List Frame}

theorem Turn.not_draining (h : (f :: fs).all (! ·.isReplay)) : f.isReplay = false := by
  simp at h
  exact h.1

/-- **A turn keeps what holds of the queue while the session plays**, unless a replay is under way.
What holds must hold of the empty queue, since that is where a session begins and a replay ends. -/
theorem Turn.whilePlaying (h : Turn f s s' fs) (hnil : P [])
    (hs : f.isReplay = true ∨ s.WhilePlaying P) : draining fs = true ∨ s'.WhilePlaying P := by
  cases h with
  | aside ha _ _ hr =>
      right
      have hsame := ha.sameSession
      exact (hs.resolve_left (by simp [not_draining hr])).congr hsame.status hsame.pending
  | commanded _ ha _ =>
      have hsame := ha.sameSession
      rw [draining_append]
      rcases ((hs.resolve_left nofun).congr hsame.status hsame.pending).command hnil _ with h | h
      · exact .inl (by rw [h]; rfl)
      · exact .inr h
  | requested label delay body next => exact .inr ((hs.resolve_left nofun).request label delay body)
  | replayed _ _ =>
      left
      rw [draining_append]
      exact Bool.or_true _
  | drained h => exact .inr fun hplay => (h hplay).symm ▸ hnil
  | fired _ ha hl _ hr =>
      right
      have hsame := ha.sameSession
      rw [Stage.fire_eq hl]
      exact (hs.resolve_left (by simp [not_draining hr])).congr hsame.status hsame.pending

/-- The same above any frames: where it does not hold, some replay is under way. -/
theorem Turn.whilePlaying_above (h : Turn f s s' fs) (hnil : P []) (rest : List Frame)
    (hs : draining (f :: rest) = true ∨ s.WhilePlaying P) :
    draining (fs ++ rest) = true ∨ s'.WhilePlaying P := by
  rw [draining_append, Bool.or_eq_true]
  rcases hs with hd | hs
  · rw [draining, List.any_cons, Bool.or_eq_true] at hd
    rcases hd with hf | hr
    · exact (h.whilePlaying hnil (.inl hf)).imp_left .inl
    · exact .inl (.inr hr)
  · exact (h.whilePlaying hnil (.inr hs)).imp_left .inl

theorem Machine.step_whilePlaying {m m' : Machine} (h : m.step = some m') (hnil : P [])
    (hm : draining m.frames = true ∨ m.stage.WhilePlaying P) :
    draining m'.frames = true ∨ m'.stage.WhilePlaying P := by
  obtain ⟨f, rest, fs, hf, hf', ht⟩ := step_turn h
  rw [hf] at hm
  rw [hf']
  exact ht.whilePlaying_above hnil rest hm

theorem Machine.Leads.whilePlaying {rest fs' : List Frame} (h : Leads rest s fs s' fs')
    (hnil : P []) (hs : draining fs = true ∨ s.WhilePlaying P) :
    draining fs' = true ∨ s'.WhilePlaying P := by
  induction h with
  | refl s fs => exact hs
  | step hm _ ih =>
      obtain ⟨gs, rfl, ht⟩ := Leads.turn hm
      exact ih (ht.whilePlaying_above hnil _ hs)

end

namespace Machine

theorem Run.settled {past : List Machine} {m : Machine} (h : Run past m) :
    draining m.frames = true ∨ m.stage.Settled := by
  induction h with
  | new h =>
      cases Stage.eq_of_new h
      exact .inr fun _ => rfl
  | host r _ ih => exact .inr (ih.resolve_left nofun)
  | user text _ ih => exact ih
  | step _ hm ih => exact step_whilePlaying (P := (· = [])) hm rfl ih

theorem Leads.settled {rest fs fs' : List Frame} {s s' : Stage} (h : Leads rest s fs s' fs')
    (hs : draining fs = true ∨ s.Settled) : draining fs' = true ∨ s'.Settled :=
  h.whilePlaying (P := (· = [])) rfl hs

/-- **No call is stranded while playing.** Whenever no replay is under way — at the top level none
ever is — a session that plays has an empty queue. The same holds of every activity by itself, at
any depth and above any frames: begun on a settled stage, or paused over whatever queue, it leaves a
settled stage wherever no replay that belongs to it is under way, hence wherever it has returned. -/
theorem settled_of_not_draining :
    (∀ past m, Run past m → draining m.frames = false → m.stage.Settled) ∧
      (∀ rest s fs s' fs', Leads rest s fs s' fs' → s.Settled → draining fs' = false → s'.Settled) ∧
      ∀ rest s next s' reply,
        Leads rest s [.run (.perform (.command .play) next)] s' [.run (next reply)] →
        s.status = .paused → s'.Settled := by
  refine ⟨?_, ?_, ?_⟩
  · intro past m h hd
    exact h.settled.resolve_left (by simp [hd])
  · intro rest s fs s' fs' h hs hd
    exact (h.settled (.inr hs)).resolve_left (by simp [hd])
  · intro rest s next s' reply h hs
    have hbefore : s.Settled := Stage.settled_of_not_playing (by simp [hs])
    exact (h.settled (.inr hbefore)).resolve_left nofun

/-- The rehearsal at its end, the second play of its host over two waiting calls, and the play
inside the call that this one replays, again over two waiting calls. -/
theorem rehearsal_settled :
    (draining (rehearsed 23).frames = false ∧ (rehearsed 23).stage.status = .playing ∧
      (rehearsed 23).stage.Settled) ∧
      ((rehearsed 13).stage.status = .paused ∧ (rehearsed 13).stage.pending.length = 2 ∧
        draining (rehearsed 13).frames = true ∧ (rehearsed 19).stage.status = .playing ∧
          (rehearsed 19).stage.Settled) ∧
      ((rehearsed 8).stage.status = .paused ∧ (rehearsed 8).stage.pending.length = 2 ∧
        (rehearsed 22).stage.status = .playing ∧ (rehearsed 22).stage.Settled) := by
  obtain ⟨past, hr⟩ := rehearsed_run 23
  have hinner :=
    (Leads.exec 6 ⟨(rehearsed 13).stage, [.run (.perform (.command .play) fun _ => .done)]⟩).above
    [.replay, .answer .nothing fun _ => .done]
  have houter :=
    Leads.exec 14 ⟨(rehearsed 8).stage, [.run (.perform (.command .play) fun _ => .done)]⟩
  refine ⟨⟨rfl, rfl, ?_⟩, ⟨rfl, rfl, rfl, rfl, ?_⟩, rfl, rfl, rfl, ?_⟩
  · exact settled_of_not_draining.1 _ _ hr rfl
  · exact settled_of_not_draining.2.1 _ _ _ _ _ hinner (fun h => by cases h) rfl
  · exact settled_of_not_draining.2.2 _ _ _ _ .nothing houter rfl

end Machine

end Walkthrough
