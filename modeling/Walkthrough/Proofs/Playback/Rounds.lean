import Walkthrough.Proofs.Playback.Replay
import Walkthrough.Proofs.Playback.Return
import Walkthrough.Proofs.Playback.Settled

/-!
# The rounds of a replay

In each round a replay takes the first call from the queue, and the next round begins where the call
has come back. Meanwhile the call may do with the queue what it likes: pause, defer other calls and
go on, stop, or begin a new session. But while the session plays nothing comes to the queue, and
where it goes on or begins anew nothing is left there. So whatever a call does, it leaves the queue
as it found it or empty, if the session still plays; and the rounds are bounded by the calls that
the replay has found, though the queue may grow meanwhile.

* `Machine.loop`, `Machine.taken` — the rounds of one replay, and the calls that it takes from the
  queue itself, those of replays inside its calls left out.
* `Machine.StartsReturn` — the calls that a replay starts come back.
* `Leads.queue` — an activity leaves the queue as it was, or empty, or the session does not play.
* `replays_loop_isPrefix`, `taken_isPrefix` — what a replay takes, by induction on the steps.
* `replay_returns` — where the calls come back so does the replay, by induction on the queue.
* `replay_rounds` — a replay takes at most as many calls as it finds.
-/

set_option autoImplicit false

namespace Walkthrough.Machine

open Stage

/-- Of machines that step one after the other, those at the loop of a replay above so many frames,
until this replay is over. -/
def loop (depth : Nat) (ms : List Machine) : List Machine :=
  (ms.takeWhile fun m => depth < m.frames.length).filter fun m => m.frames.length = depth + 1

/-- The calls that a replay on the stage `s`, above the frames `rest`, takes from the queue itself
in the next steps. -/
def taken (rest : List Frame) (s : Stage) (steps : Nat) : List Nat :=
  replays (loop rest.length (trace steps ⟨s, .replay :: rest⟩))

/-- Every call that a replay on the stage `s` starts comes back. -/
def StartsReturn (rest : List Frame) (s : Stage) : Prop :=
  ∀ t body c, Leads rest s [.replay] t [.replay] →
    (⟨t, .replay :: rest⟩ : Machine).step = some ⟨c, .run body :: .replay :: rest⟩ →
      ∃ u, Leads (.replay :: rest) c [.run body] u []

section

variable {depth : Nat} {m : Machine}

theorem loop_cons_of_eq (h : m.frames.length = depth + 1) (ms : List Machine) :
    loop depth (m :: ms) = m :: loop depth ms := by
  simp [loop, h]

theorem loop_cons_of_lt (h : depth + 1 < m.frames.length) (ms : List Machine) :
    loop depth (m :: ms) = loop depth ms := by
  have hdepth : depth < m.frames.length := by omega
  have hne : m.frames.length ≠ depth + 1 := by omega
  simp [loop, hdepth, hne]

theorem loop_cons_of_le (h : m.frames.length ≤ depth) (ms : List Machine) :
    loop depth (m :: ms) = [] := by
  simp [loop, Nat.not_lt.2 h]

end

variable {rest fs gs hs : List Frame} {f : Frame} {s s' t u : Stage} {d : Deferred Call}
  {q ds : List (Deferred Call)}

theorem replays_cons (m : Machine) (ms : List Machine) :
    replays (m :: ms) = m.events.filterMap Event.replayed? ++ replays ms := by
  simp [replays, happened]

/-- At its loop a replay is over, or a call waits and another round begins. -/
theorem settled_or_waits (s : Stage) :
    s.Settled ∨ ∃ d ds, s.status = .playing ∧ s.pending = d :: ds := by
  by_cases hs : s.Settled
  · exact .inl hs
  · obtain ⟨hplay, hne⟩ := Classical.not_imp.1 hs
    obtain ⟨d, ds, hpending⟩ := List.exists_cons_of_ne_nil hne
    exact .inr ⟨d, ds, hplay, hpending⟩

/-! ## What a call leaves in the queue -/

/-- **An activity leaves the queue as it was, or empty**, if the session plays at its end. -/
theorem Leads.queue (h : Leads rest s fs t []) (hplay : t.status = .playing) :
    t.pending = s.pending ∨ t.pending = [] := by
  have hstart : s.WhilePlaying fun q => q = s.pending ∨ q = [] := fun _ => .inl rfl
  exact (h.whilePlaying (.inr rfl) (.inr hstart)).resolve_left Bool.false_ne_true hplay

/-- What is launched from the queue leaves the others there. -/
theorem dequeue_launch_pending (d : Deferred Call) (ds : List (Deferred Call)) (s : Stage) :
    ((s.dequeue d ds).launch d).1.pending = ds := (launch_session d (s.dequeue d ds)).2.1

/-! ## What a replay takes -/

/-- What steps above a replay is not counted. -/
theorem loop_trace_above
    (hstep : ∀ rest, (⟨s, f :: rest⟩ : Machine).step = some ⟨t, hs ++ rest⟩) (fuel : Nat)
    (gs rest : List Frame) :
    loop rest.length (trace (fuel + 1) ⟨s, f :: gs ++ .replay :: rest⟩) =
      loop rest.length (trace fuel ⟨t, hs ++ gs ++ .replay :: rest⟩) := by
  have habove : rest.length + 1 < (f :: (gs ++ .replay :: rest)).length := by
    simp only [List.length_cons, List.length_append]
    omega
  simp only [List.cons_append, List.append_assoc, trace, hstep]
  exact loop_cons_of_lt habove _

/-- Neither is what steps below it, once it is over. -/
theorem loop_trace_below (fuel : Nat) (s : Stage) (rest : List Frame) :
    loop rest.length (trace fuel ⟨s, rest⟩) = [] := by
  cases fuel with
  | zero => rfl
  | succ fuel =>
      unfold trace
      split
      · rfl
      · exact loop_cons_of_le (m := ⟨s, rest⟩) (Nat.le_refl _) _

theorem replays_loop_over (hover : s.Settled) (fuel : Nat) (rest : List Frame) :
    replays (loop rest.length (trace (fuel + 1) ⟨s, .replay :: rest⟩)) = [] := by
  have hstep := step_drained hover rest
  have hnone := events_filterMap hstep (.of_journal_eq (f := Event.replayed?) rfl)
  have hat : (Frame.replay :: rest).length = rest.length + 1 := rfl
  simp only [trace, hstep]
  rw [loop_cons_of_eq hat, replays_cons, hnone, loop_trace_below]
  rfl

theorem replays_loop_round (hplay : s.status = .playing) (hpending : s.pending = d :: ds)
    (fuel : Nat) (rest : List Frame) :
    replays (loop rest.length (trace (fuel + 1) ⟨s, .replay :: rest⟩)) =
      d.call.ticket :: replays (loop rest.length (trace fuel
        ⟨((s.dequeue d ds).launch d).1, ((s.dequeue d ds).launch d).2 ++ .replay :: rest⟩)) := by
  have hstep := step_replay hplay hpending rest
  rw [List.append_assoc] at hstep
  have hone := events_filterMap hstep (replay_queue hplay hpending).1.2
  have hat : (Frame.replay :: rest).length = rest.length + 1 := rfl
  simp only [trace, hstep]
  rw [loop_cons_of_eq hat, replays_cons, hone]
  rfl

/-- The calls that a replay still takes itself are the first of `q`, if `q` is what waits, or
nothing, whenever no other replay comes first. -/
theorem replays_loop_isPrefix (fuel : Nat)
    (h : draining gs = true ∨ t.WhilePlaying fun p => p = q ∨ p = []) :
    replays (loop rest.length (trace fuel ⟨t, gs ++ .replay :: rest⟩)) <+:
      q.map fun d => d.call.ticket := by
  induction fuel generalizing gs t q with
  | zero => exact List.nil_prefix
  | succ fuel ih =>
      cases gs with
      | cons f gs =>
          -- The call of this round has not come back yet.
          obtain ⟨t₁, hs, hstep⟩ := step_cons f t
          rw [loop_trace_above hstep]
          exact ih (step_whilePlaying (hstep gs) (.inr rfl) h)
      | nil =>
          have hqueue := h.resolve_left Bool.false_ne_true
          rw [List.nil_append]
          rcases settled_or_waits t with hover | ⟨d, ds, hplay, hpending⟩
          · rw [replays_loop_over hover]
            exact List.nil_prefix
          · obtain rfl : q = d :: ds := by
              rcases hqueue hplay with heq | hnil
              · exact heq.symm.trans hpending
              · simp [hpending] at hnil
            have hleft : ((t.dequeue d ds).launch d).1.WhilePlaying fun p => p = ds ∨ p = [] :=
              fun _ => .inl (dequeue_launch_pending d ds t)
            rw [replays_loop_round hplay hpending]
            exact (List.prefix_cons_inj _).2 (ih (.inr hleft))

/-- A replay takes the first of the calls that it finds, in their order. -/
theorem taken_isPrefix (rest : List Frame) (s : Stage) (steps : Nat) :
    taken rest s steps <+: s.ticketsAt .pending := by
  have hstart : draining [] = true ∨ s.WhilePlaying fun p => p = s.pending ∨ p = [] :=
    .inr fun _ => .inl rfl
  exact replays_loop_isPrefix steps hstart

/-! ## Where a replay ends -/

theorem replay_over (hover : s.Settled) (rest : List Frame) :
    Leads rest s [.replay] s [] := by
  have hstep : (⟨s, .replay :: [] ++ rest⟩ : Machine).step = some ⟨s, [] ++ rest⟩ :=
    step_drained hover rest
  exact .step hstep (.refl s [])

/-- A round of a replay whose calls come back. -/
theorem replay_round (hreturn : StartsReturn rest s) (h : Leads rest s [.replay] t [.replay])
    (hplay : t.status = .playing) (hpending : t.pending = d :: ds) :
    ∃ u, Leads rest t [.replay] u [.replay] ∧
      (u.status = .playing → u.pending = ds ∨ u.pending = []) := by
  have hstep := step_replay hplay hpending rest
  have hleft := dequeue_launch_pending d ds t
  rw [launch_frames] at hstep
  generalize ((t.dequeue d ds).launch d).1 = c at hstep hleft
  by_cases hdelay : d.delay = 0
  · rw [if_pos hdelay] at hstep
    obtain ⟨u, hcall⟩ := hreturn t d.call.body c h hstep
    refine ⟨u, .step hstep (hcall.ends.leads [.replay] rest), ?_⟩
    rw [← hleft]
    exact hcall.queue
  · rw [if_neg hdelay] at hstep
    exact ⟨c, .step hstep (.refl c [.replay]), fun _ => .inl hleft⟩

/-- A replay whose calls come back is over after some rounds. The induction is on what waits. -/
theorem replay_returns (hreturn : StartsReturn rest s) (h : Leads rest s [.replay] t [.replay]) :
    ∃ s', Leads rest t [.replay] s' [] := by
  induction hn : t.pending.length using Nat.strongRecOn generalizing t with
  | _ n ih =>
      rcases settled_or_waits t with hover | ⟨d, ds, hplay, hpending⟩
      · exact ⟨t, replay_over hover rest⟩
      · obtain ⟨u, hround, hleft⟩ := replay_round hreturn h hplay hpending
        by_cases hplay' : u.status = .playing
        · have hless : u.pending.length < n := by
            rw [← hn, hpending]
            rcases hleft hplay' with heq | hnil
            · simp [heq]
            · simp [hnil]
          obtain ⟨s', hs'⟩ := ih _ hless (h.trans hround) rfl
          exact ⟨s', hround.trans hs'⟩
        · exact ⟨u, hround.trans (replay_over (settled_of_not_playing hplay') rest)⟩

/-- The calls of a replay that comes to an end come back. -/
theorem startsReturn_of_leads (h : Leads rest s [.replay] s' []) : StartsReturn rest s := by
  intro t body c hloop hstep
  have hstart : (⟨t, .replay :: [] ++ rest⟩ : Machine).step =
      some ⟨c, [.run body, .replay] ++ rest⟩ := hstep
  have hround : Leads rest s [.replay] c ([.run body] ++ [.replay]) :=
    hloop.trans (.step hstart (.refl c _))
  obtain ⟨u, hcall, _⟩ := ends_append_iff.1 (hround.ends_of_ends h.ends)
  exact ⟨u, hcall.leads [] (.replay :: rest)⟩

/-- **A replay takes at most as many calls as it finds**, on whatever stage and above whatever
frames. A call that it starts and that comes back while the session plays leaves the queue as it was
when the call started, or empty. So the calls that the replay takes from the queue itself, however
far it has come, are the first of those that it has found, and no more than these. If the calls that
it starts come back, and only then, the replay comes to an end, and then nothing waits or the
session does not play. -/
theorem replay_rounds (rest : List Frame) (s : Stage) :
    (∀ t body c u, Leads rest s [.replay] t [.replay] →
      (⟨t, .replay :: rest⟩ : Machine).step = some ⟨c, .run body :: .replay :: rest⟩ →
        Leads (.replay :: rest) c [.run body] u [] → u.status = .playing →
          u.pending = c.pending ∨ u.pending = []) ∧
    (∀ steps, taken rest s steps <+: s.ticketsAt .pending ∧
      (taken rest s steps).length ≤ s.pending.length) ∧
    (StartsReturn rest s ↔ ∃ s', Leads rest s [.replay] s' []) ∧
    ∀ s', Leads rest s [.replay] s' [] → s'.pending = [] ∨ s'.status ≠ .playing := by
  refine ⟨?_, ?_, ⟨?_, ?_⟩, ?_⟩
  · intro t body c u _ _ hcall hplay
    exact hcall.queue hplay
  · intro steps
    have hlength := (taken_isPrefix rest s steps).length_le
    simp only [ticketsAt, List.length_map] at hlength
    exact ⟨taken_isPrefix rest s steps, hlength⟩
  · intro hreturn
    exact replay_returns hreturn (.refl s [.replay])
  · rintro ⟨s', h⟩
    exact startsReturn_of_leads h
  · intro s' h
    have hsettled : s'.Settled := (h.settled (.inl rfl)).resolve_left Bool.false_ne_true
    by_cases hplay : s'.status = .playing
    · exact .inl (hsettled hplay)
    · exact .inr hplay

end Walkthrough.Machine

namespace Walkthrough

/-! ## An example -/

/-- A host that defers three calls and goes on: one that leaves the session alone, one that pauses
it, and one with a delay. -/
def encore : Routine :=
  .perform (.loadDocument ⟨"let a = 1;", [⟨"step", .text "0", none⟩]⟩) fun _ =>
    .perform (.command .play) fun _ => .perform (.command .pause) fun _ =>
      .request "plain" 0 (.perform .advance fun _ => .done)
        (.request "early" 0 interruption
          (.request "next" 5 .done (.perform (.command .play) fun _ => .done)))

/-- The encore after some steps. -/
def encored (steps : Nat) : Machine := Machine.run steps ⟨.plain, [.run encore]⟩

namespace Machine

/-- The replay of the encore finds three calls. It takes the first one, which leaves the other two
in the queue, and then the second one, which defers a fourth call and goes on: a replay of its own
takes what is left, and the queue that it found with one call is empty when it comes back. -/
theorem encore_rounds :
    ((encored 10).stage.ticketsAt .pending = [0, 1, 2] ∧
      taken [.answer .nothing fun _ => .done] (encored 10).stage 20 = [0, 1] ∧
      (taken [.answer .nothing fun _ => .done] (encored 10).stage 20).length ≤ 3) ∧
    ((encored 11).stage.ticketsAt .pending = [1, 2] ∧
      ((encored 14).stage.pending = (encored 11).stage.pending ∨
        (encored 14).stage.pending = []) ∧ (encored 14).stage.ticketsAt .pending = [1, 2]) ∧
    ((encored 15).stage.ticketsAt .pending = [2] ∧
      ((encored 25).stage.pending = (encored 15).stage.pending ∨
        (encored 25).stage.pending = []) ∧ (encored 25).stage.ticketsAt .pending = []) ∧
    StartsReturn [.answer .nothing fun _ => .done] (encored 10).stage ∧
    ((encored 26).stage.pending = [] ∨ (encored 26).stage.status ≠ .playing) := by
  obtain ⟨hleaves, htaken, hreturns, hend⟩ :=
    replay_rounds [.answer .nothing fun _ => .done] (encored 10).stage
  have hsecond := (Leads.exec 4 ⟨(encored 10).stage, [.replay]⟩).above
    [.answer .nothing fun _ => .done]
  have hover := (Leads.exec 16 ⟨(encored 10).stage, [.replay]⟩).above
    [.answer .nothing fun _ => .done]
  have hplain :=
    (Leads.exec 3 ⟨(encored 11).stage, [.run (.perform .advance fun _ => .done)]⟩).above
      [.replay, .answer .nothing fun _ => .done]
  have hearly := (Leads.exec 10 ⟨(encored 15).stage, [.run interruption]⟩).above
    [.replay, .answer .nothing fun _ => .done]
  refine ⟨⟨rfl, rfl, (htaken 20).2⟩, ⟨rfl, ?_, rfl⟩, ⟨rfl, ?_, rfl⟩, ?_, ?_⟩
  · exact hleaves _ _ _ _ (.refl _ _) rfl hplain rfl
  · exact hleaves _ _ _ _ hsecond rfl hearly rfl
  · exact hreturns.2 ⟨_, hover⟩
  · exact hend _ hover

end Machine

end Walkthrough
