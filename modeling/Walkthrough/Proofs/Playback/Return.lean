import Walkthrough.Proofs.Playback.Run

/-!
# Activities that come to an end

What is done above some frames does not depend on them, and leaves them as they are. So an activity
that comes to an end can be taken as a whole: it leads from one stage to another, and of two
activities the second begins where the first has ended.

* `Machine.Ends` — frames that come to an end, and the stage that they leave.
* `Ends.leads`, `Leads.ends`, `Ends.run` — machines lead frames to their end, above any others in
  the same way, and with enough fuel.
* `ends_append_iff`, `Ends.unique` — frames end one after the other, and leave one stage.
* `step_replay`, `step_drained` — what a replay does in one step.
* `Stage.Returns` — an operation comes back with its reply; `Returns.unique`: with one reply, on one
  stage; `Returns.operate`: which is what it gives to a host.
-/

set_option autoImplicit false

namespace Walkthrough

namespace Machine

variable {f : Frame} {fs gs rest : List Frame} {s s₁ s' t t' : Stage}

/-- A frame steps, above any frames in the same way. -/
theorem step_cons (f : Frame) (s : Stage) :
    ∃ s₁ gs, ∀ rest, (⟨s, f :: rest⟩ : Machine).step = some ⟨s₁, gs ++ rest⟩ := by
  obtain ⟨m', hm⟩ : ∃ m', (⟨s, [f]⟩ : Machine).step = some m' := by
    cases f <;> exact ⟨_, rfl⟩
  exact ⟨m'.stage, m'.frames, fun rest => step_append hm rest⟩

/-- The frames `fs` on the stage `s` come to an end and leave the stage `s'`. -/
inductive Ends : List Frame → Stage → Stage → Prop where
  | nil (s : Stage) : Ends [] s s
  | cons {f : Frame} {fs gs : List Frame} {s s₁ s' : Stage} :
      (∀ rest, (⟨s, f :: rest⟩ : Machine).step = some ⟨s₁, gs ++ rest⟩) → Ends (gs ++ fs) s₁ s' →
      Ends (f :: fs) s s'

theorem step_unique (h : ∀ rest, (⟨s, f :: rest⟩ : Machine).step = some ⟨s₁, gs ++ rest⟩)
    {m' : Machine} (h' : (⟨s, f :: rest⟩ : Machine).step = some m') : m' = ⟨s₁, gs ++ rest⟩ := by
  rw [h rest] at h'
  exact (Option.some.inj h').symm

/-- What takes the place of a frame stands before the others, whatever lies below. -/
theorem step_above (h : (⟨s, f :: fs ++ rest⟩ : Machine).step = some ⟨s₁, gs ++ rest⟩) :
    ∃ hs, gs = hs ++ fs ∧ ∀ rest, (⟨s, f :: rest⟩ : Machine).step = some ⟨s₁, hs ++ rest⟩ := by
  obtain ⟨t, hs, hstep⟩ := step_cons f s
  obtain ⟨rfl, hgs⟩ := Machine.mk.inj (step_unique hstep h)
  refine ⟨hs, List.append_cancel_right (hgs.trans ?_), hstep⟩
  exact (List.append_assoc hs fs rest).symm

/-- While the session plays, a replay takes the first call from the queue. -/
theorem step_replay {d : Deferred Call} {ds : List (Deferred Call)} (hs : s.status = .playing)
    (hpending : s.pending = d :: ds) (rest : List Frame) :
    (⟨s, .replay :: rest⟩ : Machine).step =
      some ⟨((s.dequeue d ds).launch d).1, ((s.dequeue d ds).launch d).2 ++ [.replay] ++ rest⟩ := by
  obtain ⟨r, hr, hplay⟩ := stepReplay_play s rest
  cases hplay with
  | replayed _ hqueue =>
      cases hpending.symm.trans hqueue
      simp only [step, hr, follow]
  | drained hempty =>
      rw [hempty hs] at hpending
      cases hpending

/-- Where no call waits, or the session does not play, a replay is over. -/
theorem step_drained (h : s.status = .playing → s.pending = []) (rest : List Frame) :
    (⟨s, .replay :: rest⟩ : Machine).step = some ⟨s, rest⟩ := by
  obtain ⟨r, hr, hplay⟩ := stepReplay_play s rest
  cases hplay with
  | replayed hs hqueue =>
      rw [h hs] at hqueue
      cases hqueue
  | drained _ => exact congrArg some hr

/-- What becomes of a frame comes to an end as the frame does. -/
theorem Ends.of_cons (hstep : ∀ rest, (⟨s, f :: rest⟩ : Machine).step = some ⟨s₁, gs ++ rest⟩)
    (h : Ends (f :: fs) s s') : Ends (gs ++ fs) s₁ s' := by
  cases h with
  | @cons _ _ gs' _ s₁' _ hstep' h =>
      have heq := step_unique hstep (hstep' [])
      simp only [List.append_nil, Machine.mk.injEq] at heq
      obtain ⟨rfl, rfl⟩ := heq
      exact h

/-- Frames that come to an end leave one stage. -/
theorem Ends.unique (h : Ends fs s t) (h' : Ends fs s t') : t = t' := by
  induction h with
  | nil s =>
      cases h'
      rfl
  | cons hstep _ ih => exact ih (h'.of_cons hstep)

theorem Ends.append (h : Ends fs s t) (h' : Ends gs t s') : Ends (fs ++ gs) s s' := by
  induction h with
  | nil s => exact h'
  | @cons f fs hs s s₁ t hstep _ ih =>
      have hrest := ih h'
      rw [List.append_assoc] at hrest
      exact .cons hstep hrest

/-- Frames come to an end one after the other. -/
theorem ends_append_iff : Ends (fs ++ gs) s s' ↔ ∃ t, Ends fs s t ∧ Ends gs t s' := by
  constructor
  · intro h
    generalize hx : fs ++ gs = xs at h
    induction h generalizing fs with
    | nil s =>
        obtain ⟨rfl, rfl⟩ := List.append_eq_nil_iff.1 hx
        exact ⟨s, .nil s, .nil s⟩
    | @cons f xs hs s s₁ s' hstep h ih =>
        cases fs with
        | nil =>
            rw [List.nil_append] at hx
            subst hx
            exact ⟨s, .nil s, .cons hstep h⟩
        | cons g fs =>
            obtain ⟨rfl, rfl⟩ := List.cons.inj hx
            obtain ⟨t, hfs, hgs⟩ := ih (List.append_assoc hs fs gs)
            exact ⟨t, .cons hstep hfs, hgs⟩
  · rintro ⟨t, h, h'⟩
    exact h.append h'

/-! ## What a machine does -/

theorem Leads.trans {fs' : List Frame} (h : Leads rest s fs t gs) (h' : Leads rest t gs s' fs') :
    Leads rest s fs s' fs' := by
  induction h with
  | refl s fs => exact h'
  | step hm _ ih => exact .step hm (ih h')

/-- A step, whatever lies below, and what it leads to. -/
theorem Leads.cons {fs' : List Frame}
    (hstep : ∀ rest, (⟨s, f :: rest⟩ : Machine).step = some ⟨s₁, gs ++ rest⟩)
    (h : Leads rest s₁ (gs ++ fs) s' fs') : Leads rest s (f :: fs) s' fs' := by
  have hm := hstep (fs ++ rest)
  rw [← List.append_assoc] at hm
  exact .step hm h

/-- A machine leads frames that come to an end to it, and then stands before what lies below. -/
theorem Ends.leads (h : Ends fs s s') (gs rest : List Frame) :
    Leads rest s (fs ++ gs) s' gs := by
  induction h with
  | nil s => exact .refl s gs
  | @cons f fs hs s s₁ s' hstep _ ih =>
      rw [List.append_assoc] at ih
      exact .cons hstep ih

theorem Leads.ends (h : Leads rest s fs s' []) : Ends fs s s' := by
  generalize hx : ([] : List Frame) = fs' at h
  induction h with
  | refl s fs =>
      subst hx
      exact .nil s
  | step hm _ ih =>
      obtain ⟨hs, rfl, hstep⟩ := step_above hm
      exact .cons hstep (ih hx)

/-- Where frames come to an end, so does all that they lead to. -/
theorem Leads.ends_of_ends (h : Leads rest s fs t gs) (hend : Ends fs s s') : Ends gs t s' := by
  induction h with
  | refl s fs => exact hend
  | step hm _ ih =>
      obtain ⟨hs, rfl, hstep⟩ := step_above hm
      exact ih (hend.of_cons hstep)

theorem run_nil (fuel : Nat) (s : Stage) : run fuel ⟨s, []⟩ = ⟨s, []⟩ := by
  cases fuel <;> rfl

/-- Frames that come to an end do so with enough fuel. -/
theorem Ends.run (h : Ends fs s s') :
    ∃ fuel, ∀ more, Machine.run (fuel + more) ⟨s, fs⟩ = ⟨s', []⟩ := by
  induction h with
  | nil s => exact ⟨0, fun more => run_nil _ s⟩
  | @cons f fs gs s s₁ s' hstep _ ih =>
      obtain ⟨fuel, hrun⟩ := ih
      refine ⟨fuel + 1, fun more => ?_⟩
      rw [Nat.add_right_comm, Machine.run, hstep fs]
      exact hrun more

end Machine

open Machine

/-! ## Operations that come back -/

namespace Stage

variable {op : Operation} {reply reply' : Reply} {s s' t : Stage}

/-- Performed on the stage `s`, an operation comes back with a reply on the stage `s'`, whatever it
is performed above and whoever waits for the reply. -/
def Returns (op : Operation) (s : Stage) (reply : Reply) (s' : Stage) : Prop :=
  ∀ rest next, Leads rest s [.run (.perform op next)] s' [.answer reply next]

theorem record_inj {e e' : Event} (h : s.record e = t.record e') : e = e' ∧ s = t := by
  cases s
  cases t
  simp only [record, Stage.mk.injEq, List.cons.injEq] at h ⊢
  obtain ⟨hplayer, hsurface, hclock, htooltip, hroutines, htickets, hevent, hjournal⟩ := h
  exact ⟨hevent, hplayer, hsurface, hclock, htooltip, hroutines, htickets, hjournal⟩

/-- A reply that nobody waits for is written down. -/
theorem answer_ends (reply : Reply) (s : Stage) :
    Ends [.answer reply fun _ => .done] s (s.record (.replied reply)) := by
  have hanswer (rest : List Frame) :
      (⟨s, .answer reply (fun _ => .done) :: rest⟩ : Machine).step =
        some ⟨s.record (.replied reply), [.run .done] ++ rest⟩ := rfl
  have hdone (rest : List Frame) :
      (⟨s.record (.replied reply), .run .done :: rest⟩ : Machine).step =
        some ⟨s.record (.replied reply), [] ++ rest⟩ := rfl
  exact .cons hanswer (.cons hdone (.nil _))

theorem Returns.ends (h : s.Returns op reply s') :
    Ends [.run (.perform op fun _ => .done)] s (s'.record (.replied reply)) := by
  have hanswer := (answer_ends reply s').leads [] []
  exact ((h [] _).trans hanswer).ends

/-- An operation comes back with one reply, on one stage. -/
theorem Returns.unique (h : s.Returns op reply s') (h' : s.Returns op reply' t) :
    reply = reply' ∧ s' = t := by
  obtain ⟨hreply, hstage⟩ := record_inj (h.ends.unique h'.ends)
  cases hreply
  exact ⟨rfl, hstage⟩

/-- A host that performs an operation by itself gets its reply and its stage. -/
theorem Returns.operate (h : s.Returns op reply s') :
    ∃ fuel, ∀ more, s.operate (fuel + more) op = (reply, s') := by
  obtain ⟨fuel, hrun⟩ := h.ends.run
  refine ⟨fuel, fun more => ?_⟩
  simp only [Stage.operate, enact, hrun more]
  rfl

end Stage

end Walkthrough
