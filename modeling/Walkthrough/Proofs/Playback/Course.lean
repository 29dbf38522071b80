import Walkthrough.Proofs.Playback.History
import Walkthrough.Proofs.Playback.Return

/-!
# Activities of a kind

Some things hold of an activity only where all its steps are of a certain kind, such as those that
issue no command.

* `Machine.LeadsBy` — steps of a kind, whatever lies below.
* `LeadsBy.ends` — an activity of a kind that leaves nothing to do has come to an end.
* `LeadsBy.exec`, `LeadsBy.of_trace` — what a machine itself does, with any fuel, as an activity of
  a kind.
* `Leads.mem_trace` — all that an activity leads to before its end is in its trace.
-/

set_option autoImplicit false

namespace Walkthrough.Machine

/-- The frames `fs` on the stage `s` lead to the frames `fs'` on the stage `s'`, by steps on stages
and of frames that are as `P` says. -/
inductive LeadsBy (P : Stage → Frame → Prop) : Stage → List Frame → Stage → List Frame → Prop where
  | refl (s : Stage) (fs : List Frame) : LeadsBy P s fs s fs
  | step {f : Frame} {fs gs fs' : List Frame} {s s₁ s' : Stage} :
      P s f → (∀ rest, (⟨s, f :: rest⟩ : Machine).step = some ⟨s₁, gs ++ rest⟩) →
      LeadsBy P s₁ (gs ++ fs) s' fs' → LeadsBy P s (f :: fs) s' fs'

variable {P : Stage → Frame → Prop} {s s' : Stage} {fs : List Frame}

theorem LeadsBy.ends (h : LeadsBy P s fs s' []) : Ends fs s s' := by
  generalize hx : ([] : List Frame) = fs' at h
  induction h with
  | refl s fs =>
      subst hx
      exact .nil s
  | step _ hstep _ ih => exact .cons hstep (ih hx)

/-- A machine is run by steps of a kind if all machines that step are of this kind. -/
theorem LeadsBy.exec (fuel : Nat) {m : Machine}
    (h : ∀ x ∈ trace fuel m, ∀ f ∈ x.frames.head?, P x.stage f) :
    LeadsBy P m.stage m.frames (m.run fuel).stage (m.run fuel).frames := by
  induction fuel generalizing m with
  | zero => exact .refl _ _
  | succ fuel ih =>
      obtain ⟨s, frames⟩ := m
      cases frames with
      | nil => exact .refl _ _
      | cons f fs =>
          obtain ⟨s₁, gs, hstep⟩ := step_cons f s
          simp only [trace, hstep fs, List.forall_mem_cons] at h
          simp only [run, hstep fs]
          exact .step (h.1 f rfl) hstep (ih h.2)

/-- The same where the kind of a frame can be decided, and nothing is left to do. -/
theorem LeadsBy.of_trace (fuel : Nat) {m : Machine} {p : Stage → Frame → Bool}
    (hp : ∀ s f, p s f = true → P s f) (hend : (m.run fuel).frames = [])
    (h : (trace fuel m).all (fun x => x.frames.head?.all (p x.stage)) = true) :
    LeadsBy P m.stage m.frames (m.run fuel).stage [] := by
  have hexec : LeadsBy P m.stage m.frames (m.run fuel).stage (m.run fuel).frames := by
    refine LeadsBy.exec fuel fun x hx f hf => hp x.stage f ?_
    have hx := List.all_eq_true.1 h x hx
    rwa [hf] at hx
  rw [hend] at hexec
  exact hexec

/-- What is led to and has something left to do is in every trace that goes to the end. -/
theorem Leads.mem_trace {f : Frame} {gs : List Frame} {t : Stage} (h : Leads [] s fs t (f :: gs))
    {fuel : Nat} (hend : (run fuel ⟨s, fs⟩).frames = []) : ⟨t, f :: gs⟩ ∈ trace fuel ⟨s, fs⟩ := by
  generalize hx : f :: gs = fs' at h
  induction h generalizing fuel with
  | refl s fs =>
      subst hx
      cases fuel with
      | zero => cases hend
      | succ fuel =>
          obtain ⟨s₁, gs₁, hstep⟩ := step_cons f s
          simp only [trace, hstep gs]
          exact List.mem_cons_self
  | @step g fs gs₁ fs' s s₁ t hstep _ ih =>
      cases fuel with
      | zero => cases hend
      | succ fuel =>
          rw [List.append_nil, List.append_nil] at hstep
          simp only [run, hstep] at hend
          simp only [trace, hstep]
          exact List.mem_cons_of_mem _ (ih hend hx)

end Walkthrough.Machine
