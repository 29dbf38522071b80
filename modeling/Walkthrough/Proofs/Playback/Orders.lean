import Walkthrough.Proofs.Playback.Run
import Walkthrough.Proofs.Playback.Session

/-!
# The status follows the commands

A command reads the status, carries out the effect of its transition and writes the new status down;
only then do the calls that it replays perform commands of their own. However deeply commands are
nested, the status is what the transitions make of them one after the other.

* `Machine.order?` — the command that a machine issues in its next step, with whether there are
  actions then.
* `Machine.statuses` — the statuses in which machines are left by the commands that they issue.
* `Turn.status` — a turn changes the status by its command, if it issues one, and writes this
  command down.
* `status_eq_foldl` — the statuses of a run are those of its commands in the order in which they
  were issued.
-/

set_option autoImplicit false

namespace Walkthrough

/-- The status after a command, over a document with or without actions. -/
def Status.after (status : Status) (o : Command × Bool) :
    Status := (Transition.of status o.1 o.2).status

/-- The command that a frame issues, with whether there are actions. -/
def Frame.orderWith? (s : Stage) (f : Frame) :
    Option (Command × Bool) := (f.order? s).map (·, s.hasActions)

/-- A turn issues the command of its frame, and writes it down. -/
theorem Turn.status {f : Frame} {s s' : Stage} {fs : List Frame} (h : Turn f s s' fs) :
    s'.status = (f.orderWith? s).toList.foldl Status.after s.status ∧
      s'.issued = (f.orderWith? s).toList ++ s.issued := by
  cases h with
  | aside ha ho _ _ =>
      rw [Frame.orderWith?, ho]
      exact ⟨ha.sameSession.status, ha.sameSession.issued⟩
  | commanded ho ha hd =>
      rw [Frame.orderWith?, Frame.order?, ho, ← hd]
      constructor
      · rw [Stage.command_status, ha.sameSession.status]
        rfl
      · rw [Stage.command_issued, ha.sameSession.issued]
        rfl
  | requested label delay body next =>
      obtain ⟨hs, _, hi⟩ := Stage.request_session label delay body s
      exact ⟨hs, hi⟩
  | replayed _ _ =>
      obtain ⟨hs, _, _, hi⟩ := Stage.launch_session _ (s.dequeue _ _)
      exact ⟨hs, hi⟩
  | drained _ => exact ⟨rfl, rfl⟩
  | fired _ ha hl ho _ =>
      rw [Frame.orderWith?, ho, Stage.fire_eq hl]
      exact ⟨ha.sameSession.status, ha.sameSession.issued⟩

namespace Machine

/-- The command that a machine issues in its next step, with whether there are actions. -/
def order? (m : Machine) : Option (Command × Bool) := m.frames.head?.bind (·.orderWith? m.stage)

/-- The statuses after the commands that machines issue, each read off the machine that comes next.
-/
def statuses : List Machine → List Status
  | m :: m' :: ms => (m.order?.map fun _ => m'.stage.status).toList ++ statuses (m' :: ms)
  | _ => []

theorem statuses_concat (m m' : Machine) :
    ∀ ms, statuses (ms ++ [m, m']) =
      statuses (ms ++ [m]) ++ (m.order?.map fun _ => m'.stage.status).toList
  | [] => by simp [statuses]
  | [m₁] => by simp [statuses]
  | m₁ :: m₂ :: ms => by
      have ih := statuses_concat m m' (m₂ :: ms)
      simp only [List.cons_append, statuses, List.append_assoc] at ih ⊢
      rw [ih]

/-- Of the last machine only the status counts. -/
theorem statuses_last {m m' : Machine} (h : m'.stage.status = m.stage.status) :
    ∀ ms, statuses (ms ++ [m']) = statuses (ms ++ [m])
  | [] => rfl
  | [m₁] => by simp only [List.cons_append, List.nil_append, statuses, h]
  | m₁ :: m₂ :: ms => by
      have ih := statuses_last h (m₂ :: ms)
      simp only [List.cons_append, statuses] at ih ⊢
      rw [ih]

theorem step_status {m m' : Machine} (h : m.step = some m') :
    m'.stage.status = m.order?.toList.foldl Status.after m.stage.status ∧
      m'.stage.issued = m.order?.toList ++ m.stage.issued := by
  obtain ⟨f, rest, fs, hf, _, ht⟩ := step_turn h
  have ho : m.order? = f.orderWith? m.stage := by rw [order?, hf]; rfl
  rw [ho]
  exact ht.status

/-- **The status follows the commands.** At every moment of a run — in the host, in a call at
whatever depth, in a notification — the status is what the commands issued so far make of the idle
one, in the order in which they were issued. So the statuses that nested commands leave behind, one
after the other, are those of the same commands in a row. -/
theorem status_eq_foldl {past : List Machine} {m : Machine} (h : Run past m) :
    m.stage.status = (past.filterMap order?).foldl Status.after .idle ∧
      m.stage.issued.reverse = past.filterMap order? ∧
      statuses (past ++ [m]) = ((past.filterMap order?).scanl Status.after .idle).tail := by
  induction h with
  | new h =>
      cases Stage.eq_of_new h
      exact ⟨rfl, rfl, by simp [statuses]⟩
  | host r _ ih => exact ⟨ih.1, ih.2.1, (statuses_last (by rfl) _).trans ih.2.2⟩
  | user text _ ih => exact ⟨ih.1, ih.2.1, (statuses_last (by rfl) _).trans ih.2.2⟩
  | @step past m m' _ hm ih =>
      obtain ⟨hstatus, hissued, hstatuses⟩ := ih
      obtain ⟨hs, hi⟩ := step_status hm
      have horders : (past ++ [m]).filterMap order? = past.filterMap order? ++ m.order?.toList := by
        rw [List.filterMap_append, List.filterMap_cons]
        cases m.order? <;> rfl
      rw [horders]
      refine ⟨?_, ?_, ?_⟩
      · rw [List.foldl_append, ← hstatus, hs]
      · rw [hi, List.reverse_append, hissued]
        cases m.order? <;> rfl
      · rw [List.append_assoc, List.singleton_append, statuses_concat, hstatuses, List.scanl_append,
          ← hstatus, hs, List.tail_append_of_ne_nil List.scanl_ne_nil]
        cases m.order? <;> rfl

/-- The commands of the rehearsal; the fourth and the fifth are those of the call that the third one
replays. -/
theorem rehearsal_status :
    ∃ past, Run past (rehearsed 23) ∧
      past.filterMap order? =
        [(.play, true), (.pause, true), (.play, true), (.pause, true), (.play, true)] ∧
      (rehearsed 23).stage.status = .playing ∧
      statuses (past ++ [rehearsed 23]) = [.playing, .paused, .playing, .paused, .playing] := by
  obtain ⟨past, hr⟩ := rehearsed_run 23
  obtain ⟨hstatus, hissued, hstatuses⟩ := status_eq_foldl hr
  have horders : past.filterMap order? =
      [(.play, true), (.pause, true), (.play, true), (.pause, true), (.play, true)] :=
    hissued.symm.trans rfl
  rw [horders] at hstatus hstatuses
  exact ⟨past, hr, horders, hstatus, hstatuses⟩

end Machine

end Walkthrough
