import Mathlib.Data.List.Basic
import Walkthrough.Proofs.Playback.Run
import Walkthrough.Proofs.Playback.Session

/-!
# What happens in a run

Each step of a machine adds to the journal. What a stretch of a run has added to it is the history
of the machines that stepped meanwhile.

* `Stage.Writes` — one stage has the journal of another with further events of a certain kind;
  `Aside.writes`, `command_writes`, `launch_writes`: the kinds of events that operations write down.
* `Stage.Notes` — the same, with what a partial function makes of the further events.
* `Machine.events`, `Machine.happened` — what happens in a step and in a stretch of a run.
* `RunFrom.of_prefix`, `RunFrom.at`, `Run.at` — every machine of a run has been reached by a run.
* `Run.since_induction` — what a step begins and later steps keep holds from then on.
* `RunFrom.trace`, `Run.trace` — the machine's own steps as a run with its history.
-/

set_option autoImplicit false

namespace Walkthrough

/-! ## Kinds of events -/

namespace Event

/-- The events beside the session. -/
def isAside : Event → Bool
  | .flagged _ | .surface _ | .notified _ | .scheduled .. | .elapsed .. | .replied _ => true
  | _ => false

/-- The events of a command. -/
def ofCommand : Event → Bool
  | .issued .. | .surface _ | .dropped _ => true
  | _ => false

/-- The events of a launched call. -/
def ofLaunch : Event → Bool
  | .started .. | .dropped _ | .launched .. | .scheduled .. => true
  | _ => false

end Event

namespace Stage

/-- From `s` to `s'` only events of the kind `p` were written down. -/
def Writes (p : Event → Bool) (s s' : Stage) : Prop :=
  ∃ es : List Event, es.all p = true ∧ s'.journal = es.reverse ++ s.journal

theorem Writes.of_journal_eq {p : Event → Bool} {s s' : Stage} (h : s'.journal = s.journal) :
    Writes p s s' := ⟨[], rfl, h⟩

theorem Writes.record {p : Event → Bool} {e : Event} (h : p e = true) (s : Stage) :
    Writes p s (s.record e) := ⟨[e], by simp [h], rfl⟩

theorem Writes.trans {p : Event → Bool} {s t u : Stage} (h : Writes p s t) (h' : Writes p t u) :
    Writes p s u := by
  obtain ⟨es, hes, hjournal⟩ := h
  obtain ⟨es', hes', hjournal'⟩ := h'
  refine ⟨es ++ es', ?_, ?_⟩
  · rw [List.all_append, hes, hes']
    rfl
  · rw [hjournal', hjournal, List.reverse_append, List.append_assoc]

theorem Writes.mono {p q : Event → Bool} {s s' : Stage} (h : Writes p s s')
    (hpq : ∀ e, p e = true → q e = true) : Writes q s s' := by
  obtain ⟨es, hes, hjournal⟩ := h
  refine ⟨es, List.all_eq_true.2 ?_, hjournal⟩
  intro e he
  exact hpq e (List.all_eq_true.1 hes e he)

theorem Aside.writes {s s' : Stage} (h : s.Aside s') : Writes Event.isAside s s' := by
  induction h with
  | trans _ _ ih ih' => exact ih.trans ih'
  | loaded _ _ => exact ⟨[_], rfl, rfl⟩
  | scheduled _ _ _ => exact ⟨[_], rfl, rfl⟩
  | elapsed _ => exact ⟨[_], rfl, rfl⟩
  | flagged _ _ => exact ⟨[_], rfl, rfl⟩
  | notified _ _ => exact ⟨[_], rfl, rfl⟩
  | replied _ _ => exact ⟨[_], rfl, rfl⟩
  | _ => exact .of_journal_eq rfl

theorem dropPending_writes (s : Stage) : Writes Event.ofCommand s s.dropPending := by
  refine ⟨s.pending.map fun d => .dropped d.call.ticket, ?_, rfl⟩
  simp [Event.ofCommand]

theorem callSurface_writes (call : SurfaceCall) (s : Stage) :
    Writes Event.ofCommand s (s.callSurface call) := ⟨[.surface call], rfl, rfl⟩

theorem carryOut_writes (t : Transition) (s : Stage) :
    Writes Event.ofCommand s (s.carryOut t).1 := by
  unfold carryOut
  split
  · exact .of_journal_eq rfl
  · exact (dropPending_writes s).trans <| (callSurface_writes .revert _).trans <|
      (callSurface_writes (.setReadOnly true) _).trans <| (callSurface_writes .focus _).trans <|
      .of_journal_eq rfl
  · exact (callSurface_writes .focus s).trans (.of_journal_eq rfl)
  · exact (callSurface_writes (.setReadOnly false) s).trans <| (dropPending_writes _).trans <|
      .of_journal_eq rfl

theorem command_writes (c : Command) (s : Stage) : Writes Event.ofCommand s (s.command c).1 := by
  rw [command_eq]
  have hissued : Writes Event.ofCommand s (s.record (.issued c s.hasActions)) := .record rfl s
  exact hissued.trans (carryOut_writes _ _)

theorem launch_writes (d : Deferred Call) (s : Stage) : Writes Event.ofLaunch s (s.launch d).1 := by
  unfold launch
  split
  · exact .record rfl s
  · split
    · exact .record rfl s
    · exact ⟨[.launched _ _, .scheduled _ _ _ _], rfl, rfl⟩

/-- From `s` to `s'` events were written down of which `f` makes `xs`, the earliest first. -/
def Notes {α : Type} (f : Event → Option α) (s s' : Stage) (xs : List α) : Prop :=
  ∃ es : List Event, s'.journal = es.reverse ++ s.journal ∧ es.filterMap f = xs

section

variable {α : Type} {f : Event → Option α} {s t u : Stage} {xs ys : List α}

theorem Notes.of_journal_eq (h : t.journal = s.journal) : Notes f s t [] := ⟨[], h, rfl⟩

theorem Notes.record (f : Event → Option α) (e : Event) (s : Stage) :
    Notes f s (s.record e) (f e).toList := by
  refine ⟨[e], rfl, ?_⟩
  cases h : f e <;> simp [h]

theorem Notes.trans (h : Notes f s t xs) (h' : Notes f t u ys) : Notes f s u (xs ++ ys) := by
  obtain ⟨es, hjournal, rfl⟩ := h
  obtain ⟨es', hjournal', rfl⟩ := h'
  refine ⟨es ++ es', ?_, List.filterMap_append⟩
  rw [hjournal', hjournal, List.reverse_append, List.append_assoc]

/-- Of events of a kind that `f` does not know, it makes nothing. -/
theorem Writes.notes {p : Event → Bool} (h : Writes p s t) (hp : ∀ e, p e = true → f e = none) :
    Notes f s t [] := by
  obtain ⟨es, hes, hjournal⟩ := h
  have hes := List.all_eq_true.1 hes
  exact ⟨es, hjournal, List.filterMap_eq_nil_iff.2 fun e he => hp e (hes e he)⟩

end

/-- What was written down since is what happened since. -/
theorem since_eq {s s' : Stage} {es : List Event} (h : s'.journal = es.reverse ++ s.journal) :
    s'.since s = es := by
  have hlength : s'.journal.length - s.journal.length = es.reverse.length := by
    rw [h, List.length_append, Nat.add_sub_cancel]
  rw [since, hlength, h, List.take_left, List.reverse_reverse]

end Stage

namespace Machine

/-- What happens in the next step of a machine, the earliest first. -/
def events (m : Machine) : List Event :=
  match m.step with
  | none => []
  | some m' => m'.stage.since m.stage

/-- What happens in the next steps of machines, one after the other. -/
def happened (ms : List Machine) : List Event := ms.flatMap events

theorem events_eq {m m' : Machine} {es : List Event} (h : m.step = some m')
    (hjournal : m'.stage.journal = es.reverse ++ m.stage.journal) : m.events = es := by
  simp only [events, h]
  exact Stage.since_eq hjournal

/-- Where something happens there is a step. -/
theorem step_of_mem_events {m : Machine} {e : Event} (he : e ∈ m.events) :
    ∃ m', m.step = some m' := by
  cases hm : m.step with
  | none => simp [events, hm] at he
  | some m' => exact ⟨m', rfl⟩

theorem events_filterMap {α : Type} {f : Event → Option α} {m m' : Machine} {xs : List α}
    (h : m.step = some m') (hnotes : m.stage.Notes f m'.stage xs) : m.events.filterMap f = xs := by
  obtain ⟨es, hjournal, hes⟩ := hnotes
  rw [events_eq h hjournal]
  exact hes

theorem filterMap_concat {α : Type} (f : Machine → Option α) (ms : List Machine) (m : Machine) :
    (ms ++ [m]).filterMap f = ms.filterMap f ++ (f m).toList := by
  rw [List.filterMap_append, List.filterMap_cons]
  cases f m <;> rfl

theorem filterMap_happened_concat {α : Type} (f : Event → Option α) (ms : List Machine)
    (m : Machine) :
    (happened (ms ++ [m])).filterMap f = (happened ms).filterMap f ++ m.events.filterMap f := by
  simp [happened]

/-! ## The machines of a run -/

/-- A machine that has stepped was reached by what came before it. -/
theorem RunFrom.last {s₀ : Stage} {past : List Machine} {x m : Machine}
    (h : RunFrom s₀ (past ++ [x]) m) : RunFrom s₀ past x ∧ ∃ x', x.step = some x' := by
  generalize hp : past ++ [x] = ps at h
  induction h with
  | start => simp at hp
  | host r _ ih => exact ih hp
  | user text _ ih => exact ih hp
  | step hrun hm _ =>
      obtain ⟨rfl, rfl⟩ := List.append_singleton_inj.1 hp
      exact ⟨hrun, _, hm⟩

/-- Every beginning of a run is a run. -/
theorem RunFrom.of_prefix {s₀ : Stage} {past ps : List Machine} {m : Machine}
    (h : RunFrom s₀ past m) (hp : ps <+: past) : ∃ m', RunFrom s₀ ps m' := by
  induction h with
  | start =>
      rw [List.prefix_nil.1 hp]
      exact ⟨_, .start⟩
  | host r _ ih => exact ih hp
  | user text _ ih => exact ih hp
  | step hrun hm ih =>
      rcases List.prefix_concat_iff.1 hp with rfl | hp
      · exact ⟨_, hrun.step hm⟩
      · exact ih hp

theorem Run.of_prefix {past ps : List Machine} {m : Machine} (h : Run past m) (hp : ps <+: past) :
    ∃ m', Run ps m' := by
  obtain ⟨_, _, _, _, _, hnew, h⟩ := run_iff.1 h
  obtain ⟨m', hrun⟩ := h.of_prefix hp
  exact ⟨m', run_iff.2 ⟨_, _, _, _, _, hnew, hrun⟩⟩

/-- Every machine of a run has been reached by a run from the same stage. -/
theorem RunFrom.at {s₀ : Stage} {past xs ys : List Machine} {x m : Machine}
    (h : RunFrom s₀ past m) (hp : past = xs ++ x :: ys) :
    RunFrom s₀ xs x ∧ ∃ x', x.step = some x' := by
  have hprefix : xs ++ [x] <+: past := by
    rw [hp]
    exact ⟨ys, by simp⟩
  obtain ⟨m', hrun⟩ := h.of_prefix hprefix
  exact hrun.last

theorem Run.at {past xs ys : List Machine} {x m : Machine} (h : Run past m)
    (hp : past = xs ++ x :: ys) : Run xs x ∧ ∃ x', x.step = some x' := by
  obtain ⟨_, _, _, _, _, hnew, h⟩ := run_iff.1 h
  obtain ⟨hrun, hx⟩ := h.at hp
  exact ⟨run_iff.2 ⟨_, _, _, _, _, hnew, hrun⟩, hx⟩

/-- What the step of a machine `c` begins, and later steps keep, holds from then on; `inside` are
the machines that have stepped since. -/
theorem Run.since_induction {before : List Machine} {c : Machine}
    {P : List Machine → Machine → Prop}
    (first : ∀ m, Run before c → c.step = some m → P [] m)
    (host : ∀ inside s r, P inside ⟨s, []⟩ → P inside ⟨s, [.run r]⟩)
    (user : ∀ inside m text, P inside m → P inside { m with stage := m.stage.edit text })
    (step : ∀ inside m m', Run (before ++ c :: inside) m → P inside m → m.step = some m' →
      P (inside ++ [m]) m')
    {inside : List Machine} {m : Machine} (h : Run (before ++ c :: inside) m) : P inside m := by
  generalize hp : before ++ c :: inside = ps at h
  induction h generalizing inside with
  | new _ => simp at hp
  | host r _ ih => exact host _ _ r (ih hp)
  | user text _ ih => exact user _ _ text (ih hp)
  | @step past m m' hrun hm ih =>
      rcases List.eq_nil_or_concat' inside with rfl | ⟨inside, x, rfl⟩
      · obtain ⟨rfl, rfl⟩ := List.append_singleton_inj.1 hp
        exact first m' hrun hm
      · rw [← List.cons_append, ← List.append_assoc] at hp
        obtain ⟨rfl, rfl⟩ := List.append_singleton_inj.1 hp
        exact step inside x m' hrun (ih rfl) hm

/-- The machines that step when a machine is run, at most as many as there is fuel. -/
def trace : Nat → Machine → List Machine
  | 0, _ => []
  | fuel + 1, m =>
    match m.step with
    | none => []
    | some m' => m :: trace fuel m'

/-- What the machine itself does, with any fuel, goes on with a run. -/
theorem RunFrom.trace {s₀ : Stage} {past : List Machine} {m : Machine} (h : RunFrom s₀ past m)
    (fuel : Nat) : RunFrom s₀ (past ++ Machine.trace fuel m) (m.run fuel) := by
  induction fuel generalizing past m with
  | zero =>
      rw [Machine.trace, List.append_nil]
      exact h
  | succ fuel ih =>
      cases hm : m.step with
      | none =>
          simp only [Machine.trace, run, hm, List.append_nil]
          exact h
      | some m' =>
          have hrun := ih (h.step hm)
          simp only [Machine.trace, run, hm]
          rw [List.append_assoc] at hrun
          exact hrun

theorem Run.trace {past : List Machine} {m : Machine} (h : Run past m) (fuel : Nat) :
    Run (past ++ Machine.trace fuel m) (m.run fuel) := by
  obtain ⟨_, _, _, _, _, hnew, h⟩ := run_iff.1 h
  exact run_iff.2 ⟨_, _, _, _, _, hnew, h.trace fuel⟩

end Machine

end Walkthrough
