import Mathlib.Data.List.Nodup
import Mathlib.Data.List.Pairwise
import Walkthrough.Proofs.Playback.Replay

/-!
# The journal of a run

What is in the journal has happened in the run, in order. Whatever is given a number by a counter —
a ticket, a timer, a place in the clock's queue — has a number of its own, and a moment of its own
at which it was given out.

* `Run.journal` — the journal holds what happened, the latest first.
* `Counts` — a step gives out the next number or none; `Run.counted`: the numbers given out in a run
  are all below the counter, in order.
* `once` — a number is given out in one step only.
* `Turn.requests`, `Run.requests` — tickets are numbers that requests give out.
* `Run.asked` — every waiting call was requested, with the delay that it waits with.
-/

set_option autoImplicit false

namespace Walkthrough

/-- The ticket and the delay of a call that an event requests. -/
def Event.requested? : Event → Option (Nat × Duration)
  | .requested ticket delay => some (ticket, delay)
  | _ => none

/-- Other events request nothing. -/
theorem Event.requested?_eq_none (e : Event) (h : (e.isAside || e.ofCommand || e.ofLaunch) = true) :
    e.requested? = none := by
  cases e with
  | requested ticket delay => cases h
  | _ => rfl

theorem Event.mem_requested {ticket : Nat} {delay : Duration} {es : List Event} :
    (ticket, delay) ∈ es.filterMap Event.requested? ↔ .requested ticket delay ∈ es := by
  rw [List.mem_filterMap]
  constructor
  · rintro ⟨e, he, heq⟩
    cases e <;> cases heq
    exact he
  · intro he
    exact ⟨_, he, rfl⟩

/-- From `n` to `n'` a counter gives out the numbers `xs`: the next one or none. -/
inductive Counts (n : Nat) : Nat → List Nat → Prop where
  | none : Counts n n []
  | next : Counts n (n + 1) [n]

theorem Counts.range {n n' : Nat} {xs : List Nat} (h : Counts n n' xs) :
    List.range n ++ xs = List.range n' := by
  cases h with
  | none => exact List.append_nil _
  | next => exact List.range_succ.symm

namespace Machine

variable {past : List Machine} {m m' x y : Machine}

/-! ## The journal -/

theorem step_journal (h : m.step = some m') :
    m'.stage.journal = m.events.reverse ++ m.stage.journal := by
  obtain ⟨f, rest, fs, _, _, ht⟩ := step_turn h
  obtain ⟨_, _, ⟨⟨es, hjournal, _⟩, _⟩, _⟩ := ht.queue
  rw [events_eq h hjournal]
  exact hjournal

/-- The journal holds what happened, the latest first. -/
theorem Run.journal (h : Run past m) : m.stage.journal = (happened past).reverse := by
  induction h with
  | new h =>
      cases Stage.eq_of_new h
      rfl
  | host r _ ih => exact ih
  | user text _ ih => exact ih
  | step _ hm ih => rw [step_journal hm, ih, happened, happened, List.flatMap_append,
      List.reverse_append, List.flatMap_singleton]

/-- A machine that has stepped in a run was reached by a beginning of the run. -/
theorem Run.steps (h : Run past m) (hx : x ∈ past) : ∃ before x', Run before x ∧
    before <+: past ∧ x.step = some x' := by
  obtain ⟨before, after, hpast⟩ := List.append_of_mem hx
  obtain ⟨hrun, x', hstep⟩ := h.at hpast
  exact ⟨before, x', hrun, ⟨x :: after, hpast.symm⟩, hstep⟩

theorem Run.mem_journal {e : Event} (h : Run past m) :
    e ∈ m.stage.journal ↔ e ∈ happened past := by
  rw [h.journal, List.mem_reverse]

theorem mem_happened {e : Event} {ms : List Machine} : e ∈ happened ms ↔ ∃ x ∈ ms, e ∈ x.events :=
  List.mem_flatMap

/-! ## Numbers -/

/-- The numbers that a counter gives out in a run are those below it, in order. -/
theorem Run.counted {f : Event → Option Nat} {n : Stage → Nat}
    (hnew : ∀ config surface timers routines,
      n { player := { config, timers }, surface, routines } = 0)
    (hedit : ∀ text s, n (s.edit text) = n s)
    (hstep : ∀ m m' : Machine, m.step = some m' →
      Counts (n m.stage) (n m'.stage) (m.events.filterMap f))
    (h : Run past m) : (happened past).filterMap f = List.range (n m.stage) := by
  induction h with
  | new h =>
      cases Stage.eq_of_new h
      rw [hnew]
      rfl
  | host r _ ih => exact ih
  | @user _ m text _ ih =>
      rw [hedit]
      exact ih
  | step _ hm ih =>
      rw [filterMap_happened_concat, ih]
      exact (hstep _ _ hm).range

/-- A number that a counter gives out is given out in one step only. -/
theorem once {f : Event → Option Nat} {a n : Nat} {ms : List Machine}
    (hrange : (happened ms).filterMap f = List.range n) (hx : x ∈ ms) (hy : y ∈ ms)
    (hax : a ∈ x.events.filterMap f) (hay : a ∈ y.events.filterMap f) : x = y := by
  have hn : ((happened ms).filterMap f).Nodup := by
    rw [hrange]
    exact List.nodup_range
  rw [happened, List.filterMap_flatMap, List.nodup_flatMap] at hn
  have hsymm : Std.Symm (Function.onFun List.Disjoint fun x : Machine => x.events.filterMap f) :=
    ⟨fun _ _ h _ ha hb => h hb ha⟩
  by_contra hne
  exact hn.2.forall hx hy hne hax hay

end Machine

/-! ## Tickets -/

namespace Stage

theorem Writes.requests_nil {p : Event → Bool} {s s' : Stage} (h : Writes p s s')
    (hp : ∀ e, p e = true → (e.isAside || e.ofCommand || e.ofLaunch) = true) :
    Notes Event.requested? s s' [] := h.notes fun e he => e.requested?_eq_none (hp e he)

theorem Aside.requests {s s' : Stage} (h : s.Aside s') : Notes Event.requested? s s' [] :=
  h.writes.requests_nil fun e he => by simp [he]

theorem launch_requests (d : Deferred Call) (s : Stage) :
    Notes Event.requested? s (s.launch d).1 [] :=
  (launch_writes d s).requests_nil fun e he => by simp [he]

theorem request_requests (label : String) (delay : Duration) (body : Routine) (s : Stage) :
    Notes Event.requested? s (s.request label delay body).1 [(s.tickets, delay)] := by
  have hticketed : Notes Event.requested? s (s.ticketed delay) [(s.tickets, delay)] :=
    .record Event.requested? (.requested s.tickets delay) { s with tickets := s.tickets + 1 }
  by_cases hs : s.status = .playing
  · rw [request_playing hs]
    exact hticketed.trans (launch_requests _ _)
  · rw [request_deferred hs]
    exact hticketed.trans (.record _ (.deferred s.tickets) _)

end Stage

/-- **A turn gives out a ticket where it requests a call**, and writes it down with the delay. -/
theorem Turn.requests {f : Frame} {s s' : Stage} {fs : List Frame} (h : Turn f s s' fs) :
    ∃ xs, s.Notes Event.requested? s' xs ∧ Counts s.tickets s'.tickets (xs.map Prod.fst) := by
  cases h with
  | aside ha _ _ _ =>
      refine ⟨[], ha.requests, ?_⟩
      rw [ha.sameSession.tickets]
      exact .none
  | @commanded _ _ _ c _ s₀ _ ha _ =>
      have hcommand : s₀.Notes Event.requested? (s₀.command c).1 [] :=
        (Stage.command_writes c s₀).requests_nil fun e he => by simp [he]
      refine ⟨[], ha.requests.trans hcommand, ?_⟩
      rw [(Stage.command_keeps _ _).2.2, ha.sameSession.tickets]
      exact .none
  | requested label delay body next =>
      refine ⟨_, Stage.request_requests label delay body s, ?_⟩
      rw [(Stage.request_session label delay body s).2.1]
      exact .next
  | @replayed d ds _ _ _ =>
      have hdequeue : s.Notes Event.requested? (s.dequeue d ds) [] :=
        .record _ (.replayed d.call.ticket) _
      refine ⟨[], hdequeue.trans (Stage.launch_requests d _), ?_⟩
      rw [(Stage.launch_session d _).2.2.1]
      exact .none
  | drained _ => exact ⟨[], .of_journal_eq rfl, .none⟩
  | @fired _ timer call _ s₀ _ _ ha hc _ _ =>
      have hfire : s₀.Notes Event.requested? (s₀.fire timer).1 [] := by
        rw [Stage.fire_eq hc]
        exact .record _ (.started call.ticket call.label) (s₀.unfly timer)
      refine ⟨[], ha.requests.trans hfire, ?_⟩
      rw [Stage.fire_eq hc]
      show Counts s.tickets s₀.tickets _
      rw [ha.sameSession.tickets]
      exact .none

namespace Machine

variable {past : List Machine} {m m' : Machine}

theorem step_requests (h : m.step = some m') :
    Counts m.stage.tickets m'.stage.tickets
      ((m.events.filterMap Event.requested?).map Prod.fst) := by
  obtain ⟨f, rest, fs, _, _, ht⟩ := step_turn h
  obtain ⟨xs, hxs, hcounts⟩ := ht.requests
  rw [events_filterMap h hxs]
  exact hcounts

/-- The tickets given out in a run are those that were requested, in order. -/
theorem Run.requests (h : Run past m) :
    ((happened past).filterMap Event.requested?).map Prod.fst = List.range m.stage.tickets := by
  rw [List.map_filterMap]
  refine h.counted (n := Stage.tickets) (fun _ _ _ _ => rfl) (fun _ _ => rfl) ?_
  intro m m' hm
  rw [← List.map_filterMap]
  exact step_requests hm

end Machine

namespace Stage

/-- Every waiting call was requested, with the delay that it waits with. -/
def Asked (s : Stage) : Prop :=
  ∀ d ∈ s.pending, .requested d.call.ticket d.delay ∈ s.journal

theorem Asked.congr {s s' : Stage} (h : s.Asked) (hp : s'.pending ⊆ s.pending)
    (hj : s.journal ⊆ s'.journal) : s'.Asked := fun d hd => hj (h d (hp hd))

end Stage

/-- What was written down stays in the journal. -/
theorem Turn.journal_subset {f : Frame} {s s' : Stage} {fs : List Frame} (h : Turn f s s' fs) :
    s.journal ⊆ s'.journal := by
  obtain ⟨_, ⟨es, hjournal, _⟩, _⟩ := h.requests
  rw [hjournal]
  exact List.subset_append_right _ _

theorem Turn.asked {f : Frame} {s s' : Stage} {fs : List Frame} (h : Turn f s s' fs)
    (hs : s.Asked) : s'.Asked := by
  have hjournal := h.journal_subset
  cases h with
  | aside ha _ _ _ =>
      refine hs.congr ?_ hjournal
      rw [ha.sameSession.pending]
      exact List.Subset.refl _
  | commanded _ ha _ =>
      refine hs.congr ?_ hjournal
      rw [Stage.command_pending, ha.sameSession.pending]
      split
      · exact List.nil_subset _
      · exact List.Subset.refl _
  | requested label delay body next =>
      by_cases hplay : s.status = .playing
      · refine hs.congr ?_ hjournal
        rw [Stage.request_playing hplay, (Stage.launch_session _ _).2.1]
        exact List.Subset.refl _
      · rw [Stage.request_deferred hplay] at hjournal ⊢
        intro d hd
        rcases List.mem_append.1 hd with hd | hd
        · exact hjournal (hs d hd)
        · rw [List.mem_singleton.1 hd]
          exact List.mem_cons_of_mem _ List.mem_cons_self
  | @replayed d ds _ _ hp =>
      refine hs.congr ?_ hjournal
      rw [(Stage.launch_session d _).2.1, hp]
      exact List.subset_cons_self _ _
  | drained _ => exact hs
  | @fired _ _ _ _ s₀ _ _ ha hc _ _ =>
      refine hs.congr ?_ hjournal
      rw [Stage.fire_eq hc]
      show s₀.pending ⊆ s.pending
      rw [ha.sameSession.pending]
      exact List.Subset.refl _

theorem Machine.Run.asked {past : List Machine} {m : Machine} (h : Run past m) :
    m.stage.Asked := by
  refine h.stage_induction ?_ fun f s s' fs ht hs => ht.asked hs
  intro config surface timers routines
  exact nofun

end Walkthrough
