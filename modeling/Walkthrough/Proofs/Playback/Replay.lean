import Walkthrough.Proofs.Playback.Custody
import Walkthrough.Proofs.Playback.History

/-!
# The order of replays

A session begins where a play finds the player idle, and lasts until the player is idle again.
Nothing waits when it begins. From then on calls come to the end of the queue where they are
deferred and leave its front where they are replayed, whatever replay takes them out: at any moment
the calls deferred in the session are those replayed in it, followed by those that wait.

* `Session` — the machines that step in one session.
* `Stage.QueueMove` — what a step can do to the queue; `step_queue`: and it does nothing else.
* `Run.account` — the calls deferred in a session are those replayed in it and those that wait.
* `replays_in_order` — calls are replayed in the order in which they were deferred.
* `replays_in_session` — a replayed call was deferred in the same session, while it was paused.
-/

set_option autoImplicit false

namespace Walkthrough

/-- The ticket of a call that an event defers. -/
def Event.deferred? : Event → Option Nat
  | .deferred ticket => some ticket
  | _ => none

/-- The ticket of a call that an event takes from the queue. -/
def Event.replayed? : Event → Option Nat
  | .replayed ticket => some ticket
  | _ => none

/-- Other events have nothing to do with the queue. -/
theorem Event.off_queue (e : Event) (h : (e.isAside || e.ofCommand || e.ofLaunch) = true) :
    e.deferred? = none ∧ e.replayed? = none := by
  cases e with
  | deferred ticket => cases h
  | replayed ticket => cases h
  | _ => exact ⟨rfl, rfl⟩

namespace Machine

/-- The calls deferred in the steps of machines, in order. -/
def deferrals (ms : List Machine) : List Nat := (happened ms).filterMap Event.deferred?

/-- The calls taken from the queue in the steps of machines, in order. -/
def replays (ms : List Machine) : List Nat := (happened ms).filterMap Event.replayed?

/-- A machine begins a session in its next step. -/
def Enters (m : Machine) : Prop :=
  m.stage.status = .idle ∧ ∃ m', m.step = some m' ∧ m'.stage.status = .playing

/-- The machine `e` begins a session, and it lasts while the machines `inside` step. -/
structure Session (e : Machine) (inside : List Machine) : Prop where
  enters : e.Enters
  lasts : ∀ x ∈ inside, x.stage.status ≠ .idle

theorem Session.init {e x : Machine} {inside : List Machine} (h : Session e (inside ++ [x])) :
    Session e inside ∧ x.stage.status ≠ .idle :=
  ⟨⟨h.enters, fun y hy => h.lasts y (List.mem_append_left _ hy)⟩, h.lasts x (by simp)⟩

end Machine

/-! ## The queue in a step -/

/-- A transition that gives up the deferred calls begins at idle or ends there. -/
theorem Transition.idle_of_clears {status : Status} {c : Command} {a : Bool}
    (h : Effect.clears (Transition.of status c a).effect = true) :
    status = .idle ∨ (Transition.of status c a).status = .idle := by
  cases status <;> cases c <;> cases a <;> simp [Transition.of, Effect.clears] at h ⊢

/-- A transition that begins a session gives up the deferred calls. -/
theorem Transition.idle_of_not_clears {status : Status} {c : Command} {a : Bool}
    (h : Effect.clears (Transition.of status c a).effect ≠ true) (hs : status = .idle) :
    (Transition.of status c a).status = .idle := by
  subst hs
  cases c <;> cases a <;> simp [Transition.of, Effect.clears] at h ⊢

namespace Stage

/-- What a step can do to the queue, with the tickets that come in and those that are taken out. -/
inductive QueueMove (s s' : Stage) : List Nat → List Nat → Prop where
  /-- the queue stays as it is, and no session begins -/
  | kept : s'.ticketsAt .pending = s.ticketsAt .pending → (s.status = .idle → s'.status = .idle) →
      QueueMove s s' [] []
  /-- the queue is given up where a session begins or ends -/
  | cleared : s'.ticketsAt .pending = [] → s.status = .idle ∨ s'.status = .idle →
      QueueMove s s' [] []
  /-- a new call comes to the end of the queue while the session does not play -/
  | deferred : s.status ≠ .playing → s'.status = s.status → s'.tickets = s.tickets + 1 →
      s'.ticketsAt .pending = s.ticketsAt .pending ++ [s.tickets] → QueueMove s s' [s.tickets] []
  /-- a call is taken from the front of the queue while the session plays -/
  | replayed {t : Nat} : s.status = .playing → s'.status = .playing →
      s.ticketsAt .pending = t :: s'.ticketsAt .pending → QueueMove s s' [] [t]

section

variable {s s' : Stage} {ins outs : List Nat} {t : Nat}

/-- While a session lasts the queue takes in at its end and gives out at its front. -/
theorem QueueMove.account (h : QueueMove s s' ins outs) (hs : s.status ≠ .idle)
    (hs' : s'.status ≠ .idle) : s.ticketsAt .pending ++ ins = outs ++ s'.ticketsAt .pending := by
  cases h with
  | kept hq _ => rw [hq, List.append_nil, List.nil_append]
  | cleared _ hidle => exact absurd hidle (not_or.2 ⟨hs, hs'⟩)
  | deferred _ _ _ hq => rw [hq, List.nil_append]
  | replayed _ _ hq => rw [hq, List.append_nil, List.singleton_append]

/-- Nothing waits where a session begins. -/
theorem QueueMove.pending_of_enters (h : QueueMove s s' ins outs) (hs : s.status = .idle)
    (hs' : s'.status = .playing) : s'.ticketsAt .pending = [] := by
  cases h with
  | kept _ hidle =>
      rw [hidle hs] at hs'
      cases hs'
  | cleared hq _ => exact hq
  | deferred _ hsame _ _ =>
      rw [hsame, hs] at hs'
      cases hs'
  | replayed hplay _ _ =>
      rw [hs] at hplay
      cases hplay

/-- Where a session ends, the queue takes nothing in and gives nothing out. -/
theorem QueueMove.eq_nil_of_leaves (h : QueueMove s s' ins outs) (hs : s.status ≠ .idle)
    (hs' : s'.status = .idle) : ins = [] ∧ outs = [] := by
  cases h with
  | kept _ _ => exact ⟨rfl, rfl⟩
  | cleared _ _ => exact ⟨rfl, rfl⟩
  | deferred _ hsame _ _ => exact absurd (hsame.symm.trans hs') hs
  | replayed _ hplay _ =>
      rw [hs'] at hplay
      cases hplay

theorem QueueMove.of_mem_ins (h : QueueMove s s' ins outs) (ht : t ∈ ins) :
    t = s.tickets ∧ s'.tickets = t + 1 ∧ s.status ≠ .playing := by
  cases h with
  | kept _ _ => cases ht
  | cleared _ _ => cases ht
  | deferred hplay _ htickets _ =>
      rw [List.mem_singleton] at ht
      exact ⟨ht, by rw [ht, htickets], hplay⟩
  | replayed _ _ _ => cases ht

theorem QueueMove.of_mem_outs (h : QueueMove s s' ins outs) (ht : t ∈ outs) :
    t ∈ s.ticketsAt .pending ∧ s.status = .playing := by
  cases h with
  | kept _ _ => cases ht
  | cleared _ _ => cases ht
  | deferred _ _ _ _ => cases ht
  | replayed hplay _ hq =>
      rw [List.mem_singleton] at ht
      rw [hq, ht]
      exact ⟨List.mem_cons_self, hplay⟩

end

/-- From `s` to `s'` calls with the tickets `ins` were deferred, and with `outs` replayed. -/
def Queued (s s' : Stage) (ins outs : List Nat) : Prop :=
  Notes Event.deferred? s s' ins ∧ Notes Event.replayed? s s' outs

theorem Queued.of_journal_eq {s s' : Stage} (h : s'.journal = s.journal) : Queued s s' [] [] :=
  ⟨.of_journal_eq h, .of_journal_eq h⟩

theorem Queued.record (e : Event) (s : Stage) :
    Queued s (s.record e) e.deferred?.toList e.replayed?.toList := ⟨.record _ e s, .record _ e s⟩

theorem Queued.trans {s t u : Stage} {ins ins' outs outs' : List Nat} (h : Queued s t ins outs)
    (h' : Queued t u ins' outs') : Queued s u (ins ++ ins') (outs ++ outs') :=
  ⟨h.1.trans h'.1, h.2.trans h'.2⟩

theorem Writes.queued {p : Event → Bool} {s s' : Stage} (h : Writes p s s')
    (hp : ∀ e, p e = true → (e.isAside || e.ofCommand || e.ofLaunch) = true) :
    Queued s s' [] [] :=
  ⟨h.notes fun e he => (e.off_queue (hp e he)).1, h.notes fun e he => (e.off_queue (hp e he)).2⟩

theorem Aside.queued {s s' : Stage} (h : s.Aside s') : Queued s s' [] [] :=
  h.writes.queued fun e he => by simp [he]

theorem command_queued (c : Command) (s : Stage) : Queued s (s.command c).1 [] [] :=
  (command_writes c s).queued fun e he => by simp [he]

theorem launch_queued (d : Deferred Call) (s : Stage) : Queued s (s.launch d).1 [] [] :=
  (launch_writes d s).queued fun e he => by simp [he]

theorem command_queueMove (c : Command) (s : Stage) : QueueMove s (s.command c).1 [] [] := by
  by_cases hclears : Effect.clears (Transition.of s.status c s.hasActions).effect = true
  · refine .cleared ?_ ?_
    · simp only [ticketsAt, command_pending, if_pos hclears, List.map_nil]
    · rw [command_status]
      exact Transition.idle_of_clears hclears
  · refine .kept ?_ ?_
    · simp only [ticketsAt, command_pending, if_neg hclears]
    · rw [command_status]
      exact Transition.idle_of_not_clears hclears

/-- A launched call is no longer in the queue. -/
theorem launch_pending (d : Deferred Call) (s : Stage) :
    (s.launch d).1.ticketsAt .pending = s.ticketsAt .pending := by
  simp only [ticketsAt, (launch_session d s).2.1]

theorem QueueMove.congr {s₀ s s' : Stage} {ins outs : List Nat} (h : QueueMove s s' ins outs)
    (hs : SameSession s₀ s) : QueueMove s₀ s' ins outs := by
  cases h with
  | kept hq hidle =>
      rw [hs.ticketsAt] at hq
      rw [hs.status] at hidle
      exact .kept hq hidle
  | cleared hq hidle =>
      rw [hs.status] at hidle
      exact .cleared hq hidle
  | deferred hplay hsame htickets hq =>
      rw [hs.status] at hplay hsame
      rw [hs.tickets] at htickets hq ⊢
      rw [hs.ticketsAt] at hq
      exact .deferred hplay hsame htickets hq
  | replayed hplay hplay' hq =>
      rw [hs.status] at hplay
      rw [hs.ticketsAt] at hq
      exact .replayed hplay hplay' hq

theorem request_queue (label : String) (delay : Duration) (body : Routine) (s : Stage) :
    ∃ ins outs, Queued s (s.request label delay body).1 ins outs ∧
      QueueMove s (s.request label delay body).1 ins outs := by
  have hticketed : Queued s (s.ticketed delay) [] [] :=
    .record (.requested s.tickets delay) { s with tickets := s.tickets + 1 }
  by_cases hs : s.status = .playing
  · rw [request_playing hs]
    refine ⟨[], [], hticketed.trans (launch_queued _ _), .kept (launch_pending _ _) ?_⟩
    intro hidle
    rw [hs] at hidle
    cases hidle
  · rw [request_deferred hs]
    refine ⟨[s.tickets], [], hticketed.trans (.record (.deferred s.tickets) _), ?_⟩
    refine .deferred hs rfl rfl ?_
    exact List.map_append

theorem replay_queue {d : Deferred Call} {ds : List (Deferred Call)} {s : Stage}
    (hs : s.status = .playing) (hp : s.pending = d :: ds) :
    Queued s ((s.dequeue d ds).launch d).1 [] [d.call.ticket] ∧
      QueueMove s ((s.dequeue d ds).launch d).1 [] [d.call.ticket] := by
  have hdequeue : Queued s (s.dequeue d ds) [] [d.call.ticket] :=
    .record (.replayed d.call.ticket) (s.mapPlayback fun p => { p with pending := ds })
  refine ⟨hdequeue.trans (launch_queued d _), .replayed hs ?_ ?_⟩
  · exact (launch_session d _).1.trans hs
  · rw [launch_pending]
    simp only [ticketsAt, hp]
    rfl

end Stage

/-- **What a turn does to the queue**, it writes down. -/
theorem Turn.queue {f : Frame} {s s' : Stage} {fs : List Frame} (h : Turn f s s' fs) :
    ∃ ins outs, s.Queued s' ins outs ∧ s.QueueMove s' ins outs := by
  cases h with
  | aside ha _ _ _ =>
      have hsame := ha.sameSession
      refine ⟨[], [], ha.queued, .kept (hsame.ticketsAt .pending) ?_⟩
      rw [hsame.status]
      exact id
  | commanded _ ha _ =>
      exact ⟨[], [], ha.queued.trans (Stage.command_queued _ _),
        (Stage.command_queueMove _ _).congr ha.sameSession⟩
  | requested label delay body next => exact Stage.request_queue label delay body s
  | replayed hs hp => exact ⟨[], _, Stage.replay_queue hs hp⟩
  | drained _ => exact ⟨[], [], .of_journal_eq rfl, .kept rfl id⟩
  | @fired _ timer call _ s₀ _ _ ha hc _ _ =>
      have hsame := ha.sameSession
      rw [Stage.fire_eq hc]
      refine ⟨[], [], ha.queued.trans (.record (.started call.ticket call.label) (s₀.unfly timer)),
        .kept (hsame.ticketsAt .pending) ?_⟩
      intro hidle
      exact hsame.status.trans hidle

namespace Machine

variable {past before inside : List Machine} {e m m' : Machine}

/-- Every step moves the queue as it writes down. -/
theorem step_queue (h : m.step = some m') :
    m.stage.QueueMove m'.stage (m.events.filterMap Event.deferred?)
      (m.events.filterMap Event.replayed?) := by
  obtain ⟨f, rest, fs, _, _, ht⟩ := step_turn h
  obtain ⟨ins, outs, ⟨hins, houts⟩, hmove⟩ := ht.queue
  rw [events_filterMap h hins, events_filterMap h houts]
  exact hmove

theorem mem_deferrals {t : Nat} {ms : List Machine} :
    t ∈ deferrals ms ↔ ∃ d ∈ ms, Event.deferred t ∈ d.events := by
  simp only [deferrals, happened, List.mem_filterMap, List.mem_flatMap]
  constructor
  · rintro ⟨event, ⟨d, hd, hevent⟩, ht⟩
    cases event <;> cases ht
    exact ⟨d, hd, hevent⟩
  · rintro ⟨d, hd, hevent⟩
    exact ⟨_, ⟨d, hd, hevent⟩, rfl⟩

theorem deferrals_concat (ms : List Machine) (m : Machine) :
    deferrals (ms ++ [m]) = deferrals ms ++ m.events.filterMap Event.deferred? :=
  filterMap_happened_concat _ ms m

theorem replays_concat (ms : List Machine) (m : Machine) :
    replays (ms ++ [m]) = replays ms ++ m.events.filterMap Event.replayed? :=
  filterMap_happened_concat _ ms m

/-! ## Sessions -/

/-- The calls deferred in a session are those replayed in it, followed by others; while it lasts,
these others are the ones that wait. -/
theorem Run.account (h : Run (before ++ e :: inside) m) (hs : Session e inside) :
    ∃ others, deferrals inside = replays inside ++ others ∧
      (m.stage.status ≠ .idle → others = m.stage.ticketsAt .pending) := by
  revert hs
  refine Run.since_induction (P := fun inside m => Session e inside → ∃ others,
    deferrals inside = replays inside ++ others ∧
      (m.stage.status ≠ .idle → others = m.stage.ticketsAt .pending)) ?_ ?_ ?_ ?_ h
  · intro m _ hm hs
    obtain ⟨hidle, m', hm', hplay⟩ := hs.enters
    rw [hm] at hm'
    cases hm'
    refine ⟨[], rfl, fun _ => ?_⟩
    exact ((step_queue hm).pending_of_enters hidle hplay).symm
  · intro inside s r ih hs
    exact ih hs
  · intro inside m text ih hs
    exact ih hs
  · intro inside m m' _ ih hm hs
    obtain ⟨hs, hlast⟩ := hs.init
    obtain ⟨others, hothers, hpending⟩ := ih hs
    have hmove := step_queue hm
    rw [deferrals_concat, replays_concat, hothers]
    by_cases hidle : m'.stage.status = .idle
    · obtain ⟨hins, houts⟩ := hmove.eq_nil_of_leaves hlast hidle
      rw [hins, houts, List.append_nil, List.append_nil]
      exact ⟨others, rfl, fun hne => absurd hidle hne⟩
    · refine ⟨m'.stage.ticketsAt .pending, ?_, fun _ => rfl⟩
      rw [hpending hlast, List.append_assoc, hmove.account hlast hidle, List.append_assoc]

/-- A step from idle begins a session or stays idle. -/
theorem enters_of_step (h : m.step = some m') (hs : m.stage.status = .idle)
    (hs' : m'.stage.status ≠ .idle) : m.Enters := by
  refine ⟨hs, m', h, ?_⟩
  have hstatus := (step_status h).1
  rw [hs] at hstatus
  cases ho : m.order? with
  | none =>
      rw [ho] at hstatus
      exact absurd hstatus hs'
  | some o =>
      obtain ⟨c, a⟩ := o
      rw [ho] at hstatus
      rw [hstatus] at hs' ⊢
      revert hs'
      cases c <;> cases a <;> decide

/-- Wherever the player is not idle, a session lasts. -/
theorem Run.in_session (h : Run past m) (hs : m.stage.status ≠ .idle) :
    ∃ before e inside, past = before ++ e :: inside ∧ Session e inside := by
  induction h with
  | new hnew =>
      cases Stage.eq_of_new hnew
      exact absurd rfl hs
  | host r _ ih => exact ih hs
  | user text _ ih => exact ih hs
  | @step past m m' _ hm ih =>
      by_cases hidle : m.stage.status = .idle
      · refine ⟨past, m, [], rfl, enters_of_step hm hidle hs, ?_⟩
        intro x hx
        exact absurd hx List.not_mem_nil
      · obtain ⟨before, e, inside, rfl, hsession⟩ := ih hidle
        refine ⟨before, e, inside ++ [m], by simp, hsession.enters, ?_⟩
        intro x hx
        rcases List.mem_append.1 hx with hx | hx
        · exact hsession.lasts x hx
        · rw [List.mem_singleton.1 hx]
          exact hidle

/-- A waiting call that is started or put in flight is replayed, while the session plays. -/
theorem Moves.replays {t : Nat} {p : Place} (h : Moves m m' t (some .pending) p)
    (hp : p = .started ∨ p = .inFlight) :
    m.frames.head? = some .replay ∧ m.stage.status = .playing := by
  cases h with
  | replayed hframes hplay _ _ =>
      rw [hframes]
      exact ⟨rfl, hplay⟩
  | givenUp _ _ _ => rcases hp with hp | hp <;> cases hp

/-- **Calls are replayed in the order in which they were deferred.** In every session of a run, the
calls taken from the queue so far, in whatever nested replays, are the first of those deferred in
the session, in the same order; while the session lasts the others are the ones that wait. And a
waiting call is started or put in flight only while the session plays. -/
theorem replays_in_order (h : Run past m) :
    (∀ before e inside, before ++ e :: inside <+: past → Session e inside →
      replays inside <+: deferrals inside) ∧
    (∀ before e inside, past = before ++ e :: inside → Session e inside →
      m.stage.status ≠ .idle →
        deferrals inside = replays inside ++ m.stage.ticketsAt .pending) ∧
    ∀ m', m.step = some m' → ∀ t ∈ m.stage.ticketsAt .pending,
      t ∈ m'.stage.ticketsAt .started ∨ t ∈ m'.stage.ticketsAt .inFlight →
        m.stage.status = .playing ∧ m'.stage.status = .playing := by
  refine ⟨?_, ?_, ?_⟩
  · intro before e inside hprefix hs
    obtain ⟨_, hrun⟩ := h.of_prefix hprefix
    obtain ⟨others, hothers, _⟩ := hrun.account hs
    exact ⟨others, hothers.symm⟩
  · intro before e inside hpast hs hlast
    subst hpast
    obtain ⟨others, hothers, hpending⟩ := h.account hs
    rw [hothers, hpending hlast]
  · intro m' hm t ht ht'
    obtain ⟨f, rest, fs, hf, hf', hturn⟩ := step_turn hm
    have hplaced : ∃ p, (p = .started ∨ p = .inFlight) ∧ t ∈ m'.stage.ticketsAt p := by
      rcases ht' with ht' | ht'
      · exact ⟨_, .inl rfl, ht'⟩
      · exact ⟨_, .inr rfl, ht'⟩
    obtain ⟨p, hp, hmem⟩ := hplaced
    have hne : p ≠ .pending := by
      rintro rfl
      rcases hp with hp | hp <;> cases hp
    have hmove := (hturn.moves h.kept rest ht hmem).resolve_left hne
    obtain ⟨hframe, hplay⟩ := hmove.replays hp
    cases hframe
    exact ⟨hplay, hturn.status.1.trans hplay⟩

/-- The machines of the rehearsal that step first. -/
def rehearsalPast (steps : Nat) : List Machine := trace steps ⟨.plain, [.run rehearsal]⟩

/-- The rehearsal before its last replay. The outer replay has taken the first call from the queue,
and a replay inside that call the second one; the third one was deferred in between. -/
theorem rehearsal_replays :
    Session (rehearsed 2) ((rehearsalPast 15).drop 3) ∧
      replays ((rehearsalPast 15).drop 3) = [0, 1] ∧
      replays ((rehearsalPast 15).drop 3) <+: deferrals ((rehearsalPast 15).drop 3) ∧
      deferrals ((rehearsalPast 15).drop 3) = [0, 1] ++ [2] ∧
      2 ∈ (rehearsed 16).stage.ticketsAt .started ∧ (rehearsed 15).stage.status = .playing := by
  have hrun : Run (rehearsalPast 15) (rehearsed 15) :=
    ((Run.new Stage.plain_new).host rehearsal).trace 15
  have hsession : Session (rehearsed 2) ((rehearsalPast 15).drop 3) := by
    refine ⟨⟨rfl, rehearsed 3, rfl, rfl⟩, ?_⟩
    have hall : ((rehearsalPast 15).drop 3).all (fun x => x.stage.status ≠ .idle) = true := rfl
    intro x hx
    exact of_decide_eq_true (List.all_eq_true.1 hall x hx)
  have hpast : (rehearsalPast 15).take 2 ++ rehearsed 2 :: (rehearsalPast 15).drop 3 =
      rehearsalPast 15 := rfl
  obtain ⟨horder, hwaiting, hplaying⟩ := replays_in_order hrun
  refine ⟨hsession, rfl, ?_, ?_, by decide, ?_⟩
  · exact horder _ _ _ ⟨[], (List.append_nil _).trans hpast⟩ hsession
  · exact hwaiting _ _ _ hpast.symm hsession nofun
  · exact (hplaying (rehearsed 16) rfl 2 (by decide) (.inl (by decide))).1

/-! ## Deferred once, in the session of the replay -/

/-- A call is deferred with the ticket that is given out next, while the session does not play. -/
theorem tickets_of_deferred {t : Nat} (h : m.step = some m') (ht : .deferred t ∈ m.events) :
    t = m.stage.tickets ∧ m'.stage.tickets = t + 1 ∧ m.stage.status ≠ .playing :=
  (step_queue h).of_mem_ins (List.mem_filterMap.2 ⟨_, ht, rfl⟩)

section

variable {xs ys xs' ys' : List Machine} {d d' : Machine} {t : Nat}

theorem Run.deferral_le (h : Run past m) (hp : past = xs ++ d :: ys)
    (hp' : past = xs' ++ d' :: ys') (ht : .deferred t ∈ d.events) (ht' : .deferred t ∈ d'.events) :
    xs.length ≤ xs'.length := by
  by_contra hlt
  obtain ⟨hrun, d₁, hstep⟩ := h.at hp
  obtain ⟨hrun', d₁', hstep'⟩ := h.at hp'
  -- more tickets have been given out behind `d'` than before `d`
  have hprefix : xs' ++ [d'] <+: xs := by
    have hleft : xs <+: past := ⟨d :: ys, hp.symm⟩
    have hleft' : xs' ++ [d'] <+: past := ⟨ys', by rw [hp', List.append_cons xs' d' ys']⟩
    refine List.prefix_of_prefix_length_le hleft' hleft ?_
    rw [List.length_append, List.length_singleton]
    omega
  have hcount : (xs' ++ [d']).countP requests ≤ xs.countP requests := hprefix.sublist.countP_le
  have hbefore := hrun.tickets
  have hbehind := (hrun'.step hstep').tickets
  have hd := (tickets_of_deferred hstep ht).1
  have hd' := (tickets_of_deferred hstep' ht').2.1
  omega

/-- A call is deferred only once. -/
theorem Run.deferral_unique (h : Run past m) (hp : past = xs ++ d :: ys)
    (hp' : past = xs' ++ d' :: ys') (ht : .deferred t ∈ d.events) (ht' : .deferred t ∈ d'.events) :
    xs = xs' ∧ d = d' ∧ ys = ys' := by
  have hlength : xs.length = xs'.length :=
    Nat.le_antisymm (h.deferral_le hp hp' ht ht') (h.deferral_le hp' hp ht' ht)
  obtain ⟨hxs, hrest⟩ := List.append_inj (hp.symm.trans hp') hlength
  obtain ⟨hd, hys⟩ := List.cons.inj hrest
  exact ⟨hxs, hd, hys⟩

end

/-- A replayed call was deferred in the session that lasts. -/
theorem Run.deferral_of_replay {t : Nat} (h : Run past m) (ht : .replayed t ∈ m.events) :
    ∃ before e xs d ys, past = before ++ e :: (xs ++ d :: ys) ∧ Session e (xs ++ d :: ys) ∧
      .deferred t ∈ d.events := by
  obtain ⟨m', hm⟩ := step_of_mem_events ht
  obtain ⟨hpending, hplay⟩ := (step_queue hm).of_mem_outs (List.mem_filterMap.2 ⟨_, ht, rfl⟩)
  have hlast : m.stage.status ≠ .idle := by
    rw [hplay]
    decide
  obtain ⟨before, e, inside, rfl, hs⟩ := h.in_session hlast
  obtain ⟨others, hothers, heq⟩ := h.account hs
  have hmem : t ∈ deferrals inside := by
    rw [hothers, heq hlast]
    exact List.mem_append_right _ hpending
  obtain ⟨d, hd, hdeferred⟩ := mem_deferrals.1 hmem
  obtain ⟨xs, ys, rfl⟩ := List.append_of_mem hd
  exact ⟨before, e, xs, d, ys, rfl, hs, hdeferred⟩

/-- **Deferred calls never cross sessions.** A call that a replay takes from the queue was deferred
once, while the session was paused that still lasts. So a call that was deferred while the player
was idle, or that the player has been idle since, is not replayed. -/
theorem replays_in_session (h : Run past m) :
    (∀ t, .replayed t ∈ m.events → ∃ before e xs d ys,
      past = before ++ e :: (xs ++ d :: ys) ∧ Session e (xs ++ d :: ys) ∧
        .deferred t ∈ d.events ∧ d.stage.status = .paused ∧
          ∀ x ∈ past, .deferred t ∈ x.events → x = d) ∧
    ∀ xs d ys t, past = xs ++ d :: ys → .deferred t ∈ d.events →
      d.stage.status = .idle ∨ (∃ x ∈ ys, x.stage.status = .idle) → .replayed t ∉ m.events := by
  constructor
  · intro t ht
    obtain ⟨before, e, xs, d, ys, hp, hs, hdeferred⟩ := h.deferral_of_replay ht
    refine ⟨before, e, xs, d, ys, hp, hs, hdeferred, ?_, ?_⟩
    · have hp' : past = (before ++ e :: xs) ++ d :: ys := by simp [hp]
      obtain ⟨_, d₁, hstep⟩ := h.at hp'
      have hplay := (tickets_of_deferred hstep hdeferred).2.2
      have hidle := hs.lasts d (by simp)
      cases hstatus : d.stage.status with
      | idle => exact absurd hstatus hidle
      | playing => exact absurd hstatus hplay
      | paused => rfl
    · intro x hx hdeferred'
      obtain ⟨xs', ys', hp'⟩ := List.append_of_mem hx
      have hp'' : past = (before ++ e :: xs) ++ d :: ys := by simp [hp]
      exact (h.deferral_unique hp' hp'' hdeferred' hdeferred).2.1
  · rintro xs d ys t hp hdeferred hidle ht
    obtain ⟨before, e, xs', d', ys', hp', hs, hdeferred'⟩ := h.deferral_of_replay ht
    have hp'' : past = (before ++ e :: xs') ++ d' :: ys' := by simp [hp']
    obtain ⟨_, rfl, rfl⟩ := h.deferral_unique hp hp'' hdeferred hdeferred'
    rcases hidle with hidle | ⟨x, hx, hidle⟩
    · exact hs.lasts d (by simp) hidle
    · exact hs.lasts x (by simp [hx]) hidle

end Machine

/-! ## An example -/

/-- A call that stops the session, defers a call while the player is idle, and begins a new session
with a call of its own. -/
def relapse : Routine :=
  .perform (.command .stop) fun _ =>
    .request "stale" 0 .done (.perform (.command .play) fun _ =>
      .perform (.command .pause) fun _ =>
        .request "fresh" 0 .done (.perform (.command .play) fun _ => .done))

/-- A host that defers this call and another one, and replays them. -/
def performance : Routine :=
  .perform (.loadDocument ⟨"let a = 1;", [⟨"step", .text "0", none⟩]⟩) fun _ =>
    .perform (.command .play) fun _ => .perform (.command .pause) fun _ =>
      .request "relapse" 0 relapse
        (.request "next" 0 .done (.perform (.command .play) fun _ => .done))

/-- The performance after some steps. -/
def performed (steps : Nat) : Machine := Machine.run steps ⟨.plain, [.run performance]⟩

namespace Machine

/-- Three calls of the performance when it comes to its last replay, which takes the fresh call from
the queue. The first one was deferred in a session that is over, the second one while the player was
idle, and the fresh one while the new session was paused. -/
theorem performance_replays :
    (.deferred 1 ∈ (performed 7).events ∧ (performed 12).stage.status = .idle ∧
        .replayed 1 ∉ (performed 20).events) ∧
      (.deferred 2 ∈ (performed 13).events ∧ (performed 13).stage.status = .idle ∧
        .replayed 2 ∉ (performed 20).events) ∧
      .deferred 3 ∈ (performed 18).events ∧ .replayed 3 ∈ (performed 20).events ∧
        (performed 18).stage.status = .paused := by
  obtain ⟨past, hpast⟩ : ∃ past, past = trace 20 ⟨.plain, [.run performance]⟩ := ⟨_, rfl⟩
  have hrun : Run past (performed 20) := by
    rw [hpast]
    exact ((Run.new Stage.plain_new).host performance).trace 20
  have hnext : .deferred 1 ∈ (performed 7).events := .tail _ (.head _)
  have hstale : .deferred 2 ∈ (performed 13).events := .tail _ (.head _)
  have hfresh : .deferred 3 ∈ (performed 18).events := .tail _ (.head _)
  have hreplayed : .replayed 3 ∈ (performed 20).events := .head _
  obtain ⟨hsession, hnone⟩ := replays_in_session hrun
  refine ⟨⟨hnext, rfl, ?_⟩, ⟨hstale, rfl, ?_⟩, hfresh, hreplayed, ?_⟩
  · refine hnone (past.take 7) _ (past.drop 8) 1 ?_ hnext (.inr ⟨performed 12, ?_, rfl⟩)
    · subst hpast
      rfl
    · subst hpast
      exact .tail _ (.tail _ (.tail _ (.tail _ (.head _))))
  · refine hnone (past.take 13) _ (past.drop 14) 2 ?_ hstale (.inl rfl)
    subst hpast
    rfl
  · obtain ⟨_, _, _, d, _, _, _, _, hpaused, honly⟩ := hsession 3 hreplayed
    have hmem : performed 18 ∈ past := by
      have hsplit : past = past.take 18 ++ performed 18 :: past.drop 19 := by
        subst hpast
        rfl
      rw [hsplit]
      exact List.mem_append_right _ List.mem_cons_self
    rw [honly _ hmem hfresh]
    exact hpaused

end Machine

end Walkthrough
