import Mathlib.Logic.ExistsUnique
import Walkthrough.Proofs.Playback.Orders

/-!
# Where the calls are

Every requested call waits in the queue, is in flight under a timer, has been started or was
dropped. The queue and the calls in flight are part of the player; which calls were started and
dropped is known from the journal.

* `Stage.Conserved` — every ticket that was given out is at exactly one place.
* `Machine.Moves` — the moves that a call can make in a step.
* `Stage.Kept` — the invariant behind it: together the places hold the tickets that were given out,
  and timers are told apart.
* `Turn.arrives` — a turn brings a ticket to a new place only by a move.
* `calls_conserved` — in every run calls are conserved, and make no other moves.
-/

set_option autoImplicit false

namespace Walkthrough

/-- Every ticket that was given out is at exactly one place, and no place holds a ticket twice. -/
structure Stage.Conserved (s : Stage) : Prop where
  place : ∀ t < s.tickets, ∃! p, t ∈ s.ticketsAt p
  once : ∀ p, (s.ticketsAt p).Nodup
  given : ∀ p, ∀ t ∈ s.ticketsAt p, t < s.tickets

namespace Machine

/-- Whether a machine requests a call in its next step. -/
def requests (m : Machine) : Bool := m.frames.head?.any (·.isRequest)

/-- The moves of a ticket from one place to another in a step; one without a place is new. A started
call is what runs next. -/
inductive Moves (m m' : Machine) : Nat → Option Place → Place → Prop where
  /-- a call that is requested while the session does not play waits -/
  | deferred {label : String} {delay : Duration} {body next : Routine} {rest : List Frame} :
      m.frames = .run (.request label delay body next) :: rest → m.stage.status ≠ .playing →
      Moves m m' m.stage.tickets none .pending
  /-- a call that is requested while the session plays is launched -/
  | launched {label : String} {delay : Duration} {body next : Routine} {rest : List Frame} :
      m.frames = .run (.request label delay body next) :: rest → m.stage.status = .playing →
      (delay = 0 → m'.frames.head? = some (.run body)) →
      Moves m m' m.stage.tickets none (m.stage.landing delay)
  /-- a replay launches the call at the front of the queue, while the session plays -/
  | replayed {d : Deferred Call} {ds : List (Deferred Call)} {rest : List Frame} :
      m.frames = .replay :: rest → m.stage.status = .playing → m.stage.pending = d :: ds →
      (d.delay = 0 → m'.frames.head? = some (.run d.call.body)) →
      Moves m m' d.call.ticket (some .pending) (m.stage.landing d.delay)
  /-- a waiting call is given up where a session ends or begins -/
  | givenUp {d : Deferred Call} {c : Command} {a : Bool} :
      m.order? = some (c, a) → c = .stop ∨ c = .finish ∨ c = .play ∧ m.stage.status = .idle →
      d ∈ m.stage.pending → Moves m m' d.call.ticket (some .pending) .dropped
  /-- a call in flight is started when its timer is fired -/
  | fired {f : Frame} {rest : List Frame} {timer : Nat} {call : Call} :
      m.frames = f :: rest → f.fires? m.stage = some timer →
      (timer, call) ∈ m.stage.player.inFlight →
      m'.frames.head? = some (.run call.body) → Moves m m' call.ticket (some .inFlight) .started

end Machine

/-! ## The invariant -/

/-- The tickets of all places. -/
def Stage.allTickets (s : Stage) : List Nat :=
  s.ticketsAt .pending ++ (s.ticketsAt .inFlight ++ (s.ticketsAt .started ++ s.ticketsAt .dropped))

/-- Together the places hold the tickets that were given out, each once. Each call in flight has a
timer of its own. -/
structure Stage.Kept (s : Stage) : Prop where
  tickets : s.allTickets.Perm (List.range s.tickets)
  timers : (s.player.inFlight.map Prod.fst).Nodup
  timers_lt : ∀ p ∈ s.player.inFlight, p.1 < s.player.nextTimer

namespace Stage

theorem allTickets_command (c : Command) (s : Stage) :
    (s.command c).1.allTickets.Perm s.allTickets := by
  have hpending : (s.command c).1.ticketsAt .pending =
      if Effect.clears (Transition.of s.status c s.hasActions).effect then []
      else s.ticketsAt .pending := by
    simp only [ticketsAt, command_pending]
    split <;> rfl
  have hflight : (s.command c).1.ticketsAt .inFlight = s.ticketsAt .inFlight := by
    simp only [ticketsAt, (command_keeps c s).1]
  rw [allTickets, allTickets, hpending, hflight, command_started, command_dropped]
  refine List.perm_iff_count.2 fun t => ?_
  split
  · simp only [List.count_append, List.count_nil, List.count_reverse]
    omega
  · rfl

theorem Adds.allTickets {t : Nat} {place : Place} {s s' : Stage} (h : Adds t place s s') :
    s'.allTickets.Perm (t :: s.allTickets) := by
  refine List.perm_iff_count.2 fun u => ?_
  have h₁ := (h .pending).count_eq u
  have h₂ := (h .inFlight).count_eq u
  have h₃ := (h .started).count_eq u
  have h₄ := (h .dropped).count_eq u
  simp only [Stage.allTickets, List.count_append, List.count_cons]
  cases place <;> simp only [reduceCtorEq, ↓reduceIte, List.count_cons] at h₁ h₂ h₃ h₄ <;> omega

theorem Adds.mem {t u : Nat} {place p : Place} {s s' : Stage} (h : Adds t place s s')
    (hu : u ∈ s'.ticketsAt p) :
    u ∈ s.ticketsAt p ∨ u = t ∧ p = place := by
  have hm := (h p).mem_iff.1 hu
  split at hm
  · rename_i hp
    exact (List.mem_cons.1 hm).symm.imp_right fun hu => ⟨hu, hp⟩
  · exact .inl hm

theorem Adds.mono {t u : Nat} {place p : Place} {s s' : Stage} (h : Adds t place s s')
    (hu : u ∈ s.ticketsAt p) :
    u ∈ s'.ticketsAt p := by
  refine (h p).mem_iff.2 ?_
  split
  · exact List.mem_cons_of_mem _ hu
  · exact hu

theorem dequeue_adds {d : Deferred Call} {ds : List (Deferred Call)} {s : Stage}
    (h : s.pending = d :: ds) :
    Adds d.call.ticket .pending (s.dequeue d ds) s := by
  intro p
  cases p
  case pending => simp only [ticketsAt, h]; exact .refl _
  all_goals exact .refl _

/-- Looking a key up and leaving it out take an entry from a list whose keys are told apart. -/
theorem perm_cons_filter_of_lookup {α : Type} {k : Nat} {v : α} :
    ∀ {l : List (Nat × α)}, (l.map Prod.fst).Nodup → l.lookup k = some v →
      l.Perm ((k, v) :: l.filter fun p => p.1 ≠ k)
  | [], _, h => by cases h
  | (j, w) :: l, hn, h => by
      simp only [List.map_cons, List.nodup_cons] at hn
      by_cases hj : k = j
      · subst hj
        simp only [List.lookup_cons, beq_self_eq_true, Option.some.injEq] at h
        subst h
        have hl : l.filter (fun p => p.1 ≠ k) = l := by
          refine List.filter_eq_self.2 fun p hp => ?_
          simp only [ne_eq, decide_not, Bool.not_eq_eq_eq_not, Bool.not_true,
            decide_eq_false_iff_not]
          rintro rfl
          exact hn.1 (List.mem_map_of_mem hp)
        rw [List.filter_cons_of_neg (by simp), hl]
      · have hbeq : (k == j) = false := by simp [hj]
        simp only [List.lookup_cons, hbeq] at h
        have ih := perm_cons_filter_of_lookup hn.2 h
        rw [List.filter_cons_of_pos (by simp [Ne.symm hj])]
        exact (ih.cons _).trans (List.Perm.swap _ _ _)

/-- Takes a timer from the calls in flight. -/
def unfly (timer : Nat) (s : Stage) : Stage :=
  { s with player :=
    { s.player with inFlight := s.player.inFlight.filter fun (t, _) => t ≠ timer } }

theorem unfly_perm {s : Stage} {timer : Nat} {call : Call}
    (hn : (s.player.inFlight.map Prod.fst).Nodup) (h : s.player.inFlight.lookup timer = some call) :
    s.player.inFlight.Perm ((timer, call) :: (s.unfly timer).player.inFlight) :=
  perm_cons_filter_of_lookup hn h

theorem unfly_adds {s : Stage} {timer : Nat} {call : Call}
    (hn : (s.player.inFlight.map Prod.fst).Nodup) (h : s.player.inFlight.lookup timer = some call) :
    Adds call.ticket .inFlight (s.unfly timer) s := by
  intro p
  cases p
  case inFlight => exact (unfly_perm hn h).map _
  all_goals exact .refl _

theorem fire_adds {s : Stage} {timer : Nat} {call : Call}
    (h : s.player.inFlight.lookup timer = some call) :
    Adds call.ticket .started (s.unfly timer) (s.fire timer).1 := by
  rw [fire_eq h]
  intro p
  cases p <;> exact .refl _

/-! ## What keeps the invariant -/

theorem Kept.congr {s s' : Stage} (h : s.Kept) (hs : SameSession s s') : s'.Kept := by
  refine ⟨?_, ?_, ?_⟩
  · rw [allTickets, hs.ticketsAt, hs.ticketsAt, hs.ticketsAt, hs.ticketsAt, hs.tickets]
    exact h.tickets
  · rw [hs.inFlight]
    exact h.timers
  · rw [hs.inFlight, hs.nextTimer]
    exact h.timers_lt

theorem Kept.command {s : Stage} (h : s.Kept) (c : Command) : (s.command c).1.Kept := by
  obtain ⟨hf, hn, ht⟩ := command_keeps c s
  refine ⟨?_, ?_, ?_⟩
  · rw [ht]
    exact (allTickets_command c s).trans h.tickets
  · rw [hf]
    exact h.timers
  · rw [hf, hn]
    exact h.timers_lt

/-- The timers stay apart when a call is launched: its timer is new. -/
theorem launch_timers (d : Deferred Call) {s : Stage} (hn : (s.player.inFlight.map Prod.fst).Nodup)
    (hl : ∀ p ∈ s.player.inFlight, p.1 < s.player.nextTimer) :
    ((s.launch d).1.player.inFlight.map Prod.fst).Nodup ∧
      ∀ p ∈ (s.launch d).1.player.inFlight, p.1 < (s.launch d).1.player.nextTimer := by
  rcases launch_inFlight d s with ⟨hf, ht⟩ | ⟨hf, ht⟩
  · rw [hf, ht]
    exact ⟨hn, hl⟩
  · rw [hf, ht]
    refine ⟨?_, ?_⟩
    · rw [List.map_append, List.nodup_append]
      refine ⟨hn, by simp, ?_⟩
      rintro a ha b hb rfl
      obtain ⟨p, hp, rfl⟩ := List.mem_map.1 ha
      simp only [List.map_cons, List.map_nil, List.mem_singleton] at hb
      have := hl p hp
      omega
    · intro p hp
      rcases List.mem_append.1 hp with hp | hp
      · have := hl p hp
        omega
      · simp only [List.mem_singleton] at hp
        subst hp
        exact Nat.lt_succ_self _

theorem range_succ_perm (n : Nat) : (n :: List.range n).Perm (List.range (n + 1)) := by
  rw [List.range_succ]
  exact (List.perm_append_singleton _ _).symm

theorem Kept.request {s : Stage} (h : s.Kept) (label : String) (delay : Duration) (body : Routine) :
    (s.request label delay body).1.Kept := by
  have htickets := (request_session label delay body s).2.1
  by_cases hs : s.status = .playing
  · rw [request_playing hs] at htickets ⊢
    obtain ⟨hn, hl⟩ :=
      launch_timers (s.asked label delay body) (s := s.ticketed delay) h.timers h.timers_lt
    refine ⟨?_, hn, hl⟩
    rw [htickets]
    exact ((launch_adds _ (s.ticketed delay)).allTickets.trans (h.tickets.cons _)).trans
      (range_succ_perm _)
  · refine ⟨?_, ?_, ?_⟩
    · rw [htickets]
      exact ((request_adds hs label delay body).allTickets.trans (h.tickets.cons _)).trans
        (range_succ_perm _)
    · rw [request_deferred hs]
      exact h.timers
    · rw [request_deferred hs]
      exact h.timers_lt

theorem Kept.replay {d : Deferred Call} {ds : List (Deferred Call)} {s : Stage} (h : s.Kept)
    (hp : s.pending = d :: ds) :
    ((s.dequeue d ds).launch d).1.Kept := by
  obtain ⟨_, _, htickets, _⟩ := launch_session d (s.dequeue d ds)
  obtain ⟨hn, hl⟩ := launch_timers d (s := s.dequeue d ds) h.timers h.timers_lt
  refine ⟨?_, hn, hl⟩
  rw [htickets]
  exact ((launch_adds d _).allTickets.trans (dequeue_adds hp).allTickets.symm).trans h.tickets

theorem Kept.fire {s : Stage} {timer : Nat} {call : Call} (h : s.Kept)
    (hc : s.player.inFlight.lookup timer = some call) :
    (s.fire timer).1.Kept := by
  have hadds := (fire_adds hc).allTickets.trans (unfly_adds h.timers hc).allTickets.symm
  rw [fire_eq hc] at hadds ⊢
  have hsub : (s.unfly timer).player.inFlight.Sublist s.player.inFlight := List.filter_sublist
  refine ⟨hadds.trans h.tickets, h.timers.sublist (hsub.map _), ?_⟩
  intro p hp
  exact h.timers_lt p (hsub.subset hp)

end Stage

theorem Turn.kept {f : Frame} {s s' : Stage} {fs : List Frame} (h : Turn f s s' fs) (hk : s.Kept) :
    s'.Kept := by
  cases h with
  | aside ha _ _ _ => exact hk.congr ha.sameSession
  | commanded _ ha _ => exact (hk.congr ha.sameSession).command _
  | requested label delay body next => exact hk.request label delay body
  | replayed _ hp => exact hk.replay hp
  | drained _ => exact hk
  | fired _ ha hc _ _ => exact (hk.congr ha.sameSession).fire hc

theorem Machine.Run.kept {past : List Machine} {m : Machine} (h : Run past m) : m.stage.Kept := by
  refine h.stage_induction ?_ ?_
  · intro config surface timers routines
    exact ⟨.refl _, .nil, nofun⟩
  · intro f s s' fs ht hk
    exact ht.kept hk

theorem Stage.mem_allTickets {s : Stage} {t : Nat} : t ∈ s.allTickets ↔ ∃ p, t ∈ s.ticketsAt p := by
  simp only [allTickets, List.mem_append]
  constructor
  · rintro (h | h | h | h)
    · exact ⟨.pending, h⟩
    · exact ⟨.inFlight, h⟩
    · exact ⟨.started, h⟩
    · exact ⟨.dropped, h⟩
  · rintro ⟨p, h⟩
    cases p
    · exact .inl h
    · exact .inr (.inl h)
    · exact .inr (.inr (.inl h))
    · exact .inr (.inr (.inr h))

/-- No ticket is at two places. -/
theorem Stage.Kept.place_unique {s : Stage} (h : s.Kept) {t : Nat} {p q : Place}
    (hp : t ∈ s.ticketsAt p) (hq : t ∈ s.ticketsAt q) : p = q := by
  have hone : s.allTickets.count t ≤ 1 :=
    List.nodup_iff_count.1 (h.tickets.nodup_iff.2 List.nodup_range) t
  simp only [allTickets, List.count_append] at hone
  have hp := List.count_pos_iff.2 hp
  have hq := List.count_pos_iff.2 hq
  cases p <;> cases q <;> first | rfl | omega

/-- Kept calls are conserved. -/
theorem Stage.Kept.conserved {s : Stage} (h : s.Kept) : s.Conserved := by
  have hnodup : s.allTickets.Nodup := h.tickets.nodup_iff.2 List.nodup_range
  have hmem (t : Nat) : t ∈ s.allTickets ↔ t < s.tickets := h.tickets.mem_iff.trans List.mem_range
  constructor
  · intro t ht
    obtain ⟨p, hp⟩ := mem_allTickets.1 ((hmem t).2 ht)
    exact ⟨p, hp, fun q hq => h.place_unique hq hp⟩
  · intro p
    rw [allTickets, List.nodup_append, List.nodup_append, List.nodup_append] at hnodup
    obtain ⟨hpending, ⟨hflight, ⟨hstarted, hdropped, _⟩, _⟩, _⟩ := hnodup
    cases p
    · exact hpending
    · exact hflight
    · exact hstarted
    · exact hdropped
  · intro p t ht
    exact (hmem t).1 (mem_allTickets.2 ⟨p, ht⟩)

/-! ## The moves -/

/-- The deferred calls are given up where a session ends or begins. -/
theorem Transition.clears_of {status : Status} {c : Command} {a : Bool}
    (h : Effect.clears (Transition.of status c a).effect = true) :
    c = .stop ∨ c = .finish ∨ c = .play ∧ status = .idle := by
  cases status <;> cases c <;> cases a <;> simp [Transition.of, Effect.clears] at h ⊢

theorem Transition.resume_of {status : Status} {c : Command} {a : Bool}
    (h : (Transition.of status c a).effect = some .resume) : c = .play ∧ status = .paused := by
  cases status <;> cases c <;> cases a <;> simp [Transition.of] at h ⊢

namespace Machine

variable {m m' : Machine}

/-- A ticket that moves was where it comes from. -/
theorem Moves.mem {t : Nat} {p p' : Place} (h : Moves m m' t (some p) p') :
    t ∈ m.stage.ticketsAt p := by
  cases h with
  | replayed _ _ hp _ => simp [Stage.ticketsAt, hp]
  | givenUp _ _ hd => exact List.mem_map_of_mem hd
  | fired _ _ hc _ => exact List.mem_map.2 ⟨_, hc, rfl⟩

/-- A new ticket is the one that is given out next. -/
theorem Moves.new {t : Nat} {p' : Place} (h : Moves m m' t none p') : t = m.stage.tickets := by
  cases h with
  | deferred _ _ => rfl
  | launched _ _ _ => rfl

/-- Calls move only while they wait or are in flight. -/
theorem Moves.not_final {t : Nat} {p p' : Place} (h : Moves m m' t (some p) p') :
    p ≠ .started ∧ p ≠ .dropped := by
  cases h with
  | replayed _ _ _ _ => exact ⟨nofun, nofun⟩
  | givenUp _ _ _ => exact ⟨nofun, nofun⟩
  | fired _ _ _ _ => exact ⟨nofun, nofun⟩

end Machine

open Machine

namespace Stage

/-- A launched call runs next if it has no delay. -/
theorem launch_head (d : Deferred Call) (s : Stage) (fs : List Frame) (h : d.delay = 0) :
    ((s.launch d).2 ++ fs).head? = some (.run d.call.body) := by
  rw [launch_frames, if_pos h]
  rfl

/-- A command brings calls to no place but that of the dropped ones. -/
theorem command_arrives {c : Command} {s : Stage} {t : Nat} {p : Place}
    (ht : t ∈ (s.command c).1.ticketsAt p) :
    t ∈ s.ticketsAt p ∨
      p = .dropped ∧ Effect.clears (Transition.of s.status c s.hasActions).effect = true ∧
        t ∈ s.ticketsAt .pending := by
  cases p with
  | pending =>
      simp only [ticketsAt, command_pending] at ht
      split at ht
      · cases ht
      · exact .inl ht
  | inFlight =>
      simp only [ticketsAt, (command_keeps c s).1] at ht
      exact .inl ht
  | started =>
      rw [command_started] at ht
      exact .inl ht
  | dropped =>
      rw [command_dropped] at ht
      split at ht
      · rename_i hc
        rcases List.mem_append.1 ht with ht | ht
        · exact .inr ⟨rfl, hc, List.mem_reverse.1 ht⟩
        · exact .inl ht
      · exact .inl ht

end Stage

/-- **A turn brings a ticket to a new place only by a move.** -/
theorem Turn.arrives {f : Frame} {s s' : Stage} {fs : List Frame} (h : Turn f s s' fs)
    (hk : s.Kept) (rest : List Frame) {t : Nat} {p : Place} (ht : t ∈ s'.ticketsAt p) :
    t ∈ s.ticketsAt p ∨ ∃ q, Moves ⟨s, f :: rest⟩ ⟨s', fs ++ rest⟩ t q p := by
  cases h with
  | aside ha _ _ _ =>
      rw [ha.sameSession.ticketsAt] at ht
      exact .inl ht
  | commanded ho ha hd =>
      have hsame := ha.sameSession
      rcases Stage.command_arrives ht with ht | ⟨rfl, hc, ht⟩
      · rw [hsame.ticketsAt] at ht
        exact .inl ht
      · rw [hsame.status] at hc
        simp only [Stage.ticketsAt, hsame.pending] at ht
        obtain ⟨d, hd', rfl⟩ := List.mem_map.1 ht
        refine .inr ⟨some .pending, .givenUp (a := s.hasActions) ?_ (Transition.clears_of hc) hd'⟩
        rw [order?, List.head?_cons, Option.bind_some, Frame.orderWith?, Frame.order?, ho]
        rfl
  | requested label delay body next =>
      by_cases hs : s.status = .playing
      · rw [Stage.request_playing hs] at ht ⊢
        rcases (Stage.launch_adds _ _).mem ht with ht | ⟨rfl, rfl⟩
        · exact .inl (by cases p <;> exact ht)
        · refine .inr ⟨none, .launched rfl hs fun hd => ?_⟩
          rw [List.append_assoc]
          exact Stage.launch_head (s.asked label delay body) (s.ticketed delay) _ hd
      · rcases (Stage.request_adds hs label delay body).mem ht with ht | ⟨rfl, rfl⟩
        · exact .inl ht
        · exact .inr ⟨none, .deferred rfl hs⟩
  | @replayed d ds _ hs hp =>
      rcases (Stage.launch_adds _ _).mem ht with ht | ⟨rfl, rfl⟩
      · exact .inl ((Stage.dequeue_adds hp).mono ht)
      · refine .inr ⟨some .pending, .replayed rfl hs hp fun hd => ?_⟩
        rw [List.append_assoc]
        exact Stage.launch_head d (s.dequeue d ds) _ hd
  | drained _ => exact .inl ht
  | @fired _ timer call _ s₀ _ hf ha hc _ _ =>
      have hsame := ha.sameSession
      have hk := hk.congr hsame
      rcases (Stage.fire_adds hc).mem ht with ht | ⟨rfl, rfl⟩
      · left
        rw [← hsame.ticketsAt]
        exact (Stage.unfly_adds hk.timers hc).mono ht
      · have hmem : (timer, call) ∈ s.player.inFlight := by
          rw [← hsame.inFlight]
          exact (Stage.unfly_perm hk.timers hc).mem_iff.2 List.mem_cons_self
        refine .inr ⟨some .inFlight, .fired rfl hf hmem ?_⟩
        rw [Stage.fire_eq hc]
        rfl

/-- A replay begins only where a paused session goes on. -/
theorem Turn.replays {f : Frame} {s s' : Stage} {fs : List Frame} (h : Turn f s s' fs) :
    fs.countP (·.isReplay) ≤ [f].countP (·.isReplay) ∨
      f.order? s = some .play ∧ s.status = .paused := by
  have hnone {gs : List Frame} (hr : (f :: gs).all (! ·.isReplay)) :
      gs.countP (·.isReplay) = 0 := by
    refine List.countP_eq_zero.2 fun g hg => ?_
    have := List.all_eq_true.1 hr g (List.mem_cons_of_mem _ hg)
    simpa using this
  cases h with
  | aside _ _ _ hr =>
      rw [hnone hr]
      exact .inl (Nat.zero_le _)
  | @commanded op next reply c _ s₀ ho ha hd =>
      by_cases he : (Transition.of s₀.status c s₀.hasActions).effect = some .resume
      · obtain ⟨rfl, hs⟩ := Transition.resume_of he
        exact .inr ⟨ho, ha.sameSession.status.symm.trans hs⟩
      · left
        rw [Stage.command_frames]
        split
        · rename_i h
          exact absurd h he
        · exact Nat.zero_le _
        · exact Nat.zero_le _
  | requested label delay body next =>
      left
      by_cases hs : s.status = .playing
      · rw [Stage.request_playing hs, Stage.launch_frames]
        split <;> exact Nat.zero_le _
      · rw [Stage.request_deferred hs]
        exact Nat.zero_le _
  | replayed _ _ =>
      left
      rw [Stage.launch_frames]
      split <;> exact Nat.le_refl _
  | drained _ => exact .inl (Nat.zero_le _)
  | fired _ _ hc _ hr =>
      left
      rw [Stage.fire_eq hc, List.countP_append, hnone hr]
      exact Nat.zero_le _

/-- A turn gives out a ticket exactly where a call is requested. -/
theorem Turn.tickets {f : Frame} {s s' : Stage} {fs : List Frame} (h : Turn f s s' fs) :
    s'.tickets = s.tickets + if f.isRequest then 1 else 0 := by
  cases h with
  | aside ha _ hn _ =>
      rw [hn]
      exact ha.sameSession.tickets
  | commanded _ ha _ =>
      rw [(Stage.command_keeps _ _).2.2]
      exact ha.sameSession.tickets
  | requested label delay body next => exact (Stage.request_session label delay body s).2.1
  | @replayed d ds _ _ _ => exact (Stage.launch_session d (s.dequeue d ds)).2.2.1
  | drained _ => rfl
  | fired hf ha hc _ _ =>
      rw [Stage.fire_eq hc, Frame.isRequest_of_fires? hf]
      exact ha.sameSession.tickets

section

variable {f : Frame} {s s' : Stage} {fs : List Frame} {t : Nat} {p p' : Place}

/-- A ticket stays at its place or makes a move. -/
theorem Turn.moves (h : Turn f s s' fs) (hk : s.Kept) (rest : List Frame) (hp : t ∈ s.ticketsAt p)
    (hp' : t ∈ s'.ticketsAt p') :
    p' = p ∨ Moves ⟨s, f :: rest⟩ ⟨s', fs ++ rest⟩ t (some p) p' := by
  rcases h.arrives hk rest hp' with hold | ⟨q, hmove⟩
  · exact .inl (hk.place_unique hold hp)
  · right
    cases q with
    | none =>
        have hlt := hk.conserved.given p t hp
        rw [hmove.new] at hlt
        exact absurd hlt (Nat.lt_irrefl _)
    | some q =>
        rw [hk.place_unique hp hmove.mem]
        exact hmove

/-- A ticket that was not given out before comes by a move. -/
theorem Turn.moves_new (h : Turn f s s' fs) (hk : s.Kept) (rest : List Frame) (ht : s.tickets ≤ t)
    (hp' : t ∈ s'.ticketsAt p') : Moves ⟨s, f :: rest⟩ ⟨s', fs ++ rest⟩ t none p' := by
  rcases h.arrives hk rest hp' with hold | ⟨q, hmove⟩
  · exact absurd (hk.conserved.given p' t hold) (Nat.not_lt.2 ht)
  · cases q with
    | none => exact hmove
    | some q => exact absurd (hk.conserved.given q t hmove.mem) (Nat.not_lt.2 ht)

/-- Started calls stay started, and dropped ones dropped. -/
theorem Turn.stays (h : Turn f s s' fs) (hk : s.Kept) (hfinal : p = .started ∨ p = .dropped)
    (hp : t ∈ s.ticketsAt p) : t ∈ s'.ticketsAt p := by
  have hlt : t < s'.tickets := by
    have hlt := hk.conserved.given p t hp
    rw [h.tickets]
    omega
  obtain ⟨p', hp', _⟩ := (h.kept hk).conserved.place t hlt
  rcases h.moves hk [] hp hp' with rfl | hmove
  · exact hp'
  · obtain ⟨hs, hd⟩ := hmove.not_final
    exact absurd hfinal (not_or.2 ⟨hs, hd⟩)

end

namespace Machine

theorem Run.tickets {past : List Machine} {m : Machine} (h : Run past m) :
    past.countP requests = m.stage.tickets := by
  induction h with
  | new h =>
      cases Stage.eq_of_new h
      rfl
  | host r _ ih => exact ih
  | user text _ ih => exact ih
  | @step past m m' _ hm ih =>
      obtain ⟨f, rest, fs, hf, _, ht⟩ := step_turn hm
      rw [List.countP_append, ih, ht.tickets, List.countP_singleton]
      simp only [requests, hf, List.head?_cons, Option.any_some]

/-- **Calls are conserved.** In every run, at every moment, each ticket that was given out — one for
each request — is waiting, in flight, started or dropped, and only one of them. From one moment to
the next a ticket stays where it is or makes one of the moves of `Moves`, none of which leads away
from the started and the dropped ones; and replays, in which waiting calls are launched, begin only
where a paused session goes on. -/
theorem calls_conserved {past : List Machine} {m : Machine} (h : Run past m) :
    m.stage.Conserved ∧ past.countP requests = m.stage.tickets ∧
      ∀ m', m.step = some m' →
        (∀ t p p', t ∈ m.stage.ticketsAt p → t ∈ m'.stage.ticketsAt p' →
          p' = p ∨ Moves m m' t (some p) p') ∧
        (∀ t p', m.stage.tickets ≤ t → t ∈ m'.stage.ticketsAt p' → Moves m m' t none p') ∧
        (∀ t p, p = .started ∨ p = .dropped → t ∈ m.stage.ticketsAt p →
          t ∈ m'.stage.ticketsAt p) ∧
        (m.frames.countP (·.isReplay) < m'.frames.countP (·.isReplay) →
          ∃ a, m.order? = some (.play, a) ∧ m.stage.status = .paused) := by
  have hk := h.kept
  refine ⟨hk.conserved, h.tickets, ?_⟩
  intro m' hm
  obtain ⟨f, rest, fs, hf, hf', ht⟩ := step_turn hm
  obtain ⟨s, gs⟩ := m
  obtain ⟨s', gs'⟩ := m'
  simp only at hf hf' ht hk ⊢
  subst hf hf'
  refine ⟨?_, ?_, ?_, ?_⟩
  · intro t p p' hp hp'
    exact ht.moves hk rest hp hp'
  · intro t p' hge hp'
    exact ht.moves_new hk rest hge hp'
  · intro t p hfinal hp
    exact ht.stays hk hfinal hp
  · intro hlt
    rw [List.countP_append, List.countP_cons] at hlt
    rcases ht.replays with hle | ⟨ho, hpaused⟩
    · rw [List.countP_singleton] at hle
      omega
    · refine ⟨s.hasActions, ?_, hpaused⟩
      rw [order?, List.head?_cons, Option.bind_some, Frame.orderWith?, ho]
      rfl

/-- Three calls of the rehearsal: the first two wait while the session is paused, and the play that
replays them begins the replay; the first one is started, defers the third, and with its own play
brings the second one in flight. -/
theorem rehearsal_conserved :
    (rehearsed 8).order? = some (.play, true) ∧
      Moves (rehearsed 9) (rehearsed 10) 0 (some .pending) .started ∧
      Moves (rehearsed 12) (rehearsed 13) 2 none .pending ∧
      Moves (rehearsed 14) (rehearsed 15) 1 (some .pending) .inFlight ∧
      (rehearsed 15).stage.Conserved ∧ (rehearsed 15).stage.tickets = 3 := by
  have hmoves (n : Nat) (m' : Machine) (hm : (rehearsed n).step = some m') :=
    let ⟨_, hr⟩ := rehearsed_run n
    (calls_conserved hr).2.2 m' hm
  obtain ⟨_, hr⟩ := rehearsed_run 15
  obtain ⟨a, ho, _⟩ := (hmoves 8 (rehearsed 9) rfl).2.2.2 (by decide)
  refine ⟨?_, ?_, ?_, ?_, (calls_conserved hr).1, rfl⟩
  · cases a
    · cases ho
    · exact ho
  · have hmove := (hmoves 9 (rehearsed 10) rfl).1 0 .pending .started (by decide) (by decide)
    exact hmove.resolve_left (by decide)
  · exact (hmoves 12 (rehearsed 13) rfl).2.1 2 .pending (by decide) (by decide)
  · have hmove := (hmoves 14 (rehearsed 15) rfl).1 1 .pending .inFlight (by decide) (by decide)
    exact hmove.resolve_left (by decide)

end Machine

end Walkthrough
