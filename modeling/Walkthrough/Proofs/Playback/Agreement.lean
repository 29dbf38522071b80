import Walkthrough.Proofs.Playback.Timing

/-!
# The player and the clock agree

The player holds a call under each timer that it has scheduled, and the clock holds the timers. As
long as nobody else schedules timers, the timers in the clock's queue are told apart by their
numbers, and every call in flight has its timer there. As long as nobody but the clock fires them,
every timer in the queue has its call.

* `Clock.ids`, `Player.keys` — the timers that the clock and the player know.
* `Frame.schedules`, `Frame.fires` — the operations that go past the player or the clock.
* `Stage.Agreed`, `Stage.Held` — how the two belong together; `TimerTurn.agreed`, `TimerTurn.held`:
  what a step keeps.
* `Machine.woken` — the calls that timers start.
* `timers_agree` — both hold throughout a run, so the clock fires no unknown timer, and its reply is
  the number of the calls that it started.
-/

set_option autoImplicit false

namespace Walkthrough

/-- The timers in the queue. -/
def Clock.ids (c : Clock) : List Nat := c.queue.map Timer.id

/-- The timers under which calls are in flight. -/
def Player.keys (p : Player) : List Nat := p.inFlight.map Prod.fst

namespace Frame

/-- Whether a frame schedules a timer by itself. -/
def schedules : Frame → Bool
  | .run (.perform (.schedule ..) _) => true
  | _ => false

/-- Whether a frame fires a timer by itself. -/
def fires : Frame → Bool
  | .run (.perform (.fire _) _) => true
  | _ => false

end Frame

namespace Clock

variable {c c' : Clock} {t : Timer} {target : Duration}

theorem ids_schedule (id : Nat) (delay : Duration) (c : Clock) :
    (c.schedule id delay).ids.Perm (id :: c.ids) := (schedule_perm id delay c).map _

theorem ids_popDue? (h : c.popDue? target = some (t, c')) : c.ids = t.id :: c'.ids := by
  obtain ⟨q, hq, _, rfl⟩ := popDue?_eq_some_iff.1 h
  rw [ids, hq]
  rfl

end Clock

namespace Stage

/-- The timers in the queue are told apart by numbers that the player has given out, and those of
the calls in flight are among them. -/
structure Agreed (s : Stage) : Prop where
  nodup : s.clock.ids.Nodup
  fresh : ∀ id ∈ s.clock.ids, id < s.player.nextTimer
  known : s.player.keys ⊆ s.clock.ids

/-- Under every timer in the queue a call is in flight. -/
def Held (s : Stage) : Prop := s.clock.ids ⊆ s.player.keys

theorem Held.call {s : Stage} {id : Nat} (h : s.Held) (hid : id ∈ s.clock.ids) :
    ∃ call, s.player.inFlight.lookup id = some call := by
  obtain ⟨p, hp, rfl⟩ := List.mem_map.1 (h hid)
  cases hcall : s.player.inFlight.lookup p.1 with
  | some call => exact ⟨call, rfl⟩
  | none => simpa using List.lookup_eq_none_iff.1 hcall p hp

end Stage

/-! ## Turns of the timers -/

section

variable {f : Frame} {s s' : Stage} {es : List Event}

theorem mem_keys_of_filter {id timer : Nat}
    (h : s'.player.inFlight = s.player.inFlight.filter fun p => p.1 ≠ timer) :
    id ∈ s'.player.keys ↔ id ∈ s.player.keys ∧ id ≠ timer := by
  simp only [Player.keys, h, List.mem_map, List.mem_filter, decide_eq_true_eq]
  constructor
  · rintro ⟨p, ⟨hp, hne⟩, rfl⟩
    exact ⟨⟨p, hp, rfl⟩, hne⟩
  · rintro ⟨⟨p, hp, rfl⟩, hne⟩
    exact ⟨p, ⟨hp, hne⟩, rfl⟩

theorem TimerTurn.agreed (h : TimerTurn f s s' es) (hf : f.schedules = false) (hs : s.Agreed) :
    s'.Agreed := by
  cases h with
  | kept h =>
      refine ⟨?_, ?_, ?_⟩
      · rw [h.clock]
        exact hs.nodup
      · rw [h.clock, h.nextTimer]
        exact hs.fresh
      · rw [Player.keys, h.inFlight, h.clock]
        exact hs.known
  | @launched d _ _ hclock hflight hnext =>
      have hids := Clock.ids_schedule s.player.nextTimer d.delay s.clock
      rw [← hclock] at hids
      refine ⟨?_, ?_, ?_⟩
      · -- the next number is above all that are in the queue
        rw [hids.nodup_iff, List.nodup_cons]
        exact ⟨fun hmem => Nat.lt_irrefl _ (hs.fresh _ hmem), hs.nodup⟩
      · intro id hid
        rw [hnext]
        rcases List.mem_cons.1 (hids.mem_iff.1 hid) with rfl | hid
        · exact Nat.lt_succ_self _
        · exact Nat.lt_succ_of_lt (hs.fresh id hid)
      · intro id hid
        rw [Player.keys, hflight, List.map_append, List.mem_append] at hid
        rcases hid with hid | hid
        · exact hids.mem_iff.2 (List.mem_cons_of_mem _ (hs.known hid))
        · rw [List.mem_singleton.1 hid]
          exact hids.mem_iff.2 List.mem_cons_self
  | scheduled hframe _ _ _ =>
      rw [hframe] at hf
      cases hf
  | fired _ hclock hflight hnext =>
      refine ⟨?_, ?_, ?_⟩
      · rw [hclock]
        exact hs.nodup
      · rw [hclock, hnext]
        exact hs.fresh
      · intro id hid
        rw [hclock]
        exact hs.known ((mem_keys_of_filter hflight).1 hid).1
  | elapsed _ hpop hflight hnext =>
      have hids := Clock.ids_popDue? hpop
      have hnodup := hs.nodup
      rw [hids, List.nodup_cons] at hnodup
      refine ⟨hnodup.2, ?_, ?_⟩
      · intro id hid
        rw [hnext]
        exact hs.fresh id (by rw [hids]; exact List.mem_cons_of_mem _ hid)
      · intro id hid
        obtain ⟨hid, hne⟩ := (mem_keys_of_filter hflight).1 hid
        have hmem := hs.known hid
        rw [hids] at hmem
        exact (List.mem_cons.1 hmem).resolve_left hne
  | reached _ _ hstage =>
      rw [hstage]
      exact ⟨hs.nodup, hs.fresh, hs.known⟩

theorem TimerTurn.held (h : TimerTurn f s s' es) (hschedules : f.schedules = false)
    (hfires : f.fires = false) (hs : s.Agreed) (hheld : s.Held) : s'.Held := by
  cases h with
  | kept h =>
      rw [Stage.Held, Player.keys, h.clock, h.inFlight]
      exact hheld
  | @launched d _ _ hclock hflight _ =>
      intro id hid
      rw [hclock] at hid
      rw [Player.keys, hflight, List.map_append, List.mem_append]
      rcases List.mem_cons.1 ((Clock.ids_schedule _ _ _).mem_iff.1 hid) with rfl | hid
      · exact .inr (List.mem_singleton_self _)
      · exact .inl (hheld hid)
  | scheduled hframe _ _ _ =>
      rw [hframe] at hschedules
      cases hschedules
  | fired hframe _ _ _ =>
      rw [hframe] at hfires
      cases hfires
  | elapsed _ hpop hflight _ =>
      have hids := Clock.ids_popDue? hpop
      have hnodup := hs.nodup
      rw [hids, List.nodup_cons] at hnodup
      intro id hid
      refine (mem_keys_of_filter hflight).2 ⟨hheld ?_, ?_⟩
      · rw [hids]
        exact List.mem_cons_of_mem _ hid
      · -- no timer that is left has the number of the one that came out
        rintro rfl
        exact hnodup.1 hid
  | reached _ _ hstage =>
      rw [hstage]
      exact hheld

end

namespace Machine

/-- Machines in whose next steps no frame takes its turn for which `p` holds. -/
def Never (p : Frame → Bool) (ms : List Machine) : Prop :=
  ∀ x ∈ ms, ∀ f ∈ x.frames.head?, p f = false

instance (p : Frame → Bool) (ms : List Machine) : Decidable (Never p ms) :=
  inferInstanceAs (Decidable (∀ x ∈ ms, ∀ f ∈ x.frames.head?, p f = false))

theorem never_concat {p : Frame → Bool} {ms : List Machine} {m : Machine}
    (h : Never p (ms ++ [m])) : Never p ms ∧ ∀ f ∈ m.frames.head?, p f = false :=
  ⟨fun x hx => h x (List.mem_append_left _ hx), h m (by simp)⟩

variable {past before inside : List Machine} {m m' c : Machine} {target time : Duration}
  {fired : Nat} {next next' : Reply → Routine} {reply : Reply} {rest : List Frame} {t : Timer}
  {clock c₀ : Clock} {xs ys : List Timer}

/-- In a run in which nobody but the player schedules timers, the player and the clock agree. -/
theorem Run.agreed (h : Run past m) (hschedules : Never Frame.schedules past) :
    m.stage.Agreed := by
  induction h with
  | new h =>
      cases Stage.eq_of_new h
      exact ⟨List.nodup_nil, nofun, List.nil_subset _⟩
  | host r _ ih => exact ih hschedules
  | user text _ ih =>
      have hs := ih hschedules
      exact ⟨hs.nodup, hs.fresh, hs.known⟩
  | step _ hm ih =>
      obtain ⟨f, _, _, hframes, _, hturn⟩ := step_timers hm
      obtain ⟨hpast, hhead⟩ := never_concat hschedules
      exact hturn.agreed (hhead f (by rw [hframes]; rfl)) (ih hpast)

/-- If moreover nobody but the clock fires them, every timer in the queue has its call. -/
theorem Run.held (h : Run past m) (hschedules : Never Frame.schedules past)
    (hfires : Never Frame.fires past) : m.stage.Held := by
  induction h with
  | new h =>
      cases Stage.eq_of_new h
      exact List.nil_subset _
  | host r _ ih => exact ih hschedules hfires
  | user text _ ih => exact ih hschedules hfires
  | @step past m m' hrun hm ih =>
      obtain ⟨f, _, _, hframes, _, hturn⟩ := step_timers hm
      have hmem : f ∈ m.frames.head? := by
        rw [hframes]
        rfl
      obtain ⟨hschedules, hhead⟩ := never_concat hschedules
      obtain ⟨hfires, hhead'⟩ := never_concat hfires
      exact hturn.held (hhead f hmem) (hhead' f hmem) (hrun.agreed hschedules)
        (ih hschedules hfires)

/-! ## The calls that timers start -/

/-- The calls that are started by a timer in the next step of a machine. -/
def wakes (m : Machine) : List Nat :=
  if (m.frames.head?.bind (Frame.fires? m.stage)).isSome then m.events.filterMap Event.started?
  else []

/-- The calls that are started by timers in the next steps of machines, one after the other. -/
def woken (ms : List Machine) : List Nat := ms.flatMap wakes

/-- Where a timer comes out, the call in flight under it starts, and the clock waits for it. -/
theorem step_starts {call : Call} (hframes : m.frames = .clock target fired next :: rest)
    (hpop : m.stage.clock.popDue? target = some (t, clock))
    (hcall : m.stage.player.inFlight.lookup t.id = some call) :
    (∃ m', m.step = some m' ∧
      m'.frames = .run call.body :: .clock target (fired + 1) next :: rest) ∧
      m.events = [.elapsed t.seq t.id clock.now, .started call.ticket call.label] := by
  have hfire : (m.stage.tick t clock).fire t.id = _ := Stage.fire_eq hcall
  have hstep : m.step = some (follow ((m.stage.tick t clock).fire t.id)
      (.clock target (fired + 1) next :: rest)) := by
    simp only [step, hframes, stepClock, hpop]
    rfl
  rw [hfire] at hstep
  exact ⟨⟨_, hstep, rfl⟩, events_eq hstep rfl⟩

/-- Where every timer has its call and none is fired by itself, each timer that comes out starts a
call, and no other call is started by a timer. -/
theorem step_wakes (hm : m.step = some m') (hheld : m.stage.Held)
    (hfires : ∀ f ∈ m.frames.head?, f.fires = false) :
    m.wakes.length = (m.events.filterMap Event.popped?).length := by
  obtain ⟨f, rest, es, hframes, hes, hturn⟩ := step_timers hm
  have hhead : m.frames.head? = some f := by
    rw [hframes]
    rfl
  rw [wakes, hhead, Option.bind_some]
  cases hf : f.fires? m.stage with
  | none =>
      have hpopped : m.events.filterMap Event.popped? = [] := by
        have hnone (e : Event) (he : (!e.isTiming) = true) : e.popped? = none :=
          e.popped?_eq_none (e.isTimeless_of_not_isTiming he)
        rw [← Event.filterMap_timing hnone, hes]
        cases hturn with
        | kept _ => rfl
        | launched _ _ _ _ _ => rfl
        | scheduled _ _ _ _ => rfl
        | fired _ _ _ _ => rfl
        | elapsed hframe hpop _ _ =>
            rw [hframe, Frame.fires?, hpop] at hf
            cases hf
        | reached _ _ _ => rfl
      rw [hpopped]
      rfl
  | some timer =>
      rw [Option.isSome_some, if_pos rfl]
      unfold Frame.fires? at hf
      split at hf
      · cases hfires _ hhead
      · rename_i target fired next
        obtain ⟨⟨t, clock⟩, hpop, rfl⟩ := Option.map_eq_some_iff.1 hf
        obtain ⟨call, hcall⟩ := hheld.call (by
          rw [Clock.ids_popDue? hpop]
          exact List.mem_cons_self)
        rw [(step_starts hframes hpop hcall).2]
        rfl
      · cases hf

/-- The reply of the clock is the number of the timers that came out. -/
theorem Underway.count (h : Underway target next rest c₀ xs ys m)
    (hframes : m.frames = .answer reply next' :: rest) : reply = .count ys.length := by
  cases h with
  | firing hframes' _ _ =>
      -- the frame that fires is still there, so this is no reply above `rest`
      rw [hframes'] at hframes
      cases (top_eq hframes).2
  | reached hframes' _ _ _ =>
      rw [hframes'] at hframes
      cases hframes
      rfl

/-- In such a run as many calls are started by timers as timers come out. -/
theorem Run.woken_length (h : Run past m) (hschedules : Never Frame.schedules past)
    (hfires : Never Frame.fires past) (hinside : inside ⊆ past) :
    (woken inside).length = (popped inside).length := by
  rw [woken, popped, happened, List.filterMap_flatMap, List.length_flatMap, List.length_flatMap]
  refine congrArg List.sum (List.map_congr_left fun x hx => ?_)
  obtain ⟨before, x', hrun, hpre, hstep⟩ := h.steps (hinside hx)
  have hheld := hrun.held (fun y hy => hschedules y (hpre.subset hy))
    fun y hy => hfires y (hpre.subset hy)
  exact step_wakes hstep hheld (hfires x (hinside hx))

/-- **The player and the clock agree on the timers.** As long as nobody but the player schedules
timers, those in the clock's queue have numbers of their own, which the player has given out once,
and every call in flight has its timer in the queue. If moreover nobody but the clock fires timers,
these are all the timers in the queue; so each timer that comes out starts a call, and the clock
replies with the number of the calls that it started. -/
theorem timers_agree (h : Run past m) (hschedules : Never Frame.schedules past) :
    (m.stage.clock.ids.Nodup ∧ (∀ id ∈ m.stage.clock.ids, id < m.stage.player.nextTimer) ∧
      ((happened past).filterMap Event.allotted?).Nodup ∧
        m.stage.player.keys ⊆ m.stage.clock.ids) ∧
    (Never Frame.fires past →
      (∀ id, id ∈ m.stage.clock.ids ↔ id ∈ m.stage.player.keys) ∧
      (∀ target fired next rest t clock, m.frames = .clock target fired next :: rest →
        m.stage.clock.popDue? target = some (t, clock) →
        ∃ call m', m.stage.player.inFlight.lookup t.id = some call ∧ m.step = some m' ∧
          m'.frames = .run call.body :: .clock target (fired + 1) next :: rest) ∧
      ∀ before c inside time next rest reply next', past = before ++ c :: inside →
        c.frames = .run (.perform (.elapse time) next) :: rest → (∀ x ∈ inside, x.Elapsing rest) →
        m.frames = .answer reply next' :: rest → reply = .count (woken inside).length) := by
  have hagreed := h.agreed hschedules
  refine ⟨⟨hagreed.nodup, hagreed.fresh, ?_, hagreed.known⟩, fun hfires => ?_⟩
  · rw [h.allotted]
    exact List.nodup_range
  have hheld := h.held hschedules hfires
  refine ⟨fun id => ⟨fun hid => hheld hid, fun hid => hagreed.known hid⟩, ?_, ?_⟩
  · intro target fired next rest t clock hframes hpop
    obtain ⟨call, hcall⟩ := hheld.call (by
      rw [Clock.ids_popDue? hpop]
      exact List.mem_cons_self)
    obtain ⟨⟨m', hm, hframes'⟩, _⟩ := step_starts hframes hpop hcall
    exact ⟨call, m', hcall, hm, hframes'⟩
  · rintro before c inside time next rest reply next' rfl hc hin hframes
    have hinside : inside ⊆ before ++ c :: inside := fun x hx => by simp [hx]
    rw [h.woken_length hschedules hfires hinside]
    exact (h.underway hc hin).count hframes

end Machine

/-! ## An example -/

/-- A host that requests a call, which requests another one, and a late call, and waits. -/
def relay : Routine :=
  .perform (.loadDocument ⟨"let a = 1;", [⟨"step", .text "0", none⟩]⟩) fun _ =>
    .perform (.command .play) fun _ =>
      .request "first" 5 (.request "second" 2 .done .done) (.request "late" 20 .done
        (.perform (.elapse 10) fun _ => .done))

/-- The relay after some steps. -/
def relayed (steps : Nat) : Machine := Machine.run steps ⟨.plain, [.run relay]⟩

namespace Machine

/-- The relay from the moment where it waits. Its first call requests the second one, whose timer
comes before the late one; both start, and the late one is left with its timer. -/
theorem relay_agrees :
    (Never Frame.schedules (trace 13 ⟨.plain, [.run relay]⟩) ∧
      Never Frame.fires (trace 13 ⟨.plain, [.run relay]⟩)) ∧
      (relayed 13).stage.clock.ids = [1] ∧ (relayed 13).stage.player.keys = [1] ∧
      (relayed 13).stage.player.nextTimer = 3 ∧
      (relayed 6).frames = [.run (.perform (.elapse 10) fun _ => .done)] ∧
      (∀ x ∈ trace 6 (relayed 7), x.Elapsing []) ∧
      (relayed 13).frames = [.answer (.count (woken (trace 6 (relayed 7))).length) fun _ => .done] ∧
      woken (trace 6 (relayed 7)) = [0, 2] := by
  have hrun : Run (trace 6 ⟨.plain, [.run relay]⟩ ++ relayed 6 :: trace 6 (relayed 7))
      (relayed 13) := ((Run.new Stage.plain_new).host relay).trace 13
  have hschedules : Never Frame.schedules (trace 13 ⟨.plain, [.run relay]⟩) := by decide
  have hfires : Never Frame.fires (trace 13 ⟨.plain, [.run relay]⟩) := by decide
  have hflat : Never Frame.elapses (trace 6 (relayed 7)) := by decide
  have hunanswered : ∀ x ∈ trace 6 (relayed 7), x.answers = false := by decide
  have hin : ∀ x ∈ trace 6 (relayed 7), x.Elapsing [] := by
    intro x hx
    refine ⟨?_, hflat x hx⟩
    intro reply next hframes
    have hcheck := hunanswered x hx
    rw [answers, hframes] at hcheck
    cases hcheck
  obtain ⟨_, hheld⟩ := timers_agree hrun hschedules
  obtain ⟨_, _, hreply⟩ := hheld hfires
  have hcount := hreply _ _ _ 10 _ [] (.count 2) _ rfl rfl hin rfl
  refine ⟨⟨hschedules, hfires⟩, rfl, rfl, rfl, rfl, hin, ?_, rfl⟩
  rw [← hcount]
  rfl

end Machine

end Walkthrough
