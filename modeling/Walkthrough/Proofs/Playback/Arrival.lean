import Walkthrough.Proofs.Playback.Course
import Walkthrough.Proofs.Playback.Later
import Walkthrough.Proofs.Playback.Punctual

/-!
# The clock arrives

The clock moves on to a time by firing the timers that are due, and the calls that it fires may
request others, which puts further timers into the queue. A call that is requested with a delay is
due later than the present time. So while the time stands still the timers that are due now become
fewer, and otherwise the time left becomes less: the clock arrives if the calls come back.

* `Frame.onlyRequests` — frames that reach the clock by requests only.
* `Clock.Grown` — only timers that are due later were added; `LeadsBy.grown`: such frames do no more
  to the clock.
* `Clock.dueNow`, `Clock.popDue?_nearer` — how many timers are due now, and how the clock comes
  nearer to a time with every timer that comes out.
* `Machine.CallsReturn` — the calls that the clock fires on its way come back.
* `elapse_returns` — then the clock arrives.
-/

set_option autoImplicit false

namespace Walkthrough

/-- Whether a frame reaches the clock by requests only: it neither moves the clock nor schedules a
timer by itself. -/
def Frame.onlyRequests : Frame → Bool
  | .run (.perform (.elapse _) _) | .run (.perform (.schedule ..) _) | .clock .. => false
  | _ => true

/-! ## Timers that are added -/

namespace Clock

variable {c c' c'' : Clock} {t : Timer} {target : Duration}

/-- The time is the same, and only timers that are due later were added. -/
structure Grown (c c' : Clock) : Prop where
  now : c'.now = c.now
  queue : ∃ ts : List Timer, c'.queue.Perm (ts ++ c.queue) ∧ ∀ t ∈ ts, c.now < t.due
  ordered : c.Ordered → c'.Ordered

theorem Grown.refl (c : Clock) : c.Grown c := ⟨rfl, ⟨[], .refl _, nofun⟩, id⟩

theorem Grown.of_eq (h : c' = c) : c.Grown c' := h ▸ .refl c

theorem Grown.trans (h : c.Grown c') (h' : c'.Grown c'') : c.Grown c'' := by
  obtain ⟨ts, hts, hlater⟩ := h.queue
  obtain ⟨us, hus, hlater'⟩ := h'.queue
  refine ⟨h'.now.trans h.now, ⟨us ++ ts, ?_, ?_⟩, fun hc => h'.ordered (h.ordered hc)⟩
  · rw [List.append_assoc]
    exact hus.trans (hts.append_left us)
  · rw [h.now] at hlater'
    exact List.forall_mem_append.2 ⟨hlater', hlater⟩

theorem Grown.schedule (id : Nat) {delay : Duration} (hdelay : delay ≠ 0) (c : Clock) :
    c.Grown (c.schedule id delay) := by
  refine ⟨rfl, ⟨[c.timer id delay], schedule_perm id delay c, ?_⟩, fun h => h.schedule id delay⟩
  exact List.forall_mem_singleton.2 (Nat.lt_add_of_pos_right (Nat.pos_of_ne_zero hdelay))

theorem Grown.punctual (h : c.Grown c') (hc : c.Punctual) : c'.Punctual := by
  obtain ⟨ts, hts, hlater⟩ := h.queue
  intro t ht
  rw [h.now]
  rcases List.mem_append.1 (hts.mem_iff.1 ht) with ht | ht
  · exact Nat.le_of_lt (hlater t ht)
  · exact hc t ht

/-- How many timers are due now. -/
def dueNow (c : Clock) : Nat := c.queue.countP fun t => t.due ≤ c.now

theorem Grown.dueNow (h : c.Grown c') : c'.dueNow = c.dueNow := by
  obtain ⟨ts, hts, hlater⟩ := h.queue
  have hnone : ts.countP (fun t => t.due ≤ c.now) = 0 :=
    List.countP_eq_zero.2 fun t ht => by simpa using hlater t ht
  rw [Clock.dueNow, h.now, hts.countP_eq, List.countP_append, hnone, Nat.zero_add, Clock.dueNow]

/-- What is left until a time: the time, and while it stands still the timers that are due now. -/
def ahead (target : Duration) (c : Clock) : Nat × Nat := (target - c.now, c.dueNow)

theorem Grown.ahead (h : c.Grown c') : c'.ahead target = c.ahead target := by
  rw [Clock.ahead, h.now, h.dueNow, Clock.ahead]

/-- With every timer that comes out the clock is nearer to the time. -/
theorem popDue?_nearer (hc : c.Punctual) (hpop : c.popDue? target = some (t, c')) :
    Prod.Lex (· < ·) (· < ·) (c'.ahead target) (c.ahead target) := by
  obtain ⟨q, hq, hdue, rfl⟩ := popDue?_eq_some_iff.1 hpop
  have hle : c.now ≤ t.due := hc t (by rw [hq]; exact List.mem_cons_self)
  rcases Nat.lt_or_eq_of_le hle with hlt | heq
  · exact .left _ _ (Nat.sub_lt_sub_left (Nat.lt_of_lt_of_le hlt hdue) hlt)
  · have hcount : c.dueNow = q.countP (fun u => u.due ≤ t.due) + 1 := by
      rw [dueNow, hq, heq, List.countP_cons_of_pos (by simp)]
    rw [ahead, ahead, hcount, heq]
    exact .right _ (Nat.lt_succ_self _)

end Clock

namespace Stage

variable {s : Stage}

/-- A call that is launched has no timer, or one that is due later. -/
theorem launch_grown (d : Deferred Call) (s : Stage) : s.clock.Grown (s.launch d).1.clock := by
  by_cases hdelay : d.delay = 0
  · refine .of_eq ?_
    unfold launch
    rw [if_pos hdelay]
    rfl
  · cases htimers : s.player.timers with
    | discard =>
        rw [launch_discard hdelay htimers]
        exact .refl _
    | keep =>
        rw [launch_keep hdelay htimers]
        exact .schedule _ hdelay _

theorem request_grown (label : String) (delay : Duration) (body : Routine) (s : Stage) :
    s.clock.Grown (s.request label delay body).1.clock := by
  by_cases hs : s.status = .playing
  · rw [request_playing hs]
    exact launch_grown _ (s.ticketed delay)
  · rw [request_deferred hs]
    exact .refl _

theorem perform_grown {op : Operation} {next : Reply → Routine}
    (hop : (Frame.run (.perform op next)).onlyRequests = true) (s : Stage) :
    s.clock.Grown (s.perform op next).1.clock := by
  obtain ⟨time, rfl⟩ | ⟨r, reply, hdeed, hperform⟩ := s.perform_deed op next
  · cases hop
  · rw [hperform]
    cases hdeed with
    | touched h _ => exact .of_eq h.sameTime.clock
    | moved cursor h _ => exact .of_eq h.sameTime.clock
    | loaded document _ => exact .refl _
    | edited text _ => exact .refl _
    | scheduled heq =>
        subst heq
        cases hop
    | fired _ => exact .of_eq (fire_sameTime _ s).clock
    | @commanded s₀ c h _ => exact .of_eq ((command_clock c s₀).trans h.sameTime.clock)

theorem play_grown {f : Frame} {r : Stage × List Frame} (h : f.Play s r)
    (hf : f.onlyRequests = true) : s.clock.Grown r.1.clock := by
  cases h with
  | performed op next => exact perform_grown hf s
  | requested label delay body next => exact request_grown label delay body s
  | @replayed d ds _ _ => exact launch_grown d (s.dequeue d ds)
  | popped fired next _ => cases hf
  | reached fired next _ => cases hf
  | _ => exact .refl _

end Stage

namespace Machine

open Stage

/-- An activity that reaches the clock by requests only. -/
abbrev LeadsByRequests : Stage → List Frame → Stage → List Frame → Prop :=
  LeadsBy fun _ f => f.onlyRequests = true

variable {s s' : Stage} {fs fs' : List Frame} {target : Duration}

theorem LeadsBy.grown (h : LeadsByRequests s fs s' fs') : s.clock.Grown s'.clock := by
  induction h with
  | refl s fs => exact .refl _
  | @step f fs gs fs' s s₁ s' hf hstep _ ih =>
      obtain ⟨_, _, r, hframes, hr, hplay⟩ := step_play (hstep [])
      cases hframes
      have hstage : s₁ = r.1 := congrArg Machine.stage hr
      exact (play_grown hplay hf).trans (hstage ▸ ih)

/-- On the way to a time, which the clock has begun on the stage `s`, the calls that it fires come
back, and reach the clock by requests only. -/
def CallsReturn (target : Duration) (fired : Nat) (s : Stage) : Prop :=
  ∀ t n, Leads [] s [.clock target fired fun _ => .done] t [.clock target n fun _ => .done] →
    ∀ timer clock, t.clock.popDue? target = some (timer, clock) →
      ∃ t', LeadsByRequests ((t.tick timer clock).fire timer.id).1
        ((t.tick timer clock).fire timer.id).2 t' []

/-- A timer that comes out, and the call that comes back. -/
theorem leads_round {t : Timer} {clock : Clock} (hpop : s.clock.popDue? target = some (t, clock))
    (hcall : Ends ((s.tick t clock).fire t.id).2 ((s.tick t clock).fire t.id).1 s')
    (rest : List Frame) (fired : Nat) (next : Reply → Routine) :
    Leads rest s [.clock target fired next] s' [.clock target (fired + 1) next] := by
  have hstep : (⟨s, .clock target fired next :: [] ++ rest⟩ : Machine).step =
      some ⟨((s.tick t clock).fire t.id).1,
        ((s.tick t clock).fire t.id).2 ++ [.clock target (fired + 1) next] ++ rest⟩ := by
    simp only [List.cons_append, List.nil_append, step, stepClock, hpop, follow,
      List.append_assoc]
    rfl
  exact .step hstep (hcall.leads _ rest)

/-- The clock arrives. The induction is on what is left until the time. -/
theorem leads_arrival {fired : Nat} (hordered : s.clock.Ordered) (hpunctual : s.clock.Punctual)
    (hcalls : CallsReturn target fired s) :
    ∃ n s', ∀ rest next,
      Leads rest s [.clock target fired next] s' [.answer (.count n) next] := by
  have hwf : WellFounded (Prod.Lex (· < ·) (· < ·) : Nat × Nat → Nat × Nat → Prop) :=
    (Prod.lex Nat.lt_wfRel Nat.lt_wfRel).wf
  induction hleft : s.clock.ahead target using hwf.induction generalizing s fired with
  | _ left ih =>
      subst hleft
      cases hpop : s.clock.popDue? target with
      | none =>
          refine ⟨fired, { s with clock.now := target }, fun rest next => .step ?_ (.refl _ _)⟩
          simp only [List.cons_append, List.nil_append, step, stepClock, hpop]
      | some due =>
          obtain ⟨t, clock⟩ := due
          obtain ⟨s₁, hcall⟩ := hcalls s fired (.refl _ _) t clock hpop
          have hround := leads_round hpop hcall.ends
          have hfire : ((s.tick t clock).fire t.id).1.clock = clock :=
            (fire_sameTime t.id (s.tick t clock)).clock
          have hgrown : clock.Grown s₁.clock := hfire ▸ hcall.grown
          have hnearer := Clock.popDue?_nearer hpunctual hpop
          rw [← hgrown.ahead] at hnearer
          have hcalls₁ : CallsReturn target (fired + 1) s₁ := by
            intro u n hu
            exact hcalls u n ((hround [] fired _).trans hu)
          obtain ⟨n, s', hleads⟩ := ih _ hnearer (hgrown.ordered (hordered.popDue? hpop))
            (hgrown.punctual (hordered.punctual_popDue? hpop)) hcalls₁ rfl
          exact ⟨n, s', fun rest next => (hround rest fired next).trans (hleads rest next)⟩

/-- **Moving the clock on comes to an end if the calls do.** At any moment of a run the clock is to
be moved on. If every call that it fires on its way comes back, without moving the clock or
scheduling a timer other than by requests, then the clock arrives after finitely many timers,
however many calls are requested on the way, and replies with their number. -/
theorem elapse_returns {past : List Machine} {m : Machine} (h : Run past m) (time : Duration)
    (hcalls : CallsReturn (m.stage.clock.now + time) 0 m.stage) :
    ∃ n s', m.stage.Returns (.elapse time) (.count n) s' := by
  obtain ⟨n, s', hleads⟩ := leads_arrival h.ordered h.punctual hcalls
  refine ⟨n, s', fun rest next => .step ?_ (hleads rest next)⟩
  rfl

end Machine

/-! ## An example -/

/-- A call that requests itself again and again, each time with another call. -/
def heartbeat : Routine := .request "beat" 3 (.invoke "beat" .done) (.request "echo" 2 .done .done)

/-- A new player with this call among its routines. -/
def Stage.living : Stage :=
  { player := { config := {} }
    routines := fun name => if name = "beat" then some heartbeat else none }

theorem Stage.new_living :
    Stage.new {} {} .keep (fun name => if name = "beat" then some heartbeat else none) =
      .ok .living := rfl

/-- A host that plays and lets the heart beat. -/
def awakening : Routine :=
  .perform (.loadDocument ⟨"let a = 1;", [⟨"step", .text "0", none⟩]⟩) fun _ =>
    .perform (.command .play) fun _ => .invoke "beat" .done

/-- The awakening after some steps. -/
def awakened (steps : Nat) : Machine := Machine.run steps ⟨.living, [.run awakening]⟩

/-- A check, with some fuel, that the call that the clock fires next comes back and reaches the
clock by requests only. -/
def Stage.firesBriefly (fuel : Nat) (target : Duration) (s : Stage) : Bool :=
  match s.clock.popDue? target with
  | none => true
  | some (t, clock) =>
    let r := (s.tick t clock).fire t.id
    (Machine.run fuel ⟨r.1, r.2⟩).frames.isEmpty &&
      (Machine.trace fuel ⟨r.1, r.2⟩).all (·.frames.head?.all Frame.onlyRequests)

namespace Machine

theorem callsReturn_of_trace (fuel : Nat) {s : Stage} {target : Duration} {fired : Nat}
    (hend : (run fuel ⟨s, [.clock target fired fun _ => .done]⟩).frames = [])
    (h : (trace fuel ⟨s, [.clock target fired fun _ => .done]⟩).all
      (·.stage.firesBriefly fuel target) = true) : CallsReturn target fired s := by
  intro t n hleads timer clock hpop
  have hbrief := List.all_eq_true.1 h _ (hleads.mem_trace hend)
  simp only [Stage.firesBriefly, hpop, Bool.and_eq_true, List.isEmpty_iff] at hbrief
  exact ⟨_, LeadsBy.of_trace fuel (fun _ _ => id) hbrief.1 hbrief.2⟩

/-- The stage of the awakening when the clock has been moved on. -/
def rested : Stage := ((awakened 9).stage.operate 60 (.elapse 7)).2

/-- The heart beats twice, with an echo of each beat, and goes on beating: four timers fire, and two
are left. -/
theorem heartbeat_returns :
    CallsReturn 7 0 (awakened 9).stage ∧
      (awakened 9).stage.Returns (.elapse 7) (.count 4) rested ∧
      rested.clock.now = 7 ∧ rested.clock.queue.map Timer.due = [8, 9] := by
  obtain ⟨past, hrun⟩ : ∃ past, Run past (awakened 9) :=
    ((Run.new Stage.new_living).host awakening).exec 9
  have hcalls : CallsReturn 7 0 (awakened 9).stage := callsReturn_of_trace 20 rfl rfl
  obtain ⟨n, s', hreturns⟩ := elapse_returns hrun 7 hcalls
  -- the clock arrives once, so what the machine itself does tells the count and the stage
  have hends : Ends [.run (.perform (.elapse 7) fun _ => .done)] (awakened 9).stage
      (rested.record (.replied (.count 4))) :=
    (LeadsBy.of_trace (m := ⟨(awakened 9).stage, [.run (.perform (.elapse 7) fun _ => .done)]⟩)
      (P := fun _ _ => True) (p := fun _ _ => true) 60 (fun _ _ _ => trivial) rfl rfl).ends
  obtain ⟨hreply, rfl⟩ := Stage.record_inj (hreturns.ends.unique hends)
  cases hreply
  exact ⟨hcalls, hreturns, rfl, rfl⟩

end Machine

end Walkthrough
