import Walkthrough.Proofs.Playback.Elapse
import Walkthrough.Proofs.Playback.Return

/-!
# A span of time, in one go or in two

The clock reaches a time by firing what is due until then, each timer with its call and all that
this leads to. Where it stands when the next timer is looked for does not matter: a timer that comes
out takes the clock to where it is due, and at the end the clock is set. So a halt at an earlier
time on the way leaves no trace, even if a call has moved the clock beyond it.

* `Stage.Passes` — time passes until a time, and how many timers come out.
* `returns_elapse_iff` — this is what the operation does that moves the clock on.
* `Passes.halt`, `Passes.resume` — a halt on the way.
* `returns_elapse_add_iff` — a span in one go is the same as in two.
-/

set_option autoImplicit false

namespace Walkthrough

open Machine

namespace Stage

/-- Time passes until `target`: the timers that are due come out one after the other, and the call
in flight under each of them comes to an end before the next one is looked for. -/
inductive Passes (target : Duration) : Stage → Nat → Stage → Prop where
  /-- no timer is due any more -/
  | reached {s : Stage} : s.clock.popDue? target = none →
      Passes target s 0 { s with clock.now := target }
  /-- the first timer comes out -/
  | popped {timer : Timer} {clock : Clock} {s t s' : Stage} {n : Nat} :
      s.clock.popDue? target = some (timer, clock) →
      Ends ((s.tick timer clock).fire timer.id).2 ((s.tick timer clock).fire timer.id).1 t →
      Passes target t n s' → Passes target s (n + 1) s'

section

variable {target target' : Duration} {timer : Timer} {clock : Clock} {s t s' : Stage}
  {n n' fired : Nat} {next : Reply → Routine} {fs : List Frame}

theorem step_clock_popped (h : s.clock.popDue? target = some (timer, clock)) (fired : Nat)
    (next : Reply → Routine) (rest : List Frame) :
    (⟨s, .clock target fired next :: rest⟩ : Machine).step =
      some ⟨((s.tick timer clock).fire timer.id).1,
        ((s.tick timer clock).fire timer.id).2 ++ [.clock target (fired + 1) next] ++ rest⟩ := by
  rw [← List.append_cons]
  simp only [step, stepClock, h]
  rfl

theorem step_clock_reached (h : s.clock.popDue? target = none) (fired : Nat)
    (next : Reply → Routine) (rest : List Frame) :
    (⟨s, .clock target fired next :: rest⟩ : Machine).step =
      some ⟨{ s with clock.now := target }, [.answer (.count fired) next] ++ rest⟩ := by
  simp only [step, stepClock, h]
  rfl

/-- A machine lets the time pass and comes to the reply. -/
theorem Passes.leads (h : Passes target s n s') (fired : Nat) (next : Reply → Routine)
    (rest : List Frame) :
    Leads rest s [.clock target fired next] s' [.answer (.count (fired + n)) next] := by
  induction h generalizing fired with
  | reached hpop => exact .step (step_clock_reached hpop fired next rest) (.refl _ _)
  | popped hpop hcall _ ih =>
      have hback := ih (fired + 1)
      rw [Nat.add_right_comm] at hback
      exact .step (step_clock_popped hpop fired next rest) ((hcall.leads _ rest).trans hback)

/-- Where the clock comes to an end, the time has passed. -/
theorem passes_of_ends (h : Ends (fs ++ [.clock target fired next]) s s') :
    ∃ t n u, Ends fs s t ∧ Passes target t n u ∧
      Ends [.answer (.count (fired + n)) next] u s' := by
  generalize hx : fs ++ [.clock target fired next] = xs at h
  induction h generalizing fs fired with
  | nil s => simp at hx
  | @cons f xs gs s s₁ s' hstep h ih =>
      cases fs with
      | cons g fs =>
          obtain ⟨rfl, rfl⟩ := List.cons.inj hx
          obtain ⟨t, n, u, hfs, hpasses, hanswer⟩ := ih (List.append_assoc gs fs _)
          exact ⟨t, n, u, .cons hstep hfs, hpasses, hanswer⟩
      | nil =>
          obtain ⟨rfl, rfl⟩ := List.cons.inj hx
          refine ⟨s, ?_⟩
          cases hpop : s.clock.popDue? target with
          | none =>
              have hend := Ends.of_cons (step_clock_reached hpop fired next) (.cons hstep h)
              exact ⟨0, _, .nil s, .reached hpop, hend⟩
          | some p =>
              obtain ⟨timer, clock⟩ := p
              have hnext := step_unique hstep (step_clock_popped hpop fired next [])
              obtain ⟨rfl, hgs⟩ := Machine.mk.inj hnext
              rw [List.append_nil, List.append_nil] at hgs
              subst hgs
              obtain ⟨t, n, u, hcall, hpasses, hanswer⟩ := ih (List.append_nil _).symm
              rw [Nat.add_right_comm] at hanswer
              exact ⟨n + 1, u, .nil s, .popped hpop hcall hpasses, hanswer⟩

/-- **Moving the clock on lets the time pass**, and replies with the number of the timers that came
out. -/
theorem returns_elapse_iff {time : Duration} {reply : Reply} :
    s.Returns (.elapse time) reply s' ↔
      ∃ n, Passes (s.clock.now + time) s n s' ∧ reply = .count n := by
  have hbegin (next : Reply → Routine) (rest : List Frame) :
      (⟨s, .run (.perform (.elapse time) next) :: rest⟩ : Machine).step =
        some ⟨s, [.clock (s.clock.now + time) 0 next] ++ rest⟩ := rfl
  constructor
  · intro h
    have hclock := h.ends.of_cons (hbegin _)
    rw [List.append_nil, ← List.nil_append [Frame.clock _ _ _]] at hclock
    obtain ⟨t, n, u, hnil, hpasses, hanswer⟩ := passes_of_ends hclock
    cases hnil
    obtain ⟨hreply, rfl⟩ := record_inj (hanswer.unique (answer_ends _ _))
    cases hreply
    exact ⟨n, hpasses, congrArg Reply.count (Nat.zero_add n)⟩
  · rintro ⟨n, hpasses, rfl⟩ rest next
    have hleads := hpasses.leads 0 next rest
    rw [Nat.zero_add] at hleads
    exact .step (hbegin next rest) hleads

/-! ## A halt on the way -/

/-- What comes out of the queue does not depend on where the clock stands. -/
theorem popDue?_now (c : Clock) (now : Duration) :
    ({ c with now } : Clock).popDue? target = c.popDue? target := by
  unfold Clock.popDue?
  rfl

/-- So the time that passes does not depend on it either. -/
theorem passes_now_iff {now : Duration} :
    Passes target { s with clock.now := now } n s' ↔ Passes target s n s' := by
  constructor
  · intro h
    cases h with
    | reached hpop =>
        rw [popDue?_now] at hpop
        exact .reached hpop
    | popped hpop hcall hpasses =>
        rw [popDue?_now] at hpop
        exact .popped hpop hcall hpasses
  · intro h
    cases h with
    | reached hpop => exact .reached ((popDue?_now s.clock now).trans hpop)
    | popped hpop hcall hpasses =>
        exact .popped ((popDue?_now s.clock now).trans hpop) hcall hpasses

/-- A timer that is due by a time is due by a later one. -/
theorem popDue?_mono (hle : target ≤ target')
    (h : s.clock.popDue? target = some (timer, clock)) :
    s.clock.popDue? target' = some (timer, clock) := by
  obtain ⟨q, hq, hdue, hclock⟩ := Clock.popDue?_eq_some_iff.1 h
  exact Clock.popDue?_eq_some_iff.2 ⟨q, hq, Nat.le_trans hdue hle, hclock⟩

theorem Passes.now (h : Passes target s n s') : s'.clock.now = target := by
  induction h with
  | reached _ => rfl
  | popped _ _ _ ih => exact ih

/-- The clock may halt at an earlier time. -/
theorem Passes.halt (h : Passes target' s n s') (hle : target ≤ target') :
    ∃ n₁ n₂ t, Passes target s n₁ t ∧ Passes target' t n₂ s' ∧ n = n₁ + n₂ := by
  induction h with
  | @reached s hpop =>
      have hearly : s.clock.popDue? target = none := by
        cases hpop' : s.clock.popDue? target with
        | none => rfl
        | some p =>
            rw [popDue?_mono hle hpop'] at hpop
            cases hpop
      exact ⟨0, 0, _, .reached hearly, passes_now_iff.2 (.reached hpop), rfl⟩
  | @popped timer clock s t s' n hpop hcall hpasses ih =>
      cases hpop' : s.clock.popDue? target with
      | none =>
          -- the timer is due only after the halt
          exact ⟨0, n + 1, _, .reached hpop', passes_now_iff.2 (.popped hpop hcall hpasses),
            (Nat.zero_add _).symm⟩
      | some p =>
          have heq := popDue?_mono hle hpop'
          rw [hpop] at heq
          cases heq
          obtain ⟨n₁, n₂, u, hearly, hlate, rfl⟩ := ih
          exact ⟨n₁ + 1, n₂, u, .popped hpop' hcall hearly, hlate, Nat.add_right_comm n₁ n₂ 1⟩

/-- After a halt the clock goes on as it would have without. -/
theorem Passes.resume (h : Passes target s n t) (hle : target ≤ target')
    (h' : Passes target' t n' s') : Passes target' s (n + n') s' := by
  induction h with
  | reached _ =>
      rw [Nat.zero_add]
      exact passes_now_iff.1 h'
  | popped hpop hcall _ ih =>
      rw [Nat.add_right_comm]
      exact .popped (popDue?_mono hle hpop) hcall (ih h')

end

/-- **A span of time in one go is the same as in two.** Moving the clock on by `a + b` comes back
exactly if moving it on by `a` and then by `b` does. Either way the same stage is left, with its
player, surface, clock and journal, and the numbers of the timers add up. -/
theorem returns_elapse_add_iff {a b : Duration} {s s' : Stage} {reply : Reply} :
    s.Returns (.elapse (a + b)) reply s' ↔
      ∃ n₁ n₂ t, s.Returns (.elapse a) (.count n₁) t ∧ t.Returns (.elapse b) (.count n₂) s' ∧
        reply = .count (n₁ + n₂) := by
  have hle : s.clock.now + a ≤ s.clock.now + (a + b) :=
    Nat.add_le_add_left (Nat.le_add_right a b) _
  have hlate {n : Nat} {t : Stage} (h : Passes (s.clock.now + a) s n t) :
      t.clock.now + b = s.clock.now + (a + b) := by
    rw [h.now, Nat.add_assoc]
  constructor
  · intro h
    obtain ⟨n, hpasses, rfl⟩ := returns_elapse_iff.1 h
    obtain ⟨n₁, n₂, t, hfirst, hsecond, rfl⟩ := hpasses.halt hle
    rw [← hlate hfirst] at hsecond
    exact ⟨n₁, n₂, t, returns_elapse_iff.2 ⟨n₁, hfirst, rfl⟩,
      returns_elapse_iff.2 ⟨n₂, hsecond, rfl⟩, rfl⟩
  · rintro ⟨n₁, n₂, t, h₁, h₂, rfl⟩
    obtain ⟨_, hfirst, hcount⟩ := returns_elapse_iff.1 h₁
    cases hcount
    obtain ⟨_, hsecond, hcount⟩ := returns_elapse_iff.1 h₂
    cases hcount
    rw [hlate hfirst] at hsecond
    exact returns_elapse_iff.2 ⟨n₁ + n₂, hfirst.resume hle hsecond, rfl⟩

end Stage

/-! ## An example -/

/-- A call that moves the clock on by itself and then requests another call. -/
def hasty : Routine := .perform (.elapse 9) fun _ => .request "after" 1 .done .done

/-- A host that requests this call and a late one. -/
def errands : Routine :=
  .perform (.loadDocument ⟨"let a = 1;", [⟨"step", .text "0", none⟩]⟩) fun _ =>
    .perform (.command .play) fun _ =>
      .request "hasty" 3 hasty (.request "late" 15 .done .done)

/-- The stage that the host leaves. -/
def waiting : Stage := Stage.plain.enact 10 errands

/-- The hasty call moves the clock beyond the halt, which takes it back. -/
example :
    (waiting.operate 20 (.elapse 5)).1 = .count 1 ∧
      (waiting.operate 20 (.elapse 5)).2.clock = ⟨5, 3, [⟨13, 2, 2⟩, ⟨15, 1, 1⟩]⟩ ∧
      ((waiting.operate 20 (.elapse 5)).2.operate 20 (.elapse 10)).1 = .count 2 ∧
      (waiting.operate 20 (.elapse 15)).1 = .count 3 ∧
      ((waiting.operate 20 (.elapse 5)).2.operate 20 (.elapse 10)).2.clock =
        (waiting.operate 20 (.elapse 15)).2.clock := ⟨rfl, rfl, rfl, rfl, rfl⟩

end Walkthrough
