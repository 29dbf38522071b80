import Walkthrough.Proofs.Playback.History

/-!
# The queue of the clock

The queue is kept in firing order: by due time, and timers due at one time in the order in which
they were scheduled. Scheduling numbers the timers, so no two of them are at the same place.

* `Timer.before_iff`, `Timer.before_trans` — the firing order.
* `Clock.Ordered` — a queue in firing order, with numbers that were given out.
* `Clock.popDue?_eq_some_iff`, `Clock.popDue?_eq_none_iff` — which timer comes out.
* `Clock.Advanced` — on the way to a time the timers that came out are in order, and those left come
  after them; `Advanced.schedule`, `Advanced.pop`: it stays so while others go in and come out.
* `Run.ordered` — the clock is ordered throughout a run.
-/

set_option autoImplicit false

namespace Walkthrough

namespace Timer

variable {t u v : Timer}

theorem before_iff : t.before u = true ↔ t.due < u.due ∨ t.due = u.due ∧ t.seq < u.seq := by
  simp [before]

theorem before_trans (h : t.before u = true) (h' : u.before v = true) : t.before v = true := by
  rw [before_iff] at h h' ⊢
  rcases h with h | ⟨h, hseq⟩
  · rcases h' with h' | ⟨h', _⟩
    · exact .inl (Nat.lt_trans h h')
    · exact .inl (h' ▸ h)
  · rcases h' with h' | ⟨h', hseq'⟩
    · exact .inl (h ▸ h')
    · exact .inr ⟨h.trans h', Nat.lt_trans hseq hseq'⟩

theorem not_before_self (t : Timer) : t.before t ≠ true := by
  rw [Ne, before_iff]
  rintro (h | ⟨_, h⟩)
  · exact Nat.lt_irrefl _ h
  · exact Nat.lt_irrefl _ h

theorem due_le_of_before (h : t.before u = true) : t.due ≤ u.due := by
  rcases before_iff.1 h with h | ⟨h, _⟩
  · exact Nat.le_of_lt h
  · exact Nat.le_of_eq h

/-- Timers with different numbers are in order one way or the other. -/
theorem before_of_not_before (h : t.before u ≠ true) (hseq : u.seq < t.seq) :
    u.before t = true := by
  rw [Ne, before_iff, not_or] at h
  rw [before_iff]
  rcases Nat.lt_or_eq_of_le (Nat.not_lt.1 h.1) with hdue | hdue
  · exact .inl hdue
  · exact .inr ⟨hdue, hseq⟩

end Timer

namespace Clock

variable {c c' : Clock} {t u : Timer} {q : List Timer} {target : Duration}

theorem insert_perm (t : Timer) (q : List Timer) : (insert t q).Perm (t :: q) := by
  induction q with
  | nil => exact .refl _
  | cons u q ih =>
      rw [insert]
      split
      · exact .refl _
      · exact (ih.cons u).trans (.swap t u q)

/-- A timer with a number of its own keeps the queue in order. -/
theorem insert_pairwise (hq : q.Pairwise fun t u => t.before u = true)
    (ht : ∀ u ∈ q, u.seq < t.seq) : (insert t q).Pairwise fun t u => t.before u = true := by
  induction q with
  | nil => exact List.pairwise_singleton _ _
  | cons u q ih =>
      obtain ⟨hu, hq'⟩ := List.pairwise_cons.1 hq
      rw [insert]
      split
      · rename_i hbefore
        refine List.pairwise_cons.2 ⟨?_, hq⟩
        intro v hv
        rcases List.mem_cons.1 hv with rfl | hv
        · exact hbefore
        · exact Timer.before_trans hbefore (hu v hv)
      · rename_i hbefore
        refine List.pairwise_cons.2 ⟨?_, ih hq' fun v hv => ht v (List.mem_cons_of_mem _ hv)⟩
        intro v hv
        rcases List.mem_cons.1 ((insert_perm t q).mem_iff.1 hv) with rfl | hv
        · exact Timer.before_of_not_before hbefore (ht u List.mem_cons_self)
        · exact hu v hv

/-- The queue is in firing order, and its numbers have been given out. -/
structure Ordered (c : Clock) : Prop where
  sorted : c.queue.Pairwise fun t u => t.before u = true
  numbered : ∀ t ∈ c.queue, t.seq < c.seq

theorem schedule_perm (id : Nat) (delay : Duration) (c : Clock) :
    (c.schedule id delay).queue.Perm (c.timer id delay :: c.queue) := insert_perm _ _

theorem Ordered.schedule (h : c.Ordered) (id : Nat) (delay : Duration) :
    (c.schedule id delay).Ordered := by
  refine ⟨insert_pairwise h.sorted h.numbered, ?_⟩
  intro t ht
  show t.seq < c.seq + 1
  rcases List.mem_cons.1 ((schedule_perm id delay c).mem_iff.1 ht) with rfl | ht
  · exact Nat.lt_succ_self _
  · have hlt := h.numbered t ht
    omega

theorem popDue?_eq_some_iff :
    c.popDue? target = some (t, c') ↔
      ∃ q, c.queue = t :: q ∧ t.due ≤ target ∧ c' = { c with now := t.due, queue := q } := by
  unfold popDue?
  constructor
  · intro h
    split at h
    · cases h
    · rename_i u q hq
      split at h
      · rename_i hdue
        cases h
        exact ⟨q, hq, hdue, rfl⟩
      · cases h
  · rintro ⟨q, hq, hdue, rfl⟩
    rw [hq]
    exact if_pos hdue

theorem popDue?_eq_none_iff (h : c.Ordered) :
    c.popDue? target = none ↔ ∀ t ∈ c.queue, target < t.due := by
  constructor
  · intro hnone t ht
    by_contra hdue
    have hsorted := h.sorted
    cases hq : c.queue with
    | nil =>
        rw [hq] at ht
        cases ht
    | cons u q =>
        -- the first timer is due no later than `t`, so it would come out
        rw [hq] at hsorted ht
        have hfirst : u.due ≤ t.due := by
          rcases List.mem_cons.1 ht with rfl | ht
          · exact Nat.le_refl _
          · exact Timer.due_le_of_before ((List.pairwise_cons.1 hsorted).1 t ht)
        have hpop := popDue?_eq_some_iff.2 ⟨q, hq, Nat.le_trans hfirst (Nat.not_lt.1 hdue), rfl⟩
        rw [hnone] at hpop
        cases hpop
  · intro hlate
    cases hpop : c.popDue? target with
    | none => rfl
    | some p =>
        obtain ⟨t, c'⟩ := p
        obtain ⟨q, hq, hdue, _⟩ := popDue?_eq_some_iff.1 hpop
        have hlt := hlate t (by rw [hq]; exact List.mem_cons_self)
        exact absurd hdue (Nat.not_le.2 hlt)

theorem Ordered.popDue? (h : c.Ordered) (hpop : c.popDue? target = some (t, c')) : c'.Ordered := by
  obtain ⟨q, hq, _, rfl⟩ := popDue?_eq_some_iff.1 hpop
  have hsorted := h.sorted
  have hnumbered := h.numbered
  rw [hq] at hsorted hnumbered
  exact ⟨(List.pairwise_cons.1 hsorted).2, fun u hu => hnumbered u (List.mem_cons_of_mem _ hu)⟩

end Clock

/-! ## The clock on its way -/

/-- From `c₀` the clock has come to `c` on its way to `target`. Since then timers were `scheduled`,
and timers were `popped`. -/
structure Clock.Advanced (target : Duration) (c₀ c : Clock) (scheduled popped : List Timer) :
    Prop where
  conserved : (popped ++ c.queue).Perm (c₀.queue ++ scheduled)
  sorted : popped.Pairwise fun t u => t.before u = true
  due : ∀ t ∈ popped, t.due ≤ target
  ahead : ∀ t ∈ popped, ∀ u ∈ c.queue, t.before u = true
  passed : ∀ t ∈ popped, t.due ≤ c.now ∧ t.seq < c.seq

namespace Clock

variable {target : Duration} {c₀ c c' : Clock} {xs ys : List Timer} {t : Timer}

theorem Advanced.start (target : Duration) (c : Clock) : Advanced target c c [] [] := by
  refine ⟨?_, .nil, nofun, nofun, nofun⟩
  rw [List.append_nil, List.nil_append]

/-- A new timer is due at the present time or later, with a later number than any other. -/
theorem Advanced.schedule (h : Advanced target c₀ c xs ys) (id : Nat) (delay : Duration) :
    Advanced target c₀ (c.schedule id delay) (xs ++ [c.timer id delay]) ys := by
  have hperm := schedule_perm id delay c
  refine ⟨?_, h.sorted, h.due, ?_, ?_⟩
  · calc ys ++ (c.schedule id delay).queue
      _ |>.Perm (ys ++ c.timer id delay :: c.queue) := hperm.append_left ys
      _ |>.Perm (c.timer id delay :: (ys ++ c.queue)) := List.perm_middle
      _ |>.Perm (c.timer id delay :: (c₀.queue ++ xs)) := h.conserved.cons _
      _ |>.Perm (c₀.queue ++ (xs ++ [c.timer id delay])) := by
        rw [← List.append_assoc]
        exact (List.perm_append_singleton _ _).symm
  · intro t ht u hu
    rcases List.mem_cons.1 (hperm.mem_iff.1 hu) with rfl | hu
    · obtain ⟨hdue, hseq⟩ := h.passed t ht
      have hle : t.due ≤ c.now + delay := Nat.le_trans hdue (Nat.le_add_right _ _)
      rw [Timer.before_iff]
      rcases Nat.lt_or_eq_of_le hle with hlt | heq
      · exact .inl hlt
      · exact .inr ⟨heq, hseq⟩
    · exact h.ahead t ht u hu
  · intro t ht
    obtain ⟨hdue, hseq⟩ := h.passed t ht
    exact ⟨hdue, Nat.lt_succ_of_lt hseq⟩

theorem Advanced.pop (h : Advanced target c₀ c xs ys) (hc : c.Ordered)
    (hpop : c.popDue? target = some (t, c')) : Advanced target c₀ c' xs (ys ++ [t]) := by
  obtain ⟨q, hq, hdue, rfl⟩ := popDue?_eq_some_iff.1 hpop
  have hconserved := h.conserved
  have hahead := h.ahead
  have hsorted := hc.sorted
  have hnumbered := hc.numbered
  rw [hq] at hconserved hahead hsorted hnumbered
  have hfirst : ∀ u ∈ ys, u.before t = true := fun u hu => hahead u hu t List.mem_cons_self
  refine ⟨?_, ?_, ?_, ?_, ?_⟩
  · rw [List.append_assoc]
    exact hconserved
  · refine List.pairwise_append.2 ⟨h.sorted, List.pairwise_singleton _ _, ?_⟩
    intro u hu
    exact List.forall_mem_singleton.2 (hfirst u hu)
  · exact List.forall_mem_append.2 ⟨h.due, List.forall_mem_singleton.2 hdue⟩
  · refine List.forall_mem_append.2 ⟨?_, List.forall_mem_singleton.2 ?_⟩
    · intro u hu v hv
      exact hahead u hu v (List.mem_cons_of_mem _ hv)
    · exact (List.pairwise_cons.1 hsorted).1
  · refine List.forall_mem_append.2 ⟨?_, List.forall_mem_singleton.2 ?_⟩
    · intro u hu
      exact ⟨Timer.due_le_of_before (hfirst u hu), (h.passed u hu).2⟩
    · exact ⟨Nat.le_refl _, hnumbered t List.mem_cons_self⟩

theorem Advanced.reach (h : Advanced target c₀ c xs ys) :
    Advanced target c₀ { c with now := target } xs ys :=
  ⟨h.conserved, h.sorted, h.due, h.ahead, fun t ht => ⟨h.due t ht, (h.passed t ht).2⟩⟩

theorem Advanced.nodup (h : Advanced target c₀ c xs ys) : ys.Nodup := by
  refine h.sorted.imp ?_
  rintro t u hbefore rfl
  exact t.not_before_self hbefore

/-- Once the timers left are due later, those that came out are the ones that were due. -/
theorem Advanced.popped_perm (h : Advanced target c₀ c xs ys)
    (hlate : ∀ t ∈ c.queue, target < t.due) :
    ys.Perm ((c₀.queue ++ xs).filter fun t => t.due ≤ target) := by
  have hperm := h.conserved.filter fun t => decide (t.due ≤ target)
  have hys : ys.filter (fun t => decide (t.due ≤ target)) = ys :=
    List.filter_eq_self.2 fun t ht => decide_eq_true (h.due t ht)
  have hqueue : c.queue.filter (fun t => decide (t.due ≤ target)) = [] :=
    List.filter_eq_nil_iff.2 fun t ht => by simpa using hlate t ht
  rw [List.filter_append, hys, hqueue, List.append_nil] at hperm
  exact hperm

end Clock

/-! ## The clock in a run -/

namespace Stage

theorem command_clock (c : Command) (s : Stage) : (s.command c).1.clock = s.clock := by
  rw [command_eq]
  unfold carryOut
  split <;> rfl

/-- A launched call is scheduled or leaves the clock alone. -/
theorem launch_clock (d : Deferred Call) (s : Stage) :
    (s.launch d).1.clock = s.clock ∨
      ∃ id, (s.launch d).1.clock = s.clock.schedule id d.delay := by
  unfold launch
  split
  · exact .inl rfl
  · split
    · exact .inl rfl
    · exact .inr ⟨s.player.nextTimer, rfl⟩

theorem launch_ordered {s : Stage} (h : s.clock.Ordered) (d : Deferred Call) :
    (s.launch d).1.clock.Ordered := by
  rcases launch_clock d s with hclock | ⟨id, hclock⟩
  · rw [hclock]
    exact h
  · rw [hclock]
    exact h.schedule id d.delay

theorem request_ordered {s : Stage} (h : s.clock.Ordered) (label : String) (delay : Duration)
    (body : Routine) : (s.request label delay body).1.clock.Ordered := by
  by_cases hs : s.status = .playing
  · rw [request_playing hs]
    exact launch_ordered (s := s.ticketed delay) h _
  · rw [request_deferred hs]
    exact h

theorem Aside.ordered {s s' : Stage} (ha : s.Aside s') (h : s.clock.Ordered) :
    s'.clock.Ordered := by
  induction ha with
  | trans _ _ ih ih' => exact ih' (ih h)
  | scheduled timer delay s => exact h.schedule timer delay
  | elapsed hpop => exact h.popDue? hpop
  | reached _ => exact ⟨h.sorted, h.numbered⟩
  | _ => exact h

end Stage

theorem Turn.ordered {f : Frame} {s s' : Stage} {fs : List Frame} (ht : Turn f s s' fs)
    (h : s.clock.Ordered) : s'.clock.Ordered := by
  cases ht with
  | aside ha _ _ _ => exact ha.ordered h
  | commanded _ ha _ =>
      rw [Stage.command_clock]
      exact ha.ordered h
  | requested label delay body next => exact Stage.request_ordered h label delay body
  | @replayed d ds _ _ _ => exact Stage.launch_ordered (s := s.dequeue d ds) h d
  | drained _ => exact h
  | fired _ ha hc _ _ =>
      rw [Stage.fire_eq hc]
      exact ha.ordered h

/-- **The clock is ordered throughout a run.** -/
theorem Machine.Run.ordered {past : List Machine} {m : Machine} (h : Run past m) :
    m.stage.clock.Ordered := by
  refine h.stage_induction (P := fun s => s.clock.Ordered) ?_ ?_
  · intro config surface timers routines
    exact ⟨.nil, nofun⟩
  · intro f s s' fs ht hs
    exact ht.ordered hs

end Walkthrough
