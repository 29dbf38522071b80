import Walkthrough.Proofs.Playback.Orders
import Walkthrough.Proofs.Playback.Record

/-!
# The host's flag

A host may keep a flag of its own and pass it whenever it likes; only a change of the flag commands
anything. The flag is kept in mind before the command is issued, so a call that is replayed by this
very command may pass the flag again.

* `changes` — the values that differ from the one before; `changes_alternate`.
* `Machine.passed?`, `Machine.ordersByFlag` — the values that machines pass, and the commands that
  they issue by them.
* `step_flag` — a step keeps the value in mind that it passes, and no other step changes it.
* `order?_of_passed` — a step that passes a value issues a command if the value is another one.
* `Machine.FlagDriven` — steps that issue commands only by the flag.
* `status_follows_flag` — a session that is driven by the flag plays while the flag is up; in any
  run the flag commands play and pause in turn.
-/

set_option autoImplicit false

namespace Walkthrough

/-! ## Changes of a value -/

/-- The values that differ from the one before; `flag` comes before the first. -/
def changes (flag : Bool) : List Bool → List Bool
  | [] => []
  | v :: vs => if v = flag then changes flag vs else v :: changes v vs

theorem changes_concat (flag : Bool) (vs : List Bool) (v : Bool) :
    changes flag (vs ++ [v]) =
      changes flag vs ++ if v = vs.getLastD flag then [] else [v] := by
  induction vs generalizing flag with
  | nil =>
      rfl
  | cons w vs ih =>
      rw [List.cons_append, changes, changes, List.getLastD_cons]
      split
      · rename_i hw
        rw [ih, hw]
      · rw [ih, List.cons_append]

/-- Changes go back and forth. -/
theorem changes_alternate {flag v : Bool} {vs : List Bool} {i : Nat}
    (h : (changes flag vs)[i]? = some v) : v = if i % 2 = 0 then !flag else flag := by
  induction vs generalizing flag i with
  | nil => cases h
  | cons w vs ih =>
      rw [changes] at h
      split at h
      · exact ih h
      · rename_i hw
        have hw : w = !flag := Bool.eq_not.2 hw
        cases i with
        | zero =>
            cases h
            exact hw
        | succ i =>
            have hv := ih h
            rw [hw, Bool.not_not] at hv
            have hparity : (i + 1) % 2 = 0 ↔ ¬ i % 2 = 0 := by omega
            simp only [hparity, ite_not]
            exact hv

/-- The command that belongs to a value of the flag. -/
def Command.ofFlag (value : Bool) : Command := if value then .play else .pause

/-! ## What keeps the flag -/

namespace Stage

theorem follow_flag (value : Bool) (s : Stage) : (s.follow value).1.player.flag = value := by
  by_cases h : value ≠ s.player.flag
  · rw [follow_changed h]
    exact (command_setting _ _).flag
  · rw [follow_unchanged h]
    rfl

theorem receive_flag (input : Tooltip.Input) (s : Stage) :
    (s.receive input).1.player.flag = s.player.flag := by
  unfold receive
  rcases s.tooltip.receive input s.cursor s.player.document.actions.length with
    ⟨tooltip, _ | ⟨cursor | c⟩⟩
  · rfl
  · rfl
  · exact (command_setting c _).flag

theorem align_flag (s : Stage) : s.align.2.player.flag = s.player.flag := by
  unfold align
  split <;> rfl

end Stage

namespace Machine

variable {past : List Machine} {m m' : Machine}

/-! ## What is passed -/

/-- The value of the flag that a machine passes in its next step. -/
def passed? (m : Machine) : Option Bool :=
  match m.frames with
  | .run (.perform (.follow value) _) :: _ => some value
  | _ => none

/-- A step keeps the value in mind that it passes, and no other step changes it. -/
theorem step_flag (h : m.step = some m') :
    m'.stage.player.flag = m.passed?.getD m.stage.player.flag := by
  obtain ⟨f, rest, p, hframes, rfl, hplay⟩ := step_play h
  simp only [passed?, hframes]
  cases hplay with
  | performed op next =>
      cases op with
      | command c => exact (Stage.command_setting c _).flag
      | toggle => exact (Stage.command_setting _ _).flag
      | follow value => exact Stage.follow_flag value _
      | load text => exact (Stage.load_setting text _).flag
      | fire timer => exact (Stage.fire_setting timer _).flag
      | tooltip input => exact Stage.receive_flag input _
      | align => exact Stage.align_flag _
      | _ => rfl
  | @control r _ hr =>
      cases r with
      | perform op next => cases hr
      | _ => rfl
  | requested label delay body next => exact (Stage.request_setting label delay body _).flag
  | replayed _ _ => exact (Stage.launch_setting _ _).flag
  | popped fired next _ => exact (Stage.fire_setting _ _).flag
  | _ => rfl

/-! ## What is commanded -/

/-- The commands that machines issue in the steps in which they pass the flag. -/
def ordersByFlag (ms : List Machine) : List Command :=
  ((happened (ms.filter (·.passed?.isSome))).filterMap Event.issued?).map Prod.fst

/-- In its next step a machine issues a command only by the flag, and does not begin to play an
empty list of actions. -/
def FlagDriven (m : Machine) : Prop :=
  ∀ o ∈ m.events.filterMap Event.issued?, m.passed?.isSome = true ∧
    (o.1 = .play → m.stage.status = .idle → m.stage.hasActions = true)

instance : DecidablePred FlagDriven := fun m =>
  inferInstanceAs (Decidable (∀ o ∈ m.events.filterMap Event.issued?, m.passed?.isSome = true ∧
    (o.1 = .play → m.stage.status = .idle → m.stage.hasActions = true)))

/-- A step writes its command down. -/
theorem step_issues (h : m.step = some m') :
    m.events.filterMap Event.issued? = m.order?.toList := by
  have hissued := (step_status h).2
  rw [Stage.issued, step_journal h, List.filterMap_append, List.filterMap_reverse] at hissued
  have hreverse := List.append_cancel_right hissued
  rw [List.reverse_eq_iff] at hreverse
  rw [hreverse]
  cases m.order? <;> rfl

theorem order?_of_passed {value : Bool} (h : m.passed? = some value) :
    m.order? =
      if value = m.stage.player.flag then none
      else some (.ofFlag value, m.stage.hasActions) := by
  unfold passed? at h
  split at h
  · rename_i v next rest hframes
    cases h
    simp only [order?, hframes, List.head?_cons, Option.bind_some, Frame.orderWith?, Frame.order?,
      Stage.orders, ne_eq, ite_not]
    split <;> rfl
  · cases h

theorem ordersByFlag_concat (ms : List Machine) (h : m.step = some m') :
    ordersByFlag (ms ++ [m]) =
      ordersByFlag ms ++
        if m.passed?.isSome = true then m.order?.toList.map Prod.fst else [] := by
  rw [ordersByFlag, List.filter_append, List.filter_cons, List.filter_nil]
  split
  · rw [filterMap_happened_concat, step_issues h, List.map_append, ordersByFlag]
  · rw [List.append_nil, List.append_nil, ordersByFlag]

/-- What the flag commands are the changes of the values that are passed. -/
theorem Run.ordersByFlag (h : Run past m) :
    m.stage.player.flag = (past.filterMap passed?).getLastD false ∧
      ordersByFlag past = (changes false (past.filterMap passed?)).map .ofFlag := by
  induction h with
  | new h =>
      cases Stage.eq_of_new h
      exact ⟨rfl, rfl⟩
  | host r _ ih => exact ih
  | user text _ ih => exact ih
  | @step past m m' _ hm ih =>
      obtain ⟨hflag, horders⟩ := ih
      rw [filterMap_concat, step_flag hm, ordersByFlag_concat past hm, horders]
      cases hpassed : m.passed? with
      | none =>
          simp only [Option.toList_none, List.append_nil]
          exact ⟨hflag, List.append_nil _⟩
      | some value =>
          refine ⟨List.getLastD_concat.symm, ?_⟩
          rw [if_pos Option.isSome_some, Option.toList_some, changes_concat, List.map_append,
            order?_of_passed hpassed, ← hflag]
          split <;> rfl

/-! ## The status and the flag -/

/-- Where the status has followed the flag, the command of a change makes it follow again. -/
theorem after_ofFlag {status : Status} {flag value actions : Bool}
    (h : status = .playing ↔ flag = true) (hchanged : value ≠ flag)
    (hactions : Command.ofFlag value = .play → status = .idle → actions = true) :
    status.after (.ofFlag value, actions) = .playing ↔ value = true := by
  cases value with
  | true =>
      have hflag : flag = false := Bool.eq_not.2 hchanged.symm
      cases status with
      | idle => simp [Status.after, Transition.of, Command.ofFlag, hactions rfl rfl]
      | playing => simp [hflag] at h
      | paused => simp [Status.after, Transition.of, Command.ofFlag]
  | false =>
      have hflag : flag = true := Bool.eq_not.2 hchanged.symm
      rw [h.2 hflag]
      simp [Status.after, Transition.of, Command.ofFlag]

/-- A step that is driven by the flag keeps the status at the flag. -/
theorem FlagDriven.step (hdriven : m.FlagDriven)
    (h : m.stage.status = .playing ↔ m.stage.player.flag = true) (hm : m.step = some m') :
    m'.stage.status = .playing ↔ m'.stage.player.flag = true := by
  rw [FlagDriven, step_issues hm] at hdriven
  rw [(step_status hm).1, step_flag hm]
  cases hpassed : m.passed? with
  | none =>
      cases horder : m.order? with
      | none => exact h
      | some o =>
          have hpasses := (hdriven o (by simp [horder])).1
          rw [hpassed] at hpasses
          cases hpasses
  | some value =>
      have horder := order?_of_passed hpassed
      split at horder
      · rename_i hsame
        rw [horder, hsame]
        exact h
      · rename_i hchanged
        rw [horder] at hdriven ⊢
        have hactions := (hdriven _ (List.mem_singleton_self _)).2
        exact after_ofFlag h hchanged hactions

theorem Run.follows_flag (h : Run past m) (hdriven : ∀ x ∈ past, x.FlagDriven) :
    m.stage.status = .playing ↔ m.stage.player.flag = true := by
  induction h with
  | new h =>
      cases Stage.eq_of_new h
      exact ⟨nofun, nofun⟩
  | host r _ ih => exact ih hdriven
  | user text _ ih => exact ih hdriven
  | @step past m m' _ hm ih =>
      obtain ⟨hpast, hlast⟩ := List.forall_mem_append.1 hdriven
      exact (hlast m (List.mem_singleton_self m)).step (ih hpast) hm

/-- **A session that is driven by the flag follows it.** If no command is issued but by the flag,
and no empty list of actions is begun, then at every moment of a run, inside of calls and replays
too, the session plays if and only if the last value that was passed is `true`. In any run at all,
what the flag commands are the changes of the values that are passed, one command for each change:
they begin with play and go on with pause and play in turn. -/
theorem status_follows_flag (h : Run past m) :
    ((∀ x ∈ past, x.FlagDriven) →
        (m.stage.status = .playing ↔ (past.filterMap passed?).getLast? = some true)) ∧
      ordersByFlag past = (changes false (past.filterMap passed?)).map .ofFlag ∧
      ∀ i c, (ordersByFlag past)[i]? = some c → c = if i % 2 = 0 then .play else .pause := by
  obtain ⟨hflag, horders⟩ := h.ordersByFlag
  refine ⟨?_, horders, ?_⟩
  · intro hdriven
    rw [h.follows_flag hdriven, hflag, List.getLastD_eq_getLast?]
    cases (past.filterMap passed?).getLast? with
    | none => exact ⟨nofun, nofun⟩
    | some value => exact (Option.some_inj).symm
  · intro i c hc
    rw [horders, List.getElem?_map, Option.map_eq_some_iff] at hc
    obtain ⟨value, hvalue, rfl⟩ := hc
    rw [changes_alternate hvalue]
    split <;> rfl

end Machine

/-! ## An example -/

/-- A call that lowers the flag, defers a call and raises the flag again. -/
def flicker : Routine :=
  .perform (.follow false) fun _ => .request "late" 0 .done (.perform (.follow true) fun _ => .done)

/-- A host that raises the flag twice, lowers it, defers two calls and raises it again. -/
def signals : Routine :=
  .perform (.loadDocument ⟨"let a = 1;", [⟨"step", .text "0", none⟩]⟩) fun _ =>
    .perform (.follow true) fun _ => .perform (.follow true) fun _ =>
      .perform (.follow false) fun _ =>
        .request "early" 0 flicker
          (.request "next" 0 .done (.perform (.follow true) fun _ => .done))

namespace Machine

/-- The signals after some steps. -/
def signalled (steps : Nat) : Machine := Machine.run steps ⟨.plain, [.run signals]⟩

/-- What has stepped by then. -/
def signalledPast (steps : Nat) : List Machine := trace steps ⟨.plain, [.run signals]⟩

/-- The last raise of the host replays a call that lowers the flag, which pauses the session in the
middle of the replay, and raises it again. -/
theorem signals_followed :
    (Run (signalledPast 14) (signalled 14) ∧ (∀ x ∈ signalledPast 14, x.FlagDriven) ∧
        (signalledPast 14).filterMap passed? = [true, true, false, true, false] ∧
        (signalled 14).frames.any (·.isReplay) = true ∧ (signalled 14).stage.status ≠ .playing) ∧
      Run (signalledPast 26) (signalled 26) ∧ (∀ x ∈ signalledPast 26, x.FlagDriven) ∧
        (signalledPast 26).filterMap passed? = [true, true, false, true, false, true] ∧
        ordersByFlag (signalledPast 26) = [.play, .pause, .play, .pause, .play] ∧
        (signalled 26).stage.status = .playing := by
  have hrun (steps : Nat) : Run (signalledPast steps) (signalled steps) :=
    ((Run.new Stage.plain_new).host signals).trace steps
  have hdriven : ∀ x ∈ signalledPast 14, x.FlagDriven := by decide +kernel
  have hdriven' : ∀ x ∈ signalledPast 26, x.FlagDriven := by decide +kernel
  have hpassed : (signalledPast 14).filterMap passed? = [true, true, false, true, false] := rfl
  have hpassed' : (signalledPast 26).filterMap passed? = [true, true, false, true, false, true] :=
    rfl
  obtain ⟨hstatus, _⟩ := status_follows_flag (hrun 14)
  obtain ⟨hstatus', horders, _⟩ := status_follows_flag (hrun 26)
  rw [hpassed'] at horders
  refine ⟨⟨hrun 14, hdriven, hpassed, rfl, ?_⟩, hrun 26, hdriven', hpassed', horders, ?_⟩
  · rw [ne_eq, hstatus hdriven, hpassed]
    decide
  · rw [hstatus' hdriven', hpassed']
    rfl

end Machine

end Walkthrough
