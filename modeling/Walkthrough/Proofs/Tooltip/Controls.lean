import Mathlib.Data.List.Nodup
import Walkthrough.Proofs.Tooltip.Cursor

/-!
# What the controls announce

A view is drawn from the index and the total of the steps, and an input is received at a cursor into
a list. Both set bounds, each in its own numbers, and the bounds agree: a control that is announced
does what it says, and one that is not does nothing.

* `Stage.view_index` — the index of a view is the cursor, and an action is there.
* `Stage.Steers` — an input moves the cursor exactly where a condition holds, and does nothing else.
* `Tooltip.View.dots_active` — exactly one dot is active, the one at the index.
* `controls_announced` — the controls do what the view announces.
-/

set_option autoImplicit false

namespace Walkthrough

namespace Tooltip.View

variable {v : Tooltip.View}

theorem trailing_eq_next_iff : v.trailing = .next ↔ v.index + 1 < v.total := by
  unfold trailing
  split <;> simp_all

theorem showsBack_iff : v.showsBack = true ↔ 0 < v.index := by simp [showsBack]

/-- The dots are numbered from zero on. -/
theorem dots_index : v.dots.map Dot.index = List.range v.total := by
  simp [dots, Function.comp_def]

/-- Exactly one dot is active. -/
theorem dots_active (h : v.index < v.total) : v.dots.filter Dot.active = [⟨v.index, true⟩] := by
  have hone : (List.range v.total).filter (· == v.index) = [v.index] := by
    rw [List.filter_beq, List.count_eq_one_of_mem List.nodup_range (List.mem_range.2 h)]
    rfl
  have hfilter : v.dots.filter Dot.active =
      ((List.range v.total).filter (· == v.index)).map fun i => ⟨i, i == v.index⟩ := by
    rw [dots, List.filter_map]
    rfl
  rw [hfilter, hone]
  simp

theorem mem_dots {dot : Dot} (h : dot ∈ v.dots) :
    dot.index < v.total ∧ (dot.active = false ↔ dot.index ≠ v.index) := by
  obtain ⟨i, hi, rfl⟩ := List.mem_map.1 h
  refine ⟨List.mem_range.1 hi, ?_⟩
  simp

end Tooltip.View

namespace Stage

variable {s : Stage} {v : Tooltip.View}

/-- A view is one of the action at the cursor. -/
theorem view_index (h : s.view = .ok (some v)) :
    (v.index : Int) = s.cursor ∧ v.index < v.total ∧
      v.total = s.player.document.actions.length := by
  unfold view Tooltip.View.of at h
  split at h
  · cases h
  · split at h
    · cases h
    · rename_i action haction
      split at h
      · cases h
      · cases hcontent : Tooltip.Content.ofAction action with
        | error cause =>
            rw [hcontent] at h
            cases h
        | ok content =>
            rw [hcontent] at h
            cases h
            unfold Document.action? at haction
            split at haction
            · rename_i hnonneg
              obtain ⟨hlt, -⟩ := List.getElem?_eq_some_iff.1 haction
              exact ⟨Int.toNat_of_nonneg hnonneg, hlt, rfl⟩
            · cases haction

/-- An input moves the cursor exactly where it is announced, and then to `place`. Nothing else
changes, and nothing follows. -/
structure Steers (s : Stage) (input : Tooltip.Input) (announced : Prop) (place : Int) : Prop where
  moves : (s.receive input).1.cursor ≠ s.cursor ↔ announced
  place : announced → (s.receive input).1.cursor = place
  only : s.receive input = (s.setCursor (s.receive input).1.cursor, [])

theorem steers_of_receive {input : Tooltip.Input} {announced condition : Prop}
    [Decidable condition] {place : Int}
    (hreceive : s.tooltip.receive input s.cursor s.player.document.actions.length =
      (s.tooltip, if condition then some (.moveTo place) else none))
    (hplace : condition → place ≠ s.cursor) (hannounced : announced ↔ condition) :
    s.Steers input announced place := by
  by_cases hcondition : condition
  · have hmoved : s.receive input = (s.setCursor place, []) := by
      simp only [receive, hreceive, if_pos hcondition]
    refine ⟨?_, ?_, ?_⟩
    · rw [hmoved]
      exact ⟨fun _ => hannounced.2 hcondition, fun _ => hplace hcondition⟩
    · intro _
      rw [hmoved]
      rfl
    · rw [hmoved]
      rfl
  · have hstays : s.receive input = (s, []) := by
      simp only [receive, hreceive, if_neg hcondition]
    have hnot : ¬ announced := fun h => hcondition (hannounced.1 h)
    refine ⟨?_, fun h => absurd h hnot, ?_⟩
    · rw [hstays]
      exact ⟨fun h => absurd rfl h, fun h => absurd h hnot⟩
    · rw [hstays]
      rfl

/-- **The controls do what the view announces.** Where a session has a view and its tooltip is not
leaving, the index of the view is within its total, which counts the actions. There is a way on
exactly where the trailing control says so, and a way back exactly where one is shown, each by one
step. The dots stand for the steps in their order, one of them is active, and each of the others
leads to its own step. None of these inputs changes anything but the cursor: the tooltip, the
session, its calls and timers and the surface stay as they are, and nothing is written down. -/
theorem controls_announced (hview : s.view = .ok (some v))
    (hphase : s.tooltip.phase = .appearing ∨ s.tooltip.phase = .shown) :
    (v.index : Int) = s.cursor ∧ v.index < v.total ∧
      v.total = s.player.document.actions.length ∧
      s.Steers .next (v.trailing = .next) (v.index + 1) ∧
      s.Steers .previous (v.showsBack = true) (v.index - 1) ∧
      v.dots.map Tooltip.Dot.index = List.range v.total ∧
      v.dots.filter Tooltip.Dot.active = [⟨v.index, true⟩] ∧
      ∀ dot ∈ v.dots, s.Steers (.jump dot.index) (dot.active = false) dot.index := by
  obtain ⟨hindex, hlt, htotal⟩ := view_index hview
  have hstays : ¬ s.tooltip.leaving = true := by
    rcases hphase with h | h <;> simp [Tooltip.leaving, h]
  have hreceive (input : Tooltip.Input) :
      ¬ (s.tooltip.leaving = true ∧ input ≠ .rest) := fun h => hstays h.1
  refine ⟨hindex, hlt, htotal, ?_, ?_, Tooltip.View.dots_index, Tooltip.View.dots_active hlt, ?_⟩
  · rw [hindex]
    refine steers_of_receive (by rw [Tooltip.receive, if_neg (hreceive _)]) ?_ ?_
    · intro _
      omega
    · rw [Tooltip.View.trailing_eq_next_iff]
      omega
  · rw [hindex]
    refine steers_of_receive (by rw [Tooltip.receive, if_neg (hreceive _)]) ?_ ?_
    · intro _
      omega
    · rw [Tooltip.View.showsBack_iff]
      omega
  · intro dot hdot
    obtain ⟨hdotlt, hactive⟩ := Tooltip.View.mem_dots hdot
    refine steers_of_receive (by rw [Tooltip.receive, if_neg (hreceive _)]) (fun h : _ ∧ _ => h.1)
      ?_
    rw [hactive]
    omega

/-- The first of two tooltips has a way on, no way back, and a dot that leads to the second. -/
theorem stroll_controls :
    let s := (strolled 4).stage
    (s.status = .playing ∧ s.tooltip.phase = .appearing) ∧
      ∃ v, s.view = .ok (some v) ∧ v.trailing = .next ∧ v.showsBack = false ∧
        v.dots = [⟨0, true⟩, ⟨1, false⟩] ∧ (s.receive .next).1.cursor = 1 ∧
        (s.receive .previous).1.cursor = s.cursor ∧ (s.receive (.jump 1)).1.cursor = 1 := by
  intro s
  have hview : s.view = .ok (some ⟨"one", ⟨0, 1⟩, s.surface.locate ⟨0, 1⟩, 0, 2⟩) := by
    decide +kernel
  have hphase : s.tooltip.phase = .appearing := rfl
  obtain ⟨-, -, -, hnext, hback, -, -, hdots⟩ := controls_announced hview (.inl hphase)
  have hjump := hdots ⟨1, false⟩ (.tail _ (.head _))
  refine ⟨⟨rfl, hphase⟩, _, hview, rfl, rfl, rfl, hnext.place rfl, ?_, hjump.place rfl⟩
  by_contra hmoved
  exact absurd (hback.moves.1 hmoved) (by decide)

end Stage

end Walkthrough
