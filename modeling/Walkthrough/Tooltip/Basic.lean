import Walkthrough.Tooltip.View

/-!
# Tooltips

A tooltip appears, is shown, and leaves after it was closed or finished. It moves from one anchor to
another; the host reports when an animation has come to rest.

* `Tooltip.align` — on to the anchor of a view.
* `Tooltip.receive` — the tooltip after an input, and what the player is to do about it. A tooltip
  that leaves only waits to rest.
-/

set_option autoImplicit false

namespace Walkthrough

/-- How far a tooltip has come. -/
inductive Tooltip.Phase where
  | appearing
  | shown
  | stopping
  | finishing
  deriving DecidableEq, Repr

/-- What happens to a tooltip. -/
inductive Tooltip.Input where
  | next
  | previous
  | jump (target : Nat)
  | close
  | finish
  | rest
  deriving DecidableEq, Repr

/-- What a player is to do about an input. -/
inductive Tooltip.Reaction where
  | moveTo (cursor : Int)
  | command (c : Command)
  deriving DecidableEq, Repr

/-- A tooltip on its way from one anchor to another. -/
structure Tooltip where
  phase : Tooltip.Phase := .appearing
  start : Point := {}
  target : Point := {}
  deriving DecidableEq, Repr

namespace Tooltip

/-- Whether a tooltip is on its way out. -/
def leaving (t : Tooltip) : Bool := t.phase = .stopping || t.phase = .finishing

/-- Moves on to the anchor of a view; a tooltip that is there already stays as it is. -/
def align (v : Tooltip.View) (t : Tooltip) : Tooltip :=
  if v.anchor.same t.target then t
  else { phase := .appearing, start := t.target, target := v.anchor }

/-- A tooltip whose animation has come to rest. One that was leaving starts over, and the session
ends. -/
def rest (t : Tooltip) : Tooltip × Option Tooltip.Reaction :=
  match t.phase with
  | .appearing => ({ t with phase := .shown }, none)
  | .shown => (t, none)
  | .stopping => ({}, some (.command .stop))
  | .finishing => ({}, some (.command .finish))

/-- The tooltip after an input, at a cursor into a list of `total` actions. -/
def receive (input : Tooltip.Input) (cursor : Int) (total : Nat) (t : Tooltip) :
    Tooltip × Option Tooltip.Reaction :=
  if t.leaving ∧ input ≠ .rest then (t, none)
  else
    match input with
    | .next => (t, if cursor + 1 < total then some (.moveTo (cursor + 1)) else none)
    | .previous => (t, if 0 < cursor then some (.moveTo (cursor - 1)) else none)
    | .jump target =>
      (t, if (target : Int) ≠ cursor ∧ target < total then some (.moveTo target) else none)
    | .close => ({ t with phase := .stopping }, none)
    | .finish => ({ t with phase := .finishing }, none)
    | .rest => t.rest

end Tooltip

end Walkthrough
