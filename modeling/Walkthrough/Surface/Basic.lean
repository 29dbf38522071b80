import Walkthrough.Surface.Position

/-!
# Editing surfaces

The surface a walkthrough plays over: a text that the user may edit unless it is locked, beside the
canonical text last put into it.

* `SurfaceCall` — what a player asks of its surface.
* `Surface` — a surface that keeps its texts in memory and lays its characters out on a grid.
-/

set_option autoImplicit false

namespace Walkthrough

/-- What a player asks of its surface. -/
inductive SurfaceCall where
  | setContent (text : String)
  | setReadOnly (value : Bool)
  | focus
  | revert
  deriving DecidableEq, Repr

/-- A surface kept in memory. -/
structure Surface where
  content : String := ""
  canonical : String := ""
  readOnly : Bool := false
  focused : Bool := false
  charWidth : Float := 8
  lineHeight : Float := 18
  deriving DecidableEq, Repr

namespace Surface

/-- The effect of a call. New content is canonical at once, and reverting goes back to the canonical
content. -/
def apply (call : SurfaceCall) (s : Surface) : Surface :=
  match call with
  | .setContent text => { s with content := text, canonical := text }
  | .setReadOnly value => { s with readOnly := value }
  | .focus => { s with focused := true }
  | .revert => { s with content := s.canonical }

/-- An edit by the user, refused while the surface is locked; also whether it was accepted. -/
def edit (text : String) (s : Surface) : Bool × Surface :=
  if s.readOnly then (false, s) else (true, { s with content := text })

/-- Whether the content differs from the canonical content. -/
def modified (s : Surface) : Bool := s.content ≠ s.canonical

/-- Where a position stands: characters side by side, lines one below the other. -/
def locate (p : Position) (s : Surface) : Point :=
  ⟨p.ch.toNat.toFloat * s.charWidth, p.line.toNat.toFloat * s.lineHeight⟩

end Surface

end Walkthrough
