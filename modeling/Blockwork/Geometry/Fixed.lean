import Blockwork.Geometry.Basic

/-!
# Fixed geometry

The simplest geometry answers from tables and keeps nothing.  A block without a
row is an empty rectangle at the origin, an input or a body without a row has no
rectangle, and the screen is the workspace.  A row may hold a breakdown in place of a
rectangle, and then whoever asks for it breaks down.
-/

namespace Blockwork

/-- A table of rectangles. -/
abbrev RectTable := List (String × Except Breakdown Rect)

/-- The rectangle of a row, if there is the row. -/
def RectTable.ask {σ : Type} (t : RectTable) (name : String) : Query σ (Option Rect) :=
  match List.lookup name t with
  | some row => .ofBreakdown (row.map some)
  | none => return none

/-- The tables of a fixed geometry. -/
structure FixedGeometry where
  /-- The rectangles of blocks. -/
  boxes : RectTable := []
  /-- The rectangles of inputs, by block and name with a point between. -/
  slots : RectTable := []
  /-- The rectangles of bodies. -/
  bodies : RectTable := []
  /-- The rectangle of the workspace. -/
  workspace : Except Breakdown Rect := .ok ⟨0.0, 0.0, 1000.0, 1000.0⟩

instance : Geometry FixedGeometry where
  boundingBox id := do return (← (← get).boxes.ask id).getD ⟨0.0, 0.0, 0.0, 0.0⟩
  screenPoint p := return p
  workspacePoint p := return p
  slotRect id name := do (← get).slots.ask (id ++ "." ++ name)
  bodyRect id := do (← get).bodies.ask id
  workspaceRect := do .ofBreakdown (← get).workspace
  deletionRect := return none
  childrenChanged _ s := s
  forget _ s := s
  reset s := s

end Blockwork
