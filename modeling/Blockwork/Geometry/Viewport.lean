import Blockwork.Breakdown
import Blockwork.Geometry.Rect

/-!
# The viewport

The viewport maps the workspace to the screen.  A point is moved by the pan and
then scaled by the zoom.  The way back divides by the zoom, which fails when the
zoom is zero.
-/

namespace Blockwork

/-- What part of the workspace is shown, and how large. -/
structure Viewport where
  /-- The scale. -/
  zoom : Float := 1.0
  /-- The shift to the right, before scaling. -/
  panX : Float := 0.0
  /-- The shift downward, before scaling. -/
  panY : Float := 0.0
  /-- The width of the screen. -/
  width : Float := 1920.0
  /-- The height of the screen. -/
  height : Float := 1080.0

namespace Viewport

/-- The screen point of a workspace point. -/
def toScreen (v : Viewport) (p : Point) : Point :=
  ⟨(p.x + v.panX) * v.zoom, (p.y + v.panY) * v.zoom⟩

/-- The workspace point of a screen point. -/
def toWorkspace (v : Viewport) (p : Point) : Except Breakdown Point :=
  if v.zoom == 0.0 then .error .divisionByZero
  else .ok ⟨p.x / v.zoom - v.panX, p.y / v.zoom - v.panY⟩

end Viewport

end Blockwork
