/-!
# Points and rectangles

Coordinates are doubles.  A rectangle is given by its upper left corner and its
extent, and a point on an edge lies in it.  An extent may be negative, and then
no point lies in the rectangle.
-/

namespace Blockwork

/-- A point of the workspace or the screen. -/
structure Point where
  /-- To the right. -/
  x : Float
  /-- Downward. -/
  y : Float

namespace Point

def origin : Point := ⟨0.0, 0.0⟩

/-- Componentwise sum. -/
def add (p q : Point) : Point := ⟨p.x + q.x, p.y + q.y⟩

/-- Componentwise difference. -/
def sub (p q : Point) : Point := ⟨p.x - q.x, p.y - q.y⟩

end Point

/-- An upright rectangle. -/
structure Rect where
  /-- The left edge. -/
  x : Float
  /-- The upper edge. -/
  y : Float
  width : Float
  height : Float

namespace Rect

/-- The right edge. -/
def right (r : Rect) : Float := r.x + r.width

/-- The lower edge. -/
def bottom (r : Rect) : Float := r.y + r.height

/-- The upper left corner. -/
def corner (r : Rect) : Point := ⟨r.x, r.y⟩

/-- The lower right corner. -/
def farCorner (r : Rect) : Point := ⟨r.right, r.bottom⟩

/-- Whether a point lies in the rectangle or on its edge. -/
def contains (r : Rect) (p : Point) : Bool :=
  r.x ≤ p.x && p.x ≤ r.right && (r.y ≤ p.y && p.y ≤ r.bottom)

/-- The rectangle with a margin on every side. -/
def expanded (r : Rect) (margin : Float) : Rect :=
  ⟨r.x - margin, r.y - margin, r.width + 2.0 * margin, r.height + 2.0 * margin⟩

/-- The rectangle with two points as opposite corners. -/
def ofCorners (p q : Point) : Rect :=
  ⟨if q.x < p.x then q.x else p.x, if q.y < p.y then q.y else p.y,
    (q.x - p.x).abs, (q.y - p.y).abs⟩

end Rect

end Blockwork
