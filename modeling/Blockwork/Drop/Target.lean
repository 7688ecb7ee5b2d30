import Blockwork.Geometry.Basic
import Blockwork.Registry.Walk

/-!
# Drop targets

Where a dropped block lands is decided by the pointer, in this order.

* A value lands in the first input that holds no live block and has the pointer in
  its rectangle.  Blocks are asked in order of creation and inputs in the order of
  the label.
* A block lands in the body that has the pointer within a margin of its rectangle.
  Of several the deepest wins, and of equally deep ones the first.
* A block lands below the first stackable block whose lower edge is near its
  release point.  This is a position, not an edge.
* Otherwise it stays where it was released.

The dragged block and everything below it are no targets.  A drop outside the
workspace, or on the deletion rectangle, deletes the block instead.
-/

namespace Blockwork

/-- Where a dropped block lands. -/
inductive Target
  /-- Nowhere in particular. -/
  | nowhere
  | input (parent : BlockId) (slot : String)
  | body (container : BlockId)
  /-- Below a block, at a position. -/
  | below (upper : BlockId) (position : Point)

namespace Target

/-- The name of the kind of a target. -/
def name : Target → String
  | .nowhere => "none"
  | .input .. => "input"
  | .body _ => "container"
  | .below .. => "below"

/-- The block that a target is about. -/
def block? : Target → Option BlockId
  | .nowhere => none
  | .input parent _ => some parent
  | .body container => some container
  | .below upper _ => some upper

/-- The input that a target is. -/
def slot? : Target → Option String
  | .input _ slot => some slot
  | _ => none

/-- The position that a target gives to the block. -/
def position? : Target → Option Point
  | .below _ position => some position
  | _ => none

/-- Whether a block that lands here gets a parent. -/
def attaches : Target → Bool
  | .input .. | .body _ => true
  | .nowhere | .below .. => false

/-- The margin around a body. -/
def bodyMargin : Float := 8.0
/-- The margin to the sides of an upper block. -/
def sideMargin : Float := 10.0
/-- How far above its lower edge a block still counts as below it. -/
def bandAbove : Float := 16.0
/-- How far below its lower edge a block still counts as below it. -/
def bandBelow : Float := 20.0
/-- The gap below an upper block. -/
def belowGap : Float := 6.0
/-- The margin around the workspace. -/
def workspaceMargin : Float := 6.0

variable {σ : Type} [Survey σ]

/-- The first item of a list that passes a question. -/
def firstHit {α : Type} (hit : α → Query σ Bool) : List α → Query σ (Option α)
  | [] => return none
  | a :: as => do if ← hit a then return some a else firstHit hit as

/-- Whether a workspace rectangle, if there is one, has the pointer on the
screen. -/
def underPointer (pointer : Point) (margin : Float) : Option Rect → Query σ Bool
  | none => return false
  | some r => do return ((← Survey.screenRect r).expanded margin).contains pointer

/-- The inputs that a value may land in. -/
def openSlots (r : Registry) (excluded : List BlockId) : List (BlockId × String) :=
  (r.entries.filter fun e => !excluded.contains e.1).flatMap fun e =>
    (e.2.slots.filter fun s => !s.2.child.any r.contains).map fun s => (e.1, s.1)

/-- The first open input under the pointer. -/
def inputAt? (pointer : Point) (excluded : List BlockId) : Query σ (Option (BlockId × String)) := do
  firstHit (fun s => do
    match ← Survey.slotRect s.1 s.2 with
    | none => return false
    | some r => return (← Survey.screenRect r).contains pointer)
    (openSlots (← read).registry excluded)

/-- The blocks whose bodies a block may land in. -/
def openBodies (r : Registry) (excluded : List BlockId) : List BlockId :=
  (r.entries.filter fun e => !excluded.contains e.1 && e.2.kind.hasBody).map Prod.fst

/-- The items of a list that pass a question. -/
def hits {α : Type} (hit : α → Query σ Bool) : List α → Query σ (List α)
  | [] => return []
  | a :: as => do
      let here ← hit a
      let rest ← hits hit as
      return if here then a :: rest else rest

/-- The first of the items of greatest weight. -/
def firstHeaviest {α : Type} (weight : α → Nat) : List α → Option α
  | [] => none
  | a :: as =>
      match firstHeaviest weight as with
      | none => some a
      | some b => if weight a < weight b then some b else some a

/-- The deepest open body near the pointer. -/
def bodyAt? (pointer : Point) (excluded : List BlockId) : Query σ (Option BlockId) := do
  let r := (← read).registry
  let near ← hits (fun id => do underPointer pointer bodyMargin (← Survey.bodyRect id))
    (openBodies r excluded)
  return firstHeaviest r.depth near

/-- Whether a release point is near the lower edge of a box. -/
def nearLowerEdge (box : Rect) (p : Point) : Bool :=
  (box.x - sideMargin < p.x && p.x < box.right + sideMargin) &&
    (box.bottom - bandAbove < p.y && p.y < box.bottom + bandBelow)

/-- The first box with the release point near its lower edge, and its block. -/
def upperAt? (release : Point) : List BlockId → Query σ (Option (BlockId × Rect))
  | [] => return none
  | id :: ids => do
      let box ← Survey.boundingBox id
      if nearLowerEdge box release then return some (id, box) else upperAt? release ids

/-- The blocks that a block may land below. -/
def uppers (r : Registry) (excluded : List BlockId) : List BlockId :=
  (r.entries.filter fun e => !excluded.contains e.1 && e.2.kind.stackable).map Prod.fst

/-- Where a block lands.  The pointer is on the screen.  The release point is in
the workspace, and is where the pointer is unless it is given. -/
def resolve (dragged : BlockId) (pointer : Point) (release : Option Point) : Query σ Target := do
  let r := (← read).registry
  let b ← .ofExcept (r.require dragged)
  let release ← match release with
    | some p => pure p
    | none => Survey.workspacePoint pointer
  let excluded := dragged :: r.descendants dragged
  let slot ← if b.kind.fitsInput then inputAt? pointer excluded else pure none
  match slot with
  | some (parent, name) => return .input parent name
  | none =>
      match ← bodyAt? pointer excluded with
      | some container => return .body container
      | none =>
          match ← upperAt? release (uppers r excluded) with
          | some (id, box) => return .below id ⟨box.x, box.bottom + belowGap⟩
          | none => return .nowhere

/-- Whether a drop at a screen point deletes the block. -/
def deletes (pointer : Point) : Query σ Bool := do
  let workspace ← Survey.workspaceRect
  if !(workspace.expanded workspaceMargin).contains pointer then return true
  match ← Survey.deletionRect with
  | some trash => return trash.contains pointer
  | none => return false

end Target

end Blockwork
